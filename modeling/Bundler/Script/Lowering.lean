/-
Older syntax for newer: the passes that lower a module, in the order in which
each finds what it needs. What is newer than classes, patterns and arrow
functions stays as it is, and so do generator functions and uses of `super`.
-/
import Bundler.Script.Lowering.Block
import Bundler.Script.Lowering.Call
import Bundler.Script.Lowering.Class
import Bundler.Script.Lowering.Destructuring
import Bundler.Script.Lowering.Function
import Bundler.Script.Lowering.Literal
import Bundler.Script.Lowering.Loop
import Bundler.Script.Lowering.Operator

namespace Bundler.Script

/-- A rewriting of a module's items. -/
abbrev Pass := List ModuleItem → Fresh (List ModuleItem)

/-- The pass that applies a step everywhere. -/
def Pass.ofStep (step : Rewrite Fresh → Rewrite Fresh) : Pass := fun items =>
  (Rewrite.run step (depthBound items)).items items

/-- The pass of a step that declares variables. -/
def Pass.ofDeclaring (step : Rewrite Declaring → Rewrite Declaring) : Pass := fun items =>
  return (← (((Rewrite.run step (depthBound items)).items items).run [])).1

/-- The passes, in order. -/
def loweringPasses : List Pass := [
  .ofStep lowerRegExps,
  .ofStep lowerBlockFunctions,
  fun items => return (← (((Rewrite.run lowerTemplates (depthBound items)).items items).run [])).1,
  .ofStep lowerClasses,
  fun items => ((Rewrite.run lowerNewTarget (depthBound items)).items items).run .none,
  .ofDeclaring lowerSpread,
  .ofStep lowerShorthands,
  .ofStep lowerFunctionNames,
  .ofDeclaring lowerLoops,
  .ofStep lowerParameters,
  fun items => return (← (((Rewrite.run lowerArrows (depthBound items)).items items).run false).run {}).1,
  .ofStep lowerRepeatedKeys,
  .ofStep lowerInstanceof,
  .ofStep lowerTypeof,
  .ofDeclaring lowerComputedKeys,
  .ofDeclaring lowerPatterns,
  fun items => return renameConflicts items,
  .ofDeclaring lowerRounds,
  fun items => return (Rewrite.run lowerVariables (depthBound items)).items items false]

/-- Lowers a module. -/
def lowerItems : Pass := fun items =>
  loweringPasses.foldlM (fun items pass => pass items) items

end Bundler.Script
