/-
Generated code: what a module becomes before the loader runs it. A module
that uses a construct its code could not hold is refused. All others are
resolved, lowered if the target asks for it, turned into the body of a
function over `require` and `exports`, given the helpers they need and names
that stay apart, and printed.
-/
import Bundler.Options
import Bundler.Script.Lowering
import Bundler.Script.ModuleForm
import Bundler.Script.Naming
import Bundler.Script.Parens
import Bundler.Script.Print
import Bundler.Script.Support

namespace Bundler.Script

/-- Why no code can be generated for a module: the construct, and the line it
is on. -/
structure GenerateFault where
  construct : UnsupportedConstruct
  line : Nat
deriving BEq, Repr

def GenerateFault.message (f : GenerateFault) : String :=
  s!"{f.construct.text} is not supported in bundled modules (line {f.line})"

/-- The first construct of a module that its code could not hold. -/
def Module.fault? (m : Module) : Option GenerateFault :=
  m.unsupported.head?.map fun u => ⟨u.construct, (Location.ofOffset m.text u.offset).line⟩

/-- Puts the helpers that a body needs after its directives. -/
def withHelpers (body : List Stmt) : Fresh (List Stmt) := do
  let (directives, rest) := splitDirectives body
  return directives ++ (← helperStmts rest) ++ rest

/-- The kind of variable that generated code declares. -/
def variableKind : Target → VarKind
  | .es5 => .var
  | .es2015 => .constKind

/-- The code of a module as statements, before names are chosen. -/
def Module.code (m : Module) (target : Target) : Fresh (List Stmt) := do
  let items ← resolveItems m.items
  let items ← match target with
    | .es5 => lowerItems items
    | .es2015 => pure items
  withHelpers (← moduleBody (variableKind target) items)

/-- The text of the code of a module. -/
def Module.generate (m : Module) (target : Target) : Except GenerateFault String :=
  match m.fault? with
  | some fault => .error fault
  | none =>
    let (body, _) := (m.code target).run firstFreshScope
    .ok (printProgram (parenthesize (nameApart body)))

end Bundler.Script
