/-
What can go wrong in a bundling run, and how it is told. Each error ends the
run.
-/
import Bundler.ModuleId

namespace Bundler

/-- Why a module was not built. -/
inductive BuildError where
  /-- It could not be read or understood, or not in time. -/
  | parse (path : Path) (message : String)
  /-- No code could be generated for it. -/
  | transform (path : Path) (message : String)
deriving DecidableEq, Repr

namespace BuildError

def path : BuildError → Path
  | parse p _ | transform p _ => p

/-- The name of the kind of error. -/
def kind : BuildError → String
  | parse .. => "ParseError"
  | transform .. => "TransformError"

def message : BuildError → String
  | parse p m => "parse error in " ++ p.display ++ ": " ++ m
  | transform p m => "transform error in " ++ p.display ++ ": " ++ m

end BuildError

/-- A build that failed, and the import that asked for it; the entry is not
asked for by an import. -/
structure DiscoveryError where
  module : ModuleId
  importer : Option ModuleId
  specifier : Option String
  source : BuildError
deriving DecidableEq, Repr

def DiscoveryError.message (e : DiscoveryError) : String :=
  match e.importer, e.specifier with
  | some importer, some specifier =>
    e.source.kind ++ " while building " ++ e.module.text ++ " (imported as '" ++ specifier ++
      "' from " ++ importer.text ++ ")"
  | _, _ => e.source.kind ++ " while building entry module " ++ e.module.text

/-- Why no artifact was made from a table. -/
inductive EmitError where
  | missingEntry (entry : ModuleId)
  | danglingDependency (module : ModuleId) (specifier : String) (target : ModuleId)
deriving DecidableEq, Repr

def EmitError.message : EmitError → String
  | missingEntry entry => "entry module " ++ entry.text ++ " is not part of the module table"
  | danglingDependency module specifier target =>
    "module " ++ module.text ++ " maps '" ++ specifier ++ "' to " ++ target.text ++
      ", which is not part of the module table"

/-- Why a run ended without a bundle. -/
inductive BundleError where
  | discovery (error : DiscoveryError)
  | emit (error : EmitError)
  | config (text : String)
  /-- The artifact could not be written. -/
  | io (path : Path) (cause : String)
deriving DecidableEq, Repr

/-- What lies behind an error. -/
def BundleError.causes : BundleError → List String
  | discovery e => [e.source.message]
  | io _ cause => [cause]
  | emit _ | config _ => []

def BundleError.message : BundleError → String
  | discovery e => e.message
  | emit e => e.message
  | config text => "invalid configuration: " ++ text
  | io path cause => "failed to write " ++ path.display ++ ": " ++ cause

end Bundler
