/-
Building a module: its source is read and understood, its imports are
resolved, and its code is generated. What a source means is left open, so
that a builder works for any language of modules.
-/
import Bundler.Error
import Bundler.ModuleTable
import Bundler.Options
import Bundler.Script.Generate
import Bundler.Sha256
import Bundler.Storage

namespace Bundler

/-- A language of modules, with its syntax trees. -/
structure Transform (τ : Type) where
  parse : String → Except String τ
  /-- The import strings of a module, in order, each as often as it occurs. -/
  imports : τ → List String
  generate : τ → Target → Except String String

/-- JavaScript modules. -/
def scriptTransform : Transform Script.Module where
  parse source := (Script.Module.parse source).mapError (·.message)
  imports := Script.Module.importSources
  generate m target := (m.generate target).mapError (·.message)

/-- What is the same for all builds of a run. -/
structure Builder (τ : Type) where
  transform : Transform τ
  target : Target

namespace Builder

variable {τ : Type}

/-- Resolves the import strings of a module in a directory, each at its first
occurrence. -/
def resolveImports (directory : Path) :
    List String → DependencyMap → Except (String × NonUtf8Path) DependencyMap
  | [], deps => .ok deps
  | specifier :: rest, deps =>
    if (deps.get? specifier).isSome then resolveImports directory rest deps
    else
      match resolve directory specifier with
      | .ok target => resolveImports directory rest (deps.insert specifier target)
      | .error e => .error (specifier, e)

/-- Builds a module from what was read for it. -/
def buildSource (b : Builder τ) (id : ModuleId) (source : Except FileError String) :
    Except BuildError ModuleRecord :=
  match source with
  | .error e => .error (.parse id.path ("cannot read module: " ++ e.message))
  | .ok source =>
    match b.transform.parse source with
    | .error e => .error (.parse id.path e)
    | .ok tree =>
      match resolveImports id.directory (b.transform.imports tree) [] with
      | .error (specifier, e) =>
        .error (.parse id.path ("cannot resolve '" ++ specifier ++ "': " ++ e.message))
      | .ok deps =>
        match b.transform.generate tree b.target with
        | .error e => .error (.transform id.path e)
        | .ok code => .ok { id, code, deps, contentHash := sha256 (Utf8.encode source) }

/-- Builds a module of a storage. -/
def build {σ : Type} [Storage σ] (b : Builder τ) (storage : σ) (id : ModuleId) :
    Except BuildError ModuleRecord :=
  b.buildSource id (Storage.read storage id.path)

end Builder

end Bundler
