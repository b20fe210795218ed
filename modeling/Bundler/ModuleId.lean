/-
Identities of modules. A module is known by the plain path of its file, as
text; two imports mean the same module exactly when they resolve to the same
identity. Resolution looks at no files.
-/
import Bundler.Path

namespace Bundler

/-- The identity of a module. -/
structure ModuleId where
  text : String
deriving DecidableEq, Hashable, Inhabited, Repr

/-- A path that cannot be an identity, because it is no text. -/
structure NonUtf8Path where
  path : Path
deriving DecidableEq, Repr

def NonUtf8Path.message (e : NonUtf8Path) : String :=
  "path is not valid UTF-8: " ++ e.path.display

namespace ModuleId

def path (id : ModuleId) : Path := .ofString id.text

/-- The order of identities, by the bytes of their texts. -/
def le (a b : ModuleId) : Bool := !(b.text < a.text)

/-- The identity that a path is. The path is taken as it is. -/
def ofPath (p : Path) : Except NonUtf8Path ModuleId :=
  match p.text? with
  | some text => .ok ⟨text⟩
  | none => .error ⟨p⟩

/-- The directory that imports of a module are relative to. -/
def directory (id : ModuleId) : Path := id.path.parent?.getD ⟨[Path.slash]⟩

end ModuleId

/-- The module that an import in a directory means. -/
def resolve (directory : Path) (specifier : String) : Except NonUtf8Path ModuleId :=
  ModuleId.ofPath (directory.join (.ofString specifier)).normalize

end Bundler
