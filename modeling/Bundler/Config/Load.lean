/-
Loading the settings of a run. Above the defaults come the file of the user,
then the file of the project or the one asked for in its place, then the
environment. Paths in a file are relative to the file.
-/
import Bundler.Config.Environment
import Bundler.Config.File
import Bundler.FileTree

namespace Bundler

/-- Why the settings could not be loaded. -/
inductive ConfigLoadError where
  | unreadable (path : Path) (error : FileError)
  | malformed (path : Path) (shown : String)
  | badVariable (fault : VariableFault)
deriving DecidableEq, Repr

namespace ConfigLoadError

def message : ConfigLoadError → String
  | unreadable path _ => "Failed to read config file " ++ path.display
  | malformed path _ => "Failed to parse config file " ++ path.display
  | badVariable fault => fault.message

/-- What lies behind the error. -/
def causes : ConfigLoadError → List String
  | unreadable _ e => [e.message]
  | malformed _ shown => [shown]
  | badVariable _ => []

end ConfigLoadError

/-- A file of settings, as it was read. -/
structure ConfigSource where
  path : Path
  contents : Except FileError String

namespace ConfigSource

/-- The layer that a file is. -/
def layer (s : ConfigSource) : Except ConfigLoadError ConfigLayer :=
  match s.contents with
  | .error e => .error (.unreadable s.path e)
  | .ok text =>
    match ConfigLayer.ofToml text with
    | .error f => .error (.malformed s.path (f.render text))
    | .ok l => .ok (l.seenFrom (s.path.parent?.getD ⟨[]⟩))

end ConfigSource

/-- The name of the files of users and projects. -/
def configFileName : Path := .ofString "jspack.toml"

/-- The home of the user: the one the environment names, or else the one of
the account. -/
def homeDirectory (env : Environment) (account : Path) : Path :=
  ((env "HOME").map Path.ofString).getD account

/-- The directory for settings of the user: in the one set aside for the
settings of all programs, or else in one at home. -/
def userConfigDirectory (env : Environment) (account : Path) : Path :=
  let atHome := (homeDirectory env account).join (.ofString ".config")
  let base :=
    match (env "XDG_CONFIG_HOME").map Path.ofString with
    | some p => if p.isAbsolute then p else atHome
    | none => atHome
  base.join (.ofString "jspack")

def userConfigFile (env : Environment) (account : Path) : Path :=
  (userConfigDirectory env account).join configFileName

namespace Config

/-- The settings from files, the lowest first, and the environment. -/
def ofSources (processors : Nat) (sources : List ConfigSource) (env : Environment) :
    Except ConfigLoadError Config := do
  let layers ← sources.mapM ConfigSource.layer
  let (c, fault) := (layers.foldl apply (defaults processors)).applyEnvironment env
  match fault with
  | some f => .error (.badVariable f)
  | none => return c

/-- The files that settings come from. The file of the user and that of the
project count if they are there; the file asked for must be there. -/
def sources (t : FileTree) (user : Option Path) (project : Path) (explicit : Option Path) :
    List ConfigSource :=
  let source (p : Path) : ConfigSource := ⟨p, t.readText p⟩
  let ifThere (p : Path) : List ConfigSource := if t.isFile p then [source p] else []
  (user.map ifThere).getD [] ++
    match explicit with
    | some p => [source p]
    | none => ifThere (project.join configFileName)

/-- Loads the settings from a tree of files. -/
def load (processors : Nat) (t : FileTree) (user : Option Path) (project : Path)
    (explicit : Option Path) (env : Environment) : Except ConfigLoadError Config :=
  ofSources processors (sources t user project explicit) env

end Config

end Bundler
