/-
Settings by name, as files and other documents give them. The formats differ
in how they tell that a value is of the wrong kind; which settings there are,
and of what kind, they have in common.
-/
import Bundler.Config
import Bundler.Text.Quoted

namespace Bundler

/-! ## Wrong values -/

/-- A value where another kind of value is called for. -/
inductive Found where
  | nothing
  | boolean (value : Bool)
  | integer (value : Int)
  /-- A number that is no integer, as it is shown. -/
  | float (text : String)
  | string (text : String)
  | sequence
  | map
deriving DecidableEq, Repr

def Found.text : Found → String
  | nothing => "null"
  | boolean value => "boolean `" ++ toString value ++ "`"
  | integer value => "integer `" ++ toString value ++ "`"
  | float text => "floating point `" ++ text ++ "`"
  | string text => "string " ++ Quoted.quote text
  | sequence => "sequence"
  | map => "map"

def wrongType (found : Found) (expected : String) : String :=
  "invalid type: " ++ found.text ++ ", expected " ++ expected

def wrongValue (found : Found) (expected : String) : String :=
  "invalid value: " ++ found.text ++ ", expected " ++ expected

/-- Names to choose from. -/
def choices : List String → String
  | [] => "nothing"
  | [a] => "`" ++ a ++ "`"
  | [a, b] => "`" ++ a ++ "` or `" ++ b ++ "`"
  | names => "one of " ++ ", ".intercalate (names.map fun n => "`" ++ n ++ "`")

def unknownVariant (name : String) (names : List String) : String :=
  "unknown variant `" ++ name ++ "`, expected " ++ choices names

def unknownField (name : String) (names : List String) : String :=
  "unknown field `" ++ name ++ "`, expected " ++ choices names

/-! ## Settings -/

/-- The settings there are, in their order. -/
def settingNames : List String :=
  ["entry", "output_directory", "output_filename", "target", "jobs", "timeout_ms", "loader"]

/-- How a format reads values of the kinds that settings have. -/
structure SettingReader (α ε : Type) where
  optionalPath : α → Except ε (Option Path)
  path : α → Except ε Path
  text : α → Except ε String
  /-- A number that counts something, given the name of its kind. -/
  count : String → α → Except ε Nat
  /-- One of some names. -/
  choice : List String → α → Except ε String

def targetNames : List String := ["es5", "es2015"]
def loaderNames : List String := ["eval", "factory"]

/-- Sets the setting of a name, if there is one. -/
def ConfigLayer.set? {α ε : Type} (r : SettingReader α ε) (l : ConfigLayer) (name : String)
    (value : α) : Option (Except ε ConfigLayer) :=
  match name with
  | "entry" => some do return { l with entry := ← r.optionalPath value }
  | "output_directory" => some do return { l with outputDirectory := some (← r.path value) }
  | "output_filename" => some do return { l with outputFilename := some (← r.text value) }
  | "target" => some do
    let name ← r.choice targetNames value
    return { l with target := some (if name = "es5" then .es5 else .es2015) }
  | "jobs" => some do return { l with jobs := some (← r.count "usize" value) }
  | "timeout_ms" => some do return { l with timeoutMs := some (← r.count "u64" value) }
  | "loader" => some do
    let name ← r.choice loaderNames value
    return { l with loader := some (if name = "eval" then .eval else .factory) }
  | _ => none

end Bundler
