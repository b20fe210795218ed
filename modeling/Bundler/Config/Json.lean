/-
Settings as a JSON value: an object with a member for each setting, or an
array of their values in order. All settings but the entry must be there, and
members that are no settings do not count.
-/
import Bundler.Config.Setting
import Bundler.Text.Count
import Bundler.Text.JsonValue

namespace Bundler

namespace JsonValue

/-- A value as it is told where another is called for. -/
def found : JsonValue → Found
  | null => .nothing
  | boolean b => .boolean b
  | integer n => .integer n
  | float d => .float d.compact
  | string s => .string s
  | array _ => .sequence
  | object _ => .map

def readText (expected : String) : JsonValue → Except String String
  | string s => .ok s
  | v => .error (wrongType v.found expected)

def readPath (v : JsonValue) : Except String Path := do
  return .ofString (← v.readText "path string")

def readCount (expected : String) : JsonValue → Except String Nat
  | integer n => if 0 ≤ n then .ok n.toNat else .error (wrongValue (.integer n) expected)
  | v => .error (wrongType v.found expected)

def knownName (names : List String) (name : String) : Except String String :=
  if name ∈ names then .ok name else .error (unknownVariant name names)

/-- A name, or an object whose one member has that name and says nothing. -/
def readChoice (names : List String) : JsonValue → Except String String
  | string s => knownName names s
  | object [(name, v)] => do
    let name ← knownName names name
    match v with
    | null => return name
    | v => .error (wrongType v.found "unit")
  | object _ => .error (wrongValue .map "map with a single key")
  | v => .error (wrongType v.found "string or map")

def settingReader : SettingReader JsonValue String where
  optionalPath
    | null => .ok none
    | v => v.readPath.map some
  path := readPath
  text := readText "a string"
  count := readCount
  choice := readChoice

end JsonValue

namespace Config

/-! ## Reading -/

def required {α : Type} (name : String) : Option α → Except String α
  | some a => .ok a
  | none => .error ("missing field `" ++ name ++ "`")

/-- The settings of a layer that leaves out no more than the entry. -/
def ofLayer (l : ConfigLayer) : Except String Config := do
  return {
    entry := l.entry
    outputDirectory := ← required "output_directory" l.outputDirectory
    outputFilename := ← required "output_filename" l.outputFilename
    target := ← required "target" l.target
    jobs := ← required "jobs" l.jobs
    timeoutMs := ← required "timeout_ms" l.timeoutMs
    loader := ← required "loader" l.loader }

/-- Sets settings one after the other. -/
def readMembers (l : ConfigLayer) : List (String × JsonValue) → Except String ConfigLayer
  | [] => .ok l
  | (name, v) :: rest =>
    match l.set? JsonValue.settingReader name v with
    | some r => do readMembers (← r) rest
    | none => readMembers l rest

/-- Sets settings by their places. -/
def readItems (l : ConfigLayer) (place : Nat) :
    List String → List JsonValue → Except String ConfigLayer
  | [], _ => .ok l
  | _ :: _, [] =>
    .error ("invalid length " ++ toString place ++ ", expected struct Config with 7 elements")
  | name :: names, v :: rest => do
    readItems (← readMembers l [(name, v)]) (place + 1) names rest

def ofJson : JsonValue → Except String Config
  | .object members => do
    ofLayer (← readMembers {} (members.mergeSort fun a b => !(b.1 < a.1)))
  | .array items => do
    let l ← readItems {} 0 settingNames items
    if items.length > settingNames.length then
      .error ("invalid length " ++ toString items.length ++ ", expected fewer elements in array")
    else ofLayer l
  | v => .error (wrongType v.found "struct Config")

/-! ## Writing -/

def pathValue (p : Path) : JsonValue := .string p.display

/-- The settings as the members of an object. -/
def members (c : Config) : List (String × JsonValue) := [
  ("entry", (c.entry.map pathValue).getD .null),
  ("output_directory", pathValue c.outputDirectory),
  ("output_filename", .string c.outputFilename),
  ("target", .string c.target.name),
  ("jobs", .integer c.jobs),
  ("timeout_ms", .integer c.timeoutMs),
  ("loader", .string c.loader.name)]

/-- The settings with these members in place of theirs. -/
def merge (c : Config) (fields : List (String × JsonValue)) : Except String Config :=
  let kept := c.members.filter fun m => !fields.any fun f => f.1 = m.1
  ofJson (.object (kept ++ fields))

end Config

end Bundler
