/-
Settings as a TOML document. Every key must be a setting; the first fault in
the order of the keys counts.
-/
import Bundler.Config.Setting
import Bundler.Text.Count
import Bundler.Toml.Document

namespace Bundler

namespace Toml

/-! ## Reading values -/

/-- What an integer is told as. One that is too large for 64 bits is told with
the type that holds it. -/
def integerText (n : Int) : Option String :=
  let holds (t : IntegerType) : Bool := t.holds n
  if holds (.signed 64) || holds (.unsigned 64) then some ("integer `" ++ toString n ++ "`")
  else if holds (.signed 128) then some ("integer `" ++ toString n ++ "` as i128")
  else if holds (.unsigned 128) then some ("integer `" ++ toString n ++ "` as u128")
  else none

/-- Tells of a value where another is called for. -/
def mismatch {α : Type} (v : Value) (expected : String) : Except Fault α :=
  let wrong (found : Found) : Except Fault α := .error ⟨wrongType found expected, v.span⟩
  match v with
  | .string _ s => wrong (.string s)
  | .integer span n =>
    match integerText n with
    | some text => .error ⟨"invalid type: " ++ text ++ ", expected " ++ expected, span⟩
    | none => .error ⟨"integer number overflowed", span⟩
  | .float _ d => wrong (.float d.plain)
  | .boolean _ b => wrong (.boolean b)
  | .dateTime _ | .table .. | .inlineTable .. => wrong .map
  | .array .. | .tables .. => wrong .sequence

def readText (expected : String) : Value → Except Fault String
  | .string _ s => .ok s
  | v => mismatch v expected

def readPath (v : Value) : Except Fault Path := do
  return .ofString (← readText "path string" v)

def readCount (expected : String) (v : Value) : Except Fault Nat :=
  match v with
  | .integer span n =>
    if IntegerType.holds (.unsigned 64) n then .ok n.toNat
    else if IntegerType.holds (.signed 64) n then .error ⟨wrongValue (.integer n) expected, span⟩
    else mismatch v expected
  | v => mismatch v expected

def knownName (names : List String) (span : Span) (name : String) : Except Fault String :=
  if name ∈ names then .ok name else .error ⟨unknownVariant name names, span⟩

/-- Whether a value has nothing in it. -/
def readNothing (v : Value) : Except Fault Unit :=
  match v with
  | .array _ [] | .inlineTable _ [] | .table _ _ [] => .ok ()
  | .array span _ | .tables span .. => .error ⟨"expected empty array", span⟩
  | .inlineTable span _ | .table span .. => .error ⟨"expected empty table", span⟩
  | .string span _ => .error ⟨"expected table, found string", span⟩
  | .integer span _ => .error ⟨"expected table, found integer", span⟩
  | .float span _ => .error ⟨"expected table, found float", span⟩
  | .boolean span _ => .error ⟨"expected table, found boolean", span⟩
  | .dateTime span => .error ⟨"expected table, found datetime", span⟩

/-- The one entry of a table, whose key is a name and whose value is empty. -/
def readNamedEntry (names : List String) (span : Span) : List Entry → Except Fault String
  | [] => .error ⟨"wanted exactly 1 element, found 0 elements", span⟩
  | [e] => do
    let name ← knownName names e.key.span e.key.text
    readNothing e.value
    return name
  | _ => .error ⟨"wanted exactly 1 element, more than 1 element", span⟩

def readChoice (names : List String) (v : Value) : Except Fault String :=
  match v with
  | .string span s => knownName names span s
  | .inlineTable span entries | .table span _ entries => readNamedEntry names span entries
  | v => .error ⟨"wanted string or table", v.span⟩

def settingReader : SettingReader Value Fault where
  optionalPath v := (readPath v).map some
  path := readPath
  text := readText "a string"
  count := readCount
  choice := readChoice

end Toml

namespace ConfigLayer

/-- Sets settings one after the other. -/
def readEntries (l : ConfigLayer) : List Toml.Entry → Except Toml.Fault ConfigLayer
  | [] => .ok l
  | e :: rest =>
    match l.set? Toml.settingReader e.key.text e.value with
    | some r => do readEntries (← r) rest
    | none => .error ⟨unknownField e.key.text settingNames, e.key.span⟩

/-- The settings that a document gives. -/
def ofToml (text : String) : Except Toml.Fault ConfigLayer := do
  let entries ← Toml.parse text
  readEntries {} (entries.mergeSort fun a b => !(b.key.text < a.key.text))

end ConfigLayer

end Bundler
