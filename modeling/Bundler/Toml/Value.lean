/-
What a TOML document says, with the place in the text that says it, and how a
fault in a document is shown: the line it is on, with the faulty part
underlined.
-/
import Bundler.Text.Double
import Bundler.Text.Utf8

namespace Bundler.Toml

/-- A part of a text, from one byte up to another. -/
structure Span where
  start : Nat
  stop : Nat
deriving DecidableEq, Inhabited, Repr

structure Key where
  text : String
  span : Span
deriving DecidableEq, Inhabited, Repr

/-- How a table came to be, which decides what may be added to it. -/
inductive TableKind where
  /-- By a header, or whole between braces. -/
  | defined
  /-- As a step on the way of a header. -/
  | implied
  /-- By a dotted key. -/
  | dotted
deriving DecidableEq, Repr

mutual

inductive Value where
  | string (span : Span) (text : String)
  | integer (span : Span) (value : Int)
  | float (span : Span) (value : Double)
  | boolean (span : Span) (value : Bool)
  | dateTime (span : Span)
  | array (span : Span) (items : List Value)
  /-- A table between braces. Nothing can be added to it. -/
  | inlineTable (span : Span) (entries : List Entry)
  | table (span : Span) (kind : TableKind) (entries : List Entry)
  /-- The tables of headers in double brackets, the last one first. -/
  | tables (span : Span) (last : List Entry) (others : List Value)

inductive Entry where
  | mk (key : Key) (value : Value)

end

instance : Inhabited Value := ⟨.boolean default false⟩

def Value.span : Value → Span
  | string s _ | integer s _ | float s _ | boolean s _ | dateTime s | array s _
  | inlineTable s _ | table s _ _ | tables s _ _ => s

def Entry.key : Entry → Key
  | mk key _ => key

def Entry.value : Entry → Value
  | mk _ value => value

/-! ## Faults -/

/-- Something wrong with a part of a document. -/
structure Fault where
  message : String
  span : Span
deriving DecidableEq, Repr

/-- The bytes a text takes. -/
def byteLength (cs : List Char) : Nat := cs.foldr (fun c n => c.utf8Size + n) 0

/-- The characters that start before a byte. -/
def charsBefore : Nat → List Char → List Char
  | _, [] => []
  | 0, _ => []
  | n + 1, c :: cs => c :: charsBefore (n + 1 - c.utf8Size) cs

/-- The characters after the last line end. -/
def lastLine (cs : List Char) : List Char := (cs.reverse.takeWhile (· ≠ '\n')).reverse

/-- The line and column of a byte, from zero. The end of a text is taken to be
one column after its last character, on the same line. -/
def position (text : List Char) (byte : Nat) : Nat × Nat :=
  let size := byteLength text
  let before :=
    if byte < size then charsBefore byte text else text.dropLast
  let line := before.count '\n'
  let column := (lastLine before).length
  if text.isEmpty then (0, byte)
  else if byte < size then (line, column)
  else (line, column + 1 + (byte - size))

/-- A fault as it is shown. -/
def Fault.render (f : Fault) (text : String) : String :=
  let cs := text.toList
  let (line, column) := position cs f.span.start
  let content := (text.splitOn "\n").getD line ""
  let number := toString (line + 1)
  let gutter := String.ofList (List.replicate (number.length + 1) ' ')
  let blanks := String.ofList (List.replicate (column + 1) ' ')
  let underlined := min f.span.stop (f.span.start + content.utf8ByteSize) - f.span.start
  "TOML parse error at line " ++ number ++ ", column " ++ toString (column + 1) ++ "\n" ++
    gutter ++ "|\n" ++
    number ++ " | " ++ content ++ "\n" ++
    gutter ++ "|" ++ blanks ++ String.ofList (List.replicate (max 1 underlined) '^') ++ "\n" ++
    f.message ++ "\n"

end Bundler.Toml
