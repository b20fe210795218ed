/-
Reading the parts of a TOML document: blanks and comments, strings, keys and
values. A reader takes a place in the text and gives back what it read and
the place after it.
-/
import Bundler.Toml.Scalar

namespace Bundler.Toml

/-- A place in a text: the bytes before it and the characters after it. -/
structure Cursor where
  offset : Nat
  rest : List Char
deriving Inhabited

namespace Cursor

/-- The place at which some characters are left. -/
def moveTo (c : Cursor) (rest : List Char) : Cursor :=
  { offset := c.offset + (byteLength c.rest - byteLength rest), rest }

def drop (c : Cursor) (count : Nat) : Cursor := c.moveTo (c.rest.drop count)

def dropWhile (c : Cursor) (p : Char → Bool) : Cursor := c.moveTo (c.rest.dropWhile p)

/-- The part of the text between two places. -/
def spanTo (start stop : Cursor) : Span := ⟨start.offset, stop.offset⟩

/-- The part that is the next character, or nothing at the end. -/
def next (c : Cursor) : Span := c.spanTo (c.drop 1)

def fail {α : Type} (c : Cursor) (message : String) : Except Fault α := .error ⟨message, c.next⟩

/-- Whether these characters come next. -/
def startsWith (c : Cursor) (s : String) : Bool := s.toList.isPrefixOf c.rest

end Cursor

/-! ## Blanks -/

def isBlank (c : Char) : Bool := c = ' ' || c = '\t'

def isControl (c : Char) : Bool := (c.toNat < 0x20 && c ≠ '\t') || c.toNat = 0x7f

def skipBlanks (c : Cursor) : Cursor := c.dropWhile isBlank

/-- A comment, if there is one. It ends where the line does. -/
def skipComment (c : Cursor) : Except Fault Cursor :=
  match c.rest with
  | '#' :: _ =>
    let stop := c.dropWhile fun ch => !isControl ch
    match stop.rest with
    | [] | '\n' :: _ | '\r' :: '\n' :: _ => .ok stop
    | _ => stop.fail "invalid comment character"
  | _ => .ok c

/-- A line end, if there is one. -/
def lineEnd? (c : Cursor) : Option Cursor :=
  match c.rest with
  | '\n' :: _ => some (c.drop 1)
  | '\r' :: '\n' :: _ => some (c.drop 2)
  | _ => none

/-- Blanks, comments and line ends, as far as there are any. The number bounds
the lines. -/
def skipLines : Nat → Cursor → Except Fault Cursor
  | 0, c => .ok c
  | lines + 1, c => do
    let c ← skipComment (skipBlanks c)
    match lineEnd? c with
    | some c => skipLines lines c
    | none => .ok c

/-! ## Strings -/

/-- What is wrong with a string, and the characters left from there on. -/
structure StringFault where
  message : String
  rest : List Char

/-- The character with a code in hexadecimal digits. -/
def codeChar? (digits : List Char) : Option Char :=
  if digits.all (isDigitOf 16) then
    let n := digitsValue 16 digits
    if h : n.isValidChar then some ⟨n.toUInt32, by
      unfold Nat.isValidChar at h
      simp only [UInt32.isValidChar, Nat.toUInt32_eq, Nat.isValidChar, UInt32.toNat_ofNat']
      rcases h with h | h <;> omega⟩ else none
  else none

/-- What a character after a backslash stands for. -/
def escaped? : Char → Option Char
  | 'b' => some '\x08'
  | 't' => some '\t'
  | 'n' => some '\n'
  | 'f' => some '\x0c'
  | 'r' => some '\r'
  | '"' => some '"'
  | '\\' => some '\\'
  | _ => none

/-- Drops the blanks and line ends after a backslash that ends a line. -/
def foldedLine? (cs : List Char) : Option (List Char) :=
  match cs.dropWhile isBlank with
  | '\n' :: _ | '\r' :: '\n' :: _ => some (cs.dropWhile fun c => isBlank c || c = '\n' || c = '\r')
  | _ => none

/-- Whether quotes end a string over many lines: three do, and two more belong
to the string. -/
def closingQuotes (quote : Char) (cs : List Char) : Option Nat :=
  let n := (cs.takeWhile (· = quote)).length
  if n ≥ 3 then some (min (n - 3) 2) else none

/-- The characters of a string, up to the quotes that end it. The number
bounds the characters. -/
def stringChars (quote : Char) (long : Bool) :
    Nat → List Char → List Char → Except StringFault (List Char × List Char)
  | 0, _, cs => .error ⟨"invalid string", cs⟩
  | _ + 1, _, [] => .error ⟨"invalid string, expected the closing quote", []⟩
  | fuel + 1, acc, c :: cs =>
    let wrong (message : String) : Except StringFault (List Char × List Char) :=
      .error ⟨message, c :: cs⟩
    if c = quote then
      if long then
        match closingQuotes quote (c :: cs) with
        | some extra =>
          .ok (acc.reverse ++ List.replicate extra quote, (c :: cs).drop (3 + extra))
        | none => stringChars quote long fuel (c :: acc) cs
      else .ok (acc.reverse, cs)
    else if c = '\\' && quote = '"' then
      match cs with
      | [] => wrong "missing escaped value"
      | 'u' :: cs =>
        match if cs.length < 4 then none else codeChar? (cs.take 4) with
        | some u => stringChars quote long fuel (u :: acc) (cs.drop 4)
        | none => wrong "invalid unicode escape"
      | 'U' :: cs =>
        match if cs.length < 8 then none else codeChar? (cs.take 8) with
        | some u => stringChars quote long fuel (u :: acc) (cs.drop 8)
        | none => wrong "invalid unicode escape"
      | e :: rest =>
        match escaped? e, if long then foldedLine? cs else none with
        | some u, _ => stringChars quote long fuel (u :: acc) rest
        | none, some rest => stringChars quote long fuel acc rest
        | none, none => wrong "missing escaped value"
    else if c = '\n' then
      if long then stringChars quote long fuel (c :: acc) cs else wrong "invalid string"
    else if c = '\r' && long && cs.head? = some '\n' then
      stringChars quote long fuel (c :: acc) cs
    else if isControl c then wrong "invalid string, expected non-control characters"
    else stringChars quote long fuel (c :: acc) cs

/-- A line end at the start of a string over many lines does not count. -/
def dropLineEnd : List Char → List Char
  | '\n' :: cs => cs
  | '\r' :: '\n' :: cs => cs
  | cs => cs

/-- A string that starts with this quote. -/
def readString (quote : Char) (multiline : Bool) (c : Cursor) : Except Fault (String × Cursor) :=
  let quotes := List.replicate 3 quote
  let long := multiline && quotes.isPrefixOf c.rest
  let body := if long then dropLineEnd (c.rest.drop 3) else c.rest.drop 1
  match stringChars quote long (body.length + 1) [] body with
  | .ok (cs, rest) => .ok (String.ofList cs, c.moveTo rest)
  | .error e => (c.moveTo e.rest).fail e.message

/-! ## Keys -/

def isBareKeyChar (c : Char) : Bool := c.isAlphanum || c = '_' || c = '-'

/-- One part of a key. -/
def readSimpleKey (c : Cursor) : Except Fault (Key × Cursor) :=
  match c.rest with
  | '"' :: _ => do
    let (text, stop) ← readString '"' false c
    return (⟨text, c.spanTo stop⟩, stop)
  | '\'' :: _ => do
    let (text, stop) ← readString '\'' false c
    return (⟨text, c.spanTo stop⟩, stop)
  | _ =>
    let word := c.rest.takeWhile isBareKeyChar
    if word.isEmpty then c.fail "invalid key, expected a name"
    else
      let stop := c.drop word.length
      .ok (⟨String.ofList word, c.spanTo stop⟩, stop)

/-- A key: parts with points between them. The number bounds the parts. -/
def readKey : Nat → Cursor → Except Fault (List Key × Cursor)
  | 0, c => c.fail "invalid key"
  | fuel + 1, c => do
    let (key, c) ← readSimpleKey c
    let after := skipBlanks c
    match after.rest with
    | '.' :: _ =>
      let (keys, c) ← readKey fuel (skipBlanks (after.drop 1))
      return (key :: keys, c)
    | _ => return ([key], c)

/-! ## Tables -/

def findEntry? (entries : List Entry) (key : Key) : Option Value :=
  (entries.find? fun e => e.key.text = key.text).map (·.value)

/-- Puts a value at a key, in place of the one that is there. -/
def putEntry (entries : List Entry) (key : Key) (value : Value) : List Entry :=
  if entries.any fun e => e.key.text = key.text then
    entries.map fun e => if e.key.text = key.text then .mk e.key value else e
  else entries ++ [.mk key value]

def duplicateKey {α : Type} (key : Key) : Except Fault α := .error ⟨"duplicate key", key.span⟩

/-- Adds a value at a dotted key. It goes through tables that dotted keys have
made, and adds what is missing. -/
def addValue (entries : List Entry) (value : Value) : List Key → Except Fault (List Entry)
  | [] => .ok entries
  | [key] =>
    match findEntry? entries key with
    | some _ => duplicateKey key
    | none => .ok (putEntry entries key value)
  | key :: keys =>
    match findEntry? entries key with
    | none => do
      return putEntry entries key (.table key.span .dotted (← addValue [] value keys))
    | some (.table span .dotted inner) => do
      return putEntry entries key (.table span .dotted (← addValue inner value keys))
    | some _ => duplicateKey key

/-! ## Values -/

/-- Characters that end a bare word. -/
def endsWord (c : Char) : Bool :=
  c = ' ' || c = '\t' || c = '\n' || c = '\r' || c = ',' || c = ']' || c = '\x7d' || c = '#'

/-- A bare word. A date goes on after a blank if a time follows. -/
def bareWord (cs : List Char) : List Char :=
  let word := cs.takeWhile (!endsWord ·)
  match cs.drop word.length with
  | ' ' :: rest =>
    let time := rest.takeWhile (!endsWord ·)
    if afterDate? word == some [] && (fixedDigits? 2 time).isSome then word ++ ' ' :: time else word
  | _ => word

/-- A number that is not written in brackets or quotes, or a truth value. -/
def readBare (c : Cursor) : Except Fault (Value × Cursor) :=
  let word := bareWord c.rest
  let stop := c.drop word.length
  match bareValue? (c.spanTo stop) word with
  | some v => .ok (v, stop)
  | none => .error ⟨"string values must be quoted, expected literal string", c.spanTo stop⟩

mutual

/-- A value. The number bounds how far values are nested and how many items
they have. -/
def readValue : Nat → Cursor → Except Fault (Value × Cursor)
  | 0, c => c.fail "invalid value"
  | fuel + 1, c =>
    match c.rest with
    | '"' :: _ => do
      let (text, stop) ← readString '"' true c
      return (.string (c.spanTo stop) text, stop)
    | '\'' :: _ => do
      let (text, stop) ← readString '\'' true c
      return (.string (c.spanTo stop) text, stop)
    | '[' :: _ => do
      let (items, stop) ← readItems fuel (c.drop 1)
      return (.array (c.spanTo stop) items, stop)
    | '\x7b' :: _ => do
      let inner := skipBlanks (c.drop 1)
      match inner.rest with
      | '\x7d' :: _ =>
        let stop := inner.drop 1
        return (.inlineTable (c.spanTo stop) [], stop)
      | _ =>
        let (entries, stop) ← readMembers fuel inner []
        return (.inlineTable (c.spanTo stop) entries, stop)
    | _ => readBare c

/-- The items of an array, up to its end. -/
def readItems : Nat → Cursor → Except Fault (List Value × Cursor)
  | 0, c => c.fail "invalid array"
  | fuel + 1, c => do
    let c ← skipLines (c.rest.length + 1) c
    match c.rest with
    | [] => c.fail "unclosed array, expected `]`"
    | ']' :: _ => return ([], c.drop 1)
    | _ =>
      let (item, c) ← readValue fuel c
      let c ← skipLines (c.rest.length + 1) c
      match c.rest with
      | ',' :: _ =>
        let (items, c) ← readItems fuel (c.drop 1)
        return (item :: items, c)
      | ']' :: _ => return ([item], c.drop 1)
      | _ => c.fail "missing comma between array elements, expected `,`"

/-- The members of a table between braces, up to its end. -/
def readMembers : Nat → Cursor → List Entry → Except Fault (List Entry × Cursor)
  | 0, c, _ => c.fail "invalid inline table"
  | fuel + 1, c, entries => do
    let (key, value, c) ← readPair fuel (skipBlanks c)
    let entries ← addValue entries value key
    let c := skipBlanks c
    match c.rest with
    | ',' :: _ => readMembers fuel (c.drop 1) entries
    | '\x7d' :: _ => return (entries, c.drop 1)
    | _ => c.fail "unclosed inline table, expected `\x7d`"

/-- A key and its value. -/
def readPair : Nat → Cursor → Except Fault (List Key × Value × Cursor)
  | 0, c => c.fail "invalid key"
  | fuel + 1, c => do
    let (key, c) ← readKey (c.rest.length + 1) c
    let c := skipBlanks c
    match c.rest with
    | '=' :: _ =>
      let (value, c) ← readValue fuel (skipBlanks (c.drop 1))
      return (key, value, c)
    | _ => c.fail "key with no value, expected `=`"

end

end Bundler.Toml
