/-
Cutting JavaScript text into tokens. The cut depends on the grammar in two
places, so the reader of a module asks for a token at a time: a slash starts
a regular expression where an operand is due, and the stretches of a template
are neither tokens nor blanks.

A fault that leaves a usable token is listed with it; one that does not makes
the token `bad`.
-/
import Bundler.Script.Chars
import Bundler.Script.SyntaxError
import Bundler.Script.Token

namespace Bundler.Script

/-! ## Blanks and comments -/

/-- What stands between two tokens. -/
structure Gap where
  rest : List Char
  offset : Nat
  hasLineEnd : Bool
  faults : List Fault
deriving Inhabited

inductive GapMode where
  | blank
  | lineComment
  /-- The star that opens a block comment. -/
  | opening
  | blockComment
  /-- The slash that closes a block comment. -/
  | closing
deriving BEq

/-- Passes over blanks and comments. Comments of the old kind, `<!--` and a
`-->` at the start of a line, are passed over and reported. -/
def skipGap (mode : GapMode) (hasLineEnd : Bool) (offset : Nat) (faults : List Fault) :
    List Char → Gap
  | [] =>
    let isOpen := mode == .opening || mode == .blockComment || mode == .closing
    ⟨[], offset, hasLineEnd, if isOpen then faults ++ [⟨offset, .unterminatedComment⟩] else faults⟩
  | c :: rest =>
    match mode with
    | .blank =>
      if isLineEnd c then skipGap .blank true (offset + 1) faults rest
      else if isBlank c then skipGap .blank hasLineEnd (offset + 1) faults rest
      else if c == '/' && rest.head? == some '/' then
        skipGap .lineComment hasLineEnd (offset + 1) faults rest
      else if c == '/' && rest.head? == some '*' then
        skipGap .opening hasLineEnd (offset + 1) faults rest
      else if (c == '<' && rest.take 3 == ['!', '-', '-']) ||
          (hasLineEnd && c == '-' && rest.take 2 == ['-', '>']) then
        skipGap .lineComment hasLineEnd (offset + 1) (faults ++ [⟨offset, .legacyComment⟩]) rest
      else ⟨c :: rest, offset, hasLineEnd, faults⟩
    | .lineComment =>
      if isLineEnd c then skipGap .blank true (offset + 1) faults rest
      else skipGap .lineComment hasLineEnd (offset + 1) faults rest
    | .opening => skipGap .blockComment hasLineEnd (offset + 1) faults rest
    | .blockComment =>
      if c == '*' && rest.head? == some '/' then
        skipGap .closing hasLineEnd (offset + 1) faults rest
      else skipGap .blockComment (hasLineEnd || isLineEnd c) (offset + 1) faults rest
    | .closing => skipGap .blank hasLineEnd (offset + 1) faults rest

/-! ## Escapes -/

def isHexDigit (c : Char) : Bool :=
  c.isDigit || ('a' ≤ c && c ≤ 'f') || ('A' ≤ c && c ≤ 'F')

/-- What an escape stands for, how many characters after its backslash it
takes, and what is wrong with it. -/
structure Escape where
  value : List Char
  length : Nat
  fault : Option SyntaxError := none
  fatal : Option SyntaxError := none
deriving Inhabited

/-- The character with this code, or the text of the escape if none has it. -/
def charOrText (code : Nat) (text : List Char) : List Char :=
  if h : code.isValidChar then [Char.ofNatAux code h] else '\\' :: text

/-- Reads the rest of a Unicode escape, after its `u`. -/
def readUnicodeEscape (text : List Char) : Escape :=
  match text with
  | '\x7b' :: rest =>
    let digits := rest.takeWhile isHexDigit
    let code := digitsValue 16 digits
    if digits.isEmpty || code > 0x10ffff then
      { value := [], length := 2, fatal := some (.badEscape "1-6 hex characters in the range 0 to 10FFFF.") }
    else if rest[digits.length]? != some '\x7d' then
      { value := [], length := 2, fatal := some .badUnicodeEscape }
    else
      { value := charOrText code ('u' :: '\x7b' :: digits ++ ['\x7d']), length := digits.length + 3 }
  | _ =>
    let digits := text.take 4
    if digits.length == 4 && digits.all isHexDigit then
      { value := charOrText (digitsValue 16 digits) ('u' :: digits), length := 5 }
    else { value := [], length := 1, fatal := some (.badEscape "4 hex characters") }

def isOctalDigit (c : Char) : Bool := '0' ≤ c && c ≤ '7'

/-- Reads an escape after its backslash. A digit escape other than `\0` is a
fault, which a template cannot pass over. -/
def readEscape (inTemplate : Bool) : List Char → Escape
  | [] => { value := [], length := 0, fatal := some .badStringEscape }
  | 'n' :: _ => { value := ['\n'], length := 1 }
  | 'r' :: _ => { value := ['\r'], length := 1 }
  | 't' :: _ => { value := ['\t'], length := 1 }
  | 'b' :: _ => { value := ['\x08'], length := 1 }
  | 'v' :: _ => { value := ['\x0b'], length := 1 }
  | 'f' :: _ => { value := ['\x0c'], length := 1 }
  | '\r' :: '\n' :: _ => { value := [], length := 2 }
  | 'x' :: rest =>
    let digits := rest.take 2
    if digits.length == 2 && digits.all isHexDigit then
      { value := [Char.ofNat (digitsValue 16 digits)], length := 3 }
    else { value := [], length := 1, fatal := some (.badEscape "2 hex characters") }
  | 'u' :: rest => readUnicodeEscape rest
  | c :: rest =>
    if isLineEnd c then { value := [], length := 1 }
    else if isOctalDigit c then
      let more := rest.takeWhile isOctalDigit
      if c == '0' && more.isEmpty then { value := ['\x00'], length := 1 }
      else
        let two := digitsValue 8 (c :: more.take 2)
        let taken := if two < 256 then min 2 more.length else min 1 more.length
        let value := [Char.ofNat (digitsValue 8 (c :: more.take taken))]
        if inTemplate then { value, length := taken + 1, fatal := some .legacyOctal }
        else { value, length := taken + 1, fault := some .legacyOctal }
    else { value := [c], length := 1 }

/-- The value of text with escapes. `offset` is where the text starts. -/
structure Decoded where
  value : List Char := []
  faults : List Fault := []
  fatal : Option Fault := none
deriving Inhabited

/-- Decodes at most `fuel` characters and escapes of `text`; its length is
always enough. A line end of a template counts as a line feed. -/
def decodeEscapes (inTemplate : Bool) (offset : Nat) : Nat → List Char → Decoded
  | 0, _ | _, [] => {}
  | fuel + 1, '\\' :: rest =>
    let e := readEscape inTemplate rest
    match e.fatal with
    | some error => { fatal := some ⟨offset, error⟩ }
    | none =>
      let d := decodeEscapes inTemplate (offset + 1 + e.length) fuel (rest.drop e.length)
      { d with
        value := e.value ++ d.value
        faults := (e.fault.map (Fault.mk offset)).toList ++ d.faults }
  | fuel + 1, c :: rest =>
    let (c, rest, taken) :=
      if inTemplate && c == '\r' then
        if rest.head? == some '\n' then ('\n', rest.drop 1, 2) else ('\n', rest, 1)
      else (c, rest, 1)
    let d := decodeEscapes inTemplate (offset + taken) fuel rest
    { d with value := c :: d.value }

/-! ## One token -/

/-- A token cut from the front of a text, and how many characters it took. -/
structure Cut where
  token : Token
  length : Nat
  faults : List Fault := []
  fatal : Option Fault := none
deriving Inhabited

def Cut.malformed (offset : Nat) (error : SyntaxError) (length : Nat) : Cut :=
  { token := .bad, length, fatal := some ⟨offset, error⟩ }

/-- The letters of a name, in which escapes stand for other letters. -/
structure NameCut where
  name : List Char := []
  length : Nat := 0
  hasEscape : Bool := false
  faults : List Fault := []
  fatal : Option Fault := none
deriving Inhabited

def NameCut.push (n : NameCut) (cs : List Char) (length : Nat) : NameCut :=
  { n with name := cs ++ n.name, length := length + n.length }

/-- Cuts a name of at most `fuel` letters. An escape may stand for any
character, even one that no name holds as it is. -/
def cutName (offset : Nat) : Nat → List Char → NameCut
  | 0, _ | _, [] => {}
  | fuel + 1, '\\' :: rest =>
    match rest with
    | 'u' :: digits =>
      let e := readUnicodeEscape digits
      match e.fatal with
      | some error => { fatal := some ⟨offset + 1 + e.length, error⟩ }
      | none =>
        let n := cutName (offset + 1 + e.length) fuel (rest.drop e.length)
        { n.push e.value (1 + e.length) with hasEscape := true }
    | _ => { fatal := some ⟨offset, .expectedUnicodeEscape⟩ }
  | fuel + 1, c :: rest =>
    if isNamePart c then (cutName (offset + 1) fuel rest).push [c] 1 else {}

def cutWord (offset : Nat) (text : List Char) : Cut :=
  let n := cutName offset text.length text
  let name := String.ofList n.name
  match n.fatal with
  | some fault => { token := .bad, length := n.length, faults := n.faults, fatal := some fault }
  | none =>
    if n.hasEscape && isReservedWord name then .malformed offset (.escapedKeyword name) n.length
    else { token := .word name, length := n.length, faults := n.faults }

def isDigitOf (radix : Nat) (c : Char) : Bool :=
  isHexDigit c && digitsValue 16 [c] < radix

/-- The digits at the front of a text, with the separators among them. -/
def digitRun (radix : Nat) (text : List Char) : List Char :=
  text.takeWhile fun c => c == '_' || isDigitOf radix c

/-- Whether a separator in a run of digits has no digit after it, or follows
another. -/
def hasStraySeparator : List Char → Bool
  | '_' :: rest => rest.isEmpty || rest.head? == some '_' || hasStraySeparator rest
  | _ :: rest => hasStraySeparator rest
  | [] => false

def separatorFault (offset : Nat) (run : List Char) : List Fault :=
  if hasStraySeparator run then [⟨offset, .misplacedSeparator⟩] else []

/-- Ends a number: no name may follow it directly. -/
def endNumber (offset : Nat) (text : List Char) (length : Nat) (token : Token)
    (faults : List Fault) : Cut :=
  match text[length]? with
  | some c =>
    if isNameStart c then
      { token := .bad, length, faults, fatal := some ⟨offset + length, .nameAfterNumber⟩ }
    else { token, length, faults }
  | none => { token, length, faults }

/-- Cuts a number in another base than ten, after its two-letter mark. -/
def cutBased (radix offset : Nat) (text : List Char) : Cut :=
  let run := digitRun radix (text.drop 2)
  let length := 2 + run.length
  let faults := separatorFault (offset + 2) run
  let source := String.ofList (text.take length)
  if run.isEmpty then .malformed (offset + 2) (.expectedDigit radix) 2
  else if text[length]? == some 'n' then endNumber offset text (length + 1) (.bigint source) faults
  else endNumber offset text length (.num source) faults

/-- Cuts the fraction and exponent that follow the whole part of a number. -/
def cutFraction (offset : Nat) (text : List Char) (whole : Nat) (faults : List Fault) : Cut :=
  let afterWhole := text.drop whole
  let fraction := match afterWhole with
    | '.' :: rest => 1 + (digitRun 10 rest).length
    | _ => 0
  let faults := faults ++
    (if fraction > 0 then separatorFault (offset + whole + 1) (digitRun 10 (afterWhole.drop 1)) else [])
  let length := whole + fraction
  let finish (length : Nat) (faults : List Fault) : Cut :=
    endNumber offset text length (.num (String.ofList (text.take length))) faults
  match text.drop length with
  | e :: rest =>
    if e == 'e' || e == 'E' then
      let sign := if rest.head? == some '+' || rest.head? == some '-' then 1 else 0
      let run := digitRun 10 (rest.drop sign)
      if rest.isEmpty then .malformed (offset + length + 1) .expectedExponent length
      else if run.isEmpty then .malformed (offset + length + 1 + sign) (.expectedDigit 10) length
      else finish (length + 1 + sign + run.length)
        (faults ++ separatorFault (offset + length + 1 + sign) run)
    else finish length faults
  | [] => finish length faults

def cutNumber (offset : Nat) (text : List Char) : Cut :=
  let second := text[1]?
  let isMark (l u : Char) : Bool := text.head? == some '0' && (second == some l || second == some u)
  if isMark 'x' 'X' then cutBased 16 offset text
  else if isMark 'o' 'O' then cutBased 8 offset text
  else if isMark 'b' 'B' then cutBased 2 offset text
  else
    let run := digitRun 10 text
    let length := run.length
    let faults := separatorFault offset run
    if text[length]? == some 'n' then
      endNumber offset text (length + 1) (.bigint (String.ofList run)) faults
    else if text.head? == some '0' && length > 1 then
      if run.all isOctalDigit then
        endNumber offset text length (.num (String.ofList run)) (faults ++ [⟨offset, .legacyOctal⟩])
      else cutFraction offset text length (faults ++ [⟨offset, .legacyDecimal⟩])
    else cutFraction offset text length faults

/-- The source of a string after its opening quote, up to its closing quote,
and whether that quote is there. -/
def stringExtent (quote : Char) : List Char → List Char × Bool
  | [] => ([], false)
  | '\\' :: '\r' :: '\n' :: rest =>
    let (inner, closed) := stringExtent quote rest
    ('\\' :: '\r' :: '\n' :: inner, closed)
  | '\\' :: c :: rest =>
    let (inner, closed) := stringExtent quote rest
    ('\\' :: c :: inner, closed)
  | c :: rest =>
    if c == quote then ([], true)
    else if c == '\n' || c == '\r' then ([], false)
    else
      let (inner, closed) := stringExtent quote rest
      (c :: inner, closed)

def cutString (quote : Char) (offset : Nat) (text : List Char) : Cut :=
  let (inner, closed) := stringExtent quote (text.drop 1)
  let length := 1 + inner.length + (if closed then 1 else 0)
  let d := decodeEscapes false (offset + 1) inner.length inner
  match d.fatal with
  | some fault => { token := .bad, length, faults := d.faults, fatal := some fault }
  | none =>
    { token := .str (String.ofList d.value) (String.ofList (text.take length))
      length
      faults := d.faults ++ (if closed then [] else [⟨offset, .unterminatedString⟩]) }

/-- The punctuators, longer ones before their beginnings. -/
def punctuators : List String :=
  [">>>=",
   "...", "===", "!==", "**=", "<<=", ">>=", ">>>", "&&=", "||=", "??=",
   "=>", "==", "!=", "<=", ">=", "&&", "||", "??", "?.", "++", "--", "+=", "-=", "*=", "/=",
   "%=", "&=", "|=", "^=", "<<", ">>", "**",
   "\x7b", "\x7d", "(", ")", "[", "]", ";", ",", "<", ">", "+", "-", "*", "/", "%", "&", "|",
   "^", "!", "~", "?", ":", "=", ".", "@", "#", "`"]

/-- Cuts the longest punctuator; `?.` before a digit is a question mark. -/
def cutPunctuator (offset : Nat) (text : List Char) : Cut :=
  let fits (p : String) : Bool :=
    p.toList.isPrefixOf text && !(p == "?." && (text[2]?.any Char.isDigit))
  match punctuators.find? fits with
  | some p => { token := .punct p, length := p.length }
  | none =>
    match text with
    | c :: _ => .malformed offset (.unexpectedChar c) 1
    | [] => { token := .endOfText, length := 0 }

def cutToken (offset : Nat) (text : List Char) : Cut :=
  match text with
  | [] => { token := .endOfText, length := 0 }
  | c :: rest =>
    if isNameStart c || c == '\\' then cutWord offset text
    else if c.isDigit then cutNumber offset text
    else if c == '.' && rest.head?.any Char.isDigit then cutFraction offset text 0 []
    else if c == '"' || c == '\'' then cutString c offset text
    else cutPunctuator offset text

/-- A token in its place. -/
structure Lexeme where
  token : Token
  start : Nat
  stop : Nat
  lineEndBefore : Bool
  /-- The text after the token. -/
  rest : List Char
  faults : List Fault := []
  fatal : Option Fault := none
deriving Inhabited

/-- The next token of a text that starts at `offset`. -/
def nextLexeme (isFirst : Bool) (offset : Nat) (text : List Char) : Lexeme :=
  let g := skipGap .blank isFirst offset [] text
  let c := cutToken g.offset g.rest
  { token := c.token
    start := g.offset
    stop := g.offset + c.length
    lineEndBefore := g.hasLineEnd
    rest := g.rest.drop c.length
    faults := g.faults ++ c.faults
    fatal := c.fatal }

/-- The first token of a module. A first line that starts with `#!` is for
the system that runs it. -/
def firstLexeme (text : List Char) : Lexeme :=
  match text with
  | '#' :: '!' :: rest =>
    let line := rest.takeWhile fun c => !isLineEnd c
    nextLexeme true (2 + line.length) (rest.drop line.length)
  | _ => nextLexeme true 0 text

/-! ## Regular expressions and templates -/

/-- The pattern of a regular expression, after its first slash, if the slash
that ends it is on the same line. -/
def regExpExtent (isEscaped inClass : Bool) : List Char → Option (List Char)
  | [] => none
  | c :: rest =>
    if isLineEnd c then none
    else if isEscaped then (regExpExtent false inClass rest).map (c :: ·)
    else if c == '/' && !inClass then some []
    else
      let inClass := if c == '[' then true else if c == ']' then false else inClass
      (regExpExtent (c == '\\') inClass rest).map (c :: ·)

/-- A regular expression literal. -/
structure RegExpCut where
  source : String
  flags : String
  length : Nat
  faults : List Fault

/-- Cuts a regular expression from a text whose first character is its
slash. -/
def cutRegExp (offset : Nat) (text : List Char) : Except Fault RegExpCut :=
  match regExpExtent false false (text.drop 1) with
  | none => .error ⟨offset, .unterminatedRegExp⟩
  | some source =>
    let length := source.length + 2
    let after := text.drop length
    if after.head?.any fun c => isNameStart c || c == '\\' then
      let n := cutName (offset + length) after.length after
      match n.fatal with
      | some fault => .error fault
      | none =>
        let duplicate := n.name.find? fun c => n.name.count c > 1
        let faults :=
          match duplicate with
          | some c => [⟨offset, .duplicateRegExpFlag c⟩]
          | none =>
            if n.name.any fun c => !"dgimsuvy".toList.contains c then [⟨offset, .unknownRegExpFlag⟩]
            else []
        .ok ⟨String.ofList source, String.ofList n.name, length + n.length, n.faults ++ faults⟩
    else .ok ⟨String.ofList source, "", length, []⟩

/-- A stretch of a template up to its end or to a substitution. -/
structure QuasiCut where
  quasi : Quasi
  /-- What is wrong with an escape in it. -/
  fatal : Option Fault
  length : Nat
  /-- Whether the template ends here, not at a substitution. -/
  isLast : Bool

/-- The source of a stretch, and whether it ends the template; none if the
text ends first. -/
def quasiExtent : List Char → Option (List Char × Bool)
  | [] => none
  | '`' :: _ => some ([], true)
  | '$' :: '\x7b' :: _ => some ([], false)
  | '\\' :: c :: rest => (quasiExtent rest).map fun (s, isLast) => ('\\' :: c :: s, isLast)
  | c :: rest => (quasiExtent rest).map fun (s, isLast) => (c :: s, isLast)

def cutQuasi (offset : Nat) (text : List Char) : Option QuasiCut :=
  (quasiExtent text).map fun (source, isLast) =>
    let d := decodeEscapes true offset source.length source
    { quasi :=
        { raw := String.ofList source
          cooked := if d.fatal.isNone then some (String.ofList d.value) else none }
      fatal := d.fatal
      length := source.length
      isLast }

end Bundler.Script
