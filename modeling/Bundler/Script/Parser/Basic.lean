/-
The reading of a token stream: the state a parser goes through, the context
that the surrounding grammar sets, and the steps that each rule of the
grammar is made of.

A parser that fails keeps the state it had reached, since some rules recover
from there: they report the fault and go on. The faults so reported are kept
in order; a module with any is refused.
-/
import Bundler.Script.Lexer

namespace Bundler.Script

/-- What the grammar around a point of the text allows there. -/
structure Context where
  /-- Whether `in` is an operator; it is not in the head of a `for`. -/
  includeIn : Bool := true
  inFunction : Bool := false
  /-- Whether a function other than an arrow function surrounds the point. -/
  inPlainFunction : Bool := false
  inAsync : Bool := false
  inGenerator : Bool := false
  inParameters : Bool := false
  inClass : Bool := false
  inField : Bool := false
  inStaticBlock : Bool := false
  allowsSuper : Bool := false
  allowsBreak : Bool := false
  allowsContinue : Bool := false
  inForHead : Bool := false

/-- How far a text has been read. -/
structure ParseState where
  /-- The token to be read next. -/
  current : Lexeme
  /-- Where the token read last starts and stops. -/
  lastStart : Nat := 0
  lastStop : Nat := 0
  /-- The faults reported so far, the latest first. -/
  reported : List Fault := []
  labels : List String := []
  /-- The only place where an arrow function may start. -/
  arrowStart : Option Nat := none
  /-- The comma before the bracket that closes a literal, by where the
  literal starts. -/
  trailingCommas : List (Nat × Nat) := []
deriving Inhabited

abbrev Parser := ReaderT Context (EStateM Fault ParseState)

namespace Parser

instance {α : Type} : Inhabited (Parser α) := ⟨throw default⟩

/-! ## Looking -/

def current : Parser Token := return (← get).current.token

def atEnd : Parser Bool := return (← current) == .endOfText

/-- Where the next token starts; at the end of the text, its length. -/
def position : Parser Nat := return (← get).current.start

/-- Where a fault at the next token is reported: at its start, or at the
token before the end of the text. -/
def faultOffset : Parser Nat := do
  let s ← get
  return if s.current.token == .endOfText then s.lastStart else s.current.start

def lastStart : Parser Nat := return (← get).lastStart

/-- The end of the text counts as a line end. -/
def lineEndBefore : Parser Bool := do
  let s ← get
  return s.current.lineEndBefore || s.current.token == .endOfText

/-- The token after the next one. -/
def lookahead : Parser Lexeme := do
  let s ← get
  return nextLexeme false s.current.stop s.current.rest

def peek : Parser Token := return (← lookahead).token

def isWord (w : String) : Parser Bool := return (← current) == .word w
def isPunct (p : String) : Parser Bool := return (← current) == .punct p

/-- Whether a statement may end before the next token. -/
def canEndStatement : Parser Bool := do
  let t ← current
  return t == .punct ";" || t == .punct "\x7d" || t == .endOfText || (← lineEndBefore)

/-- Whether a word names a variable here. -/
def namesVariable (w : String) : Parser Bool := do
  if w == "await" then return false
  return !isReservedWord w

/-- Whether the next token can be the name of a variable. -/
def isVariableName : Parser Bool := do
  match ← current with
  | .word w => namesVariable w
  | _ => return false

/-! ## Faults -/

/-- Records a fault and goes on. -/
def report (offset : Nat) (error : SyntaxError) : Parser Unit :=
  modify fun s => { s with reported := ⟨offset, error⟩ :: s.reported }

/-- Gives up with a fault; a malformed next token is the graver one. -/
def fail {α : Type} (offset : Nat) (error : SyntaxError) : Parser α := do
  throw ((← get).current.fatal.getD ⟨offset, error⟩)

/-- Gives up at the next token. -/
def failHere {α : Type} (error : SyntaxError) : Parser α := do
  fail (← faultOffset) error

/-! ## Moving -/

def advanceTo (l : Lexeme) : Parser Unit :=
  modify fun s => { s with
    current := l
    lastStart := s.current.start
    lastStop := s.current.stop
    reported := l.faults.reverse ++ s.reported }

/-- Reads the next token, whatever it is. -/
def bump : Parser Unit := do
  let s ← get
  if s.current.token != .endOfText then
    advanceTo (nextLexeme false s.current.stop s.current.rest)

/-- Fails if there is no next token, or none that is well formed; such a one
is passed over. -/
def needToken : Parser Token := do
  let s ← get
  match s.current.token with
  | .endOfText => throw ⟨s.current.start, .unexpectedEnd⟩
  | .bad =>
    bump
    throw (s.current.fatal.getD default)
  | t => return t

/-- Gives up because the next token is not what the grammar wants. -/
def unexpected {α : Type} (want : String) : Parser α := do
  let t ← needToken
  failHere (.unexpectedToken t.shown want)

def eatToken (t : Token) : Parser Bool := do
  if (← current) == t then
    bump
    return true
  return false

def eatWord (w : String) : Parser Bool := eatToken (.word w)
def eatPunct (p : String) : Parser Bool := eatToken (.punct p)

/-- Ends a statement: at a semicolon, or where none is needed. -/
def eatSemicolon : Parser Bool := do
  if ← eatPunct ";" then return true
  canEndStatement

def expectToken (t : Token) : Parser Unit := do
  unless ← eatToken t do
    failHere (.expectedToken t.shown (← current).shown)

def expectPunct (p : String) : Parser Unit := expectToken (.punct p)
def expectWord (w : String) : Parser Unit := expectToken (.word w)

def expectSemicolon : Parser Unit := do
  unless ← eatSemicolon do
    failHere (.expectedToken ";" (← current).shown)

/-! ## Combining -/

/-- Runs a parser in a changed context. -/
def within {α : Type} (change : Context → Context) (p : Parser α) : Parser α :=
  withReader change p

def includingIn {α : Type} (p : Parser α) : Parser α :=
  within (fun c => { c with includeIn := true }) p

/-- Runs a parser as long as it gives results, at most `fuel` times, and
collects them. -/
def collectUpTo {α : Type} (p : Parser (Option α)) : Nat → List α → Parser (List α)
  | 0, acc => return acc.reverse
  | fuel + 1, acc => do
    match ← p with
    | some a => collectUpTo p fuel (a :: acc)
    | none => return acc.reverse

/-- Runs a parser as long as it gives results. Each result takes at least one
character of the text. -/
def collect {α : Type} (p : Parser (Option α)) : Parser (List α) := do
  let s ← get
  collectUpTo p (s.current.rest.length + s.current.stop + 2 - s.current.start) []

/-- Applies a step until it gives none, at most `fuel` times. -/
def iterateUpTo {α : Type} (step : α → Parser (Option α)) : Nat → α → Parser α
  | 0, a => return a
  | fuel + 1, a => do
    match ← step a with
    | some a => iterateUpTo step fuel a
    | none => return a

/-- Applies a step until it gives none. Each step takes at least one character
of the text. -/
def iterate {α : Type} (step : α → Parser (Option α)) (a : α) : Parser α := do
  let s ← get
  iterateUpTo step (s.current.rest.length + s.current.stop + 2 - s.current.start) a

/-- Goes on from what a failing parser left. -/
def recover {α : Type} (p : Parser α) (handle : Fault → Parser α) : Parser α :=
  fun c s =>
    match p c s with
    | .ok a s => .ok a s
    | .error f s => handle f c s

/-! ## Names -/

/-- A word that may be a keyword. -/
def anyName : Parser String := do
  match ← needToken with
  | .word w =>
    bump
    return w
  | _ => failHere .expectedName

/-- The name of a variable. `yield` and `let` are reported and taken as
names. -/
def variableName : Parser String := do
  match ← needToken with
  | .word w =>
    bump
    let start ← lastStart
    if strictWords.contains w then report start (.reservedName w)
    if w == "await" then
      if (← read).inStaticBlock then fail start .expectedName
      fail start .awaitAsName
    if isKeyword w then fail start .expectedName
    if w == "arguments" && (← read).inField then report start .argumentsInField
    return w
  | _ => failHere .expectedName

def isEvalName (name : String) : Bool := name == "eval" || name == "arguments"

/-- The name of a variable where it is declared. -/
def bindingName (refusesLet : Bool) : Parser String := do
  if refusesLet && (← isWord "let") then
    unexpected "let is reserved in const, let, class declaration"
  let name ← variableName
  let start ← lastStart
  if isEvalName name then report start .evalAsName
  if (← read).inStaticBlock && name == "arguments" then report start .argumentsInField
  if (← read).inGenerator && name == "yield" then report start .expectedName
  return name

end Parser

end Bundler.Script
