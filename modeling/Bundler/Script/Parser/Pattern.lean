/-
Patterns: where names are bound, and where an expression that was already
read turns out to be the target of an assignment or the head of an arrow
function.
-/
import Bundler.Script.Parser.Basic

namespace Bundler.Script

/-! ## The rules a grammar refers back to -/

/-- The parts of the grammar that contain each other. -/
inductive Nonterminal where
  /-- An expression without commas. -/
  | assignment
  | expression
  | unary
  /-- The operators that bind more tightly than `floor` and follow an operand
  that starts at `start`. -/
  | binaryRest (start : Nat) (left : Expr) (floor : Nat)
  /-- A chain of members and calls. -/
  | leftHandSide
  /-- What stands after `new`. -/
  | newOperand
  | statement (allowsDeclaration : Bool)
  | pattern (refusesLet : Bool)

/-- What reading a part of the grammar gives. -/
@[reducible] def Nonterminal.Result : Nonterminal → Type
  | .statement _ => Stmt
  | _ => Expr

/-- A reader for each part of the grammar. -/
def Rules : Type := (n : Nonterminal) → Parser n.Result

namespace Rules

def assignment (r : Rules) : Parser Expr := r .assignment
def expression (r : Rules) : Parser Expr := r .expression
def unary (r : Rules) : Parser Expr := r .unary
def binaryRest (r : Rules) (start : Nat) (left : Expr) (floor : Nat) : Parser Expr :=
  r (.binaryRest start left floor)
def leftHandSide (r : Rules) : Parser Expr := r .leftHandSide
def newOperand (r : Rules) : Parser Expr := r .newOperand
def statement (r : Rules) (allowsDeclaration : Bool) : Parser Stmt :=
  r (.statement allowsDeclaration)
def pattern (r : Rules) (refusesLet : Bool) : Parser Expr := r (.pattern refusesLet)

end Rules

open Bundler.Script.Parser

/-! ## Expressions taken as patterns -/

inductive PatternRole where
  /-- Names are bound. -/
  | binding
  /-- The whole target of an assignment. -/
  | target
  /-- An element of such a target. -/
  | element
deriving BEq

def PatternRole.inner : PatternRole → PatternRole
  | .binding => .binding
  | _ => .element

/-- Whether an expression names a place that can be assigned to. -/
def Expr.isSimpleTarget : Expr → Bool
  | .ident id => !isEvalName id.name
  | .member .. | .superMember _ => true
  | .chain _ base => base.isSimpleTarget
  | .paren e => e.isSimpleTarget
  | _ => false

/-- Whether an expression that is no literal may be an element of an
assignment pattern, at least by its form. -/
def Expr.mayBeElement : Expr → Bool
  | .member .. | .superMember _ | .call .. | .superCall _ | .importCall .. | .new .. | .lit _
  | .ident _ | .func .. | .cls .. | .paren _ | .template .. => true
  | _ => false

def Expr.isPattern : Expr → Bool
  | .arrayPattern _ | .objectPattern _ => true
  | _ => false

def Expr.isAssign : Expr → Bool
  | .assign .assign .. => true
  | _ => false

def Expr.isHole : Expr → Bool
  | .hole => true
  | _ => false

/-- Drops the missing elements at the end of an array pattern. -/
def dropLastHoles (items : List Expr) : List Expr :=
  (items.reverse.dropWhile Expr.isHole).reverse

/-- The comma before the closing bracket of the literal that starts at
`start`. -/
def trailingComma (start : Nat) : Parser (Option Nat) :=
  return (← get).trailingCommas.lookup start

def reportNotAPattern (start : Nat) : Parser Expr := do
  report start .notAPattern
  return .invalid

mutual

/-- Takes an expression that starts at `start` as a pattern. What cannot be
one is reported. -/
def toPattern (role : PatternRole) (start : Nat) : Expr → Parser Expr
  | .invalid => return .invalid
  | .object members offsets => do
    let comma ← trailingComma start
    return .objectPattern (← membersToPatterns role comma members offsets)
  | .array items offsets => do
    let comma ← trailingComma start
    return .arrayPattern (dropLastHoles (← itemsToPatterns role comma items offsets))
  | .assign .assign target value => do
    if role == .target then
      report start .badUpdateTarget
      return .assign .assign target value
    if target.isPattern then return .withDefault target value
    return .withDefault (← toPattern role start target) value
  | e => do
    match role with
    | .target =>
      unless e.isSimpleTarget do report start .badUpdateTarget
      return e
    | .element =>
      if e.mayBeElement then
        unless e.isSimpleTarget do report start .notAssignable
        return e
      reportNotAPattern start
    | .binding =>
      match e with
      | .ident _ => return e
      | _ => reportNotAPattern start

/-- Takes the elements of an array as patterns. `comma` is the comma before
the closing bracket. -/
def itemsToPatterns (role : PatternRole) (comma : Option Nat) :
    List Expr → List Nat → Parser (List Expr)
  | [], _ => return []
  | .spread e :: rest, offsets => do
    let start := offsets.headD 0
    if rest.isEmpty then
      if e.isAssign then report start .restWithDefault
      if let some comma := comma then report comma .restTrailingComma
      return [.spread (← toPattern role.inner start e)]
    report start .lateRestElement
    itemsToPatterns role comma rest offsets.tail
  | .hole :: rest, offsets => return .hole :: (← itemsToPatterns role comma rest offsets.tail)
  | e :: rest, offsets => do
    let e ← toPattern role.inner (offsets.headD 0) e
    return e :: (← itemsToPatterns role comma rest offsets.tail)

/-- Takes the members of an object literal as the members of a pattern. -/
def membersToPatterns (role : PatternRole) (comma : Option Nat) :
    List Property → List Nat → Parser (List Property)
  | [], _ => return []
  | .shorthand id value :: rest, offsets =>
    return .shorthand id value :: (← membersToPatterns role comma rest offsets.tail)
  | .keyValue key value :: rest, offsets => do
    let value ← toPattern role.inner (offsets.headD 0) value
    return .keyValue key value :: (← membersToPatterns role comma rest offsets.tail)
  | .spread e :: rest, offsets => do
    let start := offsets.headD 0
    if !rest.isEmpty then report start .lateRestElement
    else if let some comma := comma then report comma .restTrailingComma
    let e ←
      if role == .binding then
        match e with
        | .ident _ => pure e
        | _ =>
          report start .restNotName
          pure .invalid
      else toPattern role.inner start e
    return .spread e :: (← membersToPatterns role comma rest offsets.tail)
  | _ :: _, offsets => fail (offsets.headD 0) .notAPattern

end

/-! ## Patterns that bind names -/

/-- Reads the key of a member. -/
def propertyKey (rules : Rules) : Parser Key := do
  match ← needToken with
  | .str value raw =>
    bump
    return .str value (some raw)
  | .num text =>
    bump
    return .num text
  | .bigint text =>
    bump
    return .bigint text
  | .word w =>
    bump
    return .name w
  | .punct "[" =>
    bump
    let e ← includingIn rules.assignment
    expectPunct "]"
    return .computed e
  | _ => unexpected "identifier, string literal, numeric literal or [ for the computed key"

/-- Reads a pattern and the default that may follow it. -/
def patternWithDefault (rules : Rules) : Parser Expr := do
  let target ← rules.pattern false
  if ← eatPunct "=" then
    return .withDefault target (← includingIn rules.assignment)
  return target

/-- Ends an element of a list that `close` ends. -/
def endElement (close : String) (isRest : Bool) : Parser Unit := do
  unless ← isPunct close do
    expectPunct ","
    if isRest && (← isPunct close) then report (← lastStart) .restTrailingComma

def arrayPattern (rules : Rules) : Parser Expr := do
  bump
  let items ← collect do
    if (← atEnd) || (← isPunct "]") then return none
    if ← eatPunct "," then return some .hole
    let start ← position
    let isRest ← eatPunct "..."
    let item ←
      if isRest then Expr.spread <$> rules.pattern false
      else patternWithDefault rules
    endElement "]" isRest
    if isRest && !(← atEnd) && !(← isPunct "]") then report start .lateRestElement
    return some item
  expectPunct "]"
  return .arrayPattern items

/-- Reports a keyword that stands for a name in braces. -/
def reportReservedShorthand (name : String) (start : Nat) : Parser Unit := do
  if isReservedWord name then report start .reservedShorthand

def objectPatternMember (rules : Rules) : Parser Property := do
  if ← eatPunct "..." then return .spread (← rules.pattern false)
  let start ← position
  let key ← propertyKey rules
  if ← eatPunct ":" then return .keyValue key (← patternWithDefault rules)
  match key with
  | .name name =>
    if ← eatPunct "=" then
      return .shorthand ⟨name, 0⟩ (some (← includingIn rules.assignment))
    reportReservedShorthand name start
    return .shorthand ⟨name, 0⟩ none
  | _ => unexpected "an identifier"

/-- Reads members in braces, separated by commas, with where each starts, and
the comma before the closing brace. -/
def bracedMembers {α : Type} (member : Parser α) : Parser (List α × Option Nat) := do
  bump
  let members ← collect do
    if ← isPunct "\x7d" then return none
    let m ← member
    if ← isPunct "\x7d" then return some (m, none)
    expectPunct ","
    if ← isPunct "\x7d" then return some (m, some (← lastStart))
    return some (m, none)
  expectPunct "\x7d"
  return (members.map (·.1), members.getLast?.bind (·.2))

def objectPattern (rules : Rules) : Parser Expr := do
  let (members, comma) ← bracedMembers do
    let start ← position
    return (start, ← objectPatternMember rules)
  let count := members.length
  for ((start, m), i) in members.zipIdx do
    if let .spread _ := m then
      if i + 1 < count then report start .lateRestElement
      else if let some comma := comma then report comma .restTrailingComma
  return .objectPattern (members.map (·.2))

/-- Reads a name or a pattern where something is declared. -/
def bindingPattern (rules : Rules) (refusesLet : Bool) : Parser Expr := do
  match ← needToken with
  | .word _ => return .ident ⟨← bindingName refusesLet, 0⟩
  | .punct "[" => arrayPattern rules
  | .punct "\x7b" => objectPattern rules
  | _ => unexpected "yield, an identifier, [ or \x7b"

end Bundler.Script
