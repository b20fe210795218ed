/-
Expressions. An expression is read before it is known whether it is the
target of an assignment or the head of an arrow function, and is then taken
as a pattern.
-/
import Bundler.Script.Parser.Function

namespace Bundler.Script

open Bundler.Script.Parser

/-! ## Templates, arguments and arrays -/

/-- Reads the stretch of a template after the next token, which is the
backquote that opens it or the brace that closes a substitution. -/
def quasi (isTagged : Bool) : Parser (Quasi × Bool) := do
  let s ← get
  let offset := s.current.stop
  match cutQuasi offset s.current.rest with
  | none =>
    let stop := offset + s.current.rest.length
    let failure := ⟨s.current.start, .unterminatedTemplate⟩
    set { s with current := { s.current with token := .endOfText, start := stop, stop, rest := [] } }
    throw failure
  | some q =>
    let after := q.length + (if q.isLast then 1 else 2)
    advanceTo (nextLexeme false (offset + after) (s.current.rest.drop after))
    modify fun s => { s with lastStart := offset, lastStop := offset + after }
    if let some fault := q.fatal then
      unless isTagged do throw fault
    return (q.quasi, q.isLast)

/-- Reads a template from its opening backquote on. -/
def templateParts (rules : Rules) (isTagged : Bool) : Parser (List Quasi × List Expr) := do
  let (first, isLast) ← quasi isTagged
  if isLast then return ([first], [])
  let step : (Bool × List Quasi × List Expr) → Parser (Option (Bool × List Quasi × List Expr))
    | (true, _) => return none
    | (false, quasis, exprs) => do
      let e ← includingIn rules.expression
      unless ← isPunct "\x7d" do expectPunct "\x7d"
      let (q, isLast) ← quasi isTagged
      return some (isLast, q :: quasis, e :: exprs)
  let (_, quasis, exprs) ← iterate step (false, [first], [])
  return (quasis.reverse, exprs.reverse)

/-- Reads an expression or a spread one, and where the expression starts. -/
def argument (rules : Rules) : Parser (Nat × Expr) := do
  if ← eatPunct "..." then
    let start ← position
    return (start, .spread (← includingIn rules.assignment))
  let start ← position
  return (start, ← rules.assignment)

/-- Reads arguments in parentheses. -/
def arguments (rules : Rules) (isImport : Bool) : Parser (List Expr) := do
  expectPunct "("
  let args ← collect do
    if (← atEnd) || (← isPunct ")") then return none
    let (_, e) ← includingIn (argument rules)
    unless (← atEnd) || (← isPunct ")") do
      expectPunct ","
      if isImport && (← isPunct ")") then failHere .importTrailingComma
    return some e
  expectPunct ")"
  return args

def arrayLiteral (rules : Rules) : Parser Expr := do
  let bracket ← position
  bump
  let items ← collect do
    if (← atEnd) || (← isPunct "]") then return none
    if ← eatPunct "," then return some (0, Expr.hole)
    let item ← includingIn (argument rules)
    unless ← isPunct "]" do
      expectPunct ","
      if ← isPunct "]" then
        let comma ← lastStart
        modify fun s => { s with trailingCommas := (bracket, comma) :: s.trailingCommas }
    return some item
  expectPunct "]"
  return .array (items.map (·.2)) (items.map (·.1))

/-! ## Parentheses and arrow functions -/

/-- Reports a parameter that strict code may not have. -/
def checkParameterName (start : Nat) (p : Expr) : Parser Unit := do
  match p with
  | .ident id | .withDefault (.ident id) _ | .spread (.ident id) =>
    if isEvalName id.name then report start .evalAsName
  | _ => pure ()

/-- Takes what stands in parentheses as the parameters of an arrow
function. -/
def itemsToParameters (comma : Option Nat) : List (Nat × Expr) → Parser (List Expr)
  | [] => return []
  | (start, .spread e) :: rest => do
    unless rest.isEmpty do
      report start .restNotLast
      return ← itemsToParameters comma rest
    if e.isAssign then report start .restWithDefault
    if let some comma := comma then report comma .restTrailingComma
    let p := Expr.spread (← toPattern .binding start e)
    checkParameterName start p
    return [p]
  | (start, e) :: rest => do
    let p ← toPattern .binding start e
    checkParameterName start p
    return p :: (← itemsToParameters comma rest)

/-- Reads the items in parentheses, each with where it starts, and the comma
before the closing one. -/
def parenItems (rules : Rules) : Parser (List (Nat × Expr) × Option Nat) := do
  expectPunct "("
  let items ← collect do
    if (← atEnd) || (← isPunct ")") then return none
    let item ← includingIn (argument rules)
    if ← isPunct ")" then return some (item, none)
    expectPunct ","
    if ← isPunct ")" then return some (item, some (← lastStart))
    return some (item, none)
  expectPunct ")"
  return (items.map (·.1), items.getLast?.bind (·.2))

/-- The offsets of the members with a default, which only a pattern may
have. -/
def defaultOffsets : List Property → List Nat → List Nat
  | .shorthand _ (some _) :: ms, o :: os => o :: defaultOffsets ms os
  | _ :: ms, _ :: os => defaultOffsets ms os
  | _, _ => []

/-- The body of an arrow function in braces ends the function: an operator
after it is reported. -/
def afterArrowBlock (rules : Rules) (start : Nat) (arrow : Expr) : Parser Expr := do
  match arrow with
  | .arrow _ false =>
    if let .punct p ← current then
      if (binaryOps.lookup p).isSome then
        report (← faultOffset) .expectedSemicolon
        let _ ← rules.binaryRest start arrow 0
  | _ => pure ()
  return arrow

/-- Reads a parenthesized expression, or an arrow function from its
parameters on. `asyncStart` is where `async` stands before it. -/
def parenOrArrow (rules : Rules) (mayBeArrow : Bool) (asyncStart : Option Nat) : Parser Expr := do
  let start := asyncStart.getD (← position)
  let (items, comma) ← parenItems rules
  if ← isPunct "=>" then
    if ← lineEndBefore then failHere .lineEndBeforeArrow
    unless mayBeArrow do failHere .misplacedArrow
    bump
    let params ← itemsToParameters comma items
    return ← afterArrowBlock rules start (← arrowBody rules asyncStart.isSome params)
  for (_, item) in items do
    if let .object members offsets := item then
      for o in defaultOffsets members offsets do report o .defaultInLiteral
  if asyncStart.isSome then return .call (.ident ⟨"async", 0⟩) (items.map (·.2))
  for (start, item) in items do
    if let .spread _ := item then fail start .spreadInParens
  match items with
  | [] => fail start .emptyParens
  | [(_, e)] => return .paren e
  | _ => return .paren (.sequence (items.map (·.2)))

/-! ## Primary expressions -/

/-- Reads a regular expression, whose first slash is the start of the next
token. -/
def regExpLiteral : Parser Expr := do
  let s ← get
  let width := s.current.stop - s.current.start
  let text := '/' :: (if width > 1 then ['='] else []) ++ s.current.rest
  match cutRegExp s.current.start text with
  | .error fault =>
    set { s with current := { s.current with token := .bad, fatal := some fault } }
    throw fault
  | .ok r =>
    let stop := s.current.start + r.length
    advanceTo (nextLexeme false stop (text.drop r.length))
    modify fun t => { t with
      lastStop := stop
      reported := (r.faults ++ t.current.faults).reverse ++ s.reported }
    return .lit (.regex r.source r.flags)

/-- Reads what follows a name: the body of an arrow function, if an arrow
does. -/
def nameOrArrow (rules : Rules) (mayBeArrow : Bool) (start : Nat) : Parser Expr := do
  let name ← variableName
  if mayBeArrow && name == "async" && !(← lineEndBefore) && (← isVariableName) then
    if (← read).inForHead && (← isWord "of") && (← peek) != .punct "=>" then
      report start .asyncForOf
      return .ident ⟨name, 0⟩
    let parameter := Expr.ident ⟨← bindingName false, 0⟩
    expectPunct "=>"
    return ← arrowBody rules true [parameter]
  if mayBeArrow && !(← lineEndBefore) && (← isPunct "=>") then
    bump
    if isEvalName name then report start .evalAsName
    return ← arrowBody rules false [.ident ⟨name, 0⟩]
  return .ident ⟨name, 0⟩

def asyncFunction (rules : Rules) : Parser Expr := do
  expectWord "async"
  let (name, f) ← functionFromKeyword rules true true true
  return .func name f

def classExpression (rules : Rules) : Parser Expr := do
  let (name, base, members) ← classFromKeyword rules true
  return .cls name base members

def primary (rules : Rules) : Parser Expr := do
  let s ← get
  let start := s.current.start
  let mayBeArrow := s.arrowStart == some start
  match s.current.token with
  | .num text =>
    bump
    return .lit (.num text)
  | .bigint text =>
    bump
    return .lit (.bigint text)
  | .str value raw =>
    bump
    return .lit (.str value (some raw))
  | .punct "[" => arrayLiteral rules
  | .punct "\x7b" => objectLiteral rules
  | .punct "(" => parenOrArrow rules mayBeArrow none
  | .punct "`" =>
    let (quasis, exprs) ← templateParts rules false
    return .template quasis exprs
  | .punct "/" | .punct "/=" => regExpLiteral
  | .punct "#" => return .privateName (← privateName)
  | .word "this" =>
    bump
    return .this
  | .word "null" =>
    bump
    return .lit .null
  | .word "true" =>
    bump
    return .lit (.bool true)
  | .word "false" =>
    bump
    return .lit (.bool false)
  | .word "function" =>
    let (name, f) ← functionFromKeyword rules false true true
    return .func name f
  | .word "class" => classExpression rules
  | .word w =>
    if w == "async" then
      let next ← lookahead
      unless next.lineEndBefore do
        if next.token == .word "function" then return ← asyncFunction rules
        if mayBeArrow && next.token == .punct "(" then
          bump
          return ← parenOrArrow rules mayBeArrow (some start)
    if w == "let" || (← isVariableName) then nameOrArrow rules mayBeArrow start
    else failHere .expectedExpression
  | _ => failHere .expectedExpression

/-! ## Members and calls -/

/-- What a chain of members and calls starts with. -/
inductive ChainBase where
  | value (e : Expr)
  | super
  | importWord (phase : ImportPhase)

def Expr.isChain : Expr → Bool
  | .chain .. => true
  | _ => false

/-- A link of a chain: an optional one, or one that carries on a chain, stays
apart from plain members and calls. -/
def linkOf (isOptional : Bool) (object link : Expr) : Expr :=
  if isOptional || object.isChain then .chain isOptional link else link

/-- The key after the dot of a member. -/
def memberKey : Parser Key := do
  if ← isPunct "#" then return .priv (← privateName)
  return .name (← anyName)

/-- Reads the next link of a chain that starts at `start`, if there is one.
Calls end a chain where `stopsAtCall`, as in what `new` calls. -/
def link (rules : Rules) (start : Nat) (stopsAtCall : Bool) : ChainBase → Parser (Option Expr)
  | .super => do
    let checked (key : Key) : Parser (Option Expr) := do
      unless (← read).allowsSuper do fail start .superOutside
      return some (.superMember key)
    if ← eatPunct "[" then
      let e ← includingIn rules.expression
      expectPunct "]"
      checked (.computed e)
    else if !stopsAtCall && (← isPunct "(") then
      return some (.superCall (← arguments rules false))
    else if ← eatPunct "." then checked (← memberKey)
    else if stopsAtCall then failHere .superCallOutside
    else failHere .superOutside
  | .importWord phase => do
    if !stopsAtCall && (← isPunct "(") then
      return some (.importCall phase (← arguments rules true))
    expectPunct "("
    return none
  | .value object => do
    let isOptional ← eatPunct "?."
    if ← eatPunct "[" then
      let e ← includingIn rules.expression
      expectPunct "]"
      return some (linkOf isOptional object (.member object (.computed e)))
    if (isOptional || !stopsAtCall) && (← isPunct "(") then
      return some (linkOf isOptional object (.call object (← arguments rules false)))
    if isOptional then return some (linkOf true object (.member object (← memberKey)))
    if ← eatPunct "." then return some (linkOf false object (.member object (← memberKey)))
    if ← isPunct "`" then
      if object.isChain then report (← position) .taggedOptional
      let (quasis, exprs) ← templateParts rules true
      return some (.tagged object quasis exprs)
    return none

/-- Reads the links of a chain. -/
def links (rules : Rules) (start : Nat) (stopsAtCall : Bool) (base : ChainBase) : Parser Expr := do
  let first ← match base with
    | .value e => pure e
    | base => return (← iterate (fun e => link rules start stopsAtCall (.value e))
        ((← link rules start stopsAtCall base).getD .invalid))
  iterate (fun e => link rules start stopsAtCall (.value e)) first

/-- Reads `import` where it is an operand. -/
def importExpression (rules : Rules) (stopsAtCall : Bool) : Parser Expr := do
  let start ← position
  bump
  if ← eatPunct "." then
    let name ← anyName
    if name == "meta" then return ← links rules start stopsAtCall (.value (.importMeta start))
    let some phase := ImportPhase.ofWord? name | unexpected "meta"
    links rules start stopsAtCall (.importWord phase)
  else links rules start stopsAtCall (.importWord .evaluation)

def Expr.isArrow : Expr → Bool
  | .arrow .. => true
  | _ => false

/-- Reads an operand of `new`, or a chain without calls. -/
def memberOrNew (rules : Rules) : Parser Expr := do
  let start ← position
  match ← current with
  | .word "new" =>
    bump
    if ← eatPunct "." then
      unless ← eatWord "target" do unexpected "target"
      let c ← read
      unless c.inPlainFunction || c.inParameters || c.inClass do report start .newTargetOutside
      return ← links rules start true (.value .newTarget)
    let calleeStart ← position
    let callee ← rules.newOperand
    if callee.isArrow then return callee
    if callee.isChain then fail calleeStart .newOptional
    if ← isPunct "(" then
      let args ← arguments rules false
      return ← links rules start true (.value (.new callee args))
    return .new callee [] false
  | .word "super" =>
    bump
    links rules start true .super
  | .word "import" => importExpression rules true
  | _ =>
    let e ← primary rules
    if e.isArrow then return e
    links rules start true (.value e)

/-- Reads a chain of members and calls. -/
def leftHandSide (rules : Rules) : Parser Expr := do
  let start ← position
  match ← current with
  | .word "super" =>
    bump
    links rules start false .super
  | .word "import" => importExpression rules false
  | _ =>
    let callee ← memberOrNew rules
    if callee.isArrow then return callee
    if let .new _ _ false := callee then return callee
    if ← isPunct "(" then
      let call := linkOf false callee (.call callee (← arguments rules false))
      return ← links rules start false (.value call)
    return callee

/-! ## Operators -/

/-- Reads `await` and its operand. Where nothing can follow it, it is taken
as a name, which a module may not use. -/
def awaitExpression (rules : Rules) : Parser Expr := do
  let start ← position
  bump
  if ← isPunct "*" then failHere .awaitStar
  let c ← read
  if !c.inAsync && ((← canEndStatement) || (← isPunct ")") || (← isPunct "]") || (← isPunct ",")) then
    report start .awaitAsName
    return .ident ⟨"await", 0⟩
  if c.inFunction && !c.inAsync then report start .awaitInFunction
  if c.inParameters && !c.inFunction then report start .awaitInParameters
  return .await start (← rules.unary)

/-- Reports the operand of `++` or `--` if it cannot be assigned to. -/
def checkUpdateTarget (start : Nat) (e : Expr) : Parser Unit := do
  unless e.isSimpleTarget do report start .badUpdateTarget

def updateOp? : Token → Option UpdateOp
  | .punct "++" => some .increment
  | .punct "--" => some .decrement
  | _ => none

/-- Reads an operand and the operators before and after it. -/
def unaryExpression (rules : Rules) : Parser Expr := do
  let start ← position
  let t ← current
  if let some op := updateOp? t then
    bump
    let argStart ← position
    let arg ← rules.unary
    checkUpdateTarget argStart arg
    return .update op true arg
  if let some op := t.unaryOp? then
    bump
    let argStart ← position
    let arg ← recover rules.unary fun fault => do
      report fault.offset fault.error
      return .invalid
    if op == .delete then
      if let .ident _ := arg then report argStart .deleteName
    return .unary op arg
  if t == .word "await" then return ← awaitExpression rules
  let e ← leftHandSide rules
  if e.isArrow || (← lineEndBefore) then return e
  if let some op := updateOp? (← current) then
    checkUpdateTarget start e
    bump
    return .update op false e
  return e

/-- Whether an operator mixes with `??` only in parentheses. -/
def mixesWithNullish : Expr → Bool
  | .binary .and .. | .binary .or .. => true
  | _ => false

def isNullish : Expr → Bool
  | .binary .nullish .. => true
  | _ => false

/-- The operator that goes on a binary expression here, if it binds more
tightly than `floor`. -/
def nextBinaryOp (floor : Nat) : Parser (Option BinaryOp) := do
  let some op := (← current).binaryOp? | return none
  if op == .isIn && !(← read).includeIn then return none
  return if op.precedence ≤ floor then none else some op

/-- Reads the operators after an operand, from the left. -/
def binaryOperators (rules : Rules) (start : Nat) (left : Expr) (floor : Nat) :
    Parser Expr := do
  let some op ← nextBinaryOp floor | return left
  if op == .exp then
    match left with
    | .unary .. | .await .. => failHere .unaryBeforePower
    | _ => pure ()
  bump
  let rightStart ← position
  let operand ← unaryExpression rules
  let right ← rules.binaryRest rightStart operand
    (if op == .exp then op.precedence - 1 else op.precedence)
  if op == .nullish then
    if mixesWithNullish left then report start .mixedNullish
    if mixesWithNullish right then report rightStart .mixedNullish
  if (op == .and || op == .or) && isNullish left then report start .mixedNullish
  rules.binaryRest start (.binary op left right) floor

/-- Reads an expression of operands and binary operators. An operand that is
missing before an operator is reported and passed over. -/
def binaryExpression (rules : Rules) : Parser Expr := do
  let start ← position
  let left ← recover (unaryExpression rules) fun fault => do
    let t ← needToken
    if t.binaryOp?.isSome && (t != .word "in" || (← read).includeIn) then
      report (← faultOffset) .expectedExpression
      return .invalid
    throw fault
  if left.isArrow then return left
  rules.binaryRest start left 0

def conditional (rules : Rules) : Parser Expr := do
  let test ← binaryExpression rules
  if test.isArrow then return test
  if ← eatPunct "?" then
    let yes ← includingIn rules.assignment
    expectPunct ":"
    return .cond test yes (← rules.assignment)
  return test

def yieldExpression (rules : Rules) : Parser Expr := do
  let start ← position
  bump
  if (← read).inParameters then fail start .yieldInParameters
  let t ← current
  let isPlain := t != .punct "*" && t != .punct "/" && t != .punct "/=" && !t.startsExpression
  if (← canEndStatement) || isPlain then return .yield false none
  let isDelegate ← eatPunct "*"
  return .yield isDelegate (some (← rules.assignment))

/-- Whether an assignment may follow an expression of this form. -/
def Expr.endsAssignment : Expr → Bool
  | .cond .. | .binary .. | .unary .. | .update .. => true
  | e => e.isArrow

/-- Whether a pattern may stand left of `=`. -/
def Expr.isAssignmentTarget : Expr → Bool
  | .arrayPattern _ | .objectPattern _ | .ident _ | .member .. | .superMember _ | .chain ..
  | .paren _ | .invalid => true
  | _ => false

/-- Reads an expression without commas. -/
def assignmentExpression (rules : Rules) : Parser Expr := do
  let start ← position
  if (← read).inGenerator && (← isWord "yield") then return ← yieldExpression rules
  let t ← needToken
  let mayBeArrow := match t with
    | .word w => !isReservedWord w || w == "yield"
    | .punct "(" => true
    | _ => false
  modify fun s => { s with arrowStart := if mayBeArrow then some start else none }
  let left ← conditional rules
  if left.endsAssignment then return left
  match (← current).assignOp? with
  | none => return left
  | some .assign =>
    let target ← toPattern .target start left
    unless target.isAssignmentTarget do fail start .badAssignTarget
    bump
    return .assign .assign target (← rules.assignment)
  | some op =>
    unless left.isSimpleTarget do report start .notAssignable
    match left with
    | .ident _ | .member .. | .superMember _ | .chain .. | .paren _ => pure ()
    | _ => fail start .badAssignTarget
    bump
    return .assign op left (← rules.assignment)

/-- Reads expressions separated by commas. -/
def commaExpression (rules : Rules) : Parser Expr := do
  let first ← rules.assignment
  let more ← collect do
    if ← eatPunct "," then return some (← rules.assignment)
    return none
  return if more.isEmpty then first else .sequence (first :: more)

/-! ## Defaults left in literals -/

mutual

/-- The offsets of the members with a default that no pattern took up.
Functions in the expression are not searched. -/
def strayDefaults : Expr → List Nat
  | .array items _ | .sequence items | .superCall items | .importCall _ items => strayDefaultsList items
  | .object members offsets => strayDefaultsMembers members offsets
  | .unary _ e | .update _ _ e | .await _ e | .paren e | .spread e | .chain _ e => strayDefaults e
  | .binary _ a b | .assign _ a b => strayDefaults a ++ strayDefaults b
  | .cond a b c => strayDefaults a ++ strayDefaults b ++ strayDefaults c
  | .member e key => strayDefaults e ++ strayDefaultsKey key
  | .superMember key => strayDefaultsKey key
  | .call e args _ | .new e args _ => strayDefaults e ++ strayDefaultsList args
  | .template _ es => strayDefaultsList es
  | .tagged e _ es => strayDefaults e ++ strayDefaultsList es
  | .yield _ (some e) => strayDefaults e
  | _ => []

def strayDefaultsList : List Expr → List Nat
  | [] => []
  | e :: es => strayDefaults e ++ strayDefaultsList es

def strayDefaultsKey : Key → List Nat
  | .computed e => strayDefaults e
  | _ => []

def strayDefaultsMembers : List Property → List Nat → List Nat
  | [], _ => []
  | .shorthand _ (some _) :: ms, os => os.headD 0 :: strayDefaultsMembers ms os.tail
  | .keyValue key e :: ms, os =>
    strayDefaultsKey key ++ strayDefaults e ++ strayDefaultsMembers ms os.tail
  | .spread e :: ms, os => strayDefaults e ++ strayDefaultsMembers ms os.tail
  | _ :: ms, os => strayDefaultsMembers ms os.tail

end

/-- Reports the members with a default in an expression that is no
pattern. -/
def checkDefaults (e : Expr) : Parser Expr := do
  for o in strayDefaults e do report o .defaultInLiteral
  return e

end Bundler.Script
