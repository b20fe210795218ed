/-
Functions, the members of object literals, and classes.
-/
import Bundler.Script.Parser.Pattern

namespace Bundler.Script

open Bundler.Script.Parser

/-! ## Blocks -/

/-- Reads statements up to the brace that closes their block, each with where
it starts. -/
def locatedBlockItems (rules : Rules) : Parser (List (Nat × Stmt)) :=
  collect do
    match ← current with
    | .endOfText =>
      report (← faultOffset) (.expectedToken "\x7d" "<eof>")
      return none
    | .punct "\x7d" =>
      bump
      return none
    | _ =>
      let start ← position
      return some (start, ← rules.statement true)

/-- Reads a block in braces. -/
def blockItems (rules : Rules) : Parser (List Stmt) := do
  expectPunct "\x7b"
  return (← locatedBlockItems rules).map (·.2)

/-! ## Functions -/

/-- Whether parameters are names only, without defaults and patterns. -/
def areSimpleParameters (params : List Expr) : Bool :=
  params.all fun
    | .ident _ => true
    | _ => false

/-- The source of a statement that is a string and nothing more. -/
def Stmt.directive? : Stmt → Option String
  | .expr (.lit (.str _ raw)) => raw
  | _ => none

def isUseStrict (raw : String) : Bool :=
  raw == "\"use strict\"" || raw == "'use strict'"

/-- Where the directive that asks for strict mode stands, among the
directives that open a body. -/
def strictDirective? (items : List (Nat × Stmt)) : Option Nat :=
  ((items.takeWhile fun p => p.2.directive?.isSome).find? fun p =>
    p.2.directive?.any isUseStrict).map (·.1)

/-- The context of a function's body. -/
def Context.forBody (c : Context) (isAsync isGenerator isArrow : Bool) : Context :=
  { c with
    includeIn := true
    inAsync := isAsync
    inGenerator := isGenerator
    inFunction := true
    inPlainFunction := if isArrow then c.inPlainFunction else true
    inField := if isArrow then c.inField else false
    inStaticBlock := if isArrow then c.inStaticBlock else false
    allowsBreak := false
    allowsContinue := false }

/-- Runs a parser with no labels in force and no arrow function under way. -/
def isolated {α : Type} (p : Parser α) : Parser α := do
  let outer ← get
  set { outer with labels := [], arrowStart := none, trailingCommas := [] }
  let a ← p
  modify fun s => { s with
    labels := outer.labels, arrowStart := outer.arrowStart, trailingCommas := outer.trailingCommas }
  return a

/-- Reads the body of a function in braces. -/
def functionBlock (rules : Rules) (params : List Expr) : Parser (List Stmt) := do
  expectPunct "\x7b"
  let items ← locatedBlockItems rules
  if let some start := strictDirective? items then
    unless areSimpleParameters params do report start .strictWithPatterns
  return items.map (·.2)

def functionBody (rules : Rules) (isAsync isGenerator : Bool) (params : List Expr) :
    Parser (List Stmt) :=
  within (·.forBody isAsync isGenerator false) (isolated (functionBlock rules params))

/-- Reads the body of an arrow function: a block, or one expression. -/
def arrowBody (rules : Rules) (isAsync : Bool) (params : List Expr) : Parser Expr :=
  within (fun c => { c.forBody isAsync false true with includeIn := c.includeIn }) (isolated do
    let _ ← needToken
    if ← isPunct "\x7b" then
      let body ← includingIn (functionBlock rules params)
      return .arrow (.mk params body isAsync false) false
    else
      let e ← rules.assignment
      return .arrow (.mk params [.ret (some e)] isAsync false) true)

/-- Reads parameters up to the parenthesis after them. -/
def parameters (rules : Rules) : Parser (List Expr) := do
  let params ← collect do
    if (← atEnd) || (← isPunct ")") then return none
    let start ← position
    if ← eatPunct "..." then
      let target ← rules.pattern false
      if ← eatPunct "=" then
        let _ ← rules.assignment
        report start .restWithDefault
      endElement ")" true
      unless (← atEnd) || (← isPunct ")") do report start .restNotLast
      return some (.spread target)
    let p ← patternWithDefault rules
    endElement ")" false
    return some p
  return params

/-- Reads parameters in parentheses and a body. `check` sees the parameters
before the body is read. -/
def functionRest (rules : Rules) (isAsync isGenerator : Bool)
    (check : List Expr → Parser Unit := fun _ => pure ()) : Parser Func :=
  within (fun c => { c with inAsync := isAsync, inGenerator := isGenerator }) do
    expectPunct "("
    let params ← within (fun c => { c with inParameters := true, inFunction := false, includeIn := true })
      (parameters rules)
    check params
    expectPunct ")"
    return .mk params (← functionBody rules isAsync isGenerator params) isAsync isGenerator

/-- Reads a name if there is one. -/
def optionalBinding (refusesLet : Bool) : Parser (Option Ident) := do
  if ← isVariableName then return some ⟨← bindingName refusesLet, 0⟩
  return none

/-- Reads a name, which may be left out only if `isOptional`. -/
def declaredName (isOptional refusesLet : Bool) : Parser (Option Ident) :=
  if isOptional then optionalBinding refusesLet
  else return some ⟨← bindingName refusesLet, 0⟩

/-- Reads a function from its keyword on. -/
def functionFromKeyword (rules : Rules) (isAsync isExpression isNameOptional : Bool) :
    Parser (Option Ident × Func) := do
  expectWord "function"
  let isGenerator ← eatPunct "*"
  let name ← within
    (fun c => if isExpression then { c with inAsync := isAsync, inGenerator := isGenerator } else c)
    (declaredName isNameOptional false)
  let f ← within (fun c => { c with allowsSuper := false, inField := false })
    (functionRest rules isAsync isGenerator)
  return (name, f)

/-- Whether `async` and `function` stand here on one line. -/
def startsAsyncFunction : Parser Bool := do
  unless ← isWord "async" do return false
  let next ← lookahead
  return next.token == .word "function" && !next.lineEndBefore

/-- The parameters a getter or a setter of the member named at `start` must
have. -/
def checkAccessor (isGetter : Bool) (start : Nat) (params : List Expr) : Parser Unit := do
  if isGetter then
    unless params.isEmpty do report start .getterParameters
  else
    unless params.length == 1 do report start .setterParameters
    if let .spread _ :: _ := params then report start .restInSetter

/-! ## Object literals -/

/-- Reads a member of an object literal, and the offset a message about it
points at. -/
def objectMember (rules : Rules) : Parser (Nat × Property) := do
  let start ← position
  let method (kind : MethodKind) (key : Key) (isAsync isGenerator : Bool)
      (check : List Expr → Parser Unit := fun _ => pure ()) : Parser (Nat × Property) := do
    let f ← within (fun c => { c with allowsSuper := true, inField := false })
      (functionRest rules isAsync isGenerator check)
    return (start, .method false kind key f)
  if ← eatPunct "..." then
    return (start, .spread (← includingIn rules.assignment))
  if ← eatPunct "*" then
    let key ← propertyKey rules
    return ← method .method key false true
  let key ← propertyKey rules
  if ← eatPunct ":" then
    let valueStart ← position
    return (valueStart, .keyValue key (← includingIn rules.assignment))
  if ← isPunct "(" then return ← method .method key false false
  match key with
  | .name name =>
    if ← eatPunct "?" then report (← lastStart) .optionalMember
    if (← isPunct "=") || (← isPunct ",") || (← isPunct "\x7d") then
      reportReservedShorthand name start
      if ← eatPunct "=" then
        return (start, .shorthand ⟨name, 0⟩ (some (← includingIn rules.assignment)))
      return (start, .shorthand ⟨name, 0⟩ none)
    match name with
    | "get" | "set" =>
      let keyStart ← position
      let key ← propertyKey rules
      let isGetter := name == "get"
      method (if isGetter then .getter else .setter) key false false (checkAccessor isGetter keyStart)
    | "async" =>
      let isGenerator ← eatPunct "*"
      let key ← propertyKey rules
      method .method key true isGenerator
    | _ => unexpected "... , *,  (, [, :, , ?, = or an identifier"
  | _ => unexpected "identifier"

def objectLiteral (rules : Rules) : Parser Expr := do
  let start ← position
  let (members, comma) ← bracedMembers (objectMember rules)
  if let some comma := comma then
    modify fun s => { s with trailingCommas := (start, comma) :: s.trailingCommas }
  return .object (members.map (·.2)) (members.map (·.1))

/-! ## Classes -/

def Key.isConstructor : Key → Bool
  | .name n => n == "constructor"
  | .str s _ => s == "constructor"
  | _ => false

/-- Reads a private name from its sign on. -/
def privateName : Parser String := do
  expectPunct "#"
  let signEnd := (← get).lastStop
  unless (← position) == signEnd do failHere .spaceInPrivateName
  anyName

def classKey (rules : Rules) : Parser Key := do
  if ← isPunct "#" then
    let start ← position
    let name ← privateName
    if name == "constructor" then report start .privateConstructor
    return .priv name
  propertyKey rules

/-- Whether a field without a value may end here. -/
def endsField (mayOmitSemicolon : Bool) : Parser Bool := do
  if (← isPunct "=") || (← isPunct "\x7d") then return true
  if mayOmitSemicolon then canEndStatement else isPunct ";"

/-- Reads the value of a field and what ends it. -/
def fieldRest (rules : Rules) (isStatic : Bool) (key : Key) (keyStart : Nat) : Parser Property := do
  if key.isConstructor then fail keyStart .constructorField
  let value ←
    if ← eatPunct "=" then
      within (fun c => { c with inField := true, includeIn := true }) (some <$> rules.assignment)
    else pure none
  unless ← eatSemicolon do report (← faultOffset) .expectedSemicolon
  return .field isStatic key value

def classMethod (rules : Rules) (isStatic : Bool) (kind : MethodKind) (key : Key)
    (isAsync isGenerator : Bool) (check : List Expr → Parser Unit := fun _ => pure ()) :
    Parser Property := do
  let f ← within (fun c => { c with inField := false })
    (functionRest rules isAsync isGenerator check)
  return .method isStatic kind key f

/-- Reads a member after the word `static`, if that was there. -/
def classMemberRest (rules : Rules) (isStatic : Bool) : Parser Property := do
  if isStatic && (← isPunct "\x7b") then
    return .staticBlock (← within
      (fun c => { c.forBody false false false with inStaticBlock := true, inFunction := false })
      (isolated (blockItems rules)))
  if ← eatPunct "*" then
    let keyStart ← position
    let key ← classKey rules
    if key.isConstructor then report keyStart .generatorConstructor
    return ← classMethod rules isStatic .method key false true
  let keyStart ← position
  let key ← classKey rules
  if ← isPunct "(" then
    if key.isConstructor && !isStatic then
      return ← classMethod rules false .constructor key false false
    return ← classMethod rules isStatic .method key false false
  let accessor ←
    match key with
    | .name n =>
      if n == "get" || n == "set" then
        pure (!(← endsField false) && !((← lineEndBefore) && (← isPunct "*")))
      else pure false
    | _ => pure false
  if !accessor && (← endsField true) then
    return ← fieldRest rules isStatic key keyStart
  match key with
  | .name "async" =>
    unless ← lineEndBefore do
      let isGenerator ← eatPunct "*"
      let innerStart ← position
      let inner ← classKey rules
      if inner.isConstructor then fail innerStart .asyncConstructor
      return ← classMethod rules isStatic .method inner true isGenerator
  | _ => pure ()
  if accessor then
    let inner ← classKey rules
    if inner.isConstructor then report keyStart .accessorConstructor
    let isGetter := match key with
      | .name n => n == "get"
      | _ => false
    return ← classMethod rules isStatic (if isGetter then .getter else .setter) inner false false
      (checkAccessor isGetter keyStart)
  unexpected "* for generator, private key, identifier or async"

def classMember (rules : Rules) : Parser Property := do
  let start ← position
  if ← eatWord "static" then
    if ← isPunct "(" then return ← classMethod rules false .method (.name "static") false false
    if ← endsField false then return ← fieldRest rules false (.name "static") start
    return ← classMemberRest rules true
  classMemberRest rules false

/-- Reads the members of a class up to its closing brace. -/
def classBody (rules : Rules) : Parser (List Property) := do
  let members ← collect do
    if (← atEnd) || (← isPunct "\x7d") then return none
    let start ← position
    if ← eatPunct ";" then return some (start, .empty)
    let m ← within (fun c => { c with allowsSuper := true }) (classMember rules)
    return some (start, m)
  let constructors := members.filter fun p =>
    match p.2 with
    | .method _ .constructor _ _ => true
    | _ => false
  for (start, _) in constructors.drop 1 do report start .secondConstructor
  return members.map (·.2)

/-- Reads a class from its keyword on. -/
def classFromKeyword (rules : Rules) (isNameOptional : Bool) :
    Parser (Option Ident × Option Expr × List Property) := do
  expectWord "class"
  let name ← declaredName isNameOptional true
  let base ← if ← eatWord "extends" then some <$> rules.leftHandSide else pure none
  if ← eatWord "extends" then
    report (← lastStart) .secondExtends
    let _ ← rules.leftHandSide
  expectPunct "\x7b"
  let members ← within (fun c => { c with inClass := true }) (classBody rules)
  if ← atEnd then report (← faultOffset) (.expectedToken "\x7d" "<eof>")
  else expectPunct "\x7d"
  return (name, base, members)

end Bundler.Script
