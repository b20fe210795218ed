/-
Statements and declarations, and the grammar as a whole.
-/
import Bundler.Script.Parser.Expression

namespace Bundler.Script

open Bundler.Script.Parser

/-! ## Declarations -/

def variableKind? : Token → Option VarKind
  | .word "var" => some .var
  | .word "let" => some .letKind
  | .word "const" => some .constKind
  | _ => none

/-- Whether `let` followed by this token starts a declaration. -/
def followsLet : Token → Bool
  | .word w => !isKeyword w
  | .punct p => p == "\x7b" || p == "["
  | _ => false

/-- Whether a declaration of variables starts here. -/
def startsVariables : Parser Bool := do
  match variableKind? (← current) with
  | some .letKind => return followsLet (← peek)
  | some _ => return true
  | none => return false

def variableDeclarator (rules : Rules) (kind : VarKind) (inForHead : Bool) :
    Parser (Nat × Declarator) := do
  let start ← position
  let target ← rules.pattern (kind != .var)
  if inForHead && ((← isWord "in") || (← isWord "of")) then return (start, .mk target none)
  if ← eatPunct "=" then
    let value ← rules.assignment
    return (start, .mk target (some (← checkDefaults value)))
  if kind == .constKind then report start .constWithoutValue
  else
    match target with
    | .ident _ => pure ()
    | _ => fail start .patternWithoutValue
  return (start, .mk target none)

/-- Passes over tokens up to the end of a statement. -/
def skipStatement : Parser Unit := do
  let _ ← iterate (fun () => do
    if ← eatSemicolon then return none
    bump
    return if (← current) == .bad then none else some ()) ()

/-- Reads a declaration of variables, each with where it starts. -/
def variableDeclaration (rules : Rules) (inForHead : Bool) :
    Parser (VarKind × List (Nat × Declarator)) := do
  let keywordStart ← position
  let kind := (variableKind? (← current)).getD .var
  bump
  let keywordStop := (← get).lastStop
  let step : (Bool × List (Nat × Declarator)) → Parser (Option (Bool × List (Nat × Declarator)))
    | (true, _) => return none
    | (false, decls) => do
      if (← isPunct ";") || (← atEnd) then
        let s ← get
        report (if s.lastStart == keywordStart then keywordStop else s.lastStart) .emptyDeclarations
        return some (true, decls)
      let d ← variableDeclarator rules kind inForHead
      return some (!(← eatPunct ","), d :: decls)
  let (_, decls) ← iterate step (false, [])
  unless inForHead do
    unless ← eatSemicolon do
      report (← faultOffset) .expectedSemicolon
      let _ ← recover rules.expression fun _ => return .invalid
      skipStatement
  return (kind, decls.reverse)

def variableDecls (rules : Rules) : Parser Stmt := do
  let (kind, decls) ← variableDeclaration rules false
  return .vars kind (decls.map (·.2))

/-- Reads a function or a class that declares its name. -/
def functionDeclaration (rules : Rules) (isAsync : Bool) : Parser Stmt := do
  if isAsync then expectWord "async"
  let (name, f) ← functionFromKeyword rules isAsync false false
  return .func (name.getD ⟨"", 0⟩) f

def classDeclaration (rules : Rules) : Parser Stmt := do
  let (name, base, members) ← classFromKeyword rules false
  return .cls (name.getD ⟨"", 0⟩) base members

/-! ## Simple statements -/

def jump (isBreak : Bool) : Parser Stmt := do
  let start ← position
  bump
  let label ←
    if ← eatSemicolon then pure none
    else
      let label ← variableName
      expectSemicolon
      pure (some label)
  let c ← read
  let labels := (← get).labels
  let isKnown := label.all labels.contains
  if isBreak then
    if !isKnown then report start .unknownBreakLabel
    else if !c.allowsBreak then report start .strayBreak
    return .breakTo label
  else
    if !c.allowsContinue then report start .strayContinue
    else if !isKnown then report start .labelAcrossFunction
    return .continueTo label

def returnStatement (rules : Rules) : Parser Stmt := do
  let start ← position
  bump
  let arg ← if ← canEndStatement then pure none else some <$> includingIn rules.expression
  expectSemicolon
  unless (← read).inFunction do report start .returnOutside
  return .ret arg

def throwStatement (rules : Rules) : Parser Stmt := do
  bump
  if ← lineEndBefore then failHere .lineEndAfterThrow
  let arg ← includingIn rules.expression
  expectSemicolon
  return .throw arg

/-- Reads an expression in parentheses, as the heads of statements have. -/
def headExpression (rules : Rules) : Parser Expr := do
  expectPunct "("
  let e ← includingIn rules.expression
  expectPunct ")"
  return e

def ifStatement (rules : Rules) : Parser Stmt := do
  bump
  let test ← headExpression rules
  let yes ← rules.statement false
  if ← eatWord "else" then return .cond test yes (some (← rules.statement false))
  return .cond test yes none

/-! ## Loops, switches and handlers -/

def loopBody (rules : Rules) : Parser Stmt :=
  within (fun c => { c with allowsBreak := true, allowsContinue := true }) (rules.statement false)

def whileStatement (rules : Rules) : Parser Stmt := do
  bump
  let test ← headExpression rules
  return .whileLoop test (← loopBody rules)

def doStatement (rules : Rules) : Parser Stmt := do
  bump
  let body ← loopBody rules
  expectWord "while"
  let test ← headExpression rules
  let _ ← eatSemicolon
  return .doWhile body test

def withStatement (rules : Rules) : Parser Stmt := do
  report (← position) .withInStrict
  bump
  let object ← headExpression rules
  return .withIn object (← rules.statement false)

/-- The head of a `for` statement. -/
inductive ForHead where
  | counted (init : Option Stmt) (test update : Option Expr)
  | members (target : Stmt) (subject : Expr)
  | elements (target : Stmt) (subject : Expr)

/-- Reads the test and the update of a counted loop. -/
def countedHead (rules : Rules) (init : Option Stmt) : Parser ForHead := do
  let test ←
    if ← eatPunct ";" then pure none
    else
      let test ← includingIn rules.expression
      expectPunct ";"
      pure (some test)
  let update ← if ← isPunct ")" then pure none else some <$> includingIn rules.expression
  return .counted init test update

/-- Reads what a loop goes over, from `of` or `in` on. -/
def eachHead (rules : Rules) (target : Stmt) : Parser ForHead := do
  if ← eatWord "of" then return .elements target (← includingIn rules.assignment)
  bump
  return .members target (← includingIn rules.expression)

def isEachWord : Parser Bool := return (← isWord "of") || (← isWord "in")

def forHead (rules : Rules) : Parser ForHead := do
  if ← startsVariables then
    let (kind, decls) ← within (fun c => { c with includeIn := false, inForHead := true })
      (variableDeclaration rules true)
    let target := Stmt.vars kind (decls.map (·.2))
    if ← isEachWord then
      match decls with
      | [(start, .mk _ (some _))] => report start .initializerInForHead
      | _ => for (start, _) in decls.drop 1 do report start .severalForBindings
      return ← eachHead rules target
    expectPunct ";"
    return ← countedHead rules (some target)
  if ← eatPunct ";" then return ← countedHead rules none
  let start ← position
  let init ← within (fun c => { c with includeIn := false, inForHead := true }) rules.expression
  if ← isEachWord then
    return ← eachHead rules (.expr (← toPattern .target start init))
  expectPunct ";"
  countedHead rules (some (.expr (← checkDefaults init)))

def forStatement (rules : Rules) : Parser Stmt := do
  let start ← position
  bump
  let awaitStart ← position
  let isAwait ← eatWord "await"
  expectPunct "("
  let head ← forHead rules
  expectPunct ")"
  let body ← loopBody rules
  match head with
  | .elements target subject => return .forOf isAwait start target subject body
  | .counted init test update =>
    if isAwait then fail awaitStart .awaitForOther
    return .forLoop init test update body
  | .members target subject =>
    if isAwait then fail awaitStart .awaitForOther
    return .forIn target subject body

/-- Reads a clause of a `switch`, whether its word is `case` or `default`. -/
def switchClause (rules : Rules) (hadDefault : Bool) : Parser Stmt := do
  let isCase ← isWord "case"
  bump
  let test ← if isCase then some <$> includingIn rules.expression else pure none
  if hadDefault && !isCase then failHere .secondDefault
  expectPunct ":"
  let body ← collect do
    if (← atEnd) || (← isWord "case") || (← isWord "default") || (← isPunct "\x7d") then return none
    return some (← rules.statement true)
  return .clause test body

def isDefaultClause : Stmt → Bool
  | .clause none _ => true
  | _ => false

def switchStatement (rules : Rules) : Parser Stmt := do
  bump
  let subject ← headExpression rules
  expectPunct "\x7b"
  let cases ← within (fun c => { c with allowsBreak := true }) (iterate (fun cases => do
    unless (← isWord "case") || (← isWord "default") do return none
    return some ((← switchClause rules (cases.any isDefaultClause)) :: cases)) [])
  expectPunct "\x7d"
  return .switch subject cases.reverse

/-- Reads a `catch` clause if there is one. -/
def catchClause (rules : Rules) : Parser (Option Stmt) := do
  unless ← eatWord "catch" do return none
  let param ←
    if ← eatPunct "(" then
      let p ← rules.pattern false
      expectPunct ")"
      pure (some p)
    else pure none
  return some (.handler param (← blockItems rules))

/-- Reads a `finally` clause if there is one. -/
def finallyClause (rules : Rules) : Parser (Option Stmt) := do
  unless ← eatWord "finally" do return none
  return some (.block (← blockItems rules))

def tryStatement (rules : Rules) : Parser Stmt := do
  bump
  let body ← blockItems rules
  let afterBody ← position
  let handler ← catchClause rules
  let finalizer ← finallyClause rules
  if handler.isNone && finalizer.isNone then report afterBody .expectedSemicolon
  return .tryCatch body handler finalizer

/-- Reports a clause without its `try` and passes over it. -/
def strayHandler (rules : Rules) : Parser Stmt := do
  report (← position) .expectedSemicolon
  let _ ← catchClause rules
  let _ ← finallyClause rules
  return .expr .invalid

/-! ## Labels and expressions -/

/-- Reads the statement after a label, whose name starts at `start`. -/
def labeledStatement (rules : Rules) (start : Nat) (label : String) : Parser Stmt :=
  within (fun c => { c with allowsBreak := true }) do
    let isDuplicate := (← get).labels.contains label
    modify fun s => { s with labels := s.labels ++ [label] }
    let bodyStart ← position
    let body ←
      if ← isWord "function" then
        let s ← functionDeclaration rules false
        report bodyStart .labeledFunction
        match s with
        | .func _ (.mk _ _ isAsync isGenerator) =>
          if isAsync || isGenerator then report bodyStart .labeledGenerator
        | _ => pure ()
        pure s
      else rules.statement false
    if isDuplicate then report start (.duplicateLabel label)
    modify fun s => { s with labels := s.labels.erase label }
    return .labeled label body

/-- Reads a statement that starts with an expression. -/
def expressionStatement (rules : Rules) : Parser Stmt := do
  let start ← position
  let e ← includingIn rules.expression
  match e with
  | .ident id => if ← eatPunct ":" then return ← labeledStatement rules start id.name
  | _ => let _ ← checkDefaults e
  if ← eatSemicolon then return .expr e
  if (binaryOps.lookup (← punctuation)).isSome then
    report (← faultOffset) .expectedSemicolon
    return .expr (← rules.binaryRest start e 0)
  failHere .expectedStatementEnd
where
  punctuation : Parser String := do
    match ← current with
    | .punct p => return p
    | _ => return ""

/-- Reads an expression that `import` starts. Anything may follow it. -/
def importStatement (rules : Rules) : Parser Stmt := do
  let e ← rules.expression
  let _ ← eatSemicolon
  return .expr e

/-! ## Any statement -/

def startsImportExpression : Parser Bool := do
  unless ← isWord "import" do return false
  let next ← peek
  return next == .punct "(" || next == .punct "."

/-- Reads a statement; only a statement of a list may declare. -/
def anyStatement (rules : Rules) (allowsDeclaration : Bool) : Parser Stmt := do
  let t ← current
  if t == .word "import" || t == .word "export" then
    if ← startsImportExpression then return ← importStatement rules
    failHere .moduleItemNested
  match ← needToken with
  | .word "break" => jump true
  | .word "continue" => jump false
  | .word "debugger" =>
    bump
    expectSemicolon
    return .debugger
  | .word "do" => doStatement rules
  | .word "for" => forStatement rules
  | .word "function" =>
    unless allowsDeclaration do report (← position) .declarationNotAllowed
    functionDeclaration rules false
  | .word "class" =>
    unless allowsDeclaration do report (← position) .declarationNotAllowed
    classDeclaration rules
  | .word "if" => ifStatement rules
  | .word "return" => returnStatement rules
  | .word "switch" => switchStatement rules
  | .word "throw" => throwStatement rules
  | .word "catch" | .word "finally" => strayHandler rules
  | .word "try" => tryStatement rules
  | .word "with" => withStatement rules
  | .word "while" => whileStatement rules
  | .word "var" => variableDecls rules
  | .punct "\x7b" => return .block (← blockItems rules)
  | .punct ";" =>
    bump
    return .empty
  | t =>
    if allowsDeclaration && t == .word "const" then return ← variableDecls rules
    if allowsDeclaration && t == .word "let" && (← startsVariables) then return ← variableDecls rules
    if ← startsAsyncFunction then return ← functionDeclaration rules true
    expressionStatement rules

/-! ## The whole grammar -/

/-- Reads one part of the grammar, where `rules` reads the parts in it. -/
def readPart (rules : Rules) : Rules := fun n =>
  match n with
  | .assignment => assignmentExpression rules
  | .expression => commaExpression rules
  | .unary => unaryExpression rules
  | .binaryRest start left floor => binaryOperators rules start left floor
  | .leftHandSide => leftHandSide rules
  | .newOperand => memberOrNew rules
  | .statement allowsDeclaration => anyStatement rules allowsDeclaration
  | .pattern refusesLet => bindingPattern rules refusesLet

/-- Reads the parts of the grammar, nested at most `depth` deep. -/
def grammar : Nat → Rules
  | 0 => fun
    | .statement _ => throw ⟨0, .unexpectedEnd⟩
    | .assignment | .expression | .unary | .binaryRest .. | .leftHandSide | .newOperand | .pattern _ =>
      throw ⟨0, .unexpectedEnd⟩
  | depth + 1 => fun n => readPart (grammar depth) n

end Bundler.Script
