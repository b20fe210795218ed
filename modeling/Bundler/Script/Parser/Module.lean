/-
Import and export declarations, and modules: `Module.parse` reads a text into
a module or tells the fault that counts. That is the one the reading gave up
at, or else the first one it reported.
-/
import Bundler.Script.Parser.Statement

namespace Bundler.Script

open Bundler.Script.Parser

/-! ## Imports -/

/-- Reads a string that names a module. -/
def moduleString : Parser String := do
  match ← needToken with
  | .str value _ =>
    bump
    return value
  | _ => unexpected "a string literal"

def outerName : Parser OuterName := do
  match ← needToken with
  | .str value _ =>
    bump
    return .str value
  | .word w =>
    bump
    return .name w
  | _ => unexpected "identifier or string"

def importSpecifier : Parser ImportSpecifier := do
  let start ← position
  let outer ← outerName
  if ← eatWord "as" then return .named ⟨← bindingName false, 0⟩ (some outer)
  match outer with
  | .name name =>
    if isReservedWord name && name != "default" then fail start .importedReserved
    return .named ⟨name, 0⟩ none
  | .str value => fail start (.stringImport value)

/-- Reads items in braces, after the opening one, separated by commas. -/
def bracedList {α : Type} (item : Parser α) : Parser (List α) := do
  let items ← collect do
    if (← atEnd) || (← isPunct "\x7d") then return none
    let a ← item
    unless ← isPunct "\x7d" do expectPunct ","
    return some a
  expectPunct "\x7d"
  return items

/-- Reads `from` and the module after it. -/
def fromClause : Parser String := do
  expectWord "from"
  let source ← moduleString
  expectSemicolon
  return source

/-- Reads the names that an import starts with: a word for a phase, if more
than a source follows it, and the name for the default export. -/
def importHead : Parser (ImportPhase × List ImportSpecifier) := do
  let name ← bindingName false
  let phase := ImportPhase.ofWord? name
  if phase.isSome && ((← isPunct "*") || (← isPunct "\x7b")) then
    return (phase.getD .evaluation, [])
  let hasName ← do
    if phase.isNone then pure false
    else if (← isVariableName) && !(← isWord "from") then pure true
    else pure ((← peek) == .word "from")
  let name ← if hasName then bindingName false else pure name
  unless ← isWord "from" do expectPunct ","
  return (if hasName then phase.getD .evaluation else .evaluation, [.default ⟨name, 0⟩])

/-- Reads an import. Its phase is checked and not kept: every module of an
artifact is evaluated when it is required. -/
def importDeclaration : Parser ModuleItem := do
  expectWord "import"
  if let .str source _ ← current then
    bump
    expectSemicolon
    return .imports [] source
  let (phase, default) ← if ← isVariableName then importHead else pure (.evaluation, [])
  let others ←
    if phase != .source && (← isPunct "*") then
      bump
      expectWord "as"
      pure [ImportSpecifier.namespace ⟨← bindingName false, 0⟩]
    else if phase == .evaluation && (← isPunct "\x7b") then
      bump
      bracedList importSpecifier
    else pure []
  return .imports (default ++ others) (← fromClause)

/-! ## Exports -/

/-- Reads an export specifier, and where it starts. -/
def exportSpecifier : Parser (Nat × OuterName × Option OuterName) := do
  let start ← position
  let inner ← outerName
  let outer ← if ← eatWord "as" then some <$> outerName else pure none
  return (start, inner, outer)

/-- Reports the names in braces that no variable of this module has. -/
def checkLocalExports (specifiers : List (Nat × OuterName × Option OuterName)) : Parser Unit := do
  for (start, inner, _) in specifiers do
    match inner with
    | .name name =>
      if isKeyword name || ["enum", "package"].contains name then report start (.reservedExport name)
    | .str _ => report start .stringExport

def namedExports : Parser ModuleItem := do
  expectPunct "\x7b"
  let specifiers ← bracedList exportSpecifier
  let source ←
    if ← isWord "from" then some <$> fromClause
    else
      checkLocalExports specifiers
      let _ ← eatSemicolon
      pure none
  return .exportNamed (specifiers.map fun (_, inner, outer) => .named inner 0 outer) source

/-- Reads what follows `export default`. -/
def defaultExport (rules : Rules) : Parser DefaultExport := do
  if ← isWord "class" then
    let (name, base, members) ← classFromKeyword rules true
    return .cls name base members
  if ← startsAsyncFunction then
    bump
    let (name, f) ← functionFromKeyword rules true false true
    return .func name f
  if ← isWord "function" then
    let (name, f) ← functionFromKeyword rules false false true
    return .func name f
  let e ← rules.assignment
  expectSemicolon
  return .expr e

def exportDeclaration (rules : Rules) : Parser ModuleItem := do
  expectWord "export"
  let _ ← needToken
  if ← eatWord "default" then return .exportDefault (← defaultExport rules)
  if ← isWord "class" then return .exportDecl (← classDeclaration rules)
  if ← startsAsyncFunction then return .exportDecl (← functionDeclaration rules true)
  if ← isWord "function" then return .exportDecl (← functionDeclaration rules false)
  if ← startsVariables then return .exportDecl (← variableDecls rules)
  if ← eatPunct "*" then
    if ← eatWord "as" then
      let outer ← outerName
      return .exportNamed [.namespace outer] (some (← fromClause))
    return .exportAll (← fromClause)
  namedExports

/-! ## Modules -/

def moduleItem (rules : Rules) : Parser (Option ModuleItem) := do
  match ← current with
  | .endOfText => return none
  | .word "import" =>
    if ← startsImportExpression then return some (.stmt (← importStatement rules))
    return some (← importDeclaration)
  | .word "export" => return some (← exportDeclaration rules)
  | _ => return some (.stmt (← rules.statement true))

/-- The text after a byte order mark. -/
def withoutMark (text : List Char) : List Char :=
  match text with
  | c :: rest => if c == '\ufeff' then rest else text
  | [] => []

/-- A fault as it is told: what is wrong, and where in the text. -/
structure ParseFault where
  error : SyntaxError
  location : Location
deriving BEq, Repr, Inhabited

def ParseFault.message (f : ParseFault) : String :=
  s!"{f.error.message} at {f.location.line}:{f.location.column}"

/-- Reads a module. Each character of a text opens at most a handful of
nested parts of the grammar. -/
def Module.parse (text : String) : Except ParseFault Module :=
  let text := withoutMark text.toList
  let rules := grammar (16 * text.length + 64)
  let first := firstLexeme text
  let start : ParseState := { current := first, reported := first.faults.reverse }
  let located (f : Fault) : ParseFault := ⟨f.error, .ofOffset text f.offset⟩
  match (collect (moduleItem rules)).run {} start with
  | .error fault _ => .error (located fault)
  | .ok items s =>
    match s.reported.getLast? with
    | some fault => .error (located fault)
    | none => .ok ⟨items, text⟩

end Bundler.Script
