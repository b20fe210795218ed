/-
What can be wrong with the text of a JavaScript module, how each fault is
worded, and where in the text it lies.
-/

import Bundler.Script.Chars

namespace Bundler.Script

inductive SyntaxError where
  -- The text ends or goes on where it should not.
  | unexpectedEnd
  | expectedToken (want got : String)
  | unexpectedToken (got want : String)
  | expectedName
  | expectedExpression
  | expectedSemicolon
  | expectedStatementEnd
  -- Characters, numbers, strings, comments and regular expressions.
  | unexpectedChar (c : Char)
  | nameAfterNumber
  | expectedDigit (radix : Nat)
  | expectedExponent
  | misplacedSeparator
  | legacyDecimal
  | legacyOctal
  | legacyComment
  | badEscape (want : String)
  | badUnicodeEscape
  | badStringEscape
  | expectedUnicodeEscape
  | escapedKeyword (word : String)
  | unterminatedString
  | unterminatedTemplate
  | unterminatedComment
  | unterminatedRegExp
  | duplicateRegExpFlag (flag : Char)
  | unknownRegExpFlag
  -- Names.
  | awaitAsName
  | reservedName (word : String)
  | evalAsName
  | importedReserved
  | reservedExport (word : String)
  | stringExport
  | stringImport (name : String)
  -- Targets and patterns.
  | notAPattern
  | notAssignable
  | badUpdateTarget
  | badAssignTarget
  | defaultInLiteral
  | restNotLast
  | restWithDefault
  | restTrailingComma
  | lateRestElement
  | restNotName
  -- Expressions.
  | unaryBeforePower
  | mixedNullish
  | emptyParens
  | spreadInParens
  | lineEndBeforeArrow
  | misplacedArrow
  | awaitStar
  | awaitInFunction
  | awaitInParameters
  | yieldInParameters
  | taggedOptional
  | newOptional
  | newTargetOutside
  | superOutside
  | superCallOutside
  | deleteName
  | importTrailingComma
  -- Functions and classes.
  | setterParameters
  | getterParameters
  | secondConstructor
  | generatorConstructor
  | asyncConstructor
  | accessorConstructor
  | constructorField
  | staticPrototype
  | strictWithPatterns
  | optionalMember
  | restInSetter
  | spaceInPrivateName
  | privateConstructor
  | argumentsInField
  | secondExtends
  | reservedShorthand
  -- Statements.
  | declarationNotAllowed
  | moduleItemNested
  | lineEndAfterThrow
  | returnOutside
  | withInStrict
  | secondDefault
  | duplicateLabel (name : String)
  | labeledFunction
  | labeledGenerator
  | strayBreak
  | strayContinue
  | unknownBreakLabel
  | labelAcrossFunction
  | emptyDeclarations
  | constWithoutValue
  | patternWithoutValue
  | initializerInForHead
  | severalForBindings
  | asyncForOf
  | awaitForOther
deriving BEq, Repr, Inhabited

/-- The number base of a digit that is missing, as it is called. -/
def radixName : Nat → String
  | 2 => "a binary"
  | 8 => "an octal"
  | 16 => "a hexadecimal"
  | _ => "a decimal"

def SyntaxError.message : SyntaxError → String
  | unexpectedEnd => "Unexpected eof"
  | expectedToken want got => "Expected '" ++ want ++ "', got '" ++ got ++ "'"
  | unexpectedToken got want => "Unexpected token `" ++ got ++ "`. Expected " ++ want
  | expectedName => "Expected ident"
  | expectedExpression => "Expression expected"
  | expectedSemicolon => "Expected a semicolon"
  | expectedStatementEnd => "Expected ';', '\x7d' or <eof>"
  | unexpectedChar c => "Unexpected character '" ++ shown c ++ "'"
  | nameAfterNumber => "Identifier cannot follow number"
  | expectedDigit radix => "Expected " ++ radixName radix ++ " digit"
  | expectedExponent => "Expected +, - or decimal digit after e"
  | misplacedSeparator => "A numeric separator is only allowed between two digits"
  | legacyDecimal => "Legacy decimal escape is not permitted in strict mode"
  | legacyOctal => "Legacy octal escape is not permitted in strict mode"
  | legacyComment => "Legacy comments cannot be used in module code"
  | badEscape want => "Bad character escape sequence, expected " ++ want
  | badUnicodeEscape => "Invalid unicode escape"
  | badStringEscape => "Invalid string escape"
  | expectedUnicodeEscape => "Expected unicode escape"
  | escapedKeyword word => "Unexpected escape sequence in reserved word: " ++ word
  | unterminatedString => "Unterminated string constant"
  | unterminatedTemplate => "Unterminated template"
  | unterminatedComment => "Unterminated block comment"
  | unterminatedRegExp => "Unterminated regexp literal"
  | duplicateRegExpFlag flag => "Duplicated regular expression flag '" ++ flag.toString ++ "'."
  | unknownRegExpFlag => "Unknown regular expression flags."
  | awaitAsName => "`await` cannot be used as an identifier in an async context"
  | reservedName word => "`" ++ word ++ "` cannot be used as an identifier in strict mode"
  | evalAsName => "'eval' and 'arguments' cannot be used as a binding identifier in strict mode"
  | importedReserved => "cannot import as reserved word"
  | reservedExport word => "`" ++ word ++ "` cannot be used without `from` clause"
  | stringExport => "A string literal cannot be used as an exported binding without `from`."
  | stringImport name => "A string literal cannot be used as an imported binding.\n- Did you mean `import \x7b \"" ++
      name ++ "\" as foo \x7d`?"
  | notAPattern => "Not a pattern"
  | notAssignable => "Cannot assign to this"
  | badUpdateTarget =>
      "The left-hand side of an assignment expression must be a variable or a property access."
  | badAssignTarget => "Invalid assignment target"
  | defaultInLiteral => "assignment property is invalid syntax"
  | restNotLast => "A rest parameter must be last in a parameter list"
  | restWithDefault => "A rest parameter cannot have an initializer"
  | restTrailingComma => "Trailing comma isn't permitted after a rest element"
  | lateRestElement => "Rest element must be final element"
  | restNotName => "`...` must be followed by an identifier in declaration contexts"
  | unaryBeforePower => "'**' cannot be applied to unary/await expression."
  | mixedNullish =>
      "Nullish coalescing operator(??) requires parens when mixing with logical operators"
  | emptyParens => "Parenthesized expression cannot be empty"
  | spreadInParens => "Parenthesized expression cannot contain spread operator"
  | lineEndBeforeArrow => "Unexpected line break between arrow head and arrow"
  | misplacedArrow => "An arrow function is not allowed here"
  | awaitStar => "await* has been removed from the async functions proposal. Use Promise.all() instead."
  | awaitInFunction => "await isn't allowed in non-async function"
  | awaitInParameters => "await expressions cannot be in a parameter initializer"
  | yieldInParameters => "'yield' cannot be used as a parameter within generator"
  | taggedOptional => "Tagged template literal is not allowed in optional chain"
  | newOptional => "Constructor in/after an optional chain is not allowed."
  | newTargetOutside =>
      "'new.target' is only allowed in the body of a function declaration, function expression, or class."
  | superOutside => "Invalid access to super"
  | superCallOutside => "Invalid `super()`"
  | deleteName => "'delete' cannot be called on an identifier in strict mode"
  | importTrailingComma => "Trailing comma is disallowed inside import(...) arguments"
  | setterParameters => "A `set` accessor must have exactly one parameter"
  | getterParameters => "A `get` accessor cannot have parameters"
  | secondConstructor => "A class can only have one constructor"
  | generatorConstructor => "Constructor can't be a generator"
  | asyncConstructor => "Constructor can't be an async function"
  | accessorConstructor => "Class constructor can't be an accessor"
  | constructorField => "Classes may not have a non-static field named 'constructor'"
  | staticPrototype => "Classes may not have a static property named prototype"
  | strictWithPatterns =>
      "Illegal 'use strict' directive in function with non-simple parameter list."
  | optionalMember => "An object member cannot be declared optional"
  | restInSetter => "Rest arguments are not allowed in setter"
  | spaceInPrivateName => "Unexpected space between # and identifier"
  | privateConstructor => "Classes can't have a private field named '#constructor'."
  | argumentsInField => "'arguments' is only allowed in functions and class methods"
  | secondExtends => "`extends` clause already seen."
  | reservedShorthand => "Cannot use a reserved word as a shorthand property"
  | declarationNotAllowed => "Declaration is not allowed"
  | moduleItemNested => "'import', and 'export' cannot be used outside of module code"
  | lineEndAfterThrow => "LineBreak cannot follow 'throw'"
  | returnOutside => "Return statement is not allowed here"
  | withInStrict => "With statement are not allowed in strict mode"
  | secondDefault => "A switch block cannot have multiple defaults"
  | duplicateLabel name => "Label " ++ name ++ " is already declared"
  | labeledFunction => "Function cannot be labelled in strict mode"
  | labeledGenerator => "Generator or async function cannot be labelled"
  | strayBreak =>
      "A 'break' statement can only be used within an enclosing iteration or switch statement"
  | strayContinue =>
      "A 'continue' statement can only jump to a label of an enclosing iteration statement"
  | unknownBreakLabel =>
      "A 'break' statement can only jump to a label of an enclosing statement"
  | labelAcrossFunction => "Jump target cannot cross function boundary"
  | emptyDeclarations => "Trailing comma is not allowed"
  | constWithoutValue => "'const' declarations must be initialized"
  | patternWithoutValue => "Destructuring bindings require initializers"
  | initializerInForHead => "Unexpected initializer in for in/of loop"
  | severalForBindings => "Expected one variable binding"
  | asyncForOf => "The left-hand side of a `for...of` statement may not be `async`"
  | awaitForOther => "for await syntax is valid only for for-of statement"
where
  /-- A character as messages show it. -/
  shown (c : Char) : String :=
    if isQuoteOrSlash c then "\\" ++ c.toString
    else if c == '\n' then "\\n"
    else if c == '\r' then "\\r"
    else if c == '\t' then "\\t"
    else if c == '\x00' then "\\0"
    else if c.toNat < 32 || isHidden c then "\\u\x7b" ++ String.ofList (Nat.toDigits 16 c.toNat) ++ "\x7d"
    else c.toString
  isQuoteOrSlash (c : Char) : Bool := c == '\'' || c == '\\'
  isHidden (c : Char) : Bool := isUnprintable c

/-- A fault and where it lies: how many characters of the text stand before
it. -/
structure Fault where
  offset : Nat
  error : SyntaxError
deriving BEq, Repr, Inhabited

/-! ## Locations -/

/-- A place in a text: both count from one, and columns count UTF-16 units. -/
structure Location where
  line : Nat
  column : Nat
deriving BEq, DecidableEq, Repr, Inhabited

/-- How many UTF-16 units a character takes. -/
def utf16Units (c : Char) : Nat :=
  if c.toNat < 0x10000 then 1 else 2

/-- The place of the character with `offset` characters before it. A line
ends at a line feed, a carriage return, or the two in that order; an end at
the very end of the text opens no new line. -/
def Location.ofOffset (text : List Char) (offset : Nat) : Location :=
  go text offset 1 1
where
  go : List Char → Nat → Nat → Nat → Location
    | _, 0, line, column => ⟨line, column⟩
    | [], _ + 1, line, column => ⟨line, column⟩
    | c :: rest, n + 1, line, column =>
      let endsLine := c == '\n' || (c == '\r' && rest.head? != some '\n')
      if endsLine && !rest.isEmpty then go rest n (line + 1) 1
      else go rest n line (column + utf16Units c)

end Bundler.Script
