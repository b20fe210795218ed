/-
The tokens of JavaScript, and how a message spells the token it met.
-/
import Bundler.Script.Tree

namespace Bundler.Script

inductive Token where
  /-- A name or a keyword. -/
  | word (text : String)
  /-- A punctuator, a template's backquote, or the sign of a private name. -/
  | punct (text : String)
  | num (text : String)
  | bigint (text : String)
  | str (value raw : String)
  /-- The token that follows is malformed in a way that nothing mends. -/
  | bad
  | endOfText
deriving BEq, DecidableEq, Inhabited, Repr

/-! ## Words -/

/-- The words that never name a variable of a module. -/
def reservedWords : List String :=
  ["await", "break", "case", "catch", "class", "const", "continue", "debugger", "default",
   "delete", "do", "else", "enum", "export", "extends", "false", "finally", "for", "function",
   "if", "implements", "import", "in", "instanceof", "interface", "let", "new", "null",
   "package", "private", "protected", "public", "return", "super", "switch", "this", "throw",
   "true", "try", "typeof", "var", "void", "while", "with", "yield"]

/-- The words that keep their role everywhere: the grammar reads them as
keywords even where a name is wanted. -/
def keywords : List String :=
  ["break", "case", "catch", "class", "const", "continue", "debugger", "default", "delete",
   "do", "else", "export", "extends", "false", "finally", "for", "function", "if", "import",
   "in", "instanceof", "new", "null", "return", "super", "switch", "this", "throw", "true",
   "try", "typeof", "var", "void", "while", "with"]

/-- The words that module code reserves besides the keywords. -/
def strictWords : List String :=
  ["enum", "implements", "interface", "let", "package", "private", "protected", "public",
   "static", "yield"]

def isReservedWord (w : String) : Bool := reservedWords.contains w
def isKeyword (w : String) : Bool := keywords.contains w

/-! ## Operators -/

/-- The binary operators that are written as punctuation. -/
def binaryOps : List (String × BinaryOp) :=
  [("==", .eq), ("!=", .notEq), ("===", .strictEq), ("!==", .strictNotEq),
   ("<", .lt), ("<=", .le), (">", .gt), (">=", .ge),
   ("<<", .shiftLeft), (">>", .shiftRight), (">>>", .shiftRightZero),
   ("+", .add), ("-", .sub), ("*", .mul), ("/", .div), ("%", .rem), ("**", .exp),
   ("|", .bitOr), ("^", .bitXor), ("&", .bitAnd),
   ("||", .or), ("&&", .and), ("??", .nullish)]

/-- The operator a token stands for between two operands. -/
def Token.binaryOp? : Token → Option BinaryOp
  | .punct p => binaryOps.lookup p
  | .word "in" => some .isIn
  | .word "instanceof" => some .instanceof
  | _ => none

/-- The operator in the middle of an assignment. -/
def Token.assignOp? : Token → Option AssignOp
  | .punct "=" => some .assign
  | .punct p =>
    if p.endsWith "=" then ((binaryOps.lookup (p.dropEnd 1).toString).filter isUpdating).map .compound else none
  | _ => none
where
  /-- Comparisons have no assignment form. -/
  isUpdating : BinaryOp → Bool
    | .eq | .notEq | .strictEq | .strictNotEq | .lt | .le | .gt | .ge => false
    | _ => true

/-- How tightly a binary operator binds. -/
def BinaryOp.precedence : BinaryOp → Nat
  | .or | .nullish => 1
  | .and => 2
  | .bitOr => 3
  | .bitXor => 4
  | .bitAnd => 5
  | .eq | .notEq | .strictEq | .strictNotEq => 6
  | .lt | .le | .gt | .ge | .instanceof | .isIn => 7
  | .shiftLeft | .shiftRight | .shiftRightZero => 8
  | .add | .sub => 9
  | .mul | .div | .rem => 10
  | .exp => 11

def BinaryOp.text : BinaryOp → String
  | .isIn => "in"
  | .instanceof => "instanceof"
  | op => ((binaryOps.find? fun p => p.2 == op).map (·.1)).getD ""

def UnaryOp.text : UnaryOp → String
  | .minus => "-" | .plus => "+" | .not => "!" | .tilde => "~"
  | .typeof => "typeof" | .void => "void" | .delete => "delete"

/-- The operator a token stands for before an operand. -/
def Token.unaryOp? : Token → Option UnaryOp
  | .punct "-" => some .minus
  | .punct "+" => some .plus
  | .punct "!" => some .not
  | .punct "~" => some .tilde
  | .word "typeof" => some .typeof
  | .word "void" => some .void
  | .word "delete" => some .delete
  | _ => none

def AssignOp.text : AssignOp → String
  | .assign => "="
  | .compound op => op.text ++ "="

/-! ## Tokens in messages -/

/-- Whether an expression may start with this token. -/
def Token.startsExpression : Token → Bool
  | .word w => !isKeyword w ||
      ["class", "delete", "false", "function", "import", "new", "null", "super", "this", "true",
        "typeof", "void"].contains w
  | .punct p => ["!", "(", "[", "\x7b", "++", "--", "#", "`", "+", "-", "~", "...", "@", "<"].contains p
  | .num _ | .bigint _ | .str _ _ => true
  | .bad | .endOfText => false

/-- The digits of a decimal literal written out without an exponent, zeros
that carry no value removed. -/
def plainDecimal (text : String) : String :=
  let text := text.toList.filter (· != '_')
  let mantissa := text.takeWhile fun c => c != 'e' && c != 'E'
  let exponentText := text.drop (mantissa.length + 1)
  let isNegative := exponentText.head? == some '-'
  let exponent := ((String.ofList (exponentText.filter Char.isDigit)).toNat?).getD 0
  let whole := mantissa.takeWhile (· != '.')
  let fraction := mantissa.drop (whole.length + 1)
  let (whole, fraction) :=
    if isNegative then
      let padded := List.replicate exponent '0' ++ whole
      (padded.take (padded.length - exponent), padded.drop (padded.length - exponent) ++ fraction)
    else
      let padded := fraction ++ List.replicate (exponent - fraction.length) '0'
      (whole ++ padded.take exponent, padded.drop exponent)
  let whole := whole.dropWhile (· == '0')
  let fraction := (fraction.reverse.dropWhile (· == '0')).reverse
  let whole := if whole.isEmpty then ['0'] else whole
  String.ofList (if fraction.isEmpty then whole else whole ++ '.' :: fraction)

/-- The value of the digits of a number in a base up to sixteen. -/
def digitsValue (radix : Nat) (digits : List Char) : Nat :=
  digits.foldl (fun n c => n * radix + digit c) 0
where
  digit (c : Char) : Nat :=
    if c.isDigit then c.toNat - '0'.toNat
    else if 'a' ≤ c && c ≤ 'f' then c.toNat - 'a'.toNat + 10
    else c.toNat - 'A'.toNat + 10

/-- The value of a number literal in plain decimal digits. -/
def numberValueText (text : String) : String :=
  let based (radix : Nat) (digits : List Char) : String :=
    toString (digitsValue radix (digits.filter (· != '_')))
  match text.toList with
  | '0' :: 'x' :: ds | '0' :: 'X' :: ds => based 16 ds
  | '0' :: 'o' :: ds | '0' :: 'O' :: ds => based 8 ds
  | '0' :: 'b' :: ds | '0' :: 'B' :: ds => based 2 ds
  | _ => plainDecimal text

def Token.shown : Token → String
  | .word w => w
  | .punct p => p
  | .num text => "numeric literal (" ++ numberValueText text ++ ", " ++ text ++ ")"
  | .bigint text => "bigint literal (" ++ numberValueText text ++ ", " ++ text ++ "n)"
  | .str value raw => "string literal (" ++ value ++ ", " ++ raw ++ ")"
  | .bad => "<lexing error>"
  | .endOfText => "<eof>"

end Bundler.Script
