/-
How a program is written down: four spaces for each level, literals of
several parts over several lines, and names and numbers as the source spells
them. Whoever prints a tree has already put in the parentheses it needs.
-/
import Bundler.Script.Tree
import Bundler.Script.Token

namespace Bundler.Script

/-! ## Pages -/

/-- A text that is being written. Indentation is written with the first text
of a line. -/
structure Page where
  text : String := ""
  level : Nat := 0
  atLineStart : Bool := true

abbrev Printer := StateM Page

def write (s : String) : Printer Unit :=
  unless s.isEmpty do
    modify fun p =>
      if p.atLineStart then
        { p with text := p.text ++ String.ofList (List.replicate (4 * p.level) ' ') ++ s, atLineStart := false }
      else { p with text := p.text ++ s }

/-- Ends the line, unless nothing stands on it. -/
def endLine : Printer Unit :=
  modify fun p => if p.atLineStart then p else { p with text := p.text ++ "\n", atLineStart := true }

/-- Writes one level further in. -/
def indented (body : Printer Unit) : Printer Unit := do
  modify fun p => { p with level := p.level + 1 }
  body
  modify fun p => { p with level := p.level - 1 }

/-- Writes lines in braces; nothing goes between them when there are none. -/
def inBraces (isEmpty : Bool) (lines : Printer Unit) : Printer Unit := do
  write "\x7b"
  unless isEmpty do
    endLine
    indented lines
    endLine
  write "\x7d"

/-- Writes the members of a class in braces. -/
def classBraces (members : Printer Unit) : Printer Unit := do
  write " \x7b"
  endLine
  indented members
  endLine
  write "\x7d"

/-! ## Literals -/

def hexDigits (n : Nat) : String := String.ofList (Nat.toDigits 16 n)

/-- How many characters after a backslash make the escape of a surrogate that
has no partner. Such an escape stands for itself in the value of a string. -/
def surrogateEscapeLength? (rest : List Char) : Option Nat :=
  let digits := match rest with
    | 'u' :: ds => ds.take 4
    | _ => []
  let isSurrogate := match digits with
    | d :: e :: _ => (d == 'd' || d == 'D') && ("89abcdefABCDEF".toList.contains e)
    | _ => false
  let isHex := digits.length == 4 && digits.all fun c => c.isDigit || "abcdefABCDEF".toList.contains c
  if isSurrogate && isHex then some 5 else none

/-- A character of a string between these quotes. -/
def quotedChar (quote : Char) (c : Char) (rest : List Char) : String :=
  let n := c.toNat
  if c == quote then "\\" ++ c.toString
  else if c == '\\' then (if (surrogateEscapeLength? rest).isSome then "\\" else "\\\\")
  else if c == '\n' then "\\n"
  else if c == '\r' then "\\r"
  else if n == 0 then (if rest.head?.any Char.isDigit then "\\x00" else "\\0")
  else if n == 8 then "\\b"
  else if n == 11 then "\\v"
  else if n == 12 then "\\f"
  else if c == '\t' then "\t"
  else if n < 16 then "\\x0" ++ hexDigits n
  else if n < 32 then "\\x" ++ hexDigits n
  else if n == 0x2028 then "\\u2028"
  else if n == 0x2029 then "\\u2029"
  else if n == 0xfeff then "\\uFEFF"
  else c.toString

/-- A string in quotes: double ones, unless more of them stand in it than
single ones. -/
def quoted (s : String) : String :=
  let cs := s.toList
  let quote := if cs.count '"' > cs.count '\'' then '\'' else '"'
  quote.toString ++ go quote cs ++ quote.toString
where
  go (quote : Char) : List Char → String
    | [] => ""
    | c :: rest => quotedChar quote c rest ++ go quote rest

def Literal.text : Literal → String
  | .null => "null"
  | .bool b => if b then "true" else "false"
  | .num t => t
  | .bigint t => t ++ "n"
  | .str value raw => raw.getD (quoted value)
  | .regex source flags => "/" ++ source ++ "/" ++ flags

/-- Whether a dot after a number would be read as part of it. -/
def needsSecondDot : Expr → Bool
  | .lit (.num t) => t.all Char.isDigit && !(t.length ≥ 2 && t.startsWith "0")
  | _ => false

def VarKind.text : VarKind → String
  | .var => "var"
  | .letKind => "let"
  | .constKind => "const"

/-! ## Pieces -/

/-- Whether a sign before this operand would run together with its own. -/
def runsTogether (op : UnaryOp) : Expr → Bool
  | .unary inner _ => (op == .plus || op == .minus) && inner == op
  | .update .increment true _ => op == .plus
  | .update .decrement true _ => op == .minus
  | _ => false

def unaryText (op : UnaryOp) (arg : Expr) : String :=
  match op with
  | .typeof | .void | .delete => op.text ++ " "
  | _ => op.text ++ (if runsTogether op arg then " " else "")

def updateText : UpdateOp → String
  | .increment => "++"
  | .decrement => "--"

def isHoleExpr : Expr → Bool
  | .hole => true
  | _ => false

def isBlockStmt : Stmt → Bool
  | .block _ => true
  | _ => false

/-- The words before the key of a method. -/
def methodHead (kind : MethodKind) (f : Func) : String :=
  match kind, f with
  | .getter, _ => "get "
  | .setter, _ => "set "
  | .constructor, _ => ""
  | .method, .mk _ _ isAsync isGenerator =>
    (if isAsync then "async " else "") ++ (if isGenerator then "*" else "")

/-- `function`, with what stands before its name. -/
def functionHead (name : Option Ident) : Func → String
  | .mk _ _ isAsync isGenerator =>
    (if isAsync then "async " else "") ++ "function" ++ (if isGenerator then "* " else "") ++
      (match name with
        | some id => (if isGenerator then "" else " ") ++ id.name
        | none => "")

/-! ## Nodes -/

mutual

def Expr.print : Expr → Printer Unit
  | .this => write "this"
  | .ident id => write id.name
  | .lit value => write value.text
  | .array items _ => do
    write "["
    unless items.isEmpty do
      endLine
      indented do
        Expr.printLines items
        if items.getLast?.any isHoleExpr then write ","
      endLine
    write "]"
  | .object members _ => do
    write "\x7b"
    unless members.isEmpty do
      endLine
      indented (Property.printLines members)
      endLine
    write "\x7d"
  | .func name f => do
    write (functionHead name f)
    f.print " "
  | .arrow f isConcise => Func.printArrow isConcise f
  | .cls name parent members => do
    write "class"
    if let some id := name then write (" " ++ id.name)
    Expr.printParent parent
    classBraces (Property.printClassMembers members)
  | .unary op arg => do
    write (unaryText op arg)
    arg.print
  | .update op leading arg => do
    if leading then write (updateText op)
    arg.print
    unless leading do write (updateText op)
  | .binary op left right => do
    left.print
    write (" " ++ op.text ++ " ")
    right.print
  | .assign op target value => do
    target.print
    write (" " ++ op.text ++ " ")
    value.print
  | .cond test yes no => do
    test.print
    write " ? "
    yes.print
    write " : "
    no.print
  | .member object key => do
    object.print
    if needsSecondDot object then
      match key with
      | .computed _ => pure ()
      | _ => write "."
    key.printAfter ""
  | .superMember key => do
    write "super"
    key.printAfter ""
  | .call callee args isPure => do
    if isPure then write "/*#__PURE__*/ "
    callee.print
    write "("
    Expr.printInline true args
    write ")"
  | .superCall args => do
    write "super("
    Expr.printInline true args
    write ")"
  | .importCall phase args => do
    write "import"
    if let some word := phase.word? then write ("." ++ word)
    write "("
    Expr.printInline true args
    write ")"
  | .chain isOptional base => base.printLink (if isOptional then "?." else "")
  | .new callee args hasParens => do
    write "new "
    callee.print
    if hasParens then
      write "("
      Expr.printInline true args
      write ")"
  | .sequence items => Expr.printInline true items
  | .template quasis exprs => do
    write "`"
    Expr.printTemplate quasis exprs
    write "`"
  | .tagged tag quasis exprs => do
    tag.print
    write "`"
    Expr.printTemplate quasis exprs
    write "`"
  | .yield isDelegate arg => do
    write (if isDelegate then "yield*" else "yield")
    match arg with
    | some e =>
      write " "
      e.print
    | none => pure ()
  | .await _ arg => do
    write "await "
    arg.print
  | .newTarget => write "new.target"
  | .importMeta _ => write "import.meta"
  | .paren inner => do
    write "("
    inner.print
    write ")"
  | .privateName name => write ("#" ++ name)
  | .hole => pure ()
  | .spread e => do
    write "..."
    e.print
  | .arrayPattern items => do
    write "["
    Expr.printInline true items
    if items.getLast?.any isHoleExpr then write ","
    write "]"
  | .objectPattern members => do
    if members.isEmpty then write "\x7b\x7d"
    else
      write "\x7b "
      Property.printInline true members
      write " \x7d"
  | .withDefault target value => do
    target.print
    write " = "
    value.print
  | .invalid => write "<invalid>"

/-- Prints a link of an optional chain, with its mark. -/
def Expr.printLink (mark : String) : Expr → Printer Unit
  | .member object key => do
    object.print
    key.printAfter mark
  | .call callee args _ => do
    callee.print
    write (mark ++ "(")
    Expr.printInline true args
    write ")"
  | _ => pure ()

/-- Prints expressions in a line, with commas between them. -/
def Expr.printInline (isFirst : Bool) : List Expr → Printer Unit
  | [] => pure ()
  | e :: es => do
    unless isFirst do write ", "
    e.print
    Expr.printInline false es

/-- Prints expressions on lines of their own. -/
def Expr.printLines : List Expr → Printer Unit
  | [] => pure ()
  | e :: es => do
    e.print
    unless es.isEmpty do
      write ","
      endLine
    Expr.printLines es

def Expr.printTemplate (quasis : List Quasi) : List Expr → Printer Unit
  | [] => write ((quasis.head?.map (·.raw)).getD "")
  | e :: es => do
    write ((quasis.head?.map (·.raw)).getD "" ++ "$\x7b")
    e.print
    write "\x7d"
    Expr.printTemplate quasis.tail es

def Expr.printParent : Option Expr → Printer Unit
  | none => pure ()
  | some e => do
    write " extends "
    e.print

def Expr.printOption : Option Expr → Printer Unit
  | none => pure ()
  | some e => e.print

/-- Prints a space and an expression, if there is one. -/
def Expr.printSpaced : Option Expr → Printer Unit
  | none => pure ()
  | some e => do
    write " "
    e.print

def Key.print : Key → Printer Unit
  | .name n => write n
  | .str value raw => write (raw.getD (quoted value))
  | .num t => write t
  | .bigint t => write (t ++ "n")
  | .computed e => do
    write "["
    e.print
    write "]"
  | .priv n => write ("#" ++ n)

/-- Prints a key after the object it is read from. -/
def Key.printAfter (mark : String) : Key → Printer Unit
  | .computed e => do
    write (mark ++ "[")
    e.print
    write "]"
  | .priv n => write ((if mark.isEmpty then "." else mark) ++ "#" ++ n)
  | .name n => write ((if mark.isEmpty then "." else mark) ++ n)
  | .str value raw => write ("[" ++ raw.getD (quoted value) ++ "]")
  | .num t => write ("[" ++ t ++ "]")
  | .bigint t => write ("[" ++ t ++ "n]")

/-- Prints a member of a literal or a pattern. -/
def Property.print : Property → Printer Unit
  | .shorthand id value => do
    write id.name
    match value with
    | some e =>
      write " = "
      e.print
    | none => pure ()
  | .keyValue key value => do
    key.print
    write ": "
    value.print
  | .method _ kind key f => do
    write (methodHead kind f)
    key.print
    write " "
    f.print (if kind == .setter then "" else " ")
  | .spread e => do
    write "..."
    e.print
  | .field _ key value => do
    key.print
    Expr.printOption value
  | .staticBlock _ => pure ()
  | .empty => pure ()

def Property.printInline (isFirst : Bool) : List Property → Printer Unit
  | [] => pure ()
  | p :: ps => do
    unless isFirst do write ", "
    p.print
    Property.printInline false ps

def Property.printLines : List Property → Printer Unit
  | [] => pure ()
  | p :: ps => do
    p.print
    unless ps.isEmpty do
      write ","
      endLine
    Property.printLines ps

def Property.printClassMembers : List Property → Printer Unit
  | [] => pure ()
  | p :: ps => do
    p.printClassMember
    endLine
    Property.printClassMembers ps

def Property.printClassMember : Property → Printer Unit
  | .method isStatic kind key f => do
    if isStatic then write "static "
    write (methodHead kind f)
    key.print
    f.print (if kind == .constructor then "" else " ")
  | .field isStatic key value => do
    if isStatic then write "static "
    key.print
    match value with
    | some e =>
      write " = "
      e.print
    | none => pure ()
    write ";"
  | .staticBlock body => do
    write "static"
    inBraces body.isEmpty (Stmt.printLines body)
  | .empty => write ";"
  | _ => pure ()

/-- Prints parameters and body, with what parts them. -/
def Func.print (gap : String) : Func → Printer Unit
  | .mk params body _ _ => do
    write "("
    Expr.printInline true params
    write (")" ++ gap)
    inBraces body.isEmpty (Stmt.printLines body)

def Func.printArrow (isConcise : Bool) : Func → Printer Unit
  | .mk params body isAsync _ => do
    write (if isAsync then "async (" else "(")
    Expr.printInline true params
    write ")=>"
    if isConcise then indented (Stmt.printResult body) else inBraces body.isEmpty (Stmt.printLines body)

/-- Prints what a function that only returns returns. -/
def Stmt.printResult : List Stmt → Printer Unit
  | .ret (some e) :: _ => e.print
  | _ => pure ()

/-- Prints statements on lines of their own. -/
def Stmt.printLines : List Stmt → Printer Unit
  | [] => pure ()
  | s :: ss => do
    s.print
    endLine
    Stmt.printLines ss

/-- Prints a statement and ends its line; a block does not end it. -/
def Stmt.print : Stmt → Printer Unit
  | .block body => inBraces body.isEmpty (Stmt.printLines body)
  | .expr e => do
    e.print
    write ";"
    endLine
  | .empty => do
    write ";"
    endLine
  | .debugger => do
    write "debugger;"
    endLine
  | .withIn object body => do
    write "with("
    object.print
    write ")"
    body.print
    endLine
  | .ret arg => do
    write "return"
    Expr.printSpaced arg
    write ";"
    endLine
  | .labeled label body => do
    write (label ++ ": ")
    body.print
    endLine
  | .breakTo label => do
    write ("break" ++ (label.map (" " ++ ·)).getD "" ++ ";")
    endLine
  | .continueTo label => do
    write ("continue" ++ (label.map (" " ++ ·)).getD "" ++ ";")
    endLine
  | .cond test yes no => do
    write "if ("
    test.print
    write ") "
    yes.print
    match no with
    | some s =>
      if isBlockStmt yes then write " "
      write "else "
      s.print
    | none => pure ()
    endLine
  | .switch subject cases => do
    write "switch("
    subject.print
    write ")\x7b"
    endLine
    indented (Stmt.printLines cases)
    write "\x7d"
    endLine
  | .clause test body => do
    match test with
    | some e =>
      write "case "
      e.print
      write ":"
    | none => write "default:"
    endLine
    indented (Stmt.printLines body)
  | .throw arg => do
    write "throw "
    arg.print
    write ";"
    endLine
  | .tryCatch body handler finalizer => do
    write "try "
    inBraces body.isEmpty (Stmt.printLines body)
    match handler with
    | some s =>
      write " "
      s.print
    | none => pure ()
    match finalizer with
    | some s =>
      write " finally"
      s.print
    | none => pure ()
    endLine
  | .handler param body => do
    write "catch "
    match param with
    | some p =>
      write "("
      p.print
      write ")"
    | none => pure ()
    write " "
    inBraces body.isEmpty (Stmt.printLines body)
  | .whileLoop test body => do
    write "while("
    test.print
    write ")"
    body.print
    endLine
  | .doWhile body test => do
    write "do "
    body.print
    write "while ("
    test.print
    write ")"
    endLine
  | .forLoop init test update body => do
    write "for("
    match init with
    | some s => s.printHead
    | none => pure ()
    write ";"
    Expr.printSpaced test
    write ";"
    Expr.printSpaced update
    write ")"
    body.print
    endLine
  | .forIn head subject body => do
    write "for("
    head.printHead
    write " in "
    subject.print
    write ")"
    body.print
    endLine
  | .forOf isAwait _ head subject body => do
    write (if isAwait then "for await (" else "for (")
    head.printHead
    write " of "
    subject.print
    write ")"
    body.print
    endLine
  | .vars kind decls => do
    write (kind.text ++ " ")
    Declarator.printInline true decls
    write ";"
    endLine
  | .func name f => do
    write (functionHead (some name) f)
    f.print " "
    endLine
  | .cls name parent members => do
    write ("class " ++ name.name)
    Expr.printParent parent
    classBraces (Property.printClassMembers members)
    endLine

/-- Prints the head of a loop. -/
def Stmt.printHead : Stmt → Printer Unit
  | .expr e => e.print
  | .vars kind decls => do
    write (kind.text ++ " ")
    Declarator.printInline true decls
  | _ => pure ()

def Declarator.print : Declarator → Printer Unit
  | .mk target init => do
    target.print
    match init with
    | some e =>
      write " = "
      e.print
    | none => pure ()

def Declarator.printInline (isFirst : Bool) : List Declarator → Printer Unit
  | [] => pure ()
  | d :: ds => do
    unless isFirst do write ", "
    d.print
    Declarator.printInline false ds

end

/-- The text of a program. -/
def printProgram (body : List Stmt) : String :=
  ((body.forM Stmt.print : Printer Unit) {}).2.text

end Bundler.Script
