/-
What the passes share that lower newer syntax: variables they introduce, the
names those prefer, and where their declarations go.
-/
import Bundler.Script.ModuleForm

namespace Bundler.Script

/-! ## Building code -/

def Expr.assignTo (target value : Expr) : Expr := .assign .assign target value

/-- `target = value;` -/
def Stmt.assign (target value : Expr) : Stmt := .expr (.assignTo target value)

/-- The member of an object that a key names. -/
def Expr.memberOf (object : Expr) : Key → Expr
  | .str value raw => .member object (.computed (.lit (.str value raw)))
  | .num text => .member object (.computed (.lit (.num text)))
  | .bigint text => .member object (.computed (.lit (.bigint text)))
  | key => .member object key

/-- The element of an array at an index. -/
def Expr.element (array : Expr) (index : Nat) : Expr :=
  .member array (.computed (.num index))

/-- A key as the expression that gives its text. -/
def Key.toExpr : Key → Expr
  | .name n => .str n
  | .str value raw => .lit (.str value raw)
  | .num text => .lit (.num text)
  | .bigint text => .lit (.bigint text)
  | .computed e => e
  | .priv n => .privateName n

/-- The arguments of the innermost function. -/
def Expr.ownArguments : Expr := .ident ⟨"arguments", argumentsScope⟩

/-- The statements of a block, or the one statement. -/
def Stmt.asBlock : Stmt → List Stmt
  | .block body => body
  | s => [s]

/-! ## Where declarations go -/

/-- Whether a statement is a string alone, as directives are. -/
def isStringStmt : Stmt → Bool
  | .expr (.lit (.str ..)) => true
  | _ => false

/-- Puts statements in front of a body, after the strings that open it. -/
def prependStmts (new : List Stmt) (body : List Stmt) : List Stmt :=
  if new.isEmpty then body
  else body.takeWhile isStringStmt ++ new ++ body.dropWhile isStringStmt

/-- Puts statements in front of the items of a module, after the strings that
open it. -/
def prependItems (new : List Stmt) (items : List ModuleItem) : List ModuleItem :=
  let isString : ModuleItem → Bool
    | .stmt s => isStringStmt s
    | _ => false
  if new.isEmpty then items
  else items.takeWhile isString ++ new.map .stmt ++ items.dropWhile isString

/-- The statement that declares variables, if there are any. -/
def declareVars (decls : List Declarator) : List Stmt :=
  if decls.isEmpty then [] else [.vars .var decls]

/-- Rewriting that asks for variables to be declared before it. -/
abbrev Declaring := StateT (List Declarator) Fresh

namespace Declaring

def declare (d : Declarator) : Declaring Unit :=
  modify fun ds => ds ++ [d]

/-- A new variable, declared without a value. -/
def newVar (name : String) : Declaring Ident := do
  let id ← freshIdent name
  declare (.mk (.ident id) none)
  return id

/-- Runs a part and gives what it asks to declare. -/
def collect {α : Type} (part : Declaring α) : Declaring (α × List Declarator) := do
  let outer ← get
  set ([] : List Declarator)
  let a ← part
  let decls ← get
  set outer
  return (a, decls)

/-- Rewrites statements one by one, and declares the variables of each before
it. -/
def eachStmt (rewrite : Stmt → Declaring (List Stmt)) (body : List Stmt) : Declaring (List Stmt) :=
  body.flatMapM fun s => do
    let (new, decls) ← collect (rewrite s)
    return declareVars decls ++ new

/-- The same for the items of a module. -/
def eachItem (rewrite : ModuleItem → Declaring (List ModuleItem)) (items : List ModuleItem) :
    Declaring (List ModuleItem) :=
  items.flatMapM fun i => do
    let (new, decls) ← collect (rewrite i)
    return (declareVars decls).map .stmt ++ new

end Declaring

/-! ## Preferred names -/

/-- The words that an expression is made of, joined. -/
def Expr.phrase? : Expr → Option String
  | .ident id => some id.name
  | .this => some "this"
  | .member base key => some ((base.phrase?).getD "" ++ "_" ++ keyPhrase key)
  | .call callee _ _ => callee.phrase?
  | _ => none
where
  keyPhrase : Key → String
    | .name n => n
    | .computed (.ident id) => id.name
    | _ => ""

/-- A variable that holds the value of an expression, named after it if that
is possible. -/
def aliasOf (e : Expr) (otherwise : String) : Fresh Ident := do
  let name := (e.phrase?).getD otherwise
  freshIdent (if name.startsWith "_" then name else "_" ++ name)

/-! ## Replacing a variable -/

/-- Puts one variable in place of another. -/
def replaceIdent (old new : Ident) (r : Rewrite Id) : Rewrite Id
  | .expr, .ident id | .pattern, .ident id => .ident (if id == old then new else id)
  | .property, .shorthand id value =>
    if id == old then do return .keyValue (.name id.name) (.ident new)
    else do return .shorthand id (← r.expr? value)
  | k, x => r.mapChildren k x

end Bundler.Script
