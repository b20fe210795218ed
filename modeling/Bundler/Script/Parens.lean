/-
The parentheses a program is printed with: none but those it needs to be read
back as the same tree, and a few that make it plain where an expression
starts.
-/
import Bundler.Script.Rewrite
import Bundler.Script.Token

namespace Bundler.Script

/-- Where an expression stands. -/
inductive Place where
  /-- At the start of a statement or of an arrow function's body, where a
  brace or `function` means something else. -/
  | start
  | free
  /-- Where nothing but an expression can stand: an argument, an element, an
  initial value. -/
  | forced
  | callee
  | newCallee
deriving BEq

structure ParenContext where
  place : Place := .free
  /-- Whether `in` would be taken for that of a `for`. -/
  inForHead : Bool := false

abbrev Parenthesizing := ReaderT ParenContext Id

namespace Parenthesizing

def isSequence : Expr → Bool
  | .sequence _ => true
  | _ => false

def wrapIf (b : Bool) (e : Expr) : Expr :=
  if b then .paren e else e

/-- An expression among others that commas separate. -/
def wrapSequence (e : Expr) : Expr := wrapIf (isSequence e) e

def atPlace {α : Type} (place : Place) (p : Parenthesizing α) : Parenthesizing α :=
  withReader (fun c => { c with place }) p

/-- Whether an expression that is accessed, called or instantiated needs
parentheses in every place. -/
def isLooseOperand : Expr → Bool
  | .cond .. | .assign .. | .sequence _ | .binary .. | .unary .. | .update .. | .yield .. | .await ..
  | .arrow .. | .new _ _ false | .chain .. => true
  | _ => false

/-- Whether an expression starts with a brace or a keyword that means
something else at the start of a statement. -/
def isBraced : Expr → Bool
  | .object .. | .func .. | .cls .. => true
  | _ => false

def isCall : Expr → Bool
  | .call .. | .superCall _ | .importCall .. => true
  | _ => false

/-- The object of a member access. -/
def accessed (place : Place) (e : Expr) : Expr :=
  wrapIf (isLooseOperand e || (isBraced e && place != .forced) || (isCall e && place == .newCallee)) e

/-- What is called. -/
def called (place : Place) (e : Expr) : Expr :=
  match e with
  | .func .. => wrapIf (place != .forced && place != .free) e
  | .object .. => .paren e
  | .cls .. => wrapIf (place == .start) e
  | e => wrapIf (isLooseOperand e) e

/-- Whether an operand of a unary operator needs parentheses. -/
def isLooseArgument : Expr → Bool
  | .assign .. | .binary .. | .sequence _ | .cond .. | .arrow .. | .yield .. => true
  | _ => false

def isNumber : Expr → Bool
  | .lit (.num _) => true
  | _ => false

def isNumberProduct : Expr → Bool
  | .binary .div a b | .binary .mul a b => isNumber a && isNumber b
  | _ => false

/-- The right operand of a binary operator. -/
def rightOperand (op : BinaryOp) (e : Expr) : Expr :=
  match e with
  | .assign .. | .sequence _ | .yield .. | .cond .. | .arrow .. => .paren e
  | .binary inner .. =>
    let isShort := op == .and || op == .or || op == .nullish
    wrapIf (if inner == op then !isShort && op != .exp
      else inner.precedence ≤ op.precedence || (op == .nullish && inner == .and)) e
  | e => e

/-- The left operand of a binary operator. -/
def leftOperand (op : BinaryOp) (e : Expr) : Expr :=
  match e with
  | .assign .. | .sequence _ | .yield .. | .cond .. | .arrow .. => .paren e
  | .object .. => wrapIf (op == .instanceof) e
  | .unary .. | .await .. => wrapIf (op == .exp) e
  | .binary inner .. =>
    wrapIf (inner.precedence < op.precedence || (inner == .exp && op == .exp) ||
      (op == .nullish && inner != .nullish) || (inner == .nullish && op != .nullish)) e
  | e => e

/-- The test of a conditional. -/
def test (place : Place) (e : Expr) : Expr :=
  match e with
  | .sequence _ | .assign .. | .cond .. | .arrow .. | .yield .. => .paren e
  | e => wrapIf (isBraced e && place == .start) e

/-- What an assignment assigns. -/
def assigned : Expr → Expr
  | e@(.sequence _) => .paren e
  | e => e

/-- A statement that is an expression. -/
def statement : Expr → Expr
  | e@(.object ..) | e@(.func ..) | e@(.cls ..) | e@(.assign _ (.objectPattern _) _) => .paren e
  | .sequence items =>
    .sequence (items.zipIdx.map fun (e, i) =>
      if i + 1 < items.length then
        match e with
        | .object .. | .func .. | .cls .. | .assign _ (.objectPattern _) _ => .paren e
        | _ => e
      else e)
  | e => e

/-- What a class extends. -/
def parentClass (e : Expr) : Expr :=
  wrapIf (isLooseOperand e) e

def binary (r : Rewrite Parenthesizing) (op : BinaryOp) (left right : Expr) : Parenthesizing Expr := do
  let c ← read
  let left ← r.expr left
  let right ← atPlace .free (r.expr right)
  let e := Expr.binary op (leftOperand op left) (rightOperand op right)
  return wrapIf (c.inForHead && op == .isIn) e

/-- The body of an arrow function that is one expression. -/
def arrowResult (e : Expr) : Expr :=
  match e with
  | .sequence _ | .assign .. | .object .. => .paren e
  | e => e

/-- The links of an optional chain. Only a link that starts a chain needs its
object in parentheses. -/
def chainBase (r : Rewrite Parenthesizing) : Expr → Parenthesizing Expr
  | .member object key => do
    let c ← read
    let object ← r.expr object
    let object := if isChain object then object else accessed c.place object
    return .member object (← atPlace .free (r.key key))
  | .call callee args isPure => do
    let c ← read
    let callee ← atPlace .callee (r.expr callee)
    let callee := if isChain callee then callee else called c.place callee
    return .call callee ((← atPlace .forced (r.exprs args)).map wrapSequence) isPure
  | e => r.exprChildren e
where
  isChain : Expr → Bool
    | .chain .. => true
    | _ => false

def step (r : Rewrite Parenthesizing) : Rewrite Parenthesizing
  | .expr, .paren e => r.expr e
  | .pattern, .paren e => r.pattern e
  | .expr, .array items offsets =>
    return .array ((← atPlace .forced (r.exprs items)).map wrapSequence) offsets
  | .expr, .spread e => return .spread (wrapSequence (← r.expr e))
  | .expr, .arrow (.mk params [.ret (some e)] isAsync isGenerator) true =>
    withReader (fun c => { c with inForHead := false }) do
      let params ← r.patterns params
      let e ← atPlace .start (r.expr e)
      return .arrow (.mk params [.ret (some (arrowResult e))] isAsync isGenerator) true
  | .expr, .assign op target value => do
    let target ← atPlace .free (r.pattern target)
    let value ← atPlace .free (r.expr value)
    return .assign op target (assigned value)
  | .expr, .await offset e => do
    let e ← atPlace .forced (r.expr e)
    return .await offset (wrapIf (isLooseArgument e) e)
  | .expr, .binary op left right => binary r op left right
  | .expr, .cond condition yes no => do
    let c ← read
    let condition ← r.expr condition
    let yes ← atPlace .free (r.expr yes)
    let no ← atPlace .free (r.expr no)
    return .cond (test c.place condition) (wrapSequence yes) (wrapSequence no)
  | .expr, .member object key => do
    let c ← read
    let object ← r.expr object
    return .member (accessed c.place object) (← atPlace .free (r.key key))
  | .expr, .call callee args isPure => do
    let c ← read
    let callee ← atPlace .callee (r.expr callee)
    let args ← atPlace .forced (r.exprs args)
    return .call (called c.place callee) (args.map wrapSequence) isPure
  | .expr, .superCall args =>
    return .superCall ((← atPlace .forced (r.exprs args)).map wrapSequence)
  | .expr, .importCall phase args =>
    return .importCall phase ((← atPlace .forced (r.exprs args)).map wrapSequence)
  | .expr, .new callee args hasParens => do
    let args ← atPlace .forced (r.exprs args)
    let callee ← atPlace .newCallee (r.expr callee)
    let isLoose := isLooseOperand callee || isCall callee
    return .new (wrapIf isLoose callee) (args.map wrapSequence) hasParens
  | .expr, .chain isOptional base => return .chain isOptional (← chainBase r base)
  | .expr, .sequence (first :: rest) => do
    let first ← r.expr first
    return .sequence (first :: (← atPlace .free (r.exprs rest)))
  | .expr, .unary op e => do
    let e ← atPlace .free (r.expr e)
    return .unary op (wrapIf (isLooseArgument e && !(op == .minus && isNumberProduct e)) e)
  | .expr, .update op leading e => return .update op leading (← atPlace .free (r.expr e))
  | .expr, .tagged tag quasis exprs => do
    let c ← read
    let tag ← atPlace .callee (r.expr tag)
    return .tagged (called c.place tag) quasis (← atPlace .free (r.exprs exprs))
  | .expr, .yield isDelegate (some e) => do
    let e ← atPlace .forced (r.expr e)
    return .yield isDelegate (some (wrapSequence e))
  | .expr, .cls name parent members =>
    return .cls name ((← atPlace .free (r.expr? parent)).map parentClass) (← atPlace .free (r.properties members))
  | .property, .keyValue key value => return .keyValue (← r.key key) (wrapSequence (← r.expr value))
  | .property, .spread e => return .spread (wrapSequence (← r.expr e))
  | .property, .shorthand id value => return .shorthand id ((← r.expr? value).map wrapSequence)
  | .pattern, .withDefault target value =>
    return .withDefault (← r.pattern target) (wrapSequence (← r.expr value))
  | .func, f => withReader (fun c => { c with place := .free, inForHead := false }) (r.funcChildren f)
  | .declarator, .mk target init => do
    let target ← r.pattern target
    let init ← atPlace .forced (r.expr? init)
    return .mk target (init.map wrapSequence)
  | .stmt, .expr e => return .expr (statement (← atPlace .start (r.expr e)))
  | .stmt, .forLoop init condition update body =>
    atPlace .free do
      let init ← withReader (fun c => { c with inForHead := true }) (init.mapM fun
        | .expr e => return .expr (← r.expr e)
        | s => r.stmt s)
      return .forLoop init (← r.expr? condition) (← r.expr? update) (← r.stmt body)
  | .stmt, .forOf isAwait offset head subject body =>
    atPlace .free do
      return .forOf isAwait offset (← r.forHead head) (wrapSequence (← r.expr subject)) (← r.stmt body)
  | .stmt, .cls name parent members =>
    return .cls name ((← atPlace .free (r.expr? parent)).map parentClass) (← atPlace .free (r.properties members))
  | .stmt, s => atPlace .free (r.stmtChildren s)
  | k, x => r.mapChildren k x

end Parenthesizing

/-- Removes the parentheses of a program and puts in those it needs. -/
def parenthesize (body : List Stmt) : List Stmt :=
  (Rewrite.run Parenthesizing.step (stmtsDepthBound body)).stmts body {}

end Bundler.Script
