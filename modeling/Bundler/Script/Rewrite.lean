/-
Rewriting of syntax trees, one layer at a time. A pass says what it does with
the nodes it cares about and leaves all others to `mapChildren`, which
rewrites the parts of a node and puts it together again.

A pass that rewrites its own results cannot recurse on the tree it was given,
so `Rewrite.run` bounds how deep it goes; `depthBound` is never
reached, since no tree nests deeper than it has nodes.
-/
import Bundler.Script.Tree

namespace Bundler.Script

/-! ## Kinds of nodes -/

inductive NodeKind where
  | expr
  /-- An expression where something is bound or assigned. -/
  | pattern
  | key
  | property
  | func
  | stmt
  | stmts
  | declarator
  | items

@[reducible] def NodeKind.Node : NodeKind → Type
  | .expr | .pattern => Expr
  | .key => Key
  | .property => Property
  | .func => Func
  | .stmt => Stmt
  | .stmts => List Stmt
  | .declarator => Declarator
  | .items => List ModuleItem

/-- A way to rewrite nodes of each kind. -/
def Rewrite (m : Type → Type) : Type := (k : NodeKind) → k.Node → m k.Node

namespace Rewrite

variable {m : Type → Type} [Monad m]

def expr (r : Rewrite m) (e : Expr) : m Expr := r .expr e
def pattern (r : Rewrite m) (e : Expr) : m Expr := r .pattern e
def key (r : Rewrite m) (k : Key) : m Key := r .key k
def property (r : Rewrite m) (p : Property) : m Property := r .property p
def func (r : Rewrite m) (f : Func) : m Func := r .func f
def stmt (r : Rewrite m) (s : Stmt) : m Stmt := r .stmt s
def stmts (r : Rewrite m) (ss : List Stmt) : m (List Stmt) := r .stmts ss
def declarator (r : Rewrite m) (d : Declarator) : m Declarator := r .declarator d
def items (r : Rewrite m) (is : List ModuleItem) : m (List ModuleItem) := r .items is

def exprs (r : Rewrite m) (es : List Expr) : m (List Expr) := es.mapM r.expr
def patterns (r : Rewrite m) (es : List Expr) : m (List Expr) := es.mapM r.pattern
def properties (r : Rewrite m) (ps : List Property) : m (List Property) := ps.mapM r.property
def expr? (r : Rewrite m) (e : Option Expr) : m (Option Expr) := e.mapM r.expr

/-- Rewrites what stands between `for (` and `of` or `in`. -/
def forHead (r : Rewrite m) : Stmt → m Stmt
  | .expr target => .expr <$> r.pattern target
  | s => r.stmt s

/-! ## The parts of a node -/

def exprChildren (r : Rewrite m) : Expr → m Expr
  | .array items offsets => return .array (← r.exprs items) offsets
  | .object members offsets => return .object (← r.properties members) offsets
  | .func name f => return .func name (← r.func f)
  | .arrow f isConcise => return .arrow (← r.func f) isConcise
  | .cls name parent members => return .cls name (← r.expr? parent) (← r.properties members)
  | .unary op arg => return .unary op (← r.expr arg)
  | .update op leading arg => return .update op leading (← r.expr arg)
  | .binary op left right => return .binary op (← r.expr left) (← r.expr right)
  | .assign op target value => return .assign op (← r.pattern target) (← r.expr value)
  | .cond test yes no => return .cond (← r.expr test) (← r.expr yes) (← r.expr no)
  | .member object key => return .member (← r.expr object) (← r.key key)
  | .superMember key => return .superMember (← r.key key)
  | .call callee args isPure => return .call (← r.expr callee) (← r.exprs args) isPure
  | .superCall args => return .superCall (← r.exprs args)
  | .importCall phase args => return .importCall phase (← r.exprs args)
  | .chain isOptional base => return .chain isOptional (← r.exprChildren base)
  | .new callee args hasParens => return .new (← r.expr callee) (← r.exprs args) hasParens
  | .sequence items => return .sequence (← r.exprs items)
  | .template quasis exprs => return .template quasis (← r.exprs exprs)
  | .tagged tag quasis exprs => return .tagged (← r.expr tag) quasis (← r.exprs exprs)
  | .yield isDelegate arg => return .yield isDelegate (← r.expr? arg)
  | .await offset arg => return .await offset (← r.expr arg)
  | .paren inner => return .paren (← r.expr inner)
  | .spread e => return .spread (← r.expr e)
  | .arrayPattern items => return .arrayPattern (← r.patterns items)
  | .objectPattern members => return .objectPattern (← r.properties members)
  | .withDefault target value => return .withDefault (← r.pattern target) (← r.expr value)
  | e@(.this) | e@(.ident _) | e@(.lit _) | e@(.newTarget) | e@(.importMeta _) | e@(.privateName _)
  | e@(.hole) | e@(.invalid) => return e

/-- Rewrites the parts of a member of an object pattern. -/
def patternMember (r : Rewrite m) : Property → m Property
  | .shorthand id value => return .shorthand id (← r.expr? value)
  | .keyValue key value => return .keyValue (← r.key key) (← r.pattern value)
  | .spread e => return .spread (← r.pattern e)
  | p => return p

/-- Rewrites the parts of a pattern. A target that is no pattern is a name,
which stays, or a member. -/
def patternChildren (r : Rewrite m) : Expr → m Expr
  | .arrayPattern items => return .arrayPattern (← r.patterns items)
  | .objectPattern members => return .objectPattern (← members.mapM r.patternMember)
  | .withDefault target value => return .withDefault (← r.pattern target) (← r.expr value)
  | .spread e => return .spread (← r.pattern e)
  | .paren e => return .paren (← r.pattern e)
  | .ident id => return .ident id
  | .hole => return .hole
  | e => r.exprChildren e

def keyChildren (r : Rewrite m) : Key → m Key
  | .computed e => return .computed (← r.expr e)
  | k => return k

def propertyChildren (r : Rewrite m) : Property → m Property
  | .shorthand id value => return .shorthand id (← r.expr? value)
  | .keyValue key value => return .keyValue (← r.key key) (← r.expr value)
  | .method isStatic kind key f => return .method isStatic kind (← r.key key) (← r.func f)
  | .spread e => return .spread (← r.expr e)
  | .field isStatic key value => return .field isStatic (← r.key key) (← r.expr? value)
  | .staticBlock body => return .staticBlock (← r.stmts body)
  | .empty => return .empty

def funcChildren (r : Rewrite m) : Func → m Func
  | .mk params body isAsync isGenerator =>
    return .mk (← r.patterns params) (← r.stmts body) isAsync isGenerator

def declaratorChildren (r : Rewrite m) : Declarator → m Declarator
  | .mk target init => return .mk (← r.pattern target) (← r.expr? init)

def stmtChildren (r : Rewrite m) : Stmt → m Stmt
  | .expr e => return .expr (← r.expr e)
  | .block body => return .block (← r.stmts body)
  | .withIn object body => return .withIn (← r.expr object) (← r.stmt body)
  | .ret arg => return .ret (← r.expr? arg)
  | .labeled label body => return .labeled label (← r.stmt body)
  | .cond test yes no => return .cond (← r.expr test) (← r.stmt yes) (← no.mapM r.stmt)
  | .switch subject cases => return .switch (← r.expr subject) (← cases.mapM r.stmt)
  | .clause test body => return .clause (← r.expr? test) (← r.stmts body)
  | .throw arg => return .throw (← r.expr arg)
  | .tryCatch body handler finalizer =>
    return .tryCatch (← r.stmts body) (← handler.mapM r.stmt) (← finalizer.mapM r.stmt)
  | .handler param body => return .handler (← param.mapM r.pattern) (← r.stmts body)
  | .whileLoop test body => return .whileLoop (← r.expr test) (← r.stmt body)
  | .doWhile body test => return .doWhile (← r.stmt body) (← r.expr test)
  | .forLoop init test update body =>
    return .forLoop (← init.mapM r.stmt) (← r.expr? test) (← r.expr? update) (← r.stmt body)
  | .forIn head subject body =>
    return .forIn (← r.forHead head) (← r.expr subject) (← r.stmt body)
  | .forOf isAwait offset head subject body =>
    return .forOf isAwait offset (← r.forHead head) (← r.expr subject) (← r.stmt body)
  | .vars kind decls => return .vars kind (← decls.mapM r.declarator)
  | .func name f => return .func name (← r.func f)
  | .cls name parent members => return .cls name (← r.expr? parent) (← r.properties members)
  | s@(.empty) | s@(.debugger) | s@(.breakTo _) | s@(.continueTo _) => return s

def itemChildren (r : Rewrite m) : ModuleItem → m ModuleItem
  | .stmt s => return .stmt (← r.stmt s)
  | .exportDecl d => return .exportDecl (← r.stmt d)
  | .exportDefault (.expr e) => return .exportDefault (.expr (← r.expr e))
  | .exportDefault (.func name f) => return .exportDefault (.func name (← r.func f))
  | .exportDefault (.cls name parent members) =>
    return .exportDefault (.cls name (← r.expr? parent) (← r.properties members))
  | i => return i

/-- Rewrites the parts of a node. -/
def mapChildren (r : Rewrite m) : Rewrite m
  | .expr, e => r.exprChildren e
  | .pattern, e => r.patternChildren e
  | .key, k => r.keyChildren k
  | .property, p => r.propertyChildren p
  | .func, f => r.funcChildren f
  | .stmt, s => r.stmtChildren s
  | .stmts, ss => ss.mapM r.stmt
  | .declarator, d => r.declaratorChildren d
  | .items, is => is.mapM r.itemChildren

/-- Rewrites with a step that is given itself for the nodes one level down,
at most `depth` levels deep. -/
def run (step : Rewrite m → Rewrite m) : Nat → Rewrite m
  | 0 => fun _ x => pure x
  | depth + 1 => fun k x => step (run step depth) k x

end Rewrite

/-! ## The size of a tree -/

mutual

def Expr.size : Expr → Nat
  | .array items _ | .superCall items | .importCall _ items | .sequence items | .arrayPattern items =>
    1 + Expr.sizes items
  | .object members _ | .objectPattern members => 1 + Property.sizes members
  | .func _ f | .arrow f _ => 1 + f.size
  | .cls _ parent members => 1 + Expr.size? parent + Property.sizes members
  | .unary _ e | .update _ _ e | .chain _ e | .await _ e | .paren e | .spread e => 1 + e.size
  | .binary _ a b | .assign _ a b | .withDefault a b => 1 + a.size + b.size
  | .cond a b c => 1 + a.size + b.size + c.size
  | .member e key => 1 + e.size + key.size
  | .superMember key => 1 + key.size
  | .call e args _ | .new e args _ | .tagged e _ args => 1 + e.size + Expr.sizes args
  | .template _ es => 1 + Expr.sizes es
  | .yield _ arg => 1 + Expr.size? arg
  | .this | .ident _ | .lit _ | .newTarget | .importMeta _ | .privateName _ | .hole | .invalid => 1

def Expr.sizes : List Expr → Nat
  | [] => 0
  | e :: es => e.size + Expr.sizes es

def Expr.size? : Option Expr → Nat
  | none => 0
  | some e => e.size

def Key.size : Key → Nat
  | .computed e => 1 + e.size
  | _ => 1

def Property.size : Property → Nat
  | .shorthand _ value => 1 + Expr.size? value
  | .keyValue key e => 1 + key.size + e.size
  | .method _ _ key f => 1 + key.size + f.size
  | .spread e => 1 + e.size
  | .field _ key value => 1 + key.size + Expr.size? value
  | .staticBlock body => 1 + Stmt.sizes body
  | .empty => 1

def Property.sizes : List Property → Nat
  | [] => 0
  | p :: ps => p.size + Property.sizes ps

def Func.size : Func → Nat
  | .mk params body _ _ => 1 + Expr.sizes params + Stmt.sizes body

def Stmt.size : Stmt → Nat
  | .expr e | .throw e => 1 + e.size
  | .block body => 1 + Stmt.sizes body
  | .withIn e s | .whileLoop e s | .doWhile s e => 1 + e.size + s.size
  | .ret arg => 1 + Expr.size? arg
  | .labeled _ s => 1 + s.size
  | .cond e yes no => 1 + e.size + yes.size + Stmt.size? no
  | .switch e cases => 1 + e.size + Stmt.sizes cases
  | .clause test body => 1 + Expr.size? test + Stmt.sizes body
  | .tryCatch body handler finalizer =>
    1 + Stmt.sizes body + Stmt.size? handler + Stmt.size? finalizer
  | .handler param body => 1 + Expr.size? param + Stmt.sizes body
  | .forLoop init test update body =>
    1 + Stmt.size? init + Expr.size? test + Expr.size? update + body.size
  | .forIn head e s | .forOf _ _ head e s => 1 + head.size + e.size + s.size
  | .vars _ decls => 1 + Declarator.sizes decls
  | .func _ f => 1 + f.size
  | .cls _ parent members => 1 + Expr.size? parent + Property.sizes members
  | .empty | .debugger | .breakTo _ | .continueTo _ => 1

def Stmt.sizes : List Stmt → Nat
  | [] => 0
  | s :: ss => s.size + Stmt.sizes ss

def Stmt.size? : Option Stmt → Nat
  | none => 0
  | some s => s.size

def Declarator.size : Declarator → Nat
  | .mk target init => 1 + target.size + Expr.size? init

def Declarator.sizes : List Declarator → Nat
  | [] => 0
  | d :: ds => d.size + Declarator.sizes ds

end

def ModuleItem.size : ModuleItem → Nat
  | .stmt s | .exportDecl s => 1 + s.size
  | .exportDefault (.expr e) => 1 + e.size
  | .exportDefault (.func _ f) => 1 + f.size
  | .exportDefault (.cls _ parent members) => 1 + Expr.size? parent + Property.sizes members
  | .imports .. | .exportNamed .. | .exportAll _ => 1

/-- A bound on how deep a pass over these items goes: each level of the tree
takes a few steps, and a pass adds a few levels of its own. -/
def depthBound (items : List ModuleItem) : Nat :=
  4 * items.foldr (fun item n => item.size + n) 0 + 64

/-- The same bound for statements. -/
def stmtsDepthBound (body : List Stmt) : Nat :=
  4 * Stmt.sizes body + 64

end Bundler.Script
