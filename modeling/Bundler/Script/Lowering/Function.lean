/-
Functions in older syntax: they have names, take plain parameters, and are
not arrow functions.
-/
import Bundler.Script.Lowering.Basic
import Bundler.Script.Token

namespace Bundler.Script

/-! ## Names -/

/-- A variable of a function's own, named like what the function is given
to. -/
def functionIdent (name : String) : Fresh Ident :=
  freshIdent (if isKeyword name || name == "enum" then "_" ++ name else name)

/-- Names a function that has no name. -/
def nameFunction (name : String) : Expr → Fresh Expr
  | .func none f => return .func (some (← functionIdent name)) f
  | .paren e => return .paren (← nameFunction name e)
  | e => return e

/-- Names functions after the variables and keys they are given to. -/
def lowerFunctionNames (r : Rewrite Fresh) : Rewrite Fresh
  | .expr, .assign .assign (.ident id) value => do
    return .assignTo (.ident id) (← nameFunction id.name (← r.expr value))
  | .property, .keyValue (.name n) value => do
    return .keyValue (.name n) (← nameFunction n (← r.expr value))
  | .declarator, .mk (.ident id) (some init) => do
    return .mk (.ident id) (some (← nameFunction id.name (← r.expr init)))
  | k, x => r.mapChildren k x

/-! ## Whether a function was called by `new` -/

/-- What `new.target` means where it stands. -/
inductive NewTarget where
  /-- In a method, and outside functions. -/
  | none
  | function (name : Ident)

abbrev Targeting := ReaderT NewTarget Fresh

def lowerNewTarget (r : Rewrite Targeting) : Rewrite Targeting
  | .expr, .newTarget => do
    match ← read with
    | .none => return .undefined
    | .function name =>
      return .cond (.binary .instanceof .this (.ident name)) (.member .this (.name "constructor")) .undefined
  | .expr, .func name f => do
    let target ← name.getDM (freshIdent "_target")
    let .mk _ body _ _ := f
    let isUsed := ((Rewrite.run usesNewTarget (stmtsDepthBound body)).stmts body false).2
    return .func (if isUsed then some target else name)
      (← withReader (fun _ => .function target) (r.func f))
  | .stmt, .func name f => do
    return .func name (← withReader (fun _ => .function name) (r.func f))
  | .property, .method isStatic kind key f => do
    return .method isStatic kind (← r.key key) (← withReader (fun _ => .none) (r.func f))
  | k, x => r.mapChildren k x
where
  /-- Finds whether `new.target` stands in a function. -/
  usesNewTarget (r : Rewrite (StateM Bool)) : Rewrite (StateM Bool)
    | .expr, .newTarget => do
      set true
      return .newTarget
    | .expr, .func name f => return .func name f
    | .stmt, .func name f => return .func name f
    | k, x => r.mapChildren k x

/-! ## Parameters -/

/-- `arguments.length > i` -/
def hasArgument (i : Nat) : Expr :=
  .binary .gt (.member .ownArguments (.name "length")) (.num i)

def givenArgument (i : Nat) : Expr := .element .ownArguments i

/-- The argument at an index, if there are so many. -/
def argumentOrUndefined (i : Nat) : Expr :=
  .cond (hasArgument i) (givenArgument i) .undefined

/-- The argument at an index, or a default if it is not given. -/
def argumentOr (i : Nat) (otherwise : Expr) : Expr :=
  .cond (.binary .and (hasArgument i) (.binary .strictNotEq (givenArgument i) .undefined))
    (givenArgument i) otherwise

/-- `n - i`, but `n` for no `i`. -/
def minusIndex (n : Expr) (i : Nat) : Expr :=
  if i == 0 then n else .binary .sub n (.num i)

/-- Copies the arguments from an index on into an array. -/
def collectArguments (array : Ident) (i : Nat) : Fresh Stmt := do
  let length ← freshIdent "_len"
  let key ← freshIdent "_key"
  let size :=
    if i == 0 then Expr.ident length
    else .cond (.binary .gt (.ident length) (.num i)) (minusIndex (.ident length) i) (.num 0)
  return .forLoop
    (some (.vars .letKind [
      .mk (.ident length) (some (.member .ownArguments (.name "length"))),
      .mk (.ident array) (some (.new (.globalName "Array") [size])),
      .mk (.ident key) (some (.num i))]))
    (some (.binary .lt (.ident key) (.ident length)))
    (some (.update .increment false (.ident key)))
    (.block [.assign (.member (.ident array) (.computed (minusIndex (.ident key) i)))
      (.member .ownArguments (.computed (.ident key)))])

/-- Parameters in older syntax, and what has to be done before a body. -/
structure PlainParams where
  params : List Expr := []
  /-- Variables that come from single arguments. -/
  decls : List Declarator := []
  afterDefault : Bool := false
  /-- The loop that collects the other arguments. -/
  collect : List Stmt := []
  /-- Variables that come from the others. -/
  lateDecls : List Declarator := []

def PlainParams.add (p : PlainParams) (i : Nat) (param : Expr) : Fresh PlainParams := do
  let late := { p with decls := p.decls ++ [.mk param (some (argumentOrUndefined i))] }
  match param with
  | .withDefault target value =>
    return { p with decls := p.decls ++ [.mk target (some (argumentOr i value))], afterDefault := true }
  | .spread (.ident id) => return { p with collect := [← collectArguments id i] }
  | .spread target =>
    let id ← freshIdent "_tmp"
    return { p with
      collect := [← collectArguments id i]
      lateDecls := p.lateDecls ++ [.mk target (some (.ident id))] }
  | .ident _ => return if p.afterDefault then late else { p with params := p.params ++ [param] }
  | _ =>
    if p.afterDefault then return late
    let id ← freshIdent "param"
    return { p with
      params := p.params ++ [.ident id]
      decls := p.decls ++ [.mk param (some (.ident id))] }

def PlainParams.ofList (params : List Expr) : Fresh PlainParams :=
  params.zipIdx.foldlM (fun p (param, i) => p.add i param) {}

/-- The statements that give a body its variables. -/
def PlainParams.stmts (p : PlainParams) : List Stmt :=
  let declare (decls : List Declarator) : List Stmt :=
    if decls.isEmpty then [] else [.vars .letKind decls]
  declare p.decls ++ p.collect ++ declare p.lateDecls

/-- A function that takes plain parameters. -/
def plainFunction : Func → Fresh Func
  | .mk params body isAsync isGenerator => do
    let p ← PlainParams.ofList params
    return .mk p.params (prependStmts p.stmts body) isAsync isGenerator

def lowerParameters (r : Rewrite Fresh) : Rewrite Fresh
  | .func, f => do plainFunction (← r.funcChildren f)
  | .expr, .arrow f isConcise => do
    let .mk params body isAsync isGenerator ← r.funcChildren f
    let p ← PlainParams.ofList params
    let isConcise := isConcise && p.stmts.isEmpty
    return .arrow (.mk p.params (prependStmts p.stmts body) isAsync isGenerator) isConcise
  | k, x => r.mapChildren k x

/-! ## Arrow functions -/

/-- The variables through which arrow functions see what the function around
them has. -/
structure Captured where
  this : Option Ident := none
  arguments : Option Ident := none
  newTarget : Option Ident := none

def Captured.decls (c : Captured) : List Declarator :=
  let declare (id : Option Ident) (value : Expr) : List Declarator :=
    id.toList.map fun id => .mk (.ident id) (some value)
  declare c.this .this ++ declare c.arguments (.globalName "arguments") ++ declare c.newTarget .newTarget

/-- Whether an arrow function is around, and what those in the same function
captured. -/
abbrev Capturing := ReaderT Bool (StateT Captured Fresh)

namespace Capturing

/-- The variable for something captured, made at the first use. -/
def capture (kept : Captured → Option Ident) (name : String) (keep : Captured → Ident → Captured) :
    Capturing Expr := do
  match kept (← get) with
  | some id => return .ident id
  | none =>
    let id ← freshIdent name
    modify fun c => keep c id
    return .ident id

/-- Rewrites what has its own `this`, and declares what the arrow functions in
it capture. -/
def inFunction {α : Type} (part : Capturing α) : Capturing (α × List Stmt) := do
  let outer ← get
  set ({} : Captured)
  let a ← withReader (fun _ => false) part
  let captured ← get
  set outer
  return (a, declareVars captured.decls)

end Capturing

open Capturing in
def lowerArrows (r : Rewrite Capturing) : Rewrite Capturing
  | .expr, .arrow (.mk params body isAsync isGenerator) _ => do
    withReader (fun _ => true) do
      let params ← r.patterns params
      let body ← r.stmts body
      return .func none (.mk params body isAsync isGenerator)
  | .expr, .this => do
    if ← read then capture (·.this) "_this" (fun c id => { c with this := some id })
    else return .this
  | .expr, .newTarget => do
    if ← read then capture (·.newTarget) "_new_target" (fun c id => { c with newTarget := some id })
    else return .newTarget
  | .expr, .ident id => do
    if (← read) && id == .global "arguments" then
      capture (·.arguments) "_arguments" (fun c id => { c with arguments := some id })
    else return .ident id
  | .func, f => do
    let (.mk params body isAsync isGenerator, decls) ← inFunction (r.funcChildren f)
    return .mk params (prependStmts decls body) isAsync isGenerator
  | .items, items => do
    let (items, decls) ← inFunction (items.mapM r.itemChildren)
    return prependItems decls items
  | k, x => r.mapChildren k x

end Bundler.Script
