/-
Calls and arrays that hold several values at one place, as calls of `apply`
and `concat`.
-/
import Bundler.Script.Lowering.Basic

namespace Bundler.Script

def isSpread : Expr → Bool
  | .spread _ => true
  | _ => false

/-- The values that a spread expression gives, as an array. -/
def spreadArray (e : Expr) : Expr :=
  match e with
  | .ident ⟨"arguments", _⟩ =>
    .call (.read (.read (.read (.globalName "Array") "prototype") "slice") "call") [e]
  | _ => callHelper "_to_consumable_array" [e]

/-- Cuts elements into arrays: runs of single elements, and spread ones each
alone. -/
def spreadRuns : List Expr → List Expr → List Expr
  | run, [] => if run.isEmpty then [] else [.array run]
  | run, .spread e :: rest =>
    (if run.isEmpty then [] else [.array run]) ++ spreadArray e :: spreadRuns [] rest
  | run, e :: rest => spreadRuns (run ++ [e]) rest

/-- The array of all elements. A call takes `arguments` as it is. -/
def concatElements (needsArray : Bool) (items : List Expr) : Expr :=
  match items with
  | [.spread e@(.ident ⟨"arguments", _⟩)] => if needsArray then spreadArray e else e
  | _ =>
    match spreadRuns [] items with
    | [] => .array []
    | [array] => array
    | first :: rest => first.callMember "concat" rest

/-- What a call passes as `this`, and what is called. -/
def applyTarget (callee : Expr) : Declaring (Expr × Expr) := do
  match callee with
  | .superMember _ | .member .this _ => return (.this, callee)
  | .member object key => do
    let id ← aliasOf object "_instance"
    Declaring.declare (.mk (.ident id) none)
    return (.ident id, .member (.assignTo (.ident id) object) key)
  | _ => return (.undefined, callee)

def lowerSpread (r : Rewrite Declaring) : Rewrite Declaring
  | .expr, .array items offsets => do
    let items ← r.exprs items
    return if items.any isSpread then concatElements true items else .array items offsets
  | .expr, .call callee args isPure => do
    let callee ← r.expr callee
    let args ← r.exprs args
    unless args.any isSpread do return .call callee args isPure
    let (receiver, callee) ← applyTarget callee
    return .call (.member callee (.name "apply")) [receiver, concatElements false args]
  | .expr, .new callee args hasParens => do
    let callee ← r.expr callee
    let args ← r.exprs args
    unless args.any isSpread do return .new callee args hasParens
    return callHelper "_construct" [callee, concatElements true args]
  | .expr, .arrow (.mk params body isAsync isGenerator) true => do
    return .arrow (.mk (← r.patterns params) (← body.mapM r.stmt) isAsync isGenerator) true
  | .stmts, body => do
    let (body, decls) ← Declaring.collect (body.mapM r.stmt)
    return prependStmts (declareVars decls) body
  | .items, items => do
    let (items, decls) ← Declaring.collect (items.mapM r.itemChildren)
    return prependItems (declareVars decls) items
  | k, x => r.mapChildren k x

end Bundler.Script
