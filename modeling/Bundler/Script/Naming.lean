/-
The names that variables are printed with. Distinct variables may share a
name as long as no code sees both, so a scope keeps the names it can: each
variable, in the order of declaration, takes its own name or else that name
with the first number that makes it differ from every name seen together
with it.
-/
import Bundler.Script.Scope
import Std.Data.HashSet
import Std.Data.HashMap

namespace Bundler.Script

open Std (HashSet HashMap)

/-! ## Scopes and what they see -/

/-- A scope: the variables it declares, the variables named anywhere in it,
and the scopes in it. -/
inductive NameScope where
  | mk (declared : List Ident) (seen : List Ident) (inner : List NameScope)

instance : Inhabited NameScope := ⟨.mk [] [] []⟩

/-- A scope that is being collected; lists are latest first. -/
structure Collecting where
  isFunction : Bool
  declared : List Ident := []
  seen : List Ident := []
  inner : List NameScope := []
  /-- What `var` declares here for the function around this block. -/
  hoisted : List Ident := []

/-- How a name in a pattern is met: used, or declared with or without `var`. -/
inductive PatternUse where
  | used
  | declaredHere
  | declaredVar
deriving BEq

abbrev Collector := ReaderT PatternUse (StateM Collecting)

namespace Collector

def use (id : Ident) : Collector Unit := do
  unless id.name == "arguments" do modify fun c => { c with seen := id :: c.seen }

def declare (forFunction : Bool) (id : Ident) : Collector Unit := do
  unless id.name == "arguments" do
    modify fun c =>
      if forFunction && !c.isFunction then { c with hoisted := id :: c.hoisted }
      else
        { c with
          seen := id :: c.seen
          declared := if c.declared.contains id then c.declared else id :: c.declared }

/-- Collects a scope of its own. What it hoists is declared around it. -/
def inScope {α : Type} (isFunction : Bool) (act : Collector α) : Collector α := fun u outer =>
  let (a, c) := act u { isFunction }
  let scope := NameScope.mk c.declared.reverse c.seen c.inner.reverse
  let (_, outer) := (c.hoisted.reverse.forM (declare true) : Collector Unit) u outer
  (a, { outer with inner := scope :: outer.inner })

def withUse {α : Type} (u : PatternUse) (act : Collector α) : Collector α :=
  withReader (fun _ => u) act

def meet (id : Ident) : Collector Unit := do
  match ← read with
  | .used => use id
  | .declaredHere => declare false id
  | .declaredVar => declare true id

def hasRest (params : List Expr) : Bool :=
  params.any fun
    | .spread _ => true
    | _ => false

/-- Collects parameters and body in the scope that is open. -/
def functionParts (r : Rewrite Collector) : Func → Collector Func
  | .mk params body isAsync isGenerator =>
    return .mk (← withUse .declaredVar (r.patterns params)) (← withUse .used (r.stmts body))
      isAsync isGenerator

/-- Collects the body of a loop in the scope that is open. -/
def loopBody (r : Rewrite Collector) (body : Stmt) : Collector Stmt :=
  inScope false do
    match body with
    | .block ss => return .block (← r.stmts ss)
    | s => r.stmt s

def step (r : Rewrite Collector) : Rewrite Collector
  | .expr, .ident id => do
    use id
    return .ident id
  | .expr, .func (some name) f =>
    inScope true do
      declare true name
      return .func (some name) (← inScope true (functionParts r f))
  | .expr, .cls (some name) parent members =>
    withUse .used <| inScope true do
      declare false name
      return .cls (some name) (← r.expr? parent) (← r.properties members)
  | .expr, e => withUse .used (r.exprChildren e)
  | .pattern, .ident id => do
    meet id
    return .ident id
  | .pattern, .objectPattern members =>
    return .objectPattern (← members.mapM fun
      | .shorthand id value => do
        let value ← r.expr? value
        meet id
        return .shorthand id value
      | p => r.patternMember p)
  | .pattern, e => r.patternChildren e
  | .property, .shorthand id value => do
    use id
    return .shorthand id (← r.expr? value)
  | .property, .staticBlock body => inScope true do return .staticBlock (← r.stmts body)
  | .func, f => inScope true (functionParts r f)
  | .declarator, .mk target init => do
    let target ← r.pattern target
    return .mk target (← withUse .used (r.expr? init))
  | .stmt, .vars kind decls =>
    withUse (if kind == .var then .declaredVar else .declaredHere) do
      return .vars kind (← decls.mapM r.declarator)
  | .stmt, .block body => inScope false do return .block (← r.stmts body)
  | .stmt, .tryCatch body handler finalizer => do
    let body ← inScope false (r.stmts body)
    return .tryCatch body (← handler.mapM r.stmt) (← finalizer.mapM r.stmt)
  | .stmt, .handler param body =>
    inScope false do
      let body ← r.stmts body
      return .handler (← withUse .declaredHere (param.mapM r.pattern)) body
  | .stmt, .forLoop init test update body =>
    inScope false do
      let init ← init.mapM r.stmt
      let test ← r.expr? test
      let update ← r.expr? update
      return .forLoop init test update (← loopBody r body)
  | .stmt, .forIn head subject body =>
    inScope false do
      let head ← r.forHead head
      return .forIn head (← r.expr subject) (← loopBody r body)
  | .stmt, .forOf isAwait offset head subject body =>
    inScope false do
      let head ← r.forHead head
      return .forOf isAwait offset head (← r.expr subject) (← loopBody r body)
  | .stmt, .func name (.mk params body isAsync isGenerator) => do
    declare true name
    if hasRest params then use name
    inScope true do
      if hasRest params then use name
      let .mk params body _ _ ← functionParts r (.mk params body isAsync isGenerator)
      return .func name (.mk params body isAsync isGenerator)
  | .stmt, .cls name parent members => do
    declare false name
    return .cls name (← r.expr? parent) (← r.properties members)
  | k, x => r.mapChildren k x

end Collector

/-- The outermost scope of a program. -/
def programScope (body : List Stmt) : NameScope :=
  let (_, c) := (Rewrite.run Collector.step (stmtsDepthBound body)).stmts body .used
    { isFunction := true }
  .mk c.declared.reverse c.seen c.inner.reverse

mutual

/-- All variables named in a scope. -/
def NameScope.allSeen : NameScope → List Ident
  | .mk _ seen inner => seen ++ NameScope.allSeenIn inner

def NameScope.allSeenIn : List NameScope → List Ident
  | [] => []
  | s :: ss => s.allSeen ++ NameScope.allSeenIn ss

/-- All variables declared in a scope. -/
def NameScope.allDeclared : NameScope → List Ident
  | .mk declared _ inner => declared ++ NameScope.allDeclaredIn inner

def NameScope.allDeclaredIn : List NameScope → List Ident
  | [] => []
  | s :: ss => s.allDeclared ++ NameScope.allDeclaredIn ss

end

/-! ## Choosing names -/

/-- The printed names chosen so far. -/
structure Names where
  chosen : HashMap Ident String := {}
  /-- The variables that hold each printed name. -/
  holders : HashMap String (List Ident) := {}

/-- Chooses the first of `name`, `name1`, … that no variable of `seen` holds
and no global has. `fuel` bounds the numbers tried. -/
def chooseName (globals : HashSet String) (seen : HashSet Ident) (names : Names) (id : Ident) :
    Nat → Nat → String
  | 0, n => id.name ++ toString n
  | fuel + 1, n =>
    let candidate := if n == 0 then id.name else id.name ++ toString n
    let isTaken := globals.contains candidate ||
      ((names.holders.getD candidate []).any fun other => other != id && seen.contains other)
    if isTaken then chooseName globals seen names id fuel (n + 1) else candidate

/-- Names the variables a scope declares. -/
def nameDeclared (globals : HashSet String) (seen : HashSet Ident) (names : Names)
    (declared : List Ident) : Names :=
  declared.foldl (fun names id =>
    if names.chosen.contains id then names
    else
      let name := chooseName globals seen names id (globals.size + seen.size + 2) 0
      { chosen := names.chosen.insert id name
        holders := names.holders.insert name (id :: names.holders.getD name []) }) names

mutual

/-- Names the variables of a scope and of the scopes in it. -/
def NameScope.assign (globals : HashSet String) (names : Names) : NameScope → Names
  | .mk declared seen inner =>
    let all := HashSet.ofList (seen ++ NameScope.allSeenIn inner)
    NameScope.assignIn globals (nameDeclared globals all names declared) inner

def NameScope.assignIn (globals : HashSet String) (names : Names) : List NameScope → Names
  | [] => names
  | s :: ss => NameScope.assignIn globals (s.assign globals names) ss

end

/-! ## Renaming -/

abbrev Renaming := ReaderT (HashMap Ident String) Id

namespace Renaming

def name (id : Ident) : Renaming Ident :=
  return { id with name := (← read).getD id id.name }

/-- Renames a member that is written as a name alone. The key stays. -/
def shorthand (r : Rewrite Renaming) (isPattern : Bool) (id : Ident) (value : Option Expr) :
    Renaming Property := do
  let id' ← name id
  let value ← r.expr? value
  if id'.name == id.name then return .shorthand id' value
  let e := match value with
    | some v => if isPattern then Expr.withDefault (.ident id') v else .ident id'
    | none => .ident id'
  return .keyValue (.name id.name) e

def step (r : Rewrite Renaming) : Rewrite Renaming
  | .expr, .ident id | .pattern, .ident id => return .ident (← name id)
  | .expr, .func (some id) f => return .func (some (← name id)) (← r.func f)
  | .expr, .cls (some id) parent members =>
    return .cls (some (← name id)) (← r.expr? parent) (← r.properties members)
  | .property, .shorthand id value => shorthand r false id value
  | .pattern, .objectPattern members =>
    return .objectPattern (← members.mapM fun
      | .shorthand id value => shorthand r true id value
      | p => r.patternMember p)
  | .stmt, .func id f => return .func (← name id) (← r.func f)
  | .stmt, .cls id parent members =>
    return .cls (← name id) (← r.expr? parent) (← r.properties members)
  | k, x => r.mapChildren k x

end Renaming

/-- Gives the variables of a program names that keep them apart. -/
def nameApart (body : List Stmt) : List Stmt :=
  let scope := programScope body
  let declared := HashSet.ofList scope.allDeclared
  let globals := HashSet.ofList
    ((scope.allSeen.filter fun id => !declared.contains id).map (·.name))
  let names := scope.assign globals {}
  (Rewrite.run Renaming.step (stmtsDepthBound body)).stmts body names.chosen

end Bundler.Script
