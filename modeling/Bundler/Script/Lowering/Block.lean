/-
Variables of blocks as variables of functions. A variable that a block
declares is renamed if the function around names something else the same way
that no function or block in it declares: outside the block, the name would
otherwise come to mean the block's variable.

A loop whose body makes functions that see its variables gives each round
variables of its own, by making the body a function.
-/
import Bundler.Script.Lowering.Basic
import Std.Data.HashSet
import Std.Data.HashMap

namespace Bundler.Script

open Std (HashSet HashMap)

/-! ## Functions in blocks -/

/-- Functions that a block declares become variables at its start. -/
def hoistBlockFunctions (body : List Stmt) : List Stmt :=
  let functions := body.filterMap fun
    | .func name f => some (Stmt.declare .letKind name (.func (some name) f))
    | _ => none
  let others := body.filter fun
    | .func .. => false
    | _ => true
  if functions.isEmpty then body else prependStmts functions others

def lowerBlockFunctions (r : Rewrite Fresh) : Rewrite Fresh
  | .stmt, .block body => return .block (hoistBlockFunctions (← r.stmts body))
  | .stmt, .clause test body => return .clause (← r.expr? test) (hoistBlockFunctions (← r.stmts body))
  | .stmt, .tryCatch body handler finalizer => do
    let body := hoistBlockFunctions (← r.stmts body)
    return .tryCatch body (← handler.mapM r.stmt) (← finalizer.mapM r.stmt)
  | .stmt, .handler param body => do
    return .handler (← param.mapM r.pattern) (hoistBlockFunctions (← r.stmts body))
  | k, x => r.mapChildren k x

/-! ## Renaming -/

/-- A function or a block: the variables it declares, all and those of blocks
alone, the variables it uses, and what stands in it. -/
inductive BlockScope where
  | mk (isFunction : Bool) (declared lexical used : List Ident) (inner : List BlockScope)

structure Gathered where
  declared : List Ident := []
  lexical : List Ident := []
  used : List Ident := []
  inner : List BlockScope := []

/-- How a name in a pattern is met. -/
inductive Meeting where
  | use
  | declare
  | declareLexical

abbrev Gatherer := ReaderT Meeting (StateM Gathered)

namespace Gatherer

def inScope {α : Type} (isFunction : Bool) (part : Gatherer α) : Gatherer α := fun m outer =>
  let (a, g) := part m {}
  (a, { outer with inner := .mk isFunction g.declared g.lexical g.used g.inner :: outer.inner })

def meeting {α : Type} (m : Meeting) (part : Gatherer α) : Gatherer α :=
  withReader (fun _ => m) part

def meet (id : Ident) : Gatherer Unit := do
  match ← read with
  | .use => modify fun g => { g with used := id :: g.used }
  | .declare => modify fun g => { g with declared := id :: g.declared }
  | .declareLexical =>
    modify fun g => { g with declared := id :: g.declared, lexical := id :: g.lexical }

def step (r : Rewrite Gatherer) : Rewrite Gatherer
  | .expr, .ident id => do
    meeting .use (meet id)
    return .ident id
  | .pattern, .ident id => do
    meet id
    return .ident id
  | .expr, e => meeting .use (r.exprChildren e)
  | .func, .mk params body isAsync isGenerator =>
    inScope true do
      return .mk (← meeting .declare (r.patterns params)) (← meeting .use (r.stmts body))
        isAsync isGenerator
  | .stmt, .block body => inScope false do return .block (← r.stmts body)
  | .stmt, .tryCatch body handler finalizer => do
    let body ← inScope false (r.stmts body)
    return .tryCatch body (← handler.mapM r.stmt) (← finalizer.mapM r.stmt)
  | .stmt, .handler param body =>
    inScope false do
      return .handler (← meeting .declare (param.mapM r.pattern)) (← r.stmts body)
  | .stmt, .forLoop init test update body => inScope false (r.stmtChildren (.forLoop init test update body))
  | .stmt, .forIn head subject body => inScope false (r.stmtChildren (.forIn head subject body))
  | .stmt, .vars kind decls =>
    meeting (if kind == .var then .declare else .declareLexical) do
      return .vars kind (← decls.mapM r.declarator)
  | .declarator, .mk target init => do
    return .mk (← r.pattern target) (← meeting .use (r.expr? init))
  | k, x => r.mapChildren k x

end Gatherer

/-- The scope of a whole module. -/
def gatherScope (items : List ModuleItem) : BlockScope :=
  let (_, g) := (Rewrite.run Gatherer.step (depthBound items)).items items .use {}
  .mk true g.declared g.lexical g.used g.inner

mutual

def BlockScope.allDeclared : BlockScope → List Ident
  | .mk _ declared _ _ inner => declared ++ BlockScope.allDeclaredIn inner

def BlockScope.allDeclaredIn : List BlockScope → List Ident
  | [] => []
  | s :: ss => s.allDeclared ++ BlockScope.allDeclaredIn ss

def BlockScope.allUsed : BlockScope → List Ident
  | .mk _ _ _ used inner => used ++ BlockScope.allUsedIn inner

def BlockScope.allUsedIn : List BlockScope → List Ident
  | [] => []
  | s :: ss => s.allUsed ++ BlockScope.allUsedIn ss

end

/-- The names of used variables that nothing declares. -/
def freeNames (declared : HashSet Ident) (used : List Ident) : HashSet String :=
  HashSet.ofList ((used.filter fun id => !declared.contains id).map (·.name))

mutual

/-- The variables of blocks that have to be renamed; `free` holds the names
that the function around uses and nothing declares. -/
def BlockScope.conflicts (declared : HashSet Ident) (free : HashSet String) : BlockScope → List Ident
  | .mk true _ _ used inner =>
    BlockScope.conflictsIn declared (freeNames declared (used ++ BlockScope.allUsedIn inner)) inner
  | .mk false _ lexical _ inner =>
    lexical.filter (free.contains ·.name) ++ BlockScope.conflictsIn declared free inner

def BlockScope.conflictsIn (declared : HashSet Ident) (free : HashSet String) : List BlockScope → List Ident
  | [] => []
  | s :: ss => s.conflicts declared free ++ BlockScope.conflictsIn declared free ss

end

/-- Gives variables new names. -/
def renameIdents (renamed : HashSet Ident) (r : Rewrite Id) : Rewrite Id
  | .expr, .ident id | .pattern, .ident id =>
    return .ident (if renamed.contains id then { id with name := "_$" ++ id.name } else id)
  | k, x => r.mapChildren k x

/-- Renames the variables of blocks that would be taken for others. -/
def renameConflicts (items : List ModuleItem) : List ModuleItem :=
  let scope := gatherScope items
  let conflicts := scope.conflicts (HashSet.ofList scope.allDeclared) {}
  if conflicts.isEmpty then items
  else (Rewrite.run (renameIdents (HashSet.ofList conflicts)) (depthBound items)).items items

/-! ## What loops leave to functions -/

/-- What decides whether the body of a loop can be a function. -/
structure BodyFacts where
  /-- The variables that functions in the body name. -/
  captured : List Ident := []
  /-- The variables of blocks that the body declares. -/
  declared : List Ident := []
  assigned : List Ident := []
  /-- Whether the body may leave itself early. -/
  leaves : Bool := false

abbrev Inspecting := ReaderT Bool (StateM BodyFacts)

/-- Inspects the body of a loop; the context tells whether a function in it is
around. -/
def inspectBody (r : Rewrite Inspecting) : Rewrite Inspecting
  | .expr, .ident id => do
    if ← read then modify fun f => { f with captured := id :: f.captured }
    return .ident id
  | .pattern, .ident id => do
    if ← read then modify fun f => { f with captured := id :: f.captured }
    modify fun f => { f with assigned := id :: f.assigned }
    return .ident id
  | .expr, .update op leading (.ident id) => do
    modify fun f => { f with assigned := id :: f.assigned }
    return .update op leading (← r.expr (.ident id))
  | .func, f => withReader (fun _ => true) (r.funcChildren f)
  | .stmt, .vars kind decls => do
    if !(← read) && kind != .var then
      modify fun f => { f with declared := declaredIdents decls ++ f.declared }
    return .vars kind (← decls.mapM fun d => return .mk d.target (← r.expr? d.init))
  | .stmt, .ret e => do
    unless ← read do modify fun f => { f with leaves := true }
    return .ret (← r.expr? e)
  | .stmt, .breakTo l => do
    unless ← read do modify fun f => { f with leaves := true }
    return .breakTo l
  | .stmt, .continueTo l => do
    unless ← read do modify fun f => { f with leaves := true }
    return .continueTo l
  | k, x => r.mapChildren k x

def bodyFacts (body : Stmt) : BodyFacts :=
  ((Rewrite.run inspectBody (4 * body.size + 64)).stmt body false {}).2

/-- The body of a loop; `head` holds the variables that its head declares. If
functions in the body see variables of the round, the body becomes a call. -/
def roundOf (head : List Ident) (body : Stmt) : Declaring Stmt := do
  let facts := bodyFacts body
  let args := head.filter facts.captured.contains
  let isSeen := !args.isEmpty || facts.declared.any facts.captured.contains
  if !isSeen || facts.leaves || args.any facts.assigned.contains then return body
  let loop ← freshIdent "_loop"
  Declaring.declare (.mk (.ident loop)
    (some (.functionOf (args.map .ident) body.asBlock)))
  return .expr (.call (.ident loop) (args.map .ident))

def lowerRounds (r : Rewrite Declaring) : Rewrite Declaring
  | .stmt, .forLoop init test update body => do
    let init ← init.mapM r.stmt
    let head := match init with
      | some (.vars .letKind decls) | some (.vars .constKind decls) => declaredIdents decls
      | _ => []
    let body ← r.stmt body
    return .forLoop init (← r.expr? test) (← r.expr? update) (← roundOf head body)
  | .stmt, .forIn head subject body => do
    let head' := match head with
      | .vars .letKind decls | .vars .constKind decls => declaredIdents decls
      | _ => []
    let subject ← r.expr subject
    return .forIn (← r.forHead head) subject (← roundOf head' (← r.stmt body))
  | .stmt, .whileLoop test body => return .whileLoop (← r.expr test) (← roundOf [] (← r.stmt body))
  | .stmt, .doWhile body test => return .doWhile (← roundOf [] (← r.stmt body)) (← r.expr test)
  | .stmts, body => Declaring.eachStmt (fun s => return [← r.stmt s]) body
  | .items, items => Declaring.eachItem (fun i => return [← r.itemChildren i]) items
  | k, x => r.mapChildren k x

/-! ## Variables of functions -/

/-- A variable that a loop's body declares starts undefined in each round. -/
def startUndefined : Declarator → Declarator
  | .mk target none => .mk target (some .undefined)
  | d => d

/-- Declares all variables by `var`; the context tells whether a loop is
around. -/
def lowerVariables (r : Rewrite (ReaderT Bool Id)) : Rewrite (ReaderT Bool Id)
  | .stmt, .vars kind decls => do
    let decls ← decls.mapM r.declarator
    return .vars .var (if kind != .var && (← read) then decls.map startUndefined else decls)
  | .stmt, .forLoop init test update body => do
    return .forLoop (← init.mapM r.stmt) (← r.expr? test) (← r.expr? update)
      (← withReader (fun _ => true) (r.stmt body))
  | .stmt, .forIn (.vars _ decls) subject body => do
    return .forIn (.vars .var decls) (← r.expr subject) (← withReader (fun _ => true) (r.stmt body))
  | .stmt, .forIn head subject body => do
    return .forIn (← r.forHead head) (← r.expr subject) (← withReader (fun _ => true) (r.stmt body))
  | .stmt, .whileLoop test body => do
    return .whileLoop (← r.expr test) (← withReader (fun _ => true) (r.stmt body))
  | .stmt, .doWhile body test => do
    return .doWhile (← withReader (fun _ => true) (r.stmt body)) (← r.expr test)
  | .func, f => withReader (fun _ => false) (r.funcChildren f)
  | k, x => r.mapChildren k x

end Bundler.Script
