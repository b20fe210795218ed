/-
Which declaration each name of a module refers to. `Module.resolve` gives
every identifier the number of the scope that binds it, so that later passes
can move code around without capturing names. Scope `0` stands for names that
the module does not bind, and scope `1` for those it binds at its top level.
-/
import Bundler.Script.Rewrite

namespace Bundler.Script

/-- Passes that need new scopes count the ones in use. -/
abbrev Fresh := StateM Nat

/-- The scope of names that nothing in the module binds. -/
def globalScope : Nat := 0
/-- The scope of the module's own top level. -/
def moduleScope : Nat := 1
/-- The scope of the functions that generated code brings along. -/
def helperScope : Nat := 2
/-- The scope of `arguments` where it is that of the function itself, even in
an arrow function. -/
def argumentsScope : Nat := 3
/-- The first scope that is not spoken for. -/
def firstFreshScope : Nat := 4

def freshScope : Fresh Nat := modifyGet fun n => (n, n + 1)

/-- A variable of its own with a preferred name. -/
def freshIdent (name : String) : Fresh Ident := return ⟨name, ← freshScope⟩

def Ident.global (name : String) : Ident := ⟨name, globalScope⟩

/-! ## The names a piece of code binds -/

mutual

/-- The variables a pattern binds. -/
def Expr.boundIdents : Expr → List Ident
  | .ident id => [id]
  | .arrayPattern items => Expr.boundIdentsList items
  | .objectPattern members => Property.boundIdents members
  | .withDefault target _ => target.boundIdents
  | .spread e => e.boundIdents
  | _ => []

def Expr.boundIdentsList : List Expr → List Ident
  | [] => []
  | e :: es => e.boundIdents ++ Expr.boundIdentsList es

def Property.boundIdents : List Property → List Ident
  | [] => []
  | .shorthand id _ :: ms => id :: Property.boundIdents ms
  | .keyValue _ e :: ms | .spread e :: ms => e.boundIdents ++ Property.boundIdents ms
  | _ :: ms => Property.boundIdents ms

end

def Declarator.target : Declarator → Expr
  | .mk target _ => target

def Declarator.init : Declarator → Option Expr
  | .mk _ init => init

def declaredIdents (decls : List Declarator) : List Ident :=
  decls.flatMap fun d => d.target.boundIdents

mutual

/-- The variables that `var` declares in a statement, however deep, short of
functions. -/
def Stmt.varIdents : Stmt → List Ident
  | .block body => Stmt.varIdentsList body
  | .withIn _ s | .labeled _ s | .whileLoop _ s | .doWhile s _ => s.varIdents
  | .cond _ yes no => yes.varIdents ++ Stmt.varIdentsOf no
  | .switch _ cases => Stmt.varIdentsList cases
  | .clause _ body => Stmt.varIdentsList body
  | .tryCatch body onError finalizer =>
    Stmt.varIdentsList body ++ Stmt.varIdentsOf onError ++ Stmt.varIdentsOf finalizer
  | .handler _ body => Stmt.varIdentsList body
  | .forLoop init _ _ s => Stmt.varIdentsOf init ++ s.varIdents
  | .forIn head _ s | .forOf _ _ head _ s => head.varIdents ++ s.varIdents
  | .vars .var decls => declaredIdents decls
  | _ => []

def Stmt.varIdentsList : List Stmt → List Ident
  | [] => []
  | s :: ss => s.varIdents ++ Stmt.varIdentsList ss

def Stmt.varIdentsOf : Option Stmt → List Ident
  | none => []
  | some s => s.varIdents

end

/-- The variables a statement declares for the list it stands in. -/
def Stmt.lexicalIdents : Stmt → List Ident
  | .vars .letKind decls | .vars .constKind decls => declaredIdents decls
  | .func name _ => [name]
  | .cls name _ _ => [name]
  | _ => []

/-- The variables a list of statements declares for itself. -/
def lexicalIdents (body : List Stmt) : List Ident :=
  body.flatMap Stmt.lexicalIdents

def ImportSpecifier.ident : ImportSpecifier → Ident
  | .default id | .namespace id | .named id _ => id

def ImportSpecifier.mapIdent (f : Ident → Ident) : ImportSpecifier → ImportSpecifier
  | .default id => .default (f id)
  | .namespace id => .namespace (f id)
  | .named id outer => .named (f id) outer

/-- The variables an item declares for its module. -/
def ModuleItem.idents : ModuleItem → List Ident
  | .stmt s | .exportDecl s => s.lexicalIdents ++ s.varIdents
  | .imports specifiers _ => specifiers.map ImportSpecifier.ident
  | .exportDefault (.func (some name) _) | .exportDefault (.cls (some name) _ _) => [name]
  | _ => []

/-! ## Resolution -/

/-- The scopes around a point, the innermost first, each with the names it
binds. -/
abbrev Scopes := List (Nat × List String)

def Scopes.find (scopes : Scopes) (name : String) : Nat :=
  ((scopes.find? fun (_, names) => names.contains name).map (·.1)).getD globalScope

abbrev Resolver := ReaderT Scopes Fresh

namespace Resolver

def resolve (id : Ident) : Resolver Ident :=
  return { id with scope := (← read).find id.name }

/-- Resolves in a new scope that binds these variables. -/
def inScope {α : Type} (idents : List Ident) (r : Resolver α) : Resolver α := do
  let scope ← freshScope
  withReader ((scope, idents.map (·.name)) :: ·) r

def functionIdents (params : List Expr) (body : List Stmt) : List Ident :=
  params.flatMap Expr.boundIdents ++ Stmt.varIdentsList body ++ lexicalIdents body

/-- The variables the head of a loop declares for the loop alone. -/
def headIdents : Stmt → List Ident
  | .vars .letKind decls | .vars .constKind decls => declaredIdents decls
  | _ => []

/-- Resolves a class; a class expression binds its own name. -/
def classMembers (r : Rewrite Resolver) (members : List Property) : Resolver (List Property) :=
  inScope [] (r.properties members)

def step (r : Rewrite Resolver) : Rewrite Resolver
  | .expr, .ident id | .pattern, .ident id => return .ident (← resolve id)
  | .expr, .func (some name) f =>
    inScope [name] do return .func (some (← resolve name)) (← r.func f)
  | .expr, .cls (some name) parent members =>
    inScope [name] do
      return .cls (some (← resolve name)) (← r.expr? parent) (← classMembers r members)
  | .property, .shorthand id value => return .shorthand (← resolve id) (← r.expr? value)
  | .pattern, .objectPattern members =>
    return .objectPattern (← members.mapM fun
      | .shorthand id value => return .shorthand (← resolve id) (← r.expr? value)
      | p => r.patternMember p)
  | .func, .mk params body isAsync isGenerator =>
    inScope (functionIdents params body) do
      return .mk (← r.patterns params) (← r.stmts body) isAsync isGenerator
  | .property, .staticBlock body =>
    inScope (functionIdents [] body) do return .staticBlock (← r.stmts body)
  | .stmt, .block body => inScope (lexicalIdents body) do return .block (← r.stmts body)
  | .stmt, .tryCatch body handler finalizer => do
    let body ← inScope (lexicalIdents body) (r.stmts body)
    return .tryCatch body (← handler.mapM r.stmt) (← finalizer.mapM r.stmt)
  | .stmt, .handler param body =>
    inScope ((param.map Expr.boundIdents).getD [] ++ lexicalIdents body) do
      return .handler (← param.mapM r.pattern) (← r.stmts body)
  | .stmt, .switch subject cases => do
    let subject ← r.expr subject
    let idents := cases.flatMap fun
      | .clause _ body => lexicalIdents body
      | _ => []
    inScope idents do return .switch subject (← cases.mapM r.stmt)
  | .stmt, .forLoop init test update body =>
    inScope ((init.map headIdents).getD []) do
      return .forLoop (← init.mapM r.stmt) (← r.expr? test) (← r.expr? update) (← r.stmt body)
  | .stmt, .forIn head subject body =>
    inScope (headIdents head) do
      return .forIn (← r.forHead head) (← r.expr subject) (← r.stmt body)
  | .stmt, .forOf isAwait offset head subject body =>
    inScope (headIdents head) do
      return .forOf isAwait offset (← r.forHead head) (← r.expr subject) (← r.stmt body)
  | .stmt, .func name f => return .func (← resolve name) (← r.func f)
  | .stmt, .cls name parent members =>
    return .cls (← resolve name) (← r.expr? parent) (← classMembers r members)
  | .items, items => items.mapM fun
    | .imports specifiers source => do
      let scopes ← read
      let f (id : Ident) : Ident := { id with scope := scopes.find id.name }
      return .imports (specifiers.map (·.mapIdent f)) source
    | .exportNamed specifiers none => do
      let scopes ← read
      return .exportNamed (specifiers.map fun
        | .named inner _ outer => .named inner (scopes.find inner.text) outer
        | s => s) none
    | .exportDefault (.func (some name) f) =>
      return .exportDefault (.func (some (← resolve name)) (← r.func f))
    | .exportDefault (.cls (some name) parent members) =>
      return .exportDefault
        (.cls (some (← resolve name)) (← r.expr? parent) (← classMembers r members))
    | i => r.itemChildren i
  | k, x => r.mapChildren k x

/-- Resolves a program that stands in these scopes. -/
def stmts (scopes : Scopes) (body : List Stmt) : Fresh (List Stmt) :=
  (Rewrite.run step (stmtsDepthBound body)).stmts body scopes

end Resolver

/-- Resolves the names of a module. -/
def resolveItems (items : List ModuleItem) : Fresh (List ModuleItem) :=
  (Rewrite.run Resolver.step (depthBound items)).items items
    [(moduleScope, (items.flatMap ModuleItem.idents).map (·.name))]

end Bundler.Script
