/-
Classes as functions. A class becomes a function that checks how it is
called, and its methods are defined by a helper. The function stands in a
function of its own, except for a class that has no methods.

Classes that extend others, and fields, are not given a meaning here: fields
are dropped.
-/
import Bundler.Script.Lowering.Basic

namespace Bundler.Script

/-! ## Members -/

/-- What a class defines under one key. -/
structure MethodGroup where
  key : Key
  get : Option Func := none
  set : Option Func := none
  value : Option Func := none

def MethodGroup.add (g : MethodGroup) (kind : MethodKind) (f : Func) : MethodGroup :=
  match kind with
  | .getter => { g with get := some f }
  | .setter => { g with set := some f }
  | _ => { g with value := some f }

/-- Whether two keys surely are the same. -/
def Key.isSame : Key → Key → Bool
  | .num a, .num b => a == b
  | .computed _, _ | _, .computed _ => false
  | a, b => (text? a).isSome && text? a == text? b
where
  /-- The text of a key that is a name or a string. -/
  text? : Key → Option String
    | .name n => some n
    | .str value _ => some value
    | _ => none

/-- Adds a method to the group of its key. -/
def addMethod (key : Key) (kind : MethodKind) (f : Func) : List MethodGroup → List MethodGroup
  | [] => [({ key } : MethodGroup).add kind f]
  | g :: gs => if g.key.isSame key then g.add kind f :: gs else g :: addMethod key kind f gs

def groupMethods (isStatic : Bool) (members : List Property) : List MethodGroup :=
  members.foldl (fun groups member =>
    match member with
    | .method s kind key f =>
      if s == isStatic && kind != .constructor && !isPrivate key then addMethod key kind f groups
      else groups
    | _ => groups) []
where
  isPrivate : Key → Bool
    | .priv _ => true
    | _ => false

/-- The name of a method's function. -/
def methodName (key : Key) : Fresh (Option Ident) := do
  match key with
  | .name n => return some (← freshIdent n)
  | .str value _ => if isNameText value then return some (← freshIdent value) else return none
  | _ => return none

/-- The descriptor of what a class defines under a key. -/
def MethodGroup.descriptor (g : MethodGroup) : Fresh Expr := do
  let accessor (name : String) (f : Option Func) : List Property :=
    f.toList.map fun f => .keyValue (.name name) (.func none f)
  let value ← g.value.toList.mapM fun f => do
    return Property.keyValue (.name "value") (.func (← methodName g.key) f)
  return .object (.keyValue (.name "key") g.key.toExpr :: accessor "get" g.get ++
    accessor "set" g.set ++ value)

def descriptors (groups : List MethodGroup) : Fresh Expr := do
  if groups.isEmpty then return .lit .null
  return .array (← groups.mapM MethodGroup.descriptor)

/-- The statements that define the methods of a class. -/
def defineMethods (name : Ident) (members : List Property) : Fresh (List Stmt) := do
  let own := groupMethods false members
  let shared := groupMethods true members
  if own.isEmpty && shared.isEmpty then return []
  let ownArray ← descriptors own
  let sharedArray ← if shared.isEmpty then pure [] else pure [← descriptors shared]
  return [.expr (callHelper "_create_class" ([.ident name, ownArray] ++ sharedArray))]

/-! ## The class -/

def constructorOf (members : List Property) : Func :=
  (members.findSome? fun
    | .method _ .constructor _ f => some f
    | _ => none).getD (.mk [] [] false false)

/-- The function that a class becomes; `name` is its name inside. -/
def classFunction (name : Ident) (members : List Property) : Fresh Expr := do
  let .mk params body isAsync isGenerator := constructorOf members
  let check := Stmt.expr (callHelper "_class_call_check" [.this, .ident name])
  let body := prependStmts [check] body
  let methods ← defineMethods name members
  if methods.isEmpty then
    return .func (some name) (.mk params (useStrict :: body) isAsync isGenerator)
  let outer := useStrict :: .func name (.mk params body isAsync isGenerator) :: methods ++
    [.ret (some (.ident name))]
  return .call (.functionOf [] outer) [] true

/-- The declaration of a variable that holds a class. Inside the class the
name stands for a variable of the class's own. -/
def classVariable (name : Ident) (members : List Property) : Fresh Stmt := do
  let inner ← freshIdent name.name
  let e ← classFunction inner members
  let e := (Rewrite.run (replaceIdent name inner) (4 * e.size + 64)).expr e
  return .declare .letKind name e

/-! ## Rewriting -/

/-- A class without a name takes that of the variable or key it is given
to. -/
def nameClass (name : Ident) : Expr → Fresh Expr
  | .cls none parent members => return .cls (some (← freshIdent name.name)) parent members
  | e => return e

def lowerClasses (r : Rewrite Fresh) : Rewrite Fresh
  | .expr, .cls name _ members => do
    let members ← r.properties members
    classFunction (← name.getDM (freshIdent "_class")) members
  | .declarator, .mk (.ident id) (some init) => do
    return .mk (.ident id) (some (← r.expr (← nameClass id init)))
  | .expr, .assign .assign (.ident id) value => do
    return .assignTo (.ident id) (← r.expr (← nameClass id value))
  | .property, .keyValue (.name n) value => do
    return .keyValue (.name n) (← r.expr (← nameClass ⟨n, globalScope⟩ value))
  | .stmt, .cls name _ members => do classVariable name (← r.properties members)
  | .items, items => items.flatMapM fun
    | .exportDefault (.cls name _ members) => do
      let name ← name.getDM (freshIdent "_default")
      let s ← classVariable name (← r.properties members)
      return [.stmt s, .exportNamed [.named (.name name.name) name.scope (some (.name "default"))] none]
    | i => return [← r.itemChildren i]
  | k, x => r.mapChildren k x

end Bundler.Script
