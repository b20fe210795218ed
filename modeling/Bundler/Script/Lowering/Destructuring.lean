/-
Patterns as single declarations and assignments. A value that several parts
of a pattern read is held in a variable of its own, unless a name holds it
already.
-/
import Bundler.Script.Lowering.Basic

namespace Bundler.Script

/-! ## Values and holders -/

mutual

/-- Whether an expression is made of literals alone. -/
def Expr.isConstant : Expr → Bool
  | .lit (.regex ..) => false
  | .lit _ => true
  | .array items _ => Expr.areConstant items
  | .object members _ => Property.areConstant members
  | .unary _ e | .paren e => e.isConstant
  | .hole => true
  | _ => false

def Expr.areConstant : List Expr → Bool
  | [] => true
  | e :: es => e.isConstant && Expr.areConstant es

def Property.areConstant : List Property → Bool
  | [] => true
  | .keyValue (.computed _) _ :: _ => false
  | .keyValue _ e :: ps => e.isConstant && Property.areConstant ps
  | _ => false

end

def isRest : Expr → Bool
  | .spread _ => true
  | _ => false

def isPattern : Expr → Bool
  | .arrayPattern _ | .objectPattern _ => true
  | _ => false

/-- The elements of an array that is written out with as many elements as a
pattern has, or more if the pattern takes the rest. -/
def matchingElements? (items : List Expr) : Expr → Option (List Expr)
  | e@(.array elements _) =>
    let hasRest := items.any isRest
    if e.isConstant && (elements.length == items.length || (items.length < elements.length && hasRest)) then
      some elements
    else none
  | _ => none

/-- The elements of a value, as an array. -/
def elementsOf (items : List Expr) (value : Expr) : Expr :=
  if items.any isRest then callHelper "_to_array" [value]
  else callHelper "_sliced_to_array" [value, .num items.length]

/-- The value of a variable, or a default if it is undefined. -/
def orDefault (id : Ident) (otherwise : Expr) : Expr :=
  .cond (.binary .strictEq (.ident id) .undefined) otherwise (.ident id)

/-- The elements of an array from an index on. -/
def restOf (id : Ident) (i : Nat) : Expr :=
  (Expr.ident id).callMember "slice" (if i == 0 then [] else [.num i])

/-- The first of some values; a missing one is undefined. -/
def firstValue (values : List Expr) : Expr :=
  match values with
  | .hole :: _ | [] => .undefined
  | e :: _ => e

/-! ## Declarations -/

/-- A declaration, and whether its variable only helps to unpack. -/
structure Unpacked where
  isHolder : Bool
  decl : Declarator

abbrev Unpacking := StateT (List Unpacked) Fresh

def bind (target value : Expr) : Unpacking Unit :=
  modify (· ++ [⟨false, .mk target (some value)⟩])

def hold (id : Ident) (value : Expr) : Unpacking Unit :=
  modify (· ++ [⟨true, .mk (.ident id) (some value)⟩])

/-- The variable that holds a value. -/
def holderOf (value : Expr) : Unpacking Ident := do
  match value with
  | .ident id => return id
  | _ =>
    let id ← aliasOf value "_ref"
    hold id value
    return id

mutual

/-- Declares what a pattern binds to the parts of a value. -/
def Expr.unpack : Expr → Expr → Unpacking Unit
  | .arrayPattern items, value => do
    match matchingElements? items value with
    | some elements => Expr.unpackEach elements items
    | none =>
      let id ← aliasOf value "_ref"
      hold id (if value.isConstant then value else elementsOf items value)
      Expr.unpackElements id 0 items
  | .objectPattern members, value => do
    match members with
    | [] => hold (← freshIdent "_ref") value
    | [.shorthand id none] => bind (.ident id) (value.read id.name)
    | _ => Property.unpack (← holderOf value) members
  | .withDefault target otherwise, value => do
    let id ← aliasOf value "tmp"
    hold id value
    target.unpack (orDefault id otherwise)
  | target, value => bind target value

/-- Unpacks elements that are written out. -/
def Expr.unpackEach (values : List Expr) : List Expr → Unpacking Unit
  | [] => pure ()
  | .hole :: items => Expr.unpackEach values.tail items
  | .spread target :: _ => target.unpack (.array values)
  | target :: items => do
    target.unpack (firstValue values)
    Expr.unpackEach values.tail items

/-- Unpacks the elements of an array from an index on. -/
def Expr.unpackElements (id : Ident) (i : Nat) : List Expr → Unpacking Unit
  | [] => pure ()
  | .hole :: items => Expr.unpackElements id (i + 1) items
  | .spread target :: _ => target.unpack (restOf id i)
  | target :: items => do
    target.unpack (.element (.ident id) i)
    Expr.unpackElements id (i + 1) items

def Property.unpack (id : Ident) : List Property → Unpacking Unit
  | [] => pure ()
  | .shorthand name none :: ps => do
    bind (.ident name) ((Expr.ident id).read name.name)
    Property.unpack id ps
  | .shorthand name (some otherwise) :: ps => do
    let value := (Expr.ident id).read name.name
    let holder ← aliasOf value "_ref"
    hold holder value
    bind (.ident name) (orDefault holder otherwise)
    Property.unpack id ps
  | .keyValue key target :: ps => do
    target.unpack ((Expr.ident id).memberOf key)
    Property.unpack id ps
  | _ :: ps => Property.unpack id ps

end

/-- The declarations that a list of declarations with patterns stands for. -/
def unpackDeclarators (decls : List Declarator) : Fresh (List Unpacked) := do
  let unpackOne : Declarator → Unpacking Unit
    | .mk target (some value) => target.unpack value
    | d => modify (· ++ [⟨false, d⟩])
  return (← (decls.forM unpackOne).run []).2

/-! ## Assignments -/

mutual

/-- The expression that assigns the parts of a value to what a pattern
names. Its own value is that of the whole. -/
def Expr.assignParts : Expr → Expr → Declaring Expr
  | .arrayPattern items, value => do
    let id ← Declaring.newVar "_ref"
    let value := match value with
      | .array .. => value
      | _ => elementsOf items value
    let parts ← Expr.assignElements id 0 items
    return .sequence (.assignTo (.ident id) value :: parts ++ [.ident id])
  | .objectPattern members, value => do
    match members with
    | [.shorthand name none] => return .assignTo (.ident name) (value.read name.name)
    | _ =>
      let id ← Declaring.newVar "_ref"
      let parts ← Property.assignMembers id members
      return .sequence (.assignTo (.ident id) value :: parts ++ [.ident id])
  | .withDefault target otherwise, value => do
    let id ← Declaring.newVar "_ref"
    let rest ← target.assignParts (orDefault id otherwise)
    return .sequence [.assignTo (.ident id) value, rest]
  | target, value => return .assignTo target value

def Expr.assignElements (id : Ident) (i : Nat) : List Expr → Declaring (List Expr)
  | [] => return []
  | .hole :: items => Expr.assignElements id (i + 1) items
  | .spread target :: _ => return [← target.assignParts (restOf id i)]
  | target :: items => do
    let e ← target.assignParts (.element (.ident id) i)
    return e :: (← Expr.assignElements id (i + 1) items)

def Property.assignMembers (id : Ident) : List Property → Declaring (List Expr)
  | [] => return []
  | .shorthand name none :: ps => do
    let e := Expr.assignTo (.ident name) ((Expr.ident id).read name.name)
    return e :: (← Property.assignMembers id ps)
  | .shorthand name (some otherwise) :: ps => do
    let holder ← Declaring.newVar "_ref"
    let e := Expr.assignTo (.ident holder) ((Expr.ident id).read name.name)
    let e' := Expr.assignTo (.ident name) (orDefault holder otherwise)
    return e :: e' :: (← Property.assignMembers id ps)
  | .keyValue key target :: ps => do
    let e ← target.assignParts ((Expr.ident id).memberOf key)
    return e :: (← Property.assignMembers id ps)
  | _ :: ps => Property.assignMembers id ps

end

/-- The assignment of a written out array whose own value nobody reads. -/
def assignEach (items values : List Expr) : Declaring Expr := do
  let parts ← (items.zip values).filterMapM fun (target, value) =>
    match target with
    | .hole => return none
    | .spread _ => return none
    | target => return some (← target.assignParts (firstValue [value]))
  let rest ← items.zipIdx.filterMapM fun (target, i) =>
    match target with
    | .spread target => return some (← target.assignParts (.array (values.drop i)))
    | _ => return none
  match parts ++ rest with
  | [e] => return e
  | es => return .sequence es

/-! ## Rewriting -/

/-- The declarations in the head of a loop, with a plain variable, and what
then unpacks it. -/
def unpackHead (head : Stmt) : Fresh (Stmt × List Stmt) := do
  match head with
  | .vars kind [.mk target none] =>
    if !isPattern target then return (head, [])
    let id ← freshIdent "ref"
    let decls ← unpackDeclarators [.mk target (some (.ident id))]
    return (.vars kind [.mk (.ident id) none], [.vars kind (decls.map (·.decl))])
  | _ => return (head, [])

def lowerPatterns (r : Rewrite Declaring) : Rewrite Declaring
  | .stmt, .expr (.assign .assign (.arrayPattern items) value) => do
    let items ← r.patterns items
    let value ← r.expr value
    match matchingElements? items value with
    | some values => return .expr (← assignEach items values)
    | none => return .expr (← (Expr.arrayPattern items).assignParts value)
  | .expr, .assign .assign target value => do
    let target ← r.pattern target
    let value ← r.expr value
    target.assignParts value
  | .stmt, .vars kind decls => do
    let decls ← decls.mapM r.declarator
    return .vars kind ((← unpackDeclarators decls).map (·.decl))
  | .stmt, .forIn head subject body => do
    let (head, unpacking) ← unpackHead (← r.forHead head)
    let subject ← r.expr subject
    let body ← r.stmt body
    return .forIn head subject (if unpacking.isEmpty then body else .block (unpacking ++ body.asBlock))
  | .stmt, .handler (some param) body => do
    let param ← r.pattern param
    let body ← r.stmts body
    if !isPattern param then return .handler (some param) body
    let id ← freshIdent "_ref"
    let decls ← unpackDeclarators [.mk param (some (.ident id))]
    return .handler (some (.ident id)) (.vars .letKind (decls.map (·.decl)) :: body)
  | .stmts, body => Declaring.eachStmt (fun s => return [← r.stmt s]) body
  | .items, items => Declaring.eachItem (fun
    | .exportDecl (.vars kind decls) => do
      let decls ← decls.mapM r.declarator
      let unpacked ← unpackDeclarators decls
      let (holders, bound) := unpacked.partition (·.isHolder)
      return (declareVars (holders.map (·.decl))).map .stmt ++
        [.exportDecl (.vars kind (bound.map (·.decl)))]
    | i => return [← r.itemChildren i]) items
  | k, x => r.mapChildren k x

end Bundler.Script
