/-
Literals in older syntax: templates are concatenated, members of objects have
plain keys and are not abbreviated, and regular expressions with newer flags
are made at run time.
-/
import Bundler.Script.Lowering.Basic

namespace Bundler.Script

/-! ## Regular expressions -/

/-- Whether a regular expression needs more than older engines know. -/
def needsNewerRegExp (source flags : String) : Bool :=
  flags.contains 'u' || flags.contains 'y' || (source.splitOn "(?<!").length > 1

def lowerRegExps (r : Rewrite Fresh) : Rewrite Fresh
  | .expr, .lit (.regex source flags) =>
    if needsNewerRegExp source flags then
      return .call (.globalName "RegExp")
        (.str source :: (if flags.isEmpty then [] else [.str flags]))
    else return .lit (.regex source flags)
  | k, x => r.mapChildren k x

/-! ## Templates -/

def isLiteral : Expr → Bool
  | .lit _ => true
  | _ => false

/-- The value of a stretch of a template, or its source if it has none. -/
def Quasi.value (q : Quasi) : Expr := .str (q.cooked.getD q.raw)

/-- What follows the first stretch of a template; empty stretches are left
out. -/
def templatePieces : List Quasi → List Expr → List Expr
  | q :: qs, e :: es =>
    e :: (if (q.cooked.getD q.raw).isEmpty then [] else [q.value]) ++ templatePieces qs es
  | _, _ => []

/-- Calls `concat` on what stands before, with the parts in groups: a group
holds one part that is no literal, since the order in which several were
turned into strings could be seen. -/
def concatParts (object : Expr) (group : List Expr) : List Expr → Expr
  | [] => if group.isEmpty then object else object.callMember "concat" group
  | part :: rest =>
    if isLiteral part || group.all isLiteral then concatParts object (group ++ [part]) rest
    else concatParts (object.callMember "concat" group) [part] rest

/-- Whether an escape stands in a template, so that source and value differ. -/
def hasEscape (quasis : List Quasi) : Bool :=
  quasis.any fun q => q.cooked != some q.raw

/-- The array that a template's tag is called with. It is made at the first
call and kept. -/
def templateObject (name : Ident) (quasis : List Quasi) : Fresh Stmt := do
  let data ← freshIdent "data"
  let cooked := quasis.map fun q => (q.cooked.map Expr.str).getD .undefined
  let raw := if hasEscape quasis then [Expr.array (quasis.map fun q => .str q.raw)] else []
  let keep := Expr.functionOf [] [.ret (some (.ident data))]
  return .func name (.mk []
    [.declare .constKind data (callHelper "_tagged_template_literal" (.array cooked :: raw)),
     .assign (.ident name) keep,
     .ret (some (.ident data))] false false)

/-- Collects the functions that make arrays for tags. -/
abbrev Tagging := StateT (List Stmt) Fresh

def lowerTemplates (r : Rewrite Tagging) : Rewrite Tagging
  | .expr, .template quasis exprs => do
    let exprs ← r.exprs exprs
    let first := (quasis.head?.map Quasi.value).getD (.str "")
    return concatParts first [] (templatePieces quasis.tail exprs)
  | .expr, .tagged tag quasis exprs => do
    let tag ← r.expr tag
    let exprs ← r.exprs exprs
    let name ← freshIdent "_templateObject"
    let make ← templateObject name quasis
    modify (· ++ [make])
    return .call tag (.call (.ident name) [] :: exprs)
  | .items, items => do
    let items ← items.mapM r.itemChildren
    return prependItems (← getModify fun _ => []) items
  | k, x => r.mapChildren k x

/-! ## Members of objects -/

/-- The key `__proto__` written out would set the prototype; computed, it is a
key like others. -/
def Key.withoutPrototype : Key → Key
  | .name "__proto__" => .computed (.str "__proto__")
  | .str "__proto__" raw => .computed (.lit (.str "__proto__" raw))
  | key => key

/-- Writes members of objects out in full. -/
def lowerShorthands (r : Rewrite Fresh) : Rewrite Fresh
  | .property, .shorthand id none =>
    return .keyValue (Key.withoutPrototype (.name id.name)) (.ident id)
  | .property, .method _ .method key f =>
    return .keyValue (← r.key key.withoutPrototype) (.func none (← r.func f))
  | k, x => r.mapChildren k x

/-- The names that earlier members of an object have given values or getters,
and setters. -/
structure SeenKeys where
  values : List String := []
  setters : List String := []

def Key.text? : Key → Option String
  | .name n => some n
  | .str value _ => some value
  | .computed (.lit (.str value _)) => some value
  | _ => none

def Key.isPlain : Key → Bool
  | .name _ | .str .. => true
  | _ => false

/-- A key that may stand but once is computed when it stands again. -/
def Key.onlyOnce (seen : List String) (key : Key) : Key × List String :=
  match key.text? with
  | none => (key, seen)
  | some text =>
    (if key.isPlain && seen.contains text then .computed key.toExpr else key, text :: seen)

def uniqueKey (seen : SeenKeys) : Property → Property × SeenKeys
  | .keyValue key value =>
    let (key, values) := key.onlyOnce seen.values
    let (key, setters) := key.onlyOnce seen.setters
    (.keyValue key value, ⟨values, setters⟩)
  | .method isStatic .getter key f =>
    let (key, values) := key.onlyOnce seen.values
    (.method isStatic .getter key f, { seen with values })
  | .method isStatic .setter key f =>
    let (key, setters) := key.onlyOnce seen.setters
    (.method isStatic .setter key f, { seen with setters })
  | p => (p, seen)

def uniqueKeys (seen : SeenKeys) : List Property → List Property
  | [] => []
  | p :: ps =>
    let (p, seen) := uniqueKey seen p
    p :: uniqueKeys seen ps

/-- Makes the keys of each object differ. -/
def lowerRepeatedKeys (r : Rewrite Fresh) : Rewrite Fresh
  | .expr, .object members offsets => do
    return .object (uniqueKeys {} (← r.properties members)) offsets
  | k, x => r.mapChildren k x

def Key.isComputed : Key → Bool
  | .computed _ => true
  | _ => false

def Property.key? : Property → Option Key
  | .keyValue key _ | .method _ _ key _ | .field _ key _ => some key
  | _ => none

def Property.isComputed (p : Property) : Bool := p.key?.any Key.isComputed

/-- The member as arguments for the helper that defines it. -/
def Property.definition : Property → List Expr
  | .keyValue key value => [key.toExpr, value]
  | .shorthand id _ => [.str id.name, .ident id]
  | .method _ _ key f => [key.toExpr, .func none f]
  | .spread e => [e]
  | _ => []

/-- Defines the members of an object one by one, from the first computed key
on. -/
def lowerComputedKeys (r : Rewrite Declaring) : Rewrite Declaring
  | .expr, .object members offsets => do
    let members ← r.properties members
    let plain := members.takeWhile (!·.isComputed)
    match members.drop plain.length with
    | [] => return .object members offsets
    | [p] => return callHelper "_define_property" (.object plain :: p.definition)
    | rest =>
      let object ← Declaring.newVar "_obj"
      return .sequence (.assignTo (.ident object) (.object plain) ::
        rest.map (fun p => callHelper "_define_property" (.ident object :: p.definition)) ++
        [.ident object])
  | .stmts, body => Declaring.eachStmt (fun s => return [← r.stmt s]) body
  | .items, items => Declaring.eachItem (fun i => return [← r.itemChildren i]) items
  | k, x => r.mapChildren k x

end Bundler.Script
