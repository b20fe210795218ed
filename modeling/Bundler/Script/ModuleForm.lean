/-
Modules as function bodies over `require` and `exports`. Import and export
declarations become statements: a required module is held in a variable and
read at each use of an imported name, and exports are published through
getters, so both stay live where modules import each other.
-/
import Bundler.Script.Helper

namespace Bundler.Script

/-! ## Building expressions -/

def Expr.str (value : String) : Expr := .lit (.str value none)
def Expr.num (n : Nat) : Expr := .lit (.num (toString n))
def Expr.bool (b : Bool) : Expr := .lit (.bool b)
/-- `void 0`. -/
def Expr.undefined : Expr := .unary .void (.num 0)
def Expr.globalName (name : String) : Expr := .ident (.global name)

/-- Whether a text can be written as a name after a dot. -/
def isNameText (text : String) : Bool :=
  match text.toList with
  | [] => false
  | c :: rest => isNameStart c && rest.all isNamePart

/-- The key with this text, as a name if it is one. -/
def Key.ofText (text : String) : Key :=
  if isNameText text then .name text else .str text none

/-- The member with this key, read with a dot if that is possible. -/
def Expr.read (object : Expr) (text : String) : Expr :=
  .member object (if isNameText text then .name text else .computed (.str text))

def Expr.functionOf (params : List Expr) (body : List Stmt) : Expr :=
  .func none (.mk params body false false)

/-- `object.method(args)`. -/
def Expr.callMember (object : Expr) (method : String) (args : List Expr) : Expr :=
  .call (.member object (.name method)) args

def Stmt.declare (kind : VarKind) (id : Ident) (value : Expr) : Stmt :=
  .vars kind [.mk (.ident id) (some value)]

/-! ## Links to other modules -/

/-- One use that a module makes of another. -/
inductive Link where
  | importNamed (binding : Ident) (name : String)
  | importDefault (binding : Ident)
  | importNamespace (binding : Ident)
  | exportNamed (name outer : String)
  | exportDefault (outer : String)
  | exportNamespace (outer : String)
  | exportAll
deriving BEq

namespace Link

def ofImport : ImportSpecifier → Link
  | .default id => importDefault id
  | .namespace id => importNamespace id
  | .named id none => importNamed id id.name
  | .named id (some outer) =>
    if outer.text == "default" then importDefault id else importNamed id outer.text

def ofExport : ExportSpecifier → Link
  | .namespace outer => exportNamespace outer.text
  | .named inner _ outer =>
    let outer := (outer.getD inner).text
    if inner.text == "default" then exportDefault outer else exportNamed inner.text outer

/-- Whether the link reads a named export. -/
def isNamed : Link → Bool
  | importNamed .. | exportNamed .. => true
  | _ => false

/-- Whether the link reads the default export. -/
def isDefault : Link → Bool
  | importDefault _ | exportDefault _ => true
  | _ => false

/-- Whether the link takes the module as a whole. -/
def isNamespace : Link → Bool
  | importNamespace _ | exportNamespace _ => true
  | _ => false

end Link

/-- All links from a module to one other, in source order. -/
structure Requirement where
  source : String
  links : List Link

/-- Adds links to the requirement of a source, which stands where the source
was first named. -/
def addLinks (source : String) (links : List Link) : List Requirement → List Requirement
  | [] => [⟨source, links.eraseDups⟩]
  | r :: rest =>
    if r.source == source then { r with links := (r.links ++ links).eraseDups } :: rest
    else r :: addLinks source links rest

/-! ## Names for modules -/

/-- The file name that ends a specifier, without its last extension. -/
def specifierStem (specifier : String) : String :=
  match (specifier.splitOn "/").reverse.dropWhile (·.isEmpty) with
  | [] => ""
  | last :: rest =>
    if last == ".." then ""
    else if last == "." then
      if rest.isEmpty then "" else specifierStemOf rest
    else stem last
where
  stem (file : String) : String :=
    match file.splitOn "." with
    | [] | [_] => file
    | parts =>
      let front := parts.dropLast
      if front == [""] then file else ".".intercalate front
  /-- The stem of the last part that names something. -/
  specifierStemOf (parts : List String) : String :=
    match parts.dropWhile fun p => p.isEmpty || p == "." with
    | [] => ""
    | last :: _ => if last == ".." then "" else stem last

/-- The preferred name of the variable that holds a required module. -/
def moduleVariable (specifier : String) : String :=
  "_" ++ String.ofList ((specifierStem specifier).toList.filter isNamePart)

/-! ## What a module declares -/

/-- A published name, and what its getter gives. -/
structure Export where
  name : String
  value : Expr

/-- The declarations of a module, apart from its statements. -/
structure Declarations where
  requirements : List Requirement := []
  /-- The module's own variables, published under these names. -/
  exports : List (String × Ident) := []
  hasAny : Bool := false

/-- Publishes a variable; of two with one name the later one counts. -/
def Declarations.publish (d : Declarations) (name : String) (id : Ident) : Declarations :=
  { d with exports := d.exports.filter (·.1 != name) ++ [(name, id)] }

def Declarations.link (d : Declarations) (source : String) (links : List Link) : Declarations :=
  { d with requirements := addLinks source links d.requirements }

/-- The variables that a declaration declares. -/
def Stmt.declaredNames : Stmt → List Ident
  | .vars _ decls => declaredIdents decls
  | .func name _ => [name]
  | .cls name _ _ => [name]
  | _ => []

/-- Takes the declarations out of the items of a module and leaves its
statements. -/
def takeDeclarations (kind : VarKind) : List ModuleItem → Declarations → Fresh (Declarations × List Stmt)
  | [], d => return (d, [])
  | item :: rest, d => do
    let d' := match item with
      | .stmt _ => d
      | _ => { d with hasAny := true }
    let (d', own) ← match item with
      | .stmt s => pure (d', [s])
      | .imports specifiers source => pure (d'.link source (specifiers.map Link.ofImport), [])
      | .exportNamed specifiers (some source) =>
        pure (d'.link source (specifiers.map Link.ofExport), [])
      | .exportNamed specifiers none =>
        pure (specifiers.foldl publishSpecifier d', [])
      | .exportAll source => pure (d'.link source [.exportAll], [])
      | .exportDecl s =>
        pure (s.declaredNames.foldl (fun d id => d.publish id.name id) d', [s])
      | .exportDefault (.expr e) =>
        let id ← freshIdent "_default"
        pure (d'.publish "default" id, [.declare kind id e])
      | .exportDefault (.func name f) =>
        let id ← name.getDM (freshIdent "_default")
        pure (d'.publish "default" id, [.func id f])
      | .exportDefault (.cls name parent members) =>
        let id ← name.getDM (freshIdent "_default")
        pure (d'.publish "default" id, [.cls id parent members])
    let (d'', others) ← takeDeclarations kind rest d'
    return (d'', own ++ others)
where
  publishSpecifier (d : Declarations) : ExportSpecifier → Declarations
    | .named inner scope outer => d.publish (outer.getD inner).text ⟨inner.text, scope⟩
    | .namespace _ => d

/-! ## Reading imported names -/

/-- What stands for an imported name: the variable that holds its module, and
the export to read from it, unless the name is the module itself. -/
structure ImportedName where
  binding : Ident
  holder : Ident
  name : Option String

def ImportedName.value (i : ImportedName) : Expr :=
  match i.name with
  | some name => (Expr.ident i.holder).read name
  | none => .ident i.holder

/-- The names imported, and whether `this` is that of the module. -/
structure ReadContext where
  imported : List ImportedName
  atTop : Bool := true

abbrev Reading := ReaderT ReadContext Id

namespace Reading

def find (id : Ident) : Reading (Option ImportedName) :=
  return (← read).imported.find? (·.binding == id)

/-- A call or a template of an exported function must not pass the module as
`this`: the function is read in a sequence of its own. -/
def detached (e : Expr) : Reading Expr := do
  match e with
  | .ident id =>
    match ← find id with
    | some i => return if i.name.isSome then .sequence [.num 0, i.value] else i.value
    | none => return e
  | _ => return e

def isName : Expr → Bool
  | .ident _ => true
  | _ => false

/-- Rewrites what has a `this` of its own. -/
def inner {α : Type} (r : Reading α) : Reading α :=
  withReader (fun c => { c with atTop := false }) r

def step (r : Rewrite Reading) : Rewrite Reading
  | .expr, .ident id => do
    match ← find id with
    | some i => return i.value
    | none => return .ident id
  | .expr, .this => return if (← read).atTop then .undefined else .this
  | .expr, .call callee args isPure => do
    let callee ← if isName callee then detached callee else r.expr callee
    return .call callee (← r.exprs args) isPure
  | .expr, .tagged tag quasis exprs => do
    let tag ← if isName tag then detached tag else r.expr tag
    return .tagged tag quasis (← r.exprs exprs)
  | .expr, .arrow (.mk params body isAsync isGenerator) isConcise =>
    return .arrow (.mk (← r.patterns params) (← r.stmts body) isAsync isGenerator) isConcise
  | .property, .shorthand id none => do
    match ← find id with
    | some i => return .keyValue (.name id.name) i.value
    | none => return .shorthand id none
  | .property, .field isStatic key value => do
    let key ← r.key key
    return .field isStatic key (← inner (r.expr? value))
  | .property, .staticBlock body => return .staticBlock (← inner (r.stmts body))
  | .func, f => inner (r.funcChildren f)
  | k, x => r.mapChildren k x

end Reading

/-- Reads imported names from the modules that hold them. -/
def readImports (imported : List ImportedName) (body : List Stmt) : List Stmt :=
  (Rewrite.run Reading.step (stmtsDepthBound body)).stmts body { imported }

/-! ## Statements for declarations -/

/-- `require("source")`, with what a module does to the result. -/
def requireExpr (r : Requirement) : Expr :=
  let required := .call (.globalName "require") [.str r.source]
  let required :=
    if r.links.contains .exportAll then
      callHelper "_export_star" [required, .globalName "exports"]
    else required
  let hasDefault := r.links.any Link.isDefault
  if r.links.any Link.isNamespace || (hasDefault && r.links.any Link.isNamed) then
    callHelper "_interop_require_wildcard" [required] true
  else if hasDefault then callHelper "_interop_require_default" [required] true
  else required

/-- Whether a variable has to hold the required module. -/
def Requirement.isHeld (r : Requirement) : Bool :=
  r.links.any fun l => l.isNamed || l.isDefault || l.isNamespace

def requireStmt (kind : VarKind) (r : Requirement) (holder : Ident) : Stmt :=
  if r.isHeld then .declare kind holder (requireExpr r) else .expr (requireExpr r)

/-- The names a module imports from the one that `holder` holds. -/
def importedNames (r : Requirement) (holder : Ident) : List ImportedName :=
  r.links.filterMap fun
    | .importNamed id name => some ⟨id, holder, some name⟩
    | .importDefault id => some ⟨id, holder, some "default"⟩
    | .importNamespace id => some ⟨id, holder, none⟩
    | _ => none

/-- What a module exports from the one that `holder` holds. -/
def passedExports (r : Requirement) (holder : Ident) : List Export :=
  let whole := Expr.ident holder
  r.links.filterMap fun
    | .exportNamed name outer => some ⟨outer, whole.read name⟩
    | .exportDefault outer => some ⟨outer, whole.read "default"⟩
    | .exportNamespace outer => some ⟨outer, whole⟩
    | _ => none

def getter (e : Export) : Expr := .functionOf [] [.ret (some e.value)]

/-- `Object.defineProperty(exports, name, descriptor)`. -/
def defineOnExports (name : String) (descriptor : List (String × Expr)) : Stmt :=
  .expr (.callMember (.globalName "Object") "defineProperty"
    [.globalName "exports", .str name,
      .object (descriptor.map fun (k, v) => .keyValue (.name k) v)])

/-- The statement that marks a module as one with declarations. -/
def moduleMark : Stmt := defineOnExports "__esModule" [("value", .bool true)]

/-- The statements that publish exports, sorted by name. -/
def exportStmts (exports : List Export) : Fresh (List Stmt) := do
  match exports.mergeSort fun a b => !(b.name < a.name) with
  | [] => return []
  | [e] => return [defineOnExports e.name [("enumerable", .bool true), ("get", getter e)]]
  | sorted =>
    let scope ← freshScope
    let name := functionName exportSource
    let definition ← Resolver.stmts [(scope, [name])] (readStmts exportSource)
    let members := sorted.map fun e => Property.keyValue (Key.ofText e.name) (getter e)
    let function : Ident := ⟨name, scope⟩
    let definition := definition.map fun
      | .func _ f => Stmt.func function f
      | s => s
    return definition ++ [.expr (.call (.ident function) [.globalName "exports", .object members])]

/-! ## The whole module -/

def useStrict : Stmt := .expr (.lit (.str "use strict" (some "\"use strict\"")))

/-- The directives that open a body, and the rest of it. -/
def splitDirectives (body : List Stmt) : List Stmt × List Stmt :=
  (body.takeWhile (·.directive?.isSome), body.dropWhile (·.directive?.isSome))

def isEmptyStmt : Stmt → Bool
  | .empty => true
  | _ => false

/-- Turns the items of a module into the body of its function. Variables for
required modules are declared with `kind`. -/
def moduleBody (kind : VarKind) (items : List ModuleItem) : Fresh (List Stmt) := do
  let leading := items.takeWhile fun
    | .stmt s => s.directive?.isSome
    | _ => false
  let directives := leading.filterMap fun
    | .stmt s => some s
    | _ => none
  let directives :=
    if directives.any fun s => s.directive?.any isUseStrict then directives
    else directives ++ [useStrict]
  let (d, body) ← takeDeclarations kind (items.drop leading.length) {}
  let holders ← d.requirements.mapM fun r => return (r, ← freshIdent (moduleVariable r.source))
  let exports := d.exports.map (fun (name, id) => Export.mk name (.ident id)) ++
    holders.flatMap fun (r, h) => passedExports r h
  let published ← exportStmts exports
  let requires := holders.map fun (r, h) => requireStmt kind r h
  let imported := holders.flatMap fun (r, h) => importedNames r h
  let body := body.filter (!isEmptyStmt ·)
  return directives ++ readImports imported
    ((if d.hasAny then [moduleMark] else []) ++ published ++ requires ++ body)

end Bundler.Script
