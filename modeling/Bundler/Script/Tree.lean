/-
The syntax tree of a JavaScript module: expressions, properties, functions
and statements, and the import and export declarations around them.

Patterns are expressions that stand where something is bound or assigned;
the constructors that only a pattern may hold say so. A node holds what
printing needs. Offsets into the source stay on the few nodes that a
message can point at: `await`, `for await`, `import.meta`, and the elements
of a literal, which may turn out to be a pattern.
-/

namespace Bundler.Script

/-! ## Names and literals -/

/-- A name together with the scope that binds it. Two identifiers denote
the same variable exactly when both fields agree. Scope `0` holds the names
that no declaration of the module binds. -/
structure Ident where
  name : String
  scope : Nat := 0
deriving BEq, DecidableEq, Inhabited, Hashable, Repr

/-- A literal. A source spelling that is kept is printed as it stands. -/
inductive Literal where
  | null
  | bool (value : Bool)
  | num (text : String)
  | bigint (text : String)
  | str (value : String) (raw : Option String)
  | regex (source flags : String)
deriving BEq, Inhabited, Repr

/-- How far an import takes a module: it is evaluated, loaded but evaluated
later, or taken as its source. -/
inductive ImportPhase where
  | evaluation
  | deferred
  | source
deriving BEq, DecidableEq, Inhabited, Repr

/-- The word that asks for a phase. -/
def ImportPhase.word? : ImportPhase → Option String
  | .evaluation => none
  | .deferred => some "defer"
  | .source => some "source"

def ImportPhase.ofWord? (word : String) : Option ImportPhase :=
  if word == "defer" then some .deferred
  else if word == "source" then some .source
  else none

/-- One literal stretch of a template: its source text, and its value unless
an escape in it is malformed. -/
structure Quasi where
  raw : String
  cooked : Option String
deriving BEq, Inhabited, Repr

/-! ## Operators -/

inductive UnaryOp where
  | minus | plus | not | tilde | typeof | void | delete
deriving BEq, DecidableEq, Inhabited, Repr

inductive UpdateOp where
  | increment | decrement
deriving BEq, DecidableEq, Inhabited, Repr

inductive BinaryOp where
  | eq | notEq | strictEq | strictNotEq
  | lt | le | gt | ge | instanceof | isIn
  | shiftLeft | shiftRight | shiftRightZero
  | add | sub | mul | div | rem | exp
  | bitOr | bitXor | bitAnd
  | or | and | nullish
deriving BEq, DecidableEq, Inhabited, Repr

inductive AssignOp where
  | assign
  | compound (op : BinaryOp)
deriving BEq, DecidableEq, Inhabited, Repr

inductive VarKind where
  | var | letKind | constKind
deriving BEq, DecidableEq, Inhabited, Repr

/-- What a method of an object or a class is. -/
inductive MethodKind where
  | method | getter | setter | constructor
deriving BEq, DecidableEq, Inhabited, Repr

/-! ## Nodes -/

mutual

inductive Expr where
  | this
  | ident (id : Ident)
  | lit (value : Literal)
  /-- `offsets` are those of the elements in the source. -/
  | array (items : List Expr) (offsets : List Nat := [])
  /-- `offsets` are those of the values of `key: value` members and of the
  other members themselves. -/
  | object (members : List Property) (offsets : List Nat := [])
  | func (name : Option Ident) (f : Func)
  /-- A concise arrow function has one statement, a `return`. -/
  | arrow (f : Func) (isConcise : Bool)
  | cls (name : Option Ident) (parent : Option Expr) (members : List Property)
  | unary (op : UnaryOp) (arg : Expr)
  | update (op : UpdateOp) (leading : Bool) (arg : Expr)
  | binary (op : BinaryOp) (left right : Expr)
  | assign (op : AssignOp) (target value : Expr)
  | cond (test yes no : Expr)
  | member (object : Expr) (key : Key)
  | superMember (key : Key)
  /-- A call; `isPure` prints the mark that the call has no effects. -/
  | call (callee : Expr) (args : List Expr) (isPure : Bool := false)
  | superCall (args : List Expr)
  | importCall (phase : ImportPhase) (args : List Expr)
  /-- A link of an optional chain: `base` is a member access or a call, and
  `isOptional` tells whether `?.` stands before its last part. -/
  | chain (isOptional : Bool) (base : Expr)
  | new (callee : Expr) (args : List Expr) (hasParens : Bool := true)
  | sequence (items : List Expr)
  | template (quasis : List Quasi) (exprs : List Expr)
  | tagged (tag : Expr) (quasis : List Quasi) (exprs : List Expr)
  | yield (isDelegate : Bool) (arg : Option Expr)
  | await (offset : Nat) (arg : Expr)
  | newTarget
  | importMeta (offset : Nat)
  | paren (inner : Expr)
  | privateName (name : String)
  /-- A missing element of an array or an array pattern. -/
  | hole
  /-- `...e` among arguments or elements, or `...target` in a pattern. -/
  | spread (e : Expr)
  /-- Pattern only. -/
  | arrayPattern (items : List Expr)
  /-- Pattern only. -/
  | objectPattern (members : List Property)
  /-- Pattern only: `target = value`, where `value` is the default. -/
  | withDefault (target value : Expr)
  /-- Stands where an expression is missing; a parse that makes one also
  reports why. -/
  | invalid

/-- The key of a property, a method or a class field, and the part of a
member access after the object. -/
inductive Key where
  | name (name : String)
  | str (value : String) (raw : Option String)
  | num (text : String)
  | bigint (text : String)
  | computed (e : Expr)
  | priv (name : String)

/-- A member of an object literal, an object pattern or a class body. -/
inductive Property where
  /-- `a`, or `a = value`, which only a pattern may hold. -/
  | shorthand (id : Ident) (value : Option Expr)
  | keyValue (key : Key) (value : Expr)
  | method (isStatic : Bool) (kind : MethodKind) (key : Key) (f : Func)
  | spread (e : Expr)
  /-- Class only. -/
  | field (isStatic : Bool) (key : Key) (value : Option Expr)
  /-- Class only. -/
  | staticBlock (body : List Stmt)
  /-- Class only: a lone semicolon. -/
  | empty

/-- Parameters and body of a function. -/
inductive Func where
  | mk (params : List Expr) (body : List Stmt) (isAsync isGenerator : Bool)

inductive Stmt where
  | expr (e : Expr)
  | block (body : List Stmt)
  | empty
  | debugger
  | withIn (object : Expr) (body : Stmt)
  | ret (arg : Option Expr)
  | labeled (label : String) (body : Stmt)
  | breakTo (label : Option String)
  | continueTo (label : Option String)
  | cond (test : Expr) (yes : Stmt) (no : Option Stmt)
  /-- `cases` holds clauses only. -/
  | switch (subject : Expr) (cases : List Stmt)
  /-- A clause of a `switch`; the default clause has no test. -/
  | clause (test : Option Expr) (body : List Stmt)
  | throw (arg : Expr)
  /-- `handler` is a handler and `finalizer` a block. -/
  | tryCatch (body : List Stmt) (handler finalizer : Option Stmt)
  | handler (param : Option Expr) (body : List Stmt)
  | whileLoop (test : Expr) (body : Stmt)
  | doWhile (body : Stmt) (test : Expr)
  /-- The heads of loops are variable declarations or expressions. -/
  | forLoop (init : Option Stmt) (test update : Option Expr) (body : Stmt)
  | forIn (head : Stmt) (subject : Expr) (body : Stmt)
  | forOf (isAwait : Bool) (offset : Nat) (head : Stmt) (subject : Expr) (body : Stmt)
  | vars (kind : VarKind) (decls : List Declarator)
  | func (name : Ident) (f : Func)
  | cls (name : Ident) (parent : Option Expr) (members : List Property)

inductive Declarator where
  | mk (target : Expr) (init : Option Expr)

end

instance : Inhabited Expr := ⟨.invalid⟩
instance : Inhabited Stmt := ⟨.empty⟩
instance : Inhabited Property := ⟨.empty⟩
instance : Inhabited Key := ⟨.name ""⟩
instance : Inhabited Func := ⟨.mk [] [] false false⟩
instance : Inhabited Declarator := ⟨.mk .invalid none⟩

/-! ## Modules -/

/-- The name an import or export goes by outside its module; one written as
a string need not be an identifier. -/
inductive OuterName where
  | name (name : String)
  | str (value : String)
deriving BEq, Inhabited, Repr

def OuterName.text : OuterName → String
  | .name n => n
  | .str s => s

inductive ImportSpecifier where
  | default (id : Ident)
  | namespace (id : Ident)
  /-- `outer` is absent when the import keeps its name. -/
  | named (id : Ident) (outer : Option OuterName)
deriving Inhabited, Repr

inductive ExportSpecifier where
  | namespace (outer : OuterName)
  /-- `inner` is a name of this module, or of the one re-exported from;
  `outer` is absent when the export keeps its name. -/
  | named (inner : OuterName) (scope : Nat) (outer : Option OuterName)
deriving Inhabited, Repr

/-- What `export default` exports. -/
inductive DefaultExport where
  | expr (e : Expr)
  | func (name : Option Ident) (f : Func)
  | cls (name : Option Ident) (parent : Option Expr) (members : List Property)

inductive ModuleItem where
  | stmt (s : Stmt)
  | imports (specifiers : List ImportSpecifier) (source : String)
  | exportNamed (specifiers : List ExportSpecifier) (source : Option String)
  | exportAll (source : String)
  /-- `export` before a declaration. -/
  | exportDecl (decl : Stmt)
  | exportDefault (value : DefaultExport)

instance : Inhabited ModuleItem := ⟨.stmt .empty⟩

/-- A parsed module, and the text that offsets in it refer to. -/
structure Module where
  items : List ModuleItem
  text : List Char := []

/-- The import strings of a module in source order: those of `import`
declarations and of `export … from`. -/
def Module.importSources (m : Module) : List String :=
  m.items.filterMap fun
    | .imports _ source => some source
    | .exportNamed _ source => source
    | .exportAll source => some source
    | _ => none

end Bundler.Script
