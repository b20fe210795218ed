/-
The constructs that a module may not use once it is the body of a function:
`await` and `for await` outside functions, and `import.meta` anywhere.
`Module.unsupported` lists those a module holds, in the order in which the
parts of the tree are visited; the first of them is the one that is told.

A class is searched before what it extends, and a `do` loop's test before its
body. Constructors, and the accessors of object literals, belong to what
surrounds them: they cannot hold an `await` of their own.
-/
import Bundler.Script.Tree

namespace Bundler.Script

inductive UnsupportedConstruct where
  | topLevelAwait
  | topLevelForAwait
  | importMeta
deriving BEq, DecidableEq, Repr

def UnsupportedConstruct.text : UnsupportedConstruct → String
  | .topLevelAwait => "top-level await"
  | .topLevelForAwait => "top-level for await"
  | .importMeta => "import.meta"

/-- A construct and where in the source it starts. -/
structure Unsupported where
  construct : UnsupportedConstruct
  offset : Nat
deriving BEq, DecidableEq, Repr

/-- A construct that is refused outside functions alone. -/
def outsideFunctions (inFunction : Bool) (found : Unsupported) : List Unsupported :=
  if inFunction then [] else [found]

/-- Whether the function of an object's member is a scope for `await`. -/
def MethodKind.isAwaitScope : MethodKind → Bool
  | .method => true
  | .getter | .setter | .constructor => false

/-- Whether the function of a class's member is a scope for `await`. -/
def MethodKind.isAwaitScopeInClass : MethodKind → Bool
  | .constructor => false
  | .method | .getter | .setter => true

mutual

def Expr.unsupported (inFunction : Bool) : Expr → List Unsupported
  | .await offset arg =>
    outsideFunctions inFunction ⟨.topLevelAwait, offset⟩ ++ arg.unsupported inFunction
  | .importMeta offset => [⟨.importMeta, offset⟩]
  | .func _ f | .arrow f _ => f.unsupported true
  | .cls _ parent members =>
    Property.unsupportedInClass inFunction members ++ Expr.unsupportedOption inFunction parent
  | .array items _ | .sequence items | .superCall items | .importCall _ items | .arrayPattern items =>
    Expr.unsupportedList inFunction items
  | .object members _ | .objectPattern members => Property.unsupportedList inFunction members
  | .unary _ e | .update _ _ e | .chain _ e | .paren e | .spread e => e.unsupported inFunction
  | .binary _ a b | .assign _ a b | .withDefault a b =>
    a.unsupported inFunction ++ b.unsupported inFunction
  | .cond a b c =>
    a.unsupported inFunction ++ b.unsupported inFunction ++ c.unsupported inFunction
  | .member e key => e.unsupported inFunction ++ key.unsupported inFunction
  | .superMember key => key.unsupported inFunction
  | .call e args _ | .new e args _ | .tagged e _ args =>
    e.unsupported inFunction ++ Expr.unsupportedList inFunction args
  | .template _ es => Expr.unsupportedList inFunction es
  | .yield _ arg => Expr.unsupportedOption inFunction arg
  | .this | .ident _ | .lit _ | .newTarget | .privateName _ | .hole | .invalid => []

def Expr.unsupportedList (inFunction : Bool) : List Expr → List Unsupported
  | [] => []
  | e :: es => e.unsupported inFunction ++ Expr.unsupportedList inFunction es

def Expr.unsupportedOption (inFunction : Bool) : Option Expr → List Unsupported
  | none => []
  | some e => e.unsupported inFunction

def Key.unsupported (inFunction : Bool) : Key → List Unsupported
  | .computed e => e.unsupported inFunction
  | _ => []

/-- Searches a member of an object. -/
def Property.unsupported (inFunction : Bool) : Property → List Unsupported
  | .shorthand _ value => Expr.unsupportedOption inFunction value
  | .keyValue key e => key.unsupported inFunction ++ e.unsupported inFunction
  | .method _ kind key f =>
    key.unsupported inFunction ++ f.unsupported (inFunction || kind.isAwaitScope)
  | .spread e => e.unsupported inFunction
  | .field _ key value => key.unsupported inFunction ++ Expr.unsupportedOption inFunction value
  | .staticBlock body => Stmt.unsupportedList inFunction body
  | .empty => []

def Property.unsupportedList (inFunction : Bool) : List Property → List Unsupported
  | [] => []
  | p :: ps => p.unsupported inFunction ++ Property.unsupportedList inFunction ps

/-- Searches the members of a class. -/
def Property.unsupportedInClass (inFunction : Bool) : List Property → List Unsupported
  | [] => []
  | .method _ kind key f :: ps =>
    key.unsupported inFunction ++ f.unsupported (inFunction || kind.isAwaitScopeInClass) ++
      Property.unsupportedInClass inFunction ps
  | p :: ps => p.unsupported inFunction ++ Property.unsupportedInClass inFunction ps

def Func.unsupported (inFunction : Bool) : Func → List Unsupported
  | .mk params body _ _ =>
    Expr.unsupportedList inFunction params ++ Stmt.unsupportedList inFunction body

def Stmt.unsupported (inFunction : Bool) : Stmt → List Unsupported
  | .forOf isAwait offset head e s =>
    (if isAwait then outsideFunctions inFunction ⟨.topLevelForAwait, offset⟩ else []) ++
      head.unsupported inFunction ++ e.unsupported inFunction ++ s.unsupported inFunction
  | .func _ f => f.unsupported true
  | .cls _ parent members =>
    Property.unsupportedInClass inFunction members ++ Expr.unsupportedOption inFunction parent
  | .expr e | .throw e => e.unsupported inFunction
  | .block body => Stmt.unsupportedList inFunction body
  | .withIn e s | .whileLoop e s | .doWhile s e =>
    e.unsupported inFunction ++ s.unsupported inFunction
  | .ret arg => Expr.unsupportedOption inFunction arg
  | .labeled _ s => s.unsupported inFunction
  | .cond e yes no =>
    e.unsupported inFunction ++ yes.unsupported inFunction ++ Stmt.unsupportedOption inFunction no
  | .switch e cases => e.unsupported inFunction ++ Stmt.unsupportedList inFunction cases
  | .clause e body => Expr.unsupportedOption inFunction e ++ Stmt.unsupportedList inFunction body
  | .tryCatch body handler finalizer =>
    Stmt.unsupportedList inFunction body ++ Stmt.unsupportedOption inFunction handler ++
      Stmt.unsupportedOption inFunction finalizer
  | .handler param body =>
    Expr.unsupportedOption inFunction param ++ Stmt.unsupportedList inFunction body
  | .forLoop init e update s =>
    Stmt.unsupportedOption inFunction init ++ Expr.unsupportedOption inFunction e ++
      Expr.unsupportedOption inFunction update ++ s.unsupported inFunction
  | .forIn head e s =>
    head.unsupported inFunction ++ e.unsupported inFunction ++ s.unsupported inFunction
  | .vars _ decls => Declarator.unsupportedList inFunction decls
  | .empty | .debugger | .breakTo _ | .continueTo _ => []

def Stmt.unsupportedList (inFunction : Bool) : List Stmt → List Unsupported
  | [] => []
  | s :: ss => s.unsupported inFunction ++ Stmt.unsupportedList inFunction ss

def Stmt.unsupportedOption (inFunction : Bool) : Option Stmt → List Unsupported
  | none => []
  | some s => s.unsupported inFunction

def Declarator.unsupported (inFunction : Bool) : Declarator → List Unsupported
  | .mk target init => target.unsupported inFunction ++ Expr.unsupportedOption inFunction init

def Declarator.unsupportedList (inFunction : Bool) : List Declarator → List Unsupported
  | [] => []
  | d :: ds => d.unsupported inFunction ++ Declarator.unsupportedList inFunction ds

end

def ModuleItem.unsupported : ModuleItem → List Unsupported
  | .stmt s | .exportDecl s => s.unsupported false
  | .exportDefault (.expr e) => e.unsupported false
  | .exportDefault (.func _ f) => f.unsupported true
  | .exportDefault (.cls _ parent members) =>
    Property.unsupportedInClass false members ++ Expr.unsupportedOption false parent
  | .imports .. | .exportNamed .. | .exportAll _ => []

/-- All constructs of a module that its generated code could not hold. -/
def Module.unsupported (m : Module) : List Unsupported :=
  m.items.flatMap ModuleItem.unsupported

end Bundler.Script
