/-
Loops over the values of an iterator, as loops that ask the iterator for each
value and close it when they are left early.
-/
import Bundler.Script.Lowering.Basic

namespace Bundler.Script

/-- The statement that gives each value to what the head of a loop names. -/
def takeValue (head : Stmt) (value : Expr) : Stmt :=
  match head with
  | .vars kind (.mk target _ :: _) => .vars kind [.mk target (some value)]
  | .expr target => .assign target value
  | s => s

def labeled (label : Option String) (s : Stmt) : Stmt :=
  match label with
  | some l => .labeled l s
  | none => s

/-- A loop over an array that is written out: it counts. -/
def countingLoop (label : Option String) (head : Stmt) (array : Expr) (body : List Stmt) : Fresh Stmt := do
  let items ← freshIdent "_iter"
  let index ← freshIdent "_i"
  let value := Expr.member (.ident items) (.computed (.ident index))
  return labeled label (.forLoop
    (some (.vars .letKind [.mk (.ident index) (some (.num 0)), .mk (.ident items) (some array)]))
    (some (.binary .lt (.ident index) (.member (.ident items) (.name "length"))))
    (some (.update .increment false (.ident index)))
    (.block (takeValue head value :: body)))

/-- A loop over what an iterator gives. -/
def iteratorLoop (label : Option String) (head : Stmt) (subject : Expr) (body : List Stmt) :
    Declaring Stmt := do
  let step ← freshIdent "_step"
  let iterator ← freshIdent "_iterator"
  let isComplete ← freshIdent "_iteratorNormalCompletion"
  let hasError ← freshIdent "_didIteratorError"
  let error ← freshIdent "_iteratorError"
  Declaring.declare (.mk (.ident isComplete) (some (.bool true)))
  Declaring.declare (.mk (.ident hasError) (some (.bool false)))
  Declaring.declare (.mk (.ident error) (some (.globalName "undefined")))
  let iterators := Expr.call (.member subject (.computed ((Expr.globalName "Symbol").read "iterator"))) []
  let next := Expr.assignTo (.ident step) ((Expr.ident iterator).callMember "next" [])
  let isDone := Expr.assignTo (.ident isComplete) (.member (.paren next) (.name "done"))
  let loop := labeled label (.forLoop
    (some (.vars .letKind [.mk (.ident iterator) (some iterators), .mk (.ident step) none]))
    (some (.unary .not isDone))
    (some (.assignTo (.ident isComplete) (.bool true)))
    (.block (takeValue head ((Expr.ident step).read "value") :: body)))
  let caught ← freshIdent "err"
  let handler := Stmt.handler (some (.ident caught))
    [.assign (.ident hasError) (.bool true), .assign (.ident error) (.ident caught)]
  let mustClose := Expr.binary .and (.unary .not (.ident isComplete))
    (.binary .notEq ((Expr.ident iterator).read "return") (.lit .null))
  let close := Stmt.cond mustClose
    (.block [.expr ((Expr.ident iterator).callMember "return" [])]) none
  let rethrow := Stmt.cond (.ident hasError) (.block [.throw (.ident error)]) none
  let finalizer := Stmt.block [.tryCatch [close] none (some (.block [rethrow]))]
  return .tryCatch [loop] (some handler) (some finalizer)

def plainLoop (label : Option String) (head : Stmt) (subject : Expr) (body : Stmt) : Declaring Stmt := do
  match subject with
  | .array .. => countingLoop label head subject body.asBlock
  | _ => iteratorLoop label head subject body.asBlock

def lowerLoops (r : Rewrite Declaring) : Rewrite Declaring
  | .stmt, .labeled label (.forOf _ _ head subject body) => do
    let head ← r.forHead head
    let subject ← r.expr subject
    plainLoop (some label) head subject (← r.stmt body)
  | .stmt, .forOf _ _ head subject body => do
    let head ← r.forHead head
    let subject ← r.expr subject
    plainLoop none head subject (← r.stmt body)
  | .stmts, body => Declaring.eachStmt (fun s => return [← r.stmt s]) body
  | .items, items => Declaring.eachItem (fun i => return [← r.itemChildren i]) items
  | k, x => r.mapChildren k x

end Bundler.Script
