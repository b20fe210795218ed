/-
A TOML document as one table. Headers say which table the pairs after them
belong to; each table is defined once.
-/
import Bundler.Toml.Reader

namespace Bundler.Toml

/-- A document while it is read: what it says so far, and the header that the
next pairs are under. -/
structure Draft where
  entries : List Entry := []
  header : List Key := []

/-! ## Headers -/

/-- Changes the table at a path of headers. Missing steps are made; in an
array of tables the path goes on in the last one. -/
def atPath (change : List Entry → Except Fault (List Entry)) :
    List Key → List Entry → Except Fault (List Entry)
  | [], entries => change entries
  | key :: keys, entries =>
    match findEntry? entries key with
    | none => do
      return putEntry entries key (.table key.span .implied (← atPath change keys []))
    | some (.table span kind inner) => do
      return putEntry entries key (.table span kind (← atPath change keys inner))
    | some (.tables span last others) => do
      return putEntry entries key (.tables span (← atPath change keys last) others)
    | some _ => duplicateKey key

/-- Defines a table by its header. Steps of other headers may be there
already. -/
def defineTable (span : Span) (key : Key) (entries : List Entry) : Except Fault (List Entry) :=
  match findEntry? entries key with
  | none => .ok (putEntry entries key (.table span .defined []))
  | some (.table _ .implied inner) => .ok (putEntry entries key (.table span .defined inner))
  | some _ => duplicateKey key

/-- Adds a table to an array of tables. -/
def appendTable (span : Span) (key : Key) (entries : List Entry) : Except Fault (List Entry) :=
  match findEntry? entries key with
  | none => .ok (putEntry entries key (.tables span [] []))
  | some (.tables s last others) =>
    .ok (putEntry entries key (.tables s [] (.table s .defined last :: others)))
  | some _ => duplicateKey key

def Draft.addHeader (d : Draft) (span : Span) (isArray : Bool) (path : List Key) :
    Except Fault Draft :=
  match path.getLast? with
  | none => .ok d
  | some key => do
    let change := if isArray then appendTable span key else defineTable span key
    return { entries := ← atPath change path.dropLast d.entries, header := path }

def Draft.addPair (d : Draft) (key : List Key) (value : Value) : Except Fault Draft := do
  return { d with entries := ← atPath (fun es => addValue es value key) d.header d.entries }

/-! ## Lines -/

/-- A header, from its first bracket to its last. -/
def readHeader (c : Cursor) : Except Fault (Bool × List Key × Cursor) := do
  let isArray := c.startsWith "[["
  let (path, stop) ← readKey (c.rest.length + 1) (skipBlanks (c.drop (if isArray then 2 else 1)))
  let stop := skipBlanks stop
  if isArray then
    if stop.startsWith "]]" then return (true, path, stop.drop 2)
    else stop.fail "unclosed array table, expected `]]`"
  else if stop.startsWith "]" then return (false, path, stop.drop 1)
  else stop.fail "unclosed table, expected `]`"

/-- What a line holds besides blanks and comments. -/
def readLine (d : Draft) (c : Cursor) : Except Fault (Draft × Cursor) :=
  match c.rest with
  | [] | '#' :: _ | '\n' :: _ | '\r' :: _ => .ok (d, c)
  | '[' :: _ => do
    let (isArray, path, stop) ← readHeader c
    return (← d.addHeader (c.spanTo stop) isArray path, stop)
  | _ => do
    let (key, value, stop) ← readPair (c.rest.length + 1) c
    return (← d.addPair key value, stop)

/-- The lines of a document. The number bounds them. -/
def readLines : Nat → Draft → Cursor → Except Fault Draft
  | 0, d, _ => .ok d
  | lines + 1, d, c => do
    let (d, c) ← readLine d (skipBlanks c)
    let c ← skipComment (skipBlanks c)
    match lineEnd? c, c.rest with
    | some c, _ => readLines lines d c
    | none, [] => .ok d
    | none, _ => c.fail "unexpected key or value, expected newline, `#`"

/-- The table that a document is. A byte order mark before it does not
count. -/
def parse (text : String) : Except Fault (List Entry) := do
  let all : Cursor := ⟨0, text.toList⟩
  let start := if all.rest.head? = some '\ufeff' then all.drop 1 else all
  let d ← readLines (start.rest.length + 1) {} start
  return d.entries

end Bundler.Toml
