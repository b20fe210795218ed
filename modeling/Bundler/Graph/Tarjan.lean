/-
The strongly connected components of a graph, by one depth first search. A
node that has been met stays on a stack until its component is found; its
index is the number of nodes below it. A node from which no edge leads further
down the stack closes a component: all that is on the stack from it on.
-/

namespace Bundler.Graph

/-- How far a search has come. -/
structure Search (α : Type) where
  /-- The nodes met that have no component yet, in the order of meeting. -/
  stack : List α := []
  /-- The components, in the order in which they were found. -/
  found : List (List α) := []

namespace Search

variable {α : Type}

def push (s : Search α) (v : α) : Search α := { s with stack := s.stack ++ [v] }

/-- Makes a component of the stack from an index on. -/
def close (s : Search α) (index : Nat) : Search α :=
  { stack := s.stack.take index, found := s.found ++ [s.stack.drop index] }

end Search

variable {α : Type} [DecidableEq α]

/-- Goes along an edge to a node. One on the stack counts with its index, one
that has a component does not count, and any other is visited. `low` is the
lowest index so far. -/
def follow (visit : Search α → α → Nat × Search α) : Nat × Search α → α → Nat × Search α
  | (low, s), w =>
    if w ∈ s.stack then (min low (s.stack.idxOf w), s)
    else if w ∈ s.found.flatten then (low, s)
    else
      let (low', s) := visit s w
      (min low low', s)

/-- Visits a node that has not been met, and what can be reached from it, at
most `fuel` nodes deep. Gives the lowest index on the stack that was come
upon. -/
def visit (next : α → List α) : Nat → Search α → α → Nat × Search α
  | 0, s, _ => (s.stack.length, s)
  | fuel + 1, s, v =>
    let index := s.stack.length
    let (low, s) := (next v).foldl (follow (visit next fuel)) (index, s.push v)
    if low < index then (low, s) else (index, s.close index)

/-- Searches from a node, unless it has been met. -/
def search (next : α → List α) (fuel : Nat) (s : Search α) (v : α) : Search α :=
  (follow (visit next fuel) (s.stack.length, s) v).2

/-- The strongly connected components of the graph with these nodes. A
component comes after those its edges lead to. -/
def components (nodes : List α) (next : α → List α) : List (List α) :=
  (nodes.foldl (search next nodes.length) {}).found

end Bundler.Graph
