/-
File paths, as the bytes of their names, and what they mean before any file
is looked at. A path is read as components: the root, the directory it
stands in, the one above, and names. `Path.normalize` gives the one path in
plain form that means the same: nothing empty, no `.` besides a lone one, and
`..` only where nothing is left to go up from.
-/
import Bundler.Text.Utf8

namespace Bundler

/-- A path, as bytes; they need not be text. -/
structure Path where
  bytes : List UInt8
deriving DecidableEq, Hashable, Inhabited, Repr

/-- A stretch of a path between slashes. -/
abbrev Segment := List UInt8

namespace Path

def slash : UInt8 := 0x2f
def dot : UInt8 := 0x2e

def ofString (s : String) : Path := ⟨Utf8.encode s⟩

/-- The text of a path, if its bytes are text. -/
def text? (p : Path) : Option String := Utf8.decode? p.bytes

/-- The path as messages show it. -/
def display (p : Path) : String := Utf8.decodeLossy p.bytes

/-- Cuts bytes at the slashes. -/
def splitSlashes : List UInt8 → List Segment
  | [] => [[]]
  | b :: rest =>
    match splitSlashes rest with
    | [] => [[b]]
    | s :: ss => if b = slash then [] :: s :: ss else (b :: s) :: ss

/-- Puts slashes between segments. -/
def joinSlashes : List Segment → List UInt8
  | [] => []
  | [s] => s
  | s :: ss => s ++ slash :: joinSlashes ss

/-! ## Components -/

inductive Component where
  | root
  | current
  | parent
  | name (segment : Segment)
deriving DecidableEq, Repr

def isAbsolute (p : Path) : Bool := p.bytes.head? == some slash

/-- The component a segment stands for, unless it stands for none: an empty
one, or a lone dot that something precedes. -/
def componentOf (isFirst : Bool) (s : Segment) : Option Component :=
  if s = [] then none
  else if s = [dot] then (if isFirst then some .current else none)
  else if s = [dot, dot] then some .parent
  else some (.name s)

/-- The components of segments that others precede. -/
def laterComponents (segments : List Segment) : List Component :=
  segments.filterMap (componentOf false)

def components (p : Path) : List Component :=
  match splitSlashes p.bytes with
  | [] => []
  | s :: ss =>
    if p.isAbsolute then .root :: laterComponents ss
    else (componentOf true s).toList ++ laterComponents ss

/-- Whether two paths have the same components. They then mean the same
file. -/
def same (p q : Path) : Bool := p.components == q.components

/-! ## Joining and parents -/

/-- A path as seen from a directory: an absolute one stays. -/
def join (base p : Path) : Path :=
  if p.isAbsolute then p
  else if base.bytes.isEmpty || base.bytes.getLast? == some slash then ⟨base.bytes ++ p.bytes⟩
  else ⟨base.bytes ++ slash :: p.bytes⟩

/-- Whether a segment is passed over when others precede it. -/
def isSkipped (s : Segment) : Bool := s.isEmpty || s == [dot]

/-- Drops the segments at the end that are passed over. The first one of a
relative path counts even if it is a dot. -/
def trimSegments (isAbsolute : Bool) (segments : List Segment) : List Segment :=
  let kept := (segments.reverse.dropWhile isSkipped).reverse
  match kept, segments with
  | [], s :: _ => if !isAbsolute && s == [dot] then [s] else []
  | _, _ => kept

/-- The directory a path is in. The root is in none, and neither is the path
without a name. -/
def parent? (p : Path) : Option Path :=
  if p.isAbsolute then
    match trimSegments true (splitSlashes p.bytes.tail) with
    | [] => none
    | segments => some ⟨slash :: joinSlashes (trimSegments true segments.dropLast)⟩
  else
    match trimSegments false (splitSlashes p.bytes) with
    | [] => none
    | segments => some ⟨joinSlashes (trimSegments false segments.dropLast)⟩

/-- The last name of a path, if it ends in one. -/
def fileName? (p : Path) : Option Segment :=
  match p.components.getLast? with
  | some (.name s) => some s
  | _ => none

/-! ## Plain form -/

/-- What is left of a path while it is read: how often it goes up from where
it starts, and the names it then goes down, the last one first. -/
structure Descent where
  isAbsolute : Bool
  ups : Nat := 0
  names : List Segment := []
deriving DecidableEq, Repr

/-- Goes one component further. Above the root is the root. -/
def Descent.step (d : Descent) : Component → Descent
  | .root => { d with isAbsolute := true }
  | .current => d
  | .name s => { d with names := s :: d.names }
  | .parent =>
    match d.names with
    | _ :: names => { d with names }
    | [] => if d.isAbsolute then d else { d with ups := d.ups + 1 }

/-- What a path means: where it starts, and how it goes from there. -/
def descent (p : Path) : Descent :=
  p.components.foldl Descent.step { isAbsolute := false }

/-- The path in plain form that goes a given way. -/
def Descent.toPath (d : Descent) : Path :=
  let segments := List.replicate d.ups [dot, dot] ++ d.names.reverse
  if d.isAbsolute then ⟨slash :: joinSlashes segments⟩
  else if segments.isEmpty then ⟨[dot]⟩
  else ⟨joinSlashes segments⟩

/-- The plain form of a path. -/
def normalize (p : Path) : Path := p.descent.toPath

/-- The plain form of a path as seen from a directory. -/
def absolutize (p cwd : Path) : Path := (cwd.join p).normalize

end Path

end Bundler
