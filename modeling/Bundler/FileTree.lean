/-
A tree of files and directories as the paths of a file system see it. A path
is followed name by name from the root or the working directory, so that `..`
goes up from a directory that is there, and a name after a file, even an
empty one, is an error.
-/
import Bundler.Storage

namespace Bundler

/-- Where something is, from the root down. -/
abbrev Place := List Segment

inductive FileNode where
  | directory
  | file (contents : List UInt8)
deriving DecidableEq, Repr

/-- What is below the root, and the place that relative paths start from. -/
structure FileTree where
  nodes : List (Place × FileNode) := []
  workingDirectory : Place := []
deriving Inhabited

namespace FileTree

/-- What is at a place. The root is a directory. -/
def get? (t : FileTree) (at_ : Place) : Option FileNode :=
  if at_.isEmpty then some .directory else (t.nodes.find? fun n => n.1 = at_).map (·.2)

def put (t : FileTree) (at_ : Place) (node : FileNode) : FileTree :=
  { t with nodes := (at_, node) :: t.nodes.filter fun n => n.1 ≠ at_ }

/-! ## Following a path -/

/-- The longest name a file can have. -/
def maxNameLength : Nat := 255
/-- The longest path, with the byte that ends it. -/
def maxPathLength : Nat := 4096

/-- Follows names from a place that something may be at. -/
def walk (t : FileTree) (at_ : Place) : List Segment → Except FileError Place
  | [] => .ok at_
  | s :: rest =>
    match t.get? at_ with
    | none => .error .notFound
    | some (.file _) => .error .notADirectory
    | some .directory =>
      if Path.isSkipped s then t.walk at_ rest
      else if s = [Path.dot, Path.dot] then t.walk at_.dropLast rest
      else if s.length > maxNameLength then .error .nameTooLong
      else t.walk (at_ ++ [s]) rest

/-- Where a path starts, and its names from there. -/
def beginning (t : FileTree) (p : Path) : Except FileError (Place × List Segment) :=
  if p.bytes.contains 0 then .error .invalidName
  else if p.bytes.isEmpty then .error .notFound
  else if p.bytes.length ≥ maxPathLength then .error .nameTooLong
  else .ok (if p.isAbsolute then [] else t.workingDirectory, Path.splitSlashes p.bytes)

/-- The place a path leads to. Nothing need be there. -/
def locate (t : FileTree) (p : Path) : Except FileError Place := do
  let (start, names) ← t.beginning p
  t.walk start names

/-- Names without the empty ones at the end, and whether there were any. -/
def splitEnd (names : List Segment) : List Segment × Bool :=
  let kept := (names.reverse.dropWhile List.isEmpty).reverse
  (kept, kept.length < names.length)

/-- Whether the last of some names stands for a directory that is there. -/
def endsInDots (names : List Segment) : Bool :=
  match names.getLast? with
  | none => true
  | some s => s = [Path.dot] || s = [Path.dot, Path.dot]

/-! ## Reading -/

def isFile (t : FileTree) (p : Path) : Bool :=
  match (t.locate p).toOption.bind t.get? with
  | some (.file _) => true
  | _ => false

def isDirectory (t : FileTree) (p : Path) : Bool :=
  match (t.locate p).toOption.bind t.get? with
  | some .directory => true
  | _ => false

/-- The bytes of a file. -/
def readBytes (t : FileTree) (p : Path) : Except FileError (List UInt8) := do
  match t.get? (← t.locate p) with
  | none => .error .notFound
  | some .directory => .error .isADirectory
  | some (.file contents) => .ok contents

/-- A file as text. -/
def readText (t : FileTree) (p : Path) : Except FileError String := do
  match Utf8.decode? (← t.readBytes p) with
  | some text => .ok text
  | none => .error .notText

/-! ## Writing -/

/-- Makes one directory, in one that is there. -/
def makeDirectory (t : FileTree) (p : Path) : Except FileError FileTree := do
  let (start, names) ← t.beginning p
  let (names, _) := splitEnd names
  if endsInDots names then
    let _ ← t.walk start names
    .error .alreadyExists
  else
    let place ← t.walk start names
    match t.get? place with
    | some _ => .error .alreadyExists
    | none => .ok (t.put place .directory)

/-- The paths above a path, the nearest first. -/
def pathsAbove (p : Path) : List Path := go p.bytes.length p
where
  go : Nat → Path → List Path
    | 0, _ => []
    | n + 1, p =>
      match p.parent? with
      | none => []
      | some q => q :: go n q

/-- Makes a directory, unless it is there. -/
def ensureDirectory (t : FileTree) (p : Path) : Except FileError FileTree :=
  match t.makeDirectory p with
  | .ok t => .ok t
  | .error e => if t.isDirectory p then .ok t else .error e

/-- Makes a directory, and those above it where one is missing. They are given
with the nearest first. The path without a name needs none. -/
def makeDirectoriesFrom (t : FileTree) (p : Path) (above : List Path) :
    Except FileError Unit × FileTree :=
  if p.bytes.isEmpty then (.ok (), t)
  else
    match t.ensureDirectory p, above with
    | .ok t, _ => (.ok (), t)
    | .error .notFound, parent :: above =>
      match t.makeDirectoriesFrom parent above with
      | (.error e, t) => (.error e, t)
      | (.ok (), t) =>
        match t.ensureDirectory p with
        | .ok t => (.ok (), t)
        | .error e => (.error e, t)
    | .error e, _ => (.error e, t)

def makeDirectories (t : FileTree) (p : Path) : Except FileError Unit × FileTree :=
  t.makeDirectoriesFrom p (pathsAbove p)

/-- Writes a file in a directory that is there. -/
def writeBytes (t : FileTree) (p : Path) (contents : List UInt8) : Except FileError FileTree := do
  let (start, names) ← t.beginning p
  let (names, slashAtEnd) := splitEnd names
  let place ← t.walk start names
  if slashAtEnd || endsInDots names then .error .isADirectory
  else
    match t.get? place with
    | some .directory => .error .isADirectory
    | _ => .ok (t.put place (.file contents))

/-- Writes a file, and makes the directories it is in. -/
def writeText (t : FileTree) (p : Path) (text : String) : Except FileError Unit × FileTree :=
  let (made, t) :=
    match p.parent? with
    | some parent => t.makeDirectories parent
    | none => (.ok (), t)
  match made with
  | .error e => (.error e, t)
  | .ok () =>
    match t.writeBytes p (Utf8.encode text) with
    | .ok t => (.ok (), t)
    | .error e => (.error e, t)

instance : Storage FileTree where
  read := readText
  write := writeText
  size t := t.nodes.length

end FileTree

end Bundler
