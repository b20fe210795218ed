/-
Where source files come from and the artifact goes. A storage reads a path as
text and writes text to a path; both can fail, and a write that fails may
still leave traces. The storage here is one in memory, which finds a file by
any path with the same components.
-/
import Bundler.Path

namespace Bundler

/-- Why a file was not read or written. -/
inductive FileError where
  | notFound
  | notADirectory
  | isADirectory
  | alreadyExists
  | nameTooLong
  /-- A path holds a byte that no file name can have. -/
  | invalidName
  /-- The bytes of a file are no text. -/
  | notText
  /-- A storage in memory has no such file. -/
  | notStored (path : Path)
  | readOnly
  /-- What else the system tells. -/
  | other (text : String)
deriving DecidableEq, Repr

def FileError.message : FileError → String
  | notFound => "No such file or directory (os error 2)"
  | notADirectory => "Not a directory (os error 20)"
  | isADirectory => "Is a directory (os error 21)"
  | alreadyExists => "File exists (os error 17)"
  | nameTooLong => "File name too long (os error 36)"
  | invalidName => "file name contained an unexpected NUL byte"
  | notText => "stream did not contain valid UTF-8"
  | notStored path => "file not found: " ++ path.display
  | readOnly => "storage is read-only"
  | other text => text

/-- What can be read from and written to. -/
class Storage (σ : Type) where
  read : σ → Path → Except FileError String
  write : σ → Path → String → Except FileError Unit × σ
  /-- At most so many paths in plain form can be read. -/
  size : σ → Nat

/-! ## Memory -/

/-- Files in memory. -/
structure MemoryStorage where
  files : List (Path × String) := []
  /-- The paths written to, in order. -/
  writes : List Path := []
  /-- Paths that cannot be written to. -/
  readOnly : List Path := []
deriving Inhabited

namespace MemoryStorage

def contents? (s : MemoryStorage) (p : Path) : Option String :=
  (s.files.find? fun f => f.1.same p).map (·.2)

/-- Adds a file, in place of the one that was there. -/
def add (s : MemoryStorage) (p : Path) (text : String) : MemoryStorage :=
  { s with files := (p, text) :: s.files.filter fun f => !f.1.same p }

def ofList (files : List (Path × String)) : MemoryStorage :=
  files.foldl (fun s f => s.add f.1 f.2) {}

instance : Storage MemoryStorage where
  read s p :=
    match s.contents? p with
    | some text => .ok text
    | none => .error (.notStored p)
  write s p text :=
    if s.readOnly.any (·.same p) then (.error .readOnly, s)
    else (.ok (), { s.add p text with writes := s.writes ++ [p] })
  size s := s.files.length

end MemoryStorage

end Bundler
