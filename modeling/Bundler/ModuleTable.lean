/-
Built modules, and the table that holds them. A table keeps records in the
order in which they were inserted, and the first record of each identity.
-/
import Bundler.ModuleId

namespace Bundler

/-! ## Dependency maps -/

/-- What the imports of a module mean, in the order of the imports. -/
abbrev DependencyMap := List (String × ModuleId)

namespace DependencyMap

/-- Gives a specifier its meaning. One that has a meaning already keeps its
place. -/
def insert (deps : DependencyMap) (specifier : String) (target : ModuleId) : DependencyMap :=
  match deps with
  | [] => [(specifier, target)]
  | (s, t) :: rest =>
    if s = specifier then (s, target) :: rest else (s, t) :: insert rest specifier target

def ofList (pairs : List (String × ModuleId)) : DependencyMap :=
  pairs.foldl (fun deps (s, t) => insert deps s t) []

def get? (deps : DependencyMap) (specifier : String) : Option ModuleId :=
  (deps.find? fun p => p.1 = specifier).map (·.2)

/-- The modules that imports mean, one for each import. -/
def targets (deps : DependencyMap) : List ModuleId := deps.map (·.2)

end DependencyMap

/-! ## Records -/

/-- A built module. -/
structure ModuleRecord where
  id : ModuleId
  /-- Generated code. -/
  code : String
  deps : DependencyMap
  /-- The digest of the source. -/
  contentHash : String
deriving DecidableEq, Inhabited, Repr

/-! ## Tables -/

/-- The modules of a bundle. -/
structure ModuleTable where
  records : List ModuleRecord := []
deriving DecidableEq, Inhabited, Repr

namespace ModuleTable

def ids (t : ModuleTable) : List ModuleId := t.records.map (·.id)

def get? (t : ModuleTable) (id : ModuleId) : Option ModuleRecord :=
  t.records.find? fun r => r.id = id

def contains (t : ModuleTable) (id : ModuleId) : Bool :=
  t.records.any fun r => r.id = id

/-- Adds a record, unless its identity has one already. -/
def insert (t : ModuleTable) (r : ModuleRecord) : ModuleTable :=
  if t.contains r.id then t else { records := t.records ++ [r] }

/-- Adds a record as `insert` does, and tells whether it was added. -/
def insertNew (t : ModuleTable) (r : ModuleRecord) : Bool × ModuleTable :=
  (!t.contains r.id, t.insert r)

def ofList (records : List ModuleRecord) : ModuleTable :=
  records.foldl insert {}

/-- The same records in the order of their identities. -/
def sort (t : ModuleTable) : ModuleTable :=
  { records := t.records.mergeSort fun a b => a.id.le b.id }

/-- An import whose meaning has no record. -/
structure MissingDependency where
  importer : ModuleId
  specifier : String
  target : ModuleId
deriving DecidableEq, Repr

/-- The imports whose meaning has no record, in the order of records and of
imports. -/
def missingDependencies (t : ModuleTable) : List MissingDependency :=
  t.records.flatMap fun r =>
    (r.deps.filter fun (_, target) => !t.contains target).map fun (specifier, target) =>
      ⟨r.id, specifier, target⟩

end ModuleTable

end Bundler
