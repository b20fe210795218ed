/-
What the loader of an artifact does, for modules whose bodies are given as
programs. A module has one exports object. It is made when the body starts,
and known from then on, so that modules that require each other meet the
same objects, if perhaps unfinished ones. A body that has started is never
started again, even if it failed.
-/
import Bundler.ModuleTable

namespace Bundler

/-- Why a module could not be loaded. -/
inductive LoadError where
  | unknownModule (module : ModuleId)
  /-- A module requires what is not among its dependencies. -/
  | unknownSpecifier (module : ModuleId) (specifier : String)
  /-- A body failed by itself. -/
  | thrown (module : ModuleId) (message : String)
deriving DecidableEq, Repr

def LoadError.message : LoadError → String
  | unknownModule module => "Cannot find module '" ++ module.text ++ "' in bundle"
  | unknownSpecifier module specifier =>
    "Cannot resolve '" ++ specifier ++ "' from module '" ++ module.text ++ "'"
  | thrown module message => "module '" ++ module.text ++ "' threw: " ++ message

/-- What an import of a module means, if it is among the module's
dependencies. -/
def DependencyMap.resolve (deps : DependencyMap) (importer : ModuleId) (specifier : String) :
    Except LoadError ModuleId :=
  match deps.get? specifier with
  | some target => .ok target
  | none => .error (.unknownSpecifier importer specifier)

/-! ## Exports -/

/-- What a module exports, in the order of the names. -/
abbrev Exports (α : Type) := List (String × α)

namespace Exports

variable {α : Type}

/-- Sets an export. -/
def set (exports : Exports α) (name : String) (value : α) : Exports α :=
  match exports with
  | [] => [(name, value)]
  | (n, v) :: rest =>
    if name < n then (name, value) :: (n, v) :: rest
    else if name = n then (name, value) :: rest
    else (n, v) :: set rest name value

def get? (exports : Exports α) (name : String) : Option α :=
  (exports.find? fun e => e.1 = name).map (·.2)

def names (exports : Exports α) : List String := exports.map (·.1)

end Exports

/-- One exports object among all there are. -/
structure ExportsRef where
  index : Nat
deriving DecidableEq, Inhabited, Repr

/-! ## Bodies -/

/-- What happens to bodies. -/
inductive LoadEvent where
  | started (module : ModuleId)
  /-- The body ended, well or not. -/
  | finished (module : ModuleId)
deriving DecidableEq, Repr

/-- What a body does. It acts on the exports objects that it holds, and
requires others. -/
inductive Body (α : Type) where
  | done
  | fail (error : LoadError)
  | require (specifier : String) (next : Except LoadError ExportsRef → Body α)
  | read (ref : ExportsRef) (next : Exports α → Body α)
  | write (ref : ExportsRef) (name : String) (value : α) (next : Body α)
  /-- Looks at what has happened so far. -/
  | history (next : List LoadEvent → Body α)

/-- A module as the loader knows it. -/
structure LoaderUnit (α : Type) where
  deps : DependencyMap
  /-- The body, given the module's own exports. -/
  body : ExportsRef → Body α

/-! ## Memory -/

/-- What a loader remembers. -/
structure LoaderMemory (α : Type) where
  cache : List (ModuleId × ExportsRef) := []
  /-- The exports objects, in the order in which they were made. -/
  objects : List (Exports α) := []
  history : List LoadEvent := []

namespace LoaderMemory

variable {α : Type}

def cached? (m : LoaderMemory α) (id : ModuleId) : Option ExportsRef :=
  (m.cache.find? fun e => e.1 = id).map (·.2)

def read (m : LoaderMemory α) (ref : ExportsRef) : Exports α := m.objects.getD ref.index []

def write (m : LoaderMemory α) (ref : ExportsRef) (name : String) (value : α) : LoaderMemory α :=
  { m with objects := m.objects.modify ref.index (·.set name value) }

/-- Starts a module: it gets an exports object that is known at once. -/
def start (m : LoaderMemory α) (id : ModuleId) : ExportsRef × LoaderMemory α :=
  let ref : ExportsRef := ⟨m.objects.length⟩
  (ref, { cache := (id, ref) :: m.cache
          objects := m.objects ++ [[]]
          history := m.history ++ [.started id] })

def finish (m : LoaderMemory α) (id : ModuleId) : LoaderMemory α :=
  { m with history := m.history ++ [.finished id] }

/-- The modules whose bodies have started, in order. -/
def started (m : LoaderMemory α) : List ModuleId :=
  m.history.filterMap fun
    | .started id => some id
    | .finished _ => none

end LoaderMemory

/-! ## Loading -/

/-- Runs a body. It ends in an error or in none. -/
def Body.run {α : Type}
    (require : String → LoaderMemory α → Except LoadError ExportsRef × LoaderMemory α) :
    Body α → LoaderMemory α → Except LoadError Unit × LoaderMemory α
  | done, m => (.ok (), m)
  | fail e, m => (.error e, m)
  | .require specifier next, m =>
    let (result, m) := require specifier m
    run require (next result) m
  | read ref next, m => run require (next (m.read ref)) m
  | write ref name value next, m => run require next (m.write ref name value)
  | history next, m => run require (next m.history) m

/-- Modules that can be loaded. -/
abbrev LoaderUnits (α : Type) := List (ModuleId × LoaderUnit α)

def LoaderUnits.get? {α : Type} (units : LoaderUnits α) (id : ModuleId) : Option (LoaderUnit α) :=
  (units.find? fun u => u.1 = id).map (·.2)

/-- The exports of a module, which is started unless it was before. The
number bounds how many bodies may be under way in each other. -/
def LoaderUnits.require {α : Type} (units : LoaderUnits α) :
    Nat → ModuleId → LoaderMemory α → Except LoadError ExportsRef × LoaderMemory α
  | depth, id, m =>
    match m.cached? id with
    | some ref => (.ok ref, m)
    | none =>
      match units.get? id, depth with
      | none, _ | _, 0 => (.error (.unknownModule id), m)
      | some u, depth + 1 =>
        let (ref, m) := m.start id
        let requireFrom (specifier : String) (m : LoaderMemory α) :=
          match u.deps.resolve id specifier with
          | .ok target => units.require depth target m
          | .error e => (.error e, m)
        let (result, m) := (u.body ref).run requireFrom m
        (result.map fun _ => ref, m.finish id)

/-- A loader: modules, and what has become of them. -/
structure Loader (α : Type) where
  units : LoaderUnits α := []
  memory : LoaderMemory α := {}

namespace Loader

variable {α : Type}

/-- Adds a module, in place of the one with its identity. What was loaded
stays loaded. -/
def register (l : Loader α) (id : ModuleId) (deps : DependencyMap) (body : ExportsRef → Body α) :
    Loader α :=
  { l with units := (id, ⟨deps, body⟩) :: l.units.filter fun u => u.1 ≠ id }

/-- A loader for those records of a table that have a body. -/
def ofTable (t : ModuleTable) (bodies : ModuleId → Option (ExportsRef → Body α)) : Loader α :=
  { units := t.records.filterMap fun r => (bodies r.id).map fun body => (r.id, ⟨r.deps, body⟩) }

/-- The exports of a module. A body that is under way is not started again,
so that no more bodies are under way than there are modules. -/
def require (l : Loader α) (id : ModuleId) : Except LoadError ExportsRef × Loader α :=
  let (result, memory) := l.units.require l.units.length id l.memory
  (result, { l with memory })

/-- Loads a module for what it does. -/
def run (l : Loader α) (id : ModuleId) : Except LoadError Unit × Loader α :=
  let (result, l) := l.require id
  (result.map fun _ => (), l)

def isLoaded (l : Loader α) (id : ModuleId) : Bool := (l.memory.cached? id).isSome

def exports (l : Loader α) (ref : ExportsRef) : Exports α := l.memory.read ref

/-- Sets an export from outside. -/
def setExport (l : Loader α) (ref : ExportsRef) (name : String) (value : α) : Loader α :=
  { l with memory := l.memory.write ref name value }

/-- The modules whose bodies have started, in order. -/
def started (l : Loader α) : List ModuleId := l.memory.started

end Loader

end Bundler
