/-
Loading step by step, with the bodies under way on a stack. A require of a module
that is not known starts its body, and the body waits on the stack while what it
requires is loaded. Nothing here bounds how high the stack can grow, nor how long
it goes on.
-/
import Bundler.Loader

namespace Bundler

variable {α : Type}

/-- A module whose body has started, with what the body has been given. -/
structure StartedModule where
  id : ModuleId
  exports : ExportsRef
  deps : DependencyMap

/-- A body that waits for what it has required. -/
structure WaitingBody (α : Type) where
  self : StartedModule
  next : Except LoadError ExportsRef → Body α

/-- What a loader is at, and the bodies that wait meanwhile, the last one first. -/
inductive LoaderState (α : Type) where
  /-- A module is required. -/
  | require (id : ModuleId) (waiting : List (WaitingBody α)) (m : LoaderMemory α)
  /-- A body runs. -/
  | body (self : StartedModule) (b : Body α) (waiting : List (WaitingBody α)) (m : LoaderMemory α)
  /-- A require has been answered. -/
  | answer (result : Except LoadError ExportsRef) (waiting : List (WaitingBody α)) (m : LoaderMemory α)

/-- The modules whose bodies are under way, the innermost one first. -/
def LoaderState.underWay : LoaderState α → List ModuleId
  | .require _ waiting _ | .answer _ waiting _ => waiting.map (·.self.id)
  | .body self _ waiting _ => self.id :: waiting.map (·.self.id)

namespace LoaderUnits

/-- The next step. When nothing waits for an answer, loading is over. -/
def step (units : LoaderUnits α) : LoaderState α → LoaderState α
  | .require id waiting m =>
    match m.cached? id with
    | some ref => .answer (.ok ref) waiting m
    | none =>
      match units.get? id with
      | none => .answer (.error (.unknownModule id)) waiting m
      | some u =>
        let (ref, m) := m.start id
        .body ⟨id, ref, u.deps⟩ (u.body ref) waiting m
  | .body self .done waiting m => .answer (.ok self.exports) waiting (m.finish self.id)
  | .body self (.fail e) waiting m => .answer (.error e) waiting (m.finish self.id)
  | .body self (.require specifier next) waiting m =>
    match self.deps.resolve self.id specifier with
    | .ok target => .require target (⟨self, next⟩ :: waiting) m
    | .error e => .body self (next (.error e)) waiting m
  | .body self (.read ref next) waiting m => .body self (next (m.read ref)) waiting m
  | .body self (.write ref name value next) waiting m => .body self next waiting (m.write ref name value)
  | .body self (.history next) waiting m => .body self (next m.history) waiting m
  | .answer result (w :: waiting) m => .body w.self (w.next result) waiting m
  | .answer result [] m => .answer result [] m

end LoaderUnits

end Bundler
