/-
Finding all modules that an entry needs. A coordinator keeps a queue of
modules to build and hands them to workers, at most as many at a time as there
are workers; each reported record puts its imports into the queue. Reports
may come in any order, or never. A schedule says which build reports next;
where it ends, nothing reports any more and the build that waits longest runs
into its deadline.
-/
import Bundler.Error
import Bundler.ModuleTable

namespace Bundler

/-- The import that first asked for a module. -/
structure Origin where
  importer : ModuleId
  specifier : String
deriving DecidableEq, Repr

/-- The coordinator of a discovery. -/
structure Discovery where
  /-- Modules to build. Some may be there twice, or be visited already. -/
  queue : List ModuleId
  /-- All modules that were handed out, in order. -/
  visited : List ModuleId := []
  origins : List (ModuleId × Origin) := []
  /-- The builds that have not reported, in the order in which they were
  handed out. -/
  inFlight : List ModuleId := []
  /-- The reported records, in the order of the reports. -/
  table : ModuleTable := {}
deriving DecidableEq, Inhabited, Repr

/-- What a discovery came to, and the modules that were handed out. -/
structure DiscoveryOutcome where
  result : Except DiscoveryError ModuleTable
  visited : List ModuleId

namespace Discovery

/-- Only the entry is known. -/
def start (entry : ModuleId) : Discovery := { queue := [entry] }

/-! ## Handing out -/

/-- Hands out the modules of a queue, while there is room for more builds.
Modules that were handed out before are dropped. -/
def dispatchFrom (capacity : Nat) : List ModuleId → Discovery → Discovery
  | [], d => { d with queue := [] }
  | id :: queue, d =>
    if d.inFlight.length < capacity then
      if id ∈ d.visited then dispatchFrom capacity queue d
      else dispatchFrom capacity queue
        { d with visited := d.visited ++ [id], inFlight := d.inFlight ++ [id] }
    else { d with queue := id :: queue }

def dispatch (d : Discovery) (capacity : Nat) : Discovery := dispatchFrom capacity d.queue d

/-! ## Reports -/

/-- Notes an import of a module. It asks for a build unless its meaning was
handed out already, and is an origin if it is the first to ask. -/
def noteImport (importer : ModuleId) (d : Discovery) (dep : String × ModuleId) : Discovery :=
  let (specifier, target) := dep
  if target ∈ d.visited then d
  else
    { d with
      queue := d.queue ++ [target]
      origins :=
        if d.origins.any fun o => o.1 = target then d.origins
        else d.origins ++ [(target, ⟨importer, specifier⟩)] }

/-- Takes a record. -/
def accept (d : Discovery) (r : ModuleRecord) : Discovery :=
  let d := r.deps.foldl (noteImport r.id) d
  { d with table := d.table.insert r }

def origin? (d : Discovery) (id : ModuleId) : Option Origin :=
  (d.origins.find? fun o => o.1 = id).map (·.2)

/-- The failure of a build, with where it was asked for. -/
def fail (d : Discovery) (id : ModuleId) (source : BuildError) : DiscoveryError :=
  let origin := d.origin? id
  { module := id, importer := origin.map (·.importer), specifier := origin.map (·.specifier),
    source }

/-- A build has reported. -/
def receive (d : Discovery) (id : ModuleId) (result : Except BuildError ModuleRecord) :
    Except DiscoveryError Discovery :=
  match result with
  | .ok r => .ok ({ d with inFlight := d.inFlight.erase id }.accept r)
  | .error e => .error (d.fail id e)

/-- A build has run into its deadline. -/
def expire (d : Discovery) (timeoutMs : Nat) (id : ModuleId) : DiscoveryError :=
  d.fail id (.parse id.path ("build did not finish within " ++ toString timeoutMs ++ " ms"))

/-- All workers are gone, and a build will not report. -/
def abandon (d : Discovery) (id : ModuleId) : DiscoveryError :=
  d.fail id (.parse id.path "discovery worker exited before reporting")

/-! ## Runs -/

/-- What a coordinator meets with while it waits. -/
inductive Turn where
  /-- A build reports: the one at a position among those in flight, or the
  first one if none is there. -/
  | report (position : Nat)
  /-- Nothing reports before the next deadline, which so many builds share. -/
  | silence (sharing : Nat)
  /-- The last worker has died, while so many builds share the next deadline. -/
  | noWorkers (sharing : Nat)
deriving DecidableEq, Repr

/-- What all turns of a discovery share. -/
structure Plan where
  /-- What the build of a module reports. -/
  build : ModuleId → Except BuildError ModuleRecord
  /-- How many builds can be in flight. -/
  capacity : Nat
  timeoutMs : Nat

/-- The build that is told of when none will report: of those that share the
next deadline, the one with the least identity. Deadlines are in the order in
which builds were handed out, so these are the first in flight. -/
def soonest (d : Discovery) (earliest : ModuleId) (sharing : Nat) : ModuleId :=
  (d.inFlight.take sharing).foldl (fun least id => if id.le least then id else least) earliest

/-- One turn, while `earliest` is the build that waits longest. -/
def turn (d : Discovery) (plan : Plan) (earliest : ModuleId) :
    Turn → Except DiscoveryError Discovery
  | .report position =>
    let id := d.inFlight.getD position earliest
    d.receive id (plan.build id)
  | .silence sharing => .error (d.expire plan.timeoutMs (d.soonest earliest sharing))
  | .noWorkers sharing => .error (d.abandon (d.soonest earliest sharing))

/-- The end of a discovery in which nothing is in flight. -/
def finish (d : Discovery) : DiscoveryOutcome := ⟨.ok d.table.sort, d.visited⟩

/-- Goes on with a discovery: hands out builds, and takes the next turn. -/
def run (plan : Plan) : List Turn → Discovery → DiscoveryOutcome
  | turns, d =>
    let d := d.dispatch plan.capacity
    match d.inFlight, turns with
    | [], _ => d.finish
    | earliest :: _, [] => ⟨.error (d.expire plan.timeoutMs earliest), d.visited⟩
    | earliest :: _, t :: turns =>
      match d.turn plan earliest t with
      | .ok d => run plan turns d
      | .error e => ⟨.error e, d.visited⟩

end Discovery

/-- The modules that an entry needs, in the order of their identities. -/
def discover (plan : Discovery.Plan) (turns : List Discovery.Turn) (entry : ModuleId) :
    DiscoveryOutcome :=
  Discovery.run plan turns (.start entry)

/-- A schedule in which builds report in the order in which they were handed
out, for at most so many builds. -/
def Discovery.inOrder (count : Nat) : List Discovery.Turn := List.replicate count (.report 0)

end Bundler
