/-
Discovery with its workers. The coordinator puts the builds that it hands out
into one channel, and reads the reports from another. A worker that is idle
takes any build that waits; then it reports, hangs, or dies, and its report is
lost. What each of them does next is open: a step is one move of any of them.
-/
import Bundler.Discovery

namespace Bundler.Discovery

/-- What a worker is at. -/
inductive Worker where
  | idle
  | building (id : ModuleId)
  /-- It died in a build. -/
  | dead (id : ModuleId)
  /-- It left, with the discovery over. -/
  | gone
deriving DecidableEq, Repr

namespace Worker

/-- Whether it holds its ends of the channels. -/
def isAlive : Worker → Bool
  | idle | building _ => true
  | dead _ | gone => false

/-- The build that it took and did not report. -/
def build? : Worker → Option ModuleId
  | building id | dead id => some id
  | idle | gone => none

end Worker

/-- What the coordinator is at. -/
inductive Phase where
  /-- It hands out builds. -/
  | dispatching
  /-- It waits for a report. -/
  | waiting
  | ended (result : Except DiscoveryError ModuleTable)

/-- A coordinator, its workers, and what is in the channels between them. -/
structure Pool where
  phase : Phase := .dispatching
  discovery : Discovery
  /-- The builds that were handed out and that no worker has taken. -/
  jobs : List ModuleId := []
  /-- The reports that the coordinator has not read. -/
  results : List (ModuleId × Except BuildError ModuleRecord) := []
  workers : List Worker

/-- A move of the coordinator or of a worker. -/
inductive Move where
  /-- The coordinator drops a module of the queue that was visited before. -/
  | skip (id : ModuleId)
  /-- It hands out a build. -/
  | handOut (id : ModuleId)
  /-- It cannot hand out a build, as nobody listens. -/
  | refuse (id : ModuleId)
  /-- It starts to wait. -/
  | wait
  /-- It ends, with nothing in flight. -/
  | finish
  /-- It reads a report. -/
  | read (id : ModuleId)
  /-- It waits until a deadline passes. -/
  | expire
  /-- It learns that nobody can report any more. -/
  | disconnect
  /-- A worker takes a build. -/
  | take (id : ModuleId)
  /-- A worker reports. -/
  | report (id : ModuleId)
  /-- A worker dies in a build. -/
  | die (id : ModuleId)
  /-- A worker leaves. -/
  | leave
deriving DecidableEq, Repr

/-- Hands out the first module of the queue. -/
def handOut (d : Discovery) (id : ModuleId) (queue : List ModuleId) : Discovery :=
  { d with queue, visited := d.visited ++ [id], inFlight := d.inFlight ++ [id] }

/-- All workers are gone before a build could be handed out. -/
def refuse (d : Discovery) (id : ModuleId) : DiscoveryError :=
  d.fail id (.parse id.path "no discovery worker is accepting builds")

namespace Pool

/-- A pool with as many workers as builds can be in flight. -/
def start (plan : Plan) (entry : ModuleId) : Pool where
  discovery := .start entry
  workers := List.replicate plan.capacity .idle

/-- The module at the front of the queue comes next, and there is room for it. -/
def Pops (plan : Plan) (s : Pool) (id : ModuleId) (queue : List ModuleId) : Prop :=
  s.phase = .dispatching ∧ s.discovery.inFlight.length < plan.capacity ∧
    s.discovery.queue = id :: queue

/-- The coordinator is about to hand out a build. -/
def Dispatches (plan : Plan) (s : Pool) (id : ModuleId) (queue : List ModuleId) : Prop :=
  s.Pops plan id queue ∧ id ∉ s.discovery.visited

/-- The coordinator can hand out no more builds for now. -/
def Stops (plan : Plan) (s : Pool) : Prop :=
  s.phase = .dispatching ∧
    (plan.capacity ≤ s.discovery.inFlight.length ∨ s.discovery.queue = [])

/-- Nobody listens for builds, and nobody can report. -/
def Disconnected (s : Pool) : Prop := ∀ w ∈ s.workers, w.isAlive = false

instance (s : Pool) : Decidable s.Disconnected :=
  inferInstanceAs (Decidable (∀ w ∈ s.workers, w.isAlive = false))

/-- The moves that a pool can make. -/
inductive Step (plan : Plan) (s : Pool) : Move → Pool → Prop
  | skip {id queue} : s.Pops plan id queue → id ∈ s.discovery.visited →
      Step plan s (.skip id) { s with discovery := { s.discovery with queue } }
  | handOut {id queue} : s.Dispatches plan id queue → ¬ s.Disconnected →
      Step plan s (.handOut id)
        { s with discovery := s.discovery.handOut id queue, jobs := s.jobs ++ [id] }
  | refuse {id queue} : s.Dispatches plan id queue → s.Disconnected →
      Step plan s (.refuse id) { s with phase := .ended (.error (s.discovery.refuse id)) }
  | wait : s.Stops plan → s.discovery.inFlight ≠ [] → Step plan s .wait { s with phase := .waiting }
  | finish : s.Stops plan → s.discovery.inFlight = [] →
      Step plan s .finish { s with phase := .ended (.ok s.discovery.table.sort) }
  | accept {id result results d} : s.phase = .waiting → s.results = (id, result) :: results →
      s.discovery.receive id result = .ok d →
      Step plan s (.read id) { s with phase := .dispatching, discovery := d, results }
  | reject {id result results e} : s.phase = .waiting → s.results = (id, result) :: results →
      s.discovery.receive id result = .error e →
      Step plan s (.read id) { s with phase := .ended (.error e), results }
  | expire {earliest rest} (sharing : Nat) : s.phase = .waiting → s.results = [] →
      s.discovery.inFlight = earliest :: rest →
      Step plan s .expire { s with
        phase := .ended (.error (s.discovery.expire plan.timeoutMs (s.discovery.soonest earliest sharing))) }
  | disconnect {earliest rest} (sharing : Nat) : s.phase = .waiting → s.results = [] → s.Disconnected →
      s.discovery.inFlight = earliest :: rest →
      Step plan s .disconnect { s with
        phase := .ended (.error (s.discovery.abandon (s.discovery.soonest earliest sharing))) }
  | take {before after front id back} : s.workers = before ++ .idle :: after →
      s.jobs = front ++ id :: back →
      Step plan s (.take id)
        { s with jobs := front ++ back, workers := before ++ .building id :: after }
  | report {before after id} : s.workers = before ++ .building id :: after →
      Step plan s (.report id)
        { s with results := s.results ++ [(id, plan.build id)], workers := before ++ .idle :: after }
  | die {before after id} : s.workers = before ++ .building id :: after →
      Step plan s (.die id) { s with workers := before ++ .dead id :: after }
  /-- No build waits, and none will be handed out. -/
  | leave {before after result} : s.phase = .ended result → s.workers = before ++ .idle :: after →
      s.jobs = [] → Step plan s .leave { s with workers := before ++ .gone :: after }
  /-- Nobody reads its report. -/
  | discard {before after id result} : s.phase = .ended result →
      s.workers = before ++ .building id :: after →
      Step plan s .leave { s with workers := before ++ .gone :: after }

/-- The pools that a discovery can come to. -/
inductive Reachable (plan : Plan) (entry : ModuleId) : Pool → Prop
  | start : Reachable plan entry (.start plan entry)
  | step {s m s'} : Reachable plan entry s → Step plan s m s' → Reachable plan entry s'

end Pool

end Bundler.Discovery
