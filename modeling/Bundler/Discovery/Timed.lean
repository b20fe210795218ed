/-
Discovery by the clock. Each build has a length, after which it reports or its
worker dies; a deadline passes when its time has come and nothing has reported
before. The clock decides the turns of a discovery and nothing else.
-/
import Bundler.Discovery

namespace Bundler.Discovery

/-- What a build does besides what it reports. -/
structure Course where
  lengthMs : Nat := 0
  /-- The worker dies at the end, and there is no report. -/
  dies : Bool := false
deriving DecidableEq, Repr

/-- A plan with a clock. A worker takes up a build when it is handed out. -/
structure TimedPlan extends Plan where
  course : ModuleId → Course

/-- A build under way, and since when. -/
structure Underway where
  id : ModuleId
  since : Nat
deriving DecidableEq, Repr

/-- When a build ends. -/
def TimedPlan.endOf (plan : TimedPlan) (u : Underway) : Nat := u.since + (plan.course u.id).lengthMs

/-- The build that reports first, and when. Of those that do so at the same
time it is the one handed out first. -/
def TimedPlan.firstReport? (plan : TimedPlan) (underway : List Underway) : Option (ModuleId × Nat) :=
  let reporting := underway.filter fun u => !(plan.course u.id).dies
  match reporting with
  | [] => none
  | u :: us =>
    let first := us.foldl (fun best u => if plan.endOf u < plan.endOf best then u else best) u
    some (first.id, plan.endOf first)

/-- When the last worker has died, if all do. -/
def TimedPlan.lastDeath? (plan : TimedPlan) (underway : List Underway) : Option Nat :=
  if underway.length ≥ plan.capacity && underway.all (fun u => (plan.course u.id).dies) then
    some (underway.foldl (fun t u => max t (plan.endOf u)) 0)
  else none

/-- The next turn, and when it is over. No two builds share a deadline: they are
handed out one after the other, however short the time between. -/
def TimedPlan.nextTurn (plan : TimedPlan) (underway : List Underway) (now : Nat) : Turn × Nat :=
  let deadline := match underway with
    | [] => now
    | u :: _ => u.since + plan.timeoutMs
  match plan.firstReport? underway, plan.lastDeath? underway with
  | some (id, time), _ =>
    if time < deadline then (.report (underway.findIdx fun u => u.id = id), time)
    else (.silence 1, deadline)
  | none, some time => if time < deadline then (.noWorkers 1, time) else (.silence 1, deadline)
  | none, none => (.silence 1, deadline)

/-- Starts the clock of builds that have been handed out since it was last
looked at. -/
def startClocks (inFlight : List ModuleId) (underway : List Underway) (now : Nat) : List Underway :=
  inFlight.map fun id =>
    match underway.find? fun u => u.id = id with
    | some u => u
    | none => ⟨id, now⟩

/-- The turns that the clock gives, at most so many. -/
def TimedPlan.turns (plan : TimedPlan) : Nat → List Underway → Nat → Discovery → List Turn
  | 0, _, _, _ => []
  | limit + 1, underway, now, d =>
    let d := d.dispatch plan.capacity
    let underway := startClocks d.inFlight underway now
    match d.inFlight with
    | [] => []
    | earliest :: _ =>
      let (t, now) := plan.nextTurn underway now
      match d.turn plan.toPlan earliest t with
      | .error _ => [t]
      | .ok d => t :: plan.turns limit underway now d

end Bundler.Discovery

namespace Bundler

/-- A discovery by the clock, of at most so many modules. -/
def discoverTimed (plan : Discovery.TimedPlan) (limit : Nat) (entry : ModuleId) : DiscoveryOutcome :=
  discover plan.toPlan (plan.turns limit [] 0 (.start entry)) entry

end Bundler
