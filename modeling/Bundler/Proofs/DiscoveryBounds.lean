/-
How long a discovery goes on. Each report that it accepts adds a record of a
module that the entry needs, and a record puts no more into the queue than it
has imports. So the modules that the entry needs bound the reports, and their
imports bound what is taken from the queue, however often a module is queued
that has been handed out already (`LoopHead.rounds_append`). While something is
in flight another report is to come, so a discovery in which no report fails to
come ends (`LoopHead.exists_over`), with nothing left in its queue.
-/
import Mathlib.Algebra.BigOperators.Group.Finset.Basic
import Mathlib.Algebra.Order.BigOperators.Group.Finset
import Bundler.Proofs.SessionDeterminism
import Bundler.Proofs.DiscoveryLog
import Bundler.Proofs.WorkerRuns

namespace Bundler.Discovery

open scoped BigOperators

variable {plan : Plan} {entry : ModuleId} {past : List Turn} {d : Discovery}

/-! ## What is taken from the queue -/

/-- What a round takes from the queue, handed out or not. -/
def taken (capacity : Nat) (d : Discovery) : List ModuleId :=
  d.queue.take (d.queue.length - (d.dispatch capacity).queue.length)

/-- The states in which a run starts its rounds. -/
def rounds (plan : Plan) : List Turn → Discovery → List Discovery
  | turns, d =>
    d ::
      match (d.dispatch plan.capacity).inFlight, turns with
      | [], _ | _ :: _, [] => []
      | earliest :: _, t :: turns =>
        match (d.dispatch plan.capacity).turn plan earliest t with
        | .ok d => rounds plan turns d
        | .error _ => []

theorem dispatchFrom_suffix (capacity : Nat) (queue : List ModuleId) (d : Discovery) :
    (dispatchFrom capacity queue d).queue <:+ queue := by
  fun_induction dispatchFrom capacity queue d with
  | case1 d => exact List.suffix_rfl
  | case2 id queue d hroom hmem ih => exact ih.trans (List.suffix_cons id queue)
  | case3 id queue d hroom hmem ih => exact ih.trans (List.suffix_cons id queue)
  | case4 id queue d hroom => exact List.suffix_rfl

/-- A round takes modules from the front of the queue. -/
theorem taken_append (capacity : Nat) (d : Discovery) :
    d.taken capacity ++ (d.dispatch capacity).queue = d.queue := by
  have hsuffix := List.suffix_iff_eq_drop.1 (dispatchFrom_suffix capacity d.queue d)
  rw [taken, dispatch]
  conv_lhs => arg 2; rw [hsuffix]
  exact List.take_append_drop _ _

/-- A record puts no more into the queue than it has imports. -/
theorem accept_queue_length_le (d : Discovery) (r : ModuleRecord) :
    (d.accept r).queue.length ≤ d.queue.length + r.deps.length := by
  have hfilter := List.length_filter_le (fun id => id ∉ d.visited) r.deps.targets
  rw [DependencyMap.targets, List.length_map] at hfilter
  rw [accept_queue, List.length_append]
  exact Nat.add_le_add_left hfilter _

theorem rounds_settled {turns : List Turn} (hf : (d.dispatch plan.capacity).inFlight = []) :
    rounds plan turns d = [d] := by
  cases turns <;> (unfold rounds; simp only [hf])

theorem rounds_turn {earliest : ModuleId} {rest : List ModuleId}
    (hf : (d.dispatch plan.capacity).inFlight = earliest :: rest) (t : Turn) (turns : List Turn) :
    rounds plan (t :: turns) d =
      d :: match (d.dispatch plan.capacity).turn plan earliest t with
        | .ok d' => rounds plan turns d'
        | .error _ => [] := by
  cases ht : (d.dispatch plan.capacity).turn plan earliest t <;>
    (conv_lhs => unfold rounds) <;> simp only [hf, ht]

/-- A run ends in its last round. -/
theorem Ending.rounds_eq {left : List Turn} {o : DiscoveryOutcome} (h : Ending plan d left o) :
    rounds plan left d = [d] := by
  cases h with
  | finished hf => exact rounds_settled hf
  | outOfTurns hf => unfold rounds; simp only [hf]
  | failed hf ht => rw [rounds_turn hf, ht]

/-- **What a round takes was the entry or an import of a record.** The rounds before
a loop head have taken from the queue what was ever put there, but for what is
still in it. -/
theorem LoopHead.rounds_append (hfaithful : Faithful plan.build) (h : LoopHead plan entry past d) :
    ∃ before, (∀ left, rounds plan (past ++ left) (.start entry) = before ++ rounds plan left d) ∧
      (before.flatMap (taken plan.capacity)).length + d.queue.length ≤
        1 + (d.table.records.map fun r => r.deps.length).sum := by
  induction h with
  | start => exact ⟨[], fun _ => rfl, le_rfl⟩
  | @turn past d d' earliest rest t hd hf ht ih =>
    obtain ⟨before, hrounds, hle⟩ := ih
    refine ⟨before ++ [d], fun left => ?_, ?_⟩
    · rw [List.append_assoc, List.singleton_append, hrounds, rounds_turn hf, ht, List.append_assoc]
      rfl
    · obtain ⟨_, -, id, hid, r, hb, hd'⟩ := turn_ok hf ht
      have hc := (hd.consistent hfaithful).1.dispatch plan.capacity
      have htaken := congrArg List.length (d.taken_append plan.capacity)
      have hgrowth : d'.queue.length ≤ (d.dispatch plan.capacity).queue.length + r.deps.length :=
        hd' ▸ accept_queue_length_le _ r
      have hsum : (d'.table.records.map fun r => r.deps.length).sum =
          (d.table.records.map fun r => r.deps.length).sum + r.deps.length := by
        rw [hd', accept_table, hc.insert_records hid (hfaithful id r hb), dispatch_table, List.map_append,
          List.sum_append, List.map_singleton, List.sum_singleton]
      rw [List.length_append] at htaken
      rw [hsum, List.flatMap_append, List.flatMap_singleton, List.length_append]
      omega

/-! ## Bounds -/

/-- No more modules are visited than the entry needs. -/
theorem Consistent.visited_length_le (h : Consistent plan entry d)
    (hfinite : {id | Reachable plan.build entry id}.Finite) :
    d.visited.length ≤ {id | Reachable plan.build entry id}.ncard := by
  rw [Set.ncard_eq_toFinset_card _ hfinite, ← List.toFinset_card_of_nodup h.nodup]
  refine Finset.card_le_card fun id hid => ?_
  rw [Set.Finite.mem_toFinset]
  exact h.reachable id (.inl (List.mem_toFinset.1 hid))

/-- The imports of all records are among those of what the entry needs. -/
theorem Consistent.sum_imports_le (h : Consistent plan entry d)
    (hfinite : {id | Reachable plan.build entry id}.Finite) :
    (d.table.records.map fun r => r.deps.length).sum ≤
      ∑ id ∈ hfinite.toFinset, (importsOf plan.build id).length := by
  have hcount : (d.table.records.map fun r => r.deps.length) =
      d.table.ids.map fun id => (importsOf plan.build id).length := by
    rw [ModuleTable.ids, List.map_map]
    refine List.map_congr_left fun r hr => ?_
    rw [Function.comp_apply, importsOf_ok (h.built r hr), DependencyMap.targets, List.length_map]
  rw [hcount, ← List.sum_toFinset _ h.ids_nodup]
  refine Finset.sum_le_sum_of_subset fun id hid => ?_
  rw [Set.Finite.mem_toFinset]
  exact h.reachable id (.inl (h.mem_visited.2 (.inl (List.mem_toFinset.1 hid))))

/-- All that a run takes from the queue. -/
theorem rounds_taken_length_le (hfaithful : Faithful plan.build)
    (hfinite : {id | Reachable plan.build entry id}.Finite) (turns : List Turn) :
    ((rounds plan turns (.start entry)).flatMap (taken plan.capacity)).length ≤
      1 + ∑ id ∈ hfinite.toFinset, (importsOf plan.build id).length := by
  obtain ⟨past, left, d, rfl, hd, hend⟩ := discover_cases plan turns entry
  obtain ⟨before, hrounds, hle⟩ := hd.rounds_append hfaithful
  have hsum := (hd.consistent hfaithful).1.sum_imports_le hfinite
  have htaken := congrArg List.length (d.taken_append plan.capacity)
  rw [List.length_append] at htaken
  rw [hrounds, hend.rounds_eq, List.flatMap_append, List.flatMap_singleton, List.length_append]
  omega

/-! ## The end of a run -/

/-- A run is over with these turns: nothing is in flight after them, or the last
one is the report of a build that has failed. -/
inductive Over (plan : Plan) (entry : ModuleId) : List Turn → Prop
  | settled {past : List Turn} {d : Discovery} : LoopHead plan entry past d →
      (d.dispatch plan.capacity).inFlight = [] → Over plan entry past
  | failed {past : List Turn} {d : Discovery} {earliest rest position e} : LoopHead plan entry past d →
      (d.dispatch plan.capacity).inFlight = earliest :: rest →
      (d.dispatch plan.capacity).turn plan earliest (.report position) = .error e →
      Over plan entry (past ++ [.report position])

theorem onTime_settled {turns : List Turn} (hf : (d.dispatch plan.capacity).inFlight = []) :
    onTime plan turns d = true := by
  unfold onTime; simp only [hf]

/-- Only reports lead to a loop head. -/
theorem LoopHead.onTime (h : LoopHead plan entry past d) :
    ∀ left, onTime plan (past ++ left) (.start entry) = Discovery.onTime plan left d := by
  induction h with
  | start => exact fun _ => rfl
  | @turn past d d' earliest rest t _ hf ht ih =>
    intro left
    obtain ⟨position, rfl, -⟩ := turn_ok hf ht
    rw [List.append_assoc, List.singleton_append, ih]
    conv_lhs => unfold Discovery.onTime
    simp only [hf, ht]

theorem reported_handOuts (capacity : Nat) (d : Discovery) : reported (d.handOuts capacity) = [] :=
  reported_map_handOut _

/-- As many reports were read before a loop head as turns were taken. -/
theorem Recorded.reported_length {before : List Event} (h : Recorded plan entry before d)
    (hfaithful : Faithful plan.build) (hd : LoopHead plan entry past d) :
    (Discovery.reported before).length = past.length := by
  rw [h.reported, ModuleTable.ids, List.length_map]
  exact (hd.consistent hfaithful).2.1

namespace Over

variable {turns : List Turn}

theorem onTime (h : Over plan entry turns) : onTime plan turns (.start entry) = true := by
  cases h with
  | settled hd hf => rw [← List.append_nil turns, hd.onTime, onTime_settled hf]
  | failed hd hf ht =>
    rw [hd.onTime]
    unfold Discovery.onTime
    simp only [hf, ht]

/-- A run that is over takes no more turns. -/
theorem discover_append (h : Over plan entry turns) (more : List Turn) :
    discover plan (turns ++ more) entry = discover plan turns entry := by
  cases h with
  | settled hd hf =>
    conv_rhs => rw [← List.append_nil turns]
    rw [hd.discover, hd.discover, run_finished _ hf, run_finished _ hf]
  | failed hd hf ht =>
    rw [hd.discover_error hf ht, List.append_assoc, List.singleton_append, hd.discover, run_turn hf]
    simp only [ht]

/-- It has read a report in each of them. -/
theorem reported_length (h : Over plan entry turns) (hfaithful : Faithful plan.build) :
    (reported (log plan turns (.start entry))).length = turns.length := by
  cases h with
  | settled hd hf =>
    obtain ⟨before, hrec, hlog⟩ := hd.recorded hfaithful
    rw [← List.append_nil turns, hlog, log_settled _ hf, reported_append, reported_handOuts,
      List.append_nil, hrec.reported_length hfaithful hd, List.append_nil]
  | failed hd hf ht =>
    obtain ⟨before, hrec, hlog⟩ := hd.recorded hfaithful
    rw [hlog, log_turn hf, ht, List.append_nil, reported_append, reported_append, reported_handOuts,
      List.nil_append, Turn.events, reported_report, List.length_append, hrec.reported_length hfaithful hd,
      List.length_append, List.length_singleton, List.length_singleton]

end Over

/-! ## Builds that all report -/

/-- Builds report, in any order: at each time the one at this position among those
in flight. -/
def reports (order : Nat → Nat) (count : Nat) : List Turn :=
  (List.range count).map fun i => .report (order i)

theorem reports_succ (order : Nat → Nat) (count : Nat) :
    reports order (count + 1) = reports order count ++ [.report (order count)] := by
  rw [reports, List.range_succ, List.map_append, List.map_singleton, ← reports]

@[simp] theorem reports_length (order : Nat → Nat) (count : Nat) : (reports order count).length = count := by
  rw [reports, List.length_map, List.length_range]

/-- While something is in flight, fewer reports were accepted than the entry needs
modules. -/
theorem LoopHead.length_lt (hfaithful : Faithful plan.build)
    (hfinite : {id | Reachable plan.build entry id}.Finite) (h : LoopHead plan entry past d)
    {earliest : ModuleId} {rest : List ModuleId}
    (hf : (d.dispatch plan.capacity).inFlight = earliest :: rest) :
    past.length < {id | Reachable plan.build entry id}.ncard := by
  obtain ⟨hc, hlength, -⟩ := h.consistent hfaithful
  have hdispatched := hc.dispatch plan.capacity
  have hvisited := hdispatched.visited_length_le hfinite
  rw [hdispatched.split.length_eq, List.length_append, hf, dispatch_table, ModuleTable.ids, List.length_map,
    hlength, List.length_cons] at hvisited
  omega

/-- **A discovery in which all builds report comes to an end.** Each report leaves
fewer modules to wait for. -/
theorem LoopHead.exists_over (hfaithful : Faithful plan.build)
    (hfinite : {id | Reachable plan.build entry id}.Finite) (order : Nat → Nat) (count : Nat) {d : Discovery}
    (h : LoopHead plan entry (reports order count) d)
    (hcount : count ≤ {id | Reachable plan.build entry id}.ncard) :
    ∃ n ≤ {id | Reachable plan.build entry id}.ncard, Over plan entry (reports order n) := by
  cases hf : (d.dispatch plan.capacity).inFlight with
  | nil => exact ⟨count, hcount, .settled h hf⟩
  | cons earliest rest =>
    have hlt : count < {id | Reachable plan.build entry id}.ncard := by
      simpa using h.length_lt hfaithful hfinite hf
    cases ht : (d.dispatch plan.capacity).turn plan earliest (.report (order count)) with
    | error e =>
      refine ⟨count + 1, hlt, ?_⟩
      rw [reports_succ]
      exact .failed h hf ht
    | ok d' =>
      have hnext : LoopHead plan entry (reports order (count + 1)) d' := by
        rw [reports_succ]
        exact .turn h hf ht
      exact hnext.exists_over hfaithful hfinite order (count + 1) hlt
termination_by {id | Reachable plan.build entry id}.ncard - count

/-- **Discovery ends.** Let the entry need finitely many modules, let there be a
worker, and let the builds in flight report in any order. Then a discovery ends
with one of the first reports, of which there is at most one for each module that
the entry needs: it reads all of these, never waits for another one, and takes
no more turns. It takes from its queue at most the entry and once each import of
these modules. Its loop is left with nothing in flight only if nothing is queued,
and it has found all modules unless one of those that the entry needs cannot be
built. -/
theorem discover_terminates (hcap : 0 < plan.capacity) (hfaithful : Faithful plan.build)
    (hfinite : {id | Reachable plan.build entry id}.Finite) (order : Nat → Nat) :
    ∃ n ≤ {id | Reachable plan.build entry id}.ncard,
      onTime plan (reports order n) (.start entry) = true ∧
      (reported (log plan (reports order n) (.start entry))).length = n ∧
      (∀ more, discover plan (reports order n ++ more) entry = discover plan (reports order n) entry) ∧
      ((rounds plan (reports order n) (.start entry)).flatMap (taken plan.capacity)).length ≤
        1 + ∑ id ∈ hfinite.toFinset, (importsOf plan.build id).length ∧
      (∀ d ∈ rounds plan (reports order n) (.start entry), (d.dispatch plan.capacity).inFlight = [] →
        (d.dispatch plan.capacity).queue = []) ∧
      ((∃ table, (discover plan (reports order n) entry).result = .ok table) ↔
        ∀ id, Reachable plan.build entry id → ∃ r, plan.build id = .ok r) := by
  obtain ⟨n, hn, hover⟩ :=
    LoopHead.exists_over hfaithful hfinite order 0 .start (Nat.zero_le _)
  refine ⟨n, hn, hover.onTime, ?_, hover.discover_append, rounds_taken_length_le hfaithful hfinite _, ?_,
    discover_ok_iff hcap hfaithful hover.onTime⟩
  · rw [hover.reported_length hfaithful, reports_length]
  · exact fun d _ hf => dispatch_settled hcap hf

/-- Three modules that import each other and themselves, with two workers; of two
builds in flight, the one that was handed out last reports first. -/
theorem discover_terminates_cycle :
    let record (id : ModuleId) : ModuleRecord :=
      ⟨id, "", [("./a.js", ⟨"/a.js"⟩), ("./b.js", ⟨"/b.js"⟩), ("./c.js", ⟨"/c.js"⟩)], ""⟩
    let plan : Plan := ⟨fun id => .ok (record id), 2, 20⟩
    ∃ n ≤ 3, onTime plan (reports (fun _ => 1) n) (.start ⟨"/b.js"⟩) = true ∧
      ∃ table, (discover plan (reports (fun _ => 1) n) ⟨"/b.js"⟩).result = .ok table := by
  intro record plan
  have hentry : (⟨"/b.js"⟩ : ModuleId) ∈ ({⟨"/a.js"⟩, ⟨"/b.js"⟩, ⟨"/c.js"⟩} : Finset ModuleId) := by decide
  have hfaithful : Faithful plan.build := by
    rintro id r ⟨rfl⟩
    rfl
  obtain ⟨hfinite, hcard⟩ : {id | Reachable plan.build ⟨"/b.js"⟩ id}.Finite ∧ _ :=
    reachable_finite hentry (by decide)
  obtain ⟨n, hn, htime, -, -, -, -, hok⟩ := discover_terminates (by decide) hfaithful hfinite fun _ => 1
  exact ⟨n, hn.trans hcard, htime, hok.2 fun id _ => ⟨record id, rfl⟩⟩

end Bundler.Discovery
