/-
What happens to builds in a discovery, told as a log: which are handed out and
what they report, in order. At every point of the log no more builds are out
than there are workers, a module is handed out once only, and something
accepted before has asked for it (`Orderly`). `Recorded` ties what has been
logged to what the coordinator knows when it starts a round.
-/
import Bundler.Proofs.BuiltRecords
import Bundler.Proofs.DiscoveryInvariant

namespace Bundler.Discovery

/-! ## Logs -/

/-- What happens to a build. -/
inductive Event where
  /-- It is handed to the workers. -/
  | handOut (id : ModuleId)
  /-- Its report is read. -/
  | report (id : ModuleId) (result : Except BuildError ModuleRecord)

def Event.handedOut? : Event → Option ModuleId
  | handOut id => some id
  | report .. => none

def Event.reported? : Event → Option ModuleId
  | handOut _ => none
  | report id _ => some id

def Event.accepted? : Event → Option ModuleRecord
  | report _ (.ok r) => some r
  | report _ (.error _) | handOut _ => none

/-- The modules that were handed out, in order. -/
def handedOut (log : List Event) : List ModuleId := log.filterMap Event.handedOut?

/-- The modules whose builds have reported, in order. -/
def reported (log : List Event) : List ModuleId := log.filterMap Event.reported?

/-- The records that were accepted, in order. -/
def accepted (log : List Event) : List ModuleRecord := log.filterMap Event.accepted?

/-- The modules that were handed out and have not reported. -/
def outstanding (log : List Event) : List ModuleId :=
  (handedOut log).filter fun id => id ∉ reported log

/-- What a round hands out. -/
def handOuts (capacity : Nat) (d : Discovery) : List Event :=
  ((d.dispatch capacity).inFlight.drop d.inFlight.length).map .handOut

/-- What is read in a turn. -/
def Turn.events (plan : Plan) (d : Discovery) (earliest : ModuleId) : Turn → List Event
  | report position =>
    let id := d.inFlight.getD position earliest
    [.report id (plan.build id)]
  | silence _ | noWorkers _ => []

/-- All that happens from a loop head on. -/
def log (plan : Plan) : List Turn → Discovery → List Event
  | turns, d =>
    d.handOuts plan.capacity ++
      match (d.dispatch plan.capacity).inFlight, turns with
      | [], _ | _ :: _, [] => []
      | earliest :: _, t :: turns =>
        t.events plan (d.dispatch plan.capacity) earliest ++
          match (d.dispatch plan.capacity).turn plan earliest t with
          | .ok d => log plan turns d
          | .error _ => []

/-- The entry, or an import of one of these records. -/
def Asked (entry : ModuleId) (records : List ModuleRecord) (id : ModuleId) : Prop :=
  id = entry ∨ ∃ r ∈ records, id ∈ r.deps.targets

/-- A log in which builds are handed out as they should be. -/
structure Orderly (plan : Plan) (entry : ModuleId) (log : List Event) : Prop where
  /-- No module is handed out twice. -/
  once : (handedOut log).Nodup
  /-- A module that is handed out is the entry, or an import of a record that
  was accepted before. -/
  asked : ∀ past id later, log = past ++ .handOut id :: later → Asked entry (accepted past) id
  /-- At no time are more builds out than there are workers. -/
  bounded : ∀ past later, log = past ++ later → (outstanding past).length ≤ plan.capacity

variable {plan : Plan} {entry : ModuleId}

@[simp] theorem handedOut_append (log later : List Event) :
    handedOut (log ++ later) = handedOut log ++ handedOut later := List.filterMap_append

@[simp] theorem reported_append (log later : List Event) :
    reported (log ++ later) = reported log ++ reported later := List.filterMap_append

@[simp] theorem accepted_append (log later : List Event) :
    accepted (log ++ later) = accepted log ++ accepted later := List.filterMap_append

@[simp] theorem handedOut_handOut (id : ModuleId) : handedOut [.handOut id] = [id] := rfl

@[simp] theorem accepted_handOut (id : ModuleId) : accepted [.handOut id] = [] := rfl

@[simp] theorem handedOut_report (id : ModuleId) (result : Except BuildError ModuleRecord) :
    handedOut [.report id result] = [] := rfl

@[simp] theorem reported_report (id : ModuleId) (result : Except BuildError ModuleRecord) :
    reported [.report id result] = [id] := rfl

@[simp] theorem accepted_report_ok (id : ModuleId) (r : ModuleRecord) :
    accepted [.report id (.ok r)] = [r] := rfl

@[simp] theorem handedOut_map_handOut (ids : List ModuleId) : handedOut (ids.map .handOut) = ids := by
  induction ids with
  | nil => rfl
  | cons id ids ih => exact congrArg (id :: ·) ih

@[simp] theorem reported_map_handOut (ids : List ModuleId) : reported (ids.map .handOut) = [] := by
  simp [reported, Event.reported?]

@[simp] theorem accepted_map_handOut (ids : List ModuleId) : accepted (ids.map .handOut) = [] := by
  simp [accepted, Event.accepted?]

/-- Where the parts of a log that has grown by an event can be cut. -/
theorem append_eq_push {past later log : List Event} {e : Event} (h : log ++ [e] = past ++ later) :
    (later = [] ∧ past = log ++ [e]) ∨ ∃ rest, later = rest ++ [e] ∧ log = past ++ rest := by
  rcases List.eq_nil_or_concat later with rfl | ⟨rest, last, rfl⟩
  · exact .inl ⟨rfl, by simpa using h.symm⟩
  · rw [List.concat_eq_append, ← List.append_assoc] at h
    obtain ⟨hlog, he⟩ := List.append_inj' h rfl
    obtain rfl := List.singleton_inj.1 he
    exact .inr ⟨rest, by simp, hlog⟩

/-- Reports leave room. -/
theorem outstanding_report_length_le (log : List Event) (id : ModuleId)
    (result : Except BuildError ModuleRecord) :
    (outstanding (log ++ [.report id result])).length ≤ (outstanding log).length := by
  have hsub : (outstanding (log ++ [.report id result])).Sublist (outstanding log) := by
    simp only [outstanding, handedOut_append, reported_append, handedOut_report, List.append_nil]
    refine List.monotone_filter_right _ fun x hx => ?_
    simp only [decide_eq_true_eq, List.mem_append, not_or] at hx ⊢
    exact hx.1
  exact hsub.length_le

theorem outstanding_handOut_length_le (log : List Event) (ids more : List ModuleId) :
    (outstanding (log ++ ids.map .handOut)).length ≤
      (outstanding (log ++ (ids ++ more).map .handOut)).length := by
  simp only [outstanding, handedOut_append, reported_append, handedOut_map_handOut,
    reported_map_handOut, List.append_nil, List.filter_append, List.length_append]
  omega

namespace Orderly

theorem nil : Orderly plan entry [] where
  once := List.nodup_nil
  asked past id later h := by simp at h
  bounded past later h := by
    obtain ⟨rfl, -⟩ := List.nil_eq_append_iff.1 h
    exact Nat.zero_le _

theorem report {log : List Event} (h : Orderly plan entry log) (id : ModuleId)
    (result : Except BuildError ModuleRecord) : Orderly plan entry (log ++ [.report id result]) where
  once := by
    rw [handedOut_append, handedOut_report, List.append_nil]
    exact h.once
  asked past x later he := by
    rcases append_eq_push he with ⟨hnil, -⟩ | ⟨rest, hrest, hlog⟩
    · cases hnil
    · cases rest with
      | nil => simp at hrest
      | cons e rest =>
        obtain ⟨rfl, -⟩ := List.cons_eq_cons.1 hrest
        exact h.asked past x rest hlog
  bounded past later he := by
    rcases append_eq_push he with ⟨-, rfl⟩ | ⟨rest, -, hlog⟩
    · exact (outstanding_report_length_le ..).trans (h.bounded log [] (List.append_nil _).symm)
    · exact h.bounded past rest hlog

theorem handOut {log : List Event} (h : Orderly plan entry log) {id : ModuleId}
    (hnew : id ∉ handedOut log) (hasked : Asked entry (accepted log) id)
    (hroom : (outstanding (log ++ [.handOut id])).length ≤ plan.capacity) :
    Orderly plan entry (log ++ [.handOut id]) where
  once := by
    rw [handedOut_append]
    exact List.nodup_append.2 ⟨h.once, List.nodup_singleton _, fun a ha b hb hab =>
      hnew (List.mem_singleton.1 hb ▸ hab ▸ ha)⟩
  asked past x later he := by
    rcases append_eq_push he with ⟨hnil, -⟩ | ⟨rest, hrest, hlog⟩
    · cases hnil
    · cases rest with
      | nil =>
        obtain ⟨hx, -⟩ := List.cons_eq_cons.1 hrest
        cases hx
        rw [List.append_nil] at hlog
        exact hlog ▸ hasked
      | cons e rest =>
        obtain ⟨rfl, -⟩ := List.cons_eq_cons.1 hrest
        exact h.asked past x rest hlog
  bounded past later he := by
    rcases append_eq_push he with ⟨-, rfl⟩ | ⟨rest, -, hlog⟩
    · exact hroom
    · exact h.bounded past rest hlog

/-- Several builds are handed out, with room for all of them. -/
theorem handOuts : ∀ {ids : List ModuleId} {log : List Event}, Orderly plan entry log → ids.Nodup →
    (∀ id ∈ ids, id ∉ handedOut log) →
    (∀ id ∈ ids, Asked entry (accepted log) id) →
    (outstanding (log ++ ids.map .handOut)).length ≤ plan.capacity →
    Orderly plan entry (log ++ ids.map .handOut)
  | [], log, h, _, _, _, _ => by simpa using h
  | id :: ids, log, h, hids, hnew, hasked, hroom => by
    obtain ⟨hid, hids⟩ := List.nodup_cons.1 hids
    have hfirst : Orderly plan entry (log ++ [.handOut id]) :=
      h.handOut (hnew id List.mem_cons_self) (hasked id List.mem_cons_self)
        ((outstanding_handOut_length_le log [id] ids).trans hroom)
    rw [List.map_cons, List.append_cons]
    refine handOuts hfirst hids ?_ ?_ ?_
    · intro x hx
      have hne : x ≠ id := fun he => hid (he ▸ hx)
      rw [handedOut_append, handedOut_handOut, List.mem_append, List.mem_singleton, not_or]
      exact ⟨hnew x (List.mem_cons_of_mem _ hx), hne⟩
    · intro x hx
      rw [accepted_append, accepted_handOut, List.append_nil]
      exact hasked x (List.mem_cons_of_mem _ hx)
    · simpa using hroom

end Orderly

/-! ## Rounds -/

theorem dispatchFrom_room {capacity : Nat} (queue : List ModuleId) {d : Discovery}
    (h : d.inFlight.length ≤ capacity) : (dispatchFrom capacity queue d).inFlight.length ≤ capacity := by
  fun_induction dispatchFrom capacity queue d with
  | case1 d => exact h
  | case2 id queue d hroom hmem ih => exact ih h
  | case3 id queue d hroom hmem ih =>
    refine ih ?_
    rw [List.length_append, List.length_singleton]
    exact hroom
  | case4 id queue d hroom => exact h

theorem dispatch_room {capacity : Nat} {d : Discovery} (h : d.inFlight.length ≤ capacity) :
    (d.dispatch capacity).inFlight.length ≤ capacity := dispatchFrom_room d.queue h

/-- At every loop head there are at most as many builds in flight as workers. -/
theorem LoopHead.room {past : List Turn} {d : Discovery} (h : LoopHead plan entry past d) :
    d.inFlight.length ≤ plan.capacity := by
  induction h with
  | start => exact Nat.zero_le _
  | @turn past d d' earliest rest t _ hf ht ih =>
    obtain ⟨_, -, id, -, r, -, rfl⟩ := turn_ok hf ht
    rw [accept_inFlight]
    exact (List.erase_sublist.length_le).trans (dispatch_room ih)

/-- The record of a build in flight is added to the table. -/
theorem Consistent.insert_records {d : Discovery} (h : Consistent plan entry d) {id : ModuleId}
    {r : ModuleRecord} (hid : id ∈ d.inFlight) (hr : r.id = id) :
    (d.table.insert r).records = d.table.records ++ [r] :=
  ModuleTable.insert_of_not_mem (hr ▸ h.not_mem_ids_of_inFlight hid)

/-- The entry and the imports of accepted records are all that is ever queued or
visited. -/
theorem LoopHead.asked (hfaithful : Faithful plan.build) {past : List Turn} {d : Discovery}
    (h : LoopHead plan entry past d) {id : ModuleId} (hk : d.Knows id) : Asked entry d.table.records id := by
  induction h with
  | start => exact .inl (by simpa [Knows, Discovery.start] using hk)
  | @turn past d d' earliest rest t hd hf ht ih =>
    obtain ⟨_, -, x, hx, r, hb, rfl⟩ := turn_ok hf ht
    have hdd := (hd.consistent hfaithful).1.dispatch plan.capacity
    rw [accept_table, hdd.insert_records hx (hfaithful x r hb), dispatch_table]
    rcases accept_knows.1 hk with hk | hk
    · rcases ih (dispatch_knows.1 hk) with rfl | ⟨r', hr', hid⟩
      · exact .inl rfl
      · exact .inr ⟨r', List.mem_append_left _ hr', hid⟩
    · exact .inr ⟨r, List.mem_append_right _ (List.mem_singleton.2 rfl), hk⟩

/-! ## What a log and a coordinator know of each other -/

/-- A log that has led to a state of the coordinator. -/
structure Recorded (plan : Plan) (entry : ModuleId) (past : List Event) (d : Discovery) : Prop where
  orderly : Orderly plan entry past
  handedOut : handedOut past = d.visited
  reported : reported past = d.table.ids
  accepted : accepted past = d.table.records

namespace Recorded

variable {past : List Event} {d : Discovery}

theorem start : Recorded plan entry [] (.start entry) := ⟨.nil, rfl, rfl, rfl⟩

/-- What has not reported is in flight. -/
theorem outstanding_length (hd : Consistent plan entry d) (hhanded : Discovery.handedOut past = d.visited)
    (hreported : Discovery.reported past = d.table.ids) :
    (outstanding past).length = d.inFlight.length := by
  have hsplit := hd.split.filter fun id => id ∉ d.table.ids
  have hids : d.table.ids.filter (fun id => id ∉ d.table.ids) = [] := by
    simp [List.filter_eq_nil_iff]
  have hflight : d.inFlight.filter (fun id => id ∉ d.table.ids) = d.inFlight :=
    List.filter_eq_self.2 fun id hid => decide_eq_true (hd.not_mem_ids_of_inFlight hid)
  rw [List.filter_append, hids, hflight, List.nil_append] at hsplit
  rw [outstanding, hhanded, hreported]
  exact hsplit.length_eq

/-- Builds are handed out. -/
theorem dispatch (h : Recorded plan entry past d) (hd : Consistent plan entry d)
    (hroom : d.inFlight.length ≤ plan.capacity)
    (hasked : ∀ id, d.Knows id → Asked entry d.table.records id) :
    Recorded plan entry (past ++ d.handOuts plan.capacity) (d.dispatch plan.capacity) := by
  obtain ⟨new, hv, hf, hn, hnew⟩ := d.dispatch_handsOut plan.capacity
  have hevents : d.handOuts plan.capacity = new.map .handOut := by
    rw [handOuts, hf, List.drop_left]
  have hhanded : Discovery.handedOut (past ++ new.map .handOut) = (d.dispatch plan.capacity).visited := by
    rw [handedOut_append, handedOut_map_handOut, h.handedOut, hv]
  have hreported : Discovery.reported (past ++ new.map .handOut) = (d.dispatch plan.capacity).table.ids := by
    rw [reported_append, reported_map_handOut, List.append_nil, h.reported, dispatch_table]
  rw [hevents]
  refine ⟨h.orderly.handOuts hn ?_ ?_ ?_, hhanded, hreported, ?_⟩
  · rw [h.handedOut]; exact hnew
  · intro id hid
    rw [h.accepted]
    have hknows : (d.dispatch plan.capacity).Knows id := .inl (hv ▸ List.mem_append_right _ hid)
    exact hasked id (dispatch_knows.1 hknows)
  · rw [outstanding_length (hd.dispatch plan.capacity) hhanded hreported]
    exact dispatch_room hroom
  · rw [accepted_append, accepted_map_handOut, List.append_nil, h.accepted, dispatch_table]

/-- A record is accepted. -/
theorem accept (h : Recorded plan entry past d) (hd : Consistent plan entry d) {id : ModuleId}
    {r : ModuleRecord} (hid : id ∈ d.inFlight) (hr : r.id = id) :
    Recorded plan entry (past ++ [.report id (.ok r)])
      (Discovery.accept { d with inFlight := d.inFlight.erase id } r) := by
  have hrecords := hd.insert_records hid hr
  refine ⟨h.orderly.report id _, ?_, ?_, ?_⟩
  · rw [handedOut_append, handedOut_report, List.append_nil, accept_visited]
    exact h.handedOut
  · rw [reported_append, reported_report, accept_table, h.reported, ModuleTable.ids, ModuleTable.ids, hrecords,
      List.map_append, List.map_singleton, hr]
  · rw [accepted_append, accepted_report_ok, accept_table, hrecords, h.accepted]

end Recorded

/-- What a turn does, and what it adds to the log. -/
theorem turn_events_cases (plan : Plan) {d : Discovery} {earliest : ModuleId} {rest : List ModuleId}
    (hf : d.inFlight = earliest :: rest) (t : Turn) :
    (∃ id ∈ d.inFlight, ∃ r, plan.build id = .ok r ∧ t.events plan d earliest = [.report id (.ok r)] ∧
      d.turn plan earliest t = .ok (accept { d with inFlight := d.inFlight.erase id } r)) ∨
    ∃ id ∈ d.inFlight, ∃ b, d.turn plan earliest t = .error (d.fail id b) ∧
      (t.events plan d earliest = [] ∨
        plan.build id = .error b ∧ t.events plan d earliest = [.report id (.error b)]) := by
  cases t with
  | silence sharing | noWorkers sharing =>
    exact .inr ⟨_, soonest_mem_inFlight hf sharing, _, rfl, .inl rfl⟩
  | report position =>
    have hid := getD_mem_inFlight hf position
    cases hb : plan.build (d.inFlight.getD position earliest) with
    | ok r => exact .inl ⟨_, hid, r, hb, by simp only [Turn.events, hb], by simp only [turn, hb, receive]⟩
    | error b =>
      exact .inr ⟨_, hid, b, by simp only [turn, hb, receive], .inr ⟨hb, by simp only [Turn.events, hb]⟩⟩

/-! ## Whole runs -/

theorem log_settled {d : Discovery} (turns : List Turn) (hf : (d.dispatch plan.capacity).inFlight = []) :
    log plan turns d = d.handOuts plan.capacity := by
  cases turns <;> (unfold log; simp only [hf, List.append_nil])

theorem log_outOfTurns {d : Discovery} {earliest : ModuleId} {rest : List ModuleId}
    (hf : (d.dispatch plan.capacity).inFlight = earliest :: rest) :
    log plan [] d = d.handOuts plan.capacity := by
  unfold log; simp only [hf, List.append_nil]

theorem log_turn {d : Discovery} {earliest : ModuleId} {rest : List ModuleId}
    (hf : (d.dispatch plan.capacity).inFlight = earliest :: rest) (t : Turn) (turns : List Turn) :
    log plan (t :: turns) d = d.handOuts plan.capacity ++
      (t.events plan (d.dispatch plan.capacity) earliest ++
        match (d.dispatch plan.capacity).turn plan earliest t with
        | .ok d' => log plan turns d'
        | .error _ => []) := by
  cases ht : (d.dispatch plan.capacity).turn plan earliest t <;>
    (conv_lhs => unfold log) <;> simp only [hf, ht]

/-- **What has been logged at a loop head.** The log of a run that passes it goes
on from there. -/
theorem LoopHead.recorded (hfaithful : Faithful plan.build) {past : List Turn} {d : Discovery}
    (h : LoopHead plan entry past d) :
    ∃ before, Recorded plan entry before d ∧
      ∀ left, log plan (past ++ left) (.start entry) = before ++ log plan left d := by
  induction h with
  | start => exact ⟨[], .start, fun _ => rfl⟩
  | @turn past d d' earliest rest t hd hf ht ih =>
    obtain ⟨before, hrec, hlog⟩ := ih
    have hc := (hd.consistent hfaithful).1
    have hdispatched := hrec.dispatch hc hd.room fun _ => hd.asked hfaithful
    rcases turn_events_cases plan hf t with ⟨id, hid, r, hb, he, hok⟩ | ⟨id, -, b, herr, -⟩
    · rw [hok, Except.ok.injEq] at ht
      subst ht
      refine ⟨_, hdispatched.accept (hc.dispatch _) hid (hfaithful id r hb), fun left => ?_⟩
      rw [List.append_assoc, List.singleton_append, hlog, log_turn hf]
      simp only [hok, he, List.append_assoc]
    · rw [herr] at ht
      cases ht

/-- How a run ends while the coordinator waits, and what is read last. -/
inductive Outcome (plan : Plan) (d : Discovery) : List Event → DiscoveryOutcome → Prop
  | settled : d.inFlight = [] → Outcome plan d [] d.finish
  /-- A build that is in flight does not report. -/
  | lost {id b} : id ∈ d.inFlight → Outcome plan d [] ⟨.error (d.fail id b), d.visited⟩
  /-- A build that is in flight has failed. -/
  | failed {id b} : id ∈ d.inFlight → plan.build id = .error b →
      Outcome plan d [.report id (.error b)] ⟨.error (d.fail id b), d.visited⟩

theorem Ending.outcome {d : Discovery} {left : List Turn} {o : DiscoveryOutcome}
    (h : Ending plan d left o) :
    ∃ last, log plan left d = d.handOuts plan.capacity ++ last ∧
      Outcome plan (d.dispatch plan.capacity) last o := by
  cases h with
  | finished hf => exact ⟨[], by rw [log_settled _ hf, List.append_nil], .settled hf⟩
  | outOfTurns hf =>
    exact ⟨[], by rw [log_outOfTurns hf, List.append_nil], .lost (hf ▸ List.mem_cons_self)⟩
  | @failed earliest rest t left e hf ht =>
    rw [log_turn hf, ht, List.append_nil]
    refine ⟨_, rfl, ?_⟩
    rcases turn_events_cases plan hf t with ⟨id, -, r, -, -, hok⟩ | ⟨id, hid, b, herr, he | ⟨hb, he⟩⟩
    · rw [ht] at hok; cases hok
    · rw [ht, Except.error.injEq] at herr
      rw [he, herr]; exact .lost hid
    · rw [ht, Except.error.injEq] at herr
      rw [he, herr]; exact .failed hid hb

/-- **A run and its log.** A run ends in a round that it reaches, and its log says
what has happened up to there. -/
theorem discover_recorded (hfaithful : Faithful plan.build) (turns : List Turn) (entry : ModuleId) :
    ∃ past d before last, LoopHead plan entry past d ∧
      Recorded plan entry before (d.dispatch plan.capacity) ∧
      log plan turns (.start entry) = before ++ last ∧
      Outcome plan (d.dispatch plan.capacity) last (discover plan turns entry) := by
  obtain ⟨taken, left, d, rfl, hd, hend⟩ := discover_cases plan turns entry
  obtain ⟨before, hrec, hlog⟩ := hd.recorded hfaithful
  obtain ⟨last, hlast, ho⟩ := hend.outcome
  refine ⟨taken, d, _, last, hd, hrec.dispatch (hd.consistent hfaithful).1 hd.room fun _ => hd.asked hfaithful,
    ?_, ho⟩
  rw [hlog, hlast, List.append_assoc]

/-- The log of a run is in good order. -/
theorem log_orderly (hfaithful : Faithful plan.build) (turns : List Turn) (entry : ModuleId) :
    Orderly plan entry (log plan turns (.start entry)) := by
  obtain ⟨_, d, before, last, -, hrec, hlog, ho⟩ := discover_recorded hfaithful turns entry
  generalize discover plan turns entry = o at ho
  rw [hlog]
  cases ho with
  | settled | lost => rw [List.append_nil]; exact hrec.orderly
  | failed => exact hrec.orderly.report _ _

/-- What is visited was handed out, in this order. -/
theorem handedOut_log (hfaithful : Faithful plan.build) (turns : List Turn) (entry : ModuleId) :
    handedOut (log plan turns (.start entry)) = (discover plan turns entry).visited := by
  obtain ⟨_, d, before, last, -, hrec, hlog, ho⟩ := discover_recorded hfaithful turns entry
  have hhanded := hrec.handedOut
  generalize discover plan turns entry = o at ho
  rw [hlog]
  cases ho with
  | settled | lost => rw [List.append_nil]; exact hhanded
  | failed => rw [handedOut_append, handedOut_report, List.append_nil]; exact hhanded

/-- **Discovery hands builds out in good order**, however it ends and whatever the
order of reports. No module is handed out twice, none that nothing has asked
for, and never more than there are workers. At each loop head the modules
visited are those in flight and those in the table, which have none in common,
and the entry and all imports of the table are visited or queued. -/
theorem discover_orderly {τ σ : Type} [Storage σ] (b : Builder τ) (storage : σ) (workers timeoutMs : Nat)
    (turns : List Turn) (entry : ModuleId) :
    let plan : Plan := ⟨b.build storage, workers, timeoutMs⟩
    Orderly plan entry (log plan turns (.start entry)) ∧
    handedOut (log plan turns (.start entry)) = (discover plan turns entry).visited ∧
    ∀ past left d, turns = past ++ left → LoopHead plan entry past d →
      (∀ id, id ∈ d.visited ↔ id ∈ d.inFlight ∨ id ∈ d.table.ids) ∧
      d.inFlight.Disjoint d.table.ids ∧
      d.Knows entry ∧
      ∀ r ∈ d.table.records, ∀ id ∈ r.deps.targets, d.Knows id := by
  intro plan
  have hfaithful : Faithful plan.build := b.build_faithful storage
  refine ⟨log_orderly hfaithful turns entry, handedOut_log hfaithful turns entry, ?_⟩
  intro past left d _ hd
  have hc := (hd.consistent hfaithful).1
  exact ⟨fun id => by rw [hc.mem_visited, or_comm], fun id hid ht => hc.not_mem_ids_of_inFlight hid ht,
    hc.hasEntry, hc.targets⟩

/-- Modules that import each other and themselves, with two workers: two builds
share the deadline that passes, and a module waits in the queue. -/
theorem discover_orderly_silence :
    let storage : MemoryStorage := .ofList
      [(.ofString "/a.js", "import './b.js';"), (.ofString "/c.js", "import './a.js';"),
       (.ofString "/b.js", "import './a.js';\nimport './b.js';\nimport './c.js';\nimport './d.js';")]
    let b : Builder Script.Module := ⟨scriptTransform, .es2015⟩
    let plan : Plan := ⟨b.build storage, 2, 20⟩
    let log := log plan [.report 0, .silence 2] (.start ⟨"/b.js"⟩)
    handedOut log = [⟨"/b.js"⟩, ⟨"/a.js"⟩, ⟨"/c.js"⟩] ∧ reported log = [⟨"/b.js"⟩] ∧
      Orderly plan ⟨"/b.js"⟩ log := by
  intro storage b plan log
  exact ⟨by decide +kernel, by decide +kernel, (discover_orderly b storage 2 20 _ _).1⟩

end Bundler.Discovery
