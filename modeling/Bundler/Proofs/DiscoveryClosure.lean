/-
A discovery that succeeds has found exactly what its entry needs, each module
with the record of its build, and has waited for every build it handed out.
Whether it succeeds or not, it asks for nothing else (`Agree.discover_eq`).
-/
import Mathlib.Data.List.Permutation
import Bundler.Proofs.DiscoveryInvariant

namespace Bundler.Discovery

variable {build : ModuleId → Except BuildError ModuleRecord} {plan : Plan} {entry : ModuleId}

theorem Closed.targets {t : ModuleTable} (h : Closed build entry t) :
    ∀ r ∈ t.records, ∀ id ∈ r.deps.targets, id ∈ t.ids := by
  intro r hr id hid
  have hreach := (h.mem_ids r.id).1 (ModuleTable.mem_ids.2 ⟨r, hr, rfl⟩)
  exact (h.mem_ids id).2 (hreach.tail ⟨r, h.built r hr, hid⟩)

theorem Closed.sort {t : ModuleTable} (h : Closed build entry t) : Closed build entry t.sort where
  nodup := by rw [t.sort_ids, (ImportGraph.sortIds_perm t.ids).nodup_iff]; exact h.nodup
  built r hr := h.built r (ModuleTable.mem_sort.1 hr)
  mem_ids id := by rw [ModuleTable.mem_sort_ids]; exact h.mem_ids id

/-- What a successful run has come to. -/
theorem Ending.of_ok {past left : List Turn} {d : Discovery} {o : DiscoveryOutcome} {t : ModuleTable}
    (hcap : 0 < plan.capacity) (hfaithful : Faithful plan.build) (hd : LoopHead plan entry past d)
    (hend : Ending plan d left o) (ho : o.result = .ok t) :
    ∃ t', Closed plan.build entry t' ∧ t = t'.sort ∧ o.visited.Perm t'.ids ∧
      t'.records.length = past.length := by
  cases hend with
  | finished hf =>
    obtain ⟨hc, hlen, -⟩ := hd.consistent hfaithful
    have hdc := hc.dispatch plan.capacity
    refine ⟨(d.dispatch plan.capacity).table, hdc.settled hf (dispatch_settled hcap hf), ?_, ?_, ?_⟩
    · simpa [finish] using ho.symm
    · have hp := hdc.split
      rw [hf, List.append_nil] at hp
      exact hp
    · rw [dispatch_table]; exact hlen
  | outOfTurns hf => cases ho
  | failed hf ht => cases ho

/-! ## Builds that agree -/

/-- Plans that differ in the builds of modules only that the entry does not need. -/
structure Agree (plan plan' : Plan) (entry : ModuleId) : Prop where
  capacity : plan'.capacity = plan.capacity
  timeoutMs : plan'.timeoutMs = plan.timeoutMs
  build : ∀ id, Reachable plan.build entry id → plan'.build id = plan.build id

variable {plan' : Plan} {d : Discovery} {earliest : ModuleId} {rest : List ModuleId}

theorem Agree.turn_eq (h : Agree plan plan' entry) (hd : Consistent plan entry d)
    (hf : d.inFlight = earliest :: rest) (t : Turn) : d.turn plan' earliest t = d.turn plan earliest t := by
  cases t with
  | report position =>
    have hflight := getD_mem_inFlight hf position
    simp only [turn, h.build _ (hd.reachable _ (.inl (hd.mem_visited.2 (.inr hflight))))]
  | silence => simp only [turn, h.timeoutMs]
  | noWorkers => rfl

/-- A run asks for nothing but what the entry needs. -/
theorem Agree.run_eq (h : Agree plan plan' entry) (hfaithful : Faithful plan.build) :
    ∀ (turns : List Turn) {past : List Turn} {d : Discovery}, LoopHead plan entry past d →
      run plan' turns d = run plan turns d := by
  intro turns
  induction turns with
  | nil =>
    intro past d _
    unfold run
    simp only [h.capacity, h.timeoutMs]
    cases (d.dispatch plan.capacity).inFlight <;> rfl
  | cons t turns ih =>
    intro past d hd
    have hc := (hd.consistent hfaithful).1.dispatch plan.capacity
    unfold run
    simp only [h.capacity]
    cases hf : (d.dispatch plan.capacity).inFlight with
    | nil => rfl
    | cons earliest rest =>
      simp only [h.turn_eq hc hf t]
      cases ht : (d.dispatch plan.capacity).turn plan earliest t with
      | error e => rfl
      | ok d' => exact ih (.turn hd hf ht)

/-- **What discovery comes to depends on the builds of what the entry needs only.** -/
theorem Agree.discover_eq (h : Agree plan plan' entry) (hfaithful : Faithful plan.build) (turns : List Turn) :
    discover plan' turns entry = discover plan turns entry := h.run_eq hfaithful turns .start

/-! ## Closed tables -/

/-- **A table that discovery gives is closed.** Whatever the order of reports,
and whichever builds are lost: its modules are those that imports lead to from
the entry, each once, in ascending order, with the record of its build; and
each build that was handed out has reported. -/
theorem discover_table_closed {turns : List Turn} {table : ModuleTable} (hcap : 0 < plan.capacity)
    (hfaithful : Faithful plan.build) (h : (discover plan turns entry).result = .ok table) :
    (∀ id, id ∈ table.ids ↔ Reachable plan.build entry id) ∧
    table.ids.Nodup ∧
    (∀ id r, table.get? id = some r ↔ id ∈ table.ids ∧ plan.build id = .ok r) ∧
    table.missingDependencies = [] ∧
    entry ∈ table.ids ∧
    ModuleId.Ascending table.ids ∧
    (discover plan turns entry).visited.Perm table.ids ∧
    table.records.length ≤ turns.length ∧
    ∀ t ∈ turns.take table.records.length, ∃ position, t = .report position := by
  obtain ⟨taken, left, d, hturns, hd, hend⟩ := discover_cases plan turns entry
  obtain ⟨t, ht, rfl, hv, hlen⟩ := hend.of_ok hcap hfaithful hd h
  have hc := ht.sort
  have hlen' : t.sort.records.length = taken.length := by rw [t.sort_perm.length_eq, hlen]
  refine ⟨hc.mem_ids, hc.nodup, ?_, ?_, ?_, ModuleTable.sort_ascending ht.nodup, ?_, ?_, ?_⟩
  · intro id r
    rw [ModuleTable.get?_eq_some hc.nodup]
    constructor
    · rintro ⟨hr, rfl⟩
      exact ⟨ModuleTable.mem_ids.2 ⟨r, hr, rfl⟩, hc.built r hr⟩
    · rintro ⟨hid, hb⟩
      obtain ⟨r', hr', rfl⟩ := ModuleTable.mem_ids.1 hid
      have hb' := hc.built r' hr'
      rw [hb, Except.ok.injEq] at hb'
      subst hb'
      exact ⟨hr', rfl⟩
  · exact ModuleTable.missingDependencies_eq_nil.2 hc.targets
  · exact (hc.mem_ids entry).2 .refl
  · rw [t.sort_ids]
    exact hv.trans (ImportGraph.sortIds_perm t.ids).symm
  · rw [hlen', hturns, List.length_append]
    exact Nat.le_add_right _ _
  · intro u hu
    rw [hlen', hturns, List.take_left] at hu
    exact (hd.consistent hfaithful).2.2 u hu

/-- Three modules that import each other and themselves, with two workers, and
the build that was handed out last reporting before another. -/
theorem discover_table_closed_cycle :
    let record (id : ModuleId) : ModuleRecord :=
      ⟨id, "", [("./a.js", ⟨"/a.js"⟩), ("./b.js", ⟨"/b.js"⟩), ("./c.js", ⟨"/c.js"⟩)], ""⟩
    let plan : Plan := ⟨fun id => .ok (record id), 2, 20⟩
    (discover plan [.report 0, .report 1, .report 0] ⟨"/b.js"⟩).result =
        .ok ⟨[record ⟨"/a.js"⟩, record ⟨"/b.js"⟩, record ⟨"/c.js"⟩]⟩ ∧
      ∀ id, id ∈ [⟨"/a.js"⟩, ⟨"/b.js"⟩, ⟨"/c.js"⟩] ↔ Reachable plan.build ⟨"/b.js"⟩ id := by
  intro record plan
  have h : (discover plan [.report 0, .report 1, .report 0] ⟨"/b.js"⟩).result =
      .ok ⟨[record ⟨"/a.js"⟩, record ⟨"/b.js"⟩, record ⟨"/c.js"⟩]⟩ := by cbv
  have hfaithful : Faithful plan.build := by
    intro id r hr
    cases hr
    rfl
  exact ⟨h, (discover_table_closed (by decide) hfaithful h).1⟩

end Bundler.Discovery
