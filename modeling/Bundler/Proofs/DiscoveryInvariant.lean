/-
What holds whenever the coordinator of a discovery starts a round: each module
visited is either in flight or in the table, with the record its build gave,
and all that the entry and the records ask for is visited or queued. When
nothing is in flight any more, the table is closed (`Consistent.settled`).
-/
import Bundler.Proofs.DiscoverySteps

namespace Bundler.Discovery

variable {plan : Plan} {entry : ModuleId} {d : Discovery}

structure Consistent (plan : Plan) (entry : ModuleId) (d : Discovery) : Prop where
  nodup : d.visited.Nodup
  /-- A module visited has reported or is in flight. -/
  split : d.visited.Perm (d.table.ids ++ d.inFlight)
  built : ∀ r ∈ d.table.records, plan.build r.id = .ok r
  hasEntry : d.Knows entry
  targets : ∀ r ∈ d.table.records, ∀ id ∈ r.deps.targets, d.Knows id
  reachable : ∀ id, d.Knows id → Reachable plan.build entry id

namespace Consistent

theorem start : Consistent plan entry (.start entry) where
  nodup := List.nodup_nil
  split := .refl _
  built r hr := by simp [Discovery.start] at hr
  hasEntry := .inr (by simp [Discovery.start])
  targets r hr := by simp [Discovery.start] at hr
  reachable id hid := by
    have : id = entry := by simpa [Knows, Discovery.start] using hid
    rw [this]; exact .refl

theorem dispatch (h : Consistent plan entry d) (capacity : Nat) :
    Consistent plan entry (d.dispatch capacity) := by
  obtain ⟨new, hv, hf, hn, hnew⟩ := d.dispatch_handsOut capacity
  refine ⟨?_, ?_, ?_, ?_, ?_, ?_⟩
  · rw [hv, List.nodup_append]
    exact ⟨h.nodup, hn, fun a ha b hb hab => hnew b hb (hab ▸ ha)⟩
  · rw [hv, hf, dispatch_table, ← List.append_assoc]
    exact h.split.append_right new
  · rw [dispatch_table]; exact h.built
  · exact dispatch_knows.2 h.hasEntry
  · rw [dispatch_table]
    exact fun r hr id hid => dispatch_knows.2 (h.targets r hr id hid)
  · exact fun id hid => h.reachable id (dispatch_knows.1 hid)

theorem mem_visited (h : Consistent plan entry d) {id : ModuleId} :
    id ∈ d.visited ↔ id ∈ d.table.ids ∨ id ∈ d.inFlight := by
  rw [h.split.mem_iff, List.mem_append]

theorem ids_nodup (h : Consistent plan entry d) : d.table.ids.Nodup :=
  (List.nodup_append.1 (h.split.nodup_iff.1 h.nodup)).1

theorem not_mem_ids_of_inFlight (h : Consistent plan entry d) {id : ModuleId} (hid : id ∈ d.inFlight) :
    id ∉ d.table.ids := fun hi =>
  (List.nodup_append.1 (h.split.nodup_iff.1 h.nodup)).2.2 id hi id hid rfl

/-- The record of a build in flight is new to the table. -/
theorem accept (h : Consistent plan entry d) {id : ModuleId} {r : ModuleRecord} (hid : id ∈ d.inFlight)
    (hb : plan.build id = .ok r) (hr : r.id = id) :
    Consistent plan entry (accept { d with inFlight := d.inFlight.erase id } r) := by
  subst hr
  have hnew : r.id ∉ d.table.ids := h.not_mem_ids_of_inFlight hid
  have hrec : (d.table.insert r).records = d.table.records ++ [r] := ModuleTable.insert_of_not_mem hnew
  have hids : (d.table.insert r).ids = d.table.ids ++ [r.id] := ModuleTable.insert_ids_of_not_mem hnew
  have hreach : Reachable plan.build entry r.id := h.reachable _ (.inl (h.mem_visited.2 (.inr hid)))
  refine ⟨?_, ?_, ?_, ?_, ?_, ?_⟩
  · rw [accept_visited]; exact h.nodup
  · rw [accept_visited, accept_table, accept_inFlight, hids, List.append_assoc]
    exact h.split.trans ((List.perm_cons_erase hid).append_left _)
  · rw [accept_table, hrec]
    intro r' hr'
    rcases List.mem_append.1 hr' with hr' | hr'
    · exact h.built r' hr'
    · rw [List.mem_singleton.1 hr']; exact hb
  · exact accept_knows.2 (.inl h.hasEntry)
  · rw [accept_table, hrec]
    intro r' hr' id hid'
    rcases List.mem_append.1 hr' with hr' | hr'
    · exact accept_knows.2 (.inl (h.targets r' hr' id hid'))
    · rw [List.mem_singleton.1 hr'] at hid'
      exact accept_knows.2 (.inr hid')
  · intro id hk
    rcases accept_knows.1 hk with hk | hk
    · exact h.reachable id hk
    · exact hreach.tail ⟨r, hb, hk⟩

end Consistent

/-- **The invariant holds at every loop head.** The records are as many as the
turns taken, each of which was a report. -/
theorem LoopHead.consistent (hfaithful : Faithful plan.build) {past : List Turn}
    (h : LoopHead plan entry past d) :
    Consistent plan entry d ∧ d.table.records.length = past.length ∧
      ∀ t ∈ past, ∃ position, t = .report position := by
  induction h with
  | start => exact ⟨.start, rfl, by simp⟩
  | @turn past d d' earliest rest t _ hf ht ih =>
    obtain ⟨hc, hlen, hpast⟩ := ih
    obtain ⟨position, rfl, id, hid, r, hb, rfl⟩ := turn_ok hf ht
    have hd := hc.dispatch plan.capacity
    have hr := hfaithful id r hb
    refine ⟨hd.accept hid hb hr, ?_, ?_⟩
    · rw [accept_table, dispatch_table, ModuleTable.insert_of_not_mem, List.length_append, hlen,
        List.length_append]
      · simp
      · simpa [hr] using hd.not_mem_ids_of_inFlight hid
    · intro t ht
      rcases List.mem_append.1 ht with ht | ht
      · exact hpast t ht
      · exact ⟨position, List.mem_singleton.1 ht⟩

/-! ## The end of a run -/

/-- A table that holds all an entry needs, and nothing else. -/
structure Closed (build : ModuleId → Except BuildError ModuleRecord) (entry : ModuleId) (t : ModuleTable) :
    Prop where
  nodup : t.ids.Nodup
  built : ∀ r ∈ t.records, build r.id = .ok r
  mem_ids : ∀ id, id ∈ t.ids ↔ Reachable build entry id

theorem Consistent.knows_iff_of_settled (h : Consistent plan entry d) (hf : d.inFlight = [])
    (hq : d.queue = []) {id : ModuleId} : d.Knows id ↔ id ∈ d.table.ids := by
  simp only [Knows, hq, List.not_mem_nil, or_false, h.mem_visited, hf]

theorem Consistent.settled (h : Consistent plan entry d) (hf : d.inFlight = []) (hq : d.queue = []) :
    Closed plan.build entry d.table where
  nodup := h.ids_nodup
  built := h.built
  mem_ids id := by
    constructor
    · exact fun hid => h.reachable id ((h.knows_iff_of_settled hf hq).2 hid)
    · intro hreach
      induction hreach with
      | refl => exact (h.knows_iff_of_settled hf hq).1 h.hasEntry
      | @tail importer imported _ himp ih =>
        obtain ⟨r, hr, rfl⟩ := ModuleTable.mem_ids.1 ih
        obtain ⟨r', hb, ht⟩ := himp
        rw [h.built r hr, Except.ok.injEq] at hb
        exact (h.knows_iff_of_settled hf hq).1 (h.targets r hr imported (hb ▸ ht))

end Bundler.Discovery
