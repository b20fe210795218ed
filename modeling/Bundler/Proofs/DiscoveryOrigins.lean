/-
Which import a failed discovery tells of. The coordinator notes an origin when
it queues a module, and only if the module has not been visited by then. What
it has noted is still the first import of the module, in the order in which
records were accepted and, within a record, in the order of its imports
(`Attributed`): a module that is visited has been queued for such an import
before, all but the entry, which no import is noted for.
-/
import Bundler.Proofs.DiscoveryLog

namespace Bundler

/-- The first import of a module in a record. -/
def ModuleRecord.originOf? (r : ModuleRecord) (id : ModuleId) : Option Origin :=
  (r.deps.find? fun dep => dep.2 = id).map fun dep => ⟨r.id, dep.1⟩

namespace Discovery

/-! ## First imports -/

/-- The first import of a module in a list of records. -/
def firstOrigin? (records : List ModuleRecord) (id : ModuleId) : Option Origin :=
  records.findSome? fun r => r.originOf? id

theorem firstOrigin?_append (records : List ModuleRecord) (r : ModuleRecord) (id : ModuleId) :
    firstOrigin? (records ++ [r]) id = (firstOrigin? records id).or (r.originOf? id) := by
  simp [firstOrigin?, List.findSome?_append]

theorem isSome_originOf? {r : ModuleRecord} {id : ModuleId} :
    (r.originOf? id).isSome = true ↔ id ∈ r.deps.targets := by
  simp [ModuleRecord.originOf?, DependencyMap.targets]

theorem isSome_firstOrigin? {records : List ModuleRecord} {id : ModuleId} :
    (firstOrigin? records id).isSome = true ↔ ∃ r ∈ records, id ∈ r.deps.targets := by
  simp only [firstOrigin?, List.isSome_findSome?, List.any_eq_true, isSome_originOf?]

theorem firstOrigin?_eq_some {records : List ModuleRecord} {id : ModuleId} {o : Origin}
    (h : firstOrigin? records id = some o) :
    ∃ r, records.find? (fun r => id ∈ r.deps.targets) = some r ∧ o.importer = r.id ∧
      r.deps.find? (fun dep => dep.2 = id) = some (o.specifier, id) := by
  induction records with
  | nil => cases h
  | cons r records ih =>
    rw [firstOrigin?, List.findSome?_cons] at h
    cases hr : r.originOf? id with
    | none =>
      rw [hr] at h
      have hnot : id ∉ r.deps.targets := by
        rw [← isSome_originOf?, hr]
        exact Bool.false_ne_true
      rw [List.find?_cons_of_neg (by simpa using hnot)]
      exact ih h
    | some o' =>
      rw [hr] at h
      obtain rfl := Option.some.inj h
      obtain ⟨⟨specifier, target⟩, hfind, rfl⟩ := Option.map_eq_some_iff.1 hr
      have htarget : target = id := by simpa using List.find?_some hfind
      have hmem : id ∈ r.deps.targets := isSome_originOf?.1 (by rw [hr]; rfl)
      exact ⟨r, List.find?_cons_of_pos (by simpa using hmem), rfl, htarget ▸ hfind⟩

/-! ## Notes -/

theorem any_origins (d : Discovery) (id : ModuleId) :
    (d.origins.any fun o => o.1 = id) = (d.origin? id).isSome := by
  rw [origin?, Option.isSome_map, Bool.eq_iff_iff, List.find?_isSome, List.any_eq_true]

/-- An import becomes the origin of its module if it is the first to ask. -/
theorem noteImport_origin? (importer : ModuleId) (d : Discovery) (dep : String × ModuleId) (id : ModuleId) :
    (noteImport importer d dep).origin? id =
      (d.origin? id).or (if id ∈ d.visited ∨ dep.2 ≠ id then none else some ⟨importer, dep.1⟩) := by
  obtain ⟨specifier, target⟩ := dep
  by_cases ht : target = id
  · subst ht
    by_cases hvisited : target ∈ d.visited
    · simp [noteImport, hvisited]
    · cases ho : d.origin? target with
      | some o =>
        simp only [noteImport, hvisited, any_origins, ho, Option.isSome_some, if_true, if_false, Option.some_or]
        exact ho
      | none =>
        simp only [origin?, Option.map_eq_none_iff] at ho
        simp [noteImport, hvisited, any_origins, origin?, ho]
  · simp only [noteImport, any_origins, ne_eq, ht, not_false_eq_true, or_true, if_true, Option.or_none]
    split
    · rfl
    · split
      · rfl
      · simp [origin?, List.find?_append, ht]

theorem noteImports_origin? (importer : ModuleId) (id : ModuleId) : ∀ (deps : DependencyMap) (d : Discovery),
    (deps.foldl (noteImport importer) d).origin? id =
      (d.origin? id).or (if id ∈ d.visited then none
        else (deps.find? fun dep => dep.2 = id).map fun dep => ⟨importer, dep.1⟩)
  | [], d => by simp
  | dep :: deps, d => by
    rw [List.foldl_cons, noteImports_origin? importer id deps, noteImport_origin?, noteImport_visited,
      Option.or_assoc]
    by_cases hvisited : id ∈ d.visited
    · simp [hvisited]
    · by_cases hdep : dep.2 = id
      · simp [hvisited, hdep]
      · simp [hvisited, hdep]

/-- An accepted record gives origins to the modules that nothing has asked for
before and that are not visited. -/
theorem accept_origin? (d : Discovery) (r : ModuleRecord) (id : ModuleId) :
    (d.accept r).origin? id =
      (d.origin? id).or (if id ∈ d.visited then none else r.originOf? id) :=
  noteImports_origin? r.id id r.deps d

theorem dispatchFrom_origins (capacity : Nat) (queue : List ModuleId) (d : Discovery) :
    (dispatchFrom capacity queue d).origins = d.origins := by
  fun_induction dispatchFrom capacity queue d <;> simp_all

@[simp] theorem dispatch_origin? (d : Discovery) (capacity : Nat) (id : ModuleId) :
    (d.dispatch capacity).origin? id = d.origin? id := by
  rw [origin?, dispatch, dispatchFrom_origins, origin?]

/-! ## What is noted at a loop head -/

variable {plan : Plan} {entry : ModuleId} {past : List Turn} {d : Discovery}

/-- No record is accepted before the entry has been visited. -/
theorem LoopHead.entry_visited (h : LoopHead plan entry past d) :
    ∀ {earliest rest}, (d.dispatch plan.capacity).inFlight = earliest :: rest →
      entry ∈ (d.dispatch plan.capacity).visited := by
  induction h with
  | start =>
    intro earliest rest hf
    have hc : Consistent plan entry ((Discovery.start entry).dispatch plan.capacity) := Consistent.start.dispatch _
    have hvisited := hc.mem_visited.2 (.inr (hf ▸ List.mem_cons_self : earliest ∈ _))
    have hknows : (Discovery.start entry).Knows earliest := dispatch_knows.1 (.inl hvisited)
    obtain rfl : earliest = entry := by simpa [Knows, Discovery.start] using hknows
    exact hvisited
  | @turn past d d' earliest rest t _ hf ht ih =>
    intro _ _ _
    obtain ⟨_, -, id, -, r, -, rfl⟩ := turn_ok hf ht
    obtain ⟨new, hv, -⟩ := dispatch_handsOut
      (Discovery.accept { d.dispatch plan.capacity with
        inFlight := (d.dispatch plan.capacity).inFlight.erase id } r) plan.capacity
    rw [hv, accept_visited]
    exact List.mem_append_left _ (ih hf)

/-- What is noted for each module is its first import in the accepted records;
for the entry nothing is noted. -/
structure Attributed (entry : ModuleId) (d : Discovery) : Prop where
  ofEntry : d.origin? entry = none
  ofOthers : ∀ id, id ≠ entry → d.origin? id = firstOrigin? d.table.records id

theorem Attributed.dispatch (h : Attributed entry d) (capacity : Nat) :
    Attributed entry (d.dispatch capacity) where
  ofEntry := by rw [dispatch_origin?]; exact h.ofEntry
  ofOthers id hid := by rw [dispatch_origin?, dispatch_table]; exact h.ofOthers id hid

theorem Attributed.accept (h : Attributed entry d) {id : ModuleId} {r : ModuleRecord}
    (hrecords : (d.table.insert r).records = d.table.records ++ [r]) (hentry : entry ∈ d.visited)
    (hasked : ∀ id ∈ d.visited, Asked entry d.table.records id) :
    Attributed entry (Discovery.accept { d with inFlight := d.inFlight.erase id } r) := by
  refine ⟨?_, fun x hx => ?_⟩
  · rw [accept_origin?]
    simp only [hentry, if_true, Option.or_none]
    exact h.ofEntry
  · have hnoted := h.ofOthers x hx
    rw [accept_origin?, accept_table, hrecords, firstOrigin?_append]
    simp only [origin?] at hnoted ⊢
    rw [hnoted]
    by_cases hvisited : x ∈ d.visited
    · -- it is visited because an accepted record has asked for it
      have hsome := isSome_firstOrigin?.2 ((hasked x hvisited).resolve_left hx)
      obtain ⟨o, ho⟩ := Option.isSome_iff_exists.1 hsome
      rw [ho, Option.some_or, Option.some_or]
    · simp only [hvisited, if_false]

theorem LoopHead.attributed (hfaithful : Faithful plan.build) (h : LoopHead plan entry past d) :
    Attributed entry d := by
  induction h with
  | start => exact ⟨rfl, fun _ _ => rfl⟩
  | @turn past d d' earliest rest t hd hf ht ih =>
    obtain ⟨_, -, id, hid, r, hb, rfl⟩ := turn_ok hf ht
    have hc := (hd.consistent hfaithful).1.dispatch plan.capacity
    refine (ih.dispatch _).accept (hc.insert_records hid (hfaithful id r hb)) (hd.entry_visited hf) ?_
    intro x hx
    rw [dispatch_table]
    exact hd.asked hfaithful (dispatch_knows.1 (.inl hx))

/-! ## Failures -/

theorem mem_reported {log : List Event} {id : ModuleId} {result : Except BuildError ModuleRecord}
    (h : .report id result ∈ log) : id ∈ reported log := List.mem_filterMap.2 ⟨_, h, rfl⟩

/-- The import that a failed build is said to be asked for by. -/
theorem Attributed.fail (h : Attributed entry d) {id : ModuleId} (b : BuildError) (hne : id ≠ entry)
    (hasked : Asked entry d.table.records id) :
    ∃ r specifier, (d.fail id b).importer = some r.id ∧ (d.fail id b).specifier = some specifier ∧
      d.table.records.find? (fun r => id ∈ r.deps.targets) = some r ∧
      r.deps.find? (fun dep => dep.2 = id) = some (specifier, id) := by
  obtain ⟨o, ho⟩ := Option.isSome_iff_exists.1 (isSome_firstOrigin?.2 (hasked.resolve_left hne))
  obtain ⟨r, hr, himporter, hdep⟩ := firstOrigin?_eq_some ho
  refine ⟨r, o.specifier, ?_, ?_, hr, hdep⟩
  · simp only [Discovery.fail, h.ofOthers id hne, ho, Option.map_some, himporter]
  · simp only [Discovery.fail, h.ofOthers id hne, ho, Option.map_some]

theorem Attributed.origin?_eq_none (h : Attributed entry d) {id : ModuleId}
    (hasked : Asked entry d.table.records id) : d.origin? id = none ↔ id = entry := by
  constructor
  · intro hnone
    by_contra hne
    have hsome := isSome_firstOrigin?.2 (hasked.resolve_left hne)
    rw [← h.ofOthers id hne, hnone] at hsome
    cases hsome
  · rintro rfl
    exact h.ofEntry

/-- What a failed run has come to. -/
theorem Outcome.of_error {last : List Event} {o : DiscoveryOutcome} {e : DiscoveryError}
    (h : Outcome plan d last o) (he : o.result = .error e) :
    ∃ id b, id ∈ d.inFlight ∧ e = d.fail id b ∧ accepted last = [] ∧ ∀ x r, .report x (.ok r) ∉ last := by
  cases h with
  | settled hf => cases he
  | @lost id b hid => exact ⟨id, b, hid, (Except.error.inj he).symm, rfl, by simp⟩
  | @failed id b hid hb => exact ⟨id, b, hid, (Except.error.inj he).symm, rfl, by simp⟩

/-- What a failed run has come to: a build that is in flight is lost or fails, and
all that was accepted is in the table. -/
theorem discover_error (hfaithful : Faithful plan.build) {turns : List Turn} {e : DiscoveryError}
    (h : (discover plan turns entry).result = .error e) :
    ∃ d id b, Consistent plan entry d ∧ Attributed entry d ∧ e = d.fail id b ∧
      Asked entry d.table.records id ∧
      id ∈ handedOut (log plan turns (.start entry)) ∧
      (∀ r, .report id (.ok r) ∉ log plan turns (.start entry)) ∧
      accepted (log plan turns (.start entry)) = d.table.records := by
  obtain ⟨_, d, before, last, hd, hrec, hlog, ho⟩ := discover_recorded hfaithful turns entry
  have hc := (hd.consistent hfaithful).1.dispatch plan.capacity
  obtain ⟨id, b, hid, rfl, hlast, hnone⟩ := ho.of_error h
  have hvisited : id ∈ (d.dispatch plan.capacity).visited := hc.mem_visited.2 (.inr hid)
  refine ⟨d.dispatch plan.capacity, id, b, hc, (hd.attributed hfaithful).dispatch _, rfl, ?_, ?_, ?_, ?_⟩
  · rw [dispatch_table]
    exact hd.asked hfaithful (dispatch_knows.1 (.inl hvisited))
  · rw [hlog, handedOut_append, hrec.handedOut]
    exact List.mem_append_left _ hvisited
  · intro r hmem
    rw [hlog] at hmem
    rcases List.mem_append.1 hmem with hmem | hmem
    · have hreported := mem_reported hmem
      rw [hrec.reported] at hreported
      exact hc.not_mem_ids_of_inFlight hid hreported
    · exact hnone id r hmem
  · rw [hlog, accepted_append, hlast, List.append_nil, hrec.accepted]

/-- **A failed discovery tells of the right import**, whatever it fails by. It
names a module that was handed out and has not reported a record. It tells of
no import if that is the entry. Otherwise the importer is the first of the
accepted records with an import of the module, and the specifier is the first
one there that means it. -/
theorem discover_error_origin {τ σ : Type} [Storage σ] (b : Builder τ) (storage : σ)
    (workers timeoutMs : Nat) {turns : List Turn} {entry : ModuleId} {e : DiscoveryError}
    (h : (discover ⟨b.build storage, workers, timeoutMs⟩ turns entry).result = .error e) :
    let log := log ⟨b.build storage, workers, timeoutMs⟩ turns (.start entry)
    e.module ∈ handedOut log ∧
    (∀ r, .report e.module (.ok r) ∉ log) ∧
    (e.importer = none ↔ e.module = entry) ∧
    (e.specifier = none ↔ e.module = entry) ∧
    (e.module ≠ entry → ∃ r specifier,
      e.importer = some r.id ∧ e.specifier = some specifier ∧
      b.build storage r.id = .ok r ∧ r.deps.get? specifier = some e.module ∧
      (accepted log).find? (fun r => e.module ∈ r.deps.targets) = some r ∧
      r.deps.find? (fun dep => dep.2 = e.module) = some (specifier, e.module)) := by
  intro log
  obtain ⟨d, id, err, hc, hattributed, rfl, hasked, hhanded, hunreported, haccepted⟩ :=
    discover_error (b.build_faithful storage) h
  have hmodule : (d.fail id err).module = id := rfl
  rw [hmodule, haccepted]
  refine ⟨hhanded, hunreported, ?_, ?_, ?_⟩
  · exact Option.map_eq_none_iff.trans (hattributed.origin?_eq_none hasked)
  · exact Option.map_eq_none_iff.trans (hattributed.origin?_eq_none hasked)
  · intro hne
    obtain ⟨r, specifier, himporter, hspecifier, hr, hdep⟩ := hattributed.fail err hne hasked
    have hb : b.build storage r.id = .ok r := hc.built r (List.mem_of_find?_eq_some hr)
    have hdistinct := Builder.deps_distinct_of_build hb
    exact ⟨r, specifier, himporter, hspecifier, hb,
      hdistinct.get?_eq_some (List.mem_of_find?_eq_some hdep), hr, hdep⟩

/-- Two modules import one that is not there. The second of them reports first,
and it has two spellings for the import. -/
theorem discover_error_origin_spellings :
    let storage : MemoryStorage := .ofList
      [(.ofString "/m.js", "import './a.js';\nimport './b.js';"), (.ofString "/a.js", "import './x.js';"),
       (.ofString "/b.js", "import './m.js';\nimport './lib/../x.js';\nimport './x.js';")]
    let b : Builder Script.Module := ⟨scriptTransform, .es2015⟩
    let plan : Plan := ⟨b.build storage, 2, 20⟩
    let turns : List Turn := [.report 0, .report 1, .report 0, .report 0]
    ∃ e, (discover plan turns ⟨"/m.js"⟩).result = .error e ∧ e.module = ⟨"/x.js"⟩ ∧
      e.importer = some ⟨"/b.js"⟩ ∧ e.specifier = some "./lib/../x.js" ∧
      ∃ r, r.id = ⟨"/b.js"⟩ ∧
        (accepted (log plan turns (.start ⟨"/m.js"⟩))).find? (fun r => e.module ∈ r.deps.targets) = some r := by
  intro storage b plan turns
  have he : (discover plan turns ⟨"/m.js"⟩).result =
      .error ⟨⟨"/x.js"⟩, some ⟨"/b.js"⟩, some "./lib/../x.js",
        .parse (ModuleId.path ⟨"/x.js"⟩) "cannot read module: file not found: /x.js"⟩ := by
    decide +kernel
  obtain ⟨-, -, -, -, horigin⟩ := discover_error_origin b storage 2 20 he
  obtain ⟨r, specifier, himporter, -, -, -, hfirst, -⟩ := horigin (by decide)
  exact ⟨_, he, rfl, rfl, rfl, r, (Option.some.inj himporter).symm, hfirst⟩

end Discovery
end Bundler
