/-
When there is no artifact for a table. Emitting asks for a record of the entry first,
and then for one of what each import means. It tells the first import that has none,
in the order of `ModuleTable.imports`: that of the records, and within a record that of
its dependency map (`emit_refuses_first`).
-/
import Bundler.Proofs.ArtifactOrder

namespace Bundler

namespace ModuleTable

/-- The imports of all records: importer, specifier and target, in the order of the
records and of their dependency maps. -/
def imports (t : ModuleTable) : List (ModuleId × String × ModuleId) :=
  t.records.flatMap fun r => r.deps.map fun p => (r.id, p)

/-- A missing dependency as an import. -/
def MissingDependency.asImport (d : MissingDependency) : ModuleId × String × ModuleId :=
  (d.importer, d.specifier, d.target)

/-- The missing dependencies are the imports whose target has no record. -/
theorem missingDependencies_eq_filter (t : ModuleTable) :
    t.missingDependencies.map (·.asImport) = t.imports.filter fun i => i.2.2 ∉ t.ids := by
  have hmissing (id : ModuleId) : (!t.contains id) = decide (id ∉ t.ids) := by
    rw [Bool.eq_iff_iff, Bool.not_eq_true', ← Bool.not_eq_true, contains_iff, decide_eq_true_iff]
  simp only [missingDependencies, imports, hmissing, List.map_flatMap, List.filter_flatMap, List.map_map,
    List.filter_map]
  rfl

/-- The imports of one record, in a table that has each identity once. -/
theorem imports_of_record {t : ModuleTable} (hn : t.ids.Nodup) {r : ModuleRecord} (hr : r ∈ t.records) :
    t.imports.filter (fun i => i.1 = r.id) = r.deps.map fun p => (r.id, p) := by
  obtain ⟨before, after, hrecords⟩ := List.append_of_mem hr
  have hids : r.id ∉ (before ++ after).map (·.id) := by
    rw [ids, hrecords, List.map_append, List.map_cons, List.nodup_middle, ← List.map_append] at hn
    exact (List.nodup_cons.1 hn).1
  have hothers : ∀ records ⊆ before ++ after,
      (records.flatMap fun r' => r'.deps.map fun p => (r'.id, p)).filter (fun i => i.1 = r.id) = [] := by
    intro records hsub
    simp only [List.filter_eq_nil_iff, List.mem_flatMap, List.mem_map, decide_eq_true_eq]
    rintro i ⟨r', hr', p, -, rfl⟩ hid
    exact hids (List.mem_map.2 ⟨r', hsub hr', hid⟩)
  have hown : (r.deps.map fun p => (r.id, p)).filter (fun i => i.1 = r.id) = r.deps.map fun p => (r.id, p) := by
    simp only [List.filter_eq_self, List.mem_map, decide_eq_true_eq]
    rintro i ⟨p, -, rfl⟩
    rfl
  rw [imports, hrecords, List.flatMap_append, List.flatMap_cons, List.filter_append, List.filter_append, hown,
    hothers before (List.subset_append_left before after), hothers after (List.subset_append_right before after),
    List.nil_append, List.append_nil]

/-- What is missing of one record: those of its imports whose target has no record, in
the order of its dependency map, each specifier for itself. -/
theorem missingDependencies_of_record {t : ModuleTable} (hn : t.ids.Nodup) {r : ModuleRecord} (hr : r ∈ t.records) :
    (t.missingDependencies.map (·.asImport)).filter (fun i => i.1 = r.id) =
      (r.deps.filter fun p => p.2 ∉ t.ids).map fun p => (r.id, p) := by
  rw [missingDependencies_eq_filter, List.filter_comm, imports_of_record hn hr, List.filter_map]
  rfl

/-- The first missing dependency is the first import whose target has no record. -/
theorem missingDependencies_eq_cons_iff {t : ModuleTable} {d : MissingDependency} :
    (∃ ds, t.missingDependencies = d :: ds) ↔
      ∃ before after, t.imports = before ++ d.asImport :: after ∧ (∀ i ∈ before, i.2.2 ∈ t.ids) ∧ d.target ∉ t.ids := by
  have hinj : ∀ d' : MissingDependency, d'.asImport = d.asImport → d' = d := by
    rintro ⟨_, _, _⟩ h
    cases d
    cases h
    rfl
  have hcons : (∃ ds, t.missingDependencies = d :: ds) ↔
      ∃ is, t.missingDependencies.map (·.asImport) = d.asImport :: is := by
    constructor
    · rintro ⟨ds, h⟩
      exact ⟨_, congrArg _ h⟩
    · rintro ⟨is, h⟩
      obtain ⟨d', ds, hds, hd, -⟩ := List.map_eq_cons_iff.1 h
      exact ⟨ds, hinj d' hd ▸ hds⟩
  rw [hcons, missingDependencies_eq_filter]
  simp only [List.filter_eq_cons_iff, decide_eq_true_eq, not_not]
  constructor
  · rintro ⟨-, before, after, himports, hbefore, hd, -⟩
    exact ⟨before, after, himports, hbefore, hd⟩
  · rintro ⟨before, after, himports, hbefore, hd⟩
    exact ⟨_, before, after, himports, hbefore, hd, rfl⟩

end ModuleTable

namespace Artifact

open ModuleTable

/-- All that emitting can come to. -/
theorem emit_cases (entry : ModuleId) (t : ModuleTable) (style : LoaderStyle) :
    (entry ∉ t.ids ∧ emit entry t style = .error (.missingEntry entry)) ∨
    (entry ∈ t.ids ∧ ∃ d ds, t.missingDependencies = d :: ds ∧
      emit entry t style = .error (.danglingDependency d.importer d.specifier d.target)) ∨
    (entry ∈ t.ids ∧ t.missingDependencies = [] ∧ ∃ bundle, emit entry t style = .ok bundle) := by
  by_cases hentry : entry ∈ t.ids
  · cases hmissing : t.missingDependencies with
    | nil => exact .inr (.inr ⟨hentry, rfl, emit_of_closed hentry hmissing style⟩)
    | cons d ds =>
      refine .inr (.inl ⟨hentry, d, ds, rfl, ?_⟩)
      simp only [emit, contains_iff.2 hentry, hmissing, Bool.not_true, Bool.false_eq_true, if_false]
  · exact .inl ⟨hentry, emit_of_not_mem hentry style⟩

variable {entry : ModuleId} {t : ModuleTable}

theorem exists_emit_ok_iff {style : LoaderStyle} :
    (∃ bundle, emit entry t style = .ok bundle) ↔ entry ∈ t.ids ∧ t.missingDependencies = [] := by
  rcases emit_cases entry t style with ⟨hentry, h⟩ | ⟨hentry, d, ds, hmissing, h⟩ | ⟨hentry, hmissing, h⟩
  · simp [h, hentry]
  · simp [h, hmissing]
  · simp [h, hentry, hmissing]

theorem emit_missingEntry_iff {style : LoaderStyle} {id : ModuleId} :
    emit entry t style = .error (.missingEntry id) ↔ id = entry ∧ entry ∉ t.ids := by
  rcases emit_cases entry t style with ⟨hentry, h⟩ | ⟨hentry, d, ds, hmissing, h⟩ | ⟨hentry, hmissing, bundle, h⟩
  · simp [h, hentry, eq_comm]
  · simp [h, hentry]
  · simp [h, hentry]

theorem emit_danglingDependency_iff {style : LoaderStyle} {d : MissingDependency} :
    emit entry t style = .error (.danglingDependency d.importer d.specifier d.target) ↔
      entry ∈ t.ids ∧ ∃ ds, t.missingDependencies = d :: ds := by
  rcases emit_cases entry t style with ⟨hentry, h⟩ | ⟨hentry, d', ds, hmissing, h⟩ | ⟨hentry, hmissing, bundle, h⟩
  · simp [h, hentry]
  · cases d
    cases d'
    simp [h, hentry, hmissing]
  · simp [h, hmissing]

/-- **Emitting tells the first thing that is missing.** There is an artifact exactly if
the entry has a record and the target of every import has one. A missing entry comes
first, whatever else is missing. Otherwise it is the first import whose target has no
record, in the order of the records and of their dependency maps. The missing
dependencies are all such imports in that order, each specifier for itself. -/
theorem emit_refuses_first (entry : ModuleId) (t : ModuleTable) (style : LoaderStyle) :
    ((∃ bundle, emit entry t style = .ok bundle) ↔
      entry ∈ t.ids ∧ ∀ r ∈ t.records, ∀ target ∈ r.deps.targets, target ∈ t.ids) ∧
    (∀ id, emit entry t style = .error (.missingEntry id) ↔ id = entry ∧ entry ∉ t.ids) ∧
    (∀ importer specifier target, emit entry t style = .error (.danglingDependency importer specifier target) ↔
      entry ∈ t.ids ∧ ∃ before after, t.imports = before ++ (importer, specifier, target) :: after ∧
        (∀ i ∈ before, i.2.2 ∈ t.ids) ∧ target ∉ t.ids) ∧
    t.missingDependencies.map (·.asImport) = t.imports.filter (fun i => i.2.2 ∉ t.ids) ∧
    (t.ids.Nodup → ∀ r ∈ t.records, (t.missingDependencies.map (·.asImport)).filter (fun i => i.1 = r.id) =
      (r.deps.filter fun p => p.2 ∉ t.ids).map fun p => (r.id, p)) := by
  refine ⟨?_, fun id => emit_missingEntry_iff, fun importer specifier target => ?_,
    missingDependencies_eq_filter t, fun hn r hr => missingDependencies_of_record hn hr⟩
  · rw [exists_emit_ok_iff, missingDependencies_eq_nil]
  · let d : MissingDependency := ⟨importer, specifier, target⟩
    exact (emit_danglingDependency_iff (d := d)).trans (and_congr_right fun _ => missingDependencies_eq_cons_iff)

/-- Two specifiers share a target without a record, and the record before theirs lacks
one of its own. -/
theorem emit_refuses_first_shared :
    let a : ModuleRecord := ⟨⟨"/a.js"⟩, "", [("./x", ⟨"/x.js"⟩), ("./b", ⟨"/b.js"⟩), ("./x.js", ⟨"/x.js"⟩)], ""⟩
    let b : ModuleRecord := ⟨⟨"/b.js"⟩, "", [("./a", ⟨"/a.js"⟩), ("./y", ⟨"/y.js"⟩)], ""⟩
    let t : ModuleTable := .ofList [b, a]
    emit a.id t .eval = .error (.danglingDependency b.id "./y" ⟨"/y.js"⟩) ∧
    emit ⟨"/x.js"⟩ t .factory = .error (.missingEntry ⟨"/x.js"⟩) ∧
    (t.missingDependencies.map (·.asImport)).filter (fun i => i.1 = a.id) =
      [(a.id, "./x", ⟨"/x.js"⟩), (a.id, "./x.js", ⟨"/x.js"⟩)] := by
  intro a b t
  obtain ⟨-, -, hdangling, -, hrecord⟩ := emit_refuses_first a.id t .eval
  obtain ⟨-, hentry, -⟩ := emit_refuses_first ⟨"/x.js"⟩ t .factory
  refine ⟨(hdangling b.id "./y" ⟨"/y.js"⟩).2 ⟨by decide, [(b.id, "./a", a.id)], a.deps.map fun p => (a.id, p), ?_⟩,
    (hentry _).2 ⟨rfl, by decide⟩, (hrecord (by decide) a (by decide)).trans ?_⟩
  · decide
  · decide

end Artifact

end Bundler
