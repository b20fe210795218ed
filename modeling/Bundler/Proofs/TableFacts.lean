/-
Facts about dependency maps and module tables: what imports mean, which
identities a table has, what an insertion adds, that sorting permutes the
records and puts them in ascending order (so that a sorted table is known from
its records alone, `sort_eq_of_mem_iff`), and when no import is left without a
record. However a table is made by insertions and sorting, it has each identity
once (`ofEdits_nodup`).
-/
import Mathlib.Data.List.Nodup
import Bundler.Proofs.ByteOrder

namespace Bundler

namespace DependencyMap

theorem mem_targets {deps : DependencyMap} {id : ModuleId} :
    id ∈ deps.targets ↔ ∃ specifier, (specifier, id) ∈ deps := by
  simp only [targets, List.mem_map]
  constructor
  · rintro ⟨⟨specifier, target⟩, hm, rfl⟩
    exact ⟨specifier, hm⟩
  · rintro ⟨specifier, hm⟩
    exact ⟨(specifier, id), hm, rfl⟩

/-- Each specifier occurs once, as in every map that is made by insertions. -/
def Distinct (deps : DependencyMap) : Prop := (deps.map (·.1)).Nodup

theorem Distinct.nil : Distinct [] := List.nodup_nil

/-- The meaning of a specifier that has one. -/
theorem Distinct.get?_eq_some {deps : DependencyMap} (h : deps.Distinct) {specifier : String}
    {target : ModuleId} (hm : (specifier, target) ∈ deps) : deps.get? specifier = some target := by
  unfold get?
  cases hf : deps.find? fun p => p.1 = specifier with
  | none => exact absurd (decide_eq_true rfl) (List.find?_eq_none.1 hf _ hm)
  | some p =>
    have hp : p.1 = specifier := by simpa using List.find?_some hf
    rw [List.inj_on_of_nodup_map h (List.mem_of_find?_eq_some hf) hm hp]
    rfl

theorem mem_of_get? {deps : DependencyMap} {specifier : String} {target : ModuleId}
    (h : deps.get? specifier = some target) : (specifier, target) ∈ deps := by
  obtain ⟨⟨s, t⟩, hfind, rfl⟩ := Option.map_eq_some_iff.1 h
  have hs : s = specifier := by simpa using List.find?_some hfind
  rw [← hs]
  exact List.mem_of_find?_eq_some hfind

theorem get?_eq_none {deps : DependencyMap} {specifier : String} :
    deps.get? specifier = none ↔ specifier ∉ deps.map (·.1) := by
  simp only [get?, Option.map_eq_none_iff, List.find?_eq_none, decide_eq_true_eq, List.mem_map,
    not_exists, not_and]

theorem mem_insert {specifier : String} {target : ModuleId} {p : String × ModuleId} :
    ∀ {deps : DependencyMap}, p ∈ deps.insert specifier target → p ∈ deps ∨ p = (specifier, target)
  | [], h => .inr (List.mem_singleton.1 h)
  | (s, t) :: rest, h => by
    unfold insert at h
    split at h
    · next hs =>
      rcases List.mem_cons.1 h with rfl | h
      · exact .inr (by rw [hs])
      · exact .inl (List.mem_cons_of_mem _ h)
    · rcases List.mem_cons.1 h with rfl | h
      · exact .inl List.mem_cons_self
      · exact (mem_insert h).imp_left (List.mem_cons_of_mem _)

theorem Distinct.insert {specifier : String} {target : ModuleId} : ∀ {deps : DependencyMap},
    deps.Distinct → (deps.insert specifier target).Distinct
  | [], _ => List.nodup_singleton _
  | (s, t) :: rest, h => by
    unfold DependencyMap.insert
    have hs : s ∉ rest.map (·.1) := (List.nodup_cons.1 h).1
    split
    · exact h
    · next hne =>
      refine List.nodup_cons.2 ⟨?_, Distinct.insert (List.nodup_cons.1 h).2⟩
      intro hmem
      obtain ⟨p, hp, hps⟩ := List.mem_map.1 hmem
      rcases mem_insert hp with hp | rfl
      · exact hs (List.mem_map.2 ⟨p, hp, hps⟩)
      · exact hne hps.symm

theorem Distinct.inserts : ∀ (pairs : List (String × ModuleId)) {deps : DependencyMap}, deps.Distinct →
    (pairs.foldl (fun deps (s, t) => DependencyMap.insert deps s t) deps).Distinct
  | [], _, h => h
  | _ :: pairs, _, h => inserts pairs h.insert

theorem ofList_distinct (pairs : List (String × ModuleId)) : (ofList pairs).Distinct :=
  Distinct.inserts pairs .nil

end DependencyMap

namespace ModuleRecord

/-- Records in the ascending order of their identities. -/
def Ascending (records : List ModuleRecord) : Prop := ModuleId.Ascending (records.map (·.id))

theorem ascending_iff {records : List ModuleRecord} :
    Ascending records ↔ records.Pairwise fun a b => a.id.bytes < b.id.bytes := List.pairwise_map

/-- Lists of records in ascending order that hold the same records are the same. -/
theorem Ascending.eq_of_mem_iff {records records' : List ModuleRecord} (h : Ascending records)
    (h' : Ascending records') (hm : ∀ r, r ∈ records ↔ r ∈ records') : records = records' :=
  eq_of_asymm List.lt_asymm (ascending_iff.1 h) (ascending_iff.1 h') hm

/-- The identity of a record is not that of one before it. -/
theorem id_not_mem {before after : List ModuleRecord} {r : ModuleRecord}
    (h : ((before ++ r :: after).map (·.id)).Nodup) : r.id ∉ before.map (·.id) := by
  intro hid
  rw [List.map_append] at h
  exact (List.nodup_append.1 h).2.2 r.id hid r.id List.mem_cons_self rfl

end ModuleRecord

namespace ModuleTable

theorem mem_ids {t : ModuleTable} {id : ModuleId} : id ∈ t.ids ↔ ∃ r ∈ t.records, r.id = id := by
  simp only [ids, List.mem_map]

theorem contains_iff {t : ModuleTable} {id : ModuleId} : t.contains id = true ↔ id ∈ t.ids := by
  simp only [contains, List.any_eq_true, decide_eq_true_eq, mem_ids]

theorem isSome_get? {t : ModuleTable} {id : ModuleId} : (t.get? id).isSome = true ↔ id ∈ t.ids := by
  simp only [get?, List.find?_isSome, decide_eq_true_eq, mem_ids]

theorem insert_of_not_mem {t : ModuleTable} {r : ModuleRecord} (h : r.id ∉ t.ids) :
    (t.insert r).records = t.records ++ [r] := by
  have hc : t.contains r.id = false := by
    rw [Bool.eq_false_iff, ne_eq, contains_iff]
    exact h
  simp only [insert, hc, Bool.false_eq_true, if_false]

theorem insert_ids_of_not_mem {t : ModuleTable} {r : ModuleRecord} (h : r.id ∉ t.ids) :
    (t.insert r).ids = t.ids ++ [r.id] := by
  simp only [ids, insert_of_not_mem h, List.map_append, List.map_cons, List.map_nil]

theorem insert_of_mem {t : ModuleTable} {r : ModuleRecord} (h : r.id ∈ t.ids) : t.insert r = t := by
  simp only [insert, contains_iff.2 h, if_true]

theorem inserts_records : ∀ (records : List ModuleRecord) {t : ModuleTable},
    ((t.records ++ records).map (·.id)).Nodup → (records.foldl insert t).records = t.records ++ records
  | [], t, _ => (List.append_nil _).symm
  | r :: records, t, h => by
    have hr : r.id ∉ t.ids := ModuleRecord.id_not_mem h
    rw [List.append_cons] at h ⊢
    rw [List.foldl_cons, inserts_records records, insert_of_not_mem hr]
    rw [insert_of_not_mem hr]
    exact h

/-- Records of different modules are all kept, in the order of insertion. -/
theorem ofList_records {records : List ModuleRecord} (h : (records.map (·.id)).Nodup) :
    (ofList records).records = records := inserts_records records h

/-! ## Sorting -/

theorem sort_perm (t : ModuleTable) : t.sort.records.Perm t.records := List.mergeSort_perm _ _

theorem mem_sort {t : ModuleTable} {r : ModuleRecord} : r ∈ t.sort.records ↔ r ∈ t.records :=
  t.sort_perm.mem_iff

theorem sort_ne_nil {t : ModuleTable} (h : t.records ≠ []) : t.sort.records ≠ [] := fun hnil =>
  h (t.sort_perm.symm.trans (hnil ▸ .refl _)).eq_nil

theorem sort_ids (t : ModuleTable) : t.sort.ids = ImportGraph.sortIds t.ids :=
  List.map_mergeSort fun _ _ _ _ => rfl

theorem mem_sort_ids {t : ModuleTable} {id : ModuleId} : id ∈ t.sort.ids ↔ id ∈ t.ids := by
  rw [sort_ids, ImportGraph.mem_sortIds]

theorem sort_ascending {t : ModuleTable} (h : t.ids.Nodup) : ModuleId.Ascending t.sort.ids := by
  rw [sort_ids]
  exact ImportGraph.sortIds_ascending h

/-- Tables of the same records, with each identity once, are the same when they
are sorted. -/
theorem sort_eq_of_mem_iff {t t' : ModuleTable} (hn : t.ids.Nodup) (hn' : t'.ids.Nodup)
    (hm : ∀ r, r ∈ t.records ↔ r ∈ t'.records) : t.sort = t'.sort := by
  have hrecords : t.sort.records = t'.sort.records := by
    refine ModuleRecord.Ascending.eq_of_mem_iff (sort_ascending hn) (sort_ascending hn') ?_
    intro r
    rw [mem_sort, mem_sort, hm]
  exact congrArg ModuleTable.mk hrecords

/-! ## Missing dependencies -/

theorem missingDependencies_eq_nil {t : ModuleTable} :
    t.missingDependencies = [] ↔ ∀ r ∈ t.records, ∀ id ∈ r.deps.targets, id ∈ t.ids := by
  simp only [missingDependencies, List.flatMap_eq_nil_iff, List.map_eq_nil_iff,
    List.filter_eq_nil_iff, Bool.not_eq_true', Bool.not_eq_false, contains_iff]
  constructor
  · intro h r hr id hid
    obtain ⟨specifier, hm⟩ := DependencyMap.mem_targets.1 hid
    exact h r hr (specifier, id) hm
  · rintro h r hr ⟨specifier, id⟩ hm
    exact h r hr id (DependencyMap.mem_targets.2 ⟨specifier, hm⟩)

theorem missingDependencies_sort {t : ModuleTable} :
    t.sort.missingDependencies = [] ↔ t.missingDependencies = [] := by
  simp only [missingDependencies_eq_nil, mem_sort, mem_sort_ids]

/-! ## Records of identities -/

theorem of_get?_eq_some {t : ModuleTable} {id : ModuleId} {r : ModuleRecord} (h : t.get? id = some r) :
    r ∈ t.records ∧ r.id = id := by
  unfold get? at h
  exact ⟨List.mem_of_find?_eq_some h, by simpa using List.find?_some h⟩

/-- The record of an identity, in a table that has each identity once. -/
theorem get?_eq_some {t : ModuleTable} (hn : t.ids.Nodup) {id : ModuleId} {r : ModuleRecord} :
    t.get? id = some r ↔ r ∈ t.records ∧ r.id = id := by
  refine ⟨of_get?_eq_some, ?_⟩
  rintro ⟨hr, rfl⟩
  cases hg : t.get? r.id with
  | none => exact absurd (decide_eq_true rfl) (List.find?_eq_none.1 hg r hr)
  | some r' =>
    obtain ⟨hr', hid⟩ := of_get?_eq_some hg
    rw [List.inj_on_of_nodup_map hn hr' hr hid]

/-! ## Edits -/

/-- What can be done to a table. -/
inductive Edit where
  | insert (r : ModuleRecord)
  | sort
deriving DecidableEq, Repr

def edit (t : ModuleTable) : Edit → ModuleTable
  | .insert r => t.insert r
  | .sort => t.sort

/-- What edits make of the empty table. -/
def ofEdits (edits : List Edit) : ModuleTable := edits.foldl edit {}

theorem edit_nodup {t : ModuleTable} (h : t.ids.Nodup) : ∀ e : Edit, (t.edit e).ids.Nodup
  | .insert r => by
    by_cases hid : r.id ∈ t.ids
    · rw [edit, insert_of_mem hid]
      exact h
    · rw [edit, insert_ids_of_not_mem hid, ← List.concat_eq_append]
      exact h.concat hid
  | .sort => (t.sort_perm.map _).nodup_iff.2 h

theorem edits_nodup : ∀ (edits : List Edit) {t : ModuleTable}, t.ids.Nodup → (edits.foldl edit t).ids.Nodup
  | [], _, h => h
  | e :: edits, _, h => edits_nodup edits (edit_nodup h e)

/-- **Every table has each identity once.** -/
theorem ofEdits_nodup (edits : List Edit) : (ofEdits edits).ids.Nodup := edits_nodup edits List.nodup_nil

end ModuleTable

end Bundler
