/-
An artifact depends on which records a table has, and not on how the table came
to have them (`emit_same_records`). Records are put in the order of their
identities by an ordered map for an eval artifact, and by a sort for a factory
artifact, whose lines then end as their positions say (`writeTable`). Both write
the one table in ascending order that has these records.
-/
import Bundler.Proofs.ArtifactContents

namespace Bundler

namespace Artifact

/-! ## Ordered maps -/

/-- Puts a record where its identity belongs in an ordered map. A record that the
map has for the identity is replaced. -/
def place (map : List ModuleRecord) (r : ModuleRecord) : List ModuleRecord :=
  match map with
  | [] => [r]
  | first :: rest =>
    if r.id = first.id then r :: rest
    else if r.id.le first.id then r :: first :: rest
    else first :: place rest r

/-- Records from an ordered map that they were put into one after the other. -/
def orderedMap (records : List ModuleRecord) : List ModuleRecord := records.foldl place []

theorem mem_place {map : List ModuleRecord} {r r' : ModuleRecord} (h : r' ∈ place map r) :
    r' = r ∨ r' ∈ map := by
  fun_induction place map r with
  | case1 => exact .inl (List.mem_singleton.1 h)
  | case2 first rest => exact (List.mem_cons.1 h).imp_right (List.mem_cons_of_mem first)
  | case3 => exact List.mem_cons.1 h
  | case4 first rest _ _ ih =>
    rcases List.mem_cons.1 h with rfl | h
    · exact .inr List.mem_cons_self
    · exact (ih h).imp_right (List.mem_cons_of_mem first)

/-- An ordered map stays in order. -/
theorem place_ascending {map : List ModuleRecord} (r : ModuleRecord) (h : ModuleRecord.Ascending map) :
    ModuleRecord.Ascending (place map r) := by
  rw [ModuleRecord.ascending_iff] at h ⊢
  fun_induction place map r with
  | case1 => exact List.pairwise_singleton _ _
  | case2 first rest hid =>
    obtain ⟨hfirst, hrest⟩ := List.pairwise_cons.1 h
    exact List.pairwise_cons.2 ⟨by rw [hid]; exact hfirst, hrest⟩
  | case3 first rest hid hle =>
    have hlt : r.id.bytes < first.id.bytes := (ModuleId.le_iff.1 hle).resolve_right hid
    refine List.pairwise_cons.2 ⟨?_, h⟩
    intro r' hr'
    rcases List.mem_cons.1 hr' with rfl | hr'
    · exact hlt
    · exact List.lt_trans hlt ((List.pairwise_cons.1 h).1 r' hr')
  | case4 first rest hid hle ih =>
    obtain ⟨hfirst, hrest⟩ := List.pairwise_cons.1 h
    have htotal := ModuleId.le_total r.id first.id
    rw [Bool.or_eq_true] at htotal
    have hge : first.id.le r.id = true := htotal.resolve_left hle
    have hlt : first.id.bytes < r.id.bytes := (ModuleId.le_iff.1 hge).resolve_right (Ne.symm hid)
    refine List.pairwise_cons.2 ⟨?_, ih hrest⟩
    intro r' hr'
    rcases mem_place hr' with rfl | hr'
    · exact hlt
    · exact hfirst r' hr'

/-- A record for a new identity is put beside those that the map has. -/
theorem place_perm {map : List ModuleRecord} {r : ModuleRecord} (h : r.id ∉ map.map (·.id)) :
    (place map r).Perm (map ++ [r]) := by
  fun_induction place map r with
  | case1 => exact .refl _
  | case2 first rest hid => exact absurd (List.mem_cons.2 (.inl hid)) h
  | case3 first rest => exact (List.perm_append_singleton r (first :: rest)).symm
  | case4 first rest _ _ ih => exact (ih fun hrest => h (List.mem_cons_of_mem _ hrest)).cons first

theorem places_ascending : ∀ (records : List ModuleRecord) {map : List ModuleRecord},
    ModuleRecord.Ascending map → ModuleRecord.Ascending (records.foldl place map)
  | [], _, h => h
  | r :: records, _, h => places_ascending records (place_ascending r h)

theorem places_perm : ∀ (records : List ModuleRecord) {map : List ModuleRecord},
    ((map ++ records).map (·.id)).Nodup → (records.foldl place map).Perm (map ++ records)
  | [], map, _ => by rw [List.append_nil]; exact .refl _
  | r :: records, map, h => by
    have hnew : r.id ∉ map.map (·.id) := ModuleRecord.id_not_mem h
    rw [List.append_cons] at h ⊢
    have hplaced : (place map r ++ records).Perm (map ++ [r] ++ records) := (place_perm hnew).append_right _
    exact (places_perm records ((hplaced.map _).nodup_iff.2 h)).trans hplaced

/-- An ordered map of the records of a table gives them as sorting does. -/
theorem orderedMap_records {t : ModuleTable} (hn : t.ids.Nodup) : orderedMap t.records = t.sort.records := by
  have hperm : (orderedMap t.records).Perm t.records := places_perm t.records hn
  refine ModuleRecord.Ascending.eq_of_mem_iff (places_ascending _ List.Pairwise.nil)
    (ModuleTable.sort_ascending hn) ?_
  intro r
  rw [hperm.mem_iff, ModuleTable.mem_sort]

/-! ## Lines -/

/-- The members from a position on, each on lines of its own. All but the last of
`count` members are followed by a comma. -/
def memberLines (count : Nat) : Nat → List ModuleRecord → String
  | _, [] => ""
  | index, r :: rest =>
    factoryUnit r ++ (if index + 1 < count then "," else "") ++ "\n" ++ memberLines count (index + 1) rest

theorem memberLines_eq : ∀ {r : ModuleRecord} {rest : List ModuleRecord} {count index : Nat},
    index + rest.length + 1 = count →
    memberLines count index (r :: rest) = ",\n".intercalate ((r :: rest).map factoryUnit) ++ "\n"
  | r, [], count, index, h => by
    have hlast : ¬ index + 1 < count := by rw [← h]; simp
    simp [memberLines, hlast, String.intercalate_singleton]
  | r, next :: rest, count, index, h => by
    have hmore : index + 1 < count := by rw [← h, List.length_cons]; omega
    have hrest : index + 1 + rest.length + 1 = count := by rw [← h, List.length_cons]; omega
    have hseparator : ("," : String) ++ "\n" = ",\n" := rfl
    rw [memberLines, memberLines_eq hrest, if_pos hmore, List.map_cons, List.map_cons, List.map_cons,
      String.intercalate_cons_cons, ← hseparator]
    simp only [String.append_assoc]

/-- How the modules of a table are put in order and written. -/
def writeTable (style : LoaderStyle) (t : ModuleTable) : String :=
  match style with
  | .eval => evalTable (orderedMap t.records)
  | .factory => "\x7b\n" ++ memberLines t.sort.records.length 0 t.sort.records ++ "\x7d"

theorem writeTable_eq {t : ModuleTable} (hn : t.ids.Nodup) : ∀ style : LoaderStyle,
    writeTable style t = tableText style t.sort.records
  | .eval => by rw [writeTable, orderedMap_records hn, tableText]
  | .factory => by
    rw [writeTable, tableText, factoryTable]
    cases t.sort.records with
    | nil => rfl
    | cons r rest =>
      rw [memberLines_eq (by rw [List.length_cons, Nat.zero_add])]
      simp [String.append_assoc]

/-! ## Artifacts of the same records -/

theorem emit_of_not_mem {entry : ModuleId} {t : ModuleTable} (h : entry ∉ t.ids) (style : LoaderStyle) :
    emit entry t style = .error (.missingEntry entry) := by
  have hc : t.contains entry = false := by rwa [← Bool.not_eq_true, ModuleTable.contains_iff]
  simp only [emit, hc, Bool.not_false, if_true]

theorem emit_of_missing {entry : ModuleId} {t : ModuleTable} (hentry : entry ∈ t.ids)
    (h : t.missingDependencies ≠ []) (style : LoaderStyle) : ∃ d ∈ t.missingDependencies,
    emit entry t style = .error (.danglingDependency d.importer d.specifier d.target) := by
  have hc : t.contains entry = true := ModuleTable.contains_iff.2 hentry
  cases hd : t.missingDependencies with
  | nil => exact absurd hd h
  | cons d ds =>
    refine ⟨d, List.mem_cons_self, ?_⟩
    simp only [emit, hc, hd, Bool.not_true, Bool.false_eq_true, if_false]

/-- Tables that are the same when they are sorted have one artifact. -/
theorem emit_eq_of_sort {t t' : ModuleTable} (hsort : t.sort = t'.sort) {entry : ModuleId}
    {style : LoaderStyle} {bundle bundle' : Bundle} (h : emit entry t style = .ok bundle)
    (h' : emit entry t' style = .ok bundle') : bundle' = bundle := by
  have hbody : body entry t' style = body entry t style := by rw [body, body, hsort]
  have hcount : t'.records.length = t.records.length := by
    rw [← t'.sort_perm.length_eq, ← hsort, t.sort_perm.length_eq]
  rw [emit_ok h', emit_ok h, hbody, hcount]

/-- **An artifact does not depend on how its table was made.** Two tables that
insertions, in any order, and sorting make of the same records have their modules
written in the same way, and give the same artifact. Or both lack the entry, or
both have imports without a record, although not always the same one is reported. -/
theorem emit_same_records {edits edits' : List ModuleTable.Edit}
    (hm : ∀ r, r ∈ (ModuleTable.ofEdits edits).records ↔ r ∈ (ModuleTable.ofEdits edits').records)
    (entry : ModuleId) (style : LoaderStyle) :
    let t := ModuleTable.ofEdits edits
    let t' := ModuleTable.ofEdits edits'
    tableText style t.sort.records = writeTable style t ∧
    writeTable style t = writeTable style t' ∧
    ((∃ bundle, emit entry t style = .ok bundle ∧ emit entry t' style = .ok bundle) ∨
      (entry ∉ t.ids ∧ emit entry t style = .error (.missingEntry entry) ∧
        emit entry t' style = .error (.missingEntry entry)) ∨
      ∃ d ∈ t.missingDependencies, ∃ d' ∈ t'.missingDependencies,
        emit entry t style = .error (.danglingDependency d.importer d.specifier d.target) ∧
        emit entry t' style = .error (.danglingDependency d'.importer d'.specifier d'.target)) := by
  intro t t'
  have hn : t.ids.Nodup := ModuleTable.ofEdits_nodup edits
  have hn' : t'.ids.Nodup := ModuleTable.ofEdits_nodup edits'
  have hsort : t.sort = t'.sort := ModuleTable.sort_eq_of_mem_iff hn hn' hm
  have hids : ∀ id, id ∈ t.ids ↔ id ∈ t'.ids := by
    intro id
    rw [← ModuleTable.mem_sort_ids, hsort, ModuleTable.mem_sort_ids]
  have hmissing : t.missingDependencies = [] ↔ t'.missingDependencies = [] := by
    rw [← ModuleTable.missingDependencies_sort, hsort, ModuleTable.missingDependencies_sort]
  refine ⟨(writeTable_eq hn style).symm, by rw [writeTable_eq hn, writeTable_eq hn', hsort], ?_⟩
  by_cases hentry : entry ∈ t.ids
  · have hentry' : entry ∈ t'.ids := (hids entry).1 hentry
    by_cases hnone : t.missingDependencies = []
    · obtain ⟨bundle, h⟩ := emit_of_closed hentry hnone style
      obtain ⟨bundle', h'⟩ := emit_of_closed hentry' (hmissing.1 hnone) style
      rw [emit_eq_of_sort hsort h h'] at h'
      exact .inl ⟨bundle, h, h'⟩
    · obtain ⟨d, hd, h⟩ := emit_of_missing hentry hnone style
      obtain ⟨d', hd', h'⟩ := emit_of_missing hentry' (mt hmissing.2 hnone) style
      exact .inr (.inr ⟨d, hd, d', hd', h, h'⟩)
  · have hentry' : entry ∉ t'.ids := mt (hids entry).2 hentry
    exact .inr (.inl ⟨hentry, emit_of_not_mem hentry style, emit_of_not_mem hentry' style⟩)

/-- Two modules that import each other, in either order, of which one is added twice. -/
theorem emit_same_records_cycle :
    let a : ModuleRecord := ⟨⟨"/a.js"⟩, "", [("./b", ⟨"/b.js"⟩)], ""⟩
    let b : ModuleRecord := ⟨⟨"/b.js"⟩, "", [("./a", ⟨"/a.js"⟩)], ""⟩
    let again : ModuleRecord := ⟨⟨"/b.js"⟩, "x = 1;", [], ""⟩
    let t : ModuleTable := .ofEdits [.insert a, .insert b]
    let t' : ModuleTable := .ofEdits [.insert b, .sort, .insert a, .insert again]
    t.records = [a, b] ∧ t'.records = [b, a] ∧
      ∃ bundle, emit a.id t .factory = .ok bundle ∧ emit a.id t' .factory = .ok bundle := by
  intro a b again t t'
  have hrecords : t.records = [a, b] := by decide +kernel
  have hrecords' : t'.records = [b, a] := by decide +kernel
  have hm : ∀ r, r ∈ t.records ↔ r ∈ t'.records := by
    intro r
    rw [hrecords, hrecords']
    exact (List.Perm.swap b a []).mem_iff
  have hentry : a.id ∈ t.ids := by decide +kernel
  have hnone : t.missingDependencies = [] := by decide +kernel
  refine ⟨hrecords, hrecords', ?_⟩
  rcases (emit_same_records hm a.id .factory).2.2 with h | ⟨hno, -⟩ | ⟨d, hd, -⟩
  · exact h
  · exact absurd hentry hno
  · exact absurd (hnone ▸ hd) List.not_mem_nil

end Artifact

end Bundler
