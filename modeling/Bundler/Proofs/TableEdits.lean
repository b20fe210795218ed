/-
What insertions and sortings make of the empty table, in any order. The first record
of an identity wins (`get?_edits`), and a table keeps its order until it is sorted:
it then is what was sorted last, followed by the records that were new since
(`edits_records`). A table is also a map that holds each record under a key of its
own (`KeyedTable`); the two go through edits alike (`KeyedTable.ofEdits_eq`).
-/
import Mathlib.Data.List.Permutation
import Bundler.Proofs.TableFacts

namespace Bundler

namespace ModuleTable

/-! ## Insertions that count -/

/-- The records that edits insert, those that are refused among them. -/
def inserted (edits : List Edit) : List ModuleRecord :=
  edits.filterMap fun
    | .insert r => some r
    | .sort => none

/-- Of records that come in one after the other, those that are the first of their
identity, where some identities are there already. -/
def firsts (there : List ModuleId) : List ModuleRecord → List ModuleRecord
  | [] => []
  | r :: rest => if r.id ∈ there then firsts there rest else r :: firsts (r.id :: there) rest

/-- The order of the identities that are there does not matter. -/
theorem firsts_congr : ∀ (records : List ModuleRecord) {there there' : List ModuleId},
    (∀ id, id ∈ there ↔ id ∈ there') → firsts there records = firsts there' records
  | [], _, _, _ => rfl
  | r :: rest, there, there', h => by
    have hcons : ∀ id, id ∈ r.id :: there ↔ id ∈ r.id :: there' := fun id => by
      rw [List.mem_cons, List.mem_cons, h]
    rw [firsts, firsts, firsts_congr rest h, firsts_congr rest hcons]
    simp only [h]

/-- Insertions add the records that are new, in their order. -/
theorem inserts_firsts : ∀ (records : List ModuleRecord) (t : ModuleTable),
    (records.foldl insert t).records = t.records ++ firsts t.ids records
  | [], t => (List.append_nil _).symm
  | r :: rest, t => by
    rw [List.foldl_cons, inserts_firsts rest, firsts]
    by_cases hr : r.id ∈ t.ids
    · rw [insert_of_mem hr, if_pos hr]
    · have hthere : ∀ id, id ∈ t.ids ++ [r.id] ↔ id ∈ r.id :: t.ids := fun id => by
        rw [List.mem_append, List.mem_singleton, List.mem_cons, or_comm]
      rw [if_neg hr, insert_of_not_mem hr, insert_ids_of_not_mem hr, firsts_congr rest hthere, List.append_assoc,
        List.singleton_append]

/-- Edits without a sorting are insertions. -/
theorem edits_eq_inserts : ∀ {edits : List Edit}, .sort ∉ edits → ∀ t : ModuleTable,
    edits.foldl edit t = (inserted edits).foldl insert t
  | [], _, _ => rfl
  | .insert r :: _, h, t => edits_eq_inserts (fun hrest => h (List.mem_cons_of_mem _ hrest)) (t.insert r)
  | .sort :: _, h, _ => absurd List.mem_cons_self h

/-! ## What is found -/

theorem get?_insert (t : ModuleTable) (r : ModuleRecord) (id : ModuleId) :
    (t.insert r).get? id = (t.get? id).or ([r].find? fun r => r.id = id) := by
  by_cases hr : r.id ∈ t.ids
  · rw [insert_of_mem hr]
    by_cases hid : r.id = id
    · subst hid
      obtain ⟨r', hr'⟩ := Option.isSome_iff_exists.1 (isSome_get?.2 hr)
      rw [hr', Option.some_or]
    · simp only [List.find?_cons, hid, decide_false, List.find?_nil, Option.or_none]
  · rw [get?, insert_of_not_mem hr, List.find?_append, get?]

/-- Sorting changes nothing of what is found. -/
theorem get?_sort {t : ModuleTable} (h : t.ids.Nodup) (id : ModuleId) : t.sort.get? id = t.get? id := by
  have hsort : t.sort.ids.Nodup := (t.sort_perm.map _).nodup_iff.2 h
  refine Option.ext fun r => ?_
  rw [get?_eq_some hsort, get?_eq_some h, mem_sort]

/-- What is found after edits is what was there before, or else the first record that
they insert. -/
theorem get?_edits (id : ModuleId) : ∀ (edits : List Edit) {t : ModuleTable}, t.ids.Nodup →
    (edits.foldl edit t).get? id = (t.get? id).or ((inserted edits).find? fun r => r.id = id)
  | [], t, _ => by rw [List.foldl_nil, inserted, List.filterMap_nil, List.find?_nil, Option.or_none]
  | .insert r :: rest, t, h => by
    have hinserted : inserted (.insert r :: rest) = [r] ++ inserted rest := rfl
    rw [List.foldl_cons, get?_edits id rest (edit_nodup h _), edit, get?_insert, hinserted, List.find?_append,
      Option.or_assoc]
  | .sort :: rest, t, h => by
    have hinserted : inserted (.sort :: rest) = inserted rest := rfl
    rw [List.foldl_cons, get?_edits id rest (edit_nodup h _), edit, get?_sort h, hinserted]

/-- The first record of an identity is the one that a table has. -/
theorem ofEdits_get? (edits : List Edit) (id : ModuleId) :
    (ofEdits edits).get? id = (inserted edits).find? fun r => r.id = id :=
  (get?_edits id edits (t := {}) List.nodup_nil).trans Option.none_or

theorem mem_ofEdits_ids {edits : List Edit} {id : ModuleId} :
    id ∈ (ofEdits edits).ids ↔ id ∈ (inserted edits).map (·.id) := by
  rw [← isSome_get?, ofEdits_get?, List.find?_isSome, List.mem_map]
  simp only [decide_eq_true_eq]

/-! ## The order of a table -/

/-- After the last sorting, records are added behind what was sorted. -/
theorem edits_records {before after : List Edit} (h : .sort ∉ after) :
    (ofEdits (before ++ .sort :: after)).records =
      (ofEdits before).sort.records ++ firsts ((inserted before).map (·.id)) (inserted after) := by
  have hthere : ∀ id, id ∈ (ofEdits before).sort.ids ↔ id ∈ (inserted before).map (·.id) := fun id => by
    rw [mem_sort_ids, mem_ofEdits_ids]
  rw [ofEdits, List.foldl_append, List.foldl_cons, edits_eq_inserts h, inserts_firsts, edit,
    ← ofEdits, firsts_congr _ hthere]

end ModuleTable

/-! ## Keys -/

/-- A table as a map: each record under a key, in the order in which the keys came in. -/
structure KeyedTable where
  entries : List (ModuleId × ModuleRecord) := []
deriving DecidableEq, Repr

namespace KeyedTable

def contains (t : KeyedTable) (id : ModuleId) : Bool := t.entries.any fun e => e.1 = id

def get? (t : KeyedTable) (id : ModuleId) : Option ModuleRecord :=
  (t.entries.find? fun e => e.1 = id).map (·.2)

/-- Adds a record under its identity, unless that is a key already. -/
def insertNew (t : KeyedTable) (r : ModuleRecord) : Bool × KeyedTable :=
  if t.contains r.id then (false, t) else (true, { entries := t.entries ++ [(r.id, r)] })

/-- The same entries in the order of their keys. -/
def sort (t : KeyedTable) : KeyedTable :=
  { entries := t.entries.mergeSort fun a b => a.1.le b.1 }

def edit (t : KeyedTable) : ModuleTable.Edit → KeyedTable
  | .insert r => (t.insertNew r).2
  | .sort => t.sort

/-- What edits make of the empty map. -/
def ofEdits (edits : List ModuleTable.Edit) : KeyedTable := edits.foldl edit {}

/-- The map with the records of a table, each under its identity. -/
def ofTable (t : ModuleTable) : KeyedTable := { entries := t.records.map fun r => (r.id, r) }

variable (t : ModuleTable)

theorem contains_ofTable (id : ModuleId) : (ofTable t).contains id = t.contains id := List.any_map

theorem get?_ofTable (id : ModuleId) : (ofTable t).get? id = t.get? id := by
  rw [get?, ofTable, List.find?_map, Option.map_map]
  exact Option.map_id_apply

theorem insertNew_ofTable (r : ModuleRecord) :
    (ofTable t).insertNew r = ((t.insertNew r).1, ofTable (t.insertNew r).2) := by
  rw [insertNew, contains_ofTable, ModuleTable.insertNew, ModuleTable.insert]
  cases t.contains r.id with
  | true => rfl
  | false =>
    have hentries : (t.records ++ [r]).map (fun r => (r.id, r)) = (ofTable t).entries ++ [(r.id, r)] :=
      List.map_append
    exact congrArg (fun entries => (true, mk entries)) hentries.symm

theorem sort_ofTable : (ofTable t).sort = ofTable t.sort := by
  have hsort : (t.records.mergeSort fun a b => a.id.le b.id).map (fun r => (r.id, r)) =
      (t.records.map fun r => (r.id, r)).mergeSort fun a b => a.1.le b.1 :=
    List.map_mergeSort fun _ _ _ _ => rfl
  rw [sort, ofTable, ← hsort, ofTable, ModuleTable.sort]

theorem edit_ofTable : ∀ e : ModuleTable.Edit, (ofTable t).edit e = ofTable (t.edit e)
  | .insert r => congrArg (·.2) (insertNew_ofTable t r)
  | .sort => sort_ofTable t

theorem edits_ofTable : ∀ (edits : List ModuleTable.Edit) (t : ModuleTable),
    edits.foldl edit (ofTable t) = ofTable (edits.foldl ModuleTable.edit t)
  | [], _ => rfl
  | e :: rest, t => by rw [List.foldl_cons, edit_ofTable, edits_ofTable rest, List.foldl_cons]

/-- Every key is the identity of its record, whatever is done to a map. -/
theorem ofEdits_eq (edits : List ModuleTable.Edit) : ofEdits edits = ofTable (.ofEdits edits) :=
  edits_ofTable edits {}

end KeyedTable

namespace ModuleTable

/-- **The first record of an identity wins, and order is only made by sorting.** However
insertions and sortings follow each other, a table has each identity once, and as a map
it has each record under its own identity. What is found for an identity is the first
record inserted for it. A record of an identity that was inserted before is refused,
and nothing changes; any other is added at the end. Sorting permutes the records, and
puts their identities in strictly ascending order of bytes. Records are in the order of
what was there at the last sorting, followed by those that were new since, in the order
of their insertion. -/
theorem ofEdits_first_wins (edits : List Edit) :
    let t := ofEdits edits
    t.ids.Nodup ∧
    ((KeyedTable.ofEdits edits).entries = (t.records.map fun r => (r.id, r)) ∧
      ∀ id, (KeyedTable.ofEdits edits).get? id = t.get? id) ∧
    (∀ id, t.get? id = (inserted edits).find? fun r => r.id = id) ∧
    (∀ id, t.contains id = true ↔ id ∈ (inserted edits).map (·.id)) ∧
    (∀ r, t.insertNew r =
      if r.id ∈ (inserted edits).map (·.id) then (false, t) else (true, { records := t.records ++ [r] })) ∧
    (t.sort.records.Perm t.records ∧ ModuleId.Ascending t.sort.ids) ∧
    (.sort ∉ edits → t.records = firsts [] (inserted edits)) ∧
    ∀ before after, edits = before ++ .sort :: after → .sort ∉ after →
      t.records = (ofEdits before).sort.records ++ firsts ((inserted before).map (·.id)) (inserted after) := by
  intro t
  have hn : t.ids.Nodup := ofEdits_nodup edits
  have hkeyed : KeyedTable.ofEdits edits = .ofTable t := KeyedTable.ofEdits_eq edits
  refine ⟨hn, ⟨congrArg (·.entries) hkeyed, fun id => ?_⟩, ofEdits_get? edits, fun id => ?_, fun r => ?_,
    ⟨t.sort_perm, sort_ascending hn⟩, fun h => ?_, ?_⟩
  · rw [hkeyed, KeyedTable.get?_ofTable]
  · rw [contains_iff, mem_ofEdits_ids]
  · simp only [insertNew, ← mem_ofEdits_ids]
    split
    · next hr => rw [contains_iff.2 hr, insert_of_mem hr, Bool.not_true]
    · next hr =>
      have hc : t.contains r.id = false := by rwa [← Bool.not_eq_true, contains_iff]
      rw [hc, Bool.not_false]
      exact congrArg (true, ·) (congrArg mk (insert_of_not_mem hr))
  · rw [show t.records = _ from congrArg (·.records) (edits_eq_inserts h {}), inserts_firsts]
    rfl
  · rintro before after rfl h
    exact edits_records h

/-- Three modules, two of which come in a second time with other code, around a sorting. -/
theorem ofEdits_first_wins_again :
    let a : ModuleRecord := ⟨⟨"/～.js"⟩, "a", [], ""⟩
    let b : ModuleRecord := ⟨⟨"/😀.js"⟩, "b", [("./～", a.id)], ""⟩
    let c : ModuleRecord := ⟨⟨"/c.js"⟩, "c", [], ""⟩
    let again (r : ModuleRecord) : ModuleRecord := { r with code := "again" }
    let before : List Edit := [.insert b, .insert a, .insert (again b)]
    let after : List Edit := [.insert (again a), .insert c, .insert (again c)]
    let t := ofEdits (before ++ .sort :: after)
    t.records = [a, b, c] ∧ t.get? b.id = some b ∧ t.insertNew (again c) = (false, t) := by
  intro a b c again before after t
  obtain ⟨-, -, hget, -, hinsert, -, -, hrecords⟩ := ofEdits_first_wins (before ++ .sort :: after)
  refine ⟨(hrecords before after rfl (by decide +kernel)).trans ?_, (hget b.id).trans ?_, ?_⟩
  · cbv
  · decide +kernel
  · rw [hinsert, if_pos (by decide +kernel)]

end ModuleTable

end Bundler
