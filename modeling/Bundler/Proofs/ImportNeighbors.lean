/-
The neighbours of a module in an import graph. Edges are kept once, by a module
imported and its importer, and a self-import is one of them. So what imports a
module and what it imports are two readings of the same edges, each without
repeats however many specifiers mean one module, and the sizes of the graph count
modules and imports (`neighbors_exact`).
-/
import Mathlib.Data.Finset.Card
import Mathlib.Data.List.Dedup
import Bundler.Proofs.ImportComponents

namespace Bundler

/-! ## Imports of a table -/

namespace ModuleTable

variable {t : ModuleTable} {a b id : ModuleId}

/-- The imports of a table as importers with what they import, once for each
specifier. -/
def importPairs (t : ModuleTable) : List (ModuleId × ModuleId) :=
  t.records.flatMap fun r => r.deps.targets.map fun target => (r.id, target)

/-- The modules that a table mentions: those with a record, and those imported. -/
def mentioned (t : ModuleTable) : List ModuleId := t.ids ++ t.importPairs.map (·.2)

theorem mem_importPairs : (a, b) ∈ t.importPairs ↔ t.Imports a b := by
  simp only [importPairs, List.mem_flatMap, List.mem_map, Prod.mk.injEq, Imports]
  constructor
  · rintro ⟨r, hr, target, htarget, rfl, rfl⟩
    exact ⟨r, hr, rfl, htarget⟩
  · rintro ⟨r, hr, rfl, hb⟩
    exact ⟨r, hr, b, hb, rfl, rfl⟩

theorem mem_mentioned : id ∈ t.mentioned ↔ id ∈ t.ids ∨ ∃ a, t.Imports a id := by
  simp only [mentioned, List.mem_append, List.mem_map, Prod.exists, mem_importPairs, exists_eq_right]

/-- A module that imports has a record. -/
theorem Imports.mem_ids (h : t.Imports a b) : a ∈ t.ids := by
  obtain ⟨r, hr, hid, -⟩ := h
  exact ModuleTable.mem_ids.2 ⟨r, hr, hid⟩

end ModuleTable

namespace ImportGraph

variable {g : ImportGraph} {t : ModuleTable} {a b id : ModuleId}

/-! ## Edges are kept once -/

theorem addEdge_edges_nodup (h : g.edges.Nodup) (e : ImportEdge) : (g.addEdge e).edges.Nodup := by
  simp only [addEdge, addNode_edges]
  split
  · rw [addNode_edges, addNode_edges]
    exact h
  · next he => exact List.nodup_cons.2 ⟨he, h⟩

theorem addEdges_edges_nodup : ∀ (es : List ImportEdge) {g : ImportGraph}, g.edges.Nodup →
    (es.foldl addEdge g).edges.Nodup
  | [], _, h => h
  | e :: es, _, h => addEdges_edges_nodup es (addEdge_edges_nodup h e)

theorem ofTable_edges_nodup (t : ModuleTable) : (ofTable t).edges.Nodup := by
  refine addEdges_edges_nodup _ ?_
  rw [addNodes_edges]
  exact List.nodup_nil

/-! ## Neighbours -/

theorem importers_nodup (h : g.edges.Nodup) (id : ModuleId) : (g.importers id).Nodup := by
  refine (h.filter _).map_on ?_
  rintro ⟨imported, importer⟩ he ⟨imported', importer'⟩ he' rfl
  obtain rfl : imported = id := by simpa using (List.mem_filter.1 he).2
  obtain rfl : imported' = imported := by simpa using (List.mem_filter.1 he').2
  rfl

theorem imported_nodup (h : g.edges.Nodup) (id : ModuleId) : (g.imported id).Nodup := by
  refine (h.filter _).map_on ?_
  rintro ⟨imported, importer⟩ he ⟨imported', importer'⟩ he' rfl
  obtain rfl : importer = id := by simpa using (List.mem_filter.1 he).2
  obtain rfl : importer' = importer := by simpa using (List.mem_filter.1 he').2
  rfl

theorem mem_imported : b ∈ (ofTable t).imported a ↔ t.Imports a b := by
  rw [← mem_ofTable_edges]
  simp only [imported, List.mem_map, List.mem_filter, decide_eq_true_eq]
  constructor
  · rintro ⟨⟨imported, importer⟩, ⟨he, rfl⟩, rfl⟩
    exact he
  · exact fun he => ⟨⟨b, a⟩, ⟨he, rfl⟩, rfl⟩

theorem mem_dependents : b ∈ (ofTable t).dependents a ↔ t.Imports b a := by
  rw [dependents, mem_sortIds, mem_importers]

theorem mem_dependencies : b ∈ (ofTable t).dependencies a ↔ t.Imports a b := by
  rw [dependencies, mem_sortIds, mem_imported]

/-! ## Sizes -/

theorem length_nodes (t : ModuleTable) : (ofTable t).nodes.length = t.mentioned.toFinset.card := by
  rw [← List.toFinset_card_of_nodup (ofTable_nodup t)]
  congr 1
  ext id
  rw [List.mem_toFinset, List.mem_toFinset, mem_ofTable_nodes, ModuleTable.mem_mentioned]

theorem length_edges (t : ModuleTable) : (ofTable t).edges.length = t.importPairs.toFinset.card := by
  -- An edge is a pair with its parts swapped.
  have hpairs : ((ofTable t).edges.map fun e => (e.importer, e.imported)).Nodup := by
    refine (ofTable_edges_nodup t).map ?_
    rintro ⟨imported, importer⟩ ⟨imported', importer'⟩ h
    obtain ⟨rfl, rfl⟩ := Prod.mk.inj h
    rfl
  rw [← List.length_map fun e : ImportEdge => (e.importer, e.imported),
    ← List.toFinset_card_of_nodup hpairs]
  congr 1
  ext ⟨a, b⟩
  simp only [List.mem_toFinset, ModuleTable.mem_importPairs, ← mem_ofTable_edges, List.mem_map,
    Prod.mk.injEq]
  constructor
  · rintro ⟨⟨imported, importer⟩, he, rfl, rfl⟩
    exact he
  · exact fun he => ⟨⟨b, a⟩, he, rfl, rfl⟩

/-- **The graph of any table knows each import from both ends.** What a module
imports, and what imports it, is listed once and in order, and nothing is listed
for a module that the table does not mention. The graph has as many nodes as
modules are mentioned, and as many edges as pairs of an importer and what it
imports, a module and itself among them. -/
theorem neighbors_exact (t : ModuleTable) :
    (∀ a b, b ∈ (ofTable t).dependencies a ↔ a ∈ (ofTable t).dependents b) ∧
    (∀ a b, a ∈ (ofTable t).dependents b ↔ ∃ r ∈ t.records, r.id = a ∧ b ∈ r.deps.targets) ∧
    (∀ id, ModuleId.Ascending ((ofTable t).dependencies id) ∧
      ModuleId.Ascending ((ofTable t).dependents id)) ∧
    (∀ id, id ∉ t.mentioned → (ofTable t).dependencies id = [] ∧ (ofTable t).dependents id = []) ∧
    (ofTable t).nodes.length = t.mentioned.toFinset.card ∧
    (ofTable t).edges.length = t.importPairs.toFinset.card := by
  refine ⟨fun a b => mem_dependencies.trans mem_dependents.symm, fun a b => mem_dependents,
    fun id => ⟨sortIds_ascending (imported_nodup (ofTable_edges_nodup t) id),
      sortIds_ascending (importers_nodup (ofTable_edges_nodup t) id)⟩, ?_, length_nodes t, length_edges t⟩
  intro id hid
  rw [ModuleTable.mem_mentioned, not_or, not_exists] at hid
  obtain ⟨hrecord, himported⟩ := hid
  constructor
  · refine List.eq_nil_iff_forall_not_mem.2 fun b hb => hrecord ?_
    exact (mem_dependencies.1 hb).mem_ids
  · exact List.eq_nil_iff_forall_not_mem.2 fun b hb => himported b (mem_dependents.1 hb)

end ImportGraph

end Bundler
