/-
The components of an import graph are the groups of modules that imports lead
around in, and a group comes after those it imports from. Edges lead from a
module to its importers, so the search finds importers first; the reversal of
its result turns both directions round (`AreComponents.reverse`).
-/
import Mathlib.Data.List.Flatten
import Bundler.Proofs.TableFacts
import Bundler.Proofs.TarjanComponents

namespace Bundler

namespace ModuleTable

/-- A record of the table maps an import of one module to another. -/
def Imports (t : ModuleTable) (importer imported : ModuleId) : Prop :=
  ∃ r ∈ t.records, r.id = importer ∧ imported ∈ r.deps.targets

/-- Imports lead from a module to another one, or it is the same. -/
def Leads (t : ModuleTable) : ModuleId → ModuleId → Prop := Relation.ReflTransGen t.Imports

/-- Imports lead from a module to another one, in one step or more. -/
def ImportsVia (t : ModuleTable) : ModuleId → ModuleId → Prop := Relation.TransGen t.Imports

end ModuleTable

namespace ImportGraph

/-! ## Building the graph -/

variable {g : ImportGraph} {t : ModuleTable} {a b id : ModuleId}

@[simp] theorem mem_addNode : a ∈ (g.addNode id).nodes ↔ a ∈ g.nodes ∨ a = id := by
  unfold addNode
  split
  · next h =>
    constructor
    · exact .inl
    · rintro (ha | rfl)
      · exact ha
      · exact h
  · simp only [List.mem_append, List.mem_singleton]

@[simp] theorem addNode_edges (g : ImportGraph) (id : ModuleId) : (g.addNode id).edges = g.edges := by
  unfold addNode
  split <;> rfl

theorem addNode_nodup (h : g.nodes.Nodup) (id : ModuleId) : (g.addNode id).nodes.Nodup := by
  unfold addNode
  split
  · exact h
  · next hid =>
    refine List.nodup_append.2 ⟨h, List.nodup_singleton id, ?_⟩
    rintro a ha b hb rfl
    exact hid (List.mem_singleton.1 hb ▸ ha)

@[simp] theorem addEdge_nodes (g : ImportGraph) (e : ImportEdge) :
    (g.addEdge e).nodes = ((g.addNode e.importer).addNode e.imported).nodes := by
  simp only [addEdge]
  split <;> rfl

@[simp] theorem mem_addEdge {e e' : ImportEdge} : e' ∈ (g.addEdge e).edges ↔ e' ∈ g.edges ∨ e' = e := by
  simp only [addEdge, addNode_edges]
  split
  · next h =>
    rw [addNode_edges, addNode_edges]
    constructor
    · exact .inl
    · rintro (he | rfl)
      · exact he
      · exact h
  · rw [List.mem_cons, or_comm]

theorem addNodes_nodup : ∀ (ids : List ModuleId) {g : ImportGraph}, g.nodes.Nodup →
    (ids.foldl addNode g).nodes.Nodup
  | [], _, h => h
  | id :: ids, _, h => addNodes_nodup ids (addNode_nodup h id)

theorem mem_addNodes : ∀ {ids : List ModuleId} {g : ImportGraph},
    a ∈ (ids.foldl addNode g).nodes ↔ a ∈ g.nodes ∨ a ∈ ids
  | [], g => by simp
  | id :: ids, g => by
    rw [List.foldl_cons, mem_addNodes, mem_addNode, List.mem_cons, or_assoc]

theorem addNodes_edges : ∀ (ids : List ModuleId) (g : ImportGraph), (ids.foldl addNode g).edges = g.edges
  | [], _ => rfl
  | id :: ids, g => by rw [List.foldl_cons, addNodes_edges, addNode_edges]

theorem addEdges_nodup : ∀ (es : List ImportEdge) {g : ImportGraph}, g.nodes.Nodup →
    (es.foldl addEdge g).nodes.Nodup
  | [], _, h => h
  | e :: es, g, h => by
    refine addEdges_nodup es ?_
    rw [addEdge_nodes]
    exact addNode_nodup (addNode_nodup h _) _

theorem mem_addEdges_nodes : ∀ {es : List ImportEdge} {g : ImportGraph},
    a ∈ (es.foldl addEdge g).nodes ↔ a ∈ g.nodes ∨ ∃ e ∈ es, a = e.importer ∨ a = e.imported
  | [], g => by simp
  | e :: es, g => by
    rw [List.foldl_cons, mem_addEdges_nodes, addEdge_nodes, mem_addNode, mem_addNode,
      List.exists_mem_cons_iff, or_assoc, or_assoc, or_assoc]

theorem mem_addEdges : ∀ {es : List ImportEdge} {g : ImportGraph} {e : ImportEdge},
    e ∈ (es.foldl addEdge g).edges ↔ e ∈ g.edges ∨ e ∈ es
  | [], g, e => by simp
  | e' :: es, g, e => by
    rw [List.foldl_cons, mem_addEdges, mem_addEdge, List.mem_cons, or_assoc]

theorem mem_importsOf : ⟨b, a⟩ ∈ importsOf t ↔ t.Imports a b := by
  simp only [importsOf, List.mem_flatMap, List.mem_map, ImportEdge.mk.injEq, ModuleTable.Imports]
  constructor
  · rintro ⟨r, hr, target, htarget, rfl, rfl⟩
    exact ⟨r, hr, rfl, htarget⟩
  · rintro ⟨r, hr, rfl, hb⟩
    exact ⟨r, hr, b, hb, rfl, rfl⟩

theorem ofTable_nodup (t : ModuleTable) : (ofTable t).nodes.Nodup :=
  addEdges_nodup _ (addNodes_nodup _ List.nodup_nil)

/-- Each import is one edge. -/
theorem mem_ofTable_edges : ⟨b, a⟩ ∈ (ofTable t).edges ↔ t.Imports a b := by
  rw [ofTable, mem_addEdges, addNodes_edges, mem_importsOf]
  simp

/-- The nodes are the modules that have a record and those imported. -/
theorem mem_ofTable_nodes : id ∈ (ofTable t).nodes ↔ id ∈ t.ids ∨ ∃ a, t.Imports a id := by
  rw [ofTable, mem_addEdges_nodes, mem_addNodes]
  constructor
  · rintro ((h | h) | ⟨⟨imported, importer⟩, he, rfl | rfl⟩)
    · cases h
    · exact .inl h
    · obtain ⟨r, hr, hid, -⟩ := mem_importsOf.1 he
      exact .inl (ModuleTable.mem_ids.2 ⟨r, hr, hid⟩)
    · exact .inr ⟨importer, mem_importsOf.1 he⟩
  · rintro (h | ⟨a, ha⟩)
    · exact .inl (.inr h)
    · exact .inr ⟨⟨id, a⟩, mem_importsOf.2 ha, .inr rfl⟩

theorem mem_importers : b ∈ (ofTable t).importers a ↔ t.Imports b a := by
  rw [← mem_ofTable_edges]
  simp only [importers, List.mem_map, List.mem_filter, decide_eq_true_eq]
  constructor
  · rintro ⟨⟨imported, importer⟩, ⟨he, rfl⟩, rfl⟩
    exact he
  · exact fun he => ⟨⟨a, b⟩, ⟨he, rfl⟩, rfl⟩

/-- Importers are nodes, as they have a record. -/
theorem importers_mem_nodes (h : b ∈ (ofTable t).importers a) : b ∈ (ofTable t).nodes := by
  obtain ⟨r, hr, hid, -⟩ := mem_importers.1 h
  exact mem_ofTable_nodes.2 (.inl (ModuleTable.mem_ids.2 ⟨r, hr, hid⟩))

/-- Edges lead to importers. -/
theorem reach_importers : Graph.Reach (ofTable t).importers a b ↔ t.Leads b a := by
  rw [Graph.Reach, ModuleTable.Leads, ← Relation.reflTransGen_swap]
  have he : Function.swap (fun v w => w ∈ (ofTable t).importers v) = t.Imports := by
    funext v w
    exact propext mem_importers
  rw [he]

/-! ## Components -/

theorem mem_components {c : List ModuleId} :
    c ∈ g.components ↔ ∃ c' ∈ Graph.components g.nodes g.importers, sortIds c' = c := by
  simp only [components, List.mem_map, List.mem_reverse]

theorem components_flatten_perm (g : ImportGraph) :
    g.components.flatten.Perm (Graph.components g.nodes g.importers).flatten := by
  have hmap : ∀ cs : List (List ModuleId), (cs.map sortIds).flatten.Perm cs.flatten := by
    intro cs
    induction cs with
    | nil => exact .refl _
    | cons c cs ih => exact (sortIds_perm c).append ih
  exact (hmap _).trans (List.reverse_perm _).flatten

theorem areComponents (t : ModuleTable) : Graph.AreComponents (ofTable t).nodes (ofTable t).importers
    (Graph.components (ofTable t).nodes (ofTable t).importers) :=
  Graph.components_spec fun _ _ _ => importers_mem_nodes

theorem components_flatten_nodup (t : ModuleTable) : (ofTable t).components.flatten.Nodup :=
  (components_flatten_perm _).nodup_iff.2 (areComponents t).nodup

theorem mem_components_flatten : id ∈ (ofTable t).components.flatten ↔ id ∈ (ofTable t).nodes := by
  rw [(components_flatten_perm _).mem_iff]
  exact (areComponents t).mem_iff id

theorem exists_component (ha : a ∈ (ofTable t).nodes) : ∃ c ∈ (ofTable t).components, a ∈ c :=
  List.mem_flatten.1 (mem_components_flatten.2 ha)

theorem component_ne_nil {c : List ModuleId} (hc : c ∈ (ofTable t).components) : c ≠ [] := by
  obtain ⟨c', hc', rfl⟩ := mem_components.1 hc
  intro hnil
  refine ((areComponents t).component c' hc').1 (List.Perm.eq_nil ?_)
  rw [← hnil]
  exact (sortIds_perm c').symm

theorem component_ascending {c : List ModuleId} (hc : c ∈ (ofTable t).components) :
    ModuleId.Ascending c := by
  have hn : c.Nodup := (List.nodup_flatten.1 (components_flatten_nodup t)).1 c hc
  obtain ⟨c', -, rfl⟩ := mem_components.1 hc
  exact sortIds_ascending ((sortIds_perm c').nodup_iff.1 hn)

/-- A component holds what imports lead to and back. -/
theorem mem_component {c : List ModuleId} (hc : c ∈ (ofTable t).components) (ha : a ∈ c) :
    b ∈ c ↔ t.Leads a b ∧ t.Leads b a := by
  obtain ⟨c', hc', rfl⟩ := mem_components.1 hc
  rw [mem_sortIds] at ha ⊢
  rw [((areComponents t).component c' hc').2 a ha b, Graph.Mutual, reach_importers, reach_importers,
    and_comm]

/-- A module is in one component only. -/
theorem component_eq {c d : List ModuleId} (hc : c ∈ (ofTable t).components)
    (hd : d ∈ (ofTable t).components) (hac : a ∈ c) (had : a ∈ d) : c = d := by
  refine (component_ascending hc).eq_of_mem_iff (component_ascending hd) fun b => ?_
  rw [mem_component hc hac, mem_component hd had]

/-- A component imports nothing from a later one. -/
theorem components_order (t : ModuleTable) :
    (ofTable t).components.Pairwise fun c d => ∀ a ∈ c, ∀ b ∈ d, ¬ t.Imports a b := by
  rw [components, List.pairwise_map, List.pairwise_reverse]
  refine (areComponents t).order.imp ?_
  intro c d h a ha b hb himp
  exact h b (mem_sortIds.1 hb) a (mem_sortIds.1 ha) (mem_importers.2 himp)

/-- A module imports a later one only if that one leads back to it. -/
theorem dependencyOrder_pairwise (t : ModuleTable) :
    (ofTable t).dependencyOrder.Pairwise fun a b => t.Imports a b → t.Leads b a := by
  rw [dependencyOrder, List.pairwise_flatten]
  constructor
  · intro c hc
    refine List.pairwise_of_forall_mem_list ?_
    exact fun a ha b hb _ => ((mem_component hc ha).1 hb).2
  · exact (components_order t).imp fun h a ha b hb himp => absurd himp (h a ha b hb)

/-- Of two members that a list cannot have in one order, it has the second one
first. -/
theorem idxOf_lt_of_pairwise {α : Type} [BEq α] [LawfulBEq α] {r : α → α → Prop} {l : List α} {x y : α}
    (h : l.Pairwise r) (hx : x ∈ l) (hy : y ∈ l) (hne : x ≠ y) (hr : ¬ r x y) :
    l.idxOf y < l.idxOf x := by
  have hx' := List.idxOf_lt_length_of_mem hx
  have hy' := List.idxOf_lt_length_of_mem hy
  rcases Nat.lt_trichotomy (l.idxOf x) (l.idxOf y) with hlt | heq | hlt
  · have hxy := List.pairwise_iff_getElem.1 h _ _ hx' hy' hlt
    rw [List.getElem_idxOf, List.getElem_idxOf] at hxy
    exact absurd hxy hr
  · exact absurd ((List.idxOf_inj hx).1 heq) hne
  · exact hlt

/-- **The components of any table are its groups of modules that import each
other, each after those it imports from.** So the order of modules has each of
them once, and after all it imports that does not import it back. -/
theorem components_dependencies_first (t : ModuleTable) :
    ((ofTable t).nodes.Nodup ∧ ∀ id, id ∈ (ofTable t).nodes ↔ id ∈ t.ids ∨ ∃ a, t.Imports a id) ∧
    (ofTable t).components.flatten.Perm (ofTable t).nodes ∧
    (∀ c ∈ (ofTable t).components, c ≠ [] ∧ ModuleId.Ascending c) ∧
    (∀ a ∈ (ofTable t).nodes, ∀ b,
      (∃ c ∈ (ofTable t).components, a ∈ c ∧ b ∈ c) ↔ t.Leads a b ∧ t.Leads b a) ∧
    (∀ c ∈ (ofTable t).components, ∀ d ∈ (ofTable t).components, c ≠ d →
      (∃ a ∈ c, ∃ b ∈ d, t.Imports a b) →
        (ofTable t).components.idxOf d < (ofTable t).components.idxOf c) ∧
    (ofTable t).dependencyOrder.Perm (ofTable t).nodes ∧
    ∀ a b, t.Imports a b → ¬ t.ImportsVia b a →
      (ofTable t).dependencyOrder.idxOf b < (ofTable t).dependencyOrder.idxOf a := by
  have hperm : (ofTable t).components.flatten.Perm (ofTable t).nodes :=
    (List.perm_ext_iff_of_nodup (components_flatten_nodup t) (ofTable_nodup t)).2
      fun _ => mem_components_flatten
  refine ⟨⟨ofTable_nodup t, fun id => mem_ofTable_nodes⟩, hperm,
    fun c hc => ⟨component_ne_nil hc, component_ascending hc⟩, ?_, ?_, hperm, ?_⟩
  · intro a ha b
    constructor
    · rintro ⟨c, hc, hac, hbc⟩
      exact (mem_component hc hac).1 hbc
    · intro hab
      obtain ⟨c, hc, hac⟩ := exists_component ha
      exact ⟨c, hc, hac, (mem_component hc hac).2 hab⟩
  · rintro c hc d hd hne ⟨a, ha, b, hb, himp⟩
    exact idxOf_lt_of_pairwise (components_order t) hc hd hne fun h => h a ha b hb himp
  · intro a b himp hback
    have ha : a ∈ (ofTable t).dependencyOrder := by
      obtain ⟨r, hr, hid, -⟩ := himp
      exact mem_components_flatten.2 (mem_ofTable_nodes.2 (.inl (ModuleTable.mem_ids.2 ⟨r, hr, hid⟩)))
    have hb : b ∈ (ofTable t).dependencyOrder :=
      mem_components_flatten.2 (mem_ofTable_nodes.2 (.inr ⟨a, himp⟩))
    have hne : a ≠ b := by
      rintro rfl
      exact hback (.single himp)
    refine idxOf_lt_of_pairwise (dependencyOrder_pairwise t) ha hb hne fun h => ?_
    rcases Relation.reflTransGen_iff_eq_or_transGen.1 (h himp) with heq | hvia
    · exact hne heq
    · exact hback hvia

end ImportGraph

end Bundler
