/-
The report names exactly the modules from which imports lead back to
themselves, in groups that import each other. What is reported depends on the
imports only (`mem_cycles`), and the groups stand in order; so the order in
which records were inserted leaves no trace.
-/
import Bundler.Proofs.ImportComponents

namespace Bundler

namespace ImportGraph

variable {t t' : ModuleTable} {a b id : ModuleId} {c d : List ModuleId}

/-! ## The order of lists -/

/-- Lists of identities are ordered by the bytes of the first that differ. -/
theorem lexLe_iff : ∀ {as bs : List ModuleId},
    lexLe as bs = true ↔ as.map ModuleId.bytes < bs.map ModuleId.bytes ∨ as = bs
  | [], [] => by simp [lexLe]
  | [], b :: bs => by simp [lexLe]
  | a :: as, [] => by simp [lexLe]
  | a :: as, b :: bs => by
    rw [lexLe, List.map_cons, List.map_cons, List.cons_lt_cons_iff, List.cons.injEq, ModuleId.bytes_inj]
    split_ifs with hab
    · subst hab
      simp only [lexLe_iff, List.lt_irrefl, true_and, false_or]
    · simp only [ModuleId.le_iff, hab, false_and, or_false]

theorem lexLe_trans {as bs cs : List ModuleId} (hab : lexLe as bs = true) (hbc : lexLe bs cs = true) :
    lexLe as cs = true := by
  rw [lexLe_iff] at *
  rcases hab with hab | rfl
  · rcases hbc with hbc | rfl
    · exact .inl (List.lt_trans hab hbc)
    · exact .inl hab
  · exact hbc

theorem lexLe_total : ∀ as bs : List ModuleId, (lexLe as bs || lexLe bs as) = true
  | [], _ => by simp [lexLe]
  | _ :: _, [] => by simp [lexLe]
  | a :: as, b :: bs => by
    rw [lexLe, lexLe]
    by_cases hab : a = b
    · rw [if_pos hab, if_pos hab.symm]
      exact lexLe_total as bs
    · rw [if_neg hab, if_neg (Ne.symm hab)]
      exact ModuleId.le_total a b

/-! ## Cycles -/

theorem importsItself_iff : (ofTable t).importsItself a = true ↔ t.Imports a a := by
  rw [importsItself, decide_eq_true_eq, mem_ofTable_edges]

theorem mem_nodes_of_importsVia (h : t.ImportsVia a b) : b ∈ (ofTable t).nodes := by
  obtain ⟨x, -, hxb⟩ := Relation.TransGen.tail'_iff.1 h
  exact mem_ofTable_nodes.2 (.inr ⟨x, hxb⟩)

/-- In a component of more modules than one, imports lead from each back to it. -/
theorem importsVia_of_mem_component (hc : c ∈ (ofTable t).components) (ha : a ∈ c) (hb : b ∈ c)
    (hne : a ≠ b) : t.ImportsVia a a := by
  obtain ⟨hab, hba⟩ := (mem_component hc ha).1 hb
  rcases Relation.reflTransGen_iff_eq_or_transGen.1 hab with heq | hvia
  · exact absurd heq.symm hne
  · exact hvia.trans_left hba

theorem isCycle_iff (hc : c ∈ (ofTable t).components) (ha : a ∈ c) :
    (ofTable t).isCycle c = true ↔ t.ImportsVia a a := by
  cases c with
  | nil => cases ha
  | cons x rest =>
    cases rest with
    | nil =>
      obtain rfl := List.mem_singleton.1 ha
      rw [isCycle, importsItself_iff]
      constructor
      · exact .single
      · intro hvia
        -- The first module on the way back is in the component too.
        obtain ⟨b, hab, hba⟩ := Relation.TransGen.head'_iff.1 hvia
        obtain rfl := List.mem_singleton.1 ((mem_component hc ha).2 ⟨.single hab, hba⟩)
        exact hab
    | cons y rest =>
      have hxy : x ≠ y := by
        rintro rfl
        exact (List.nodup_cons.1 (component_ascending hc).nodup).1 List.mem_cons_self
      refine ⟨fun _ => ?_, fun _ => rfl⟩
      by_cases hax : a = x
      · exact importsVia_of_mem_component hc ha (List.mem_cons_of_mem x List.mem_cons_self) (hax ▸ hxy)
      · exact importsVia_of_mem_component hc ha List.mem_cons_self hax

theorem mem_cycles :
    c ∈ (ofTable t).cycles ↔ c ∈ (ofTable t).components ∧ (ofTable t).isCycle c = true := by
  rw [cycles, List.mem_mergeSort, List.mem_filter]

/-- A cycle is all that imports lead to and back, from a module on a way back to
itself. -/
theorem mem_cycles_iff : c ∈ (ofTable t).cycles ↔
    ModuleId.Ascending c ∧ ∃ a ∈ c, t.ImportsVia a a ∧ ∀ b, b ∈ c ↔ t.Leads a b ∧ t.Leads b a := by
  rw [mem_cycles]
  constructor
  · rintro ⟨hc, hcycle⟩
    obtain ⟨a, ha⟩ := List.exists_mem_of_ne_nil c (component_ne_nil hc)
    exact ⟨component_ascending hc, a, ha, (isCycle_iff hc ha).1 hcycle, fun b => mem_component hc ha⟩
  · rintro ⟨hasc, a, ha, hvia, hmem⟩
    obtain ⟨d, hd, had⟩ := exists_component (mem_nodes_of_importsVia hvia)
    have hcd : c = d := hasc.eq_of_mem_iff (component_ascending hd) fun x => by
      rw [hmem, mem_component hd had]
    rw [hcd]
    exact ⟨hd, (isCycle_iff hd had).2 hvia⟩

theorem exists_mem_cycles : (∃ c ∈ (ofTable t).cycles, a ∈ c ∧ b ∈ c) ↔
    (t.Leads a b ∧ t.Leads b a) ∧ t.ImportsVia a a := by
  constructor
  · rintro ⟨c, hc, ha, hb⟩
    rw [mem_cycles] at hc
    exact ⟨(mem_component hc.1 ha).1 hb, (isCycle_iff hc.1 ha).1 hc.2⟩
  · rintro ⟨hab, hvia⟩
    obtain ⟨c, hc, ha⟩ := exists_component (mem_nodes_of_importsVia hvia)
    exact ⟨c, mem_cycles.2 ⟨hc, (isCycle_iff hc ha).2 hvia⟩, ha, (mem_component hc ha).2 hab⟩

theorem cycles_disjoint (t : ModuleTable) : (ofTable t).cycles.Pairwise List.Disjoint := by
  have hcomponents := (List.nodup_flatten.1 (components_flatten_nodup t)).2
  have hfilter := hcomponents.filter (ofTable t).isCycle
  exact (List.mergeSort_perm _ lexLe).symm.pairwise hfilter List.disjoint_symm

theorem cycles_ascending (t : ModuleTable) :
    (ofTable t).cycles.Pairwise fun c d => c.map ModuleId.bytes < d.map ModuleId.bytes := by
  have hsorted : (ofTable t).cycles.Pairwise fun c d => lexLe c d = true := by
    refine List.pairwise_mergeSort ?_ lexLe_total _
    intro c d e
    exact lexLe_trans
  refine (hsorted.and (cycles_disjoint t)).imp_of_mem ?_
  rintro c d hc - ⟨hle, hdisjoint⟩
  refine (lexLe_iff.1 hle).resolve_right ?_
  rintro rfl
  obtain ⟨a, ha⟩ := List.exists_mem_of_ne_nil c (component_ne_nil (mem_cycles.1 hc).1)
  exact hdisjoint ha ha

/-- The cycles depend on the imports only. -/
theorem cycles_congr (h : ∀ a b, t.Imports a b ↔ t'.Imports a b) :
    (ofTable t).cycles = (ofTable t').cycles := by
  have himports : t.Imports = t'.Imports := funext₂ fun a b => propext (h a b)
  refine eq_of_asymm List.lt_asymm (cycles_ascending t) (cycles_ascending t') fun c => ?_
  simp only [mem_cycles_iff, ModuleTable.Leads, ModuleTable.ImportsVia, himports]

end ImportGraph

namespace CycleReport

/-! ## The report -/

variable {t t' : ModuleTable} {a b id : ModuleId}

theorem mem_ofTable {c : ModuleCycle} :
    c ∈ (ofTable t).cycles ↔ c.modules ∈ (ImportGraph.ofTable t).cycles := by
  simp only [ofTable, List.mem_map]
  constructor
  · rintro ⟨modules, hm, rfl⟩
    exact hm
  · exact fun hm => ⟨c.modules, hm, rfl⟩

theorem exists_mem_ofTable : (∃ c ∈ (ofTable t).cycles, a ∈ c.modules ∧ b ∈ c.modules) ↔
    (t.Leads a b ∧ t.Leads b a) ∧ t.ImportsVia a a := by
  rw [← ImportGraph.exists_mem_cycles]
  constructor
  · rintro ⟨c, hc, hab⟩
    exact ⟨c.modules, mem_ofTable.1 hc, hab⟩
  · rintro ⟨c, hc, hab⟩
    exact ⟨⟨c⟩, mem_ofTable.2 hc, hab⟩

theorem involves_iff : (ofTable t).involves id = true ↔ t.ImportsVia id id := by
  simp only [involves, List.any_eq_true, List.contains_iff_mem]
  constructor
  · rintro ⟨c, hc, hid⟩
    exact (exists_mem_ofTable.1 ⟨c, hc, hid, hid⟩).2
  · intro hvia
    obtain ⟨c, hc, hid, -⟩ := exists_mem_ofTable.2 ⟨⟨.refl, .refl⟩, hvia⟩
    exact ⟨c, hc, hid⟩

theorem ofTable_disjoint (t : ModuleTable) :
    (ofTable t).cycles.Pairwise fun c d => c.modules.Disjoint d.modules := by
  rw [ofTable, List.pairwise_map]
  exact ImportGraph.cycles_disjoint t

theorem ofTable_ascending (t : ModuleTable) : (ofTable t).cycles.Pairwise fun c d =>
    c.modules.map ModuleId.bytes < d.modules.map ModuleId.bytes := by
  rw [ofTable, List.pairwise_map]
  exact ImportGraph.cycles_ascending t

/-- A module is in one cycle at most. -/
theorem eq_of_mem_of_mem {c d : ModuleCycle} (hc : c ∈ (ofTable t).cycles) (hd : d ∈ (ofTable t).cycles)
    (hac : a ∈ c.modules) (had : a ∈ d.modules) : c = d := by
  have hc' := (ImportGraph.mem_cycles.1 (mem_ofTable.1 hc)).1
  have hd' := (ImportGraph.mem_cycles.1 (mem_ofTable.1 hd)).1
  cases c; cases d
  exact congrArg ModuleCycle.mk (ImportGraph.component_eq hc' hd' hac had)

theorem singleton_mem_iff : ⟨[a]⟩ ∈ (ofTable t).cycles ↔
    t.Imports a a ∧ ∀ c ∈ (ofTable t).cycles, a ∈ c.modules → c.modules.length ≤ 1 := by
  constructor
  · intro hc
    have hcycle := ImportGraph.mem_cycles.1 (mem_ofTable.1 hc)
    refine ⟨ImportGraph.importsItself_iff.1 hcycle.2, fun d hd had => ?_⟩
    rw [← eq_of_mem_of_mem hc hd List.mem_cons_self had]
    exact Nat.le_refl 1
  · rintro ⟨himp, hsmall⟩
    obtain ⟨c, hc, hac, -⟩ := exists_mem_ofTable.2 ⟨⟨.refl, .refl⟩, Relation.TransGen.single himp⟩
    have hlen := hsmall c hc hac
    cases c with
    | mk modules =>
      cases modules with
      | nil => cases hac
      | cons x rest =>
        obtain rfl : rest = [] := List.eq_nil_of_length_eq_zero (by simpa using hlen)
        rw [List.mem_singleton.1 hac]
        exact hc

/-! ## The largest cycle -/

theorem foldl_max_spec : ∀ (cs : List ModuleCycle) (n : Nat),
    n ≤ cs.foldl (fun n c => max n c.modules.length) n ∧
    (∀ c ∈ cs, c.modules.length ≤ cs.foldl (fun n c => max n c.modules.length) n) ∧
    (cs.foldl (fun n c => max n c.modules.length) n = n ∨
      ∃ c ∈ cs, cs.foldl (fun n c => max n c.modules.length) n = c.modules.length)
  | [], n => by simp
  | c :: cs, n => by
    obtain ⟨hn, hcs, hone⟩ := foldl_max_spec cs (max n c.modules.length)
    rw [List.foldl_cons, List.forall_mem_cons, List.exists_mem_cons_iff]
    refine ⟨by omega, ⟨by omega, hcs⟩, ?_⟩
    rcases hone with hmax | hone
    · rcases Nat.le_total c.modules.length n with hle | hle
      · exact .inl (hmax.trans (Nat.max_eq_left hle))
      · exact .inr (.inl (hmax.trans (Nat.max_eq_right hle)))
    · exact .inr (.inr hone)

theorem length_le_largestSize {r : CycleReport} {c : ModuleCycle} (hc : c ∈ r.cycles) :
    c.modules.length ≤ r.largestSize := (foldl_max_spec r.cycles 0).2.1 c hc

theorem largestSize_eq (r : CycleReport) :
    r.cycles = [] ∧ r.largestSize = 0 ∨ ∃ c ∈ r.cycles, r.largestSize = c.modules.length := by
  rcases (foldl_max_spec r.cycles 0).2.2 with hzero | hone
  · cases hr : r.cycles with
    | nil => exact .inl ⟨rfl, hzero⟩
    | cons c cs =>
      have hle := length_le_largestSize (r := r) (c := c) (hr ▸ List.mem_cons_self)
      refine .inr ⟨c, List.mem_cons_self, ?_⟩
      have hz : r.largestSize = 0 := hzero
      omega
  · exact .inr hone

/-! ## The order of records -/

theorem ofTable_congr (h : ∀ a b, t.Imports a b ↔ t'.Imports a b) : ofTable t = ofTable t' := by
  rw [ofTable, ofTable, ImportGraph.cycles_congr h]

/-- **The report of any table is exact.** It names the modules that a chain of
imports leads back to, grouped by the chains between them, in order, and does
not depend on the order in which the records were inserted. -/
theorem ofTable_exact (t : ModuleTable) :
    (∀ id, (ofTable t).involves id = true ↔ t.ImportsVia id id) ∧
    (ofTable t).cycles.Pairwise (fun c d => c.modules.Disjoint d.modules) ∧
    (∀ c ∈ (ofTable t).cycles, c.modules ≠ [] ∧ ModuleId.Ascending c.modules) ∧
    (∀ a b, (∃ c ∈ (ofTable t).cycles, a ∈ c.modules ∧ b ∈ c.modules) ↔
      (t.Leads a b ∧ t.Leads b a) ∧ t.ImportsVia a a ∧ t.ImportsVia b b) ∧
    (ofTable t).cycles.Pairwise (fun c d => c.modules.map ModuleId.bytes < d.modules.map ModuleId.bytes) ∧
    (∀ a, ⟨[a]⟩ ∈ (ofTable t).cycles ↔
      t.Imports a a ∧ ∀ c ∈ (ofTable t).cycles, a ∈ c.modules → c.modules.length ≤ 1) ∧
    (∀ c ∈ (ofTable t).cycles, c.modules.length ≤ (ofTable t).largestSize) ∧
    ((ofTable t).cycles = [] ∧ (ofTable t).largestSize = 0 ∨
      ∃ c ∈ (ofTable t).cycles, (ofTable t).largestSize = c.modules.length) ∧
    ∀ records, t.ids.Nodup → records.Perm t.records → ofTable (.ofList records) = ofTable t := by
  refine ⟨fun _ => involves_iff, ofTable_disjoint t, ?_, ?_, ofTable_ascending t,
    fun _ => singleton_mem_iff, fun _ => length_le_largestSize, largestSize_eq _, ?_⟩
  · intro c hc
    have hcomponent := (ImportGraph.mem_cycles.1 (mem_ofTable.1 hc)).1
    exact ⟨ImportGraph.component_ne_nil hcomponent, ImportGraph.component_ascending hcomponent⟩
  · intro a b
    rw [exists_mem_ofTable]
    constructor
    · exact fun ⟨hab, hvia⟩ => ⟨hab, hvia, (hvia.trans_right hab.2).trans_left hab.1⟩
    · exact fun ⟨hab, hvia, _⟩ => ⟨hab, hvia⟩
  · intro records hids hperm
    have hids' : (records.map (·.id)).Nodup := (hperm.map _).nodup_iff.2 hids
    refine ofTable_congr fun a b => ?_
    simp only [ModuleTable.Imports, ModuleTable.ofList_records hids', hperm.mem_iff]

end CycleReport

end Bundler
