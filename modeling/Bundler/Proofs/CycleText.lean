/-
The text of a reported cycle. It names the modules of a component in the order of
their identities, and imports need not go that way round: an arrow can join two
modules of which the first does not import the second (`text_shows_no_import`).
What an arrow does say is that imports lead from one to the other without leaving
the cycle (`text_leads`). In a cycle of one or two modules there is nothing to
pass through, and each arrow is an import.
-/
import Mathlib.Data.List.Permutation
import Bundler.Proofs.ImportCycles

namespace Bundler

open Relation

/-! ## Arrows -/

namespace ModuleCycle

variable {c : ModuleCycle} {x y : ModuleId}

/-- The modules as the text names them. -/
def chain (c : ModuleCycle) : List ModuleId := c.modules ++ c.modules.take 1

/-- The modules on either side of each arrow of the text. -/
def arrows (c : ModuleCycle) : List (ModuleId × ModuleId) := c.chain.zip c.chain.tail

theorem mem_chain : x ∈ c.chain ↔ x ∈ c.modules := by
  rw [chain, List.mem_append, or_iff_left_of_imp List.mem_of_mem_take]

theorem mem_of_mem_arrows (h : (x, y) ∈ c.arrows) : x ∈ c.modules ∧ y ∈ c.modules := by
  obtain ⟨hx, hy⟩ := List.of_mem_zip h
  exact ⟨mem_chain.1 hx, mem_chain.1 (List.mem_of_mem_tail hy)⟩

/-- One arrow starts at each module, in their order. -/
theorem arrows_starts (c : ModuleCycle) : c.arrows.map (·.1) = c.modules := by
  obtain ⟨modules⟩ := c
  cases modules with
  | nil => rfl
  | cons first rest =>
    have harrows : arrows ⟨first :: rest⟩ = (first :: rest).zip (rest ++ [first]) := by
      calc arrows ⟨first :: rest⟩
        _ = (first :: rest ++ [first]).zip (rest ++ [first] ++ []) := by rw [List.append_nil]; rfl
        _ = (first :: rest).zip (rest ++ [first]) := by
          rw [List.zip_append (by simp), List.zip_nil_right, List.append_nil]
    rw [harrows, List.map_fst_zip (by simp)]

/-- Of one or two modules, each stands on one side of each arrow. -/
theorem eq_or_eq_of_mem_arrows (hc : c.modules.length ≤ 2) (h : (x, y) ∈ c.arrows) {z : ModuleId}
    (hz : z ∈ c.modules) : z = x ∨ z = y := by
  obtain ⟨modules⟩ := c
  match modules with
  | [] => cases hz
  | [a] => simp_all [arrows, chain]
  | [a, b] =>
    simp only [List.mem_cons, List.not_mem_nil, or_false] at hz
    simp only [arrows, chain, List.take_succ_cons, List.take_zero, List.cons_append, List.nil_append,
      List.tail_cons, List.zip_cons_cons, List.zip_nil_right, List.mem_cons, Prod.mk.injEq,
      List.not_mem_nil, or_false] at h
    rcases h with ⟨rfl, rfl⟩ | ⟨rfl, rfl⟩
    · exact hz
    · exact hz.symm
  | a :: b :: d :: rest => simp at hc

end ModuleCycle

/-! ## Imports within a cycle -/

/-- An import of one of some modules by another of them. -/
def ModuleTable.ImportsWithin (t : ModuleTable) (modules : List ModuleId) (a b : ModuleId) : Prop :=
  a ∈ modules ∧ b ∈ modules ∧ t.Imports a b

namespace ImportGraph

variable {t : ModuleTable} {a b : ModuleId} {c : List ModuleId}

/-- What imports lead through between modules of a component is in it. -/
theorem importsWithin_of_importsVia (hc : c ∈ (ofTable t).components) (hb : b ∈ c)
    (h : t.ImportsVia a b) : a ∈ c → TransGen (t.ImportsWithin c) a b := by
  induction h using TransGen.head_induction_on with
  | single hab => exact fun ha => .single ⟨ha, hb, hab⟩
  | @head a z haz hzb ih =>
    intro ha
    have hback : t.Leads b a := ((mem_component hc hb).1 ha).1
    have hz : z ∈ c := (mem_component hc ha).2 ⟨.single haz, hzb.to_reflTransGen.trans hback⟩
    exact .head ⟨ha, hz, haz⟩ (ih hz)

/-- Imports lead from each module of a cycle to each, and to itself, within it. -/
theorem importsWithin_of_mem_cycles (hc : c ∈ (ofTable t).cycles) (ha : a ∈ c) (hb : b ∈ c) :
    TransGen (t.ImportsWithin c) a b := by
  obtain ⟨⟨hab, -⟩, hvia⟩ := exists_mem_cycles.1 ⟨c, hc, ha, hb⟩
  exact importsWithin_of_importsVia (mem_cycles.1 hc).1 hb (hvia.trans_left hab) ha

end ImportGraph

/-- A way has a step out of where it starts, unless it leads back there. -/
theorem exists_step_out {α : Type} {r : α → α → Prop} {x y : α} (h : TransGen r x y) :
    ∃ z, r x z ∧ (z = x → y = x) := by
  induction h using TransGen.head_induction_on with
  | single hxy => exact ⟨y, hxy, id⟩
  | @head x w hxw _ ih =>
    by_cases hw : w = x
    · subst hw
      exact ih
    · exact ⟨w, hxw, fun h => absurd h hw⟩

namespace CycleReport

/-- **Along the arrows of a reported cycle imports lead from module to module**,
without leaving the cycle, and one arrow starts at each of its modules, in the
order of identities. If the cycle has one or two modules, each arrow is itself an
import. -/
theorem text_leads {t : ModuleTable} {c : ModuleCycle} (hc : c ∈ (ofTable t).cycles) :
    c.text = " -> ".intercalate (c.chain.map (·.text)) ∧
    c.arrows.map (·.1) = c.modules ∧ ModuleId.Ascending c.modules ∧
    (∀ x y, (x, y) ∈ c.arrows → TransGen (t.ImportsWithin c.modules) x y) ∧
    (c.modules.length ≤ 2 → ∀ x y, (x, y) ∈ c.arrows → t.Imports x y) := by
  have hcycle := mem_ofTable.1 hc
  have hleads : ∀ x y, (x, y) ∈ c.arrows → TransGen (t.ImportsWithin c.modules) x y := by
    intro x y h
    obtain ⟨hx, hy⟩ := ModuleCycle.mem_of_mem_arrows h
    exact ImportGraph.importsWithin_of_mem_cycles hcycle hx hy
  refine ⟨rfl, ModuleCycle.arrows_starts c,
    ImportGraph.component_ascending (ImportGraph.mem_cycles.1 hcycle).1, hleads, ?_⟩
  intro hsmall x y h
  obtain ⟨z, ⟨-, hz, hxz⟩, hback⟩ := exists_step_out (hleads x y h)
  rcases ModuleCycle.eq_or_eq_of_mem_arrows hsmall h hz with rfl | rfl
  · rw [hback rfl]
    exact hxz
  · exact hxz

/-- Two cycles of two modules that share one: the last arrow is no import. -/
theorem text_leads_eight :
    let a : ModuleId := ⟨"/a.js"⟩
    let b : ModuleId := ⟨"/b.js"⟩
    let c : ModuleId := ⟨"/c.js"⟩
    let t : ModuleTable := ⟨[⟨a, "", [("./b.js", b)], ""⟩, ⟨b, "", [("./c.js", c), ("./a.js", a)], ""⟩,
      ⟨c, "", [("./b.js", b)], ""⟩]⟩
    ∃ cycle ∈ (ofTable t).cycles, cycle.text = "/a.js -> /b.js -> /c.js -> /a.js" ∧
      TransGen (t.ImportsWithin [a, b, c]) c a := by
  intro a b c t
  have hcycles : (ofTable t).cycles = [⟨[a, b, c]⟩] := by cbv
  have hc : ⟨[a, b, c]⟩ ∈ (ofTable t).cycles := hcycles ▸ List.mem_singleton_self _
  exact ⟨_, hc, by decide +kernel, (text_leads hc).2.2.2.1 c a (by decide)⟩

/-- Three modules in a ring, against the order of their identities: none imports
the one that its arrow points to. -/
theorem text_shows_no_import :
    let a : ModuleId := ⟨"/a.js"⟩
    let b : ModuleId := ⟨"/b.js"⟩
    let c : ModuleId := ⟨"/c.js"⟩
    let t : ModuleTable := ⟨[⟨a, "", [("./c.js", c)], ""⟩, ⟨b, "", [("./a.js", a)], ""⟩,
      ⟨c, "", [("./b.js", b)], ""⟩]⟩
    ∃ cycle ∈ (ofTable t).cycles, cycle.text = "/a.js -> /b.js -> /c.js -> /a.js" ∧
      cycle.arrows = [(a, b), (b, c), (c, a)] ∧ ∀ x y, (x, y) ∈ cycle.arrows → ¬ t.Imports x y := by
  intro a b c t
  have hcycles : (ofTable t).cycles = [⟨[a, b, c]⟩] := by cbv
  have hedges : (ImportGraph.ofTable t).edges = [⟨b, c⟩, ⟨a, b⟩, ⟨c, a⟩] := by decide +kernel
  refine ⟨⟨[a, b, c]⟩, hcycles ▸ List.mem_singleton_self _, by decide +kernel, rfl, ?_⟩
  intro x y h himp
  rw [← ImportGraph.mem_ofTable_edges, hedges] at himp
  have harrows : ∀ p ∈ [(a, b), (b, c), (c, a)], ImportEdge.mk p.2 p.1 ∉ [⟨b, c⟩, ⟨a, b⟩, ⟨c, a⟩] := by decide
  exact harrows (x, y) h himp

end CycleReport

end Bundler
