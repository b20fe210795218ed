/-
What each step of the component search keeps true. `Sound` is the invariant:
the nodes on the stack are linked upwards, each of them leads back to a node
whose visit goes on, and what has been found are components that no edge
leaves for the stack. `Visited` is what a visit does to a search, `Ongoing`
what holds between two edges of the node visited.
-/
import Mathlib.Data.List.Nodup
import Mathlib.Logic.Relation
import Mathlib.Order.MinMax
import Bundler.Graph.Tarjan

namespace Bundler.Graph

section

variable {α : Type}

/-- Edges lead from a node to another one. -/
def Reach (next : α → List α) : α → α → Prop := Relation.ReflTransGen fun v w => w ∈ next v

def Mutual (next : α → List α) (v w : α) : Prop := Reach next v w ∧ Reach next w v

/-- Edges do not lead out of what is closed under them. -/
theorem Reach.mem_of_closed {next : α → List α} {s : List α} (hs : ∀ v ∈ s, ∀ w ∈ next v, w ∈ s)
    {v w : α} (h : Reach next v w) (hv : v ∈ s) : w ∈ s := by
  induction h with
  | refl => exact hv
  | tail _ hedge ih => exact hs _ ih _ hedge

/-- On the stack or in a component. -/
def Search.Met (s : Search α) (v : α) : Prop := v ∈ s.stack ∨ v ∈ s.found.flatten

theorem Search.push_met {s : Search α} {v w : α} : (s.push v).Met w ↔ w = v ∨ s.Met w := by
  simp only [Met, push, List.mem_append, List.mem_singleton]
  tauto

theorem Search.close_stack {s : Search α} {below above : List α} (h : s.stack = below ++ above) :
    (s.close below.length).stack = below := by
  rw [close, h, List.take_left]

theorem Search.close_found {s : Search α} {below above : List α} (h : s.stack = below ++ above) :
    (s.close below.length).found = s.found ++ [above] := by
  rw [close, h, List.drop_left]

theorem Search.close_met {s : Search α} {below above : List α} (h : s.stack = below ++ above) {v : α} :
    (s.close below.length).Met v ↔ s.Met v := by
  rw [Met, close_stack h, close_found h, Met, h]
  simp only [List.flatten_append, List.flatten_singleton, List.mem_append]
  tauto

/-- At most so many nodes are still to be met. -/
def Search.Room (nodes : List α) (fuel : Nat) (s : Search α) : Prop :=
  ∃ rest : List α, rest.length ≤ fuel ∧ ∀ v ∈ nodes, s.Met v ∨ v ∈ rest

end

variable {α : Type} {nodes active : List α} {next : α → List α} {s : Search α} {v : α}

/-! ## The invariant -/

/-- Holds of a search while the visits of the active nodes go on. -/
structure Sound (nodes : List α) (next : α → List α) (active : List α) (s : Search α) : Prop where
  nodup : (s.stack ++ s.found.flatten).Nodup
  known : ∀ v, s.Met v → v ∈ nodes
  closed : ∀ v ∈ s.found.flatten, ∀ w ∈ next v, w ∈ s.found.flatten
  component : ∀ c ∈ s.found, c ≠ [] ∧ ∀ v ∈ c, ∀ w, w ∈ c ↔ Mutual next v w
  /-- No edge leads to a component found later. -/
  order : s.found.Pairwise fun c d => ∀ v ∈ c, ∀ w ∈ d, w ∉ next v
  onStack : ∀ v ∈ active, v ∈ s.stack
  explored : ∀ v ∈ s.stack, v ∉ active → ∀ w ∈ next v, s.Met w
  linked : s.stack.Pairwise (Reach next)
  returns : ∀ v ∈ s.stack, ∃ u ∈ active, Reach next v u

theorem Sound.start (nodes : List α) (next : α → List α) : Sound nodes next [] {} := by
  constructor <;> simp [Search.Met]

theorem Sound.not_found (h : Sound nodes next active s) (hv : v ∈ s.stack) : v ∉ s.found.flatten :=
  fun hf => (List.nodup_append.1 h.nodup).2.2 v hv v hf rfl

/-- Between visits from outside the stack is empty. -/
theorem Sound.stack_eq_nil (h : Sound nodes next [] s) : s.stack = [] := by
  rw [List.eq_nil_iff_forall_not_mem]
  intro v hv
  obtain ⟨u, hu, -⟩ := h.returns v hv
  cases hu

/-- A node may be visited that is new and that every active node leads to. -/
structure Enters (nodes : List α) (next : α → List α) (active : List α) (s : Search α) (v : α) : Prop where
  sound : Sound nodes next active s
  fresh : ¬ s.Met v
  mem : v ∈ nodes
  leads : ∀ u ∈ active, Reach next u v

/-- On the stack every node leads to a node that enters. -/
theorem Enters.stack_leads (h : Enters nodes next active s v) {u : α} (hu : u ∈ s.stack) :
    Reach next u v := by
  obtain ⟨a, ha, hua⟩ := h.sound.returns u hu
  exact hua.trans (h.leads a ha)

theorem Enters.push (h : Enters nodes next active s v) : Sound nodes next (v :: active) (s.push v) where
  nodup := by
    have hn : (v :: (s.stack ++ s.found.flatten)).Nodup := by
      refine List.nodup_cons.2 ⟨?_, h.sound.nodup⟩
      rw [List.mem_append]
      exact h.fresh
    rw [Search.push, List.append_assoc, List.singleton_append]
    exact List.perm_middle.nodup_iff.2 hn
  known w hw := by
    rcases Search.push_met.1 hw with rfl | hw
    · exact h.mem
    · exact h.sound.known w hw
  closed := h.sound.closed
  component := h.sound.component
  order := h.sound.order
  onStack w hw := by
    rw [Search.push, List.mem_append, List.mem_singleton]
    rcases List.mem_cons.1 hw with rfl | hw
    · exact .inr rfl
    · exact .inl (h.sound.onStack w hw)
  explored w hw hnew x hx := by
    rw [List.mem_cons, not_or] at hnew
    rw [Search.push, List.mem_append, List.mem_singleton] at hw
    exact Search.push_met.2 (.inr (h.sound.explored w (hw.resolve_right hnew.1) hnew.2 x hx))
  linked := by
    rw [Search.push, List.pairwise_append]
    refine ⟨h.sound.linked, List.pairwise_singleton .., ?_⟩
    intro u hu w hw
    rw [List.mem_singleton.1 hw]
    exact h.stack_leads hu
  returns w hw := by
    rw [Search.push, List.mem_append, List.mem_singleton] at hw
    rcases hw with hw | rfl
    · exact ⟨v, List.mem_cons_self, h.stack_leads hw⟩
    · exact ⟨w, List.mem_cons_self, .refl⟩

/-- Meeting a node takes it from those still to be met. -/
theorem Search.Room.meet [DecidableEq α] {fuel : Nat} {s' : Search α} (h : s.Room nodes (fuel + 1))
    (hv : v ∈ nodes) (hnew : ¬ s.Met v) (hmono : ∀ w, s.Met w → s'.Met w) (hmet : s'.Met v) :
    s'.Room nodes fuel := by
  obtain ⟨rest, hlen, hrest⟩ := h
  have hmem : v ∈ rest := (hrest v hv).resolve_left hnew
  refine ⟨rest.erase v, ?_, ?_⟩
  · rw [List.length_erase_of_mem hmem]
    omega
  · intro w hw
    by_cases hwv : w = v
    · exact .inl (hwv ▸ hmet)
    · exact (hrest w hw).imp (hmono w) (List.mem_erase_of_ne hwv).2

/-! ## Visits -/

variable [DecidableEq α] {low index : Nat} {s' : Search α}

/-- What the visit of a node does. It adds to the stack, or leaves it as it
was; `low` is the lowest place on the stack that the nodes added lead to. -/
structure Visited (nodes : List α) (next : α → List α) (active : List α) (s : Search α) (v : α)
    (low : Nat) (s' : Search α) : Prop where
  sound : Sound nodes next active s'
  met : s'.Met v
  mono : ∀ w, s.Met w → s'.Met w
  low_le : low ≤ s.stack.length
  reaches : low < s.stack.length → ∃ u, s.stack[low]? = some u ∧ Reach next v u
  added : ∃ new, s'.stack = s.stack ++ new ∧
    ∀ x ∈ new, ∀ w ∈ next x, w ∈ s.stack → low ≤ s.stack.idxOf w

/-- What holds while the visit of a node goes on, after some of its edges. -/
structure Ongoing (nodes : List α) (next : α → List α) (active : List α) (s : Search α) (v : α)
    (past : List α) (low : Nat) (s' : Search α) : Prop where
  sound : Sound nodes next (v :: active) s'
  mono : ∀ w, s.Met w → s'.Met w
  low_le : low ≤ s.stack.length
  reaches : low < s.stack.length → ∃ u, s.stack[low]? = some u ∧ Reach next v u
  added : ∃ new, s'.stack = s.stack ++ v :: new ∧
    ∀ x ∈ new, ∀ w ∈ next x, w ∈ s.stack → low ≤ s.stack.idxOf w
  gone : ∀ w ∈ past, s'.Met w ∧ (w ∈ s.stack → low ≤ s.stack.idxOf w)

theorem Ongoing.start (h : Enters nodes next active s v) :
    Ongoing nodes next active s v [] s.stack.length (s.push v) where
  sound := h.push
  mono w hw := Search.push_met.2 (.inr hw)
  low_le := le_rfl
  reaches hlt := absurd hlt (lt_irrefl _)
  added := ⟨[], rfl, by simp⟩
  gone := by simp

namespace Ongoing

variable {past : List α} {w : α}

theorem met (h : Ongoing nodes next active s v past low s') : s'.Met v :=
  .inl (h.sound.onStack v List.mem_cons_self)

/-- An edge to a node on the stack. -/
theorem meet (h : Ongoing nodes next active s v past low s') (hw : w ∈ next v) (hon : w ∈ s'.stack) :
    Ongoing nodes next active s v (past ++ [w]) (min low (s'.stack.idxOf w)) s' := by
  obtain ⟨new, hstack, hnew⟩ := h.added
  refine ⟨h.sound, h.mono, (min_le_left _ _).trans h.low_le, ?_, ⟨new, hstack, ?_⟩, ?_⟩
  · intro hlt
    rcases min_choice low (s'.stack.idxOf w) with hmin | hmin <;> rw [hmin] at hlt ⊢
    · exact h.reaches hlt
    · refine ⟨w, ?_, .single hw⟩
      have hat : (s.stack ++ v :: new)[s'.stack.idxOf w]? = some w := hstack ▸ List.getElem?_idxOf hon
      rwa [List.getElem?_append_left hlt] at hat
  · exact fun x hx y hy hys => (min_le_left _ _).trans (hnew x hx y hy hys)
  · rw [List.forall_mem_append, List.forall_mem_singleton]
    refine ⟨fun x hx => ?_, .inl hon, fun hws => ?_⟩
    · obtain ⟨hmet, hxlow⟩ := h.gone x hx
      exact ⟨hmet, fun hxs => (min_le_left _ _).trans (hxlow hxs)⟩
    · rw [hstack, List.idxOf_append_of_mem hws]
      exact min_le_right _ _

/-- An edge to a node that has a component. -/
theorem pass (h : Ongoing nodes next active s v past low s') (hf : w ∈ s'.found.flatten) :
    Ongoing nodes next active s v (past ++ [w]) low s' := by
  obtain ⟨new, hstack, hnew⟩ := h.added
  refine ⟨h.sound, h.mono, h.low_le, h.reaches, ⟨new, hstack, hnew⟩, ?_⟩
  rw [List.forall_mem_append, List.forall_mem_singleton]
  refine ⟨h.gone, .inr hf, fun hws => ?_⟩
  refine absurd hf (h.sound.not_found ?_)
  rw [hstack]
  exact List.mem_append_left _ hws

/-- The next edge leads to a node that may be visited. -/
theorem enters (h : Ongoing nodes next active s v past low s') (henter : Enters nodes next active s v)
    (hnodes : w ∈ nodes) (hw : w ∈ next v) (hnew : ¬ s'.Met w) : Enters nodes next (v :: active) s' w where
  sound := h.sound
  fresh := hnew
  mem := hnodes
  leads u hu := by
    rcases List.mem_cons.1 hu with rfl | hu
    · exact .single hw
    · exact (henter.leads u hu).tail hw

/-- An edge to a node that is visited. -/
theorem descend {low' : Nat} {s'' : Search α} (h : Ongoing nodes next active s v past low s')
    (hw : w ∈ next v) (hnew : ¬ s'.Met w) (hvisit : Visited nodes next (v :: active) s' w low' s'') :
    Ongoing nodes next active s v (past ++ [w]) (min low low') s'' := by
  obtain ⟨new, hstack, hlow⟩ := h.added
  obtain ⟨new', hstack', hlow'⟩ := hvisit.added
  refine ⟨hvisit.sound, fun x hx => hvisit.mono x (h.mono x hx), (min_le_left _ _).trans h.low_le,
    ?_, ?_, ?_⟩
  · intro hlt
    rcases min_choice low low' with hmin | hmin <;> rw [hmin] at hlt ⊢
    · exact h.reaches hlt
    · have hlt' : low' < s'.stack.length := by
        rw [hstack, List.length_append]
        omega
      obtain ⟨u, hu, hwu⟩ := hvisit.reaches hlt'
      rw [hstack, List.getElem?_append_left hlt] at hu
      exact ⟨u, hu, .head hw hwu⟩
  · refine ⟨new ++ new', by rw [hstack', hstack, List.append_assoc, List.cons_append], ?_⟩
    intro x hx y hy hys
    rcases List.mem_append.1 hx with hx | hx
    · exact (min_le_left _ _).trans (hlow x hx y hy hys)
    · have hle := hlow' x hx y hy (hstack ▸ List.mem_append_left _ hys)
      rw [hstack, List.idxOf_append_of_mem hys] at hle
      exact (min_le_right _ _).trans hle
  · rw [List.forall_mem_append, List.forall_mem_singleton]
    refine ⟨fun x hx => ?_, hvisit.met, fun hws => absurd (h.mono w (.inl hws)) hnew⟩
    obtain ⟨hmet, hxlow⟩ := h.gone x hx
    exact ⟨hvisit.mono x hmet, fun hxs => (min_le_left _ _).trans (hxlow hxs)⟩

end Ongoing

end Bundler.Graph
