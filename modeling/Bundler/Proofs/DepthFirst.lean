/-
Depth first search with a stack, as the order in which modules are to start. A
node is listed when it is first come upon, and what it leads to is looked at
before the rest of the stack. What is listed is what edges lead to
(`mem_depthFirst`), and a stack is searched part by part (`depthFirst_append`).
-/
import Bundler.Proofs.TarjanSteps

namespace Bundler.Graph

variable {α : Type} [DecidableEq α]

/-- Nodes are left that a search has not met. -/
theorem unmet_lt {nodes met : List α} {v : α} (hv : v ∈ nodes) (hmet : v ∉ met) :
    nodes.countP (· ∉ met ++ [v]) < nodes.countP (· ∉ met) := by
  obtain ⟨before, after, rfl⟩ := List.append_of_mem hv
  have hle : ∀ l : List α, l.countP (· ∉ met ++ [v]) ≤ l.countP (· ∉ met) := fun l =>
    List.countP_mono_left fun w _ hw => by simp_all
  have hbefore := hle before
  have hafter := hle after
  rw [List.countP_append, List.countP_append, List.countP_cons_of_neg, List.countP_cons_of_pos]
  · omega
  · simpa using hmet
  · simp

/-- Goes on with a search that has met some nodes, and has a stack of nodes to
look at. Only those that belong to the graph are met. -/
def depthFirst (nodes : List α) (next : α → List α) (met : List α) : List α → List α
  | [] => met
  | v :: stack =>
    if v ∈ nodes ∧ v ∉ met then depthFirst nodes next (met ++ [v]) (next v ++ stack)
    else depthFirst nodes next met stack
termination_by stack => (nodes.countP (· ∉ met), stack.length)
decreasing_by
  · next h => exact .left _ _ (unmet_lt h.1 h.2)
  · exact .right _ (Nat.lt_succ_self _)

variable {nodes met stack : List α} {next : α → List α} {v w : α}

@[simp] theorem depthFirst_nil : depthFirst nodes next met [] = met := by rw [depthFirst]

/-- A node that was met is passed over. -/
theorem depthFirst_met (h : v ∈ met) :
    depthFirst nodes next met (v :: stack) = depthFirst nodes next met stack := by
  rw [depthFirst, if_neg fun hv => hv.2 h]

/-- A new node is met, and then what it leads to. -/
theorem depthFirst_new (hv : v ∈ nodes) (h : v ∉ met) :
    depthFirst nodes next met (v :: stack) = depthFirst nodes next (met ++ [v]) (next v ++ stack) := by
  rw [depthFirst, if_pos ⟨hv, h⟩]

theorem depthFirst_append (xs ys : List α) : depthFirst nodes next met (xs ++ ys) =
    depthFirst nodes next (depthFirst nodes next met xs) ys := by
  fun_induction depthFirst nodes next met xs with
  | case1 met => rfl
  | case2 met v xs h ih => rw [List.cons_append, depthFirst_new h.1 h.2, ← ih, List.append_assoc]
  | case3 met v xs h ih => rw [List.cons_append, depthFirst, if_neg h, ih]

theorem prefix_depthFirst : met <+: depthFirst nodes next met stack := by
  fun_induction depthFirst nodes next met stack with
  | case1 met => exact List.prefix_rfl
  | case2 met v stack h ih => exact (List.prefix_append met [v]).trans ih
  | case3 met v stack h ih => exact ih

theorem mem_depthFirst_of_met (h : v ∈ met) : v ∈ depthFirst nodes next met stack :=
  prefix_depthFirst.subset h

/-- What is on the stack is met. -/
theorem mem_depthFirst_of_stack (hv : v ∈ nodes) (h : v ∈ stack) : v ∈ depthFirst nodes next met stack := by
  fun_induction depthFirst nodes next met stack with
  | case1 met => cases h
  | case2 met w stack hw ih =>
    rcases List.mem_cons.1 h with rfl | h
    · exact mem_depthFirst_of_met (List.mem_append_right _ (List.mem_singleton_self v))
    · exact ih (List.mem_append_right _ h)
  | case3 met w stack hw ih =>
    rcases List.mem_cons.1 h with rfl | h
    · exact mem_depthFirst_of_met (by simpa [hv] using hw)
    · exact ih h

/-- Edges lead from the stack to what is met. -/
theorem reach_of_mem_depthFirst (h : w ∈ depthFirst nodes next met stack) :
    w ∈ met ∨ ∃ v ∈ stack, Reach next v w := by
  fun_induction depthFirst nodes next met stack with
  | case1 met => exact .inl h
  | case2 met v stack hv ih =>
    rcases ih h with hmet | ⟨u, hu, huw⟩
    · rcases List.mem_append.1 hmet with hmet | hmet
      · exact .inl hmet
      · rw [List.mem_singleton.1 hmet]
        exact .inr ⟨v, List.mem_cons_self, .refl⟩
    · rcases List.mem_append.1 hu with hu | hu
      · exact .inr ⟨v, List.mem_cons_self, .head hu huw⟩
      · exact .inr ⟨u, List.mem_cons_of_mem v hu, huw⟩
  | case3 met v stack hv ih =>
    rcases ih h with hmet | ⟨u, hu, huw⟩
    · exact .inl hmet
    · exact .inr ⟨u, List.mem_cons_of_mem v hu, huw⟩

/-- No edge leads out of what is met, if none leads further than the stack. -/
theorem depthFirst_closed (hnodes : ∀ v ∈ nodes, ∀ w ∈ next v, w ∈ nodes) (hmet : ∀ v ∈ met, v ∈ nodes)
    (h : ∀ v ∈ met, ∀ w ∈ next v, w ∈ met ∨ w ∈ stack) :
    ∀ v ∈ depthFirst nodes next met stack, ∀ w ∈ next v, w ∈ depthFirst nodes next met stack := by
  fun_induction depthFirst nodes next met stack with
  | case1 met =>
    intro v hv w hw
    exact (h v hv w hw).resolve_right List.not_mem_nil
  | case2 met u stack hu ih =>
    have hmet' : ∀ v ∈ met ++ [u], v ∈ nodes := by
      intro v hv
      rcases List.mem_append.1 hv with hv | hv
      · exact hmet v hv
      · exact List.mem_singleton.1 hv ▸ hu.1
    refine ih hmet' fun v hv w hw => ?_
    rcases List.mem_append.1 hv with hv | hv
    · rcases h v hv w hw with hmet | hstack
      · exact .inl (List.mem_append_left _ hmet)
      · rcases List.mem_cons.1 hstack with rfl | hstack
        · exact .inl (List.mem_append_right _ (List.mem_singleton_self w))
        · exact .inr (List.mem_append_right _ hstack)
    · rw [List.mem_singleton.1 hv] at hw
      exact .inr (List.mem_append_left _ hw)
  | case3 met u stack hu ih =>
    refine ih hmet fun v hv w hw => ?_
    rcases h v hv w hw with hw' | hw'
    · exact .inl hw'
    · rcases List.mem_cons.1 hw' with rfl | hstack
      · exact .inl (by simpa [hnodes v (hmet v hv) w hw] using hu)
      · exact .inr hstack

/-- **A search from a node lists what edges lead to from there.** -/
theorem mem_depthFirst (hnodes : ∀ v ∈ nodes, ∀ w ∈ next v, w ∈ nodes) (hv : v ∈ nodes) :
    w ∈ depthFirst nodes next [] [v] ↔ Reach next v w := by
  constructor
  · intro h
    rcases reach_of_mem_depthFirst h with hmet | ⟨u, hu, huw⟩
    · cases hmet
    · rwa [List.mem_singleton.1 hu] at huw
  · intro h
    refine h.mem_of_closed (depthFirst_closed hnodes ?_ ?_)
      (mem_depthFirst_of_stack hv (List.mem_singleton_self v))
    · exact fun _ hmem => absurd hmem List.not_mem_nil
    · exact fun _ hmem => absurd hmem List.not_mem_nil

end Bundler.Graph
