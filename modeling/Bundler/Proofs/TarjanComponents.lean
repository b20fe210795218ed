/-
The component search finds the strongly connected components: what is on the
stack from a node on, when no edge of it leads further down, is a component,
and everything it leads to has one already (`Ongoing.close`). So a visit keeps
the invariant (`visit_visited`), and when all nodes have been tried each of
them is in one component (`components_spec`).
-/
import Bundler.Proofs.TarjanSteps

namespace Bundler.Graph

variable {α : Type} [DecidableEq α] {nodes active : List α} {next : α → List α} {s s' : Search α} {v : α}
  {low fuel : Nat} {new : List α}

/-! ## The end of a visit -/

namespace Ongoing

/-- The visit ends, and what it has added to the stack leads further down. -/
theorem leave (h : Ongoing nodes next active s v (next v) low s') (henter : Enters nodes next active s v)
    (hlt : low < s.stack.length) : Visited nodes next active s v low s' := by
  obtain ⟨new, hstack, hlow⟩ := h.added
  refine ⟨⟨h.sound.nodup, h.sound.known, h.sound.closed, h.sound.component, h.sound.order, ?_, ?_,
    h.sound.linked, ?_⟩, h.met, h.mono, h.low_le, h.reaches, ⟨v :: new, hstack, ?_⟩⟩
  · exact fun w hw => h.sound.onStack w (List.mem_cons_of_mem v hw)
  · intro x hx hactive w hw
    by_cases hxv : x = v
    · exact (h.gone w (hxv ▸ hw)).1
    · refine h.sound.explored x hx ?_ w hw
      rw [List.mem_cons, not_or]
      exact ⟨hxv, hactive⟩
  · intro x hx
    obtain ⟨u, hu, hxu⟩ := h.sound.returns x hx
    rcases List.mem_cons.1 hu with rfl | hu
    · obtain ⟨y, hy, huy⟩ := h.reaches hlt
      obtain ⟨a, ha, hya⟩ := henter.sound.returns y (List.mem_of_getElem? hy)
      exact ⟨a, ha, (hxu.trans huy).trans hya⟩
    · exact ⟨u, hu, hxu⟩
  · intro x hx w hw hws
    rcases List.mem_cons.1 hx with rfl | hx
    · exact (h.gone w hw).2 hws
    · exact hlow x hx w hw hws

/-- Nothing that was added to the stack leads further down: an edge stays in
it, or goes to a component. -/
theorem edge_of_added (h : Ongoing nodes next active s v (next v) s.stack.length s')
    (henter : Enters nodes next active s v) :
    ∃ new, s'.stack = s.stack ++ v :: new ∧
      ∀ x ∈ v :: new, ∀ w ∈ next x, w ∈ v :: new ∨ w ∈ s'.found.flatten := by
  obtain ⟨new, hstack, hlow⟩ := h.added
  have hn : (s.stack ++ v :: new).Nodup := hstack ▸ (List.nodup_append.1 h.sound.nodup).1
  have hmet : ∀ x ∈ v :: new, ∀ w ∈ next x, s'.Met w ∧ w ∉ s.stack := by
    intro x hx w hw
    rcases List.mem_cons.1 hx with rfl | hx
    · obtain ⟨hmet, hle⟩ := h.gone w hw
      exact ⟨hmet, fun hws => absurd (hle hws) (Nat.not_le.2 (List.idxOf_lt_length_of_mem hws))⟩
    · refine ⟨h.sound.explored x ?_ ?_ w hw, ?_⟩
      · rw [hstack]
        exact List.mem_append_right _ (List.mem_cons_of_mem v hx)
      · -- What was added is not active: all active nodes were on the stack before.
        rw [List.mem_cons, not_or]
        refine ⟨fun hxv => ?_, fun hactive => ?_⟩
        · exact (List.nodup_cons.1 (List.nodup_append.1 hn).2.1).1 (hxv ▸ hx)
        · exact (List.nodup_append.1 hn).2.2 x (henter.sound.onStack x hactive) x
            (List.mem_cons_of_mem v hx) rfl
      · exact fun hws => absurd (hlow x hx w hw hws) (Nat.not_le.2 (List.idxOf_lt_length_of_mem hws))
  refine ⟨new, hstack, fun x hx w hw => ?_⟩
  obtain ⟨hon | hf, hws⟩ := hmet x hx w hw
  · rw [hstack, List.mem_append] at hon
    exact .inl (hon.resolve_left hws)
  · exact .inr hf

/-- Then what was added is one component. -/
theorem added_component (h : Ongoing nodes next active s v (next v) low s')
    (henter : Enters nodes next active s v) (hstack : s'.stack = s.stack ++ v :: new)
    (hedge : ∀ x ∈ v :: new, ∀ w ∈ next x, w ∈ v :: new ∨ w ∈ s'.found.flatten) {x : α}
    (hx : x ∈ v :: new) (w : α) : w ∈ v :: new ↔ Mutual next x w := by
  have hon : ∀ y ∈ v :: new, y ∈ s'.stack := fun y hy => hstack ▸ List.mem_append_right _ hy
  have hclosed : ∀ y ∈ v :: new ++ s'.found.flatten, ∀ z ∈ next y, z ∈ v :: new ++ s'.found.flatten := by
    intro y hy z hz
    rw [List.mem_append]
    rcases List.mem_append.1 hy with hy | hy
    · exact hedge y hy z hz
    · exact .inr (h.sound.closed y hy z hz)
  have hfrom : ∀ y ∈ v :: new, Reach next v y := by
    intro y hy
    rcases List.mem_cons.1 hy with rfl | hy
    · exact .refl
    · have hlinked := (List.pairwise_append.1 (hstack ▸ h.sound.linked)).2.1
      exact (List.pairwise_cons.1 hlinked).1 y hy
  have hto : ∀ y ∈ v :: new, Reach next y v := by
    intro y hy
    obtain ⟨u, hu, hyu⟩ := h.sound.returns y (hon y hy)
    rcases List.mem_cons.1 hu with rfl | hu
    · exact hyu
    · -- No way leads back to a node that was active before.
      have hus := henter.sound.onStack u hu
      have hn : (s.stack ++ (v :: new ++ s'.found.flatten)).Nodup := by
        rw [← List.append_assoc, ← hstack]
        exact h.sound.nodup
      have hu' := hyu.mem_of_closed hclosed (List.mem_append_left _ hy)
      exact absurd rfl ((List.nodup_append.1 hn).2.2 u hus u hu')
  constructor
  · exact fun hw => ⟨(hto x hx).trans (hfrom w hw), (hto w hw).trans (hfrom x hx)⟩
  · rintro ⟨hxw, hwx⟩
    -- A component found before cannot lead back.
    refine (List.mem_append.1 (hxw.mem_of_closed hclosed (List.mem_append_left _ hx))).resolve_right ?_
    exact fun hw => h.sound.not_found (hon x hx) (hwx.mem_of_closed h.sound.closed hw)

/-- **The visit ends with a component.** -/
theorem close (h : Ongoing nodes next active s v (next v) s.stack.length s')
    (henter : Enters nodes next active s v) :
    Visited nodes next active s v s.stack.length (s'.close s.stack.length) := by
  obtain ⟨new, hstack, hedge⟩ := h.edge_of_added henter
  have hmet : ∀ {w}, (s'.close s.stack.length).Met w ↔ s'.Met w := Search.close_met hstack
  have hmono : ∀ w, s.Met w → (s'.close s.stack.length).Met w := fun w hw => hmet.2 (h.mono w hw)
  have hflat : (s'.close s.stack.length).found.flatten = s'.found.flatten ++ v :: new := by
    rw [Search.close_found hstack, List.flatten_append, List.flatten_singleton]
  refine ⟨⟨?_, ?_, ?_, ?_, ?_, ?_, ?_, ?_, ?_⟩, hmet.2 h.met, hmono, le_rfl,
    fun hlt => absurd hlt (lt_irrefl _), ⟨[], by rw [Search.close_stack hstack, List.append_nil], by simp⟩⟩
  · rw [Search.close_stack hstack, hflat]
    have hn := h.sound.nodup
    rw [hstack, List.append_assoc] at hn
    exact (List.perm_append_comm.append_left _).nodup_iff.1 hn
  · exact fun w hw => h.sound.known w (hmet.1 hw)
  · rw [hflat]
    intro x hx w hw
    rw [List.mem_append]
    rcases List.mem_append.1 hx with hx | hx
    · exact .inl (h.sound.closed x hx w hw)
    · exact (hedge x hx w hw).symm
  · rw [Search.close_found hstack, List.forall_mem_append, List.forall_mem_singleton]
    refine ⟨h.sound.component, List.cons_ne_nil _ _, ?_⟩
    exact fun x hx w => h.added_component henter hstack hedge hx w
  · rw [Search.close_found hstack, List.pairwise_append]
    refine ⟨h.sound.order, List.pairwise_singleton .., ?_⟩
    intro c hc d hd x hx w hw hedge'
    rw [List.mem_singleton.1 hd] at hw
    refine h.sound.not_found (hstack ▸ List.mem_append_right _ hw) ?_
    exact h.sound.closed x (List.mem_flatten.2 ⟨c, hc, hx⟩) w hedge'
  · rw [Search.close_stack hstack]
    exact henter.sound.onStack
  · rw [Search.close_stack hstack]
    exact fun x hx hactive w hw => hmono w (henter.sound.explored x hx hactive w hw)
  · rw [Search.close_stack hstack]
    exact henter.sound.linked
  · rw [Search.close_stack hstack]
    exact henter.sound.returns

end Ongoing

/-! ## The recursion -/

section

variable (hnodes : ∀ v ∈ nodes, ∀ w ∈ next v, w ∈ nodes)
include hnodes

/-- What the edges of a node do, if each visit on the way does as it should. -/
theorem Ongoing.foldl (hvisit : ∀ {active s v}, s.Room nodes fuel → Enters nodes next active s v →
      Visited nodes next active s v (visit next fuel s v).1 (visit next fuel s v).2)
    (henter : Enters nodes next active s v) (hroom : s.Room nodes (fuel + 1)) :
    ∀ {rest past : List α} {low : Nat} {s' : Search α}, next v = past ++ rest →
      Ongoing nodes next active s v past low s' →
      Ongoing nodes next active s v (next v) (rest.foldl (follow (visit next fuel)) (low, s')).1
        (rest.foldl (follow (visit next fuel)) (low, s')).2
  | [], past, low, s', hrest, h => by
    rw [hrest, List.append_nil]
    exact h
  | w :: rest, past, low, s', hrest, h => by
    have hw : w ∈ next v := hrest ▸ List.mem_append_right _ List.mem_cons_self
    have hrest' : next v = (past ++ [w]) ++ rest := by
      rw [hrest, List.append_assoc, List.singleton_append]
    rw [List.foldl_cons, follow]
    split_ifs with hon hf
    · exact Ongoing.foldl hvisit henter hroom hrest' (h.meet hw hon)
    · exact Ongoing.foldl hvisit henter hroom hrest' (h.pass hf)
    · have hnew : ¬ s'.Met w := not_or.2 ⟨hon, hf⟩
      have hroom' := hroom.meet henter.mem henter.fresh h.mono h.met
      have henter' := h.enters henter (hnodes v henter.mem w hw) hw hnew
      exact Ongoing.foldl hvisit henter hroom hrest' (h.descend hw hnew (hvisit hroom' henter'))

/-- **A visit keeps the invariant**, when there is fuel for the nodes still to
be met. -/
theorem visit_visited : ∀ (fuel : Nat) {active : List α} {s : Search α} {v : α}, s.Room nodes fuel →
    Enters nodes next active s v →
    Visited nodes next active s v (visit next fuel s v).1 (visit next fuel s v).2
  | 0, active, s, v, ⟨rest, hlen, hrest⟩, henter => by
    -- Without fuel nothing is left to be met.
    have hv := (hrest v henter.mem).resolve_left henter.fresh
    rw [List.eq_nil_of_length_eq_zero (Nat.le_zero.1 hlen)] at hv
    cases hv
  | fuel + 1, active, s, v, hroom, henter => by
    have h := Ongoing.foldl hnodes (visit_visited fuel) henter hroom rfl (.start henter)
    simp only [visit]
    split_ifs with hlt
    · exact h.leave henter hlt
    · have hlow := le_antisymm h.low_le (Nat.not_lt.1 hlt)
      rw [hlow] at h
      exact h.close henter

/-- A search from a node keeps what has been met, and meets the node. -/
theorem search_sound (hs : Sound nodes next [] s) (hroom : s.Room nodes fuel) (hv : v ∈ nodes) :
    Sound nodes next [] (search next fuel s v) ∧ (search next fuel s v).Met v ∧
      ∀ w, s.Met w → (search next fuel s v).Met w := by
  rw [search, follow]
  split_ifs with hon hf
  · exact ⟨hs, .inl hon, fun w hw => hw⟩
  · exact ⟨hs, .inr hf, fun w hw => hw⟩
  · have h := visit_visited hnodes fuel hroom ⟨hs, not_or.2 ⟨hon, hf⟩, hv, by simp⟩
    exact ⟨h.sound, h.met, h.mono⟩

theorem searches_sound : ∀ {vs : List α} {s : Search α}, (∀ v ∈ vs, v ∈ nodes) → Sound nodes next [] s →
    Sound nodes next [] (vs.foldl (search next nodes.length) s) ∧
      ∀ w, s.Met w ∨ w ∈ vs → (vs.foldl (search next nodes.length) s).Met w
  | [], s, _, hs => ⟨hs, by simp⟩
  | v :: vs, s, hvs, hs => by
    have hroom : s.Room nodes nodes.length := ⟨nodes, le_rfl, fun w hw => .inr hw⟩
    obtain ⟨hs', hv, hmono⟩ := search_sound hnodes hs hroom (hvs v List.mem_cons_self)
    obtain ⟨hend, hmet⟩ := searches_sound (fun w hw => hvs w (List.mem_cons_of_mem v hw)) hs'
    refine ⟨hend, fun w hw => hmet w ?_⟩
    rcases hw with hw | hw
    · exact .inl (hmono w hw)
    · rcases List.mem_cons.1 hw with rfl | hw
      · exact .inl hv
      · exact .inr hw

end

/-- These lists are the components of a graph, and no edge leads to a later
one. -/
structure AreComponents (nodes : List α) (next : α → List α) (cs : List (List α)) : Prop where
  nodup : cs.flatten.Nodup
  mem_iff : ∀ v, v ∈ cs.flatten ↔ v ∈ nodes
  component : ∀ c ∈ cs, c ≠ [] ∧ ∀ v ∈ c, ∀ w, w ∈ c ↔ Mutual next v w
  order : cs.Pairwise fun c d => ∀ v ∈ c, ∀ w ∈ d, w ∉ next v

/-- **The search finds the components**, those that edges lead to first. -/
theorem components_spec (hnodes : ∀ v ∈ nodes, ∀ w ∈ next v, w ∈ nodes) :
    AreComponents nodes next (components nodes next) := by
  obtain ⟨hs, hmet⟩ := searches_sound hnodes (fun v hv => hv) (Sound.start nodes next)
  have hstack := hs.stack_eq_nil
  refine ⟨(List.nodup_append.1 hs.nodup).2.1, fun v => ⟨?_, ?_⟩, hs.component, hs.order⟩
  · exact fun hv => hs.known v (.inr hv)
  · intro hv
    rcases hmet v (.inr hv) with hon | hf
    · rw [hstack] at hon
      cases hon
    · exact hf

end Bundler.Graph
