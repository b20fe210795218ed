/-
Breadth first search with a queue that holds no node twice: a node is marked
when it is put there, and what it leads to is looked at when it is taken out.
What is listed is what edges lead to, each node once (`mem_breadthFirst`,
`breadthFirst_nodup`), as long as the limit leaves room for all of it
(`Searching`).
-/
import Mathlib.Data.Finset.Card
import Bundler.Proofs.TarjanSteps

namespace Bundler.Graph

variable {α : Type} [DecidableEq α]

/-! ## Marking -/

/-- The nodes of a list that are not marked, each where it comes first: what is
put into a queue when they are marked one after another. -/
def fresh (marked : List α) : List α → List α
  | [] => []
  | v :: vs => if v ∈ marked then fresh marked vs else v :: fresh (marked ++ [v]) vs

variable {marked marked' vs : List α} {v w : α}

theorem mem_fresh : v ∈ fresh marked vs ↔ v ∈ vs ∧ v ∉ marked := by
  fun_induction fresh marked vs with
  | case1 marked => simp
  | case2 marked u vs hu ih =>
    rw [ih, List.mem_cons]
    constructor
    · exact fun h => ⟨.inr h.1, h.2⟩
    · rintro ⟨rfl | hv, hmarked⟩
      · exact absurd hu hmarked
      · exact ⟨hv, hmarked⟩
  | case3 marked u vs hu ih =>
    simp only [List.mem_cons, ih, List.mem_append, List.not_mem_nil, or_false, not_or]
    constructor
    · rintro (rfl | ⟨hv, hmarked, -⟩)
      · exact ⟨.inl rfl, hu⟩
      · exact ⟨.inr hv, hmarked⟩
    · rintro ⟨rfl | hv, hmarked⟩
      · exact .inl rfl
      · by_cases he : v = u
        · exact .inl he
        · exact .inr ⟨hv, hmarked, he⟩

theorem fresh_nodup : (fresh marked vs).Nodup := by
  fun_induction fresh marked vs with
  | case1 marked => exact List.nodup_nil
  | case2 marked u vs hu ih => exact ih
  | case3 marked u vs hu ih =>
    refine List.nodup_cons.2 ⟨fun h => (mem_fresh.1 h).2 ?_, ih⟩
    exact List.mem_append_right _ (List.mem_singleton_self u)

/-- It does not matter in which order nodes were marked. -/
theorem fresh_congr (h : ∀ v, v ∈ marked ↔ v ∈ marked') : fresh marked vs = fresh marked' vs := by
  induction vs generalizing marked marked' with
  | nil => rfl
  | cons v vs ih =>
    have hnext : ∀ u, u ∈ marked ++ [v] ↔ u ∈ marked' ++ [v] := fun u => by
      rw [List.mem_append, List.mem_append, h]
    simp only [fresh, h, ih h, ih hnext]

theorem fresh_append (vs ws : List α) :
    fresh marked (vs ++ ws) = fresh marked vs ++ fresh (marked ++ fresh marked vs) ws := by
  fun_induction fresh marked vs with
  | case1 marked => simp
  | case2 marked u vs hu ih => rw [List.cons_append, fresh, if_pos hu, ih]
  | case3 marked u vs hu ih =>
    rw [List.cons_append, fresh, if_neg hu, ih, List.cons_append, List.append_assoc, List.singleton_append]

/-- Nodes that are marked can as well be left out before. -/
theorem fresh_filter (h : ∀ v ∈ marked', v ∈ marked) :
    fresh marked (vs.filter fun v => v ∉ marked') = fresh marked vs := by
  induction vs generalizing marked with
  | nil => rfl
  | cons v vs ih =>
    by_cases hv : v ∈ marked'
    · rw [List.filter_cons_of_neg (by simpa using hv), ih h, fresh, if_pos (h v hv)]
    · rw [List.filter_cons_of_pos (by simpa using hv), fresh, fresh, ih h,
        ih fun u hu => List.mem_append_left _ (h u hu)]

/-! ## Searching -/

variable {next : α → List α}

/-- Goes on with a search that has marked some nodes, and has some in its queue,
each with the node it was found from. It takes no more nodes from the queue than
the limit allows. -/
def breadthFirst (next : α → List α) : Nat → List α → List (α × Option α) → List (α × Option α)
  | _, _, [] => []
  | 0, _, _ :: _ => []
  | limit + 1, marked, (v, parent) :: queue =>
    let found := fresh marked (next v)
    (v, parent) :: breadthFirst next limit (marked ++ found) (queue ++ found.map fun w => (w, some v))

variable {nodes : Finset α} {limit : Nat} {queue : List (α × Option α)} {parent : Option α}

@[simp] theorem breadthFirst_nil : breadthFirst next limit marked [] = [] := by
  cases limit <;> rfl

/-- A search that can take all nodes of a graph from its queue. -/
structure Searching (nodes : Finset α) (next : α → List α) (limit : Nat) (marked : List α)
    (queue : List (α × Option α)) : Prop where
  closed : ∀ v ∈ nodes, ∀ w ∈ next v, w ∈ nodes
  nodup : marked.Nodup
  mem_nodes : ∀ v ∈ marked, v ∈ nodes
  queued : ∀ x ∈ queue, x.1 ∈ marked
  once : (queue.map (·.1)).Nodup
  room : nodes.card + queue.length ≤ limit + marked.length

namespace Searching

omit [DecidableEq α] in
theorem start (hclosed : ∀ v ∈ nodes, ∀ w ∈ next v, w ∈ nodes) (hv : v ∈ nodes) (hlimit : nodes.card ≤ limit) :
    Searching nodes next limit [v] [(v, none)] where
  closed := hclosed
  nodup := List.nodup_singleton v
  mem_nodes w hw := List.mem_singleton.1 hw ▸ hv
  queued x hx := by rw [List.mem_singleton.1 hx]; exact List.mem_singleton_self v
  once := List.nodup_singleton v
  room := by simpa using hlimit

theorem limit_pos {x : α × Option α} (h : Searching nodes next limit marked (x :: queue)) : limit ≠ 0 := by
  have hcard : marked.length ≤ nodes.card := by
    rw [← List.toFinset_card_of_nodup h.nodup]
    exact Finset.card_le_card fun v hv => h.mem_nodes v (List.mem_toFinset.1 hv)
  have hroom := h.room
  rw [List.length_cons] at hroom
  omega

theorem step (h : Searching nodes next (limit + 1) marked ((v, parent) :: queue)) :
    Searching nodes next limit (marked ++ fresh marked (next v))
      (queue ++ (fresh marked (next v)).map fun w => (w, some v)) where
  closed := h.closed
  nodup := List.nodup_append.2 ⟨h.nodup, fresh_nodup, fun _ hu _ hw he => (mem_fresh.1 hw).2 (he ▸ hu)⟩
  mem_nodes w hw := by
    rcases List.mem_append.1 hw with hw | hw
    · exact h.mem_nodes w hw
    · exact h.closed v (h.mem_nodes v (h.queued _ List.mem_cons_self)) w (mem_fresh.1 hw).1
  queued x hx := by
    rcases List.mem_append.1 hx with hx | hx
    · exact List.mem_append_left _ (h.queued x (List.mem_cons_of_mem _ hx))
    · obtain ⟨w, hw, rfl⟩ := List.mem_map.1 hx
      exact List.mem_append_right _ hw
  once := by
    have hnames : (queue ++ (fresh marked (next v)).map fun w => (w, some v)).map (·.1) =
        queue.map (·.1) ++ fresh marked (next v) := by
      simp [Function.comp_def]
    rw [hnames]
    refine List.nodup_append.2 ⟨(List.nodup_cons.1 h.once).2, fresh_nodup, fun _ hu _ hw he => ?_⟩
    obtain ⟨x, hx, rfl⟩ := List.mem_map.1 hu
    exact (mem_fresh.1 hw).2 (he ▸ h.queued x (List.mem_cons_of_mem _ hx))
  room := by
    have hroom := h.room
    simp only [List.length_cons, List.length_append, List.length_map] at hroom ⊢
    omega

/-- A search goes on until its queue is empty. -/
@[elab_as_elim]
theorem traversal {motive : Nat → List α → List (α × Option α) → Prop}
    (done : ∀ limit marked, motive limit marked [])
    (visit : ∀ limit marked v parent queue,
      Searching nodes next (limit + 1) marked ((v, parent) :: queue) →
      motive limit (marked ++ fresh marked (next v))
        (queue ++ (fresh marked (next v)).map fun w => (w, some v)) →
      motive (limit + 1) marked ((v, parent) :: queue)) :
    ∀ {limit marked queue}, Searching nodes next limit marked queue → motive limit marked queue := by
  intro limit
  induction limit with
  | zero =>
    intro marked queue h
    cases queue with
    | nil => exact done 0 marked
    | cons x queue => exact absurd rfl h.limit_pos
  | succ limit ih =>
    intro marked queue h
    obtain _ | ⟨⟨v, parent⟩, queue⟩ := queue
    · exact done (limit + 1) marked
    · exact visit limit marked v parent queue h (ih h.step)

/-- A node was in the queue, or is found from one that comes before. -/
theorem found_from (h : Searching nodes next limit marked queue) :
    ∀ before x after, breadthFirst next limit marked queue = before ++ x :: after →
      x ∈ queue ∨ x.1 ∉ marked ∧ ∃ u ∈ before.map (·.1), x.2 = some u ∧ x.1 ∈ next u := by
  refine h.traversal ?_ ?_
  · intro limit marked before x after hsplit
    simp at hsplit
  · intro limit marked v parent queue _ ih before x after hsplit
    rw [breadthFirst] at hsplit
    cases before with
    | nil =>
      obtain ⟨rfl, -⟩ := List.cons_eq_cons.1 hsplit
      exact .inl List.mem_cons_self
    | cons y before =>
      obtain ⟨rfl, hrest⟩ := List.cons_eq_cons.1 hsplit
      rcases ih before x after hrest with hqueue | ⟨hmarked, u, hu, hparent⟩
      · rcases List.mem_append.1 hqueue with hqueue | hnew
        · exact .inl (List.mem_cons_of_mem _ hqueue)
        · obtain ⟨w, hw, rfl⟩ := List.mem_map.1 hnew
          obtain ⟨hnext, hmarked⟩ := mem_fresh.1 hw
          exact .inr ⟨hmarked, v, List.mem_cons_self, rfl, hnext⟩
      · exact .inr ⟨fun hm => hmarked (List.mem_append_left _ hm), u, List.mem_cons_of_mem _ hu, hparent⟩

/-- All that is in the queue is listed. -/
theorem queue_subset (h : Searching nodes next limit marked queue) :
    ∀ x ∈ queue, x ∈ breadthFirst next limit marked queue := by
  refine h.traversal ?_ ?_
  · exact fun _ _ x hx => absurd hx List.not_mem_nil
  · intro limit marked v parent queue _ ih x hx
    rw [breadthFirst]
    rcases List.mem_cons.1 hx with rfl | hx
    · exact List.mem_cons_self
    · exact List.mem_cons_of_mem _ (ih x (List.mem_append_left _ hx))

/-- No node is listed twice. -/
theorem nodes_nodup (h : Searching nodes next limit marked queue) :
    ((breadthFirst next limit marked queue).map (·.1)).Nodup := by
  refine h.traversal ?_ ?_
  · exact fun _ _ => by simp
  · intro limit marked v parent queue h ih
    rw [breadthFirst, List.map_cons]
    refine List.nodup_cons.2 ⟨fun hv => ?_, ih⟩
    obtain ⟨⟨u, origin⟩, hu, rfl : u = v⟩ := List.mem_map.1 hv
    have hmarked : u ∈ marked := h.queued (u, parent) List.mem_cons_self
    obtain ⟨before, after, hsplit⟩ := List.append_of_mem hu
    rcases h.step.found_from before _ after hsplit with hqueue | ⟨hnot, -⟩
    · rcases List.mem_append.1 hqueue with hqueue | hnew
      · exact (List.nodup_cons.1 h.once).1 (List.mem_map.2 ⟨_, hqueue, rfl⟩)
      · obtain ⟨w, hw, he⟩ := List.mem_map.1 hnew
        obtain rfl : w = u := congrArg Prod.fst he
        exact (mem_fresh.1 hw).2 hmarked
    · exact hnot (List.mem_append_left _ hmarked)

/-- Edges lead from the queue to what is listed. -/
theorem reach (h : Searching nodes next limit marked queue) :
    ∀ w ∈ (breadthFirst next limit marked queue).map (·.1), ∃ v ∈ queue.map (·.1), Reach next v w := by
  refine h.traversal ?_ ?_
  · exact fun _ _ w hw => by simp at hw
  · intro limit marked v parent queue _ ih w hw
    rw [breadthFirst, List.map_cons] at hw
    rcases List.mem_cons.1 hw with rfl | hw
    · exact ⟨w, List.mem_cons_self, .refl⟩
    · obtain ⟨u, hu, huw⟩ := ih w hw
      rw [List.map_append, List.mem_append] at hu
      rcases hu with hu | hu
      · exact ⟨u, List.mem_cons_of_mem _ hu, huw⟩
      · simp only [List.map_map, Function.comp_def, List.map_id'] at hu
        exact ⟨v, List.mem_cons_self, .head (mem_fresh.1 hu).1 huw⟩

/-- What is listed leads to nothing else but to what was marked before. -/
theorem edges (h : Searching nodes next limit marked queue) :
    ∀ v ∈ (breadthFirst next limit marked queue).map (·.1), ∀ w ∈ next v,
      w ∈ marked ∨ w ∈ (breadthFirst next limit marked queue).map (·.1) := by
  refine h.traversal ?_ ?_
  · exact fun _ _ v hv => by simp at hv
  · intro limit marked v parent queue h ih u hu w hw
    rw [breadthFirst, List.map_cons] at hu ⊢
    have hfound : ∀ w ∈ fresh marked (next v), w ∈ (breadthFirst next limit (marked ++ fresh marked (next v))
        (queue ++ (fresh marked (next v)).map fun w => (w, some v))).map (·.1) := fun w hw =>
      List.mem_map.2 ⟨(w, some v),
        h.step.queue_subset _ (List.mem_append_right _ (List.mem_map.2 ⟨w, hw, rfl⟩)), rfl⟩
    rcases List.mem_cons.1 hu with rfl | hu
    · by_cases hmarked : w ∈ marked
      · exact .inl hmarked
      · exact .inr (List.mem_cons_of_mem _ (hfound w (mem_fresh.2 ⟨hw, hmarked⟩)))
    · rcases ih u hu w hw with hmarked | hlisted
      · rcases List.mem_append.1 hmarked with hmarked | hnew
        · exact .inl hmarked
        · exact .inr (List.mem_cons_of_mem _ (hfound w hnew))
      · exact .inr (List.mem_cons_of_mem _ hlisted)

end Searching

/-! ## A search from a node -/

/-- **A search lists what edges lead to from its start.** -/
theorem mem_breadthFirst (h : Searching nodes next limit [v] [(v, none)]) :
    w ∈ (breadthFirst next limit [v] [(v, none)]).map (·.1) ↔ Reach next v w := by
  have hstart : v ∈ (breadthFirst next limit [v] [(v, none)]).map (·.1) :=
    List.mem_map.2 ⟨(v, none), h.queue_subset _ (List.mem_singleton_self _), rfl⟩
  constructor
  · intro hw
    obtain ⟨u, hu, huw⟩ := h.reach w hw
    obtain rfl : u = v := List.mem_singleton.1 hu
    exact huw
  · intro hreach
    refine hreach.mem_of_closed (fun u hu x hx => ?_) hstart
    rcases h.edges u hu x hx with hmarked | hlisted
    · exact List.mem_singleton.1 hmarked ▸ hstart
    · exact hlisted

/-- A node other than the start is found from one that comes before. -/
theorem breadthFirst_parent (h : Searching nodes next limit [v] [(v, none)]) {before after : List (α × Option α)}
    (hsplit : breadthFirst next limit [v] [(v, none)] = before ++ (w, parent) :: after) :
    (w = v ∧ parent = none) ∨ w ≠ v ∧ ∃ u ∈ before.map (·.1), parent = some u ∧ w ∈ next u := by
  rcases h.found_from before _ after hsplit with hstart | ⟨hmarked, hfound⟩
  · obtain ⟨rfl, rfl⟩ := Prod.mk.inj (List.mem_singleton.1 hstart)
    exact .inl ⟨rfl, rfl⟩
  · exact .inr ⟨fun he => hmarked (he ▸ List.mem_singleton_self v), hfound⟩

end Bundler.Graph
