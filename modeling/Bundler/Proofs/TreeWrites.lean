/-
What a write changes in a tree of files. A path in plain form is followed down
its names, so a directory is made, and a file written, at the place that the
path names (`makeDirectory_ofPlace`, `writeBytes_ofPlace`). A write to a file
makes the directories above it that are missing and puts the file in the last of
them; nothing else is changed, whether it succeeds or not
(`write_cases`).
-/
import Bundler.Proofs.PathPlaces
import Bundler.Proofs.Results

namespace Bundler.FileTree

open Bundler.Path

/-! ## Following plain paths -/

theorem get?_put_self {t : FileTree} {place : Place} (h : place ≠ []) (node : FileNode) :
    (t.put place node).get? place = some node := by
  simp [get?, put, h]

theorem get?_put_other {t : FileTree} {at_ place : Place} (h : place ≠ at_) (node : FileNode) :
    (t.put at_ node).get? place = t.get? place := by
  -- What is dropped at `at_` is not found at `place`.
  have hpred : (fun n : Place × FileNode => decide (decide (n.1 ≠ at_) = true ∧ decide (n.1 = place) = true)) =
      fun n => decide (n.1 = place) := by
    funext n
    by_cases hn : n.1 = place
    · simp [hn, h]
    · simp [hn]
  simp only [get?, put, List.find?_cons, List.find?_filter, hpred, Ne.symm h, decide_false]

/-- Where the names of a plain path are followed from, and which they are. -/
theorem beginning_ofPlace {t : FileTree} {names : Place} (h : ∀ s ∈ names, IsName s) (hne : names ≠ [])
    {start : Place × List Segment} (hb : t.beginning (ofPlace names) = .ok start) :
    start = ([], [] :: names) := by
  simp only [beginning, ofPlace_isAbsolute, if_true, splitSlashes_ofPlace h hne] at hb
  split_ifs at hb
  cases hb
  rfl

theorem splitEnd_names {names : Place} (h : ∀ s ∈ names, IsName s) (hne : names ≠ []) :
    splitEnd ([] :: names) = ([] :: names, false) := by
  obtain ⟨front, last, rfl⟩ := List.eq_nil_or_concat names |>.resolve_left hne
  have hlast : last ≠ [] := (h last (by simp)).1
  simp [splitEnd, hlast]

theorem endsInDots_names {names : Place} (h : ∀ s ∈ names, IsName s) (hne : names ≠ []) :
    endsInDots ([] :: names) = false := by
  obtain ⟨front, last, rfl⟩ := List.eq_nil_or_concat names |>.resolve_left hne
  obtain ⟨-, hdot, hdots, -⟩ := h last (by simp)
  simp [endsInDots, List.getLast?_cons, hdot, hdots]

theorem walk_root {t : FileTree} {names place : Place} (h : ∀ s ∈ names, IsName s)
    (hw : t.walk [] ([] :: names) = .ok place) : place = names := by
  rw [walk_nil_cons] at hw
  exact walk_names h hw

/-! ## Making directories -/

/-- The root is not made. -/
theorem makeDirectory_root (t t' : FileTree) : t.makeDirectory (ofPlace []) ≠ .ok t' := by
  intro h
  cases h

/-- A directory is made where nothing is. -/
theorem makeDirectory_ofPlace {t t' : FileTree} {names : Place} (h : ∀ s ∈ names, IsName s)
    (hm : t.makeDirectory (ofPlace names) = .ok t') :
    names ≠ [] ∧ t.get? names = none ∧ t' = t.put names .directory := by
  by_cases hne : names = []
  · subst hne
    exact absurd hm (makeDirectory_root t t')
  obtain ⟨start, hb, hrest⟩ := bind_eq_ok hm
  obtain rfl := beginning_ofPlace h hne hb
  simp only [splitEnd_names h hne, endsInDots_names h hne, Bool.false_eq_true, if_false] at hrest
  obtain ⟨place, hw, hput⟩ := bind_eq_ok hrest
  obtain rfl := walk_root h hw
  split at hput
  · cases hput
  · next hnone =>
    cases hput
    exact ⟨hne, hnone, rfl⟩

/-- Directories have been made, each where nothing was, on the way down to a
place. -/
def MadeOnWay (way : Place) (t t' : FileTree) : Prop :=
  ∀ place, t'.get? place = t.get? place ∨
    place <+: way ∧ t.get? place = none ∧ t'.get? place = some .directory

namespace MadeOnWay

variable {way : Place} {t t' t'' : FileTree}

theorem refl (way : Place) (t : FileTree) : MadeOnWay way t t := fun _ => .inl rfl

theorem trans (h : MadeOnWay way t t') (h' : MadeOnWay way t' t'') : MadeOnWay way t t'' := by
  intro place
  rcases h' place with hsame | ⟨hway, hnone, hdirectory⟩
  · rw [hsame]
    exact h place
  · rcases h place with hsame | ⟨-, -, hmade⟩
    · exact .inr ⟨hway, hsame ▸ hnone, hdirectory⟩
    · rw [hmade] at hnone
      cases hnone

end MadeOnWay

/-- A path that names a place on the way. -/
def NamesOnWay (way : Place) (p : Path) : Prop := ∃ names, names <+: way ∧ p = ofPlace names

section

variable {way : Place} (hway : ∀ s ∈ way, IsName s)

include hway

theorem makeDirectory_madeOnWay {t t' : FileTree} {p : Path} (hp : NamesOnWay way p)
    (hm : t.makeDirectory p = .ok t') : MadeOnWay way t t' := by
  obtain ⟨names, hnames, rfl⟩ := hp
  obtain ⟨hne, hnone, rfl⟩ := makeDirectory_ofPlace (fun s hs => hway s (hnames.subset hs)) hm
  intro place
  by_cases hplace : place = names
  · subst hplace
    exact .inr ⟨hnames, hnone, get?_put_self hne _⟩
  · exact .inl (get?_put_other hplace _)

theorem ensureDirectory_madeOnWay {t t' : FileTree} {p : Path} (hp : NamesOnWay way p)
    (hm : t.ensureDirectory p = .ok t') : MadeOnWay way t t' := by
  unfold ensureDirectory at hm
  split at hm
  · next hmade =>
    cases hm
    exact makeDirectory_madeOnWay hway hp hmade
  · split at hm
    · cases hm
      exact .refl way t
    · cases hm

/-- The directories made are among those asked for. -/
theorem makeDirectoriesFrom_madeOnWay : ∀ (above : List Path) (t : FileTree) (p : Path),
    NamesOnWay way p → (∀ q ∈ above, NamesOnWay way q) → MadeOnWay way t (t.makeDirectoriesFrom p above).2
  | above, t, p, hp, habove => by
    unfold makeDirectoriesFrom
    split
    · exact .refl way t
    split
    · next hmade => exact ensureDirectory_madeOnWay hway hp hmade
    · next parent above hmissing =>
      have hparents := makeDirectoriesFrom_madeOnWay above t parent (habove parent List.mem_cons_self)
        fun q hq => habove q (List.mem_cons_of_mem parent hq)
      split
      · next hfailed => rwa [hfailed] at hparents
      · next hmade =>
        rw [hmade] at hparents
        split
        · next hlast => exact hparents.trans (ensureDirectory_madeOnWay hway hp hlast)
        · exact hparents
    · exact .refl way t

omit hway in
theorem namesOnWay_parent {p q : Path} (h : ∀ s ∈ way, IsName s) (hp : NamesOnWay way p)
    (hq : p.parent? = some q) : NamesOnWay way q := by
  obtain ⟨names, hnames, rfl⟩ := hp
  by_cases hne : names = []
  · subst hne
    cases hq
  · rw [parent?_ofPlace (fun s hs => h s (hnames.subset hs)) hne] at hq
    cases hq
    exact ⟨names.dropLast, (List.dropLast_prefix names).trans hnames, rfl⟩

theorem pathsAbove_namesOnWay : ∀ (n : Nat) (p : Path), NamesOnWay way p →
    ∀ q ∈ pathsAbove.go n p, NamesOnWay way q
  | 0, _, _, _, hq => absurd hq List.not_mem_nil
  | n + 1, p, hp, q, hq => by
    unfold pathsAbove.go at hq
    split at hq
    · exact absurd hq List.not_mem_nil
    · next parent hparent =>
      have hup := namesOnWay_parent hway hp hparent
      rcases List.mem_cons.1 hq with rfl | hq
      · exact hup
      · exact pathsAbove_namesOnWay n parent hup q hq

/-- The directories that a path needs are made on the way to it. -/
theorem makeDirectories_madeOnWay (t : FileTree) : MadeOnWay way t (t.makeDirectories (ofPlace way)).2 := by
  have hself : NamesOnWay way (ofPlace way) := ⟨way, List.prefix_rfl, rfl⟩
  exact makeDirectoriesFrom_madeOnWay hway _ t _ hself (pathsAbove_namesOnWay hway _ _ hself)

end

/-! ## Writing -/

/-- A file is written at the place that its path names. -/
theorem writeBytes_ofPlace {t t' : FileTree} {names : Place} {contents : List UInt8}
    (h : ∀ s ∈ names, IsName s) (hne : names ≠ [])
    (hm : t.writeBytes (ofPlace names) contents = .ok t') : t' = t.put names (.file contents) := by
  obtain ⟨start, hb, hrest⟩ := bind_eq_ok hm
  obtain rfl := beginning_ofPlace h hne hb
  simp only [splitEnd_names h hne, endsInDots_names h hne, Bool.or_false, Bool.false_eq_true, if_false] at hrest
  obtain ⟨place, hw, hput⟩ := bind_eq_ok hrest
  obtain rfl := walk_root h hw
  split at hput
  · cases hput
  · cases hput
    rfl

/-- **A write makes directories on the way to its file, and then puts the file in
the last of them.** One that fails has put no file. -/
theorem write_cases {directory : Place} {name : Segment} (h : ∀ s ∈ directory ++ [name], IsName s)
    (t : FileTree) (text : String) :
    ∃ made, MadeOnWay directory t made ∧
      ((∃ e, Storage.write t (ofPlace (directory ++ [name])) text = (.error e, made)) ∨
        Storage.write t (ofPlace (directory ++ [name])) text =
          (.ok (), made.put (directory ++ [name]) (.file (Utf8.encode text)))) := by
  have hne : directory ++ [name] ≠ [] := by simp
  have hparent := parent?_ofPlace h hne
  rw [List.dropLast_concat] at hparent
  refine ⟨_, makeDirectories_madeOnWay (fun s hs => h s (List.mem_append_left _ hs)) t, ?_⟩
  simp only [Storage.write, writeText, hparent]
  split
  · next e _ => exact .inl ⟨e, rfl⟩
  · split
    · next hwritten =>
      obtain rfl := writeBytes_ofPlace h hne hwritten
      exact .inr rfl
    · next e _ => exact .inl ⟨e, rfl⟩

end Bundler.FileTree
