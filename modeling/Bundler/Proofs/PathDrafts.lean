/-
Normalization as it goes along: a path is written component by component, with a
count of the names at its end. `..` takes the last of them back, and is written
where there is none (`Draft.add`). The path and the count stay in step with what
has been read (`Draft.Follows`), so the plain form is what has been written in
the end (`normalize_eq_draft`).
-/
import Bundler.Proofs.PlainForm

namespace Bundler.Path

/-! ## Drafts -/

/-- A path as it is written, and how many names at its end can be taken back. -/
structure Draft where
  path : Path := ⟨[]⟩
  depth : Nat := 0

/-- Writes one component more, or takes the last name back. -/
def Draft.add (w : Draft) : Component → Draft
  | .root => { w with path := w.path.join ⟨[slash]⟩ }
  | .current => w
  | .name s => ⟨w.path.join ⟨s⟩, w.depth + 1⟩
  | .parent =>
    if 0 < w.depth then ⟨w.path.parent?.getD w.path, w.depth - 1⟩
    else if w.path.isAbsolute then w
    else { w with path := w.path.join ⟨[dot, dot]⟩ }

/-- The path that the components of another one write. -/
def draft (p : Path) : Path := (p.components.foldl Draft.add {}).path

/-- What is written with some segments so far. -/
def written (isAbsolute : Bool) (segments : List Segment) : Path :=
  if isAbsolute then ofPlace segments else ⟨joinSlashes segments⟩

/-- A draft and the descent that it goes. -/
structure Draft.Follows (w : Draft) (d : Descent) : Prop where
  path : w.path = written d.isAbsolute d.segments
  depth : w.depth = d.names.length

theorem joinSlashes_concat (s : Segment) : ∀ {segments : List Segment}, segments ≠ [] →
    joinSlashes (segments ++ [s]) = joinSlashes segments ++ slash :: s
  | [_], _ => rfl
  | t :: u :: ss, _ => by
    have ih := joinSlashes_concat s (List.cons_ne_nil u ss)
    rw [List.cons_append, joinSlashes_cons (by simp), ih, joinSlashes_cons (List.cons_ne_nil u ss),
      List.append_assoc, List.cons_append]

/-- What ends with a segment does not end with a slash. -/
theorem getLast?_joinSlashes : ∀ {segments : List Segment}, (∀ s ∈ segments, IsWritten s) →
    (joinSlashes segments).getLast? ≠ some slash
  | [], _ => by simp [joinSlashes]
  | [s], h => fun he => (h s List.mem_cons_self).2 (List.mem_of_getLast? he)
  | s :: t :: ss, h => by
    have hrest : ∀ u ∈ t :: ss, IsWritten u := fun u hu => h u (List.mem_cons_of_mem s hu)
    rw [joinSlashes_cons (List.cons_ne_nil t ss), List.getLast?_append_cons,
      List.getLast?_cons_of_ne_nil (joinSlashes_ne_nil (List.cons_ne_nil t ss) hrest)]
    exact getLast?_joinSlashes hrest

/-- A segment is written behind others. -/
theorem join_written {segments : List Segment} (h : ∀ s ∈ segments, IsWritten s) {s : Segment}
    (hs : IsWritten s) (isAbsolute : Bool) :
    (written isAbsolute segments).join ⟨s⟩ = written isAbsolute (segments ++ [s]) := by
  have hrel : Path.isAbsolute (written false [s]) = false :=
    isAbsolute_joinSlashes fun t ht => List.mem_singleton.1 ht ▸ hs
  change Path.isAbsolute ⟨s⟩ = false at hrel
  by_cases hne : segments = []
  · subst hne
    cases isAbsolute <;> simp [join, hrel, written, ofPlace, joinSlashes]
  · have hnil := joinSlashes_ne_nil hne h
    have hlast := getLast?_joinSlashes h
    cases isAbsolute with
    | true =>
      simp [join, hrel, written, ofPlace, List.getLast?_cons_of_ne_nil hnil, hlast,
        joinSlashes_concat s hne]
    | false => simp [join, hrel, written, hnil, hlast, joinSlashes_concat s hne]

theorem Descent.Valid.isSkipped_eq_false {d : Descent} (h : d.Valid) : ∀ s ∈ d.segments, isSkipped s = false := by
  intro s hs
  rcases List.mem_append.1 hs with hs | hs
  · rw [List.eq_of_mem_replicate hs]
    rfl
  · exact (h.names s (List.mem_reverse.1 hs)).isSkipped_eq_false

/-- The last segment is taken back. -/
theorem parent?_written {front : List Segment} {s : Segment} (hwritten : ∀ t ∈ front ++ [s], IsWritten t)
    (hskipped : ∀ t ∈ front ++ [s], isSkipped t = false) (isAbsolute : Bool) :
    (written isAbsolute (front ++ [s])).parent? = some (written isAbsolute front) := by
  have hne : front ++ [s] ≠ [] := by simp
  have hsplit := splitSlashes_joinSlashes hne fun t ht => (hwritten t ht).2
  have hfront := trimSegments_of_not_skipped fun t ht => hskipped t (List.mem_append_left _ ht)
  have habs : Path.isAbsolute ⟨slash :: joinSlashes (front ++ [s])⟩ = true := rfl
  cases isAbsolute with
  | true =>
    simp only [written, if_true, ofPlace, parent?, habs, List.tail_cons, hsplit,
      trimSegments_of_not_skipped hskipped, List.dropLast_concat, hfront]
  | false =>
    simp only [written, Bool.false_eq_true, if_false, parent?, isAbsolute_joinSlashes hwritten, hsplit,
      trimSegments_of_not_skipped hskipped, List.dropLast_concat, hfront]

theorem written_isAbsolute {segments : List Segment} (h : ∀ s ∈ segments, IsWritten s) (isAbsolute : Bool) :
    (written isAbsolute segments).isAbsolute = isAbsolute := by
  cases isAbsolute with
  | true => rfl
  | false => exact isAbsolute_joinSlashes h

/-- Going up is taking the last name back, if there is one. -/
theorem Draft.Follows.parent {w : Draft} {d : Descent} (h : w.Follows d) (hd : d.Valid) :
    (w.add .parent).Follows (d.step .parent) := by
  cases hn : d.names with
  | nil =>
    have hdepth : w.depth = 0 := by rw [h.depth, hn, List.length_nil]
    have habs : w.path.isAbsolute = d.isAbsolute := by rw [h.path, written_isAbsolute hd.isWritten]
    have hsegments := Descent.segments_parent hn
    cases hda : d.isAbsolute with
    | true =>
      have hstep : d.step .parent = d := by simp [Descent.step, hn, hda]
      have hadd : w.add .parent = w := by simp [Draft.add, hdepth, habs, hda]
      rw [hstep, hadd]
      exact h
    | false =>
      have hstep : (d.step .parent).isAbsolute = false ∧ (d.step .parent).names = [] := by
        simp [Descent.step, hn, hda]
      have hadd : w.add .parent = ⟨w.path.join ⟨[dot, dot]⟩, w.depth⟩ := by
        simp [Draft.add, hdepth, habs, hda]
      rw [hda] at hsegments
      rw [hadd]
      refine ⟨?_, by rw [hstep.2, hdepth, List.length_nil]⟩
      rw [hstep.1, hsegments, h.path, join_written hd.isWritten isWritten_dots, hda]
      simp
  | cons n ns =>
    have hstep : d.step .parent = { d with names := ns } := by simp only [Descent.step, hn]
    have hsegments : d.segments = Descent.segments { d with names := ns } ++ [n] := by
      simp [Descent.segments, hn]
    have hwritten := hd.isWritten
    have hskipped := hd.isSkipped_eq_false
    rw [hsegments] at hwritten hskipped
    have hpos : 0 < w.depth := by rw [h.depth, hn]; exact Nat.succ_pos _
    have hadd : w.add .parent = ⟨w.path.parent?.getD w.path, w.depth - 1⟩ := by simp only [Draft.add, hpos, if_true]
    rw [hstep, hadd, h.path, hsegments, parent?_written hwritten hskipped, h.depth, hn]
    exact ⟨rfl, rfl⟩

/-- A segment more has been written. -/
theorem Draft.Follows.readSegment {w : Draft} {d : Descent} (h : w.Follows d) (hd : d.Valid) {s : Segment}
    (hs : slash ∉ s) : (Path.readSegment Draft.add w s).Follows (d.visit s) := by
  rcases segment_cases hs with hskip | rfl | hname
  · rw [readSegment_skip _ hskip, Descent.visit_skip hskip]
    exact h
  · rw [readSegment_dots, Descent.visit_dots]
    exact h.parent hd
  · rw [readSegment_name _ hname, Descent.visit_name hname]
    refine ⟨?_, congrArg (· + 1) h.depth⟩
    rw [Descent.segments_name, ← join_written hd.isWritten hname.isWritten, ← h.path]
    rfl

theorem foldl_readSegment_follows : ∀ {segments : List Segment} {w : Draft} {d : Descent},
    (∀ s ∈ segments, slash ∉ s) → d.Valid → w.Follows d →
    (segments.foldl (readSegment Draft.add) w).Follows (segments.foldl Descent.visit d)
  | [], _, _, _, _, h => h
  | s :: segments, _, _, hs, hd, h => by
    have hfirst : slash ∉ s := hs s List.mem_cons_self
    have hrest : ∀ t ∈ segments, slash ∉ t := fun t ht => hs t (List.mem_cons_of_mem s ht)
    rw [List.foldl_cons, List.foldl_cons]
    exact foldl_readSegment_follows hrest (hd.visit hfirst) (h.readSegment hd hfirst)

theorem draft_eq (p : Path) : p.draft = written p.isAbsolute p.descent.segments := by
  have hstart : Draft.Follows (if p.isAbsolute then Draft.add {} .root else {}) (.start p.isAbsolute) := by
    cases p.isAbsolute <;> exact ⟨rfl, rfl⟩
  have hslashes : ∀ s ∈ splitSlashes p.bytes, slash ∉ s := fun _ => slash_not_mem_of_mem_splitSlashes
  have hend := foldl_readSegment_follows hslashes (Descent.start_valid p.isAbsolute) hstart
  rw [← descent_eq_foldl] at hend
  rw [draft, foldl_components Draft.add fun _ => rfl, hend.path, descent_isAbsolute]

/-- **The plain form is what the components write**, or a dot if that is nothing:
`..` takes the last name back while there is one. -/
theorem normalize_eq_draft (p : Path) :
    p.normalize = if p.draft.bytes = [] then p.draft.join ⟨[dot]⟩ else p.draft := by
  have hwritten := p.descent_valid.isWritten
  rw [normalize_eq_ofSegments, draft_eq, ofSegments, written]
  cases p.isAbsolute with
  | true => rfl
  | false =>
    by_cases hne : p.descent.segments = []
    · rw [hne]
      rfl
    · simp [hne, joinSlashes_ne_nil hne hwritten]

/-! ## Normalization -/

/-- Paths with the same components have the same plain form. -/
theorem normalize_eq_of_same {p q : Path} (h : p.same q = true) : q.normalize = p.normalize := by
  simp only [same, beq_iff_eq] at h
  simp only [normalize, descent, h]

/-- **Normalization gives the plain form of what a path means**, whatever its
bytes are. The plain form is absolute if the path is. It is written with what is
left of the segments of the path when `..` cancels the nearest name that is left,
and is the same if it is written, and taken back, component by component. The
plain forms are the paths that normalization leaves alone, and equal paths have
one. -/
theorem normalize_canonical (p : Path) :
    p.normalize.isAbsolute = p.isAbsolute ∧
    p.normalize.IsCanonical ∧
    (∃ kept, (∀ kept', Leaves p.isAbsolute (splitSlashes p.bytes) kept' ↔ kept' = kept) ∧
      p.normalize = ofSegments p.isAbsolute kept) ∧
    p.normalize = (if p.draft.bytes = [] then p.draft.join ⟨[dot]⟩ else p.draft) ∧
    p.normalize.normalize = p.normalize ∧
    (p.normalize = p ↔ p.IsCanonical) ∧
    ∀ q, p.same q = true → q.normalize.bytes = p.normalize.bytes := by
  have hcanonical := p.normalize_isCanonical
  refine ⟨p.normalize_isAbsolute, hcanonical, ⟨p.descent.segments, fun _ => p.leaves_iff, p.normalize_eq_ofSegments⟩,
    p.normalize_eq_draft, hcanonical.normalize_eq, normalize_eq_self_iff, ?_⟩
  intro q hsame
  rw [normalize_eq_of_same hsame]

/-- Two spellings of a path that goes up further than it has come down. -/
theorem normalize_canonical_spellings :
    let p : Path := .ofString "a//b/.././../../x/"
    let q : Path := .ofString "a/b/..//../../x/."
    p.same q = true ∧ p.normalize = .ofString "../x" ∧ q.normalize.bytes = p.normalize.bytes := by
  intro p q
  have hsame : p.same q = true := by decide +kernel
  exact ⟨hsame, by decide +kernel, (normalize_canonical p).2.2.2.2.2.2 q hsame⟩

end Bundler.Path
