/-
What the plain form of a path is. The segments of a path are read from left to
right: `..` cancels the nearest name before it that is left, with all between
them cancelled already (`Cancels`), and where no name is left it is kept, or
dropped at the root (`Leaves`). What is left is one list of segments
(`leaves_iff`), and `Path.normalize` writes it. Plain forms are the paths that
normalization leaves alone (`normalize_eq_self_iff`).
-/
import Bundler.Proofs.PathPlaces

namespace Bundler.Path

/-! ## What is left of segments -/

/-- Segments of which nothing is left. -/
inductive Cancels : List Segment → Prop
  | nil : Cancels []
  | skip {s : Segment} : s = [] ∨ s = [dot] → Cancels [s]
  | pair {name : Segment} {inner : List Segment} : IsName name → Cancels inner →
      Cancels (name :: inner ++ [[dot, dot]])
  | append {xs ys : List Segment} : Cancels xs → Cancels ys → Cancels (xs ++ ys)

/-- What is left of segments that are read from left to right. -/
inductive Leaves (isAbsolute : Bool) : List Segment → List Segment → Prop
  | nil : Leaves isAbsolute [] []
  | name {read kept : List Segment} {name : Segment} : Leaves isAbsolute read kept → IsName name →
      Leaves isAbsolute (read ++ [name]) (kept ++ [name])
  | cancelled {read kept xs : List Segment} : Leaves isAbsolute read kept → Cancels xs →
      Leaves isAbsolute (read ++ xs) kept
  /-- No name is left that `..` could cancel. -/
  | above {read kept : List Segment} : Leaves isAbsolute read kept → (∀ s ∈ kept, ¬ IsName s) →
      Leaves isAbsolute (read ++ [[dot, dot]]) (if isAbsolute then kept else kept ++ [[dot, dot]])

/-- The path that is written with some segments, if any. -/
def ofSegments (isAbsolute : Bool) (segments : List Segment) : Path :=
  if isAbsolute then ⟨slash :: joinSlashes segments⟩
  else if segments.isEmpty then ⟨[dot]⟩
  else ⟨joinSlashes segments⟩

/-- A path in plain form. It goes up in front only, and not at all if it is
absolute. -/
inductive IsCanonical : Path → Prop
  | absolute {p : Path} : p.IsPlain → IsCanonical p
  | current : IsCanonical ⟨[dot]⟩
  | relative {ups : Nat} {names : List Segment} : (∀ s ∈ names, IsName s) →
      List.replicate ups [dot, dot] ++ names ≠ [] →
      IsCanonical ⟨joinSlashes (List.replicate ups [dot, dot] ++ names)⟩

theorem not_isName_dots : ¬ IsName [dot, dot] := fun h => h.2.2.1 rfl

/-- Before a name that is left, something is left that was read before it, and
after it all is cancelled. -/
theorem Leaves.split {isAbsolute : Bool} {read kept : List Segment} (h : Leaves isAbsolute read kept) :
    ∀ {front : List Segment} {name : Segment}, kept = front ++ [name] → IsName name →
      ∃ before inner, read = before ++ name :: inner ∧ Leaves isAbsolute before front ∧ Cancels inner := by
  induction h with
  | nil =>
    intro front name hkept
    simp at hkept
  | @name read kept name' h hname ih =>
    intro front name hkept _
    obtain ⟨rfl, hlast⟩ := List.append_inj' hkept rfl
    obtain rfl := List.singleton_inj.1 hlast
    exact ⟨read, [], rfl, h, .nil⟩
  | @cancelled read kept xs h hxs ih =>
    intro front name hkept hn
    obtain ⟨before, inner, rfl, hbefore, hinner⟩ := ih hkept hn
    exact ⟨before, inner ++ xs, by simp, hbefore, hinner.append hxs⟩
  | @above read kept h hnone ih =>
    intro front name hkept hn
    split at hkept
    · exact absurd hn (hnone name (hkept ▸ List.mem_append_right _ (List.mem_singleton_self name)))
    · obtain ⟨-, hlast⟩ := List.append_inj' hkept rfl
      exact absurd (List.singleton_inj.1 hlast ▸ hn) not_isName_dots

/-! ## What a path means -/

/-- The segments of the path that goes a given way. -/
def Descent.segments (d : Descent) : List Segment := List.replicate d.ups [dot, dot] ++ d.names.reverse

/-- Names that a descent goes down, and none above the root. -/
structure Descent.Valid (d : Descent) : Prop where
  names : ∀ s ∈ d.names, IsName s
  ups : d.isAbsolute = true → d.ups = 0

/-- Nothing has been read yet. -/
def Descent.start (isAbsolute : Bool) : Descent := { isAbsolute }

theorem Descent.start_valid (isAbsolute : Bool) : (start isAbsolute).Valid :=
  ⟨fun _ h => absurd h List.not_mem_nil, fun _ => rfl⟩

theorem Descent.toPath_eq (d : Descent) : d.toPath = ofSegments d.isAbsolute d.segments := rfl

/-- Goes on to where a segment leads. -/
def Descent.visit : Descent → Segment → Descent := readSegment step

/-- A path means what its segments mean one after the other. -/
theorem descent_eq_foldl (p : Path) :
    p.descent = (splitSlashes p.bytes).foldl Descent.visit (.start p.isAbsolute) := by
  rw [descent, foldl_components Descent.step fun _ => rfl]
  cases p.isAbsolute <;> rfl

/-! ## Steps -/

theorem Descent.visit_skip {s : Segment} (h : s = [] ∨ s = [dot]) (d : Descent) : d.visit s = d :=
  readSegment_skip step h d

theorem Descent.visit_name {s : Segment} (h : IsName s) (d : Descent) :
    d.visit s = { d with names := s :: d.names } := readSegment_name step h d

theorem Descent.visit_dots (d : Descent) : d.visit [dot, dot] = d.step .parent := rfl

/-- What a segment is, if no slash is in it. -/
theorem segment_cases {s : Segment} (h : slash ∉ s) :
    (s = [] ∨ s = [dot]) ∨ s = [dot, dot] ∨ IsName s := by
  by_cases hskip : s = [] ∨ s = [dot]
  · exact .inl hskip
  · rw [not_or] at hskip
    by_cases hdots : s = [dot, dot]
    · exact .inr (.inl hdots)
    · exact .inr (.inr ⟨hskip.1, hskip.2, hdots, h⟩)

theorem Descent.visit_isAbsolute {s : Segment} (h : slash ∉ s) (d : Descent) :
    (d.visit s).isAbsolute = d.isAbsolute := by
  rcases segment_cases h with hskip | rfl | hname
  · rw [visit_skip hskip]
  · rw [visit_dots, step]
    split
    · rfl
    · split <;> rfl
  · rw [visit_name hname]

theorem Descent.Valid.visit {d : Descent} (hd : d.Valid) {s : Segment} (h : slash ∉ s) :
    (d.visit s).Valid := by
  rcases segment_cases h with hskip | rfl | hname
  · rw [visit_skip hskip]
    exact hd
  · rw [visit_dots, step]
    split
    · next n ns hn => exact ⟨fun t ht => hd.names t (hn ▸ List.mem_cons_of_mem n ht), hd.ups⟩
    · split
      · exact hd
      · next hrel => exact ⟨hd.names, fun habs => absurd habs hrel⟩
  · rw [visit_name hname]
    refine ⟨?_, hd.ups⟩
    intro t ht
    rcases List.mem_cons.1 ht with rfl | ht
    · exact hname
    · exact hd.names t ht

/-- Where a descent has gone down no names, none of its segments is one. -/
theorem Descent.not_isName_of_names_eq_nil {d : Descent} (h : d.names = []) :
    ∀ s ∈ d.segments, ¬ IsName s := by
  intro s hs
  rw [segments, h, List.reverse_nil, List.append_nil] at hs
  exact (List.eq_of_mem_replicate hs).symm ▸ not_isName_dots

theorem Descent.Valid.names_eq_nil {d : Descent} (hd : d.Valid) (h : ∀ s ∈ d.segments, ¬ IsName s) :
    d.names = [] := by
  refine List.eq_nil_iff_forall_not_mem.2 fun s hs => ?_
  exact h s (List.mem_append_right _ (List.mem_reverse.2 hs)) (hd.names s hs)

/-- Going up where no name is left. -/
theorem Descent.segments_parent {d : Descent} (h : d.names = []) :
    (d.step .parent).segments =
      if d.isAbsolute then d.segments else d.segments ++ [[dot, dot]] := by
  simp only [step, h, segments]
  split
  · simp [h]
  · simp [List.replicate_succ']

theorem Descent.segments_name (d : Descent) (s : Segment) :
    segments { d with names := s :: d.names } = d.segments ++ [s] := by
  simp [segments]

/-! ## What is left is unique -/

/-- A segment more has been read. -/
theorem Descent.Valid.leaves_visit {d : Descent} (hd : d.Valid) {read : List Segment}
    (h : Leaves d.isAbsolute read d.segments) {s : Segment} (hs : slash ∉ s) :
    Leaves d.isAbsolute (read ++ [s]) (d.visit s).segments := by
  rcases segment_cases hs with hskip | rfl | hname
  · rw [visit_skip hskip]
    exact h.cancelled (.skip hskip)
  · rw [visit_dots]
    cases hn : d.names with
    | nil =>
      rw [segments_parent hn]
      exact h.above (not_isName_of_names_eq_nil hn)
    | cons n ns =>
      have hkept : d.segments = segments { d with names := ns } ++ [n] := by simp [segments, hn]
      have hparent : d.step .parent = { d with names := ns } := by simp only [step, hn]
      obtain ⟨before, inner, rfl, hbefore, hinner⟩ :=
        h.split hkept (hd.names n (hn ▸ List.mem_cons_self))
      rw [hparent, List.append_assoc]
      exact hbefore.cancelled (.pair (hd.names n (hn ▸ List.mem_cons_self)) hinner)
  · rw [visit_name hname, segments_name]
    exact h.name hname

/-- Segments that cancel lead nowhere. -/
theorem Cancels.foldl_visit {xs : List Segment} (h : Cancels xs) : ∀ d : Descent, xs.foldl Descent.visit d = d := by
  induction h with
  | nil => exact fun d => rfl
  | skip hskip => exact Descent.visit_skip hskip
  | pair hname _ ih =>
    intro d
    rw [List.cons_append, List.foldl_cons, List.foldl_append, ih, Descent.visit_name hname]
    rfl
  | append _ _ ihx ihy =>
    intro d
    rw [List.foldl_append, ihx, ihy]

/-- Reading segments goes where a descent goes. -/
theorem Leaves.foldl_visit {isAbsolute : Bool} {read kept : List Segment} (h : Leaves isAbsolute read kept) :
    (read.foldl Descent.visit (.start isAbsolute)).Valid ∧
    (read.foldl Descent.visit (.start isAbsolute)).isAbsolute = isAbsolute ∧
    kept = (read.foldl Descent.visit (.start isAbsolute)).segments := by
  induction h with
  | nil => exact ⟨Descent.start_valid isAbsolute, rfl, rfl⟩
  | @name read kept name _ hname ih =>
    obtain ⟨hvalid, habs, rfl⟩ := ih
    rw [List.foldl_append, List.foldl_cons, List.foldl_nil]
    exact ⟨hvalid.visit hname.2.2.2, (Descent.visit_isAbsolute hname.2.2.2 _).trans habs,
      by rw [Descent.visit_name hname, Descent.segments_name]⟩
  | cancelled _ hxs ih =>
    rw [List.foldl_append, hxs.foldl_visit]
    exact ih
  | @above read kept _ hnone ih =>
    obtain ⟨hvalid, habs, rfl⟩ := ih
    have hslash : slash ∉ ([dot, dot] : Segment) := by decide
    rw [List.foldl_append, List.foldl_cons, List.foldl_nil]
    refine ⟨hvalid.visit hslash, (Descent.visit_isAbsolute hslash _).trans habs, ?_⟩
    rw [Descent.visit_dots, Descent.segments_parent (hvalid.names_eq_nil hnone), habs]

theorem foldl_visit_leaves : ∀ {segments read : List Segment} {d : Descent}, (∀ s ∈ segments, slash ∉ s) →
    d.Valid → Leaves d.isAbsolute read d.segments →
    Leaves d.isAbsolute (read ++ segments) (segments.foldl Descent.visit d).segments
  | [], read, d, _, _, h => by simpa using h
  | s :: segments, read, d, hs, hd, h => by
    have hfirst : slash ∉ s := hs s List.mem_cons_self
    have hstep := hd.leaves_visit h hfirst
    rw [← Descent.visit_isAbsolute hfirst d] at hstep ⊢
    rw [List.append_cons, List.foldl_cons]
    exact foldl_visit_leaves (fun t ht => hs t (List.mem_cons_of_mem s ht)) (hd.visit hfirst) hstep

/-- **The segments of a path leave one list of segments**, the one that its plain
form is written with. -/
theorem leaves_iff (p : Path) {kept : List Segment} :
    Leaves p.isAbsolute (splitSlashes p.bytes) kept ↔ kept = p.descent.segments := by
  rw [descent_eq_foldl]
  constructor
  · exact fun h => h.foldl_visit.2.2
  · rintro rfl
    exact foldl_visit_leaves (fun _ => slash_not_mem_of_mem_splitSlashes)
      (Descent.start_valid p.isAbsolute) .nil

/-! ## Plain form -/

theorem descent_valid (p : Path) : p.descent.Valid := by
  have h : Leaves p.isAbsolute (splitSlashes p.bytes) p.descent.segments := p.leaves_iff.2 rfl
  rw [descent_eq_foldl]
  exact h.foldl_visit.1

theorem descent_isAbsolute (p : Path) : p.descent.isAbsolute = p.isAbsolute := by
  have h : Leaves p.isAbsolute (splitSlashes p.bytes) p.descent.segments := p.leaves_iff.2 rfl
  rw [descent_eq_foldl]
  exact h.foldl_visit.2.1

theorem normalize_eq_ofSegments (p : Path) : p.normalize = ofSegments p.isAbsolute p.descent.segments := by
  rw [normalize, Descent.toPath_eq, descent_isAbsolute]

/-- A segment that can be written: it has bytes, and no slash among them. -/
def IsWritten (s : Segment) : Prop := s ≠ [] ∧ slash ∉ s

theorem IsName.isWritten {s : Segment} (h : IsName s) : IsWritten s := ⟨h.1, h.2.2.2⟩

theorem isWritten_dots : IsWritten [dot, dot] := ⟨by decide, by decide⟩

theorem isWritten_of_mem {ups : Nat} {names : List Segment} (h : ∀ s ∈ names, IsName s) :
    ∀ s ∈ List.replicate ups [dot, dot] ++ names, IsWritten s := by
  intro s hs
  rcases List.mem_append.1 hs with hs | hs
  · exact (List.eq_of_mem_replicate hs).symm ▸ isWritten_dots
  · exact (h s hs).isWritten

theorem Descent.Valid.isWritten {d : Descent} (h : d.Valid) : ∀ s ∈ d.segments, IsWritten s :=
  isWritten_of_mem fun s hs => h.names s (List.mem_reverse.1 hs)

theorem joinSlashes_cons {s : Segment} {segments : List Segment} (h : segments ≠ []) :
    joinSlashes (s :: segments) = s ++ slash :: joinSlashes segments := by
  cases segments with
  | nil => exact absurd rfl h
  | cons t ts => rfl

/-- A path that starts with a segment does not start with a slash. -/
theorem isAbsolute_joinSlashes {segments : List Segment} (h : ∀ s ∈ segments, IsWritten s) :
    isAbsolute ⟨joinSlashes segments⟩ = false := by
  cases segments with
  | nil => rfl
  | cons s ss =>
    obtain ⟨hne, hslash⟩ := h s List.mem_cons_self
    obtain ⟨b, bs, rfl⟩ := List.exists_cons_of_ne_nil hne
    have hb : b ≠ slash := fun he => hslash (he ▸ List.mem_cons_self)
    cases ss <;> simpa [isAbsolute, joinSlashes] using hb

theorem joinSlashes_ne_nil {segments : List Segment} (hne : segments ≠ [])
    (h : ∀ s ∈ segments, IsWritten s) : joinSlashes segments ≠ [] := by
  obtain ⟨s, ss, rfl⟩ := List.exists_cons_of_ne_nil hne
  have hs := (h s List.mem_cons_self).1
  cases ss with
  | nil => exact hs
  | cons t ts => simp [joinSlashes]

theorem ofSegments_isAbsolute {segments : List Segment} (h : ∀ s ∈ segments, IsWritten s)
    (isAbsolute : Bool) : (ofSegments isAbsolute segments).isAbsolute = isAbsolute := by
  unfold ofSegments
  cases isAbsolute with
  | true => rfl
  | false =>
    split
    · contradiction
    · split
      · rfl
      · exact isAbsolute_joinSlashes h

/-- The plain form of a path is absolute if the path is. -/
theorem normalize_isAbsolute (p : Path) : p.normalize.isAbsolute = p.isAbsolute := by
  rw [normalize_eq_ofSegments, ofSegments_isAbsolute p.descent_valid.isWritten]

theorem Descent.Valid.toPath_isCanonical {d : Descent} (h : d.Valid) : d.toPath.IsCanonical := by
  have hnames : ∀ s ∈ d.names.reverse, IsName s := fun s hs => h.names s (List.mem_reverse.1 hs)
  rw [toPath_eq, ofSegments]
  split
  · next habs =>
    rw [segments, h.ups habs, List.replicate_zero, List.nil_append]
    exact .absolute ⟨_, hnames, rfl⟩
  · split
    · exact .current
    · next hne =>
      rw [List.isEmpty_iff] at hne
      exact .relative hnames hne

theorem normalize_isCanonical (p : Path) : p.normalize.IsCanonical := p.descent_valid.toPath_isCanonical

theorem foldl_visit_names_eq : ∀ {names : List Segment} (d : Descent), (∀ s ∈ names, IsName s) →
    names.foldl Descent.visit d = { d with names := names.reverse ++ d.names }
  | [], _, _ => rfl
  | s :: names, d, h => by
    rw [List.foldl_cons, Descent.visit_name (h s List.mem_cons_self),
      foldl_visit_names_eq _ fun t ht => h t (List.mem_cons_of_mem s ht)]
    simp

theorem foldl_visit_dots : ∀ ups : Nat, (List.replicate ups [dot, dot]).foldl Descent.visit (.start false) =
    { isAbsolute := false, ups }
  | 0 => rfl
  | ups + 1 => by
    rw [List.replicate_succ', List.foldl_append, foldl_visit_dots ups]
    rfl

/-- What a path means that goes up and then down some names. -/
theorem descent_joinSlashes {ups : Nat} {names : List Segment} (hnames : ∀ s ∈ names, IsName s)
    (hne : List.replicate ups [dot, dot] ++ names ≠ []) :
    descent ⟨joinSlashes (List.replicate ups [dot, dot] ++ names)⟩ = ⟨false, ups, names.reverse⟩ := by
  have hwritten : ∀ s ∈ List.replicate ups [dot, dot] ++ names, IsWritten s := isWritten_of_mem hnames
  have hsplit := splitSlashes_joinSlashes hne fun s hs => (hwritten s hs).2
  rw [descent_eq_foldl, isAbsolute_joinSlashes hwritten, hsplit, List.foldl_append, foldl_visit_dots,
    foldl_visit_names_eq _ hnames, List.append_nil]

/-- A path in plain form is the plain form of itself. -/
theorem IsCanonical.normalize_eq {p : Path} (h : p.IsCanonical) : p.normalize = p := by
  cases h with
  | absolute hplain =>
    obtain ⟨names, hnames, rfl⟩ := hplain
    rw [normalize_eq_ofPlace (ofPlace_isAbsolute names), place_ofPlace hnames]
  | current => rfl
  | @relative ups names hnames hne =>
    rw [normalize, descent_joinSlashes hnames hne, Descent.toPath_eq, ofSegments, Descent.segments,
      List.reverse_reverse]
    simp [hne]

/-- The paths in plain form are those that normalization leaves alone. -/
theorem normalize_eq_self_iff {p : Path} : p.normalize = p ↔ p.IsCanonical :=
  ⟨fun h => h ▸ p.normalize_isCanonical, IsCanonical.normalize_eq⟩

end Bundler.Path
