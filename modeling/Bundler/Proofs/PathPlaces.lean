/-
Where an absolute path leads. `Path.place` reads the segments one by one from
the root: a name goes down, `..` goes up if there is anything above, and empty
segments and dots stay. Normalization writes exactly that place
(`normalize_eq_ofPlace`), and a path in plain form names one place and no other
(`ofPlace_inj`, `IsPlain.eq_of_same`).
-/
import Mathlib.Data.List.Basic
import Bundler.FileTree

namespace Bundler.Path

/-! ## Slashes -/

theorem splitSlashes_ne_nil : ∀ bytes, splitSlashes bytes ≠ []
  | [] => by simp [splitSlashes]
  | b :: rest => by
    simp only [splitSlashes]
    split
    · simp
    · split <;> simp

theorem splitSlashes_slash (rest : List UInt8) : splitSlashes (slash :: rest) = [] :: splitSlashes rest := by
  cases h : splitSlashes rest with
  | nil => exact absurd h (splitSlashes_ne_nil rest)
  | cons s ss => simp only [splitSlashes, h, if_true]

theorem slash_not_mem_of_mem_splitSlashes : ∀ {bytes : List UInt8} {s : Segment},
    s ∈ splitSlashes bytes → slash ∉ s
  | [], s, hs => by simp_all [splitSlashes]
  | b :: rest, s, hs => by
    have ih : ∀ t ∈ splitSlashes rest, slash ∉ t := fun _ => slash_not_mem_of_mem_splitSlashes
    cases h : splitSlashes rest with
    | nil => exact absurd h (splitSlashes_ne_nil rest)
    | cons t ts =>
      rw [h] at ih
      simp only [splitSlashes, h] at hs
      split at hs
      · rcases List.mem_cons.1 hs with rfl | hs
        · exact List.not_mem_nil
        · exact ih s hs
      · next hb =>
        rcases List.mem_cons.1 hs with rfl | hs
        · simp only [List.mem_cons, not_or]
          exact ⟨fun he => hb he.symm, ih t List.mem_cons_self⟩
        · exact ih s (List.mem_cons_of_mem _ hs)

theorem splitSlashes_append : ∀ (a rest : List UInt8),
    splitSlashes (a ++ slash :: rest) = splitSlashes a ++ splitSlashes rest
  | [], rest => splitSlashes_slash rest
  | b :: a, rest => by
    have ih := splitSlashes_append a rest
    cases h : splitSlashes a with
    | nil => exact absurd h (splitSlashes_ne_nil a)
    | cons s ss =>
      rw [h, List.cons_append] at ih
      simp only [List.cons_append, splitSlashes, h, ih]
      split <;> rfl

/-- Bytes before the first slash lengthen the first segment. -/
theorem splitSlashes_append_of_not_mem : ∀ {front : List UInt8}, slash ∉ front → ∀ rest : List UInt8,
    ∃ s ss, splitSlashes rest = s :: ss ∧ splitSlashes (front ++ rest) = (front ++ s) :: ss
  | [], _, rest => by
    obtain ⟨s, ss, hrest⟩ := List.exists_cons_of_ne_nil (splitSlashes_ne_nil rest)
    exact ⟨s, ss, hrest, hrest⟩
  | b :: front, h, rest => by
    rw [List.mem_cons, not_or] at h
    obtain ⟨s, ss, hrest, hfront⟩ := splitSlashes_append_of_not_mem h.2 rest
    refine ⟨s, ss, hrest, ?_⟩
    simp only [List.cons_append, splitSlashes, hfront, if_neg (Ne.symm h.1)]

theorem splitSlashes_of_not_mem : ∀ {s : Segment}, slash ∉ s → splitSlashes s = [s]
  | [], _ => rfl
  | b :: s, h => by
    simp only [List.mem_cons, not_or] at h
    simp only [splitSlashes, splitSlashes_of_not_mem h.2, if_neg (Ne.symm h.1)]

theorem splitSlashes_joinSlashes : ∀ {segments : List Segment}, segments ≠ [] →
    (∀ s ∈ segments, slash ∉ s) → splitSlashes (joinSlashes segments) = segments
  | [s], _, h => splitSlashes_of_not_mem (h s List.mem_cons_self)
  | s :: t :: ss, _, h => by
    rw [joinSlashes, splitSlashes_append, splitSlashes_of_not_mem (h s List.mem_cons_self),
      splitSlashes_joinSlashes (List.cons_ne_nil t ss) fun u hu => h u (List.mem_cons_of_mem _ hu)]
    · rfl
    · simp

/-! ## Places -/

/-- A segment that stands for a file or a directory of that name. -/
def IsName (s : Segment) : Prop := s ≠ [] ∧ s ≠ [dot] ∧ s ≠ [dot, dot] ∧ slash ∉ s

/-- Goes from a place to where a segment leads. Above the root is the root. -/
def visit (place : Place) (s : Segment) : Place :=
  if s = [] ∨ s = [dot] then place
  else if s = [dot, dot] then place.dropLast
  else place ++ [s]

/-- Where a path leads from a place if all its names are those of directories.
An absolute path leads from the root. -/
def placeFrom (p : Path) (here : Place) : Place :=
  (splitSlashes p.bytes).foldl visit (if p.isAbsolute then [] else here)

def place (p : Path) : Place := p.placeFrom []

/-- The path that names a place. -/
def ofPlace (place : Place) : Path := ⟨slash :: joinSlashes place⟩

/-- A path in plain form: a slash, and names with slashes between them. -/
def IsPlain (p : Path) : Prop := ∃ names : Place, (∀ s ∈ names, IsName s) ∧ p = ofPlace names

theorem visit_names {here : Place} {s : Segment} (hs : slash ∉ s) (h : ∀ t ∈ here, IsName t) :
    ∀ t ∈ visit here s, IsName t := by
  unfold visit
  split_ifs with hskip hup
  · exact h
  · exact fun t ht => h t ((List.dropLast_sublist here).subset ht)
  · simp only [not_or] at hskip
    intro t ht
    rcases List.mem_append.1 ht with ht | ht
    · exact h t ht
    · rw [List.mem_singleton.1 ht]
      exact ⟨hskip.1, hskip.2, hup, hs⟩

theorem foldl_visit_names : ∀ {segments : List Segment} {here : Place}, (∀ s ∈ segments, slash ∉ s) →
    (∀ t ∈ here, IsName t) → ∀ t ∈ segments.foldl visit here, IsName t
  | [], _, _, h => h
  | s :: segments, here, hs, h => by
    rw [List.foldl_cons]
    exact foldl_visit_names (fun u hu => hs u (List.mem_cons_of_mem _ hu))
      (visit_names (hs s List.mem_cons_self) h)

theorem place_eq (p : Path) : p.place = (splitSlashes p.bytes).foldl visit [] := by
  rw [place, placeFrom, ite_self]

/-- A path leads down names. -/
theorem place_names (p : Path) : ∀ s ∈ p.place, IsName s := by
  rw [place_eq]
  exact foldl_visit_names (fun _ => slash_not_mem_of_mem_splitSlashes) (by simp)

theorem ofPlace_place_isPlain (p : Path) : (ofPlace p.place).IsPlain := ⟨p.place, p.place_names, rfl⟩

theorem foldl_visit_of_names : ∀ {names : List Segment} (here : Place), (∀ s ∈ names, IsName s) →
    names.foldl visit here = here ++ names
  | [], here, _ => (List.append_nil here).symm
  | s :: names, here, h => by
    obtain ⟨hempty, hdot, hdots, -⟩ := h s List.mem_cons_self
    rw [List.foldl_cons, foldl_visit_of_names _ fun t ht => h t (List.mem_cons_of_mem _ ht)]
    simp [visit, hempty, hdot, hdots]

theorem splitSlashes_ofPlace {names : Place} (h : ∀ s ∈ names, IsName s) (hne : names ≠ []) :
    splitSlashes (ofPlace names).bytes = [] :: names := by
  rw [ofPlace, splitSlashes_slash, splitSlashes_joinSlashes hne fun s hs => (h s hs).2.2.2]

/-- A path in plain form leads down its names. -/
theorem place_ofPlace {names : Place} (h : ∀ s ∈ names, IsName s) : (ofPlace names).place = names := by
  cases names with
  | nil => rfl
  | cons s ss =>
    rw [place_eq, splitSlashes_ofPlace h (List.cons_ne_nil s ss), List.foldl_cons,
      foldl_visit_of_names _ h]
    rfl

theorem ofPlace_inj {names names' : Place} (h : ∀ s ∈ names, IsName s) (h' : ∀ s ∈ names', IsName s) :
    ofPlace names = ofPlace names' ↔ names = names' := by
  refine ⟨fun he => ?_, congrArg ofPlace⟩
  rw [← place_ofPlace h, he, place_ofPlace h']

/-! ## Components -/

@[simp] theorem ofPlace_isAbsolute (names : Place) : (ofPlace names).isAbsolute = true := rfl

theorem exists_bytes_of_isAbsolute {p : Path} (h : p.isAbsolute = true) :
    ∃ rest, p.bytes = slash :: rest := by
  unfold isAbsolute at h
  cases hb : p.bytes with
  | nil => simp [hb] at h
  | cons b rest =>
    have : b = slash := by simpa [hb] using h
    exact ⟨rest, by rw [this]⟩

theorem components_of_isAbsolute {p : Path} (h : p.isAbsolute = true) :
    p.components = .root :: laterComponents (splitSlashes p.bytes) := by
  obtain ⟨rest, hb⟩ := exists_bytes_of_isAbsolute h
  simp only [components, hb, splitSlashes_slash, h, if_true]
  rfl

theorem componentOf_name {s : Segment} (h : IsName s) : componentOf false s = some (.name s) := by
  obtain ⟨hempty, hdot, hdots, -⟩ := h
  simp [componentOf, hempty, hdot, hdots]

theorem laterComponents_of_names : ∀ {names : List Segment}, (∀ s ∈ names, IsName s) →
    laterComponents names = names.map .name
  | [], _ => rfl
  | s :: names, h => by
    have ih := laterComponents_of_names fun t ht => h t (List.mem_cons_of_mem s ht)
    unfold laterComponents at ih ⊢
    rw [List.filterMap_cons, componentOf_name (h s List.mem_cons_self), ih, List.map_cons]

theorem components_ofPlace {names : Place} (h : ∀ s ∈ names, IsName s) :
    (ofPlace names).components = .root :: names.map .name := by
  rw [components_of_isAbsolute (ofPlace_isAbsolute names)]
  cases names with
  | nil => rfl
  | cons s ss =>
    rw [splitSlashes_ofPlace h (List.cons_ne_nil s ss), ← laterComponents_of_names h]
    rfl

/-- The last name of a plain path is that of its file. -/
theorem fileName?_ofPlace {names : Place} (h : ∀ s ∈ names, IsName s) :
    (ofPlace names).fileName? = names.getLast? := by
  rw [fileName?, components_ofPlace h]
  rcases List.eq_nil_or_concat names with rfl | ⟨front, name, rfl⟩
  · rfl
  · simp [List.getLast?_cons]

/-- Two plain paths that a path equals in its components are one. -/
theorem IsPlain.eq_of_same {p q r : Path} (hp : p.IsPlain) (hq : q.IsPlain) (hpr : p.same r = true)
    (hqr : q.same r = true) : p = q := by
  obtain ⟨names, h, rfl⟩ := hp
  obtain ⟨names', h', rfl⟩ := hq
  simp only [same, beq_iff_eq] at hpr hqr
  have he := hpr.trans hqr.symm
  rw [components_ofPlace h, components_ofPlace h', List.cons_inj_right] at he
  exact congrArg ofPlace (List.map_injective_iff.2 (fun _ _ => Component.name.inj) he)

/-! ## Reading segments -/

/-- What reading a segment does, if it stands for a component that does this. -/
def readSegment {β : Type} (f : β → Component → β) (x : β) (s : Segment) : β :=
  match componentOf false s with
  | some c => f x c
  | none => x

section

variable {β : Type} (f : β → Component → β)

theorem readSegment_skip {s : Segment} (h : s = [] ∨ s = [dot]) (x : β) : readSegment f x s = x := by
  rcases h with rfl | rfl <;> rfl

theorem readSegment_dots (x : β) : readSegment f x [dot, dot] = f x .parent := rfl

theorem readSegment_name {s : Segment} (h : IsName s) (x : β) : readSegment f x s = f x (.name s) := by
  rw [readSegment, componentOf_name h]

theorem foldl_laterComponents : ∀ (segments : List Segment) (x : β),
    (laterComponents segments).foldl f x = segments.foldl (readSegment f) x
  | [], _ => rfl
  | s :: segments, x => by
    have ih := foldl_laterComponents segments
    unfold laterComponents at ih ⊢
    rw [List.foldl_cons, readSegment, List.filterMap_cons]
    cases componentOf false s <;> exact ih _

/-- To go through the components of a path is to read its segments, as the dot
that a relative path can start with does nothing. -/
theorem foldl_components (hcurrent : ∀ x, f x .current = x) (p : Path) (x : β) :
    p.components.foldl f x =
      (splitSlashes p.bytes).foldl (readSegment f) (if p.isAbsolute then f x .root else x) := by
  cases h : p.isAbsolute with
  | true =>
    rw [components_of_isAbsolute h, List.foldl_cons]
    exact foldl_laterComponents f _ _
  | false =>
    unfold components
    cases hs : splitSlashes p.bytes with
    | nil => exact absurd hs (splitSlashes_ne_nil p.bytes)
    | cons s ss =>
      have hfirst : (componentOf true s).toList.foldl f x = readSegment f x s := by
        by_cases hdot : s = [dot]
        · subst hdot
          exact hcurrent x
        · have hsame : componentOf true s = componentOf false s := by simp [componentOf, hdot]
          rw [hsame, readSegment]
          cases componentOf false s <;> rfl
      simp only [h, Bool.false_eq_true, if_false]
      rw [List.foldl_append, hfirst, foldl_laterComponents, List.foldl_cons]

end

/-! ## Plain form -/

/-- Below the root, what a path means is a place. -/
theorem readSegment_step {s : Segment} (names : List Segment) :
    readSegment Descent.step ⟨true, 0, names⟩ s = ⟨true, 0, (visit names.reverse s).reverse⟩ := by
  simp only [readSegment, componentOf, visit]
  by_cases hempty : s = []
  · simp [hempty]
  by_cases hdot : s = [dot]
  · simp [hdot]
  by_cases hdots : s = [dot, dot]
  · subst hdots
    cases names with
    | nil => simp [Descent.step]
    | cons n ns => simp [Descent.step]
  · simp [hempty, hdot, hdots, Descent.step]

theorem foldl_readSegment_step : ∀ (segments : List Segment) (names : List Segment),
    segments.foldl (readSegment Descent.step) ⟨true, 0, names⟩ =
      ⟨true, 0, (segments.foldl visit names.reverse).reverse⟩
  | [], names => by simp
  | s :: segments, names => by
    rw [List.foldl_cons, readSegment_step, foldl_readSegment_step segments, List.reverse_reverse,
      List.foldl_cons]

theorem descent_of_isAbsolute {p : Path} (h : p.isAbsolute = true) :
    p.descent = ⟨true, 0, p.place.reverse⟩ := by
  rw [descent, foldl_components Descent.step fun _ => rfl, h, if_pos rfl, place_eq]
  exact foldl_readSegment_step (splitSlashes p.bytes) []

/-- **The plain form of an absolute path names the place it leads to.** -/
theorem normalize_eq_ofPlace {p : Path} (h : p.isAbsolute = true) : p.normalize = ofPlace p.place := by
  simp [normalize, descent_of_isAbsolute h, Descent.toPath, ofPlace]

/-! ## Joining, and directories -/

theorem join_isAbsolute {base : Path} (h : base.isAbsolute = true) (p : Path) :
    (base.join p).isAbsolute = true := by
  obtain ⟨rest, hb⟩ := exists_bytes_of_isAbsolute h
  unfold join
  split_ifs with hp
  · exact hp
  · simp [isAbsolute, hb]
  · simp [isAbsolute, hb]

theorem foldl_visit_slash (a rest : List UInt8) (here : Place) :
    (splitSlashes (a ++ slash :: rest)).foldl visit here =
      (splitSlashes rest).foldl visit ((splitSlashes a).foldl visit here) := by
  rw [splitSlashes_append, List.foldl_append]

/-- A path as seen from a directory leads where it leads from the place of the
directory. -/
theorem place_join (base p : Path) : (base.join p).place = p.placeFrom base.place := by
  simp only [place_eq, placeFrom, join]
  by_cases hp : p.isAbsolute = true
  · simp [hp]
  by_cases hend : base.bytes.getLast? = some slash
  · obtain ⟨front, hfront⟩ := List.getLast?_eq_some_iff.1 hend
    have hempty : (splitSlashes []).foldl visit ((splitSlashes front).foldl visit []) =
        (splitSlashes front).foldl visit [] := by simp [splitSlashes, visit]
    simp [hp, hfront, foldl_visit_slash, hempty]
  by_cases hbase : base.bytes = []
  · simp [hp, hbase, splitSlashes, visit]
  · simp [hp, hend, hbase, foldl_visit_slash]

theorem trimSegments_of_not_skipped {segments : List Segment} (h : ∀ s ∈ segments, isSkipped s = false)
    (isAbsolute : Bool) : trimSegments isAbsolute segments = segments := by
  have hkept : segments.reverse.dropWhile isSkipped = segments.reverse := by
    cases hr : segments.reverse with
    | nil => rfl
    | cons s ss =>
      have hs := h s (List.mem_reverse.1 (hr ▸ List.mem_cons_self))
      simp [hs]
  simp only [trimSegments, hkept, List.reverse_reverse]

theorem IsName.isSkipped_eq_false {s : Segment} (h : IsName s) : isSkipped s = false := by
  obtain ⟨hempty, hdot, -⟩ := h
  simp [isSkipped, hempty, hdot]

theorem trimSegments_of_names {names : List Segment} (h : ∀ s ∈ names, IsName s) :
    trimSegments true names = names :=
  trimSegments_of_not_skipped (fun s hs => (h s hs).isSkipped_eq_false) true

/-- The directory of a plain path other than the root names the place above. -/
theorem parent?_ofPlace {names : Place} (h : ∀ s ∈ names, IsName s) (hne : names ≠ []) :
    (ofPlace names).parent? = some (ofPlace names.dropLast) := by
  have hsplit : splitSlashes (ofPlace names).bytes.tail = names :=
    splitSlashes_joinSlashes hne fun s hs => (h s hs).2.2.2
  have hdrop := trimSegments_of_names fun s hs => h s ((List.dropLast_sublist names).subset hs)
  simp only [parent?, ofPlace_isAbsolute, if_true, hsplit, trimSegments_of_names h]
  cases names with
  | nil => exact absurd rfl hne
  | cons s ss => simp only [hdrop, ofPlace]

end Bundler.Path

namespace Bundler.FileTree

open Bundler.Path

theorem walk_nil_cons (t : FileTree) (names : List Segment) : t.walk [] ([] :: names) = t.walk [] names := by
  conv_lhs => unfold walk
  rfl

theorem walk_names {t : FileTree} : ∀ {names : List Segment} {start place : Place},
    (∀ s ∈ names, IsName s) → t.walk start names = .ok place → place = start ++ names
  | [], start, place, _, h => by simpa [walk, eq_comm] using h
  | s :: names, start, place, hs, h => by
    obtain ⟨hempty, hdot, hdots, -⟩ := hs s List.mem_cons_self
    have hkept : isSkipped s = false := by simp [isSkipped, hempty, hdot]
    unfold walk at h
    split at h
    · cases h
    · cases h
    · simp only [hkept, Bool.false_eq_true, if_false, hdots] at h
      split at h
      · cases h
      · rw [walk_names (fun u hu => hs u (List.mem_cons_of_mem _ hu)) h, List.append_assoc]
        rfl

theorem walk_of_locate {t : FileTree} {p : Path} {place : Place} (hp : p.isAbsolute = true)
    (h : t.locate p = .ok place) : t.walk [] (splitSlashes p.bytes) = .ok place := by
  simp only [locate, beginning, hp, if_true] at h
  split_ifs at h
  · cases h
  · cases h
  · cases h
  · exact h

theorem locate_ofPlace {t : FileTree} {names place : Place} (hs : ∀ s ∈ names, IsName s)
    (h : t.locate (ofPlace names) = .ok place) : place = names := by
  have h := walk_of_locate (ofPlace_isAbsolute names) h
  cases names with
  | nil =>
    have hroot : splitSlashes (ofPlace []).bytes = [[], []] := rfl
    rw [hroot, walk_nil_cons, walk_nil_cons] at h
    exact walk_names hs h
  | cons s ss =>
    rw [splitSlashes_ofPlace hs (List.cons_ne_nil s ss), walk_nil_cons] at h
    exact walk_names hs h

/-- In a tree of files, two plain paths do not lead to one place. -/
theorem eq_of_locate {t : FileTree} {p q : Path} {place : Place} (hp : p.IsPlain) (hq : q.IsPlain)
    (hpl : t.locate p = .ok place) (hql : t.locate q = .ok place) : p = q := by
  obtain ⟨names, h, rfl⟩ := hp
  obtain ⟨names', h', rfl⟩ := hq
  rw [← locate_ofPlace h hpl, ← locate_ofPlace h' hql]

end Bundler.FileTree
