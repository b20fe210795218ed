/-
Joining and plain form. A path as seen from a directory leads, from where the
directory leads, along its own segments (`descent_join`). A path in plain form
has what is left of those segments, and leads from any place to where all of
them lead (`descentFrom_normalize`), also where `..` cancels names of the
directory. So it does not matter whether paths are brought to plain form before
they are joined (`normalize_join`), and what an import means does not depend on
how its directory is spelled (`resolve_normalize`).
-/
import Bundler.Proofs.IdentityPaths
import Bundler.Proofs.PathDrafts

namespace Bundler

namespace Path

/-! ## What a path means -/

/-- The plain path that goes a way leads that way. -/
theorem Descent.Valid.descent_toPath {d : Descent} (h : d.Valid) : d.toPath.descent = d := by
  obtain ⟨isAbsolute, ups, names⟩ := d
  have hnames : ∀ s ∈ names.reverse, IsName s := fun s hs => h.names s (List.mem_reverse.1 hs)
  cases isAbsolute with
  | true =>
    obtain rfl : ups = 0 := h.ups rfl
    have hpath : Descent.toPath ⟨true, 0, names⟩ = ofPlace names.reverse := rfl
    rw [hpath, descent_of_isAbsolute (ofPlace_isAbsolute _), place_ofPlace hnames, List.reverse_reverse]
  | false =>
    by_cases hne : List.replicate ups [dot, dot] ++ names.reverse = []
    · obtain ⟨hups, hnil⟩ := List.append_eq_nil_iff.1 hne
      obtain rfl : ups = 0 := by simpa using hups
      obtain rfl : names = [] := by simpa using hnil
      rfl
    · have hpath : Descent.toPath ⟨false, ups, names⟩ =
          ⟨joinSlashes (List.replicate ups [dot, dot] ++ names.reverse)⟩ := by
        simp only [Descent.toPath, Bool.false_eq_true, if_false, List.isEmpty_iff, hne]
      rw [hpath, descent_joinSlashes hnames hne, List.reverse_reverse]

/-- A path and its plain form mean the same. -/
theorem descent_normalize (p : Path) : p.normalize.descent = p.descent := p.descent_valid.descent_toPath

/-- Paths have one plain form exactly if they mean the same. -/
theorem normalize_eq_iff {p q : Path} : p.normalize = q.normalize ↔ p.descent = q.descent := by
  constructor
  · intro h
    rw [← p.descent_normalize, h, q.descent_normalize]
  · intro h
    rw [normalize, normalize, h]

theorem normalize_normalize (p : Path) : p.normalize.normalize = p.normalize :=
  p.normalize_isCanonical.normalize_eq

/-! ## Where a path leads from a directory -/

/-- Where a path leads from where a directory leads. An absolute path leads to
one place from anywhere. -/
def descentFrom (p : Path) (d : Descent) : Descent :=
  (splitSlashes p.bytes).foldl Descent.visit (if p.isAbsolute then .start true else d)

theorem descentFrom_of_isAbsolute {p : Path} (h : p.isAbsolute = true) (d : Descent) :
    p.descentFrom d = p.descent := by
  rw [descent_eq_foldl, descentFrom, if_pos h, h]

theorem descentFrom_start (p : Path) : p.descentFrom (.start false) = p.descent := by
  rw [descent_eq_foldl, descentFrom]
  cases p.isAbsolute <;> rfl

theorem isAbsolute_append {front : List UInt8} (h : front ≠ []) (rest : List UInt8) :
    isAbsolute ⟨front ++ rest⟩ = isAbsolute ⟨front⟩ := by
  obtain ⟨b, bs, rfl⟩ := List.exists_cons_of_ne_nil h
  rfl

/-- A path as seen from a directory leads where it leads from the directory. -/
theorem descent_join (base p : Path) : (base.join p).descent = p.descentFrom base.descent := by
  cases hp : p.isAbsolute with
  | true =>
    rw [descentFrom_of_isAbsolute hp]
    simp only [join, hp, if_true]
  | false =>
    by_cases hbase : base.bytes = []
    · have hstart : base.descent = .start false := by
        rw [descent_eq_foldl, isAbsolute, hbase]
        rfl
      simp only [join, hp, hbase, hstart, descentFrom_start, List.isEmpty_nil, Bool.true_or,
        Bool.false_eq_true, if_false, if_true, List.nil_append]
    · have habs : ∀ rest, isAbsolute ⟨base.bytes ++ rest⟩ = base.isAbsolute := isAbsolute_append hbase
      by_cases hend : base.bytes.getLast? = some slash
      · -- The slash that is there already leaves an empty segment, which leads nowhere.
        obtain ⟨front, hfront⟩ := List.getLast?_eq_some_iff.1 hend
        have hjoin : base.join p = ⟨base.bytes ++ p.bytes⟩ := by simp [join, hp, hend]
        rw [hjoin, descent_eq_foldl, habs, descentFrom, hp, if_neg Bool.false_ne_true, descent_eq_foldl]
        simp only [hfront, List.append_assoc, List.singleton_append, splitSlashes_append, List.foldl_append]
        rfl
      · have hjoin : base.join p = ⟨base.bytes ++ slash :: p.bytes⟩ := by simp [join, hp, hend, hbase]
        rw [hjoin, descent_eq_foldl, habs, descentFrom, hp, if_neg Bool.false_ne_true, descent_eq_foldl,
          splitSlashes_append, List.foldl_append]

/-- What is left of the segments of a relative path leads where they lead, from
anywhere: a `..` that is left goes up there, too. -/
theorem Leaves.foldl_kept {read kept : List Segment} (h : Leaves false read kept) (d : Descent) :
    read.foldl Descent.visit d = kept.foldl Descent.visit d := by
  induction h with
  | nil => rfl
  | name _ _ ih => rw [List.foldl_append, List.foldl_append, ih]
  | cancelled _ hxs ih => rw [List.foldl_append, ih, hxs.foldl_visit]
  | above _ _ ih => rw [if_neg Bool.false_ne_true, List.foldl_append, List.foldl_append, ih]

theorem descentFrom_of_not_isAbsolute {p : Path} (h : p.isAbsolute = false) (d : Descent) :
    p.descentFrom d = p.descent.segments.foldl Descent.visit d := by
  have hleaves : Leaves false (splitSlashes p.bytes) p.descent.segments := h ▸ p.leaves_iff.2 rfl
  rw [descentFrom, h, if_neg Bool.false_ne_true, hleaves.foldl_kept]

/-- A path and its plain form lead to the same from anywhere. -/
theorem descentFrom_normalize (p : Path) (d : Descent) : p.normalize.descentFrom d = p.descentFrom d := by
  have habs := p.normalize_isAbsolute
  cases h : p.isAbsolute with
  | true =>
    rw [descentFrom_of_isAbsolute h, descentFrom_of_isAbsolute (habs.trans h), descent_normalize]
  | false =>
    rw [descentFrom_of_not_isAbsolute h, descentFrom_of_not_isAbsolute (habs.trans h), descent_normalize]

/-! ## Plain forms of joined paths -/

/-- **The plain form of joined paths is that of their plain forms, joined.** -/
theorem normalize_join (a b : Path) : (a.join b).normalize = (a.normalize.join b.normalize).normalize := by
  rw [normalize_eq_iff, descent_join, descent_join, descent_normalize, descentFrom_normalize]

theorem absolutize_normalize (p cwd : Path) : p.normalize.absolutize cwd = p.absolutize cwd := by
  rw [absolutize, absolutize, normalize_join, normalize_normalize, ← normalize_join]

theorem join_of_isAbsolute {p : Path} (h : p.isAbsolute = true) (base : Path) : base.join p = p := by
  rw [join, if_pos h]

/-- What is absolute already stays as it is. -/
theorem absolutize_absolutize {cwd : Path} (h : cwd.isAbsolute = true) (p cwd' : Path) :
    (p.absolutize cwd).absolutize cwd' = p.absolutize cwd := by
  have habs : (p.absolutize cwd).isAbsolute = true := by
    rw [absolutize, normalize_isAbsolute, join_isAbsolute h]
  rw [absolutize, join_of_isAbsolute habs, absolutize, normalize_normalize]

/-! ## Names of files -/

/-- The segments of a text are texts, as a slash is a character of its own. -/
theorem isText_of_mem_splitSlashes : ∀ {cs : List Char} {s : Segment},
    s ∈ splitSlashes (cs.flatMap String.utf8EncodeChar) → ∃ text : String, s = Utf8.encode text
  | [], s, hs => ⟨"", List.mem_singleton.1 hs⟩
  | c :: cs, s, hs => by
    rw [List.flatMap_cons] at hs
    by_cases hc : c = '/'
    · have hslash : String.utf8EncodeChar c = [slash] := by
        rw [hc]
        decide
      rw [hslash, List.singleton_append, splitSlashes_slash] at hs
      rcases List.mem_cons.1 hs with rfl | hs
      · exact ⟨"", rfl⟩
      · exact isText_of_mem_splitSlashes hs
    · have hslash : slash ∉ String.utf8EncodeChar c := fun hm =>
        hc (Utf8.eq_of_mem_encodeChar (a := '/') (by decide) hm)
      obtain ⟨t, ts, hrest, hall⟩ :=
        splitSlashes_append_of_not_mem hslash (cs.flatMap String.utf8EncodeChar)
      have ih : ∀ u ∈ t :: ts, ∃ text : String, u = Utf8.encode text :=
        fun u hu => isText_of_mem_splitSlashes (hrest ▸ hu)
      rw [hall] at hs
      rcases List.mem_cons.1 hs with rfl | hs
      · obtain ⟨text, ht⟩ := ih t List.mem_cons_self
        refine ⟨String.ofList (c :: text.toList), ?_⟩
        rw [Utf8.encode_ofList, List.flatMap_cons, ← Utf8.encode_eq, ht]
      · exact ih s (List.mem_cons_of_mem t hs)

end Path

/-! ## Identities -/

theorem resolve_normalize (directory : Path) (specifier : String) :
    resolve directory.normalize specifier = resolve directory specifier := by
  rw [resolve, resolve, Path.normalize_join, Path.normalize_normalize, ← Path.normalize_join]

/-- The file name of a module, in the directory of the module, means the module. -/
theorem ModuleId.resolve_fileName {id : ModuleId} (h : id.path.IsPlain) (hroot : id ≠ ⟨"/"⟩) :
    ∃ name : String, id.path.fileName? = some (Utf8.encode name) ∧ resolve id.directory name = .ok id := by
  have hdirectory := directory_eq h
  have hcanonical := (Path.IsCanonical.absolute h).normalize_eq
  obtain ⟨names, hnames, hid⟩ := h
  have hne : names ≠ [] := by
    rintro rfl
    exact hroot (path_inj.1 (hid.trans (by decide)))
  obtain ⟨front, last, rfl⟩ : ∃ front last, names = front ++ [last] :=
    ⟨names.dropLast, names.getLast hne, (List.dropLast_append_getLast hne).symm⟩
  have hlast : last ∈ front ++ [last] := List.mem_append_right _ List.mem_cons_self
  have hfront : ∀ s ∈ front, Path.IsWritten s := fun s hs => (hnames s (List.mem_append_left _ hs)).isWritten
  rw [hid, Path.place_ofPlace hnames, List.dropLast_concat] at hdirectory
  have hmem : last ∈ Path.splitSlashes id.path.bytes := by
    rw [hid, Path.splitSlashes_ofPlace hnames hne]
    exact List.mem_cons_of_mem _ hlast
  have hbytes : id.path.bytes = id.text.toList.flatMap String.utf8EncodeChar := Utf8.encode_eq id.text
  obtain ⟨name, rfl⟩ := Path.isText_of_mem_splitSlashes (hbytes ▸ hmem)
  have hjoin : (Path.ofPlace front).join (.ofString name) = id.path :=
    (Path.join_written hfront (hnames _ hlast).isWritten true).trans hid.symm
  refine ⟨name, ?_, ?_⟩
  · rw [hid, Path.fileName?_ofPlace hnames, List.getLast?_concat]
  · rw [resolve, hdirectory, hjoin, hcanonical, ofPath_path]

/-- **Plain form and joining go together.** Paths can be brought to plain form
before they are joined or only then, whatever bytes they have and wherever `..`
leads across the seam. So the spelling of a directory does not matter to imports,
nor that of a path to where it is from a working directory, and an absolute path
stays as it is in another one. And a module is found from its own directory, under
its file name. -/
theorem join_respects_normalize :
    (∀ a b : Path, (a.join b).normalize = (a.normalize.join b.normalize).normalize) ∧
    (∀ (directory : Path) (specifier : String),
      resolve directory specifier = resolve directory.normalize specifier) ∧
    (∀ p cwd : Path, p.absolutize cwd = p.normalize.absolutize cwd) ∧
    (∀ p cwd cwd' : Path, cwd.isAbsolute = true → (p.absolutize cwd).absolutize cwd' = p.absolutize cwd) ∧
    ∀ id : ModuleId, id.path.IsPlain → id ≠ ⟨"/"⟩ →
      ∃ name : String, id.path.fileName? = some (Utf8.encode name) ∧ resolve id.directory name = .ok id := by
  refine ⟨Path.normalize_join, ?_, ?_, ?_, ?_⟩
  · exact fun directory specifier => (resolve_normalize directory specifier).symm
  · exact fun p cwd => (p.absolutize_normalize cwd).symm
  · exact fun p cwd cwd' h => Path.absolutize_absolutize h p cwd'
  · exact fun id => ModuleId.resolve_fileName

/-- A directory that names are left of after it has gone up, a path that goes up
further than those names, and a module of its own directory. -/
theorem join_respects_normalize_seam :
    let a : Path := .ofString "../x/./y//z/.."
    let b : Path := .ofString "w/../../../../v/."
    let cwd : Path := .ofString "/app/"
    let id : ModuleId := ⟨"/app/über uns.js"⟩
    (a.join b).normalize = .ofString "../../v" ∧
      (a.normalize.join b.normalize).normalize = .ofString "../../v" ∧
      cwd.isAbsolute = true ∧ ((a.join b).absolutize cwd).absolutize a = .ofString "/v" ∧
      id.path.IsPlain ∧
      ∃ name : String, id.path.fileName? = some (Utf8.encode name) ∧ resolve id.directory name = .ok id := by
  intro a b cwd id
  obtain ⟨hjoin, -, -, hagain, hname⟩ := join_respects_normalize
  have hab : (a.join b).normalize = .ofString "../../v" := by decide +kernel
  have hcwd : cwd.isAbsolute = true := by decide +kernel
  have hv : (a.join b).absolutize cwd = .ofString "/v" := by decide +kernel
  have hplain : id.path.IsPlain := by
    have hid : Path.ofPlace id.path.place = id.path := by decide +kernel
    exact hid ▸ id.path.ofPlace_place_isPlain
  refine ⟨hab, hjoin a b ▸ hab, hcwd, ?_, hplain, hname id hplain (by decide)⟩
  rw [hagain (a.join b) cwd a hcwd, hv]

end Bundler
