/-
Paths that are texts, and so identities of modules. A slash is a character of its
own, so a path is a text exactly if each of its segments is
(`isText_iff_segments`), and cutting, dropping and joining segments makes no
text out of bytes that are none, nor the reverse. The plain form of a path has
only segments of the path, so what `..` cancels does not matter
(`isText_normalize_of_cancels`), and the imports of a module, whose own path is
a text, always resolve (`resolve_directory`).
-/
import Bundler.Proofs.BuiltRecords
import Bundler.Proofs.PathJoins

namespace Bundler

/-! ## Texts -/

namespace Utf8

/-- Bytes that are those of a text. -/
def IsText (bytes : List UInt8) : Prop := ∃ text : String, bytes = encode text

theorem isText_encode (text : String) : IsText (encode text) := ⟨text, rfl⟩

theorem decode?_eq_none_iff {bytes : List UInt8} : decode? bytes = none ↔ ¬ IsText bytes := by
  constructor
  · rintro h ⟨text, rfl⟩
    rw [decode?_encode] at h
    cases h
  · intro h
    cases hd : decode? bytes with
    | none => rfl
    | some text => exact absurd ⟨text, (encode_of_decode? hd).symm⟩ h

theorem IsText.append {a b : List UInt8} (ha : IsText a) (hb : IsText b) : IsText (a ++ b) := by
  obtain ⟨s, rfl⟩ := ha
  obtain ⟨t, rfl⟩ := hb
  refine ⟨String.ofList (s.toList ++ t.toList), ?_⟩
  rw [encode_ofList, List.flatMap_append, ← encode_eq, ← encode_eq]

end Utf8

namespace Path

open Utf8 (IsText)

theorem isText_nil : IsText [] := ⟨"", rfl⟩

theorem isText_slash : IsText [slash] := ⟨"/", rfl⟩

theorem isText_dots : IsText [dot, dot] := ⟨"..", rfl⟩

/-! ## Segments -/

theorem joinSlashes_splitSlashes : ∀ bytes : List UInt8, joinSlashes (splitSlashes bytes) = bytes
  | [] => rfl
  | b :: rest => by
    have ih := joinSlashes_splitSlashes rest
    obtain ⟨s, ss, hrest⟩ := List.exists_cons_of_ne_nil (splitSlashes_ne_nil rest)
    rw [hrest] at ih
    simp only [splitSlashes, hrest]
    split
    · next hb => rw [joinSlashes_cons (List.cons_ne_nil s ss), ih, hb, List.nil_append]
    · cases ss with
      | nil => rw [← ih]; rfl
      | cons t ts => rw [← ih]; rfl

theorem isText_joinSlashes : ∀ {segments : List Segment}, (∀ s ∈ segments, IsText s) → IsText (joinSlashes segments)
  | [], _ => isText_nil
  | [s], h => h s List.mem_cons_self
  | s :: t :: ss, h => by
    have hrest := isText_joinSlashes fun u hu => h u (List.mem_cons_of_mem s hu)
    rw [joinSlashes_cons (List.cons_ne_nil t ss)]
    exact (h s List.mem_cons_self).append (isText_slash.append hrest)

/-- Bytes are a text exactly if each stretch between slashes is. -/
theorem isText_iff_segments {bytes : List UInt8} : IsText bytes ↔ ∀ s ∈ splitSlashes bytes, IsText s := by
  constructor
  · rintro ⟨text, rfl⟩ s hs
    rw [Utf8.encode_eq] at hs
    exact isText_of_mem_splitSlashes hs
  · intro h
    rw [← joinSlashes_splitSlashes bytes]
    exact isText_joinSlashes h

/-! ## Plain form -/

theorem Descent.mem_names_step {d : Descent} {c : Component} {s : Segment} (h : s ∈ (d.step c).names) :
    c = .name s ∨ s ∈ d.names := by
  cases c with
  | root => exact .inr h
  | current => exact .inr h
  | name t =>
    rcases List.mem_cons.1 h with rfl | h
    · exact .inl rfl
    · exact .inr h
  | parent =>
    rw [step] at h
    split at h
    · next n names hnames => exact .inr (hnames ▸ List.mem_cons_of_mem n h)
    · split at h <;> exact .inr h

theorem eq_of_componentOf {isFirst : Bool} {x s : Segment} (h : componentOf isFirst x = some (.name s)) : x = s := by
  unfold componentOf at h
  split_ifs at h <;> cases h
  rfl

/-- A way goes down names that have been read, and those it has gone down before. -/
theorem Descent.mem_names_foldl_visit : ∀ {segments : List Segment} {d : Descent} {s : Segment},
    s ∈ (segments.foldl visit d).names → s ∈ segments ∨ s ∈ d.names
  | [], _, _, h => .inr h
  | x :: segments, d, s, h => by
    rw [List.foldl_cons] at h
    rcases mem_names_foldl_visit h with hs | hs
    · exact .inl (List.mem_cons_of_mem x hs)
    · unfold visit readSegment at hs
      split at hs
      · next c hc =>
        rcases mem_names_step hs with rfl | hs
        · exact .inl (eq_of_componentOf hc ▸ List.mem_cons_self)
        · exact .inr hs
      · exact .inr hs

/-- A way down names that are texts is written as a text. -/
theorem Descent.isText_toPath {d : Descent} (h : ∀ s ∈ d.names, IsText s) : IsText d.toPath.bytes := by
  have hsegments : ∀ s ∈ d.segments, IsText s := by
    intro s hs
    rcases List.mem_append.1 hs with hs | hs
    · exact List.eq_of_mem_replicate hs ▸ isText_dots
    · exact h s (List.mem_reverse.1 hs)
  rw [toPath_eq, ofSegments]
  split
  · exact isText_slash.append (isText_joinSlashes hsegments)
  · split
    · exact ⟨".", rfl⟩
    · exact isText_joinSlashes hsegments

/-- What is cancelled in a path need be no text for its plain form to be one. -/
theorem isText_normalize_of_cancels {p : Path} {before cancelled after : List Segment}
    (hp : splitSlashes p.bytes = before ++ cancelled ++ after) (hcancels : Cancels cancelled)
    (htext : ∀ s ∈ before ++ after, IsText s) : IsText p.normalize.bytes := by
  refine Descent.isText_toPath fun s hs => ?_
  rw [descent_eq_foldl, hp, List.foldl_append, List.foldl_append, hcancels.foldl_visit, ← List.foldl_append] at hs
  exact htext s ((Descent.mem_names_foldl_visit hs).resolve_right List.not_mem_nil)

theorem isText_normalize {p : Path} (h : IsText p.bytes) : IsText p.normalize.bytes := by
  have hsplit : splitSlashes p.bytes = splitSlashes p.bytes ++ [] ++ [] := by simp
  exact isText_normalize_of_cancels hsplit .nil (by simpa using isText_iff_segments.1 h)

/-! ## Directories -/

theorem mem_of_mem_trimSegments {isAbsolute : Bool} {segments : List Segment} {s : Segment}
    (h : s ∈ trimSegments isAbsolute segments) : s ∈ segments := by
  simp only [trimSegments] at h
  split at h
  · split at h
    · exact List.mem_singleton.1 h ▸ List.mem_cons_self
    · exact absurd h List.not_mem_nil
  · exact List.mem_reverse.1 ((List.dropWhile_sublist _).subset (List.mem_reverse.1 h))

/-- Segments at the end of a text can be dropped. -/
theorem isText_trimSegments {bytes : List UInt8} (h : IsText bytes) (isAbsolute : Bool) :
    IsText (joinSlashes (trimSegments isAbsolute (trimSegments isAbsolute (splitSlashes bytes)).dropLast)) := by
  refine isText_joinSlashes fun s hs => isText_iff_segments.1 h s ?_
  exact mem_of_mem_trimSegments ((List.dropLast_sublist _).subset (mem_of_mem_trimSegments hs))

/-- The directory that a text is in is a text. -/
theorem isText_parent? {p q : Path} (h : IsText p.bytes) (hq : p.parent? = some q) : IsText q.bytes := by
  unfold parent? at hq
  split at hq
  · next habs =>
    obtain ⟨rest, hrest⟩ := exists_bytes_of_isAbsolute habs
    have htext : IsText p.bytes.tail := by
      refine isText_iff_segments.2 fun s hs => isText_iff_segments.1 h s ?_
      rw [hrest, List.tail_cons] at hs
      rw [hrest, splitSlashes_slash]
      exact List.mem_cons_of_mem _ hs
    split at hq
    · cases hq
    · cases hq
      exact isText_slash.append (isText_trimSegments htext true)
  · split at hq
    · cases hq
    · cases hq
      exact isText_trimSegments h false

theorem isText_join {base p : Path} (hbase : IsText base.bytes) (hp : IsText p.bytes) :
    IsText (base.join p).bytes := by
  unfold join
  split
  · exact hp
  · split
    · exact hbase.append hp
    · exact hbase.append (isText_slash.append hp)

end Path

/-! ## Identities -/

open Utf8 (IsText)

namespace ModuleId

/-- A path is an identity exactly if it is a text, and each path is one of its
own. -/
theorem ofPath_eq_ok_iff {p : Path} {id : ModuleId} : ofPath p = .ok id ↔ id.path = p := by
  constructor
  · exact path_of_ofPath
  · rintro rfl
    exact ofPath_path id

theorem ofPath_eq_error_iff {p : Path} {e : NonUtf8Path} :
    ofPath p = .error e ↔ e = ⟨p⟩ ∧ ¬ IsText p.bytes := by
  rw [← Utf8.decode?_eq_none_iff, ofPath, Path.text?]
  cases Utf8.decode? p.bytes with
  | none => simp [eq_comm]
  | some text => simp

theorem isText_directory (id : ModuleId) : IsText id.directory.bytes := by
  unfold directory
  cases hparent : id.path.parent? with
  | none => exact Path.isText_slash
  | some q => exact Path.isText_parent? (Utf8.isText_encode id.text) hparent

end ModuleId

theorem resolve_of_isText {directory : Path} {specifier : String}
    (h : IsText (directory.join (.ofString specifier)).normalize.bytes) :
    ∃ target, resolve directory specifier = .ok target := by
  cases hr : resolve directory specifier with
  | ok target => exact ⟨target, rfl⟩
  | error e => exact absurd h (ModuleId.ofPath_eq_error_iff.1 hr).2

/-- The imports of a module always resolve. -/
theorem resolve_directory (id : ModuleId) (specifier : String) :
    ∃ target, resolve id.directory specifier = .ok target :=
  resolve_of_isText (Path.isText_normalize (Path.isText_join id.isText_directory (Utf8.isText_encode specifier)))

/-! ## Builds -/

namespace Builder

variable {σ τ : Type} [Storage σ] {b : Builder τ} {storage : σ} {id : ModuleId} {source : String} {tree : τ}

theorem resolveImports_directory (id : ModuleId) : ∀ (specifiers : List String) (deps : DependencyMap),
    ∃ out, resolveImports id.directory specifiers deps = .ok out
  | [], deps => ⟨deps, rfl⟩
  | specifier :: rest, deps => by
    unfold resolveImports
    split
    · exact resolveImports_directory id rest deps
    · obtain ⟨target, ht⟩ := resolve_directory id specifier
      simp only [ht]
      exact resolveImports_directory id rest _

/-- From a module that was understood on, only the code that is generated decides
how its build ends. -/
theorem build_of_parse (hread : Storage.read storage id.path = .ok source)
    (hparse : b.transform.parse source = .ok tree) :
    ∃ deps, resolveImports id.directory (b.transform.imports tree) [] = .ok deps ∧
      b.build storage id =
        match b.transform.generate tree b.target with
        | .error e => .error (.transform id.path e)
        | .ok code => .ok { id, code, deps, contentHash := sha256 (Utf8.encode source) } := by
  obtain ⟨deps, hdeps⟩ := resolveImports_directory id (b.transform.imports tree) []
  refine ⟨deps, hdeps, ?_⟩
  cases hgenerate : b.transform.generate tree b.target with
  | error e => simp only [build, buildSource, hread, hparse, hdeps, hgenerate]
  | ok code => simp only [build, buildSource, hread, hparse, hdeps, hgenerate]

end Builder

/-- **Resolving fails exactly where the path that is meant is no text**, and tells
of that path. Which bytes a directory has otherwise does not matter: not those
that `..` cancels, nor any for an absolute import. An identity stands for one
path, so paths that are no texts have none. The imports of modules always
resolve, so a build that has come to them can fail in making the code only. -/
theorem resolve_refuses_exactly :
    (∀ (directory : Path) (specifier : String),
      let joined := directory.join (.ofString specifier)
      (∀ e, resolve directory specifier = .error e ↔
        e = ⟨joined.normalize⟩ ∧ ∃ s ∈ Path.splitSlashes joined.normalize.bytes, ¬ IsText s) ∧
      (∀ target, resolve directory specifier = .ok target ↔ target.path = joined.normalize) ∧
      (∀ before cancelled after, Path.splitSlashes joined.bytes = before ++ cancelled ++ after →
        Path.Cancels cancelled → (∀ s ∈ before ++ after, IsText s) →
        ∃ target, resolve directory specifier = .ok target) ∧
      ((Path.ofString specifier).isAbsolute = true → ∃ target, resolve directory specifier = .ok target)) ∧
    (∀ p q : Path, p ≠ q → ∀ id, ModuleId.ofPath p = .ok id → ModuleId.ofPath q ≠ .ok id) ∧
    (∀ p : Path, ¬ IsText p.bytes → ModuleId.ofPath p = .error ⟨p⟩) ∧
    (∀ (id : ModuleId) (specifier : String), ∃ target, resolve id.directory specifier = .ok target) ∧
    ∀ {σ τ : Type} [Storage σ] (b : Builder τ) (storage : σ) (id : ModuleId) (source : String) (tree : τ),
      Storage.read storage id.path = .ok source → b.transform.parse source = .ok tree →
      ∀ e, b.build storage id = .error e →
        ∃ cause, b.transform.generate tree b.target = .error cause ∧ e = .transform id.path cause := by
  refine ⟨?_, ?_, ?_, resolve_directory, ?_⟩
  · intro directory specifier joined
    refine ⟨?_, fun target => ModuleId.ofPath_eq_ok_iff, ?_, ?_⟩
    · intro e
      rw [resolve, ModuleId.ofPath_eq_error_iff, Path.isText_iff_segments]
      simp only [not_forall, exists_prop]
      rfl
    · intro before cancelled after hsplit hcancels htext
      exact resolve_of_isText (Path.isText_normalize_of_cancels hsplit hcancels htext)
    · intro habs
      refine resolve_of_isText ?_
      rw [Path.join_of_isAbsolute habs]
      exact Path.isText_normalize (Utf8.isText_encode specifier)
  · intro p q hne id hp hq
    exact hne ((ModuleId.ofPath_eq_ok_iff.1 hp).symm.trans (ModuleId.ofPath_eq_ok_iff.1 hq))
  · exact fun p h => ModuleId.ofPath_eq_error_iff.2 ⟨rfl, h⟩
  · intro σ τ _ b storage id source tree hread hparse e herror
    obtain ⟨deps, -, hbuild⟩ := Builder.build_of_parse hread hparse
    rw [hbuild] at herror
    split at herror
    · next cause hcause =>
      cases herror
      exact ⟨cause, hcause, rfl⟩
    · cases herror

/-- A directory whose last name is no text, with an import beside it, one above it
and one elsewhere; and a module that imports all of them. -/
theorem resolve_refuses_exactly_names :
    let a : Segment := Utf8.encode "a"
    let directory : Path := .ofPlace [a, [0xff]]
    let beside : Path := .ofPlace [a, [0xff], Utf8.encode "b.js"]
    let storage : MemoryStorage := .ofList [(.ofString "/app/m.js", "")]
    let b : Builder (List String) :=
      ⟨{ parse := fun _ => .ok ["./b.js", "../b.js", "/b.js"], imports := id,
         generate := fun _ _ => .error "no code" }, .es5⟩
    resolve directory "./b.js" = .error ⟨beside⟩ ∧
      (∃ target, resolve directory "../b.js" = .ok target ∧ target.path = .ofString "/a/b.js") ∧
      (∃ target, resolve directory "/b.js" = .ok target ∧ target.path = .ofString "/b.js") ∧
      ModuleId.ofPath beside = .error ⟨beside⟩ ∧
      ∃ cause, b.build storage ⟨"/app/m.js"⟩ = .error (.transform (.ofString "/app/m.js") cause) := by
  intro a directory beside storage b
  obtain ⟨hresolve, -, hno, -, hbuild⟩ := resolve_refuses_exactly
  have hname : Path.IsName [0xff] := ⟨by decide, by decide, by decide, by decide⟩
  have hinvalid : ¬ IsText [0xff] := Utf8.decode?_eq_none_iff.1 (by decide +kernel)
  have hbeside : ((directory.join (.ofString "./b.js")).normalize) = beside := by decide +kernel
  have hmem : [0xff] ∈ Path.splitSlashes beside.bytes := by decide +kernel
  have hcancels : Path.Cancels [[0xff], [Path.dot, Path.dot]] := .pair hname .nil
  have hsplit : Path.splitSlashes (directory.join (.ofString "../b.js")).bytes =
      [[], a] ++ [[0xff], [Path.dot, Path.dot]] ++ [Utf8.encode "b.js"] := by decide +kernel
  have htexts : ∀ s ∈ [[], a] ++ [Utf8.encode "b.js"], IsText s := by
    simp only [List.cons_append, List.nil_append, List.forall_mem_cons, List.not_mem_nil, false_imp_iff,
      implies_true, and_true]
    exact ⟨Path.isText_nil, Utf8.isText_encode "a", Utf8.isText_encode "b.js"⟩
  refine ⟨?_, ?_, ?_, ?_, ?_⟩
  · exact ((hresolve directory "./b.js").1 ⟨beside⟩).2 (by rw [hbeside]; exact ⟨rfl, _, hmem, hinvalid⟩)
  · obtain ⟨-, hpath, hcancelled, -⟩ := hresolve directory "../b.js"
    obtain ⟨target, ht⟩ := hcancelled _ _ _ hsplit hcancels htexts
    exact ⟨target, ht, ((hpath target).1 ht).trans (by decide +kernel)⟩
  · obtain ⟨-, hpath, -, habsolute⟩ := hresolve directory "/b.js"
    obtain ⟨target, ht⟩ := habsolute (by decide +kernel)
    exact ⟨target, ht, ((hpath target).1 ht).trans (by decide +kernel)⟩
  · exact hno beside fun h => hinvalid (Path.isText_iff_segments.1 h _ hmem)
  · have hread : Storage.read storage (ModuleId.path ⟨"/app/m.js"⟩) = .ok "" := by decide +kernel
    have hfails : (b.build storage ⟨"/app/m.js"⟩).toOption.isSome = false := by decide +kernel
    cases hb : b.build storage ⟨"/app/m.js"⟩ with
    | error e =>
      obtain ⟨cause, -, rfl⟩ := hbuild b storage ⟨"/app/m.js"⟩ "" _ hread rfl e hb
      exact ⟨cause, rfl⟩
    | ok r =>
      rw [hb] at hfails
      cases hfails

end Bundler
