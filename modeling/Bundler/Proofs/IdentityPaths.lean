/-
The identities of a bundle are absolute paths in plain form, so a file has one
of them only: imports mean the same module exactly if they lead to the same
place (`resolve_eq_iff`), along chains of imports of any length from the entry
(`Reachable.isPlain`).
-/
import Bundler.Proofs.PathPlaces
import Bundler.Proofs.SessionDeterminism

namespace Bundler

/-! ## Identities and paths -/

namespace ModuleId

theorem path_of_ofPath {p : Path} {id : ModuleId} (h : ofPath p = .ok id) : id.path = p := by
  unfold ofPath at h
  split at h
  · next text htext =>
    cases h
    exact congrArg Path.mk (Utf8.encode_of_decode? htext)
  · cases h

theorem ofPath_path (id : ModuleId) : ofPath id.path = .ok id := by
  have htext : id.path.text? = some id.text := Utf8.decode?_encode id.text
  simp only [ofPath, htext]

theorem path_inj {a b : ModuleId} : a.path = b.path ↔ a = b := by
  constructor
  · intro h
    exact bytes_inj.1 (congrArg Path.bytes h)
  · exact congrArg path

theorem path_place_dropLast_names (id : ModuleId) : ∀ s ∈ id.path.place.dropLast, Path.IsName s :=
  fun s hs => id.path.place_names s ((List.dropLast_sublist _).subset hs)

/-- The directory of a module is the place above it. -/
theorem directory_eq {id : ModuleId} (h : id.path.IsPlain) :
    id.directory = .ofPlace id.path.place.dropLast := by
  obtain ⟨names, hn, hid⟩ := h
  rw [directory, hid, Path.place_ofPlace hn]
  cases names with
  | nil => rfl
  | cons s ss => rw [Path.parent?_ofPlace hn (List.cons_ne_nil s ss), Option.getD_some]

/-! ## Imports -/

/-- Where an import leads: from the root if it is absolute, and otherwise from
the place that the module is in. -/
def importPlace (importer : ModuleId) (specifier : String) : Place :=
  (Path.ofString specifier).placeFrom importer.path.place.dropLast

/-- What an import means is the plain path of the place it leads to. -/
theorem path_of_resolve {importer target : ModuleId} {specifier : String} (hi : importer.path.IsPlain)
    (h : resolve importer.directory specifier = .ok target) :
    target.path = .ofPlace (importer.importPlace specifier) := by
  rw [directory_eq hi] at h
  rw [path_of_ofPath h, Path.normalize_eq_ofPlace (Path.join_isAbsolute (Path.ofPlace_isAbsolute _) _),
    Path.place_join, Path.place_ofPlace importer.path_place_dropLast_names, importPlace]

theorem importPlace_names (importer : ModuleId) (specifier : String) :
    ∀ s ∈ importer.importPlace specifier, Path.IsName s := by
  rw [importPlace, ← Path.place_ofPlace importer.path_place_dropLast_names, ← Path.place_join]
  exact Path.place_names _

end ModuleId

/-- Imports mean the same module exactly if they lead to the same place. -/
theorem resolve_eq_iff {m₁ m₂ t₁ t₂ : ModuleId} {s₁ s₂ : String} (hm₁ : m₁.path.IsPlain)
    (hm₂ : m₂.path.IsPlain) (h₁ : resolve m₁.directory s₁ = .ok t₁)
    (h₂ : resolve m₂.directory s₂ = .ok t₂) : t₁ = t₂ ↔ m₁.importPlace s₁ = m₂.importPlace s₂ := by
  rw [← ModuleId.path_inj, ModuleId.path_of_resolve hm₁ h₁, ModuleId.path_of_resolve hm₂ h₂,
    Path.ofPlace_inj (m₁.importPlace_names s₁) (m₂.importPlace_names s₂)]

/-! ## Chains of imports -/

namespace Discovery

theorem Reachable.isPlain {τ σ : Type} [Storage σ] {b : Builder τ} {storage : σ} {entry id : ModuleId}
    (hentry : entry.path.IsPlain) (h : Reachable (b.build storage) entry id) : id.path.IsPlain := by
  induction h with
  | refl => exact hentry
  | @tail importer imported _ himp ih =>
    obtain ⟨r, hb, ht⟩ := himp
    obtain ⟨specifier, hmem⟩ := DependencyMap.mem_targets.1 ht
    exact ⟨_, importer.importPlace_names specifier,
      ModuleId.path_of_resolve ih (Builder.resolve_of_build hb _ _ hmem)⟩

/-- The records of a table that discovery gives are those of modules the entry
needs. -/
theorem discover_reachable {plan : Plan} {turns : List Turn} {entry : ModuleId} {table : ModuleTable}
    (hfaithful : Faithful plan.build) (h : (discover plan turns entry).result = .ok table) :
    ∀ r ∈ table.records, plan.build r.id = .ok r ∧ Reachable plan.build entry r.id := by
  obtain ⟨taken, left, d, -, hd, hend⟩ := discover_cases plan turns entry
  generalize discover plan turns entry = o at h hend
  cases hend with
  | finished hf =>
    have hc := (hd.consistent hfaithful).1.dispatch plan.capacity
    cases h
    intro r hr
    have hr := ModuleTable.mem_sort.1 hr
    exact ⟨hc.built r hr, hc.reachable r.id (.inl (hc.mem_visited.2 (.inl (ModuleTable.mem_ids.2 ⟨r, hr, rfl⟩))))⟩
  | outOfTurns => cases h
  | failed => cases h

end Discovery

/-! ## Tables -/

namespace ModuleTable

/-- An identity stands in a table, as that of a record or as what an import
means. -/
def Mentions (t : ModuleTable) (id : ModuleId) : Prop :=
  id ∈ t.ids ∨ ∃ r ∈ t.records, id ∈ r.deps.targets

/-- The identities in a table stand for files: each for one, and each file has
one. -/
structure NamesFiles (t : ModuleTable) : Prop where
  isPlain : ∀ id, t.Mentions id → id.path.IsPlain
  /-- Imports mean identities of the same bytes exactly if they lead to the same
  place. -/
  bytes_eq_iff : ∀ r₁ ∈ t.records, ∀ r₂ ∈ t.records, ∀ s₁ t₁ s₂ t₂,
    (s₁, t₁) ∈ r₁.deps → (s₂, t₂) ∈ r₂.deps →
    (t₁.bytes = t₂.bytes ↔ r₁.id.importPlace s₁ = r₂.id.importPlace s₂)
  /-- No path, and so no file that is kept under it, equals two identities. -/
  eq_of_same : ∀ id₁ id₂, t.Mentions id₁ → t.Mentions id₂ →
    ∀ p, id₁.path.same p = true → id₂.path.same p = true → id₁ = id₂
  /-- Nor does anything in a tree of files have two. -/
  eq_of_locate : ∀ id₁ id₂, t.Mentions id₁ → t.Mentions id₂ →
    ∀ (files : FileTree) place, files.locate id₁.path = .ok place → files.locate id₂.path = .ok place →
      id₁ = id₂

/-- Records whose imports were resolved, in a table of plain identities. -/
theorem NamesFiles.of_resolved {t : ModuleTable} (hplain : ∀ id, t.Mentions id → id.path.IsPlain)
    (hdeps : ∀ r ∈ t.records, ∀ s target, (s, target) ∈ r.deps →
      resolve r.id.directory s = .ok target) : t.NamesFiles where
  isPlain := hplain
  bytes_eq_iff := by
    intro r₁ hr₁ r₂ hr₂ s₁ t₁ s₂ t₂ h₁ h₂
    have hrecord : ∀ r ∈ t.records, r.id.path.IsPlain := fun r hr =>
      hplain r.id (.inl (mem_ids.2 ⟨r, hr, rfl⟩))
    rw [ModuleId.bytes_inj]
    exact resolve_eq_iff (hrecord r₁ hr₁) (hrecord r₂ hr₂) (hdeps r₁ hr₁ s₁ t₁ h₁)
      (hdeps r₂ hr₂ s₂ t₂ h₂)
  eq_of_same := by
    intro id₁ id₂ h₁ h₂ p hp₁ hp₂
    exact ModuleId.path_inj.1 ((hplain id₁ h₁).eq_of_same (hplain id₂ h₂) hp₁ hp₂)
  eq_of_locate := by
    intro id₁ id₂ h₁ h₂ files place hl₁ hl₂
    exact ModuleId.path_inj.1 (FileTree.eq_of_locate (hplain id₁ h₁) (hplain id₂ h₂) hl₁ hl₂)

end ModuleTable

namespace Session

open Discovery

variable {σ τ : Type} [Storage σ] {storage : σ} {s : Session τ}

theorem entry_isPlain {entry : ModuleId} (hcwd : s.workingDirectory.isAbsolute = true)
    (h : s.entry = .ok entry) : entry.path.IsPlain := by
  unfold Session.entry at h
  split at h
  · cases h
  · split at h
    · next hid =>
      cases h
      rw [ModuleId.path_of_ofPath hid, Path.absolutize,
        Path.normalize_eq_ofPlace (Path.join_isAbsolute hcwd _)]
      exact Path.ofPlace_place_isPlain _
    · cases h

theorem entry_of_prepare {entry : ModuleId} (h : s.prepare = .ok entry) :
    s.entry = .ok entry := (of_prepare h).2

/-- The table of a run that succeeds is the one that discovery has found. -/
theorem build_ok {turns : List Turn} {output : BundleOutput}
    (h : (s.build storage turns).1 = .ok output) :
    ∃ entry, s.entry = .ok entry ∧
      (discover (s.plan storage) turns entry).result = .ok output.table := by
  unfold build at h
  split at h
  · cases h
  next entry hprepare =>
  split at h
  · cases h
  next table hd =>
  simp only [complete] at h
  split at h
  · cases h
    exact ⟨entry, entry_of_prepare hprepare, hd⟩
  · cases h

theorem namesFiles_of_discover {υ : Type} {b : Builder υ} {entry : ModuleId} {jobs timeoutMs : Nat}
    {turns : List Turn} {table : ModuleTable}
    (hcwd : s.workingDirectory.isAbsolute = true) (he : s.entry = .ok entry)
    (h : (discover ⟨b.build storage, jobs, timeoutMs⟩ turns entry).result = .ok table) :
    table.NamesFiles := by
  have hrecords := discover_reachable (b.build_faithful storage) h
  have hentry := entry_isPlain hcwd he
  refine .of_resolved ?_ fun r hr => Builder.resolve_of_build (hrecords r hr).1
  rintro id (hid | ⟨r, hr, hid⟩)
  · obtain ⟨r, hr, rfl⟩ := ModuleTable.mem_ids.1 hid
    exact Reachable.isPlain hentry (hrecords r hr).2
  · obtain ⟨hb, hreach⟩ := hrecords r hr
    exact Reachable.isPlain hentry (hreach.tail ⟨r, hb, hid⟩)

/-- **The identities in the table of a run stand for files**, one for each:
whatever is stored, whatever the imports are, and in whichever language of
modules. -/
theorem build_namesFiles {turns : List Turn} (hcwd : s.workingDirectory.isAbsolute = true) :
    (∀ output, (s.build storage turns).1 = .ok output → output.table.NamesFiles) ∧
    ∀ (υ : Type) (b : Builder υ) (entry : ModuleId) (jobs timeoutMs : Nat) (table : ModuleTable),
      s.entry = .ok entry →
      (discover ⟨b.build storage, jobs, timeoutMs⟩ turns entry).result = .ok table →
      table.NamesFiles := by
  refine ⟨?_, fun υ b entry jobs timeoutMs table => namesFiles_of_discover hcwd⟩
  intro output h
  obtain ⟨entry, he, hd⟩ := build_ok h
  exact namesFiles_of_discover hcwd he hd

/-- Two modules that import each other, in spellings of their own. -/
theorem build_namesFiles_spellings :
    let storage : MemoryStorage := .ofList
      [(.ofString "/app/m.js", "import './lib/../b.js';\nimport '/app//b.js';"),
       (.ofString "/app/b.js", "import '../../app/./m.js';\nimport 'b.js';")]
    let s : Session Script.Module :=
      ⟨{ Config.defaults 1 with entry := some (.ofString "src/../m.js") }, .ofString "/app/", scriptTransform⟩
    let turns : List Turn := [.report 0, .report 0]
    s.workingDirectory.isAbsolute = true ∧
      ∃ output, (s.build storage turns).1 = .ok output ∧ output.table.NamesFiles := by
  intro storage s turns
  have hcwd : s.workingDirectory.isAbsolute = true := by decide +kernel
  have hv : s.config.validate = .ok () := by decide +kernel
  have he : s.entry = .ok ⟨"/app/m.js"⟩ := by decide +kernel
  have honTime : onTime (s.plan storage) turns (.start ⟨"/app/m.js"⟩) = true := by decide +kernel
  have hfound : (discover (s.plan storage) turns ⟨"/app/m.js"⟩).result.toOption.isSome = true := by
    decide +kernel
  refine ⟨hcwd, ?_⟩
  rcases build_onTime hv he honTime with ⟨t, bundle, -, -, hok⟩ | ⟨-, -, e, -, -, herr⟩
  · exact ⟨_, hok, (build_namesFiles hcwd).1 _ hok⟩
  · simp only [build, prepare_ok hv he] at herr
    split at herr
    · next hd => rw [hd] at hfound; cases hfound
    · simp only [complete] at herr
      split at herr <;> cases herr

end Session

end Bundler
