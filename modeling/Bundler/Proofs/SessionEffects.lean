/-
What a run leaves in the storage. To make the artifact is to read only, and what
comes of it depends on what is read (`build_congr`), in fact on the modules of
the table only (`build_congr_of_made`), and not on the order of the reports
(`build_unique`).
The artifact is then handed to the storage in one write, the last thing that is
done; whatever fails before it leaves all as it was (`bundle_of_error`,
`bundle_of_ok`). In memory such a write changes what is found at its path, and
nothing else (`MemoryStorage.Wrote`).
-/
import Bundler.Proofs.ArtifactContents
import Bundler.Proofs.SessionOutcome

namespace Bundler

open Discovery

/-! ## Memory -/

namespace MemoryStorage

variable {s : MemoryStorage} {p : Path} {text : String}

theorem contents?_add (s : MemoryStorage) (p : Path) (text : String) (q : Path) :
    (s.add p text).contents? q = if p.same q then some text else s.contents? q := by
  simp only [add, contents?, List.find?_cons, List.find?_filter]
  cases h : p.same q with
  | true => rfl
  | false =>
    -- What is dropped at `p` is not found at `q`.
    have hkept : ∀ f : Path × String, f.1.same q = true → f.1.same p = false := by
      intro f hq
      rw [Bool.eq_false_iff]
      intro hp
      simp only [Path.same, beq_iff_eq, beq_eq_false_iff_ne] at h hp hq
      exact h (hp.symm.trans hq)
    have hpred : (fun f : Path × String => decide ((!f.1.same p) = true ∧ f.1.same q = true)) =
        fun f => f.1.same q := by
      funext f
      cases hq : f.1.same q with
      | true => simp [hkept f hq]
      | false => simp
    simp only [hpred, Bool.false_eq_true, if_false]

/-- What a write of a text to a path leaves: it is noted, the path has the text
in all its spellings, and no other path is changed. -/
structure Wrote (s : MemoryStorage) (p : Path) (text : String) (s' : MemoryStorage) : Prop where
  writable : s.readOnly.any (·.same p) = false
  writes : s'.writes = s.writes ++ [p]
  readOnly : s'.readOnly = s.readOnly
  written : ∀ q, p.same q = true → s'.contents? q = some text
  others : ∀ q, p.same q = false → s'.contents? q = s.contents? q

/-- A write is refused for a path that is read-only, and succeeds otherwise. -/
theorem write_cases (s : MemoryStorage) (p : Path) (text : String) :
    (s.readOnly.any (·.same p) = true ∧ Storage.write s p text = (.error .readOnly, s)) ∨
    ((Storage.write s p text).1 = .ok () ∧ s.Wrote p text (Storage.write s p text).2) := by
  simp only [Storage.write]
  cases h : s.readOnly.any (·.same p) with
  | true => exact .inl ⟨rfl, rfl⟩
  | false =>
    refine .inr ⟨rfl, h, rfl, rfl, ?_, ?_⟩
    · intro q hq
      exact (contents?_add s p text q).trans (if_pos hq)
    · intro q hq
      exact (contents?_add s p text q).trans (if_neg (by simp [hq]))

end MemoryStorage

namespace Session

variable {σ ρ τ : Type} [Storage σ] [Storage ρ] {storage : σ} {s : Session τ} {turns : List Turn}

/-! ## Making the artifact -/

/-- What is made depends on nothing in a storage but what is read from it. -/
theorem build_congr {other : ρ} (h : ∀ p, Storage.read storage p = Storage.read other p)
    (turns : List Turn) : s.build storage turns = s.build other turns := by
  have hbuilds : s.builder.build storage = s.builder.build other := by
    funext id
    simp only [Builder.build, h]
  simp only [build, plan, hbuilds]

/-- What a run that succeeds has made. -/
theorem build_made {output : BundleOutput} (h : (s.build storage turns).1 = .ok output) :
    ∃ entry t bundle, s.prepare = .ok entry ∧ Closed (s.builder.build storage) entry t ∧
      emit entry t.sort s.config.loader = .ok bundle ∧ output = ⟨entry, t.sort, .ofTable t.sort, bundle⟩ := by
  cases hprepare : s.prepare with
  | error e => simp only [build, hprepare] at h; cases h
  | ok entry =>
    cases hd : (discover (s.plan storage) turns entry).result with
    | error e => simp only [build, hprepare, hd] at h; cases h
    | ok table =>
      obtain ⟨bundle, hbundle, hok⟩ := build_of_discover hprepare hd
      obtain ⟨taken, left, d, -, hhead, hend⟩ := discover_cases (s.plan storage) turns entry
      obtain ⟨t, ht, rfl, -⟩ :=
        hend.of_ok (jobs_pos_of_prepare hprepare) (s.builder.build_faithful storage) hhead hd
      exact ⟨entry, t, bundle, rfl, ht, hbundle, Except.ok.inj (h.symm.trans hok)⟩

/-- Runs that succeed have the same output, in whichever order builds report. -/
theorem build_unique {turns' : List Turn} {output output' : BundleOutput}
    (h : (s.build storage turns).1 = .ok output) (h' : (s.build storage turns').1 = .ok output') :
    output' = output := by
  obtain ⟨entry, t, bundle, hentry, ht, hemit, rfl⟩ := build_made h
  obtain ⟨entry', t', bundle', hentry', ht', hemit', rfl⟩ := build_made h'
  obtain rfl : entry = entry' := Except.ok.inj (hentry.symm.trans hentry')
  rw [ht'.sort_eq ht] at hemit' ⊢
  obtain rfl : bundle = bundle' := Except.ok.inj (hemit.symm.trans hemit')
  rfl

/-- Where all modules of an output are built as before, all runs go as before. -/
theorem build_congr_of_made {other : ρ} {output : BundleOutput} (h : (s.build storage turns).1 = .ok output)
    (hsame : ∀ id ∈ output.table.ids, s.builder.build other id = s.builder.build storage id)
    (turns' : List Turn) : s.build other turns' = s.build storage turns' := by
  obtain ⟨entry, t, bundle, hprepare, ht, -, rfl⟩ := build_made h
  have hagree : Agree (s.plan storage) (s.plan other) entry :=
    ⟨rfl, rfl, fun id hid => hsame id (ModuleTable.mem_sort_ids.2 ((ht.mem_ids id).2 hid))⟩
  simp only [build, hprepare, hagree.discover_eq (s.builder.build_faithful storage) turns']

/-! ## Writing it -/

/-- What fails before the artifact is made is the outcome, and nothing is
written. -/
theorem bundle_of_error {e : BundleError} (h : (s.build storage turns).1 = .error e) :
    (s.bundle storage turns).1.1 = .error e ∧ (s.bundle storage turns).2 = storage := by
  unfold bundle
  split
  · next hbuild =>
    rw [hbuild] at h
    cases h
    exact ⟨rfl, rfl⟩
  · next hbuild => rw [hbuild] at h; cases h

/-- The storage is what one write leaves, and the outcome is that of the write. -/
theorem bundle_of_ok {output : BundleOutput} (h : (s.build storage turns).1 = .ok output) :
    (s.bundle storage turns).2 = (Storage.write storage s.outputPath output.bundle.text).2 ∧
    (s.bundle storage turns).1.1 =
      match (Storage.write storage s.outputPath output.bundle.text).1 with
      | .ok () => .ok (s.summary output)
      | .error e => .error (.io s.outputPath e.message) := by
  unfold bundle
  split
  · next hbuild => rw [hbuild] at h; cases h
  · next hbuild =>
    rw [hbuild] at h
    cases h
    split <;> next hwrite => simp only [hwrite, and_self]

/-- In memory, a run that fails changes nothing, also when the write is refused. -/
theorem memory_of_error {storage : MemoryStorage} {e : BundleError}
    (h : (s.bundle storage turns).1.1 = .error e) : (s.bundle storage turns).2 = storage ∧
      ((s.build storage turns).1 = .error e ∨
        e = .io s.outputPath FileError.readOnly.message ∧
          storage.readOnly.any (·.same s.outputPath) = true) := by
  cases hbuild : (s.build storage turns).1 with
  | error e' =>
    obtain ⟨herror, hsame⟩ := bundle_of_error hbuild
    cases herror.symm.trans h
    exact ⟨hsame, .inl rfl⟩
  | ok output =>
    obtain ⟨hleft, houtcome⟩ := bundle_of_ok hbuild
    rcases storage.write_cases s.outputPath output.bundle.text with
      ⟨hreadOnly, hwrite⟩ | ⟨hwrite, -⟩ <;> rw [hwrite] at houtcome
    · rw [hwrite] at hleft
      cases houtcome.symm.trans h
      exact ⟨hleft, .inr ⟨rfl, hreadOnly⟩⟩
    · cases houtcome.symm.trans h

/-- In memory, a run that succeeds has written the text of its output. -/
theorem memory_of_ok {storage : MemoryStorage} {summary : BundleSummary}
    (h : (s.bundle storage turns).1.1 = .ok summary) : ∃ output,
      (s.build storage turns).1 = .ok output ∧ summary = s.summary output ∧
        storage.Wrote s.outputPath output.bundle.text (s.bundle storage turns).2 := by
  cases hbuild : (s.build storage turns).1 with
  | error e => cases (bundle_of_error hbuild).1.symm.trans h
  | ok output =>
    obtain ⟨hleft, houtcome⟩ := bundle_of_ok hbuild
    rcases storage.write_cases s.outputPath output.bundle.text with
      ⟨-, hwrite⟩ | ⟨hwrite, hwrote⟩ <;> rw [hwrite] at houtcome
    · cases houtcome.symm.trans h
    · cases houtcome.symm.trans h
      exact ⟨output, rfl, rfl, hleft ▸ hwrote⟩

theorem memory_ok_of_build {storage : MemoryStorage} {output : BundleOutput}
    (h : (s.build storage turns).1 = .ok output)
    (hwritable : storage.readOnly.any (·.same s.outputPath) = false) :
    (s.bundle storage turns).1.1 = .ok (s.summary output) := by
  obtain ⟨-, houtcome⟩ := bundle_of_ok h
  rcases storage.write_cases s.outputPath output.bundle.text with ⟨hreadOnly, -⟩ | ⟨hwrite, -⟩
  · rw [hwritable] at hreadOnly
    cases hreadOnly
  · rw [houtcome, hwrite]

/-- In memory, a run whose discovery succeeds does so itself, unless its path is
read-only. -/
theorem memory_of_discover {storage : MemoryStorage} {entry : ModuleId} (hprepare : s.prepare = .ok entry)
    (hfound : (discover (s.plan storage) turns entry).result.toOption.isSome = true)
    (hwritable : storage.readOnly.any (·.same s.outputPath) = false) :
    ∃ output, output.entry = entry ∧ (s.build storage turns).1 = .ok output ∧
      (s.bundle storage turns).1.1 = .ok (s.summary output) := by
  cases hd : (discover (s.plan storage) turns entry).result with
  | error e => rw [hd] at hfound; cases hfound
  | ok table =>
    obtain ⟨bundle, -, hbuild⟩ := build_of_discover hprepare hd
    exact ⟨_, rfl, hbuild, memory_ok_of_build hbuild hwritable⟩

end Session

/-- What a summary tells of an artifact is true of its text: the digest is that of
all that follows the banner, which counts the modules of the table. -/
structure BundleSummary.Describes (o : BundleSummary) (style : LoaderStyle) (table : ModuleTable)
    (text : String) : Prop where
  withoutBanner : Artifact.withoutBanner text = some (Artifact.body o.entry table style)
  hash : o.hash = sha256 (Utf8.encode (Artifact.body o.entry table style))
  moduleCount : o.moduleCount = table.records.length
  banner : text = Artifact.banner o.entry o.moduleCount style o.hash ++ Artifact.body o.entry table style
  contents : style = .eval → ∃ contents,
    (Artifact.withoutBanner text).bind Artifact.readBody = some contents ∧
      contents.entry = o.entry ∧ contents.modules.length = o.moduleCount

namespace Session

variable {τ : Type} {s : Session τ} {output : BundleOutput}

theorem summary_describes {σ : Type} [Storage σ] {storage : σ} {turns : List Turn}
    (h : (s.build storage turns).1 = .ok output) :
    (s.summary output).Describes s.config.loader output.table output.bundle.text := by
  obtain ⟨entry, t, bundle, -, -, hemit, rfl⟩ := build_made h
  have hbundle := Artifact.emit_ok hemit
  have hbody := Artifact.withoutBanner_emit hemit
  refine ⟨hbody, ?_, ?_, ?_, ?_⟩
  · simp only [summary, hbundle]
  · simp only [summary, hbundle]
  · simp only [summary, hbundle]
  · intro hstyle
    rw [hbody, Option.bind_some, hstyle, Artifact.readBody_body]
    refine ⟨_, rfl, rfl, ?_⟩
    simp only [summary, hbundle, List.length_map, t.sort.sort_perm.length_eq]

/-- **A run writes at most once, as the last thing it does.** What is made depends
on what is read only. A run that fails before the write fails as the making
does, and leaves the storage as it was; a write that fails is told with its
path. A run that succeeds has written one text, the only one that can be made of
what is stored, to the path of the settings, and no other path is changed. Its
summary is true of that text. -/
theorem bundle_effects (s : Session τ) :
    (∀ {σ ρ : Type} [Storage σ] [Storage ρ] (storage : σ) (other : ρ) (turns : List Turn),
      (∀ p, Storage.read storage p = Storage.read other p) →
      s.build storage turns = s.build other turns) ∧
    (∀ {σ : Type} [Storage σ] (storage : σ) (turns : List Turn),
      let run := s.bundle storage turns
      (∀ e, (s.build storage turns).1 = .error e →
        run.1.1 = .error e ∧ run.2 = storage ∧ ∀ path cause, e ≠ .io path cause) ∧
      ∀ output, (s.build storage turns).1 = .ok output →
        let write := Storage.write storage s.outputPath output.bundle.text
        run.2 = write.2 ∧
        (∀ e, write.1 = .error e → run.1.1 = .error (.io s.outputPath e.message)) ∧
        (write.1 = .ok () → run.1.1 = .ok (s.summary output))) ∧
    ∀ (storage : MemoryStorage) (turns : List Turn),
      let run := s.bundle storage turns
      (∀ e, run.1.1 = .error e → run.2 = storage ∧
        ((s.build storage turns).1 = .error e ∨
          e = .io s.outputPath FileError.readOnly.message ∧
            storage.readOnly.any (·.same s.outputPath) = true)) ∧
      ∀ summary, run.1.1 = .ok summary → ∃ output,
        (s.build storage turns).1 = .ok output ∧
        (∀ turns' output', (s.build storage turns').1 = .ok output' → output' = output) ∧
        storage.Wrote s.outputPath output.bundle.text run.2 ∧
        summary.outputPath = s.outputPath ∧
        summary.Describes s.config.loader output.table output.bundle.text := by
  refine ⟨fun storage other turns h => build_congr h turns, ?_, ?_⟩
  · intro σ _ storage turns run
    refine ⟨?_, ?_⟩
    · intro e h
      obtain ⟨herror, hsame⟩ := bundle_of_error h
      refine ⟨herror, hsame, ?_⟩
      rintro path cause rfl
      rcases s.build_cases storage turns with ⟨text, hc⟩ | ⟨e', hd⟩ | ⟨output, hok⟩
      · rw [hc] at h; cases h
      · rw [hd] at h; cases h
      · rw [hok] at h; cases h
    · intro output h write
      obtain ⟨hleft, houtcome⟩ := bundle_of_ok h
      change run.1.1 = match write.1 with
        | .ok () => .ok (s.summary output)
        | .error e => .error (.io s.outputPath e.message) at houtcome
      refine ⟨hleft, ?_, ?_⟩
      · intro e hwrite
        rw [houtcome, hwrite]
      · intro hwrite
        rw [houtcome, hwrite]
  · intro storage turns run
    refine ⟨fun e he => memory_of_error he, ?_⟩
    intro summary hsummary
    obtain ⟨output, hbuild, rfl, hwrote⟩ := memory_of_ok hsummary
    exact ⟨output, hbuild, fun turns' output' h' => build_unique hbuild h', hwrote, rfl,
      summary_describes hbuild⟩

/-- Two modules that import each other, bundled over an artifact of before; and
the same settings where one of them is missing. -/
theorem bundle_effects_cycle :
    let main : Path × String := (.ofString "/app/m.js", "import './a.js';")
    let old : Path × String := (.ofString "/app/dist/main.js", "old")
    let storage : MemoryStorage := .ofList [main, (.ofString "/app/a.js", "import './m.js';"), old]
    let partly : MemoryStorage := .ofList [main, old]
    let s : Session Script.Module :=
      ⟨{ Config.defaults 1 with entry := some (.ofString "m.js") }, .ofString "/app", scriptTransform⟩
    let turns : List Turn := [.report 0, .report 0]
    let run := s.bundle storage turns
    let failed := s.bundle partly turns
    (∃ (summary : BundleSummary) (output : BundleOutput), run.1.1 = .ok summary ∧
      summary.moduleCount = output.table.records.length ∧
      run.2.writes = [.ofString "/app/dist/main.js"] ∧
      run.2.contents? (.ofString "/app//dist/./main.js") = some output.bundle.text ∧
      run.2.contents? (.ofString "/app/m.js") = some "import './a.js';") ∧
    (∃ e, failed.1.1 = .error e) ∧ failed.2 = partly := by
  intro main old storage partly s turns run failed
  obtain ⟨-, houtcome, hmemory⟩ := bundle_effects s
  have hprepare : s.prepare = .ok ⟨"/app/m.js"⟩ := by decide +kernel
  refine ⟨?_, ?_⟩
  · have hfound : (discover (s.plan storage) turns ⟨"/app/m.js"⟩).result.toOption.isSome = true := by
      decide +kernel
    obtain ⟨_, -, -, hok⟩ := memory_of_discover hprepare hfound rfl
    obtain ⟨output, -, -, hwrote, -, hdescribes⟩ := (hmemory storage turns).2 _ hok
    refine ⟨_, output, hok, hdescribes.moduleCount, hwrote.writes, ?_, ?_⟩
    · exact hwrote.written _ (by decide +kernel)
    · exact (hwrote.others _ (by decide +kernel)).trans (by decide +kernel)
  · have hfails : (s.build partly turns).1.toOption.isSome = false := by decide +kernel
    cases hbuild : (s.build partly turns).1 with
    | ok output => rw [hbuild] at hfails; cases hfails
    | error e =>
      obtain ⟨herror, hsame, -⟩ := (houtcome partly turns).1 e hbuild
      exact ⟨⟨e, herror⟩, hsame⟩

end Session

end Bundler
