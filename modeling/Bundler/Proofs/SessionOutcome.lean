/-
What a run of the bundler comes to. A table that discovery gives is closed,
and so passes both checks of the emitter. Hence a run ends with an output, or
its settings or its discovery failed (`build_cases`); one that writes can also
fail in that.
-/
import Bundler.Proofs.SessionDeterminism

namespace Bundler

open Discovery

/-- What discovery finds has an artifact in each style. -/
theorem Discovery.emit_of_discover {plan : Plan} {turns : List Turn} {entry : ModuleId} {table : ModuleTable}
    (hcap : 0 < plan.capacity) (hfaithful : Faithful plan.build)
    (h : (discover plan turns entry).result = .ok table) (style : LoaderStyle) :
    ∃ bundle, emit entry table style = .ok bundle := by
  obtain ⟨taken, left, d, -, hd, hend⟩ := discover_cases plan turns entry
  obtain ⟨t, ht, rfl, -, -⟩ := hend.of_ok hcap hfaithful hd h
  exact ht.sort.emit_ok style

namespace Session

variable {σ τ : Type} [Storage σ] {storage : σ} {s : Session τ} {turns : List Turn}

theorem validate_error {c : Config} {e : BundleError} (h : c.validate = .error e) :
    ∃ text, e = .config text := by
  unfold Config.validate at h
  split at h
  · cases h; exact ⟨_, rfl⟩
  · cases h

theorem entry_error {e : BundleError} (h : s.entry = .error e) : ∃ text, e = .config text := by
  unfold entry at h
  split at h
  · cases h; exact ⟨_, rfl⟩
  · split at h
    · cases h
    · cases h; exact ⟨_, rfl⟩

/-- What is wrong before discovery is wrong in the settings. -/
theorem prepare_error {e : BundleError} (h : s.prepare = .error e) : ∃ text, e = .config text := by
  unfold prepare at h
  cases hv : s.config.validate with
  | error e' =>
    rw [hv] at h
    cases h
    exact validate_error hv
  | ok u =>
    rw [hv] at h
    exact entry_error h

theorem jobs_pos_of_prepare {entry : ModuleId} (h : s.prepare = .ok entry) : 0 < s.config.jobs :=
  jobs_pos_of_validate (of_prepare h).1

/-- A discovery that succeeds is the last thing that can fail. -/
theorem build_of_discover {entry : ModuleId} {table : ModuleTable} (hprepare : s.prepare = .ok entry)
    (h : (discover (s.plan storage) turns entry).result = .ok table) :
    ∃ bundle, emit entry table s.config.loader = .ok bundle ∧
      (s.build storage turns).1 = .ok ⟨entry, table, .ofTable table, bundle⟩ := by
  have hcap : 0 < (s.plan storage).capacity := jobs_pos_of_prepare hprepare
  obtain ⟨bundle, hbundle⟩ :=
    emit_of_discover hcap (s.builder.build_faithful storage) h s.config.loader
  refine ⟨bundle, hbundle, ?_⟩
  simp only [build, hprepare, h, complete, hbundle]

/-- How a run ends. -/
theorem build_cases (s : Session τ) (storage : σ) (turns : List Turn) :
    (∃ text, (s.build storage turns).1 = .error (.config text)) ∨
    (∃ e, (s.build storage turns).1 = .error (.discovery e)) ∨
    ∃ output, (s.build storage turns).1 = .ok output := by
  cases hprepare : s.prepare with
  | error e =>
    obtain ⟨text, rfl⟩ := prepare_error hprepare
    exact .inl ⟨text, by simp only [build, hprepare]⟩
  | ok entry =>
    cases hd : (discover (s.plan storage) turns entry).result with
    | error e => exact .inr (.inl ⟨e, by simp only [build, hprepare, hd]⟩)
    | ok table =>
      obtain ⟨bundle, -, hok⟩ := build_of_discover hprepare hd
      exact .inr (.inr ⟨_, hok⟩)

/-- Writing fails as the run before it does, or in writing. -/
theorem bundle_error {e : BundleError} (h : (s.bundle storage turns).1.1 = .error e) :
    (s.build storage turns).1 = .error e ∨ ∃ path cause, e = .io path cause := by
  unfold bundle at h
  split at h
  · next hbuild =>
    cases h
    exact .inl (by rw [hbuild])
  · split at h
    · cases h; exact .inr ⟨_, _, rfl⟩
    · cases h

theorem build_ne_emit (s : Session τ) (storage : σ) (turns : List Turn) (e : EmitError) :
    (s.build storage turns).1 ≠ .error (.emit e) := by
  intro h
  rcases s.build_cases storage turns with ⟨text, hc⟩ | ⟨e', hd⟩ | ⟨output, hok⟩
  · rw [hc] at h; cases h
  · rw [hd] at h; cases h
  · rw [hok] at h; cases h

/-- **The emitter refuses nothing that discovery finds**, whatever is stored, in
whichever language of modules, with any number of workers and any order of
their reports. So a run whose discovery succeeds has an output, and no run
fails in the emitter. -/
theorem emit_never_fails (storage : σ) (turns : List Turn) :
    (∀ (τ : Type) (b : Builder τ) (workers timeoutMs : Nat) (entry : ModuleId) (table : ModuleTable),
      0 < workers → (discover ⟨b.build storage, workers, timeoutMs⟩ turns entry).result = .ok table →
      ∀ style, ∃ bundle, emit entry table style = .ok bundle) ∧
    ∀ (τ : Type) (s : Session τ),
      (∀ entry table, s.prepare = .ok entry →
        (discover (s.plan storage) turns entry).result = .ok table →
        ∃ output, (s.build storage turns).1 = .ok output ∧ output.entry = entry ∧ output.table = table) ∧
      (∀ e, (s.build storage turns).1 ≠ .error (.emit e)) ∧
      ∀ e, (s.bundle storage turns).1.1 ≠ .error (.emit e) := by
  refine ⟨?_, fun τ s => ⟨?_, s.build_ne_emit storage turns, ?_⟩⟩
  · intro τ b workers timeoutMs entry table hworkers h
    exact emit_of_discover hworkers (b.build_faithful storage) h
  · intro entry table hprepare h
    obtain ⟨bundle, -, hok⟩ := build_of_discover hprepare h
    exact ⟨_, hok, rfl, rfl⟩
  · intro e h
    rcases bundle_error h with hbuild | ⟨path, cause, hio⟩
    · exact s.build_ne_emit storage turns e hbuild
    · cases hio

/-- Two modules that import each other under several spellings, with two
workers. -/
theorem emit_never_fails_cycle :
    let storage : MemoryStorage := .ofList [(.ofString "/m.js", "import './a.js';\nimport '/x/../a.js';"),
      (.ofString "/a.js", "import './m.js';\nimport './a.js';")]
    let s : Session Script.Module :=
      ⟨{ Config.defaults 2 with entry := some (.ofString "m.js") }, .ofString "/", scriptTransform⟩
    let turns : List Turn := [.report 0, .report 0]
    s.prepare = .ok ⟨"/m.js"⟩ ∧
      ∃ table, (discover (s.plan storage) turns ⟨"/m.js"⟩).result = .ok table ∧
        (∀ style, ∃ bundle, emit ⟨"/m.js"⟩ table style = .ok bundle) ∧
        ∃ output, (s.build storage turns).1 = .ok output := by
  intro storage s turns
  have hprepare : s.prepare = .ok ⟨"/m.js"⟩ := by decide +kernel
  have hfound : (discover (s.plan storage) turns ⟨"/m.js"⟩).result.toOption.isSome = true := by
    decide +kernel
  obtain ⟨hstyles, hsession⟩ := emit_never_fails storage turns
  cases hd : (discover (s.plan storage) turns ⟨"/m.js"⟩).result with
  | error e => rw [hd] at hfound; cases hfound
  | ok table =>
    obtain ⟨output, hok, -, -⟩ := (hsession _ s).1 ⟨"/m.js"⟩ table hprepare hd
    exact ⟨hprepare, table, rfl, hstyles _ s.builder 2 _ _ table (by decide) hd, output, hok⟩

end Session

end Bundler
