/-
A run of the bundler depends neither on how many builds go on at a time nor on
the order in which they report, as long as all of them do (`onTime`). Such a
discovery fails exactly if something the entry needs cannot be built
(`run_onTime`). Otherwise it gives a table that is closed, and there is only
one such table in ascending order (`Closed.sort_eq`), which the report of
cycles and the artifact are made from.
-/
import Bundler.Session
import Bundler.Proofs.BuiltRecords
import Bundler.Proofs.DiscoveryClosure

namespace Bundler

theorem emit_of_closed {entry : ModuleId} {t : ModuleTable} (hentry : entry ∈ t.ids)
    (hmissing : t.missingDependencies = []) (style : LoaderStyle) :
    ∃ bundle, emit entry t style = .ok bundle := by
  have hc : t.contains entry = true := ModuleTable.contains_iff.2 hentry
  simp only [emit, hc, hmissing, Bool.not_true, Bool.false_eq_true, if_false]
  exact ⟨_, rfl⟩

namespace Discovery

variable {build : ModuleId → Except BuildError ModuleRecord} {plan : Plan} {entry : ModuleId}

/-! ## Closed tables -/

theorem Closed.build_ok {t : ModuleTable} (h : Closed build entry t) {id : ModuleId}
    (hid : Reachable build entry id) : ∃ r, build id = .ok r := by
  obtain ⟨r, hr, rfl⟩ := ModuleTable.mem_ids.1 ((h.mem_ids id).2 hid)
  exact ⟨r, h.built r hr⟩

/-- A closed table passes the checks of the emitter. -/
theorem Closed.emit_ok {t : ModuleTable} (h : Closed build entry t) (style : LoaderStyle) :
    ∃ bundle, emit entry t style = .ok bundle :=
  emit_of_closed ((h.mem_ids entry).2 .refl) (ModuleTable.missingDependencies_eq_nil.2 h.targets) style

/-- A closed table holds what the builds of all that the entry needs give. -/
theorem Closed.mem_records {t : ModuleTable} (h : Closed build entry t) {r : ModuleRecord} :
    r ∈ t.records ↔ Reachable build entry r.id ∧ build r.id = .ok r := by
  constructor
  · intro hr
    exact ⟨(h.mem_ids r.id).1 (ModuleTable.mem_ids.2 ⟨r, hr, rfl⟩), h.built r hr⟩
  · rintro ⟨hid, hok⟩
    obtain ⟨r', hr', hid'⟩ := ModuleTable.mem_ids.1 ((h.mem_ids r.id).2 hid)
    have hok' := h.built r' hr'
    rw [hid', hok] at hok'
    cases hok'
    exact hr'

/-- What an entry needs makes one table only. -/
theorem Closed.sort_eq {t t' : ModuleTable} (h : Closed build entry t) (h' : Closed build entry t') :
    t.sort = t'.sort := by
  refine ModuleTable.sort_eq_of_mem_iff h.nodup h'.nodup ?_
  intro r
  rw [h.mem_records, h'.mem_records]

/-! ## Runs in which every build reports -/

/-- No build times out and no worker dies: while builds are in flight, one of
them reports. -/
def onTime (plan : Plan) : List Turn → Discovery → Bool
  | turns, d =>
    match (d.dispatch plan.capacity).inFlight, turns with
    | [], _ => true
    | earliest :: _, .report position :: turns =>
      match (d.dispatch plan.capacity).turn plan earliest (.report position) with
      | .ok d => onTime plan turns d
      | .error _ => true
    | _ :: _, _ => false

/-- What a turn on time does. -/
theorem onTime_cons {turns : List Turn} {d : Discovery} {earliest : ModuleId} {rest : List ModuleId}
    (hf : (d.dispatch plan.capacity).inFlight = earliest :: rest) (h : onTime plan turns d = true) :
    ∃ position left, turns = .report position :: left ∧
      ∀ d', (d.dispatch plan.capacity).turn plan earliest (.report position) = .ok d' →
        onTime plan left d' = true := by
  cases turns with
  | nil => unfold onTime at h; simp [hf] at h
  | cons t left =>
    cases t with
    | report position =>
      refine ⟨position, left, rfl, ?_⟩
      intro d' hd'
      unfold onTime at h
      simpa only [hf, hd'] using h
    | silence | noWorkers => unfold onTime at h; simp [hf] at h

/-- A run is over when nothing is in flight, and its table is closed. -/
theorem run_settled (hcap : 0 < plan.capacity) {d : Discovery} (hd : Consistent plan entry d)
    (hf : (d.dispatch plan.capacity).inFlight = []) (turns : List Turn) :
    ∃ t, Closed plan.build entry t ∧ (run plan turns d).result = .ok t.sort := by
  rw [run_finished turns hf]
  exact ⟨_, (hd.dispatch _).settled hf (dispatch_settled hcap hf), rfl⟩

/-- **A discovery on time fails only by a build that fails.** -/
theorem run_onTime (hcap : 0 < plan.capacity) (hfaithful : Faithful plan.build) : ∀ {turns : List Turn}
    {d : Discovery}, Consistent plan entry d → onTime plan turns d = true →
    (∃ t, Closed plan.build entry t ∧ (run plan turns d).result = .ok t.sort) ∨
    ∃ id b e, Reachable plan.build entry id ∧ plan.build id = .error b ∧
      (run plan turns d).result = .error e := by
  intro turns
  induction turns with
  | nil =>
    intro d hd h
    cases hf : (d.dispatch plan.capacity).inFlight with
    | nil => exact .inl (run_settled hcap hd hf _)
    | cons earliest rest =>
      obtain ⟨position, left, hnil, -⟩ := onTime_cons hf h
      cases hnil
  | cons t turns ih =>
    intro d hd h
    cases hf : (d.dispatch plan.capacity).inFlight with
    | nil => exact .inl (run_settled hcap hd hf _)
    | cons earliest rest =>
      obtain ⟨position, left, hcons, hnext⟩ := onTime_cons hf h
      cases hcons
      rw [run_turn hf]
      have hdd := hd.dispatch plan.capacity
      rcases turn_cases plan hf (.report position) with ⟨_, -, id, hid, hcase⟩ | ⟨_, ⟨hn, -⟩ | ⟨hn, -⟩⟩
      · rcases hcase with ⟨r, hb, ht⟩ | ⟨b, hb, ht⟩
        · simp only [ht]
          exact ih (hdd.accept hid hb (hfaithful id r hb)) (hnext _ ht)
        · simp only [ht]
          exact .inr ⟨id, b, _, hdd.reachable id (.inl (hdd.mem_visited.2 (.inr hid))), hb, rfl⟩
      · cases hn
      · cases hn

/-- A discovery on time finds all modules, or one of them cannot be built. -/
theorem discover_ok_iff (hcap : 0 < plan.capacity) (hfaithful : Faithful plan.build) {turns : List Turn}
    (h : onTime plan turns (.start entry) = true) :
    (∃ table, (discover plan turns entry).result = .ok table) ↔
      ∀ id, Reachable plan.build entry id → ∃ r, plan.build id = .ok r := by
  rcases run_onTime hcap hfaithful .start h with ⟨t, ht, hr⟩ | ⟨id, b, e, hid, hb, hr⟩
  · exact ⟨fun _ _ hid => ht.build_ok hid, fun _ => ⟨t.sort, hr⟩⟩
  · constructor
    · rintro ⟨table, htable⟩
      rw [discover, hr] at htable
      cases htable
    · intro hall
      obtain ⟨r, hok⟩ := hall id hid
      rw [hb] at hok
      cases hok

end Discovery

namespace Session

open Discovery

variable {τ : Type}

/-- The session with another number of builds at a time. -/
def withJobs (s : Session τ) (jobs : Nat) : Session τ := { s with config := { s.config with jobs } }

theorem jobs_pos_of_validate {c : Config} (h : c.validate = .ok ()) : 0 < c.jobs := by
  simp only [Config.validate] at h
  split at h
  · cases h
  · next hf =>
    by_contra hn
    have hz : c.jobs = 0 := by omega
    simp only [Config.fault?, hz, if_true] at hf
    split_ifs at hf

theorem prepare_ok {s : Session τ} {entry : ModuleId} (hv : s.config.validate = .ok ())
    (he : s.entry = .ok entry) : s.prepare = .ok entry := by
  simp only [prepare, hv, he]
  rfl

theorem of_prepare {s : Session τ} {entry : ModuleId} (h : s.prepare = .ok entry) :
    s.config.validate = .ok () ∧ s.entry = .ok entry := by
  unfold prepare at h
  cases hv : s.config.validate with
  | error e => rw [hv] at h; cases h
  | ok u => rw [hv] at h; exact ⟨rfl, h⟩

/-- How a run ends in which every build reports. -/
theorem build_onTime {σ : Type} [Storage σ] {storage : σ} {s : Session τ} {turns : List Turn}
    {entry : ModuleId} (hv : s.config.validate = .ok ()) (he : s.entry = .ok entry)
    (h : onTime (s.plan storage) turns (.start entry) = true) :
    (∃ t bundle, Closed (s.builder.build storage) entry t ∧
      emit entry t.sort s.config.loader = .ok bundle ∧
      (s.build storage turns).1 = .ok ⟨entry, t.sort, .ofTable t.sort, bundle⟩) ∨
    ∃ id b e, Reachable (s.builder.build storage) entry id ∧ s.builder.build storage id = .error b ∧
      (s.build storage turns).1 = .error (.discovery e) := by
  have hfaithful : Faithful (s.plan storage).build := s.builder.build_faithful storage
  rcases run_onTime (jobs_pos_of_validate hv) hfaithful .start h with ⟨t, ht, hr⟩ | ⟨id, b, e, hid, hb, hr⟩
  · obtain ⟨bundle, hbundle⟩ := ht.sort.emit_ok s.config.loader
    refine .inl ⟨t, bundle, ht, hbundle, ?_⟩
    simp only [build, prepare_ok hv he, discover, hr, complete, hbundle]
  · refine .inr ⟨id, b, e, hid, hb, ?_⟩
    simp only [build, prepare_ok hv he, discover, hr]

/-- **The result of a run depends on what is stored only**, not on the number of
builds at a time and not on the order of their reports: two runs in which every
build reports fail both, in discovery, or give the same output. They fail
exactly if something the entry needs cannot be built. -/
theorem build_schedule_independent {σ τ : Type} [Storage σ] {storage : σ} {s : Session τ} {jobs₁ jobs₂ : Nat}
    {turns₁ turns₂ : List Turn} {entry : ModuleId}
    (hv₁ : (s.withJobs jobs₁).config.validate = .ok ()) (hv₂ : (s.withJobs jobs₂).config.validate = .ok ())
    (he : s.entry = .ok entry)
    (h₁ : onTime ((s.withJobs jobs₁).plan storage) turns₁ (.start entry) = true)
    (h₂ : onTime ((s.withJobs jobs₂).plan storage) turns₂ (.start entry) = true) :
    ((∃ e₁ e₂, ((s.withJobs jobs₁).build storage turns₁).1 = .error (.discovery e₁) ∧
        ((s.withJobs jobs₂).build storage turns₂).1 = .error (.discovery e₂)) ∨
      ∃ output, ((s.withJobs jobs₁).build storage turns₁).1 = .ok output ∧
        ((s.withJobs jobs₂).build storage turns₂).1 = .ok output) ∧
    ((∃ e, ((s.withJobs jobs₁).build storage turns₁).1 = .error e) ↔
      ∃ id b, Reachable (s.builder.build storage) entry id ∧ s.builder.build storage id = .error b) := by
  have no_failure : ∀ {t id b}, Closed (s.builder.build storage) entry t →
      Reachable (s.builder.build storage) entry id → s.builder.build storage id = .error b → False := by
    intro t id b ht hid hb
    obtain ⟨r, hr⟩ := ht.build_ok hid
    rw [hb] at hr
    cases hr
  rcases build_onTime hv₁ he h₁ with ⟨t₁, b₁, ht₁, hb₁, hr₁⟩ | ⟨id₁, b₁, e₁, hid₁, hb₁, hr₁⟩ <;>
    rcases build_onTime hv₂ he h₂ with ⟨t₂, b₂, ht₂, hb₂, hr₂⟩ | ⟨id₂, b₂, e₂, hid₂, hb₂, hr₂⟩
  · have hsort := ht₁.sort_eq ht₂
    have hbundle : b₁ = b₂ := by
      rw [hsort] at hb₁
      exact Except.ok.inj (hb₁.symm.trans hb₂)
    refine ⟨.inr ⟨_, hr₁, by rw [hr₂, hsort, hbundle]⟩, ?_⟩
    constructor
    · rintro ⟨e, he⟩
      rw [hr₁] at he
      cases he
    · rintro ⟨id, b, hid, hb⟩
      exact (no_failure ht₁ hid hb).elim
  · exact (no_failure ht₁ hid₂ hb₂).elim
  · exact (no_failure ht₂ hid₁ hb₁).elim
  · exact ⟨.inl ⟨e₁, e₂, hr₁, hr₂⟩, fun _ => ⟨id₁, b₁, hid₁, hb₁⟩, fun _ => ⟨_, hr₁⟩⟩

/-- Two modules that import each other and a third one, built by one worker, and
by two whose reports come out of order. -/
theorem build_schedule_independent_cycle :
    let storage : MemoryStorage := .ofList [(.ofString "/m.js", "import './a.js';\nimport './b.js';"),
      (.ofString "/a.js", "import './m.js';"), (.ofString "/b.js", "")]
    let s : Session Script.Module :=
      ⟨{ Config.defaults 1 with entry := some (.ofString "m.js") }, .ofString "/", scriptTransform⟩
    let turns₁ : List Turn := [.report 0, .report 0, .report 0]
    let turns₂ : List Turn := [.report 0, .report 1, .report 0]
    ∃ output, ((s.withJobs 1).build storage turns₁).1 = .ok output ∧
      ((s.withJobs 2).build storage turns₂).1 = .ok output := by
  intro storage s turns₁ turns₂
  have hv₁ : (s.withJobs 1).config.validate = .ok () := by decide +kernel
  have hv₂ : (s.withJobs 2).config.validate = .ok () := by decide +kernel
  have he : s.entry = .ok ⟨"/m.js"⟩ := by decide +kernel
  have h₁ : onTime ((s.withJobs 1).plan storage) turns₁ (.start ⟨"/m.js"⟩) = true := by decide +kernel
  have h₂ : onTime ((s.withJobs 2).plan storage) turns₂ (.start ⟨"/m.js"⟩) = true := by decide +kernel
  refine (build_schedule_independent hv₁ hv₂ he h₁ h₂).1.resolve_left ?_
  rintro ⟨e, -, herr, -⟩
  have hfound :
      (discover ((s.withJobs 1).plan storage) turns₁ ⟨"/m.js"⟩).result.toOption.isSome = true := by
    decide +kernel
  have hprepare : (s.withJobs 1).prepare = .ok ⟨"/m.js"⟩ := prepare_ok hv₁ he
  simp only [build, hprepare] at herr
  split at herr
  · next hd => rw [hd] at hfound; cases hfound
  · simp only [complete] at herr
    split at herr <;> cases herr

end Session

end Bundler
