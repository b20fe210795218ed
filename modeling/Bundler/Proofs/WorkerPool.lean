/-
Builds and the workers for them. While the coordinator goes on, each build in
flight waits in the channel, is with a worker, has reported, or was lost with
the worker that died in it (`Balanced`). There are never more of them than
workers, so those that wait are at most as many as the workers that are idle,
whichever worker takes which build and however many have died.
-/
import Mathlib.Data.List.Perm.Basic
import Mathlib.Logic.Relation
import Bundler.Discovery.Workers
import Bundler.Proofs.DiscoverySteps

namespace Bundler.Discovery

/-- All workers that have not left are idle, or have a build. -/
theorem length_workers {workers : List Worker} (h : Worker.gone ∉ workers) :
    workers.length = workers.count .idle + (workers.filterMap Worker.build?).length := by
  induction workers with
  | nil => rfl
  | cons w workers ih =>
    obtain ⟨hw, hworkers⟩ := not_or.1 (mt List.mem_cons.2 h)
    rw [List.length_cons, ih hworkers, List.filterMap_cons]
    cases w with
    | idle => simp only [Worker.build?, List.count_cons_self]; omega
    | building id | dead id => simp [Worker.build?]; omega
    | gone => exact absurd rfl hw

theorem filterMap_cons_toList (w : Worker) (workers : List Worker) :
    (w :: workers).filterMap Worker.build? = w.build?.toList ++ workers.filterMap Worker.build? := by
  rw [List.filterMap_cons]
  cases w.build? <;> rfl

namespace Pool

variable {plan : Plan} {entry : ModuleId} {s s' : Pool} {m : Move}

/-- The coordinator goes on. -/
def Running (s : Pool) : Prop := ∀ result, s.phase ≠ .ended result

theorem running_of_dispatching (h : s.phase = .dispatching) : s.Running := fun _ he => by
  rw [h] at he; cases he

theorem running_of_waiting (h : s.phase = .waiting) : s.Running := fun _ he => by
  rw [h] at he; cases he

/-- The builds that workers have taken and not reported. -/
def builds (s : Pool) : List ModuleId := s.workers.filterMap Worker.build?

/-- Where the builds in flight are. -/
structure Balanced (plan : Plan) (s : Pool) : Prop where
  workers : s.workers.length = plan.capacity
  room : s.discovery.inFlight.length ≤ plan.capacity
  inFlight : s.Running → s.discovery.inFlight.Perm (s.jobs ++ s.results.map (·.1) ++ s.builds)
  /-- No worker leaves before the coordinator ends. -/
  stay : s.Running → .gone ∉ s.workers
  jobs : s.jobs.length ≤ s.workers.count .idle

namespace Balanced

theorem start : Balanced plan (.start plan entry) where
  workers := List.length_replicate
  room := Nat.zero_le _
  inFlight _ := by simp [Pool.start, Discovery.start, builds, Worker.build?, List.filterMap_replicate]
  stay _ h := by simp [Pool.start, List.mem_replicate] at h
  jobs := Nat.zero_le _

theorem count_inFlight (h : Balanced plan s) (hrun : s.Running) (id : ModuleId) :
    s.discovery.inFlight.count id =
      s.jobs.count id + (s.results.map (·.1)).count id + s.builds.count id := by
  rw [(h.inFlight hrun).count_eq, List.count_append, List.count_append]

/-- The room that is left for builds in flight is what the idle workers leave. -/
theorem length_inFlight (h : Balanced plan s) (hrun : s.Running) :
    s.discovery.inFlight.length + s.workers.count .idle =
      plan.capacity + s.jobs.length + s.results.length := by
  have hflight := (h.inFlight hrun).length_eq
  have hworkers := length_workers (h.stay hrun)
  rw [h.workers] at hworkers
  simp only [List.length_append, List.length_map, builds] at hflight
  omega

theorem ended (h : Balanced plan s) (result : Except DiscoveryError ModuleTable)
    (results : List (ModuleId × Except BuildError ModuleRecord)) :
    Balanced plan { s with phase := .ended result, results } :=
  ⟨h.workers, h.room, fun hrun => absurd rfl (hrun result), fun hrun => absurd rfl (hrun result), h.jobs⟩

/-- A worker comes to something else. -/
theorem worker {before after : List Worker} {w w' : Worker} {jobs : List ModuleId}
    {results : List (ModuleId × Except BuildError ModuleRecord)} (h : Balanced plan s)
    (hworkers : s.workers = before ++ w :: after)
    (hmoved : s.Running → w' ≠ .gone ∧
      ∀ id, jobs.count id + (results.map (·.1)).count id + w'.build?.toList.count id =
        s.jobs.count id + (s.results.map (·.1)).count id + w.build?.toList.count id)
    (hjobs : jobs.length ≤ (before ++ w' :: after).count .idle) :
    Balanced plan { s with jobs, results, workers := before ++ w' :: after } := by
  have hlength := h.workers
  rw [hworkers, List.length_append, List.length_cons] at hlength
  refine ⟨?_, h.room, fun hrun => List.perm_iff_count.2 fun x => ?_, fun hrun => ?_, hjobs⟩
  · rw [List.length_append, List.length_cons]
    exact hlength
  · obtain ⟨-, hflight⟩ := hmoved hrun
    have hcount := h.count_inFlight hrun x
    have hx := hflight x
    simp only [builds, hworkers, List.filterMap_append, filterMap_cons_toList, List.count_append] at hcount ⊢
    omega
  · have hstay := h.stay hrun
    simp only [hworkers, List.mem_append, List.mem_cons, not_or] at hstay ⊢
    exact ⟨hstay.1, (hmoved hrun).1.symm, hstay.2.2⟩

/-- A worker that comes out of a build leaves the others as idle as they were. -/
theorem jobs_le_of_building {before after : List Worker} {id : ModuleId} (h : Balanced plan s)
    (hworkers : s.workers = before ++ .building id :: after) (w : Worker) :
    s.jobs.length ≤ (before ++ w :: after).count .idle := by
  have hidle : s.workers.count .idle = (before ++ after).count .idle := by
    simp [hworkers]
  have hsub : (before ++ after).Sublist (before ++ w :: after) :=
    (List.Sublist.refl _).append (List.sublist_cons_self _ _)
  calc s.jobs.length ≤ s.workers.count .idle := h.jobs
    _ = (before ++ after).count .idle := hidle
    _ ≤ (before ++ w :: after).count .idle := hsub.count_le _

theorem step (h : Balanced plan s) (hstep : Step plan s m s') : Balanced plan s' := by
  cases hstep with
  | skip hpops hvisited => exact ⟨h.workers, h.room, h.inFlight, h.stay, h.jobs⟩
  | @handOut id queue hdispatch hlisten =>
    obtain ⟨⟨hphase, hroom, -⟩, -⟩ := hdispatch
    have hrun := running_of_dispatching hphase
    have hlength := h.length_inFlight hrun
    refine ⟨h.workers, ?_, fun _ => List.perm_iff_count.2 fun x => ?_, h.stay, ?_⟩
    · rw [Discovery.handOut, List.length_append, List.length_singleton]
      exact hroom
    · have hcount := h.count_inFlight hrun x
      simp only [Discovery.handOut, List.count_append]
      simp only [builds] at hcount ⊢
      omega
    · -- there is room, so one more worker is idle than builds wait
      show (s.jobs ++ [id]).length ≤ s.workers.count .idle
      rw [List.length_append, List.length_singleton]
      omega
  | refuse => exact h.ended _ _
  | wait hstops =>
    have hrun := running_of_dispatching hstops.1
    exact ⟨h.workers, h.room, fun _ => h.inFlight hrun, fun _ => h.stay hrun, h.jobs⟩
  | finish => exact h.ended _ _
  | @accept id result results d hphase hresults hd =>
    have hrun := running_of_waiting hphase
    have hflight : d.inFlight = s.discovery.inFlight.erase id := by
      cases result with
      | ok r => cases hd; exact accept_inFlight _ _
      | error e => cases hd
    refine ⟨h.workers, ?_, fun _ => List.perm_iff_count.2 fun x => ?_, fun _ => h.stay hrun, h.jobs⟩
    · rw [hflight]
      exact List.erase_sublist.length_le.trans h.room
    · have hcount := h.count_inFlight hrun x
      rw [hresults, List.map_cons, List.count_cons] at hcount
      simp only [hflight, List.count_append, List.count_erase]
      simp only [builds] at hcount ⊢
      omega
  | reject => exact h.ended _ _
  | expire => exact h.ended _ _
  | disconnect => exact h.ended _ _
  | @take before after front id back hworkers hjobs =>
    -- one build and one idle worker less, whichever build it is
    refine h.worker hworkers (fun _ => ⟨by simp, fun x => ?_⟩) ?_
    · simp only [hjobs, Worker.build?, Option.toList, List.count_append, List.count_cons, List.count_nil]
      omega
    · have hle := h.jobs
      simp only [hworkers, hjobs, List.length_append, List.length_cons, List.count_append, List.count_cons_self] at hle
      simp only [List.length_append, List.count_append, List.count_cons]
      omega
  | @report before after id hworkers =>
    refine h.worker hworkers (fun _ => ⟨by simp, fun x => ?_⟩) ?_
    · simp only [Worker.build?, Option.toList, List.map_append, List.map_cons, List.map_nil, List.count_append,
        List.count_nil]
      omega
    · exact h.jobs_le_of_building hworkers .idle
  | @die before after id hworkers =>
    exact h.worker hworkers (fun _ => ⟨by simp, fun x => rfl⟩) (h.jobs_le_of_building hworkers (.dead id))
  | @leave before after result hphase hworkers hjobs =>
    refine h.worker hworkers (fun hrun => absurd hphase (hrun result)) ?_
    rw [hjobs]
    exact Nat.zero_le _
  | @discard before after id result hphase hworkers =>
    exact h.worker hworkers (fun hrun => absurd hphase (hrun result)) (h.jobs_le_of_building hworkers .gone)

end Balanced

theorem Reachable.balanced (h : Reachable plan entry s) : Balanced plan s := by
  induction h with
  | start => exact .start
  | step _ hstep ih => exact ih.step hstep

/-! ## Who listens -/

/-- Idle workers take builds, and nothing else happens. -/
def Takes (plan : Plan) (s s' : Pool) : Prop := ∃ id, Step plan s (.take id) s'

/-- As many idle workers as there are builds that wait can take them all at once. -/
theorem exists_takes : ∀ (jobs : List ModuleId) (s : Pool), s.jobs = jobs →
    jobs.length ≤ s.workers.count .idle → ∃ s', Relation.ReflTransGen (Takes plan) s s' ∧ s'.jobs = []
  | [], s, hjobs, _ => ⟨s, .refl, hjobs⟩
  | id :: jobs, s, hjobs, hle => by
    have hidle : Worker.idle ∈ s.workers := by
      rw [← List.count_pos_iff]
      exact Nat.lt_of_lt_of_le (Nat.succ_pos _) hle
    obtain ⟨before, after, hworkers⟩ := List.append_of_mem hidle
    let next : Pool := { s with jobs, workers := before ++ .building id :: after }
    have htake : Step plan s (.take id) next :=
      .take hworkers (by rw [hjobs]; exact (List.nil_append _).symm)
    have hrest : jobs.length ≤ next.workers.count .idle := by
      show jobs.length ≤ (before ++ Worker.building id :: after).count .idle
      simp only [hworkers, List.length_cons, List.count_append, List.count_cons_self] at hle
      simp only [List.count_append, List.count_cons]
      omega
    obtain ⟨s', htakes, hnil⟩ := exists_takes jobs next rfl hrest
    exact ⟨s', .head ⟨id, htake⟩ htakes, hnil⟩

/-- Whoever hands out a build is heard by an idle worker. -/
theorem Balanced.idle_of_dispatches (h : Balanced plan s) {id : ModuleId} {queue : List ModuleId}
    (hdispatch : s.Dispatches plan id queue) : 0 < s.workers.count .idle := by
  obtain ⟨⟨hphase, hroom, -⟩, -⟩ := hdispatch
  have hlength := h.length_inFlight (running_of_dispatching hphase)
  omega

theorem workers_of_disconnected {workers : List Worker} (hgone : Worker.gone ∉ workers)
    (hdead : ∀ w ∈ workers, w.isAlive = false) :
    workers = (workers.filterMap Worker.build?).map .dead := by
  induction workers with
  | nil => rfl
  | cons w workers ih =>
    obtain ⟨hw, hworkers⟩ := not_or.1 (mt List.mem_cons.2 hgone)
    obtain ⟨hwdead, hrest⟩ := List.forall_mem_cons.1 hdead
    cases w with
    | idle | building => cases hwdead
    | dead id => exact congrArg (Worker.dead id :: ·) (ih hworkers hrest)
    | gone => exact absurd rfl hw

/-- When all workers are gone, the builds in flight are those that they died in. -/
theorem Balanced.lost (h : Balanced plan s) (hrun : s.Running) (hdisconnected : s.Disconnected) :
    s.workers = s.builds.map .dead ∧ s.builds.length = plan.capacity ∧
      s.discovery.inFlight.Perm s.builds := by
  have hdead : s.workers = s.builds.map .dead := workers_of_disconnected (h.stay hrun) hdisconnected
  have hlength : s.builds.length = plan.capacity := by
    have hcount := congrArg List.length hdead
    rw [List.length_map, h.workers] at hcount
    exact hcount.symm
  have hflight := h.inFlight hrun
  have hle := h.room
  simp only [hflight.length_eq, List.length_append, hlength] at hle
  obtain ⟨hjobs, hresults⟩ : s.jobs.length = 0 ∧ (s.results.map (·.1)).length = 0 := by omega
  rw [List.eq_nil_of_length_eq_zero hjobs, List.eq_nil_of_length_eq_zero hresults] at hflight
  exact ⟨hdead, hlength, hflight⟩

/-- **No build waits for another one.** In every pool that a discovery comes to, the
builds that wait in the channel are at most as many as the idle workers, which
could take them all at once. Whenever the coordinator hands out a build a
worker is alive, so none is refused. As long as the coordinator goes on, the
workers are gone only if all of them died, and then exactly the builds in
flight are those that they died in. -/
theorem waiting_builds_have_workers (h : Reachable plan entry s) :
    s.jobs.length ≤ s.workers.count .idle ∧
    (∃ s', Relation.ReflTransGen (Takes plan) s s' ∧ s'.jobs = []) ∧
    (∀ id queue, s.Dispatches plan id queue → ∃ w ∈ s.workers, w.isAlive = true) ∧
    (∀ id s', ¬ Step plan s (.refuse id) s') ∧
    (s.Running → s.Disconnected → ∃ ids, ids.length = plan.capacity ∧ s.workers = ids.map .dead ∧
      s.discovery.inFlight.Perm ids) := by
  have hb := h.balanced
  have hlisten : ∀ id queue, s.Dispatches plan id queue → ∃ w ∈ s.workers, w.isAlive = true :=
    fun id queue hdispatch => ⟨.idle, List.count_pos_iff.1 (hb.idle_of_dispatches hdispatch), rfl⟩
  refine ⟨hb.jobs, exists_takes s.jobs s rfl hb.jobs, hlisten, ?_, ?_⟩
  · intro id s' hstep
    cases hstep with
    | refuse hdispatch hdisconnected =>
      obtain ⟨w, hw, halive⟩ := hlisten id _ hdispatch
      rw [hdisconnected w hw] at halive
      cases halive
  · intro hrun hdisconnected
    obtain ⟨hdead, hlength, hflight⟩ := hb.lost hrun hdisconnected
    exact ⟨s.builds, hlength, hdead, hflight⟩

/-- Two workers. The build that was handed out last is taken first, its worker
dies in it, and the other build can be taken by the worker that is left. Then
this one dies too. -/
theorem waiting_builds_have_workers_deaths :
    let m : ModuleId := ⟨"/m.js"⟩
    let a : ModuleId := ⟨"/a.js"⟩
    let b : ModuleId := ⟨"/b.js"⟩
    let plan : Plan := ⟨fun _ => .ok ⟨m, "", [("./a.js", a), ("./b.js", b)], ""⟩, 2, 20⟩
    (∃ s, Reachable plan m s ∧ s.jobs = [a] ∧ s.workers = [.dead b, .idle] ∧
      ∃ s', Relation.ReflTransGen (Takes plan) s s' ∧ s'.jobs = []) ∧
    ∃ s, Reachable plan m s ∧ s.Running ∧ s.Disconnected ∧
      ∃ ids, ids.length = 2 ∧ s.workers = ids.map .dead ∧ s.discovery.inFlight.Perm ids := by
  intro m a b plan
  let d₁ : Discovery := (Discovery.start m).handOut m []
  let d₂ : Discovery := accept { d₁ with inFlight := [] } ⟨m, "", [("./a.js", a), ("./b.js", b)], ""⟩
  let d₃ : Discovery := d₂.handOut a [b]
  let d₄ : Discovery := d₃.handOut b []
  have h₁ : Reachable plan m ⟨.dispatching, d₁, [m], [], [.idle, .idle]⟩ :=
    .step .start (.handOut ⟨⟨rfl, by decide, rfl⟩, by decide⟩ (by decide))
  have h₂ : Reachable plan m ⟨.waiting, d₁, [m], [], [.idle, .idle]⟩ :=
    .step h₁ (.wait ⟨rfl, .inr rfl⟩ (by decide))
  have h₃ : Reachable plan m ⟨.waiting, d₁, [], [], [.building m, .idle]⟩ :=
    .step h₂ (@Step.take plan _ [] [.idle] [] m [] rfl rfl)
  have h₄ : Reachable plan m ⟨.waiting, d₁, [], [(m, plan.build m)], [.idle, .idle]⟩ :=
    .step h₃ (@Step.report plan _ [] [.idle] m rfl)
  have h₅ : Reachable plan m ⟨.dispatching, d₂, [], [], [.idle, .idle]⟩ := .step h₄ (.accept rfl rfl rfl)
  have h₆ : Reachable plan m ⟨.dispatching, d₃, [a], [], [.idle, .idle]⟩ :=
    .step h₅ (.handOut ⟨⟨rfl, by decide, rfl⟩, by decide⟩ (by decide))
  have h₇ : Reachable plan m ⟨.dispatching, d₄, [a, b], [], [.idle, .idle]⟩ :=
    .step h₆ (.handOut ⟨⟨rfl, by decide, rfl⟩, by decide⟩ (by decide))
  have h₈ : Reachable plan m ⟨.dispatching, d₄, [a], [], [.building b, .idle]⟩ :=
    .step h₇ (@Step.take plan _ [] [.idle] [a] b [] rfl rfl)
  have h₉ : Reachable plan m ⟨.dispatching, d₄, [a], [], [.dead b, .idle]⟩ :=
    .step h₈ (@Step.die plan _ [] [.idle] b rfl)
  have h₁₀ : Reachable plan m ⟨.dispatching, d₄, [], [], [.dead b, .building a]⟩ :=
    .step h₉ (@Step.take plan _ [.dead b] [] [] a [] rfl rfl)
  have h₁₁ : Reachable plan m ⟨.dispatching, d₄, [], [], [.dead b, .dead a]⟩ :=
    .step h₁₀ (@Step.die plan _ [.dead b] [] a rfl)
  have hrun : Running ⟨.dispatching, d₄, [], [], [.dead b, .dead a]⟩ := running_of_dispatching rfl
  have hdead : Disconnected ⟨.dispatching, d₄, [], [], [.dead b, .dead a]⟩ := by decide
  exact ⟨⟨_, h₉, rfl, rfl, (waiting_builds_have_workers h₉).2.1⟩,
    _, h₁₁, hrun, hdead, (waiting_builds_have_workers h₁₁).2.2.2.2 hrun hdead⟩

end Pool

end Bundler.Discovery
