/-
Pools and discoveries. Whatever its workers do and in whatever order, the
coordinator of a pool does nothing but rounds of a discovery (`Follows`): a
report that it reads is a turn in which that build reports, and it ends as the
discovery with these turns does (`Reachable.discover_eq`). Conversely, a pool
in which all workers are idle but the one that reports next can follow any
discovery that loses no worker (`exists_reachable_discover`).
-/
import Bundler.Proofs.WorkerPool

namespace Bundler.Discovery

variable {plan : Plan} {entry : ModuleId}

/-! ## Handing out one by one -/

theorem dispatchFrom_queue (capacity : Nat) (queue other : List ModuleId) (d : Discovery) :
    dispatchFrom capacity queue { d with queue := other } = dispatchFrom capacity queue d := by
  induction queue generalizing d with
  | nil => rfl
  | cons id queue ih =>
    simp only [dispatchFrom]
    split
    · split
      · exact ih d
      · exact ih { d with visited := d.visited ++ [id], inFlight := d.inFlight ++ [id] }
    · rfl

theorem dispatch_skip {capacity : Nat} {d : Discovery} {id : ModuleId} {queue : List ModuleId}
    (hroom : d.inFlight.length < capacity) (hqueue : d.queue = id :: queue) (hvisited : id ∈ d.visited) :
    ({ d with queue } : Discovery).dispatch capacity = d.dispatch capacity := by
  simp only [dispatch, hqueue, dispatchFrom, hroom, hvisited, if_true, dispatchFrom_queue]

theorem dispatch_handOut {capacity : Nat} {d : Discovery} {id : ModuleId} {queue : List ModuleId}
    (hroom : d.inFlight.length < capacity) (hqueue : d.queue = id :: queue) (hvisited : id ∉ d.visited) :
    (d.handOut id queue).dispatch capacity = d.dispatch capacity := by
  obtain ⟨_, visited, origins, inFlight, table⟩ := d
  cases hqueue
  simp only [dispatch, dispatchFrom, hroom, hvisited, if_true, if_false, handOut]
  exact dispatchFrom_queue capacity queue queue
    ⟨id :: queue, visited ++ [id], origins, inFlight ++ [id], table⟩

/-- Nothing is handed out where the coordinator stops. -/
theorem dispatch_eq_self {capacity : Nat} {d : Discovery}
    (h : capacity ≤ d.inFlight.length ∨ d.queue = []) : d.dispatch capacity = d := by
  obtain ⟨queue, _, _, inFlight, _⟩ := d
  cases queue with
  | nil => rfl
  | cons id queue =>
    have hroom : ¬ inFlight.length < capacity := Nat.not_lt.2 (h.resolve_right (List.cons_ne_nil _ _))
    simp only [dispatch, dispatchFrom, hroom, if_false]

/-- A discovery goes on from each loop head that its turns lead to. -/
theorem LoopHead.discover {past : List Turn} {d : Discovery} (h : LoopHead plan entry past d) :
    ∀ left, Bundler.discover plan (past ++ left) entry = run plan left d := by
  induction h with
  | start => exact fun _ => rfl
  | @turn past d d' earliest rest t _ hf ht ih =>
    intro left
    rw [List.append_assoc, List.singleton_append, ih, run_turn hf]
    simp only [ht]

/-- Any build in flight can be the next to report. -/
theorem turn_report_idxOf {d : Discovery} {id : ModuleId} (hid : id ∈ d.inFlight) (earliest : ModuleId) :
    d.turn plan earliest (.report (d.inFlight.idxOf id)) = d.receive id (plan.build id) := by
  have hget : d.inFlight.getD (d.inFlight.idxOf id) earliest = id := by
    rw [List.getD_eq_getElem?_getD, List.getElem?_idxOf hid, Option.getD_some]
  simp only [turn, hget]

/-- A run that ends in a turn. -/
theorem LoopHead.discover_error {past : List Turn} {d : Discovery} (h : LoopHead plan entry past d)
    {earliest : ModuleId} {rest : List ModuleId} {t : Turn} {e : DiscoveryError}
    (hf : (d.dispatch plan.capacity).inFlight = earliest :: rest)
    (ht : (d.dispatch plan.capacity).turn plan earliest t = .error e) :
    Bundler.discover plan (past ++ [t]) entry = ⟨.error e, (d.dispatch plan.capacity).visited⟩ := by
  rw [h.discover, run_turn hf]
  simp only [ht]

namespace Pool

variable {s s' : Pool} {m : Move}

/-- The discovery that the coordinator of a pool is in. -/
def Follows (plan : Plan) (entry : ModuleId) (s : Pool) : Prop :=
  match s.phase with
  | .dispatching => ∃ past d, LoopHead plan entry past d ∧
      s.discovery.dispatch plan.capacity = d.dispatch plan.capacity
  | .waiting => ∃ past d, LoopHead plan entry past d ∧ s.discovery = d.dispatch plan.capacity
  | .ended result => ∃ turns, discover plan turns entry = ⟨result, s.discovery.visited⟩

theorem Balanced.mem_inFlight_of_results (h : Balanced plan s) (hrun : s.Running)
    {x : ModuleId × Except BuildError ModuleRecord} (hx : x ∈ s.results) : x.1 ∈ s.discovery.inFlight := by
  rw [(h.inFlight hrun).mem_iff, List.mem_append, List.mem_append]
  exact .inl (.inr (List.mem_map_of_mem hx))

/-- A report that is read is a turn: the one in which the build at its position in
flight reports. -/
theorem Follows.read (h : Follows plan entry s) (hb : Balanced plan s)
    (hresults : ∀ x ∈ s.results, x.2 = plan.build x.1) (hphase : s.phase = .waiting) {id : ModuleId}
    {result : Except BuildError ModuleRecord} {results : List (ModuleId × Except BuildError ModuleRecord)}
    (hnext : s.results = (id, result) :: results) :
    ∃ past d earliest rest t, LoopHead plan entry past d ∧ s.discovery = d.dispatch plan.capacity ∧
      (d.dispatch plan.capacity).inFlight = earliest :: rest ∧
      (d.dispatch plan.capacity).turn plan earliest t = s.discovery.receive id result := by
  simp only [Follows, hphase] at h
  obtain ⟨past, d, hd, hdispatch⟩ := h
  have hid := hb.mem_inFlight_of_results (running_of_waiting hphase) (hnext ▸ List.mem_cons_self)
  obtain rfl : result = plan.build id := hresults (id, result) (hnext ▸ List.mem_cons_self)
  rw [hdispatch] at hid ⊢
  obtain ⟨earliest, rest, hf⟩ := List.exists_cons_of_ne_nil (List.ne_nil_of_mem hid)
  exact ⟨past, d, earliest, rest, _, hd, rfl, hf, turn_report_idxOf hid earliest⟩

/-- No move takes a coordinator out of its discovery. -/
theorem Follows.step (h : Follows plan entry s) (hb : Balanced plan s)
    (hresults : ∀ x ∈ s.results, x.2 = plan.build x.1) (hstep : Step plan s m s') : Follows plan entry s' := by
  cases hstep with
  | @skip id queue hpops hvisited =>
    obtain ⟨hphase, hroom, hqueue⟩ := hpops
    simp only [Follows, hphase] at h ⊢
    rw [dispatch_skip hroom hqueue hvisited]
    exact h
  | @handOut id queue hdispatch hlisten =>
    obtain ⟨⟨hphase, hroom, hqueue⟩, hnew⟩ := hdispatch
    simp only [Follows, hphase] at h ⊢
    rw [dispatch_handOut hroom hqueue hnew]
    exact h
  | refuse hdispatch hdisconnected =>
    have hidle := List.count_pos_iff.1 (hb.idle_of_dispatches hdispatch)
    exact absurd (hdisconnected _ hidle) (by decide)
  | wait hstops hf =>
    simp only [Follows, hstops.1] at h ⊢
    rw [dispatch_eq_self hstops.2] at h
    exact h
  | finish hstops hf =>
    simp only [Follows, hstops.1] at h ⊢
    obtain ⟨past, d, hd, hdispatch⟩ := h
    rw [dispatch_eq_self hstops.2] at hdispatch
    refine ⟨past ++ [], ?_⟩
    rw [hdispatch] at hf
    rw [hd.discover, run_finished [] hf, hdispatch]
    rfl
  | @accept id result results d' hphase hnext hd' =>
    obtain ⟨past, d, earliest, rest, t, hd, -, hf, ht⟩ := h.read hb hresults hphase hnext
    simp only [Follows]
    exact ⟨past ++ [t], d', .turn hd hf (ht.trans hd'), rfl⟩
  | @reject id result results e hphase hnext he =>
    obtain ⟨past, d, earliest, rest, t, hd, hdispatch, hf, ht⟩ := h.read hb hresults hphase hnext
    simp only [Follows]
    rw [hdispatch]
    exact ⟨past ++ [t], hd.discover_error hf (ht.trans he)⟩
  | @expire earliest rest sharing hphase hnone hf =>
    simp only [Follows, hphase] at h ⊢
    obtain ⟨past, d, hd, hdispatch⟩ := h
    rw [hdispatch] at hf ⊢
    exact ⟨past ++ [.silence sharing], hd.discover_error hf rfl⟩
  | @disconnect earliest rest sharing hphase hnone hgone hf =>
    simp only [Follows, hphase] at h ⊢
    obtain ⟨past, d, hd, hdispatch⟩ := h
    rw [hdispatch] at hf ⊢
    exact ⟨past ++ [.noWorkers sharing], hd.discover_error hf rfl⟩
  | take | report | die | leave | discard => exact h

/-- What is read is what builds give. -/
theorem Reachable.results (h : Reachable plan entry s) : ∀ x ∈ s.results, x.2 = plan.build x.1 := by
  induction h with
  | start => exact fun _ hx => absurd hx List.not_mem_nil
  | @step s m s' _ hstep ih =>
    cases hstep with
    | accept hphase hnext | reject hphase hnext =>
      rw [hnext] at ih
      exact fun x hx => ih x (List.mem_cons_of_mem _ hx)
    | report hworkers =>
      intro x hx
      rcases List.mem_append.1 hx with hx | hx
      · exact ih x hx
      · rw [List.mem_singleton.1 hx]
    | _ => exact ih

theorem Reachable.follows (h : Reachable plan entry s) : Follows plan entry s := by
  induction h with
  | start => exact ⟨[], _, .start, rfl⟩
  | step h hstep ih => exact ih.step h.balanced h.results hstep

/-- **A pool ends as a discovery with some turns does**, whatever its workers do. -/
theorem Reachable.discover_eq (h : Reachable plan entry s) {result : Except DiscoveryError ModuleTable}
    (hended : s.phase = .ended result) :
    ∃ turns, discover plan turns entry = ⟨result, s.discovery.visited⟩ := by
  have hfollows := h.follows
  simp only [Follows, hended] at hfollows
  exact hfollows

/-! ## Pools for a discovery -/

/-- A pool in which all workers are idle. -/
def atRest (plan : Plan) (phase : Phase) (d : Discovery) : Pool where
  phase := phase
  discovery := d
  jobs := d.inFlight
  workers := List.replicate plan.capacity .idle

theorem Reachable.dispatch : ∀ (queue : List ModuleId) (d : Discovery), d.queue = queue →
    Reachable plan entry (atRest plan .dispatching d) →
    Reachable plan entry (atRest plan .dispatching (d.dispatch plan.capacity))
  | [], d, hqueue, h => by
    rw [dispatch_eq_self (.inr hqueue)]
    exact h
  | id :: queue, d, hqueue, h => by
    by_cases hroom : d.inFlight.length < plan.capacity
    · by_cases hvisited : id ∈ d.visited
      · rw [← dispatch_skip hroom hqueue hvisited]
        exact dispatch queue _ rfl (.step h (.skip ⟨rfl, hroom, hqueue⟩ hvisited))
      · have hlisten : ¬ (atRest plan .dispatching d).Disconnected := fun hd => by
          have hidle : Worker.idle ∈ List.replicate plan.capacity Worker.idle :=
            List.mem_replicate.2 ⟨Nat.ne_of_gt (Nat.zero_lt_of_lt hroom), rfl⟩
          cases hd _ hidle
        rw [← dispatch_handOut hroom hqueue hvisited]
        exact dispatch queue _ rfl (.step h (.handOut ⟨⟨rfl, hroom, hqueue⟩, hvisited⟩ hlisten))
    · rw [dispatch_eq_self (.inl (Nat.not_lt.1 hroom))]
      exact h

theorem Reachable.wait {d : Discovery} (h : Reachable plan entry (atRest plan .dispatching d))
    (hf : (d.dispatch plan.capacity).inFlight ≠ []) :
    Reachable plan entry (atRest plan .waiting (d.dispatch plan.capacity)) :=
  .step (h.dispatch d.queue d rfl) (.wait ⟨rfl, d.dispatch_stops _⟩ hf)

/-- A build in flight is taken and reports, and nothing else happens. -/
theorem Reachable.report {d : Discovery} (h : Reachable plan entry (atRest plan .waiting d)) {id : ModuleId}
    (hid : id ∈ d.inFlight) :
    Reachable plan entry { atRest plan .waiting d with
      jobs := d.inFlight.erase id, results := [(id, plan.build id)] } := by
  obtain ⟨front, back, -, hjobs, herase⟩ := List.exists_erase_eq hid
  -- something is in flight, so there is a worker
  have hroom : 0 < plan.capacity := (List.length_pos_of_mem hid).trans_le h.balanced.room
  obtain ⟨n, hn⟩ := Nat.exists_eq_succ_of_ne_zero (Nat.ne_of_gt hroom)
  have hworkers : List.replicate plan.capacity Worker.idle = [] ++ .idle :: List.replicate n .idle := by
    rw [hn]; rfl
  have htaken := Reachable.step h (.take hworkers hjobs)
  have hreported := Reachable.step htaken (.report rfl)
  rw [herase]
  simpa only [atRest, hworkers, List.nil_append] using hreported

/-- A pool for each loop head. -/
theorem reachable_of_loopHead {past : List Turn} {d : Discovery} (h : LoopHead plan entry past d) :
    Reachable plan entry (atRest plan .dispatching d) := by
  induction h with
  | start => exact .start
  | @turn past d d' earliest rest t hd hf ht ih =>
    obtain ⟨_, -, id, hid, r, hb, rfl⟩ := turn_ok hf ht
    have hread := (ih.wait (hf ▸ List.cons_ne_nil _ _)).report hid
    have haccepted := Reachable.step hread (.accept rfl rfl (by rw [hb]; rfl))
    rw [atRest, accept_inFlight]
    exact haccepted

/-- **Each discovery in which no worker dies is that of some pool.** -/
theorem exists_reachable_discover {turns : List Turn} (hturns : ∀ sharing, .noWorkers sharing ∉ turns) :
    ∃ s, Reachable plan entry s ∧ s.phase = .ended (discover plan turns entry).result ∧
      s.discovery.visited = (discover plan turns entry).visited := by
  obtain ⟨taken, left, d, rfl, hd, hend⟩ := discover_cases plan turns entry
  have hhead := reachable_of_loopHead hd
  generalize discover plan (taken ++ left) entry = o at hend
  cases hend with
  | finished hf =>
    exact ⟨_, .step (hhead.dispatch d.queue d rfl) (.finish ⟨rfl, d.dispatch_stops _⟩ hf), rfl, rfl⟩
  | outOfTurns hf =>
    exact ⟨_, .step (hhead.wait (hf ▸ List.cons_ne_nil _ _)) (.expire 0 rfl rfl hf), rfl, rfl⟩
  | @failed earliest rest t left e hf ht =>
    have hwaiting := hhead.wait (hf ▸ List.cons_ne_nil _ _)
    rcases turn_cases plan hf t with ⟨_, -, id, hid, ⟨r, -, hok⟩ | ⟨b, hb, he⟩⟩ |
      ⟨sharing, ⟨-, he⟩ | ⟨rfl, -⟩⟩
    · rw [ht] at hok; cases hok
    · rw [ht] at he; cases he
      exact ⟨_, .step (hwaiting.report hid) (.reject rfl rfl (by rw [hb]; rfl)), rfl, rfl⟩
    · rw [ht] at he; cases he
      exact ⟨_, .step hwaiting (.expire sharing rfl rfl hf), rfl, rfl⟩
    · exact absurd (List.mem_append_right _ List.mem_cons_self) (hturns sharing)

end Pool

end Bundler.Discovery
