/-
What a discovery does step by step: handing out builds, taking a report, and
the turns of a run. `LoopHead` says which states the coordinator is in when it
starts a round, and after which turns; `run_cases` says how a run ends.
-/
import Mathlib.Data.Set.Card
import Mathlib.Logic.Relation
import Bundler.Discovery
import Bundler.Proofs.TableFacts

namespace Bundler.Discovery

/-! ## What an entry needs -/

section

variable (build : ModuleId → Except BuildError ModuleRecord)

/-- The record built for a module maps one of its imports to another. -/
def Imports (importer imported : ModuleId) : Prop :=
  ∃ r, build importer = .ok r ∧ imported ∈ r.deps.targets

/-- A module that imports lead to, through modules that are built. -/
def Reachable (entry id : ModuleId) : Prop := Relation.ReflTransGen (Imports build) entry id

/-- A build gives the record of the module it was asked for. -/
def Faithful : Prop := ∀ id r, build id = .ok r → r.id = id

/-- What a module imports, in the order of its record. One that cannot be built
imports nothing. -/
def importsOf (id : ModuleId) : List ModuleId :=
  match build id with
  | .ok r => r.deps.targets
  | .error _ => []

variable {build}

theorem importsOf_ok {id : ModuleId} {r : ModuleRecord} (h : build id = .ok r) :
    importsOf build id = r.deps.targets := by
  simp only [importsOf, h]

theorem mem_importsOf {importer imported : ModuleId} :
    imported ∈ importsOf build importer ↔ Imports build importer imported := by
  unfold importsOf Imports
  cases build importer with
  | ok r => simp
  | error e => simp

/-- Modules that hold the imports of each other bound what one of them needs. -/
theorem reachable_finite {entry : ModuleId} {ids : Finset ModuleId} (hentry : entry ∈ ids)
    (hclosed : ∀ importer ∈ ids, ∀ imported ∈ importsOf build importer, imported ∈ ids) :
    {id | Reachable build entry id}.Finite ∧ {id | Reachable build entry id}.ncard ≤ ids.card := by
  have hsub : {id | Reachable build entry id} ⊆ ids := by
    intro id hid
    induction hid with
    | refl => exact hentry
    | tail _ himports ih => exact hclosed _ ih _ (mem_importsOf.2 himports)
  rw [← Set.ncard_coe_finset]
  exact ⟨ids.finite_toSet.subset hsub, Set.ncard_le_ncard hsub ids.finite_toSet⟩

end

/-- Visited, or waiting for it. -/
def Knows (d : Discovery) (id : ModuleId) : Prop := id ∈ d.visited ∨ id ∈ d.queue

/-! ## Handing out -/

theorem dispatchFrom_table (capacity : Nat) (queue : List ModuleId) (d : Discovery) :
    (dispatchFrom capacity queue d).table = d.table := by
  fun_induction dispatchFrom capacity queue d <;> simp_all

@[simp] theorem dispatch_table (d : Discovery) (capacity : Nat) :
    (d.dispatch capacity).table = d.table := dispatchFrom_table ..

/-- What is handed out is visited and in flight, is new, and was in the queue. -/
theorem dispatchFrom_handsOut (capacity : Nat) (queue : List ModuleId) (d : Discovery) :
    ∃ new : List ModuleId,
      (dispatchFrom capacity queue d).visited = d.visited ++ new ∧
      (dispatchFrom capacity queue d).inFlight = d.inFlight ++ new ∧
      new.Nodup ∧ (∀ id ∈ new, id ∉ d.visited) ∧
      ∀ id, id ∈ d.visited ++ queue ↔
        id ∈ (dispatchFrom capacity queue d).visited ++ (dispatchFrom capacity queue d).queue := by
  fun_induction dispatchFrom capacity queue d with
  | case1 d => exact ⟨[], by simp⟩
  | case2 id queue d hroom hmem ih =>
    obtain ⟨new, hv, hf, hn, hnew, hk⟩ := ih
    refine ⟨new, hv, hf, hn, hnew, fun x => ?_⟩
    rw [← hk x]
    simp only [List.mem_append, List.mem_cons]
    constructor
    · rintro (h | rfl | h)
      · exact .inl h
      · exact .inl hmem
      · exact .inr h
    · rintro (h | h)
      · exact .inl h
      · exact .inr (.inr h)
  | case3 id queue d hroom hmem ih =>
    obtain ⟨new, hv, hf, hn, hnew, hk⟩ := ih
    simp only [List.mem_append, List.mem_singleton, not_or] at hnew
    refine ⟨id :: new, by simpa using hv, by simpa using hf, ?_, ?_, fun x => ?_⟩
    · exact List.nodup_cons.2 ⟨fun h => (hnew id h).2 rfl, hn⟩
    · intro x hx
      rcases List.mem_cons.1 hx with rfl | hx
      · exact hmem
      · exact (hnew x hx).1
    · rw [← hk x]
      simp only [List.mem_append, List.mem_cons, List.not_mem_nil, or_false, or_assoc]
  | case4 id queue d hroom => exact ⟨[], by simp⟩

theorem dispatch_handsOut (d : Discovery) (capacity : Nat) :
    ∃ new : List ModuleId,
      (d.dispatch capacity).visited = d.visited ++ new ∧
      (d.dispatch capacity).inFlight = d.inFlight ++ new ∧
      new.Nodup ∧ ∀ id ∈ new, id ∉ d.visited := by
  obtain ⟨new, hv, hf, hn, hnew, -⟩ := dispatchFrom_handsOut capacity d.queue d
  exact ⟨new, hv, hf, hn, hnew⟩

@[simp] theorem dispatch_knows {d : Discovery} {capacity : Nat} {id : ModuleId} :
    (d.dispatch capacity).Knows id ↔ d.Knows id := by
  obtain ⟨_, -, -, -, -, hk⟩ := dispatchFrom_handsOut capacity d.queue d
  simp only [List.mem_append] at hk
  exact (hk id).symm

theorem dispatchFrom_stops (capacity : Nat) (queue : List ModuleId) (d : Discovery) :
    capacity ≤ (dispatchFrom capacity queue d).inFlight.length ∨
      (dispatchFrom capacity queue d).queue = [] := by
  fun_induction dispatchFrom capacity queue d with
  | case1 d => exact .inr rfl
  | case2 id queue d hroom hmem ih => exact ih
  | case3 id queue d hroom hmem ih => exact ih
  | case4 id queue d hroom => exact .inl (Nat.not_lt.1 hroom)

/-- No more builds are handed out only if there is no room, or nothing to build. -/
theorem dispatch_stops (d : Discovery) (capacity : Nat) :
    capacity ≤ (d.dispatch capacity).inFlight.length ∨ (d.dispatch capacity).queue = [] :=
  dispatchFrom_stops capacity d.queue d

/-- With a worker to hand builds to, nothing is left in the queue when nothing
is in flight. -/
theorem dispatch_settled {capacity : Nat} (hc : 0 < capacity) {d : Discovery}
    (h : (d.dispatch capacity).inFlight = []) : (d.dispatch capacity).queue = [] := by
  refine (d.dispatch_stops capacity).resolve_left fun hfull => ?_
  rw [h] at hfull
  exact absurd hc (Nat.not_lt.2 hfull)

/-! ## Reports -/

@[simp] theorem noteImport_visited (importer : ModuleId) (d : Discovery) (dep : String × ModuleId) :
    (noteImport importer d dep).visited = d.visited := by
  simp only [noteImport]; split <;> rfl

@[simp] theorem noteImport_inFlight (importer : ModuleId) (d : Discovery) (dep : String × ModuleId) :
    (noteImport importer d dep).inFlight = d.inFlight := by
  simp only [noteImport]; split <;> rfl

@[simp] theorem noteImport_table (importer : ModuleId) (d : Discovery) (dep : String × ModuleId) :
    (noteImport importer d dep).table = d.table := by
  simp only [noteImport]; split <;> rfl

theorem noteImport_knows {importer : ModuleId} {d : Discovery} {dep : String × ModuleId} {id : ModuleId} :
    (noteImport importer d dep).Knows id ↔ d.Knows id ∨ id = dep.2 := by
  simp only [noteImport, Knows]
  split
  · next hmem =>
    constructor
    · exact .inl
    · rintro (h | rfl)
      · exact h
      · exact .inl hmem
  · simp only [List.mem_append, List.mem_singleton, or_assoc]

theorem noteImports_visited (importer : ModuleId) : ∀ (deps : DependencyMap) (d : Discovery),
    (deps.foldl (noteImport importer) d).visited = d.visited
  | [], _ => rfl
  | dep :: deps, d => by
    rw [List.foldl_cons, noteImports_visited importer deps, noteImport_visited]

theorem noteImports_inFlight (importer : ModuleId) : ∀ (deps : DependencyMap) (d : Discovery),
    (deps.foldl (noteImport importer) d).inFlight = d.inFlight
  | [], _ => rfl
  | dep :: deps, d => by
    rw [List.foldl_cons, noteImports_inFlight importer deps, noteImport_inFlight]

theorem noteImports_table (importer : ModuleId) : ∀ (deps : DependencyMap) (d : Discovery),
    (deps.foldl (noteImport importer) d).table = d.table
  | [], _ => rfl
  | dep :: deps, d => by
    rw [List.foldl_cons, noteImports_table importer deps, noteImport_table]

theorem noteImports_knows {importer : ModuleId} {id : ModuleId} : ∀ (deps : DependencyMap) (d : Discovery),
    (deps.foldl (noteImport importer) d).Knows id ↔ d.Knows id ∨ id ∈ deps.targets
  | [], d => by simp [DependencyMap.targets]
  | dep :: deps, d => by
    rw [List.foldl_cons, noteImports_knows deps, noteImport_knows]
    simp only [DependencyMap.targets, List.map_cons, List.mem_cons, or_assoc]

theorem noteImports_queue (importer : ModuleId) : ∀ (deps : DependencyMap) (d : Discovery),
    (deps.foldl (noteImport importer) d).queue = d.queue ++ deps.targets.filter fun id => id ∉ d.visited
  | [], d => by simp [DependencyMap.targets]
  | dep :: deps, d => by
    rw [List.foldl_cons, noteImports_queue importer deps, noteImport_visited, noteImport]
    by_cases hvisited : dep.2 ∈ d.visited
    · simp [DependencyMap.targets, hvisited]
    · simp [DependencyMap.targets, hvisited]

/-- An accepted record puts its imports into the queue that are not visited. -/
theorem accept_queue (d : Discovery) (r : ModuleRecord) :
    (d.accept r).queue = d.queue ++ r.deps.targets.filter fun id => id ∉ d.visited :=
  noteImports_queue r.id r.deps d

@[simp] theorem accept_visited (d : Discovery) (r : ModuleRecord) : (d.accept r).visited = d.visited :=
  noteImports_visited r.id r.deps d

@[simp] theorem accept_inFlight (d : Discovery) (r : ModuleRecord) : (d.accept r).inFlight = d.inFlight :=
  noteImports_inFlight r.id r.deps d

@[simp] theorem accept_table (d : Discovery) (r : ModuleRecord) :
    (d.accept r).table = d.table.insert r := by
  simp only [accept, noteImports_table]

@[simp] theorem accept_knows {d : Discovery} {r : ModuleRecord} {id : ModuleId} :
    (d.accept r).Knows id ↔ d.Knows id ∨ id ∈ r.deps.targets := noteImports_knows r.deps d

/-! ## Turns -/

/-- Only a build in flight reports. -/
theorem getD_mem_inFlight {d : Discovery} {earliest : ModuleId} {rest : List ModuleId}
    (hf : d.inFlight = earliest :: rest) (position : Nat) :
    d.inFlight.getD position earliest ∈ d.inFlight := by
  rw [List.getD_eq_getElem?_getD]
  cases hp : d.inFlight[position]? with
  | none => exact hf ▸ List.mem_cons_self
  | some id => exact List.mem_of_getElem? hp

theorem foldl_least_mem : ∀ (ids : List ModuleId) (earliest : ModuleId),
    ids.foldl (fun least id => if id.le least then id else least) earliest ∈ earliest :: ids
  | [], _ => List.mem_cons_self
  | id :: ids, earliest => by
    rw [List.foldl_cons]
    rcases List.mem_cons.1 (foldl_least_mem ids (if id.le earliest then id else earliest)) with h | h
    · rw [h]
      split <;> simp
    · exact List.mem_cons_of_mem _ (List.mem_cons_of_mem _ h)

/-- A build that is told of is in flight. -/
theorem soonest_mem_inFlight {d : Discovery} {earliest : ModuleId} {rest : List ModuleId}
    (hf : d.inFlight = earliest :: rest) (sharing : Nat) : d.soonest earliest sharing ∈ d.inFlight := by
  rcases List.mem_cons.1 (foldl_least_mem (d.inFlight.take sharing) earliest) with h | h
  · rw [soonest, h, hf]
    exact List.mem_cons_self
  · exact List.mem_of_mem_take h

/-- What a turn does while builds are in flight: a build in flight reports, or
one with the next deadline fails. -/
theorem turn_cases (plan : Plan) {d : Discovery} {earliest : ModuleId} {rest : List ModuleId}
    (hf : d.inFlight = earliest :: rest) (t : Turn) :
    (∃ position, t = .report position ∧ ∃ id ∈ d.inFlight,
      (∃ r, plan.build id = .ok r ∧
        d.turn plan earliest t = .ok (accept { d with inFlight := d.inFlight.erase id } r)) ∨
      ∃ e, plan.build id = .error e ∧ d.turn plan earliest t = .error (d.fail id e)) ∨
    ∃ sharing,
      (t = .silence sharing ∧
        d.turn plan earliest t = .error (d.expire plan.timeoutMs (d.soonest earliest sharing))) ∨
      (t = .noWorkers sharing ∧ d.turn plan earliest t = .error (d.abandon (d.soonest earliest sharing))) := by
  cases t with
  | silence sharing => exact .inr ⟨sharing, .inl ⟨rfl, rfl⟩⟩
  | noWorkers sharing => exact .inr ⟨sharing, .inr ⟨rfl, rfl⟩⟩
  | report position =>
    refine .inl ⟨position, rfl, d.inFlight.getD position earliest, getD_mem_inFlight hf position, ?_⟩
    cases hb : plan.build (d.inFlight.getD position earliest) with
    | ok r => exact .inl ⟨r, rfl, by simp only [turn, hb, receive]⟩
    | error e => exact .inr ⟨e, rfl, by simp only [turn, hb, receive]⟩

theorem turn_ok {d d' : Discovery} {plan : Plan} {earliest : ModuleId} {rest : List ModuleId} {t : Turn}
    (hf : d.inFlight = earliest :: rest) (h : d.turn plan earliest t = .ok d') :
    ∃ position, t = .report position ∧ ∃ id ∈ d.inFlight, ∃ r, plan.build id = .ok r ∧
      d' = accept { d with inFlight := d.inFlight.erase id } r := by
  rcases turn_cases plan hf t with ⟨p, ht, id, hid, ⟨r, hr, hok⟩ | ⟨e, -, he⟩⟩ |
    ⟨sharing, ⟨-, he⟩ | ⟨-, he⟩⟩
  · rw [h, Except.ok.injEq] at hok
    exact ⟨p, ht, id, hid, r, hr, hok⟩
  all_goals rw [h] at he; cases he

/-! ## Runs -/

/-- The states in which a run of the coordinator starts a round, with the
turns taken before. -/
inductive LoopHead (plan : Plan) (entry : ModuleId) : List Turn → Discovery → Prop
  | start : LoopHead plan entry [] (.start entry)
  | turn {past d d' earliest rest t} : LoopHead plan entry past d →
      (d.dispatch plan.capacity).inFlight = earliest :: rest →
      (d.dispatch plan.capacity).turn plan earliest t = .ok d' → LoopHead plan entry (past ++ [t]) d'

/-- How a run ends in a round, with these turns still to come. -/
inductive Ending (plan : Plan) (d : Discovery) : List Turn → DiscoveryOutcome → Prop
  | finished {left} : (d.dispatch plan.capacity).inFlight = [] →
      Ending plan d left (d.dispatch plan.capacity).finish
  | outOfTurns {earliest rest} : (d.dispatch plan.capacity).inFlight = earliest :: rest →
      Ending plan d [] ⟨.error ((d.dispatch plan.capacity).expire plan.timeoutMs earliest),
        (d.dispatch plan.capacity).visited⟩
  | failed {earliest rest t left e} : (d.dispatch plan.capacity).inFlight = earliest :: rest →
      (d.dispatch plan.capacity).turn plan earliest t = .error e →
      Ending plan d (t :: left) ⟨.error e, (d.dispatch plan.capacity).visited⟩

theorem run_finished {plan : Plan} {d : Discovery} (turns : List Turn)
    (hf : (d.dispatch plan.capacity).inFlight = []) :
    run plan turns d = (d.dispatch plan.capacity).finish := by
  cases turns <;> (unfold run; simp only [hf])

theorem run_outOfTurns {plan : Plan} {d : Discovery} {earliest : ModuleId} {rest : List ModuleId}
    (hf : (d.dispatch plan.capacity).inFlight = earliest :: rest) :
    run plan [] d = ⟨.error ((d.dispatch plan.capacity).expire plan.timeoutMs earliest),
      (d.dispatch plan.capacity).visited⟩ := by
  unfold run; simp only [hf]

theorem run_turn {plan : Plan} {d : Discovery} {earliest : ModuleId} {rest : List ModuleId}
    (hf : (d.dispatch plan.capacity).inFlight = earliest :: rest) (t : Turn) (turns : List Turn) :
    run plan (t :: turns) d =
      match (d.dispatch plan.capacity).turn plan earliest t with
      | .ok d' => run plan turns d'
      | .error e => ⟨.error e, (d.dispatch plan.capacity).visited⟩ := by
  cases ht : (d.dispatch plan.capacity).turn plan earliest t <;>
    (conv_lhs => unfold run) <;> simp only [hf, ht]

/-- **Every run ends in a round it reaches.** -/
theorem run_cases {plan : Plan} {entry : ModuleId} : ∀ (turns : List Turn) {past d},
    LoopHead plan entry past d →
    ∃ taken left d', turns = taken ++ left ∧ LoopHead plan entry (past ++ taken) d' ∧
      Ending plan d' left (run plan turns d) := by
  intro turns
  induction turns with
  | nil =>
    intro past d h
    refine ⟨[], [], d, rfl, by simpa using h, ?_⟩
    cases hf : (d.dispatch plan.capacity).inFlight with
    | nil => rw [run_finished _ hf]; exact .finished hf
    | cons earliest rest => rw [run_outOfTurns hf]; exact .outOfTurns hf
  | cons t turns ih =>
    intro past d h
    cases hf : (d.dispatch plan.capacity).inFlight with
    | nil =>
      refine ⟨[], t :: turns, d, rfl, by simpa using h, ?_⟩
      rw [run_finished _ hf]; exact .finished hf
    | cons earliest rest =>
      cases ht : (d.dispatch plan.capacity).turn plan earliest t with
      | error e =>
        refine ⟨[], t :: turns, d, rfl, by simpa using h, ?_⟩
        simp only [run_turn hf, ht]; exact .failed hf ht
      | ok d' =>
        obtain ⟨taken, left, d'', rfl, hd'', hend⟩ := ih (.turn h hf ht)
        refine ⟨t :: taken, left, d'', rfl, by simpa using hd'', ?_⟩
        simp only [run_turn hf, ht]; exact hend

theorem discover_cases (plan : Plan) (turns : List Turn) (entry : ModuleId) :
    ∃ taken left d, turns = taken ++ left ∧ LoopHead plan entry taken d ∧
      Ending plan d left (discover plan turns entry) := run_cases turns .start

end Bundler.Discovery
