/-
The requires that come up while a loader is used: those asked for from outside
and, through the bodies they start, all further ones (`LoaderUnits.Makes`).
Each is a stretch of the run, so what is known when it is asked is known
when it is answered, and from then on (`makes_steps`, `asks_steps`). Hence every
answer for a module is the same object (`single_instance`).
-/
import Bundler.Proofs.LoaderMemory

namespace Bundler

open LoaderMemory Relation

variable {α : Type}

/-! ## Running bodies -/

/-- A body goes one instruction further. -/
inductive Body.Goes (require : String → LoaderMemory α → Except LoadError ExportsRef × LoaderMemory α) :
    Body α × LoaderMemory α → Body α × LoaderMemory α → Prop
  | require (specifier : String) (next : Except LoadError ExportsRef → Body α) (m : LoaderMemory α) :
    Goes require (.require specifier next, m) (next (require specifier m).1, (require specifier m).2)
  | read (ref : ExportsRef) (next : Exports α → Body α) (m : LoaderMemory α) :
    Goes require (.read ref next, m) (next (m.read ref), m)
  | write (ref : ExportsRef) (name : String) (value : α) (next : Body α) (m : LoaderMemory α) :
    Goes require (.write ref name value next, m) (next, m.write ref name value)
  | history (next : List LoadEvent → Body α) (m : LoaderMemory α) :
    Goes require (.history next, m) (next m.history, m)

variable {require : String → LoaderMemory α → Except LoadError ExportsRef × LoaderMemory α}

/-- A run goes on from wherever it is. -/
theorem Body.run_of_goes {at₁ at₂ : Body α × LoaderMemory α} (h : ReflTransGen (Body.Goes require) at₁ at₂) :
    at₁.1.run require at₁.2 = at₂.1.run require at₂.2 := by
  induction h with
  | refl => rfl
  | tail _ hgoes ih =>
    rw [ih]
    cases hgoes <;> rfl

theorem Body.steps_of_goes (hrequire : ∀ specifier m, Steps m (require specifier m).2)
    {at₁ at₂ : Body α × LoaderMemory α} (h : ReflTransGen (Body.Goes require) at₁ at₂) :
    Steps at₁.2 at₂.2 := by
  induction h with
  | refl => exact .refl
  | tail _ hgoes ih =>
    cases hgoes with
    | require specifier next m => exact ih.trans (hrequire specifier m)
    | read ref next m => exact ih
    | write ref name value next m => exact ih.tail (.write m ref name value)
    | history next m => exact ih

/-! ## Requires within requires -/

/-- A require that comes up: for a module, in some memory, with so many bodies
that may be under way in each other below it. -/
structure LoaderCall (α : Type) where
  depth : Nat
  id : ModuleId
  memory : LoaderMemory α

namespace LoaderUnits

variable {units : LoaderUnits α} {c c' : LoaderCall α}

/-- What a require comes to. -/
def answer (units : LoaderUnits α) (c : LoaderCall α) : Except LoadError ExportsRef × LoaderMemory α :=
  units.require c.depth c.id c.memory

/-- A require starts a body, and the body comes to an import. -/
inductive Makes (units : LoaderUnits α) : LoaderCall α → LoaderCall α → Prop
  | intro {depth : Nat} {id target : ModuleId} {m m' : LoaderMemory α} {u : LoaderUnit α}
      {specifier : String} {next : Except LoadError ExportsRef → Body α} :
    m.cached? id = none → units.get? id = some u →
    ReflTransGen (Body.Goes (units.requireFrom depth id u.deps))
      (u.body (m.start id).1, (m.start id).2) (.require specifier next, m') →
    u.deps.resolve id specifier = .ok target →
    Makes units ⟨depth + 1, id, m⟩ ⟨depth, target, m'⟩

/-- A require within a require is a stretch of it. -/
theorem makes_steps (h : units.Makes c c') :
    Steps c.memory c'.memory ∧ Steps (units.answer c').2 (units.answer c).2 := by
  cases h with
  | @intro depth id target m m' u specifier next hc hu hgoes htarget =>
    refine ⟨.head (.start m id hc) (Body.steps_of_goes (requireFrom_steps (units.require_steps depth) id u.deps) hgoes), ?_⟩
    have hanswer : units.answer ⟨depth, target, m'⟩ = units.requireFrom depth id u.deps specifier m' := by
      simp only [answer, requireFrom, htarget]
    have hrun := Body.run_of_goes hgoes
    rw [hanswer, answer, require_start hc hu, runBody, hrun]
    exact .tail (Body.run_steps (requireFrom_steps (units.require_steps depth) id u.deps) _ _) (.finish _ id)

theorem calls_steps (h : ReflTransGen units.Makes c c') :
    Steps c.memory c'.memory ∧ Steps (units.answer c').2 (units.answer c).2 := by
  induction h with
  | refl => exact ⟨.refl, .refl⟩
  | tail _ h ih => exact ⟨ih.1.trans (makes_steps h).1, (makes_steps h).2.trans ih.2⟩

/-! ## Depth -/

/-- How many modules are yet to start. -/
def pending (units : LoaderUnits α) (m : LoaderMemory α) : Nat :=
  units.countP fun u => (m.cached? u.1).isNone

theorem pending_le (units : LoaderUnits α) {m m' : LoaderMemory α} (h : m.Extends m') :
    units.pending m' ≤ units.pending m := by
  refine List.countP_mono_left fun u _ hu => ?_
  cases hc : m.cached? u.1 with
  | none => rfl
  | some ref => rw [h.cached _ _ hc] at hu; exact hu

theorem pending_lt {m m' : LoaderMemory α} {u : LoaderUnit α} {id : ModuleId} (h : m.Extends m')
    (hu : units.get? id = some u) (hc : m.cached? id = none) (hc' : (m'.cached? id).isSome = true) :
    units.pending m' < units.pending m := by
  obtain ⟨⟨id', u'⟩, hfind, -⟩ := Option.map_eq_some_iff.1 hu
  have hid : id' = id := by simpa using List.find?_some hfind
  subst hid
  obtain ⟨before, after, rfl⟩ := List.append_of_mem (List.mem_of_find?_eq_some hfind)
  have hbefore := pending_le before h
  have hafter := pending_le after h
  simp only [pending] at hbefore hafter ⊢
  rw [List.countP_append, List.countP_append, List.countP_cons_of_neg, List.countP_cons_of_pos]
  · omega
  · simp [hc]
  · simpa [Option.isSome_iff_ne_none] using hc'

theorem pending_start_lt {u : LoaderUnit α} {id : ModuleId} {m : LoaderMemory α}
    (hc : m.cached? id = none) (hu : units.get? id = some u) :
    units.pending (m.start id).2 < units.pending m :=
  pending_lt (Step.start m id hc).extends hu hc (by rw [start_cached?_self]; rfl)

/-- There is room for as many bodies as are yet to start. -/
theorem calls_room (h : ReflTransGen units.Makes c c') (hc : units.pending c.memory ≤ c.depth) :
    units.pending c'.memory ≤ c'.depth := by
  induction h with
  | refl => exact hc
  | tail _ h ih =>
    cases h with
    | @intro depth id target m m' u specifier next hcached hu hgoes htarget =>
      have hsteps := Body.steps_of_goes (requireFrom_steps (units.require_steps depth) id u.deps) hgoes
      have hself : (m'.cached? id).isSome = true := by
        rw [hsteps.extends.cached _ _ (start_cached?_self m id)]; rfl
      have hlt := pending_lt ((Step.start m id hcached).extends.trans hsteps.extends) hu hcached hself
      exact Nat.le_of_lt_succ (Nat.lt_of_lt_of_le hlt ih)

/-- A module that a require is for is loaded by it, if it is there. -/
theorem isSome_cached?_answer (hroom : units.pending c.memory ≤ c.depth)
    (h : (units.get? c.id).isSome = true) : ((units.answer c).2.cached? c.id).isSome = true := by
  obtain ⟨depth, id, m⟩ := c
  obtain ⟨u, hu⟩ := Option.isSome_iff_exists.1 h
  simp only [answer] at *
  cases hc : m.cached? id with
  | some ref => rw [require_cached hc, hc]; rfl
  | none =>
    have hpos : units.pending (m.start id).2 < units.pending m :=
      pending_lt (Step.start m id hc).extends hu hc (by rw [start_cached?_self]; rfl)
    obtain ⟨depth, rfl⟩ : ∃ d, depth = d + 1 := ⟨depth - 1, by omega⟩
    rw [require_start hc hu, finish_cached?]
    rw [(units.runBody_steps depth id u m).extends.cached _ _ (start_cached?_self m id)]
    rfl

/-- The answer of a require is what the loader knows its module by. -/
theorem cached?_of_answer {ref : ExportsRef} (h : (units.answer c).1 = .ok ref) :
    (units.answer c).2.cached? c.id = some ref := by
  obtain ⟨depth, id, m⟩ := c
  simp only [answer] at *
  cases hc : m.cached? id with
  | some ref' => rw [require_cached hc] at h ⊢; cases h; exact hc
  | none =>
    cases depth with
    | zero => rw [require_zero hc] at h; cases h
    | succ depth =>
      cases hu : units.get? id with
      | none => rw [require_unknown hc hu] at h; cases h
      | some u =>
        rw [require_start hc hu] at h ⊢
        rw [finish_cached?, (units.runBody_steps depth id u m).extends.cached _ _ (start_cached?_self m id)]
        cases hr : (units.runBody depth id u m).1 with
        | error e => simp [hr, Except.map] at h
        | ok => simpa [hr, Except.map] using h

end LoaderUnits

/-! ## Use from outside -/

/-- What can be asked of a loader. -/
inductive HostCall (α : Type) where
  | register (id : ModuleId) (deps : DependencyMap) (body : ExportsRef → Body α)
  | require (id : ModuleId)
  | run (id : ModuleId)
  | isLoaded (id : ModuleId)
  | setExport (ref : ExportsRef) (name : String) (value : α)

namespace Loader

open LoaderUnits

variable {l : Loader α} {call : HostCall α} {c : LoaderCall α}

def perform (l : Loader α) : HostCall α → Loader α
  | .register id deps body => l.register id deps body
  | .require id => (l.require id).2
  | .run id => (l.run id).2
  | .isLoaded _ => l
  | .setExport ref name value => l.setExport ref name value

def performAll (l : Loader α) (calls : List (HostCall α)) : Loader α := calls.foldl perform l

/-- The requires that come up in a call: the one it asks for, and those of the
bodies that run. -/
def Asks (l : Loader α) (call : HostCall α) (c : LoaderCall α) : Prop :=
  ∃ id, (call = .require id ∨ call = .run id) ∧
    ReflTransGen l.units.Makes ⟨l.units.length, id, l.memory⟩ c

theorem perform_memory_of_require {id : ModuleId} (h : call = .require id ∨ call = .run id) :
    (l.perform call).memory = (l.units.answer ⟨l.units.length, id, l.memory⟩).2 := by
  rcases h with rfl | rfl <;> rfl

theorem perform_steps (l : Loader α) (call : HostCall α) : Steps l.memory (l.perform call).memory := by
  cases call with
  | register id deps body => exact .refl
  | require id => exact l.units.require_steps _ id l.memory
  | run id => exact l.units.require_steps _ id l.memory
  | isLoaded id => exact .refl
  | setExport ref name value => exact .single (.write l.memory ref name value)

theorem performAll_steps (l : Loader α) : ∀ calls : List (HostCall α),
    Steps l.memory (l.performAll calls).memory
  | [] => .refl
  | call :: calls => (l.perform_steps call).trans ((l.perform call).performAll_steps calls)

theorem performAll_append (l : Loader α) (before after : List (HostCall α)) :
    l.performAll (before ++ after) = (l.performAll before).performAll after :=
  List.foldl_append

theorem asks_steps (h : l.Asks call c) :
    Steps l.memory c.memory ∧ Steps (l.units.answer c).2 (l.perform call).memory := by
  obtain ⟨id, hcall, hmade⟩ := h
  rw [perform_memory_of_require hcall]
  exact calls_steps hmade

theorem asks_room (h : l.Asks call c) : l.units.pending c.memory ≤ c.depth := by
  obtain ⟨id, -, hmade⟩ := h
  exact calls_room hmade List.countP_le_length

/-- In the course of calls, a require for a module is answered by an object. -/
def Hands (l : Loader α) (calls : List (HostCall α)) (id : ModuleId) (ref : ExportsRef) : Prop :=
  ∃ before call after c, calls = before ++ call :: after ∧ (l.performAll before).Asks call c ∧
    c.id = id ∧ ((l.performAll before).units.answer c).1 = .ok ref

theorem steps_of_append_cons (l : Loader α) (before : List (HostCall α)) (call : HostCall α)
    (after : List (HostCall α)) : Steps ((l.performAll before).perform call).memory
      (l.performAll (before ++ call :: after)).memory := by
  rw [performAll_append]
  exact performAll_steps _ after

/-- The object of an answer is there, and stays what its module is known by. -/
theorem cached?_of_hands {calls : List (HostCall α)} {id : ModuleId} {ref : ExportsRef}
    (h : l.Hands calls id ref) : (l.performAll calls).memory.cached? id = some ref := by
  obtain ⟨before, call, after, c, rfl, hasks, rfl, hok⟩ := h
  have hend := (asks_steps hasks).2.trans (l.steps_of_append_cons before call after)
  exact (Steps.extends hend).cached _ _ (cached?_of_answer hok)

/-- **A module has one exports object**, through every use of a loader: whatever
the bodies do, in whichever order calls come, and at every depth. A body starts
at most once, and what is known of a module stays known. A require that comes
up for a module there is has it loaded; one for a module that is known, even if
its body is under way, changes nothing. All requires that succeed give the
object that the module is known by, so that what is set through one of them is
seen through the others. -/
theorem single_instance (units : LoaderUnits α) (calls : List (HostCall α)) :
    let fresh : Loader α := { units }
    let l := fresh.performAll calls
    l.started.Nodup ∧
    (∀ id, l.isLoaded id = true ↔ id ∈ l.started) ∧
    (∀ id id' ref, l.memory.cached? id = some ref → l.memory.cached? id' = some ref → id = id') ∧
    (∀ later, l.memory.Extends (l.performAll later).memory) ∧
    (∀ before call after c, calls = before ++ call :: after → (fresh.performAll before).Asks call c →
      let answer := (fresh.performAll before).units.answer c
      (fresh.performAll before).memory.Extends c.memory ∧
      c.memory.Extends answer.2 ∧
      answer.2.Extends l.memory ∧
      (((fresh.performAll before).units.get? c.id).isSome = true →
        (answer.2.cached? c.id).isSome = true) ∧
      (∀ ref, c.memory.cached? c.id = some ref → answer = (.ok ref, c.memory)) ∧
      ∀ ref, answer.1 = .ok ref → ∀ later, answer.2.Extends later → ∀ name value,
        ((later.write ref name value).read ref).get? name = some value) ∧
    (∀ id ref, fresh.Hands calls id ref → l.memory.cached? id = some ref) ∧
    ∀ id ref₁ ref₂, fresh.Hands calls id ref₁ → fresh.Hands calls id ref₂ → ref₁ = ref₂ := by
  intro fresh l
  have hsound : ∀ calls, (fresh.performAll calls).memory.Sound := fun calls =>
    (fresh.performAll_steps calls).sound .empty
  refine ⟨(hsound calls).started_nodup, (hsound calls).isSome_cached?, (hsound calls).cached_inj,
    fun later => (l.performAll_steps later).extends, ?_, fun id ref => cached?_of_hands, ?_⟩
  · intro before call after c hcalls hasks answer
    obtain ⟨hbefore, hafter⟩ := asks_steps hasks
    have hself : Steps c.memory answer.2 := LoaderUnits.require_steps _ _ _ _
    have hend : Steps answer.2 l.memory := by
      have hrest := fresh.steps_of_append_cons before call after
      rw [← hcalls] at hrest
      exact hafter.trans hrest
    refine ⟨hbefore.extends, hself.extends, hend.extends, isSome_cached?_answer (asks_room hasks),
      fun ref hc => require_cached hc, ?_⟩
    intro ref hok later hlater name value
    have hvalid : ref.index < answer.2.objects.length :=
      (hself.sound (hbefore.sound (hsound before))).index_lt c.id ref (cached?_of_answer hok)
    exact read_write (Nat.lt_of_lt_of_le hvalid hlater.objects) name value
  · intro id ref₁ ref₂ h₁ h₂
    exact Option.some.inj ((cached?_of_hands h₁).symm.trans (cached?_of_hands h₂))

/-- Two modules that require each other, and fail. -/
theorem single_instance_cycle :
    let a : ModuleId := ⟨"/a.js"⟩
    let b : ModuleId := ⟨"/b.js"⟩
    let body (self : ModuleId) (specifier : String) (own : ExportsRef) : Body Nat :=
      .require specifier fun _ => .write own "late" 1 (.fail (.thrown self "late"))
    let units : LoaderUnits Nat :=
      [(a, ⟨[("./b.js", b)], body a "./b.js"⟩), (b, ⟨[("./a.js", a)], body b "./a.js"⟩)]
    let calls : List (HostCall Nat) := [.run a, .register a [] (body a "./b.js"), .require b, .require a]
    let l := ({ units } : Loader Nat).performAll calls
    l.started = [a, b] ∧ l.started.Nodup := by
  intro a b body units calls l
  exact ⟨by decide, (single_instance units calls).1⟩

end Loader

end Bundler
