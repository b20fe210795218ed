/-
What a require that fails leaves behind. Either it was for a module that is not
there, and has done nothing; or the body of the module ran and failed, and the
module stays known by the object that the body has left (`answer_cases`). What was
started below it stays known too (`exists_starts`). Nothing takes back what was
written to an object: it changes by sets only (`Steps.sets`).
-/
import Bundler.Proofs.LoaderErrors

namespace Bundler

open LoaderMemory Relation

variable {α : Type}

/-! ## Exports -/

/-- An export is set. -/
def Exports.Sets (exports exports' : Exports α) : Prop := ∃ name value, exports' = exports.set name value

namespace LoaderMemory

variable {m m' : LoaderMemory α} {id : ModuleId} {ref : ExportsRef}

/-- An object that is there changes only by sets. -/
theorem Step.sets (h : Step m m') (hv : ref.index < m.objects.length) :
    ReflTransGen Exports.Sets (m.read ref) (m'.read ref) := by
  cases h with
  | write ref' name value =>
    simp only [read, LoaderMemory.write, List.getD_eq_getElem?_getD, List.getElem?_modify,
      List.getElem?_eq_getElem hv, Option.getD_some]
    split
    · exact .single ⟨name, value, rfl⟩
    · exact .refl
  | start id' hnone =>
    simp only [read, LoaderMemory.start, List.getD_eq_getElem?_getD, List.getElem?_append_left hv]
    exact .refl
  | finish id' => exact .refl

theorem Steps.sets (h : Steps m m') (hv : ref.index < m.objects.length) :
    ReflTransGen Exports.Sets (m.read ref) (m'.read ref) := by
  induction h with
  | refl => exact .refl
  | tail hsteps hstep ih =>
    exact ih.trans (hstep.sets (Nat.lt_of_lt_of_le hv (Steps.extends hsteps).objects))

end LoaderMemory

/-! ## What a require does -/

/-- A module that a run starts is started by a require that the run comes to. -/
theorem Body.exists_require {require : String → LoaderMemory α → Except LoadError ExportsRef × LoaderMemory α}
    {id : ModuleId} (b : Body α) : ∀ {m : LoaderMemory α}, id ∉ m.started →
      id ∈ (b.run require m).2.started → ∃ specifier next m',
        ReflTransGen (Body.Goes require) (b, m) (.require specifier next, m') ∧
        id ∉ m'.started ∧ id ∈ (require specifier m').2.started := by
  induction b with
  | done => exact fun hnot hmem => absurd hmem hnot
  | fail e => exact fun hnot hmem => absurd hmem hnot
  | require specifier next ih =>
    intro m hnot hmem
    by_cases hnow : id ∈ (require specifier m).2.started
    · exact ⟨specifier, next, m, .refl, hnot, hnow⟩
    · obtain ⟨specifier', next', m', hgoes, h⟩ := ih _ hnow hmem
      exact ⟨specifier', next', m', .head (.require specifier next m) hgoes, h⟩
  | read ref next ih =>
    intro m hnot hmem
    obtain ⟨specifier', next', m', hgoes, h⟩ := ih _ hnot hmem
    exact ⟨specifier', next', m', .head (.read ref next m) hgoes, h⟩
  | write ref name value next ih =>
    intro m hnot hmem
    obtain ⟨specifier', next', m', hgoes, h⟩ := ih (m := m.write ref name value) hnot hmem
    exact ⟨specifier', next', m', .head (.write ref name value next m) hgoes, h⟩
  | history next ih =>
    intro m hnot hmem
    obtain ⟨specifier', next', m', hgoes, h⟩ := ih _ hnot hmem
    exact ⟨specifier', next', m', .head (.history next m) hgoes, h⟩

namespace LoaderUnits

/-- A require starts the body of its module, and the body comes to its end: how
it ended, and the memory it has left. -/
inductive Starts (units : LoaderUnits α) : LoaderCall α → Except LoadError Unit × LoaderMemory α → Prop
  | intro {depth : Nat} {id : ModuleId} {m : LoaderMemory α} {u : LoaderUnit α} :
    m.cached? id = none → units.get? id = some u → Starts units ⟨depth + 1, id, m⟩ (units.runBody depth id u m)

variable {units : LoaderUnits α} {c c' : LoaderCall α} {ended : Except LoadError Unit × LoaderMemory α}

/-- A require that starts a body fails as the body does. It leaves what the body
has left, with a note that it ended. -/
theorem Starts.answer_eq (h : units.Starts c ended) :
    units.answer c = (ended.1.map fun _ => (c.memory.start c.id).1, ended.2.finish c.id) := by
  cases h with
  | intro hc hu => exact require_start hc hu

theorem Starts.steps (h : units.Starts c ended) : Steps (c.memory.start c.id).2 ended.2 := by
  cases h with
  | intro _ _ => exact units.runBody_steps _ _ _ _

/-- What comes after a body ends, within a require in which it was started. -/
theorem Starts.steps_answer (h : units.Starts c' ended) (hmade : ReflTransGen units.Makes c c') :
    Steps ended.2 (units.answer c).2 := by
  have hends : Steps (units.answer c').2 (units.answer c).2 := (calls_steps hmade).2
  rw [h.answer_eq] at hends
  exact .head (.finish _ c'.id) hends

theorem Starts.isSome_get? (h : units.Starts c ended) : (units.get? c.id).isSome = true := by
  cases h with
  | intro _ hu => rw [hu]; rfl

/-- The object that the body was given is the one its module is known by. -/
theorem Starts.cached? (h : units.Starts c ended) :
    ended.2.cached? c.id = some (c.memory.start c.id).1 :=
  h.steps.extends.cached _ _ (start_cached?_self c.memory c.id)

theorem Starts.index_lt (h : units.Starts c ended) :
    (c.memory.start c.id).1.index < ended.2.objects.length := by
  refine Nat.lt_of_lt_of_le ?_ h.steps.extends.objects
  rw [start_length]
  exact Nat.lt_succ_self _

/-- **What a require can do**, if there is room for the bodies that are yet to
start: nothing, as its module is known or not there, or it starts a body. -/
theorem answer_cases (hroom : units.pending c.memory ≤ c.depth) :
    (∃ ref, units.answer c = (.ok ref, c.memory)) ∨
    (c.memory.cached? c.id = none ∧ units.get? c.id = none ∧
      units.answer c = (.error (.unknownModule c.id), c.memory)) ∨
    ∃ ended, units.Starts c ended := by
  obtain ⟨depth, id, m⟩ := c
  cases hc : m.cached? id with
  | some ref => exact .inl ⟨ref, require_cached hc⟩
  | none =>
    cases hu : units.get? id with
    | none => exact .inr (.inl ⟨rfl, rfl, require_unknown hc hu⟩)
    | some u =>
      have hlt := pending_start_lt hc hu
      obtain ⟨depth, rfl⟩ : ∃ d, depth = d + 1 := ⟨depth - 1, by simp only at hroom; omega⟩
      exact .inr (.inr ⟨_, .intro hc hu⟩)

/-- **How a require can fail**: its module is not there, and nothing happens, or the
body of its module fails. -/
theorem answer_cases_of_error (hroom : units.pending c.memory ≤ c.depth) {e : LoadError}
    (h : (units.answer c).1 = .error e) :
    (c.memory.cached? c.id = none ∧ units.get? c.id = none ∧ e = .unknownModule c.id ∧
      (units.answer c).2 = c.memory) ∨
    ∃ ended, units.Starts c ended ∧ ended.1 = .error e ∧ (units.answer c).2 = ended.2.finish c.id := by
  rcases answer_cases hroom with ⟨ref, hanswer⟩ | ⟨hc, hnone, hanswer⟩ | ⟨ended, hstart⟩
  · rw [hanswer] at h
    cases h
  · rw [hanswer] at h ⊢
    cases h
    exact .inl ⟨hc, hnone, rfl, rfl⟩
  · rw [hstart.answer_eq] at h ⊢
    exact .inr ⟨ended, hstart, error_of_map h, rfl⟩

/-- Each module that a require starts is started by that require, or by one that
comes up within it. -/
theorem exists_starts {x : ModuleId} : ∀ (depth : Nat) (id : ModuleId) (m : LoaderMemory α),
    x ∉ m.started → x ∈ (units.require depth id m).2.started →
    ∃ c ended, ReflTransGen units.Makes ⟨depth, id, m⟩ c ∧ c.id = x ∧ units.Starts c ended := by
  intro depth
  induction depth with
  | zero =>
    intro id m hnot hmem
    cases hc : m.cached? id with
    | some ref => rw [require_cached hc] at hmem; exact absurd hmem hnot
    | none => rw [require_zero hc] at hmem; exact absurd hmem hnot
  | succ depth ih =>
    intro id m hnot hmem
    cases hc : m.cached? id with
    | some ref => rw [require_cached hc] at hmem; exact absurd hmem hnot
    | none =>
      cases hu : units.get? id with
      | none => rw [require_unknown hc hu] at hmem; exact absurd hmem hnot
      | some u =>
        by_cases hx : x = id
        · exact ⟨_, _, .refl, hx.symm, .intro hc hu⟩
        · rw [require_start hc hu, finish_started, runBody] at hmem
          have hbelow : x ∉ (m.start id).2.started := by
            rw [start_started, List.mem_append, List.mem_singleton, not_or]
            exact ⟨hnot, hx⟩
          obtain ⟨specifier, next, m', hgoes, hnot', hmem'⟩ := Body.exists_require _ hbelow hmem
          cases ht : u.deps.resolve id specifier with
          | error e => simp only [requireFrom, ht] at hmem'; exact absurd hmem' hnot'
          | ok target =>
            simp only [requireFrom, ht] at hmem'
            obtain ⟨c, ended, hmade, h⟩ := ih target m' hnot' hmem'
            exact ⟨c, ended, .head (.intro hc hu hgoes ht) hmade, h⟩

/-- If bodies fail openly, an unknown module that a require fails for is one that is
not there. -/
theorem get?_eq_none_of_unknownModule
    (hopen : ∀ id u, units.get? id = some u → ∀ ref, (u.body ref).FailsOpenly id []) {x : ModuleId} :
    ∀ (depth : Nat) (id : ModuleId) (m : LoaderMemory α), units.pending m ≤ depth →
      (units.require depth id m).1 = .error (.unknownModule x) → units.get? x = none := by
  intro depth
  induction depth using Nat.strong_induction_on with
  | _ depth ih =>
    intro id m hroom h
    rcases answer_cases_of_error (c := ⟨depth, id, m⟩) hroom h with ⟨-, hnone, he, -⟩ | ⟨ended, hstart, hended, -⟩
    · cases he
      exact hnone
    · cases hstart with
      | @intro depth _ _ u hc hu =>
        have hlt := pending_start_lt hc hu
        refine Body.error_of_run (P := fun _ e => e = .unknownModule x → units.get? x = none)
          (fun h _ => h) (requireFrom_steps (units.require_steps depth) id u.deps) (fun _ _ h => by cases h)
          ?_ (u.body _) (.refl _) (hopen id u hu _) (by simp) hended rfl
        rintro specifier m' _ hm' he' rfl
        cases ht : u.deps.get? specifier with
        | none =>
          rw [requireFrom_of_get?_none ht] at he'
          cases he'
        | some target =>
          rw [requireFrom_of_get? ht] at he'
          have hle := pending_le units hm'
          exact ih depth (Nat.lt_succ_self _) target m' (by omega) he'

end LoaderUnits

namespace Loader

open LoaderUnits

variable {l : Loader α} {call : HostCall α} {id : ModuleId} {ref : ExportsRef} {c c' : LoaderCall α}
  {ended : Except LoadError Unit × LoaderMemory α}

/-! ## Later requires -/

/-- A module that starts before a call is over stays known by an object: from its
start on, a require for it that comes up in this call gives the object, and does
nothing else. So does each that comes up later. -/
def Keeps (l : Loader α) (call : HostCall α) (id : ModuleId) (ref : ExportsRef) : Prop :=
  (∀ c, l.Asks call c → c.id = id → id ∈ c.memory.started → l.units.answer c = (.ok ref, c.memory)) ∧
  ∀ after call' c, ((l.perform call).performAll after).Asks call' c → c.id = id →
    ((l.perform call).performAll after).units.answer c = (.ok ref, c.memory)

theorem keeps_of_cached? (hsound : l.memory.Sound) (h : (l.perform call).memory.cached? id = some ref) :
    l.Keeps call id ref := by
  constructor
  · rintro c hasks rfl hstarted
    obtain ⟨hbefore, hafter⟩ := asks_steps hasks
    obtain ⟨ref', hc⟩ := Option.isSome_iff_exists.1 (((hbefore.sound hsound).isSome_cached? _).2 hstarted)
    have hanswer : l.units.answer c = (.ok ref', c.memory) := require_cached hc
    rw [hanswer] at hafter
    have hend := (Steps.extends hafter).cached _ _ hc
    rw [h, Option.some_inj] at hend
    rw [hanswer, hend]
  · rintro after call' c hasks rfl
    have hsteps := ((l.perform call).performAll_steps after).trans (asks_steps hasks).1
    exact require_cached ((Steps.extends hsteps).cached _ _ h)

/-- The object that a body is given stays what its module is known by. -/
theorem keeps_of_starts (hsound : l.memory.Sound) (hasks : l.Asks call c)
    (hmade : ReflTransGen l.units.Makes c c') (hstart : l.units.Starts c' ended) :
    l.Keeps call c'.id (c'.memory.start c'.id).1 := by
  have hsteps := (hstart.steps_answer hmade).trans (asks_steps hasks).2
  exact keeps_of_cached? hsound ((Steps.extends hsteps).cached _ _ hstart.cached?)

/-- A require loads the module, and fails only if a body of it that it starts does. -/
def Loads (l : Loader α) (id : ModuleId) : Prop :=
  (l.require id).2.isLoaded id = true ∧
  ∀ e, (l.require id).1 = .error e →
    ∃ ended, l.units.Starts ⟨l.units.length, id, l.memory⟩ ended ∧ ended.1 = .error e

theorem loads_of_isSome (h : (l.units.get? id).isSome = true) : l.Loads id := by
  have hroom : l.units.pending l.memory ≤ l.units.length := List.countP_le_length
  refine ⟨isSome_cached?_answer (c := ⟨l.units.length, id, l.memory⟩) hroom h, fun e he => ?_⟩
  rcases answer_cases_of_error (c := ⟨l.units.length, id, l.memory⟩) hroom he with
    ⟨-, hnone, -⟩ | ⟨ended, hstart, hended, -⟩
  · rw [show l.units.get? id = none from hnone] at h
    cases h
  · exact ⟨ended, hstart, hended⟩

theorem loads_register (l : Loader α) (id : ModuleId) (deps : DependencyMap) (body : ExportsRef → Body α) :
    (l.register id deps body).Loads id := by
  apply loads_of_isSome
  simp [register, LoaderUnits.get?]

/-! ## A require that fails -/

/-- **A require that fails takes nothing back**, at whatever depth it comes up, and
whether its error is caught or not. Either its module is neither known nor there,
and it has done nothing, so that the module can be loaded once it is there. Or the
body of its module has failed; objects are as the body has left them, and the
module stays known by the one that the body was given. In the same way all modules
stay known that have started meanwhile: once their bodies have ended, their exports
change only as others set them, and they are never started again. If bodies fail
openly, the error tells the two outcomes apart. -/
theorem failed_require {units : LoaderUnits α} {calls : List (HostCall α)} {call : HostCall α}
    {c : LoaderCall α} {e : LoadError}
    (hasks : (({ units } : Loader α).performAll calls).Asks call c)
    (hfails : ((({ units } : Loader α).performAll calls).units.answer c).1 = .error e) :
    let l := ({ units } : Loader α).performAll calls
    let left := (l.units.answer c).2
    ((c.memory.cached? c.id = none ∧ l.units.get? c.id = none ∧ e = .unknownModule c.id ∧
        left = c.memory ∧
        ∀ after deps body, (((l.perform call).performAll after).register c.id deps body).Loads c.id) ∨
      ∃ ended, l.units.Starts c ended ∧ ended.1 = .error e ∧ left.objects = ended.2.objects ∧
        l.Keeps call c.id (c.memory.start c.id).1) ∧
    (∀ id ∈ left.started, id ∉ c.memory.started → ∃ c' ended,
      ReflTransGen l.units.Makes c c' ∧ c'.id = id ∧ l.units.Starts c' ended ∧
        l.Keeps call id (c'.memory.start id).1 ∧
        ReflTransGen Exports.Sets (ended.2.read (c'.memory.start id).1) (left.read (c'.memory.start id).1)) ∧
    (∀ after, left.Extends ((l.perform call).performAll after).memory ∧
      ((l.perform call).performAll after).started.Nodup) ∧
    ((∀ id u, l.units.get? id = some u → ∀ ref, (u.body ref).FailsOpenly id []) →
      (e = .unknownModule c.id ↔ l.units.get? c.id = none)) := by
  intro l left
  have hsound : l.memory.Sound := (performAll_steps _ calls).sound .empty
  have hroom := asks_room hasks
  refine ⟨?_, ?_, ?_, ?_⟩
  · rcases answer_cases_of_error hroom hfails with ⟨hc, hnone, he, hleft⟩ | ⟨ended, hstart, hended, hleft⟩
    · exact .inl ⟨hc, hnone, he, hleft, fun after => loads_register _ c.id⟩
    · refine .inr ⟨ended, hstart, hended, ?_, keeps_of_starts hsound hasks .refl hstart⟩
      rw [show left = ended.2.finish c.id from hleft]
      rfl
  · intro id hid hnot
    obtain ⟨c', ended, hmade, rfl, hstart⟩ := exists_starts c.depth c.id c.memory hnot hid
    exact ⟨c', ended, hmade, rfl, hstart, keeps_of_starts hsound hasks hmade hstart,
      (hstart.steps_answer hmade).sets hstart.index_lt⟩
  · intro after
    have hsteps := (l.perform call).performAll_steps after
    exact ⟨Steps.extends ((asks_steps hasks).2.trans hsteps),
      (Steps.sound ((l.perform_steps call).trans hsteps) hsound).started_nodup⟩
  · intro hopen
    constructor
    · rintro rfl
      exact get?_eq_none_of_unknownModule hopen _ c.id c.memory hroom hfails
    · intro hnone
      rcases answer_cases_of_error hroom hfails with ⟨-, -, he, -⟩ | ⟨ended, hstart, -⟩
      · exact he
      · have hsome := hstart.isSome_get?
        rw [hnone] at hsome
        cases hsome

/-- Two modules that require each other. One has exports set by the other, which
fails; it catches that, and fails by itself. -/
theorem failed_require_cycle :
    let a : ModuleId := ⟨"/a.js"⟩
    let b : ModuleId := ⟨"/b.js"⟩
    let careless (_ : ExportsRef) : Body Nat := .require "./b.js" fun _ => .fail (.thrown a "late")
    let failing (_ : ExportsRef) : Body Nat := .require "./a.js" fun
      | .ok ref => .write ref "seen" 1 (.fail (.thrown b "early"))
      | .error e => .fail e
    let l : Loader Nat := { units := [(a, ⟨[("./b.js", b)], careless⟩), (b, ⟨[("./a.js", a)], failing⟩)] }
    let left := l.perform (.run a)
    (l.run a).1 = .error (.thrown a "late") ∧ left.started = [a, b] ∧ left.exports ⟨0⟩ = [("seen", 1)] ∧
      (left.require a).1 = .ok ⟨0⟩ ∧ (left.require a).2.started = [a, b] := by
  intro a b careless failing l left
  have hfails : (l.units.answer ⟨l.units.length, a, l.memory⟩).1 = .error (.thrown a "late") := by decide
  have hasks : (l.performAll []).Asks (.run a) ⟨l.units.length, a, l.memory⟩ := ⟨a, .inr rfl, .refl⟩
  have hresult := failed_require hasks hfails
  have hkeeps : l.Keeps (.run a) a ⟨0⟩ := by
    rcases hresult.1 with ⟨-, -, he, -⟩ | ⟨_, -, -, -, h⟩
    · cases he
    · exact h
  have hstarted : left.started = [a, b] := by decide
  have hrequire : left.units.require left.units.length a left.memory = (.ok ⟨0⟩, left.memory) :=
    hkeeps.2 [] (.require a) ⟨left.units.length, a, left.memory⟩ ⟨a, .inl rfl, .refl⟩ rfl
  exact ⟨by decide, hstarted, by decide, congrArg Prod.fst hrequire,
    (congrArg (fun answer => answer.2.started) hrequire).trans hstarted⟩

end Loader

end Bundler
