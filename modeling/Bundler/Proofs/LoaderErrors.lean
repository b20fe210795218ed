/-
Which errors requires can end in. When all that modules depend on is there, and
bodies fail only by themselves or by what one of their imports failed with
(`FailsOpenly`), each error goes back to a body that has started: it threw the
error, or it imports what is not among its dependencies (`require_blames`). A
table that has an artifact is such a set of modules, so no require in it ends in
an unknown module.
-/
import Bundler.Artifact
import Bundler.Proofs.LoaderCalls
import Bundler.Proofs.TableFacts

namespace Bundler

open LoaderMemory Relation

variable {α : Type}

/-- A result that is mapped is an error if it was. -/
theorem error_of_map {ε β γ : Type} {f : β → γ} {result : Except ε β} {e : ε}
    (h : result.map f = .error e) : result = .error e := by
  cases result with
  | ok b => cases h
  | error e' => cases h; rfl

/-! ## Bodies -/

/-- A body that fails only by an error of its own, or by one that an import of it
has failed with. `met` are the errors of its imports so far. -/
def Body.FailsOpenly (self : ModuleId) : List LoadError → Body α → Prop
  | _, .done => True
  | met, .fail e => (∃ message, e = .thrown self message) ∨ e ∈ met
  | met, .require _ next =>
    (∀ ref, FailsOpenly self met (next (.ok ref))) ∧
      ∀ e, FailsOpenly self (e :: met) (next (.error e))
  | met, .read _ next => ∀ exports, FailsOpenly self met (next exports)
  | met, .write _ _ _ next => FailsOpenly self met next
  | met, .history next => ∀ events, FailsOpenly self met (next events)

/-- A property that errors keep while memories grow, and that the errors have
which a body throws and those of its imports: a body that fails openly fails with
an error that has it. -/
theorem Body.error_of_run {P : LoaderMemory α → LoadError → Prop}
    (hP : ∀ {m m' : LoaderMemory α} {e : LoadError}, P m e → m.Extends m' → P m' e)
    {require : String → LoaderMemory α → Except LoadError ExportsRef × LoaderMemory α}
    (hsteps : ∀ specifier m, Steps m (require specifier m).2) {self : ModuleId} {m₀ : LoaderMemory α}
    (hthrown : ∀ {m} message, m₀.Extends m → P m (.thrown self message))
    (hrequire : ∀ specifier m e, m₀.Extends m → (require specifier m).1 = .error e →
      P (require specifier m).2 e) (b : Body α) :
    ∀ {met : List LoadError} {m : LoaderMemory α} {e : LoadError}, m₀.Extends m → b.FailsOpenly self met →
      (∀ e ∈ met, P m e) → (b.run require m).1 = .error e → P (b.run require m).2 e := by
  induction b with
  | done =>
    intro met m e hm hopen hmet h
    cases h
  | fail e' =>
    intro met m e hm hopen hmet h
    cases h
    rcases hopen with ⟨message, rfl⟩ | hmem
    · exact hthrown message hm
    · exact hmet _ hmem
  | require specifier next ih =>
    intro met m e hm hopen hmet h
    have hstep := (hsteps specifier m).extends
    cases hr : (require specifier m).1 with
    | ok ref =>
      simp only [Body.run, hr] at h ⊢
      exact ih _ (hm.trans hstep) (hopen.1 ref) (fun e he => hP (hmet e he) hstep) h
    | error e' =>
      simp only [Body.run, hr] at h ⊢
      refine ih _ (hm.trans hstep) (hopen.2 e') ?_ h
      intro e he
      rcases List.mem_cons.1 he with rfl | he
      · exact hrequire specifier m e hm hr
      · exact hP (hmet e he) hstep
  | read ref next ih =>
    intro met m e hm hopen hmet h
    exact ih _ hm (hopen _) hmet h
  | write ref name value next ih =>
    intro met m e hm hopen hmet h
    have hstep := (Step.write m ref name value).extends
    exact ih (hm.trans hstep) hopen (fun e he => hP (hmet e he) hstep) h
  | history next ih =>
    intro met m e hm hopen hmet h
    exact ih _ hm (hopen _) hmet h

namespace LoaderUnits

/-- Whatever modules depend on is there, and bodies fail openly. -/
structure Closed (units : LoaderUnits α) : Prop where
  targets : ∀ id u, units.get? id = some u → ∀ specifier target, u.deps.get? specifier = some target →
    (units.get? target).isSome = true
  bodies : ∀ id u, units.get? id = some u → ∀ ref, (u.body ref).FailsOpenly id []

/-- An error that goes back to a body: one that it has thrown, or one that it has
met with an import that is not among its dependencies. -/
def Blames (units : LoaderUnits α) (m : LoaderMemory α) : LoadError → Prop
  | .unknownModule _ => False
  | .unknownSpecifier module specifier =>
    module ∈ m.started ∧ ∃ u, units.get? module = some u ∧ u.deps.get? specifier = none
  | .thrown module _ => module ∈ m.started

variable {units : LoaderUnits α} {m m' : LoaderMemory α} {e : LoadError} {depth : Nat} {id : ModuleId}

theorem Blames.extends (h : units.Blames m e) (hm : m.Extends m') : units.Blames m' e := by
  cases e with
  | unknownModule module => exact h
  | unknownSpecifier module specifier => exact ⟨hm.mem_started h.1, h.2⟩
  | thrown module message => exact hm.mem_started h

/-! ## Runs -/

/-- An import goes back to a body if requires do. -/
theorem requireFrom_blames
    (hrequire : ∀ id m e, (units.get? id).isSome = true → units.pending m ≤ depth →
      (units.require depth id m).1 = .error e → units.Blames (units.require depth id m).2 e)
    (hclosed : units.Closed) {u : LoaderUnit α} (hu : units.get? id = some u) {specifier : String}
    (hid : id ∈ m.started) (hroom : units.pending m ≤ depth)
    (h : (units.requireFrom depth id u.deps specifier m).1 = .error e) :
    units.Blames (units.requireFrom depth id u.deps specifier m).2 e := by
  cases ht : u.deps.get? specifier with
  | some target =>
    rw [requireFrom_of_get? ht] at h ⊢
    exact hrequire target m e (hclosed.targets id u hu specifier target ht) hroom h
  | none =>
    rw [requireFrom_of_get?_none ht] at h ⊢
    cases h
    exact ⟨hid, u, hu, ht⟩

/-- **Each error of a require goes back to a body**, if the module is there and
there is room for the bodies that are yet to start. -/
theorem require_blames (hclosed : units.Closed) : ∀ (depth : Nat) (id : ModuleId) (m : LoaderMemory α)
    (e : LoadError), (units.get? id).isSome = true → units.pending m ≤ depth →
    (units.require depth id m).1 = .error e → units.Blames (units.require depth id m).2 e := by
  intro depth
  induction depth with
  | zero =>
    intro id m e hid hroom h
    have hcached : ((units.require 0 id m).2.cached? id).isSome = true :=
      isSome_cached?_answer (c := ⟨0, id, m⟩) hroom hid
    cases hc : m.cached? id with
    | some ref => rw [require_cached hc] at h; cases h
    | none => rw [require_zero hc, hc] at hcached; cases hcached
  | succ depth ih =>
    intro id m e hid hroom h
    cases hc : m.cached? id with
    | some ref => rw [require_cached hc] at h; cases h
    | none =>
      obtain ⟨u, hu⟩ := Option.isSome_iff_exists.1 hid
      rw [require_start hc hu] at h ⊢
      have hbody : (units.runBody depth id u m).1 = .error e := error_of_map h
      refine Blames.extends ?_ (Step.finish _ id).extends
      have hlt := pending_start_lt hc hu
      have hself := mem_start_started m id
      refine Body.error_of_run (P := units.Blames) Blames.extends
        (requireFrom_steps (units.require_steps depth) id u.deps) (fun _ hm => hm.mem_started hself) ?_ _
        (.refl _) (hclosed.bodies id u hu _) (by simp) hbody
      intro specifier m' e' hm' he'
      refine requireFrom_blames ih hclosed hu (hm'.mem_started hself) ?_ he'
      have hle := pending_le units hm'
      omega

end LoaderUnits

namespace Loader

open LoaderUnits

variable {l : Loader α} {call : HostCall α} {e : LoadError} {m : LoaderMemory α}

/-- In the course of a call, a require fails: the one that is asked for from
outside, or an import of a body that runs. The memory is the one it leaves. -/
inductive Fails (l : Loader α) : HostCall α → LoadError → LoaderMemory α → Prop
  | require {id : ModuleId} {e : LoadError} :
    (l.require id).1 = .error e → Fails l (.require id) e (l.require id).2.memory
  | run {id : ModuleId} {e : LoadError} :
    (l.run id).1 = .error e → Fails l (.run id) e (l.run id).2.memory
  | imports {call : HostCall α} {depth : Nat} {id : ModuleId} {m m' : LoaderMemory α} {u : LoaderUnit α}
      {specifier : String} {next : Except LoadError ExportsRef → Body α} {e : LoadError} :
    l.Asks call ⟨depth + 1, id, m⟩ → m.cached? id = none → l.units.get? id = some u →
    ReflTransGen (Body.Goes (l.units.requireFrom depth id u.deps))
      (u.body (m.start id).1, (m.start id).2) (.require specifier next, m') →
    (l.units.requireFrom depth id u.deps specifier m').1 = .error e →
    Fails l call e (l.units.requireFrom depth id u.deps specifier m').2

theorem run_error {id : ModuleId} (h : (l.run id).1 = .error e) : (l.require id).1 = .error e :=
  error_of_map h

theorem require_answer_blames (hclosed : l.units.Closed) {id : ModuleId}
    (hid : (l.units.get? id).isSome = true) (h : (l.require id).1 = .error e) :
    l.units.Blames (l.require id).2.memory e :=
  require_blames hclosed _ id l.memory e hid List.countP_le_length h

/-- Each failure in the course of a call goes back to a body. -/
theorem Fails.blames (h : l.Fails call e m) (hclosed : l.units.Closed)
    (hknown : ∀ id, call = .require id ∨ call = .run id → (l.units.get? id).isSome = true) :
    l.units.Blames m e := by
  cases h with
  | require h => exact require_answer_blames hclosed (hknown _ (.inl rfl)) h
  | run h => exact require_answer_blames hclosed (hknown _ (.inr rfl)) (run_error h)
  | @imports _ depth id m m' u specifier next _ hasks hc hu hgoes h =>
    have hsteps : Steps (m.start id).2 m' :=
      Body.steps_of_goes (requireFrom_steps (l.units.require_steps depth) id u.deps) hgoes
    refine requireFrom_blames (require_blames hclosed depth) hclosed hu
      (hsteps.extends.mem_started (mem_start_started m id)) ?_ h
    have hroom : l.units.pending m ≤ depth + 1 := asks_room hasks
    have hlt := pending_start_lt hc hu
    have hle := pending_le l.units hsteps.extends
    omega

/-! ## Tables -/

/-- A table that has an artifact lacks nothing. -/
theorem missingDependencies_of_emit {entry : ModuleId} {t : ModuleTable} {style : LoaderStyle}
    {bundle : Bundle} (h : emit entry t style = .ok bundle) : t.missingDependencies = [] := by
  simp only [emit] at h
  split_ifs at h
  split at h
  · cases h
  · next hnil => exact hnil

/-- A call that loads a module of a table, if any, and adds none. -/
def Within (t : ModuleTable) : HostCall α → Prop
  | .register .. => False
  | .require id | .run id => id ∈ t.ids
  | .isLoaded _ | .setExport .. => True

theorem performAll_units {t : ModuleTable} : ∀ {calls : List (HostCall α)} (l : Loader α),
    (∀ call ∈ calls, Within t call) → (l.performAll calls).units = l.units
  | [], _, _ => rfl
  | call :: calls, l, h => by
    have hcall : (l.perform call).units = l.units := by
      have hwithin := h call List.mem_cons_self
      cases call with
      | register => cases hwithin
      | require | run | isLoaded | setExport => rfl
    rw [← hcall]
    exact performAll_units _ fun c hc => h c (List.mem_cons_of_mem _ hc)

variable {t : ModuleTable} {bodies : ModuleId → Option (ExportsRef → Body α)}

theorem isSome_ofTable_get? (hbodies : ∀ id ∈ t.ids, ∃ body, bodies id = some body) {id : ModuleId} :
    ((ofTable t bodies).units.get? id).isSome = true ↔ id ∈ t.ids := by
  rw [ofTable_get?]
  constructor
  · intro h
    cases hr : t.get? id with
    | none => rw [hr] at h; cases h
    | some r =>
      obtain ⟨hmem, hid⟩ := ModuleTable.of_get?_eq_some hr
      exact ModuleTable.mem_ids.2 ⟨r, hmem, hid⟩
  · intro hid
    obtain ⟨r, hr⟩ := Option.isSome_iff_exists.1 (ModuleTable.isSome_get?.2 hid)
    obtain ⟨body, hbody⟩ := hbodies id hid
    rw [hr, hbody]
    rfl

/-- A table without missing dependencies, each module with a body that fails
openly. -/
theorem ofTable_closed (hmissing : t.missingDependencies = [])
    (hbodies : ∀ id ∈ t.ids, ∃ body, bodies id = some body ∧ ∀ ref, (body ref).FailsOpenly id []) :
    (ofTable t bodies).units.Closed := by
  have hall : ∀ id ∈ t.ids, ∃ body, bodies id = some body := fun id hid =>
    (hbodies id hid).imp fun _ h => h.1
  constructor
  · intro id u hu specifier target htarget
    rw [ofTable_get?, Option.bind_eq_some_iff] at hu
    obtain ⟨r, hr, hu⟩ := hu
    obtain ⟨body, -, rfl⟩ := Option.map_eq_some_iff.1 hu
    obtain ⟨hmem, -⟩ := ModuleTable.of_get?_eq_some hr
    rw [isSome_ofTable_get? hall]
    exact ModuleTable.missingDependencies_eq_nil.1 hmissing r hmem target
      (DependencyMap.mem_targets.2 ⟨specifier, DependencyMap.mem_of_get? htarget⟩)
  · intro id u hu ref
    rw [ofTable_get?, Option.bind_eq_some_iff] at hu
    obtain ⟨r, hr, hu⟩ := hu
    obtain ⟨body, hbody, rfl⟩ := Option.map_eq_some_iff.1 hu
    obtain ⟨hmem, hid⟩ := ModuleTable.of_get?_eq_some hr
    obtain ⟨body', hbody', hopen⟩ := hbodies id (ModuleTable.mem_ids.2 ⟨r, hmem, hid⟩)
    rw [hbody, Option.some_inj] at hbody'
    rw [hbody']
    exact hopen ref

/-- **In the modules of an artifact no require ends in an unknown module**, asked
for from outside or by a body at any depth: whatever the bodies require, in
cycles or again, and whichever errors they catch. An import that cannot be
resolved is one that a module of the table makes, whose body has started, and
that is not among its dependencies. -/
theorem requires_answered {entry : ModuleId} {style : LoaderStyle} {bundle : Bundle}
    (hemit : emit entry t style = .ok bundle)
    (hbodies : ∀ id ∈ t.ids, ∃ body, bodies id = some body ∧ ∀ ref, (body ref).FailsOpenly id [])
    {calls : List (HostCall α)} (hcalls : ∀ call ∈ calls, Within t call)
    {before after : List (HostCall α)} {call : HostCall α} (hsplit : calls = before ++ call :: after)
    {e : LoadError} {m : LoaderMemory α} (h : ((ofTable t bodies).performAll before).Fails call e m) :
    (∀ module, e ≠ .unknownModule module) ∧
    (∀ module specifier, e = .unknownSpecifier module specifier →
      module ∈ t.ids ∧ module ∈ m.started ∧
        ∃ r, t.get? module = some r ∧ specifier ∉ r.deps.map (·.1)) ∧
    ∀ module message, e = .thrown module message → module ∈ m.started := by
  subst hsplit
  have hunits : ((ofTable t bodies).performAll before).units = (ofTable t bodies).units :=
    performAll_units _ fun c hc => hcalls c (List.mem_append_left _ hc)
  have hcall : Within t call := hcalls call (List.mem_append_right _ List.mem_cons_self)
  have hclosed := ofTable_closed (missingDependencies_of_emit hemit) hbodies
  have hblames : (ofTable t bodies).units.Blames m e := by
    rw [← hunits] at hclosed ⊢
    refine h.blames hclosed fun id hid => ?_
    rw [hunits, isSome_ofTable_get? fun id hid => (hbodies id hid).imp fun _ h => h.1]
    rcases hid with rfl | rfl <;> exact hcall
  refine ⟨?_, ?_, ?_⟩
  · rintro module rfl
    exact hblames
  · rintro module specifier rfl
    obtain ⟨hstarted, u, hu, hnone⟩ := hblames
    rw [ofTable_get?, Option.bind_eq_some_iff] at hu
    obtain ⟨r, hr, hu⟩ := hu
    obtain ⟨body, -, rfl⟩ := Option.map_eq_some_iff.1 hu
    obtain ⟨hmem, hid⟩ := ModuleTable.of_get?_eq_some hr
    exact ⟨ModuleTable.mem_ids.2 ⟨r, hmem, hid⟩, hstarted, r, hr, DependencyMap.get?_eq_none.1 hnone⟩
  · rintro module message rfl
    exact hblames

/-- Two modules that require each other. One fails, the other catches that and
goes on to an import that it does not have. -/
theorem requires_answered_cycle :
    let a : ModuleId := ⟨"/a.js"⟩
    let b : ModuleId := ⟨"/b.js"⟩
    let t : ModuleTable := ⟨[⟨a, "", [("./b.js", b)], ""⟩, ⟨b, "", [("./a.js", a)], ""⟩]⟩
    let careless (_ : ExportsRef) : Body Nat :=
      .require "./b.js" fun _ => .require "./c.js" fun
        | .ok _ => .done
        | .error e => .fail e
    let failing (_ : ExportsRef) : Body Nat := .require "./a.js" fun _ => .fail (.thrown b "late")
    let l := Loader.ofTable t fun id => if id = a then some careless else some failing
    (l.require a).1 = .error (.unknownSpecifier a "./c.js") ∧
      a ∈ t.ids ∧ a ∈ (l.require a).2.started := by
  intro a b t careless failing l
  obtain ⟨bundle, hemit⟩ : ∃ bundle, emit a t .eval = .ok bundle := ⟨_, rfl⟩
  have hfail : (l.require a).1 = .error (.unknownSpecifier a "./c.js") := by decide
  have hbodies : ∀ id ∈ t.ids, ∃ body, (if id = a then some careless else some failing) = some body ∧
      ∀ ref, (body ref).FailsOpenly id [] := by
    intro id hid
    have hcases : id = a ∨ id = b := by simpa [t, ModuleTable.ids] using hid
    rcases hcases with rfl | rfl
    · refine ⟨careless, if_pos rfl, fun ref => ?_⟩
      simp [careless, Body.FailsOpenly]
    · refine ⟨failing, if_neg (by decide), fun ref => ?_⟩
      simp [failing, Body.FailsOpenly]
  have hcalls : ∀ call ∈ [HostCall.require a], Within (α := Nat) t call := by
    intro call hcall
    rw [List.mem_singleton.1 hcall]
    exact List.mem_cons_self
  have hsplit : [HostCall.require (α := Nat) a] = [] ++ .require a :: [] := rfl
  have hresult := requires_answered hemit hbodies hcalls hsplit (.require hfail)
  obtain ⟨hid, hstarted, -⟩ := hresult.2.1 a "./c.js" rfl
  exact ⟨hfail, hid, hstarted⟩

end Loader

end Bundler
