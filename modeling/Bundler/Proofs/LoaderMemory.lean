/-
What loading does to the memory of a loader. It only ever writes to exports,
starts modules that it does not know, and notes that a body ended
(`require_steps`), whatever the bodies do. Such steps keep the exports objects
and what is known of them (`Extends`), and no module is started twice
(`Sound`).
-/
import Mathlib.Data.List.Nodup
import Mathlib.Logic.Relation
import Bundler.Loader

namespace Bundler

variable {α : Type}

/-! ## Exports -/

theorem Exports.get?_set (name : String) (value : α) : ∀ exports : Exports α,
    (exports.set name value).get? name = some value
  | [] => by simp [set, get?]
  | (n, v) :: rest => by
    have ih := get?_set name value rest
    unfold get? at ih
    simp only [set]
    split_ifs with hlt heq
    · simp [get?]
    · simp [get?]
    · simpa [get?, Ne.symm heq] using ih

namespace LoaderMemory

/-! ## Steps -/

/-- What can happen to the memory of a loader at a time. -/
inductive Step : LoaderMemory α → LoaderMemory α → Prop
  | write (m : LoaderMemory α) (ref : ExportsRef) (name : String) (value : α) :
    Step m (m.write ref name value)
  | start (m : LoaderMemory α) (id : ModuleId) : m.cached? id = none → Step m (m.start id).2
  | finish (m : LoaderMemory α) (id : ModuleId) : Step m (m.finish id)

variable {m m' m'' : LoaderMemory α} {id : ModuleId} {ref : ExportsRef}

abbrev Steps : LoaderMemory α → LoaderMemory α → Prop := Relation.ReflTransGen Step

@[simp] theorem finish_cached? (m : LoaderMemory α) (id' : ModuleId) :
    (m.finish id').cached? id = m.cached? id := rfl

@[simp] theorem finish_started (m : LoaderMemory α) (id : ModuleId) :
    (m.finish id).started = m.started := by simp [started, finish]

@[simp] theorem start_started (m : LoaderMemory α) (id : ModuleId) :
    (m.start id).2.started = m.started ++ [id] := by simp [started, start]

theorem mem_start_started (m : LoaderMemory α) (id : ModuleId) : id ∈ (m.start id).2.started := by
  rw [start_started]
  exact List.mem_append_right _ (List.mem_singleton_self id)

@[simp] theorem write_length (m : LoaderMemory α) (ref : ExportsRef) (name : String) (value : α) :
    (m.write ref name value).objects.length = m.objects.length := by simp [write]

@[simp] theorem start_length (m : LoaderMemory α) (id : ModuleId) :
    (m.start id).2.objects.length = m.objects.length + 1 := by simp [start]

theorem start_cached? (m : LoaderMemory α) (id id' : ModuleId) :
    (m.start id).2.cached? id' = if id = id' then some (m.start id).1 else m.cached? id' := by
  simp only [start, cached?, List.find?_cons]
  by_cases h : id = id' <;> simp [h]

theorem start_cached?_self (m : LoaderMemory α) (id : ModuleId) :
    (m.start id).2.cached? id = some (m.start id).1 := by rw [start_cached?, if_pos rfl]

/-! ## Growth -/

/-- A later memory: it knows what was known, has all objects there were, and
has seen what had happened. -/
structure Extends (m m' : LoaderMemory α) : Prop where
  cached : ∀ id ref, m.cached? id = some ref → m'.cached? id = some ref
  objects : m.objects.length ≤ m'.objects.length
  history : m.history <+: m'.history

theorem Extends.refl (m : LoaderMemory α) : m.Extends m := ⟨fun _ _ h => h, Nat.le_refl _, List.prefix_rfl⟩

theorem Extends.trans (h : m.Extends m') (h' : m'.Extends m'') : m.Extends m'' :=
  ⟨fun id ref hc => h'.cached id ref (h.cached id ref hc), Nat.le_trans h.objects h'.objects,
    h.history.trans h'.history⟩

/-- What has started stays started. -/
theorem Extends.mem_started (h : m.Extends m') (hid : id ∈ m.started) : id ∈ m'.started :=
  (h.history.sublist.filterMap _).subset hid

theorem Step.extends (h : Step m m') : m.Extends m' := by
  cases h with
  | write ref name value => exact ⟨fun _ _ hc => hc, by simp, List.prefix_rfl⟩
  | start id hnone =>
    refine ⟨?_, by simp, List.prefix_append _ _⟩
    intro id' ref hc
    have hne : id ≠ id' := by
      rintro rfl
      rw [hnone] at hc
      cases hc
    rw [start_cached?, if_neg hne, hc]
  | finish id => exact ⟨fun _ _ hc => hc, Nat.le_refl _, List.prefix_append _ _⟩

theorem Steps.extends (h : Steps m m') : m.Extends m' := by
  induction h with
  | refl => exact .refl m
  | tail _ h ih => exact ih.trans h.extends

/-- What is written to an object is read from it from then on. -/
theorem read_write (hv : ref.index < m.objects.length) (name : String) (value : α) :
    ((m.write ref name value).read ref).get? name = some value := by
  simp only [read, write, List.getD_eq_getElem?_getD, List.getElem?_modify]
  simp [List.getElem?_eq_getElem hv, Exports.get?_set]

/-! ## One object for a module -/

/-- Each module that is known has started once, and has an object of its own. -/
structure Sound (m : LoaderMemory α) : Prop where
  started_nodup : m.started.Nodup
  isSome_cached? : ∀ id, (m.cached? id).isSome = true ↔ id ∈ m.started
  index_lt : ∀ id ref, m.cached? id = some ref → ref.index < m.objects.length
  cached_inj : ∀ id id' ref, m.cached? id = some ref → m.cached? id' = some ref → id = id'

theorem Sound.empty : Sound ({} : LoaderMemory α) where
  started_nodup := List.nodup_nil
  isSome_cached? id := by simp [cached?, started]
  index_lt id ref h := by simp [cached?] at h
  cached_inj id id' ref h := by simp [cached?] at h

theorem Sound.start (h : m.Sound) (hnone : m.cached? id = none) : (m.start id).2.Sound where
  started_nodup := by
    have hid : id ∉ m.started := by
      rw [← h.isSome_cached?, hnone]
      simp
    rw [start_started]
    exact List.nodup_append.2 ⟨h.started_nodup, List.nodup_singleton id, by
      rintro a ha b hb rfl
      exact hid (List.mem_singleton.1 hb ▸ ha)⟩
  isSome_cached? id' := by
    rw [start_cached?, start_started, List.mem_append, List.mem_singleton, ← h.isSome_cached?]
    split_ifs with heq
    · simp [heq]
    · simp [Ne.symm heq]
  index_lt id' ref hc := by
    rw [start_cached?] at hc
    rw [start_length]
    split_ifs at hc
    · cases hc
      exact Nat.lt_succ_self _
    · exact Nat.lt_succ_of_lt (h.index_lt id' ref hc)
  cached_inj id₁ id₂ ref h₁ h₂ := by
    -- The new object is none of those there were.
    have hfresh : ∀ id', m.cached? id' ≠ some (m.start id).1 := fun id' hc =>
      Nat.lt_irrefl _ (h.index_lt id' _ hc)
    rw [start_cached?] at h₁ h₂
    split_ifs at h₁ h₂ with heq₁ heq₂ heq₂
    · exact heq₁.symm.trans heq₂
    · cases h₁
      exact absurd h₂ (hfresh id₂)
    · cases h₂
      exact absurd h₁ (hfresh id₁)
    · exact h.cached_inj id₁ id₂ ref h₁ h₂

theorem Step.sound (h : Step m m') (hm : m.Sound) : m'.Sound := by
  cases h with
  | write ref name value =>
    refine ⟨hm.started_nodup, hm.isSome_cached?, ?_, hm.cached_inj⟩
    intro id ref' hc
    rw [write_length]
    exact hm.index_lt id ref' hc
  | start id hnone => exact hm.start hnone
  | finish id =>
    refine ⟨?_, ?_, hm.index_lt, hm.cached_inj⟩
    · rw [finish_started]; exact hm.started_nodup
    · intro id'; rw [finish_cached?, finish_started]; exact hm.isSome_cached? id'

theorem Steps.sound (h : Steps m m') (hm : m.Sound) : m'.Sound := by
  induction h with
  | refl => exact hm
  | tail _ h ih => exact h.sound ih

end LoaderMemory

/-! ## Bodies -/

open LoaderMemory

theorem Body.run_steps {require : String → LoaderMemory α → Except LoadError ExportsRef × LoaderMemory α}
    (hrequire : ∀ specifier m, Steps m (require specifier m).2) (b : Body α) :
    ∀ m, Steps m (b.run require m).2 := by
  induction b with
  | done => exact fun m => .refl
  | fail e => exact fun m => .refl
  | require specifier next ih => exact fun m => (hrequire specifier m).trans (ih _ _)
  | read ref next ih => exact fun m => ih _ m
  | write ref name value next ih => exact fun m => .head (.write m ref name value) (ih _)
  | history next ih => exact fun m => ih _ m

/-! ## Loading -/

namespace LoaderUnits

variable (units : LoaderUnits α)

/-- What a body's requires do, with so many bodies that may be under way in each
other below it. -/
def requireFrom (depth : Nat) (importer : ModuleId) (deps : DependencyMap) (specifier : String)
    (m : LoaderMemory α) : Except LoadError ExportsRef × LoaderMemory α :=
  match deps.resolve importer specifier with
  | .ok target => units.require depth target m
  | .error e => (.error e, m)

/-- How the body of a module runs that is started. -/
def runBody (depth : Nat) (id : ModuleId) (u : LoaderUnit α) (m : LoaderMemory α) :
    Except LoadError Unit × LoaderMemory α :=
  (u.body (m.start id).1).run (units.requireFrom depth id u.deps) (m.start id).2

variable {units} {depth : Nat} {id : ModuleId} {m : LoaderMemory α}

theorem require_cached {ref : ExportsRef} (h : m.cached? id = some ref) :
    units.require depth id m = (.ok ref, m) := by
  unfold require
  simp only [h]

theorem require_unknown (h : m.cached? id = none) (hu : units.get? id = none) :
    units.require depth id m = (.error (.unknownModule id), m) := by
  unfold require
  simp only [h, hu]

theorem require_zero (h : m.cached? id = none) :
    units.require 0 id m = (.error (.unknownModule id), m) := by
  cases hu : units.get? id with
  | none => exact require_unknown h hu
  | some u => unfold require; simp only [h, hu]

theorem require_start {u : LoaderUnit α} (h : m.cached? id = none) (hu : units.get? id = some u) :
    units.require (depth + 1) id m =
      ((units.runBody depth id u m).1.map fun _ => (m.start id).1,
        (units.runBody depth id u m).2.finish id) := by
  conv_lhs => unfold require
  simp only [h, hu]
  rfl

theorem requireFrom_of_get? {deps : DependencyMap} {specifier : String} {target : ModuleId}
    (h : deps.get? specifier = some target) :
    units.requireFrom depth id deps specifier m = units.require depth target m := by
  simp only [requireFrom, DependencyMap.resolve, h]

theorem requireFrom_of_get?_none {deps : DependencyMap} {specifier : String}
    (h : deps.get? specifier = none) : units.requireFrom depth id deps specifier m =
      (.error (.unknownSpecifier id specifier), m) := by
  simp only [requireFrom, DependencyMap.resolve, h]

theorem requireFrom_steps (hrequire : ∀ id m, Steps m (units.require depth id m).2) (importer : ModuleId)
    (deps : DependencyMap) (specifier : String) (m : LoaderMemory α) :
    Steps m (units.requireFrom depth importer deps specifier m).2 := by
  unfold requireFrom
  split
  · exact hrequire _ m
  · exact .refl

/-- **Loading takes steps of the memory only**, whatever the bodies are. -/
theorem require_steps (units : LoaderUnits α) : ∀ (depth : Nat) (id : ModuleId) (m : LoaderMemory α),
    Steps m (units.require depth id m).2 := by
  intro depth
  induction depth with
  | zero =>
    intro id m
    cases hc : m.cached? id with
    | some ref => rw [require_cached hc]
    | none => rw [require_zero hc]
  | succ depth ih =>
    intro id m
    cases hc : m.cached? id with
    | some ref => rw [require_cached hc]
    | none =>
      cases hu : units.get? id with
      | none => rw [require_unknown hc hu]
      | some u =>
        rw [require_start hc hu]
        have hbody := Body.run_steps (requireFrom_steps ih id u.deps) (u.body (m.start id).1) (m.start id).2
        exact (Relation.ReflTransGen.head (.start m id hc) hbody).tail (.finish _ id)

theorem runBody_steps (units : LoaderUnits α) (depth : Nat) (id : ModuleId) (u : LoaderUnit α)
    (m : LoaderMemory α) : Steps (m.start id).2 (units.runBody depth id u m).2 :=
  Body.run_steps (requireFrom_steps (units.require_steps depth) id u.deps) _ _

end LoaderUnits

/-! ## Tables -/

/-- A loader for a table has the modules of it that have a body. -/
theorem Loader.ofTable_get? (t : ModuleTable) (bodies : ModuleId → Option (ExportsRef → Body α))
    (id : ModuleId) : (Loader.ofTable t bodies).units.get? id =
      (t.get? id).bind fun r => (bodies id).map fun body => ⟨r.deps, body⟩ := by
  obtain ⟨records⟩ := t
  simp only [ofTable, LoaderUnits.get?, ModuleTable.get?]
  induction records with
  | nil => rfl
  | cons r records ih =>
    by_cases hr : r.id = id
    · subst hr
      cases hb : bodies r.id with
      | none => simpa [hb] using ih
      | some body => simp [hb]
    · cases hb : bodies r.id with
      | none => simpa [hb, hr] using ih
      | some body => simpa [hb, hr] using ih

end Bundler
