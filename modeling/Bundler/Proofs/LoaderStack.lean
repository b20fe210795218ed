/-
Loading comes to an end, and the stack of bodies under way stays low. A module is
known from when its body starts, so the bodies under way below a require are those
of different modules, which were there and not known when it was made (`Nested`).
By induction on how many such modules there are, each require is answered after
finitely many steps, with what `LoaderUnits.require` gives for it
(`require_answered`).
-/
import Mathlib.Data.Finset.Card
import Mathlib.Data.Finset.Filter
import Mathlib.Logic.Function.Iterate
import Bundler.Loader.Stack
import Bundler.Proofs.LoaderCalls

namespace Bundler

open LoaderMemory

variable {α : Type}

namespace LoaderUnits

/-! ## Stretches of loading -/

/-- Some steps that lead from one state to another, with a property of all states
on the way. -/
inductive Runs (units : LoaderUnits α) (P : LoaderState α → Prop) : LoaderState α → LoaderState α → Prop
  | refl {s : LoaderState α} : P s → Runs units P s s
  | step {s s' : LoaderState α} : P s → Runs units P (units.step s) s' → Runs units P s s'

variable {units : LoaderUnits α} {P Q : LoaderState α → Prop} {s s' s'' : LoaderState α}

theorem Runs.trans (h : units.Runs P s s') (h' : units.Runs P s' s'') : units.Runs P s s'' := by
  induction h with
  | refl _ => exact h'
  | step hs _ ih => exact .step hs (ih h')

theorem Runs.imp (h : units.Runs P s s') (hPQ : ∀ s, P s → Q s) : units.Runs Q s s' := by
  induction h with
  | refl hs => exact .refl (hPQ _ hs)
  | step hs _ ih => exact .step (hPQ _ hs) ih

/-- A stretch is some number of steps. -/
theorem Runs.iterate (h : units.Runs P s s') :
    ∃ steps, units.step^[steps] s = s' ∧ ∀ k ≤ steps, P (units.step^[k] s) := by
  induction h with
  | refl hs =>
    refine ⟨0, rfl, fun k hk => ?_⟩
    rw [Nat.le_zero.1 hk]
    exact hs
  | step hs _ ih =>
    obtain ⟨steps, hend, hway⟩ := ih
    refine ⟨steps + 1, hend, fun k hk => ?_⟩
    cases k with
    | zero => exact hs
    | succ k => exact hway k (Nat.le_of_succ_le_succ hk)

/-! ## Bodies under way -/

/-- Above those of an outer stack, the bodies under way are of different modules
that are there and were not known in some memory. -/
def Nested (units : LoaderUnits α) (m : LoaderMemory α) (outer : List ModuleId) (s : LoaderState α) : Prop :=
  ∃ inner, s.underWay = inner ++ outer ∧ inner.Nodup ∧
    ∀ id ∈ inner, (units.get? id).isSome = true ∧ m.cached? id = none

variable {m m' : LoaderMemory α} {outer : List ModuleId} {id : ModuleId}

theorem Nested.of_underWay_eq (h : s.underWay = outer) : units.Nested m outer s :=
  ⟨[], h, List.nodup_nil, fun _ hid => absurd hid List.not_mem_nil⟩

/-- What is nested in a body that has started is nested in the require that has
started it. -/
theorem Nested.of_started (h : units.Nested m' (id :: outer) s) (hid : (units.get? id).isSome = true)
    (hc : m.cached? id = none) (hm : (m.start id).2.Extends m') : units.Nested m outer s := by
  obtain ⟨inner, hway, hnodup, hinner⟩ := h
  have hknown := hm.cached _ _ (start_cached?_self m id)
  refine ⟨inner ++ [id], by rw [hway, List.append_assoc]; rfl, ?_, ?_⟩
  · refine List.nodup_append.2 ⟨hnodup, List.nodup_singleton id, ?_⟩
    rintro a ha b hb rfl
    rw [List.mem_singleton.1 hb] at ha
    rw [(hinner id ha).2] at hknown
    cases hknown
  · intro x hx
    rcases List.mem_append.1 hx with hx | hx
    · refine ⟨(hinner x hx).1, ?_⟩
      cases hcx : m.cached? x with
      | none => rfl
      | some ref =>
        have hlater := ((Step.start m id hc).extends.trans hm).cached _ _ hcx
        rw [(hinner x hx).2] at hlater
        cases hlater
    · rw [List.mem_singleton.1 hx]
      exact ⟨hid, hc⟩

/-! ## Answers -/

/-- Requires for which there is room are answered. -/
def Answers (units : LoaderUnits α) (depth : Nat) : Prop :=
  ∀ (id : ModuleId) (waiting : List (WaitingBody α)) (m : LoaderMemory α), units.pending m ≤ depth →
    units.Runs (units.Nested m (waiting.map (·.self.id))) (.require id waiting m)
      (.answer (units.require depth id m).1 waiting (units.require depth id m).2)

/-- A body comes to its end if what it requires is answered. -/
theorem Answers.body {depth : Nat} (hanswers : units.Answers depth) {self : StartedModule}
    (hself : (units.get? self.id).isSome = true) {m₀ : LoaderMemory α} (hc : m₀.cached? self.id = none)
    {waiting : List (WaitingBody α)} (b : Body α) :
    ∀ {m : LoaderMemory α}, (m₀.start self.id).2.Extends m → units.pending m ≤ depth →
      let ended := b.run (units.requireFrom depth self.id self.deps) m
      units.Runs (units.Nested m₀ (waiting.map (·.self.id))) (.body self b waiting m)
        (.answer (ended.1.map fun _ => self.exports) waiting (ended.2.finish self.id)) := by
  have hway : ∀ s : LoaderState α, s.underWay = self.id :: waiting.map (·.self.id) →
      units.Nested m₀ (waiting.map (·.self.id)) s := fun s h =>
    ⟨[self.id], h, List.nodup_singleton _, fun id hid => List.mem_singleton.1 hid ▸ ⟨hself, hc⟩⟩
  induction b with
  | done => exact fun _ _ => .step (hway _ rfl) (.refl (.of_underWay_eq rfl))
  | fail e => exact fun _ _ => .step (hway _ rfl) (.refl (.of_underWay_eq rfl))
  | read ref next ih => exact fun hm hroom => .step (hway _ rfl) (ih _ hm hroom)
  | write ref name value next ih =>
    intro m hm hroom
    have hwrite := (Step.write m ref name value).extends
    exact .step (hway _ rfl) (ih (hm.trans hwrite) ((pending_le units hwrite).trans hroom))
  | history next ih => exact fun hm hroom => .step (hway _ rfl) (ih _ hm hroom)
  | require specifier next ih =>
    intro m hm hroom
    refine .step (hway _ rfl) ?_
    simp only [Body.run, LoaderUnits.step]
    cases hr : self.deps.resolve self.id specifier with
    | error e =>
      simp only [requireFrom, hr]
      exact ih _ hm hroom
    | ok target =>
      have hfrom : units.requireFrom depth self.id self.deps specifier m = units.require depth target m := by
        simp only [requireFrom, hr]
      have hlater := (units.require_steps depth target m).extends
      have hrequired := (hanswers target (⟨self, next⟩ :: waiting) m hroom).imp fun _ h =>
        h.of_started hself hc hm
      rw [hfrom]
      exact hrequired.trans (.step (hway _ rfl) (ih _ (hm.trans hlater) ((pending_le units hlater).trans hroom)))

/-- A require that starts no body is answered at once. -/
theorem runs_of_known {depth : Nat} {waiting : List (WaitingBody α)}
    (h : (m.cached? id).isSome = true ∨ units.get? id = none) :
    units.Runs (units.Nested m (waiting.map (·.self.id))) (.require id waiting m)
      (.answer (units.require depth id m).1 waiting (units.require depth id m).2) := by
  refine .step (.of_underWay_eq rfl) ?_
  cases hc : m.cached? id with
  | some ref =>
    rw [require_cached hc]
    simp only [step, hc]
    exact .refl (.of_underWay_eq rfl)
  | none =>
    have hu : units.get? id = none := h.resolve_left (by rw [hc]; exact Bool.false_ne_true)
    rw [require_unknown hc hu]
    simp only [step, hc, hu]
    exact .refl (.of_underWay_eq rfl)

/-- **Each require is answered**, with what loading gives for it. -/
theorem require_answered (units : LoaderUnits α) : ∀ depth, units.Answers depth := by
  intro depth
  -- by induction on how many bodies may be under way below the require
  induction depth with
  | zero =>
    intro id waiting m hroom
    refine runs_of_known ?_
    by_contra hnew
    rw [not_or, Bool.not_eq_true, Option.isSome_eq_false_iff, Option.isNone_iff_eq_none, ← ne_eq,
      Option.ne_none_iff_exists'] at hnew
    obtain ⟨hc, u, hu⟩ := hnew
    exact absurd (pending_start_lt hc hu) (by omega)
  | succ depth ih =>
    intro id waiting m hroom
    cases hc : m.cached? id with
    | some ref => exact runs_of_known (.inl (by rw [hc]; rfl))
    | none =>
      cases hu : units.get? id with
      | none => exact runs_of_known (.inr hu)
      | some u =>
        have hlt := pending_start_lt hc hu
        have hself : (units.get? id).isSome = true := by rw [hu]; rfl
        refine .step (.of_underWay_eq rfl) ?_
        rw [require_start hc hu]
        simp only [step, hc, hu]
        exact ih.body hself hc _ (.refl _) (by omega)

/-- The modules that are there and are not known. -/
def unknown (units : LoaderUnits α) (m : LoaderMemory α) : Finset ModuleId :=
  (units.map (·.1)).toFinset.filter fun id => m.cached? id = none

theorem mem_unknown (hid : (units.get? id).isSome = true) (hc : m.cached? id = none) : id ∈ units.unknown m := by
  obtain ⟨u, hu⟩ := Option.isSome_iff_exists.1 hid
  obtain ⟨⟨id', u'⟩, hfind, -⟩ := Option.map_eq_some_iff.1 hu
  have hid' : id' = id := by simpa using List.find?_some hfind
  rw [unknown, Finset.mem_filter, List.mem_toFinset]
  exact ⟨List.mem_map.2 ⟨_, List.mem_of_find?_eq_some hfind, hid'⟩, hc⟩

/-- No more bodies are under way above an outer stack than there were modules to
start. -/
theorem Nested.length_le (h : units.Nested m outer s) :
    ∃ inner, s.underWay = inner ++ outer ∧ inner.Nodup ∧ inner.length ≤ (units.unknown m).card := by
  obtain ⟨inner, hway, hnodup, hinner⟩ := h
  refine ⟨inner, hway, hnodup, ?_⟩
  rw [← List.toFinset_card_of_nodup hnodup]
  refine Finset.card_le_card fun id hid => ?_
  obtain ⟨hunit, hc⟩ := hinner id (List.mem_toFinset.1 hid)
  exact mem_unknown hunit hc

end LoaderUnits

/-- **Loading terminates, at a bounded height of the stack**: whatever the bodies
require, in cycles or of themselves, and whichever of them fail. A require that
is made in any memory, from outside or by a body, with any bodies waiting, comes
after finitely many steps to the answer that the loader gives. Meanwhile the
bodies under way below it are of different modules, at most as many as there are
modules that were not known when it was made. -/
theorem Loader.require_terminates (l : Loader α) (id : ModuleId) (waiting : List (WaitingBody α)) :
    let start : LoaderState α := .require id waiting l.memory
    ∃ steps, l.units.step^[steps] start = .answer (l.require id).1 waiting (l.require id).2.memory ∧
      ∀ k ≤ steps, ∃ inner, (l.units.step^[k] start).underWay = inner ++ waiting.map (·.self.id) ∧
        inner.Nodup ∧ inner.length ≤ (l.units.unknown l.memory).card := by
  intro start
  have hroom : l.units.pending l.memory ≤ l.units.length := List.countP_le_length
  obtain ⟨steps, hend, hway⟩ := (l.units.require_answered _ id waiting l.memory hroom).iterate
  exact ⟨steps, hend, fun k hk => (hway k hk).length_le⟩

end Bundler
