/-
The order in which modules start and finish, when bodies import all that they
depend on in the order of their dependencies (`Body.Imports`). The loader then
goes through the imports as a depth first search does (`require_traverses`).
While a body runs, the bodies under way around it are of modules that import
its module, directly or not; so a dependency that is known and has not finished
leads back to the module (`InOrder.finish`).
-/
import Bundler.Proofs.DepthFirst
import Bundler.Proofs.DiscoveryClosure
import Bundler.Proofs.ImportComponents
import Bundler.Proofs.LoaderCalls

namespace Bundler

open LoaderMemory Relation

variable {α : Type}

/-! ## The order of imports -/

namespace ModuleTable

/-- What the imports of a module mean, in their order. -/
def targetsOf (t : ModuleTable) (id : ModuleId) : List ModuleId :=
  match t.get? id with
  | some r => r.deps.targets
  | none => []

/-- Goes on with a depth first search of the imports. -/
def search (t : ModuleTable) (met stack : List ModuleId) : List ModuleId :=
  Graph.depthFirst t.ids t.targetsOf met stack

/-- The modules that an entry needs, each before what it imports, and those in
the order of the imports. -/
def preorder (t : ModuleTable) (entry : ModuleId) : List ModuleId := t.search [] [entry]

variable {t : ModuleTable} {a b id : ModuleId}

theorem targetsOf_eq {r : ModuleRecord} (h : t.get? id = some r) : t.targetsOf id = r.deps.targets := by
  simp only [targetsOf, h]

theorem mem_targetsOf (hnodup : t.ids.Nodup) : b ∈ t.targetsOf a ↔ t.Imports a b := by
  unfold targetsOf Imports
  constructor
  · intro h
    split at h
    · next r hr =>
      obtain ⟨hmem, hid⟩ := of_get?_eq_some hr
      exact ⟨r, hmem, hid, h⟩
    · cases h
  · rintro ⟨r, hmem, hid, h⟩
    rw [(get?_eq_some hnodup).2 ⟨hmem, hid⟩]
    exact h

theorem targetsOf_mem_ids (hmissing : t.missingDependencies = []) :
    ∀ a ∈ t.ids, ∀ b ∈ t.targetsOf a, b ∈ t.ids := by
  intro a _ b hb
  unfold targetsOf at hb
  split at hb
  · next r hr =>
    exact missingDependencies_eq_nil.1 hmissing r (of_get?_eq_some hr).1 b hb
  · cases hb

/-- The modules that a search from an entry lists are those it needs. -/
theorem mem_preorder (hnodup : t.ids.Nodup) (hmissing : t.missingDependencies = []) (ha : a ∈ t.ids) :
    b ∈ t.preorder a ↔ t.Leads a b := by
  have hreach : Graph.Reach t.targetsOf = t.Leads := by
    unfold Graph.Reach Leads
    congr 1
    funext v w
    exact propext (mem_targetsOf hnodup)
  rw [preorder, search, Graph.mem_depthFirst (targetsOf_mem_ids hmissing) ha, hreach]

end ModuleTable

/-! ## Bodies -/

/-- A body that imports all of `todo`, in that order, and ends well. In between
it may import again what it has imported (`seen`), and what it does not depend
on. How it goes on after an import that it depends on has failed is left open. -/
inductive Body.Imports : DependencyMap → DependencyMap → Body α → Prop
  | done {seen : DependencyMap} : Imports seen [] .done
  | next {seen todo : DependencyMap} {specifier : String} {target : ModuleId}
      {next : Except LoadError ExportsRef → Body α} :
    (∀ ref, Imports (seen ++ [(specifier, target)]) todo (next (.ok ref))) →
    Imports seen ((specifier, target) :: todo) (.require specifier next)
  | again {seen todo : DependencyMap} {specifier : String} {target : ModuleId}
      {next : Except LoadError ExportsRef → Body α} :
    (specifier, target) ∈ seen → (∀ ref, Imports seen todo (next (.ok ref))) →
    Imports seen todo (.require specifier next)
  | unknown {seen todo : DependencyMap} {specifier : String}
      {next : Except LoadError ExportsRef → Body α} :
    specifier ∉ (seen ++ todo).map (·.1) → (∀ e, Imports seen todo (next (.error e))) →
    Imports seen todo (.require specifier next)
  | read {seen todo : DependencyMap} {ref : ExportsRef} {next : Exports α → Body α} :
    (∀ exports, Imports seen todo (next exports)) → Imports seen todo (.read ref next)
  | write {seen todo : DependencyMap} {ref : ExportsRef} {name : String} {value : α} {next : Body α} :
    Imports seen todo next → Imports seen todo (.write ref name value next)
  | history {seen todo : DependencyMap} {next : List LoadEvent → Body α} :
    (∀ events, Imports seen todo (next events)) → Imports seen todo (.history next)

/-- Imports all of a module's dependencies, and does nothing else. -/
def Body.importAll : DependencyMap → Body α
  | [] => .done
  | (specifier, _) :: deps => .require specifier fun
    | .ok _ => importAll deps
    | .error e => .fail e

theorem Body.importAll_imports : ∀ (deps : DependencyMap) {seen : DependencyMap},
    (importAll deps : Body α).Imports seen deps
  | [], _ => .done
  | (_, _) :: deps, _ => .next fun _ => importAll_imports deps

/-! ## Memory -/

namespace LoaderMemory

variable {t : ModuleTable} {m m' m'' : LoaderMemory α} {id : ModuleId}

/-- The body of a module has started, and has not ended. -/
def Running (m : LoaderMemory α) (id : ModuleId) : Prop :=
  id ∈ m.started ∧ .finished id ∉ m.history

theorem mem_started_iff : id ∈ m.started ↔ .started id ∈ m.history := by
  simp only [started, List.mem_filterMap]
  constructor
  · rintro ⟨event, hmem, h⟩
    cases event with
    | started id' => cases h; exact hmem
    | finished id' => cases h
  · exact fun h => ⟨_, h, rfl⟩

theorem finished_mem_start {id' : ModuleId} :
    .finished id' ∈ (m.start id).2.history ↔ .finished id' ∈ m.history := by
  have hhistory : (m.start id).2.history = m.history ++ [.started id] := rfl
  simp [hhistory]

theorem finished_mem_finish {id' : ModuleId} :
    .finished id' ∈ (m.finish id).history ↔ .finished id' ∈ m.history ∨ id' = id := by
  have hhistory : (m.finish id).history = m.history ++ [.finished id] := rfl
  simp [hhistory]

/-- Bodies start and end once, and a module that has finished has what it imports
finished before it, unless that leads back to it. -/
structure InOrder (t : ModuleTable) (m : LoaderMemory α) : Prop where
  sound : m.Sound
  nodup : m.history.Nodup
  started_of_finished : ∀ id, .finished id ∈ m.history → id ∈ m.started
  importedFirst : ∀ importer imported, t.Imports importer imported →
    .finished importer ∈ m.history →
    t.ImportsVia imported importer ∨ List.Sublist [.finished imported, .finished importer] m.history

namespace InOrder

theorem empty : InOrder t ({} : LoaderMemory α) where
  sound := .empty
  nodup := List.nodup_nil
  started_of_finished id h := by cases h
  importedFirst importer imported _ h := by cases h

theorem write (h : InOrder t m) (ref : ExportsRef) (name : String) (value : α) :
    InOrder t (m.write ref name value) :=
  ⟨(Step.write m ref name value).sound h.sound, h.nodup, h.started_of_finished, h.importedFirst⟩

theorem not_finished (h : InOrder t m) (hid : id ∉ m.started) : .finished id ∉ m.history :=
  fun hf => hid (h.started_of_finished id hf)

theorem mem_started (h : InOrder t m) : id ∈ m.started ↔ (m.cached? id).isSome = true :=
  (h.sound.isSome_cached? id).symm

theorem start (h : InOrder t m) (hc : m.cached? id = none) : InOrder t (m.start id).2 := by
  have hid : id ∉ m.started := by rw [h.mem_started, hc]; simp
  have hhistory : (m.start id).2.history = m.history ++ [.started id] := rfl
  refine ⟨h.sound.start hc, ?_, ?_, ?_⟩
  · rw [hhistory]
    refine List.nodup_append.2 ⟨h.nodup, List.nodup_singleton _, ?_⟩
    rintro a ha b hb rfl
    exact hid (mem_started_iff.2 (List.mem_singleton.1 hb ▸ ha))
  · intro x hx
    rw [start_started]
    exact List.mem_append_left _ (h.started_of_finished x (finished_mem_start.1 hx))
  · intro importer imported himp hx
    exact (h.importedFirst importer imported himp (finished_mem_start.1 hx)).imp_right
      fun hsub => hsub.trans (List.sublist_append_left _ _)

/-- A body ends, and what its module imports has finished or leads back to it. -/
theorem finish (h : InOrder t m) (hrunning : m.Running id)
    (himported : ∀ imported, t.Imports id imported →
      t.ImportsVia imported id ∨ .finished imported ∈ m.history) : InOrder t (m.finish id) := by
  have hhistory : (m.finish id).history = m.history ++ [.finished id] := rfl
  refine ⟨(Step.finish m id).sound h.sound, ?_, ?_, ?_⟩
  · rw [hhistory]
    refine List.nodup_append.2 ⟨h.nodup, List.nodup_singleton _, ?_⟩
    rintro a ha b hb rfl
    exact hrunning.2 (List.mem_singleton.1 hb ▸ ha)
  · intro x hx
    rw [finish_started]
    rcases finished_mem_finish.1 hx with hx | rfl
    · exact h.started_of_finished x hx
    · exact hrunning.1
  · intro importer imported himp hx
    rw [hhistory]
    rcases finished_mem_finish.1 hx with hx | rfl
    · exact (h.importedFirst importer imported himp hx).imp_right
        fun hsub => hsub.trans (List.sublist_append_left _ _)
    · refine (himported imported himp).imp_right fun hf => ?_
      exact (List.singleton_sublist.2 hf).append (List.Sublist.refl [LoadEvent.finished importer])

/-- A body that starts is under way. -/
theorem running_start (h : InOrder t m) (hc : m.cached? id = none) {id' : ModuleId} :
    (m.start id).2.Running id' ↔ m.Running id' ∨ id' = id := by
  have hid : id ∉ m.started := by rw [h.mem_started, hc]; simp
  simp only [Running, start_started, List.mem_append, List.mem_singleton, finished_mem_start]
  constructor
  · rintro ⟨hstarted | rfl, hfinished⟩
    · exact .inl ⟨hstarted, hfinished⟩
    · exact .inr rfl
  · rintro (⟨hstarted, hfinished⟩ | rfl)
    · exact ⟨.inl hstarted, hfinished⟩
    · exact ⟨.inr rfl, h.not_finished hid⟩

end InOrder

/-- What a stretch of loading does that imports some modules: it starts those
that a search from them meets, and all that it starts end in it. -/
structure Traverses (t : ModuleTable) (targets : List ModuleId) (m m' : LoaderMemory α) : Prop where
  extend : m.Extends m'
  inOrder : InOrder t m'
  started : m'.started = t.search m.started targets
  running : ∀ id, m'.Running id ↔ m.Running id

namespace Traverses

variable {xs ys : List ModuleId}

theorem refl (h : InOrder t m) : Traverses t [] m m where
  extend := .refl m
  inOrder := h
  started := Graph.depthFirst_nil.symm
  running _ := Iff.rfl

theorem trans (h : Traverses t xs m m') (h' : Traverses t ys m' m'') : Traverses t (xs ++ ys) m m'' where
  extend := h.extend.trans h'.extend
  inOrder := h'.inOrder
  started := by
    rw [h'.started, h.started]
    exact (Graph.depthFirst_append xs ys).symm
  running id := (h'.running id).trans (h.running id)

theorem write (h : InOrder t m) (ref : ExportsRef) (name : String) (value : α) :
    Traverses t [] m (m.write ref name value) where
  extend := (Step.write m ref name value).extends
  inOrder := h.write ref name value
  started := Graph.depthFirst_nil.symm
  running _ := Iff.rfl

/-- To import what has started is to import nothing. -/
theorem known (h : Traverses t [id] m m') (hid : id ∈ m.started) : Traverses t [] m m' where
  extend := h.extend
  inOrder := h.inOrder
  started := by
    rw [h.started]
    exact Graph.depthFirst_met hid
  running := h.running

theorem mem_started (h : Traverses t xs m m') (hid : id ∈ xs) (hmem : id ∈ t.ids) : id ∈ m'.started := by
  rw [h.started]
  exact Graph.mem_depthFirst_of_stack hmem hid

/-- What has started has ended, if nothing was under way before. -/
theorem finished_iff (h : Traverses t xs {} m') : .finished id ∈ m'.history ↔ id ∈ m'.started := by
  refine ⟨h.inOrder.started_of_finished id, fun hid => ?_⟩
  by_contra hfinished
  exact absurd ((h.running id).1 ⟨hid, hfinished⟩).1 List.not_mem_nil

/-- What a run from an entry starts is what the entry needs. -/
theorem mem_started_iff_leads (h : Traverses t [id] {} m') (hnodup : t.ids.Nodup)
    (hmissing : t.missingDependencies = []) (hid : id ∈ t.ids) {id' : ModuleId} :
    id' ∈ m'.started ↔ t.Leads id id' := by
  rw [h.started]
  exact ModuleTable.mem_preorder hnodup hmissing hid

/-- A module starts, what it imports is traversed, and its body ends. The bodies
that were under way are of modules that import it. -/
theorem body (hm : InOrder t m) (hnodup : t.ids.Nodup) (hmissing : t.missingDependencies = [])
    (hid : id ∈ t.ids) (hc : m.cached? id = none) (hrunning : ∀ id', m.Running id' → t.ImportsVia id' id)
    (h : Traverses t (t.targetsOf id) (m.start id).2 m') : Traverses t [id] m (m'.finish id) := by
  have hnew : id ∉ m.started := by rw [hm.mem_started, hc]; simp
  have hrunning' : ∀ id', m'.Running id' ↔ m.Running id' ∨ id' = id := fun id' =>
    (h.running id').trans (hm.running_start hc)
  refine ⟨?_, ?_, ?_, ?_⟩
  · exact ((Step.start m id hc).extends.trans h.extend).trans (Step.finish m' id).extends
  · refine h.inOrder.finish ((hrunning' id).2 (.inr rfl)) fun imported himp => ?_
    have htarget := (ModuleTable.mem_targetsOf hnodup).2 himp
    have hstarted := h.mem_started htarget (ModuleTable.targetsOf_mem_ids hmissing id hid _ htarget)
    -- It has started; if it has not finished, it is under way and imports the module.
    by_cases hfinished : .finished imported ∈ m'.history
    · exact .inr hfinished
    · rcases (hrunning' imported).1 ⟨hstarted, hfinished⟩ with hway | rfl
      · exact .inl (hrunning imported hway)
      · exact .inl (.single himp)
  · rw [finish_started, h.started, start_started]
    have hsearch : t.search m.started [id] = t.search (m.started ++ [id]) (t.targetsOf id ++ []) :=
      Graph.depthFirst_new hid hnew
    rw [List.append_nil] at hsearch
    exact hsearch.symm
  · intro id'
    simp only [Running, finish_started, finished_mem_finish, not_or]
    rw [← and_assoc]
    change m'.Running id' ∧ id' ≠ id ↔ m.Running id'
    rw [hrunning']
    constructor
    · rintro ⟨hway | heq, hne⟩
      · exact hway
      · exact absurd heq hne
    · intro hway
      refine ⟨.inl hway, ?_⟩
      rintro rfl
      exact hnew hway.1

end Traverses

end LoaderMemory

/-! ## Runs -/

/-- A body that imports in order traverses what it imports. -/
theorem Body.run_traverses {t : ModuleTable} {deps : DependencyMap}
    (hids : ∀ id ∈ deps.targets, id ∈ t.ids)
    {require : String → LoaderMemory α → Except LoadError ExportsRef × LoaderMemory α}
    {m₀ : LoaderMemory α}
    (hknown : ∀ specifier target xs m, (specifier, target) ∈ deps → Traverses t xs m₀ m →
      ∃ ref, (require specifier m).1 = .ok ref ∧ Traverses t [target] m (require specifier m).2)
    (hunknown : ∀ specifier m, specifier ∉ deps.map (·.1) → ∃ e, require specifier m = (.error e, m))
    {seen todo : DependencyMap} {b : Body α} (hb : b.Imports seen todo) :
    seen ++ todo = deps → ∀ {xs : List ModuleId} {m : LoaderMemory α}, Traverses t xs m₀ m →
      (∀ id ∈ seen.targets, id ∈ m.started) →
      (b.run require m).1 = .ok () ∧ Traverses t todo.targets m (b.run require m).2 := by
  -- The body has traversed some modules since `m₀`, and what it has imported is started.
  induction hb with
  | done =>
    intro _ xs m hm _
    exact ⟨rfl, .refl hm.inOrder⟩
  | @next seen todo specifier target next hnext ih =>
    intro hsplit xs m hm hseen
    have hmem : (specifier, target) ∈ deps := by
      rw [← hsplit]
      exact List.mem_append_right _ List.mem_cons_self
    obtain ⟨ref, hok, hstep⟩ := hknown specifier target xs m hmem hm
    have hseen' : ∀ id ∈ (seen ++ [(specifier, target)]).targets, id ∈ (require specifier m).2.started := by
      intro id hid
      rw [DependencyMap.targets, List.map_append, List.mem_append] at hid
      rcases hid with hid | hid
      · exact hstep.extend.mem_started (hseen id hid)
      · rw [List.mem_singleton.1 hid]
        exact hstep.mem_started (List.mem_singleton_self target)
          (hids target (DependencyMap.mem_targets.2 ⟨specifier, hmem⟩))
    obtain ⟨hdone, hrest⟩ := ih ref (by rw [← hsplit, List.append_assoc]; rfl) (hm.trans hstep) hseen'
    simp only [Body.run, hok]
    exact ⟨hdone, hstep.trans hrest⟩
  | @again seen todo specifier target next hmem hnext ih =>
    intro hsplit xs m hm hseen
    obtain ⟨ref, hok, hstep⟩ :=
      hknown specifier target xs m (hsplit ▸ List.mem_append_left todo hmem) hm
    have hnone := hstep.known (hseen target (DependencyMap.mem_targets.2 ⟨specifier, hmem⟩))
    obtain ⟨hdone, hrest⟩ := ih ref hsplit (hm.trans hnone)
      fun id hid => hstep.extend.mem_started (hseen id hid)
    simp only [Body.run, hok]
    exact ⟨hdone, hnone.trans hrest⟩
  | @unknown seen todo specifier next hmem hnext ih =>
    intro hsplit xs m hm hseen
    obtain ⟨e, he⟩ := hunknown specifier m (hsplit ▸ hmem)
    simp only [Body.run, he]
    exact ih e hsplit hm hseen
  | read hnext ih =>
    intro hsplit xs m hm hseen
    exact ih _ hsplit hm hseen
  | @write seen todo ref name value next hnext ih =>
    intro hsplit xs m hm hseen
    have hstep := Traverses.write hm.inOrder ref name value
    obtain ⟨hdone, hrest⟩ := ih hsplit (hm.trans hstep) hseen
    exact ⟨hdone, hstep.trans hrest⟩
  | history hnext ih =>
    intro hsplit xs m hm hseen
    exact ih _ hsplit hm hseen

namespace LoaderUnits

/-- The modules of a table, each with a body that imports what the table says. -/
def Obey (units : LoaderUnits α) (t : ModuleTable) : Prop :=
  ∀ r ∈ t.records, r.deps.Distinct ∧
    ∃ body, units.get? r.id = some ⟨r.deps, body⟩ ∧ ∀ ref, (body ref).Imports [] r.deps

variable {units : LoaderUnits α} {t : ModuleTable} {m : LoaderMemory α} {id : ModuleId}

theorem Obey.of_mem_ids (h : units.Obey t) (hid : id ∈ t.ids) : ∃ r body, t.get? id = some r ∧
    units.get? id = some ⟨r.deps, body⟩ ∧ r.deps.Distinct ∧ ∀ ref, (body ref).Imports [] r.deps := by
  obtain ⟨r, hr⟩ := Option.isSome_iff_exists.1 (ModuleTable.isSome_get?.2 hid)
  obtain ⟨hmem, rfl⟩ := ModuleTable.of_get?_eq_some hr
  obtain ⟨hdistinct, body, hbody, himports⟩ := h r hmem
  exact ⟨r, body, hr, hbody, hdistinct, himports⟩

/-- A module that is known is not traversed again. -/
theorem require_cached_traverses {depth : Nat} {ref : ExportsRef} (hm : InOrder t m)
    (hc : m.cached? id = some ref) : Traverses t [id] m (units.require depth id m).2 := by
  have hid : id ∈ m.started := by rw [hm.mem_started, hc]; rfl
  rw [require_cached hc]
  refine ⟨.refl m, hm, ?_, fun _ => Iff.rfl⟩
  exact Graph.depthFirst_nil.symm.trans (Graph.depthFirst_met hid).symm

/-- **A require traverses what its module needs.** The bodies under way are of
modules that import it, and there is room for those that are yet to start. -/
theorem require_traverses (hnodup : t.ids.Nodup) (hmissing : t.missingDependencies = [])
    (hobey : units.Obey t) : ∀ (depth : Nat) (id : ModuleId) (m : LoaderMemory α), id ∈ t.ids →
    InOrder t m → units.pending m ≤ depth → (∀ id', m.Running id' → t.ImportsVia id' id) →
    ∃ ref, (units.require depth id m).1 = .ok ref ∧ Traverses t [id] m (units.require depth id m).2 := by
  intro depth
  induction depth with
  | zero =>
    intro id m hid hm hroom hrunning
    cases hc : m.cached? id with
    | some ref => exact ⟨ref, by rw [require_cached hc], require_cached_traverses hm hc⟩
    | none =>
      -- The module itself is yet to start, and there is no room for it.
      obtain ⟨r, body, hr, hu, -⟩ := hobey.of_mem_ids hid
      have hlt := pending_start_lt hc hu
      omega
  | succ depth ih =>
    intro id m hid hm hroom hrunning
    cases hc : m.cached? id with
    | some ref => exact ⟨ref, by rw [require_cached hc], require_cached_traverses hm hc⟩
    | none =>
      obtain ⟨r, body, hr, hu, hdistinct, himports⟩ := hobey.of_mem_ids hid
      have htargets := ModuleTable.targetsOf_eq hr
      have hids : ∀ target ∈ r.deps.targets, target ∈ t.ids := by
        rw [← htargets]
        exact ModuleTable.targetsOf_mem_ids hmissing id hid
      have hknown : ∀ specifier target xs m', (specifier, target) ∈ r.deps →
          Traverses t xs (m.start id).2 m' →
          ∃ ref, (units.requireFrom depth id r.deps specifier m').1 = .ok ref ∧
            Traverses t [target] m' (units.requireFrom depth id r.deps specifier m').2 := by
        intro specifier target xs m' hmem hm'
        have htarget : target ∈ r.deps.targets := DependencyMap.mem_targets.2 ⟨specifier, hmem⟩
        rw [requireFrom_of_get? (hdistinct.get?_eq_some hmem)]
        -- What is under way in the body is the module, and what was around it.
        refine ih target m' (hids target htarget) hm'.inOrder ?_ ?_
        · have hlt := pending_start_lt hc hu
          have hle := pending_le units hm'.extend
          omega
        · intro id' hid'
          have hedge : t.Imports id target := (ModuleTable.mem_targetsOf hnodup).1 (htargets ▸ htarget)
          rcases (hm.running_start hc).1 ((hm'.running id').1 hid') with hway | rfl
          · exact (hrunning id' hway).tail hedge
          · exact .single hedge
      have hunknown : ∀ specifier m', specifier ∉ r.deps.map (·.1) →
          ∃ e, units.requireFrom depth id r.deps specifier m' = (.error e, m') := fun specifier m' h =>
        ⟨_, requireFrom_of_get?_none (DependencyMap.get?_eq_none.2 h)⟩
      obtain ⟨hok, hbody⟩ := Body.run_traverses hids hknown hunknown (himports (m.start id).1)
        (List.nil_append r.deps) (.refl (hm.start hc)) (by simp [DependencyMap.targets])
      rw [require_start hc hu, runBody, hok]
      rw [← htargets] at hbody
      exact ⟨_, rfl, hbody.body hm hnodup hmissing hid hc hrunning⟩

end LoaderUnits

/-- In a table of all that an entry needs, imports lead from it to every module. -/
theorem Discovery.Closed.leads_iff {build : ModuleId → Except BuildError ModuleRecord} {entry : ModuleId}
    {t : ModuleTable} (h : Closed build entry t) {id : ModuleId} : t.Leads entry id ↔ id ∈ t.ids := by
  constructor
  · intro hleads
    induction hleads with
    | refl => exact (h.mem_ids entry).2 .refl
    | tail _ himp ih =>
      obtain ⟨r, hr, -, htarget⟩ := himp
      exact h.targets r hr _ htarget
  · intro hid
    have hreach := (h.mem_ids id).1 hid
    clear hid
    induction hreach with
    | refl => exact .refl
    | @tail importer imported hreach himp ih =>
      obtain ⟨r, hr, htarget⟩ := himp
      obtain ⟨r', hr', rfl⟩ := ModuleTable.mem_ids.1 ((h.mem_ids importer).2 hreach)
      have hsame : r' = r := Except.ok.inj ((h.built r' hr').symm.trans hr)
      exact ih.tail ⟨r', hr', rfl, hsame ▸ htarget⟩

namespace Loader

open LoaderUnits

variable {t : ModuleTable} {bodies : ModuleId → Option (ExportsRef → Body α)} {entry : ModuleId}

theorem ofTable_obey (hnodup : t.ids.Nodup) (hdeps : ∀ r ∈ t.records, r.deps.Distinct)
    (hbodies : ∀ r ∈ t.records, ∃ body, bodies r.id = some body ∧ ∀ ref, (body ref).Imports [] r.deps) :
    (ofTable t bodies).units.Obey t := by
  intro r hr
  obtain ⟨body, hbody, himports⟩ := hbodies r hr
  refine ⟨hdeps r hr, body, ?_, himports⟩
  rw [ofTable_get?, (ModuleTable.get?_eq_some hnodup).2 ⟨hr, rfl⟩, Option.bind_some, hbody, Option.map_some]

/-- What a run of a module comes to in a loader that has loaded nothing. -/
theorem run_traverses {units : LoaderUnits α} (hnodup : t.ids.Nodup) (hmissing : t.missingDependencies = [])
    (hobey : units.Obey t) (hentry : entry ∈ t.ids) :
    (({ units } : Loader α).run entry).1 = .ok () ∧
      Traverses t [entry] {} (({ units } : Loader α).run entry).2.memory := by
  obtain ⟨ref, hok, htraverses⟩ := require_traverses hnodup hmissing hobey units.length entry {} hentry .empty
    List.countP_le_length fun id' hid' => absurd hid'.1 List.not_mem_nil
  simp only [run, Loader.require]
  rw [hok]
  exact ⟨rfl, htraverses⟩

/-- **Modules start in the order of a depth first search of the imports**, each
that the entry needs once, when every body imports what its module depends on
in that order. A module that is imported and does not need its importer ends
before it. Of a table that discovery gives, all modules are executed. -/
theorem run_preorder (hdeps : ∀ r ∈ t.records, r.deps.Distinct)
    (hbodies : ∀ r ∈ t.records, ∃ body, bodies r.id = some body ∧ ∀ ref, (body ref).Imports [] r.deps)
    (entry : ModuleId) :
    let run := (ofTable t bodies).run entry
    (t.ids.Nodup → t.missingDependencies = [] → entry ∈ t.ids →
      run.1 = .ok () ∧
      run.2.started = t.preorder entry ∧
      run.2.started.Nodup ∧
      (∀ id, id ∈ run.2.started ↔ t.Leads entry id) ∧
      run.2.memory.history.Nodup ∧
      (∀ id, .finished id ∈ run.2.memory.history ↔ t.Leads entry id) ∧
      ∀ importer imported, t.Leads entry importer → t.Imports importer imported →
        ¬ t.ImportsVia imported importer →
        List.Sublist [.finished imported, .finished importer] run.2.memory.history) ∧
    ∀ (plan : Discovery.Plan) (turns : List Discovery.Turn), 0 < plan.capacity →
      Discovery.Faithful plan.build → (discover plan turns entry).result = .ok t →
      run.1 = .ok () ∧ run.2.started.Perm t.ids ∧ ∀ id ∈ t.ids, .finished id ∈ run.2.memory.history := by
  intro run
  have hrun : t.ids.Nodup → t.missingDependencies = [] → entry ∈ t.ids →
      run.1 = .ok () ∧ Traverses t [entry] {} run.2.memory := fun hnodup hmissing hentry =>
    run_traverses hnodup hmissing (ofTable_obey hnodup hdeps hbodies) hentry
  refine ⟨?_, ?_⟩
  · intro hnodup hmissing hentry
    obtain ⟨hok, h⟩ := hrun hnodup hmissing hentry
    have hstarted : ∀ id, id ∈ run.2.started ↔ t.Leads entry id := fun _ =>
      h.mem_started_iff_leads hnodup hmissing hentry
    have hfinished : ∀ id, .finished id ∈ run.2.memory.history ↔ t.Leads entry id := fun id =>
      h.finished_iff.trans (hstarted id)
    refine ⟨hok, h.started, h.inOrder.sound.started_nodup, hstarted, h.inOrder.nodup, hfinished, ?_⟩
    intro importer imported hleads himp hnot
    exact (h.inOrder.importedFirst importer imported himp ((hfinished importer).2 hleads)).resolve_left hnot
  · intro plan turns hcap hfaithful hdiscover
    obtain ⟨taken, left, d, -, hd, hend⟩ := Discovery.discover_cases plan turns entry
    obtain ⟨t', ht', rfl, -⟩ := hend.of_ok hcap hfaithful hd hdiscover
    have hc := ht'.sort
    have hmissing := ModuleTable.missingDependencies_eq_nil.2 hc.targets
    have hentry := (hc.mem_ids entry).2 .refl
    obtain ⟨hok, h⟩ := hrun hc.nodup hmissing hentry
    have hstarted : ∀ id, id ∈ run.2.started ↔ id ∈ t'.sort.ids := fun _ =>
      (h.mem_started_iff_leads hc.nodup hmissing hentry).trans hc.leads_iff
    exact ⟨hok, (List.perm_ext_iff_of_nodup h.inOrder.sound.started_nodup hc.nodup).2 hstarted,
      fun id hid => h.finished_iff.2 ((hstarted id).2 hid)⟩

/-- Two modules that import each other, and one that does not import them. -/
theorem run_preorder_cycle :
    let a : ModuleId := ⟨"/a.js"⟩
    let b : ModuleId := ⟨"/b.js"⟩
    let c : ModuleId := ⟨"/c.js"⟩
    let t : ModuleTable := ⟨[⟨a, "", [("./b.js", b), ("./c.js", c)], ""⟩, ⟨b, "", [("./a.js", a)], ""⟩,
      ⟨c, "", [], ""⟩]⟩
    let bodies (id : ModuleId) : Option (ExportsRef → Body Nat) :=
      (t.get? id).map fun r _ => .importAll r.deps
    let plan : Discovery.Plan :=
      ⟨fun id => match t.get? id with
        | some r => .ok r
        | none => .error (.parse id.path "no such file"), 2, 20⟩
    let run := (Loader.ofTable t bodies).run a
    (discover plan [.report 0, .report 1, .report 0] a).result = .ok t ∧
      run.2.started = [a, b, c] ∧ t.preorder a = [a, b, c] ∧ run.2.started.Perm t.ids ∧
      List.Sublist [.finished c, .finished a] run.2.memory.history := by
  intro a b c t bodies plan run
  have hdiscover : (discover plan [.report 0, .report 1, .report 0] a).result = .ok t := by cbv
  have hfaithful : Discovery.Faithful plan.build := by
    intro id r hr
    simp only [plan] at hr
    split at hr
    · next r' hr' =>
      cases hr
      exact (ModuleTable.of_get?_eq_some hr').2
    · cases hr
  have hnodup : t.ids.Nodup := by decide
  have hdeps : ∀ r ∈ t.records, r.deps.Distinct := by
    unfold DependencyMap.Distinct
    decide
  have hbodies : ∀ r ∈ t.records, ∃ body, bodies r.id = some body ∧
      ∀ ref, (body ref).Imports [] r.deps := by
    intro r hr
    refine ⟨fun _ => .importAll r.deps, ?_, fun _ => Body.importAll_imports r.deps⟩
    simp only [bodies, (ModuleTable.get?_eq_some hnodup).2 ⟨hr, rfl⟩, Option.map_some]
  obtain ⟨hclosed, hdiscovered⟩ := run_preorder hdeps hbodies a
  obtain ⟨-, hstarted, -, hneeds, -, -, hfirst⟩ := hclosed hnodup (by decide) (by decide)
  have horder : run.2.started = [a, b, c] := by decide
  have himports : t.Imports a c := ⟨_, List.mem_cons_self, rfl, by decide⟩
  have hnone : ¬ t.ImportsVia c a := by
    intro hvia
    obtain ⟨x, ⟨r, hr, hid, hx⟩, -⟩ := Relation.TransGen.head'_iff.1 hvia
    have hget : t.get? c = some r := (ModuleTable.get?_eq_some hnodup).2 ⟨hr, hid⟩
    cases hget
    cases hx
  obtain ⟨-, hperm, -⟩ := hdiscovered plan _ (by decide) hfaithful hdiscover
  exact ⟨hdiscover, horder, hstarted.symm.trans horder, hperm, hfirst a c .refl himports hnone⟩

end Loader

end Bundler
