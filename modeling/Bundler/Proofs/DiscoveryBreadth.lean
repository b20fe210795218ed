/-
The order in which one worker builds modules. A discovery marks a module when it
is handed out, and until then puts it into the queue for each import; a breadth
first search marks it when it is put there, and puts it there once. What is left
of a queue of the one when modules are dropped that come a second time is the
queue of the other (`Matches`), round by round, and the first import noted for a
module is one of the module it was found from. So the builds are those of a
breadth first search, up to the first that fails (`Matches.log_eq`,
`Matches.result_eq`).
-/
import Bundler.Proofs.BreadthFirst
import Bundler.Proofs.DiscoveryOrigins
import Bundler.Proofs.SessionDeterminism

namespace Bundler.Discovery

variable (build : ModuleId → Except BuildError ModuleRecord)

/-- A breadth first search along imports: the modules it comes to, each with the
module it was found from. -/
def breadthFirst (limit : Nat) (entry : ModuleId) : List (ModuleId × Option ModuleId) :=
  Graph.breadthFirst (importsOf build) limit [entry] [(entry, none)]

/-- What happens when modules are built one after another, up to the first that
cannot be built. -/
def oneByOne : List ModuleId → List Event
  | [] => []
  | id :: ids =>
    .handOut id :: .report id (build id) ::
      match build id with
      | .ok _ => oneByOne ids
      | .error _ => []

/-- The first import of a module in the record of the one it was found from. -/
def originFrom? (parent : Option ModuleId) (id : ModuleId) : Option Origin :=
  parent.bind fun importer => (build importer).toOption.bind fun r => r.originOf? id

variable {build} {d : Discovery} {r : ModuleRecord} {id : ModuleId}

theorem originFrom?_ok {importer : ModuleId} (hb : build importer = .ok r) (id : ModuleId) :
    originFrom? build (some importer) id = r.originOf? id := by
  rw [originFrom?, Option.bind_some, hb]
  rfl

/-! ## One build at a time -/

theorem dispatchFrom_full {capacity : Nat} (h : capacity ≤ d.inFlight.length) (queue : List ModuleId) :
    dispatchFrom capacity queue d = { d with queue } := by
  cases queue with
  | nil => rfl
  | cons id queue => rw [dispatchFrom, if_neg (Nat.not_lt.2 h)]

theorem dispatchFrom_one_nil {queue : List ModuleId} (hidle : d.inFlight = [])
    (h : Graph.fresh d.visited queue = []) : (dispatchFrom 1 queue d).inFlight = [] := by
  induction queue with
  | nil => exact hidle
  | cons id queue ih =>
    rw [Graph.fresh] at h
    split at h
    · next hvisited =>
      rw [dispatchFrom, if_pos (by rw [hidle]; exact Nat.one_pos), if_pos hvisited]
      exact ih h
    · cases h

theorem dispatchFrom_one_cons {queue rest : List ModuleId} (hidle : d.inFlight = [])
    (h : Graph.fresh d.visited queue = id :: rest) :
    ∃ left, dispatchFrom 1 queue d =
        { d with queue := left, visited := d.visited ++ [id], inFlight := [id] } ∧
      Graph.fresh (d.visited ++ [id]) left = rest := by
  induction queue with
  | nil => cases h
  | cons x queue ih =>
    rw [Graph.fresh] at h
    rw [dispatchFrom, if_pos (by rw [hidle]; exact Nat.one_pos)]
    split at h
    · next hvisited =>
      rw [if_pos hvisited]
      exact ih h
    · next hvisited =>
      obtain ⟨rfl, hrest⟩ := List.cons_eq_cons.1 h
      rw [if_neg hvisited, dispatchFrom_full (by rw [List.length_append]; exact Nat.le_add_left ..)]
      exact ⟨queue, by rw [hidle]; rfl, hrest⟩

/-- With nothing new in the queue, nothing is handed out. -/
theorem dispatch_one_nil (hidle : d.inFlight = []) (h : Graph.fresh d.visited d.queue = []) :
    (d.dispatch 1).inFlight = [] := dispatchFrom_one_nil hidle h

/-- The first new module of the queue is handed out, and no other. -/
theorem dispatch_one_cons {rest : List ModuleId} (hidle : d.inFlight = [])
    (h : Graph.fresh d.visited d.queue = id :: rest) :
    (d.dispatch 1).inFlight = [id] ∧ (d.dispatch 1).visited = d.visited ++ [id] ∧
      Graph.fresh (d.dispatch 1).visited (d.dispatch 1).queue = rest := by
  obtain ⟨left, hd, hrest⟩ := dispatchFrom_one_cons hidle h
  rw [dispatch, hd]
  exact ⟨rfl, rfl, hrest⟩

/-! ## A discovery and a search -/

/-- A discovery with one worker and a search that have come equally far. -/
structure Matches (build : ModuleId → Except BuildError ModuleRecord) (d : Discovery)
    (marked : List ModuleId) (queue : List (ModuleId × Option ModuleId)) : Prop where
  idle : d.inFlight = []
  waiting : Graph.fresh d.visited d.queue = queue.map (·.1)
  knows : ∀ id, id ∈ marked ↔ d.Knows id
  origin : ∀ x ∈ queue, d.origin? x.1 = originFrom? build x.2 x.1
  /-- The entry comes first, and the others have been asked for. -/
  asked : ∀ x ∈ queue.tail, (d.origin? x.1).isSome = true
  noted : ∀ id, (d.origin? id).isSome = true → id ∈ marked

namespace Matches

variable {marked : List ModuleId} {queue : List (ModuleId × Option ModuleId)} {parent : Option ModuleId}

theorem start (build : ModuleId → Except BuildError ModuleRecord) (entry : ModuleId) :
    Matches build (.start entry) [entry] [(entry, none)] where
  idle := rfl
  waiting := rfl
  knows id := by simp [Knows, Discovery.start]
  origin x hx := by rw [List.mem_singleton.1 hx]; rfl
  asked x hx := absurd hx List.not_mem_nil
  noted id hid := absurd hid Bool.false_ne_true

theorem handsOut (h : Matches build d marked ((id, parent) :: queue)) :
    (d.dispatch 1).inFlight = [id] ∧ (d.dispatch 1).visited = d.visited ++ [id] ∧
      Graph.fresh (d.dispatch 1).visited (d.dispatch 1).queue = queue.map (·.1) :=
  dispatch_one_cons h.idle h.waiting

/-- **A record is accepted, and a search looks at its module.** -/
theorem accept (h : Matches build d marked ((id, parent) :: queue)) (hb : build id = .ok r) :
    Matches build (Discovery.accept { d.dispatch 1 with inFlight := (d.dispatch 1).inFlight.erase id } r)
      (marked ++ Graph.fresh marked (importsOf build id))
      (queue ++ (Graph.fresh marked (importsOf build id)).map fun x => (x, some id)) := by
  obtain ⟨hflight, -, hwaiting⟩ := h.handsOut
  rw [importsOf_ok hb]
  have hknown : ∀ x, x ∈ marked ↔ x ∈ (d.dispatch 1).visited ∨ x ∈ (d.dispatch 1).queue := fun x =>
    (h.knows x).trans dispatch_knows.symm
  have horigin : ∀ x, (Discovery.accept { d.dispatch 1 with inFlight := (d.dispatch 1).inFlight.erase id }
      r).origin? x =
        (d.origin? x).or (if x ∈ (d.dispatch 1).visited then none else r.originOf? x) := by
    intro x
    rw [accept_origin?]
    congr 1
    exact d.dispatch_origin? 1 x
  have hold : ∀ x ∈ queue, (d.origin? x.1).isSome = true := h.asked
  -- nothing has asked before for what the search marks now
  have hnew : ∀ x, x ∉ marked → d.origin? x = none ∧ x ∉ (d.dispatch 1).visited := fun x hx =>
    ⟨Option.not_isSome_iff_eq_none.1 fun ho => hx (h.noted x ho), fun hv => hx ((hknown x).2 (.inl hv))⟩
  refine ⟨?_, ?_, ?_, ?_, ?_, ?_⟩
  · rw [accept_inFlight, hflight, List.erase_cons_head]
  · have hmarked : ∀ x, x ∈ (d.dispatch 1).visited ++ queue.map (·.1) ↔ x ∈ marked := by
      intro x
      rw [← hwaiting, List.mem_append, Graph.mem_fresh, hknown]
      tauto
    rw [accept_visited, accept_queue, Graph.fresh_append, hwaiting,
      Graph.fresh_filter fun x hx => List.mem_append_left _ hx, Graph.fresh_congr hmarked]
    simp only [List.map_append, List.map_map, Function.comp_def, List.map_id']
  · intro x
    rw [List.mem_append, Graph.mem_fresh, accept_knows, hknown]
    simp only [Knows]
    tauto
  · intro x hx
    rw [horigin]
    rcases List.mem_append.1 hx with hx | hx
    · rw [Option.or_of_isSome (hold x hx), h.origin x (List.mem_cons_of_mem _ hx)]
    · obtain ⟨y, hy, rfl⟩ := List.mem_map.1 hx
      obtain ⟨hnone, hvisited⟩ := hnew y (Graph.mem_fresh.1 hy).2
      rw [hnone, Option.none_or, if_neg hvisited, originFrom?_ok hb]
  · intro x hx
    rw [horigin]
    rcases List.mem_append.1 (List.mem_of_mem_tail hx) with hx | hx
    · rw [Option.or_of_isSome (hold x hx)]
      exact hold x hx
    · obtain ⟨y, hy, rfl⟩ := List.mem_map.1 hx
      obtain ⟨hnone, hvisited⟩ := hnew y (Graph.mem_fresh.1 hy).2
      rw [hnone, Option.none_or, if_neg hvisited, isSome_originOf?]
      exact (Graph.mem_fresh.1 hy).1
  · intro x hx
    by_cases hmarked : x ∈ marked
    · exact List.mem_append_left _ hmarked
    · obtain ⟨hnone, hvisited⟩ := hnew x hmarked
      rw [horigin, hnone, Option.none_or, if_neg hvisited, isSome_originOf?] at hx
      exact List.mem_append_right _ (Graph.mem_fresh.2 ⟨hx, hmarked⟩)

variable {nodes : Finset ModuleId} {limit timeoutMs : Nat}

theorem settled (h : Matches build d marked []) : (d.dispatch 1).inFlight = [] :=
  dispatch_one_nil h.idle h.waiting

/-- The only build in flight reports. -/
theorem reporting (h : Matches build d marked ((id, parent) :: queue)) (position : Nat) :
    (d.dispatch 1).inFlight.getD position id = id := by
  have hid := getD_mem_inFlight h.handsOut.1 position
  rwa [h.handsOut.1, List.mem_singleton, ← h.handsOut.1] at hid

theorem turn_eq (h : Matches build d marked ((id, parent) :: queue)) (position : Nat) :
    (d.dispatch 1).turn ⟨build, 1, timeoutMs⟩ id (.report position) =
      (d.dispatch 1).receive id (build id) := by
  simp only [turn, h.reporting]

/-- **The log of a discovery with one worker is that of a search.** -/
theorem log_eq (hsearch : Graph.Searching nodes (importsOf build) limit marked queue) :
    ∀ d turns, Matches build d marked queue → onTime ⟨build, 1, timeoutMs⟩ turns d = true →
      log ⟨build, 1, timeoutMs⟩ turns d =
        oneByOne build ((Graph.breadthFirst (importsOf build) limit marked queue).map (·.1)) := by
  refine hsearch.traversal ?_ ?_
  · intro limit marked d turns h _
    rw [log_settled turns h.settled, Graph.breadthFirst_nil, handOuts, h.settled, List.drop_nil]
    rfl
  · intro limit marked id parent queue _ ih d turns h honTime
    have hflight := h.handsOut.1
    obtain ⟨position, left, rfl, hnext⟩ := onTime_cons hflight honTime
    have hevents : (Turn.report position).events ⟨build, 1, timeoutMs⟩ (d.dispatch 1) id =
        [.report id (build id)] := by
      simp only [Turn.events, h.reporting]
    rw [log_turn hflight, hevents, h.turn_eq, handOuts, hflight, h.idle, Graph.breadthFirst, List.map_cons,
      oneByOne]
    rw [h.turn_eq] at hnext
    cases hb : build id with
    | error b => rfl
    | ok r =>
      rw [hb] at hnext
      rw [← ih _ left (h.accept hb) (hnext _ rfl)]
      rfl

/-- **It fails by the first module of the search that cannot be built**, and tells
of the import by which that was found. -/
theorem result_eq (hsearch : Graph.Searching nodes (importsOf build) limit marked queue) :
    ∀ d turns, Matches build d marked queue → onTime ⟨build, 1, timeoutMs⟩ turns d = true →
      ∀ before x after b, Graph.breadthFirst (importsOf build) limit marked queue = before ++ x :: after →
        (∀ y ∈ before, ∃ r, build y.1 = .ok r) → build x.1 = .error b →
        (run ⟨build, 1, timeoutMs⟩ turns d).result =
          .error ⟨x.1, (originFrom? build x.2 x.1).map (·.importer),
            (originFrom? build x.2 x.1).map (·.specifier), b⟩ := by
  refine hsearch.traversal ?_ ?_
  · intro limit marked d turns _ _ before x after b hsplit
    simp at hsplit
  · intro limit marked id parent queue _ ih d turns h honTime before x after b hsplit hbefore hx
    obtain ⟨position, left, rfl, hnext⟩ := onTime_cons h.handsOut.1 honTime
    rw [h.turn_eq] at hnext
    rw [run_turn h.handsOut.1, h.turn_eq]
    rw [Graph.breadthFirst] at hsplit
    cases before with
    | nil =>
      obtain ⟨rfl, -⟩ := List.cons_eq_cons.1 hsplit
      have horigin := h.origin _ List.mem_cons_self
      simp only at hx horigin
      simp only [hx, receive, fail, dispatch_origin?, horigin]
    | cons y before =>
      obtain ⟨rfl, hrest⟩ := List.cons_eq_cons.1 hsplit
      obtain ⟨r, hb⟩ := hbefore _ List.mem_cons_self
      simp only at hb
      rw [hb] at hnext ⊢
      exact ih _ left (h.accept hb) (hnext _ rfl) before x after b hrest
        (fun y hy => hbefore y (List.mem_cons_of_mem _ hy)) hx

end Matches

/-! ## Whole runs -/

variable {entry : ModuleId} {nodes : Finset ModuleId} {limit timeoutMs : Nat}

theorem reach_importsOf {id : ModuleId} : Graph.Reach (importsOf build) entry id ↔ Reachable build entry id := by
  simp only [Graph.Reach, Reachable, mem_importsOf]

/-- A search that can take all from its queue that the entry needs. -/
theorem searching (hfinite : {id | Reachable build entry id}.Finite)
    (hlimit : {id | Reachable build entry id}.ncard ≤ limit) :
    Graph.Searching hfinite.toFinset (importsOf build) limit [entry] [(entry, none)] := by
  refine .start (fun id hid imported himported => ?_) (hfinite.mem_toFinset.2 .refl) ?_
  · exact hfinite.mem_toFinset.2 ((hfinite.mem_toFinset.1 hid).tail (mem_importsOf.1 himported))
  · rwa [← Set.ncard_eq_toFinset_card _ hfinite]

/-- All of some modules are built if none of them fails. -/
theorem handedOut_oneByOne_ok : ∀ {ids : List ModuleId}, (∀ id ∈ ids, ∃ r, build id = .ok r) →
    handedOut (oneByOne build ids) = ids
  | [], _ => rfl
  | id :: ids, h => by
    obtain ⟨r, hb⟩ := h id List.mem_cons_self
    have ih := handedOut_oneByOne_ok fun x hx => h x (List.mem_cons_of_mem id hx)
    simp only [oneByOne, hb]
    exact congrArg (id :: ·) ih

/-- Modules are built up to the first that fails. -/
theorem handedOut_oneByOne_error {b : BuildError} (hb : build id = .error b) (after : List ModuleId) :
    ∀ {before : List ModuleId}, (∀ id ∈ before, ∃ r, build id = .ok r) →
    handedOut (oneByOne build (before ++ id :: after)) = before ++ [id]
  | [], _ => by
    simp only [List.nil_append, oneByOne, hb]
    rfl
  | x :: before, h => by
    obtain ⟨r, hx⟩ := h x List.mem_cons_self
    have ih := handedOut_oneByOne_error hb after fun y hy => h y (List.mem_cons_of_mem x hy)
    simp only [List.cons_append, oneByOne, hx]
    exact congrArg (x :: ·) ih

/-- Of some modules that are not all built, one is the first that fails. -/
theorem exists_first_error {found : List (ModuleId × Option ModuleId)} :
    (∀ x ∈ found, ∃ r, build x.1 = .ok r) ∨
    ∃ before x after b, found = before ++ x :: after ∧ (∀ y ∈ before, ∃ r, build y.1 = .ok r) ∧
      build x.1 = .error b := by
  induction found with
  | nil => exact .inl fun x hx => absurd hx List.not_mem_nil
  | cons y found ih =>
    cases hy : build y.1 with
    | error b => exact .inr ⟨[], y, found, b, rfl, fun x hx => absurd hx List.not_mem_nil, hy⟩
    | ok r =>
      rcases ih with hall | ⟨before, x, after, b, rfl, hbefore, hx⟩
      · exact .inl (List.forall_mem_cons.2 ⟨⟨r, hy⟩, hall⟩)
      · exact .inr ⟨y :: before, x, after, b, rfl, List.forall_mem_cons.2 ⟨⟨r, hy⟩, hbefore⟩, hx⟩

/-- A module of a search is the entry, or the first import of it is in the record of
one that comes before. -/
theorem originFrom?_found (hfaithful : Faithful build)
    (hsearch : Graph.Searching nodes (importsOf build) limit [entry] [(entry, none)])
    {before after : List (ModuleId × Option ModuleId)} {parent : Option ModuleId}
    (hsplit : breadthFirst build limit entry = before ++ (id, parent) :: after) :
    (id = entry ∧ parent = none) ∨
    id ≠ entry ∧ ∃ importer ∈ before.map (·.1), ∃ r specifier, parent = some importer ∧
      build importer = .ok r ∧ originFrom? build parent id = some ⟨importer, specifier⟩ ∧
      r.deps.find? (fun dep => dep.2 = id) = some (specifier, id) := by
  rcases Graph.breadthFirst_parent hsearch hsplit with hentry | ⟨hne, importer, hbefore, rfl, hid⟩
  · exact .inl hentry
  · obtain ⟨r, hb, htarget⟩ := mem_importsOf.1 hid
    obtain rfl := hfaithful importer r hb
    obtain ⟨dep, hdep, rfl⟩ := List.mem_map.1 htarget
    obtain ⟨⟨specifier, target⟩, hfind⟩ := Option.isSome_iff_exists.1
      (List.find?_isSome.2 ⟨dep, hdep, decide_eq_true rfl⟩ :
        (r.deps.find? fun other => other.2 = dep.2).isSome = true)
    obtain rfl : target = dep.2 := by simpa using List.find?_some hfind
    refine .inr ⟨hne, r.id, hbefore, r, specifier, rfl, hb, ?_, hfind⟩
    rw [originFrom?_ok hb, ModuleRecord.originOf?, hfind]
    rfl

/-- **One worker builds modules in the order of a breadth first search**, as long
as it reports in time. The search goes along the imports of each record in their
order, marks a module when it is found, and lists just what the entry needs. If
all of that can be built, it is built in this order. Otherwise the builds are
those up to the first module that fails, and the error names this module, the
module it was found from, and the first import of it there. -/
theorem discover_breadthFirst {turns : List Turn} (hfaithful : Faithful build)
    (hfinite : {id | Reachable build entry id}.Finite)
    (hlimit : {id | Reachable build entry id}.ncard ≤ limit)
    (honTime : onTime ⟨build, 1, timeoutMs⟩ turns (.start entry) = true) :
    let plan : Plan := ⟨build, 1, timeoutMs⟩
    let found := breadthFirst build limit entry
    (∀ id, id ∈ found.map (·.1) ↔ Reachable build entry id) ∧
    (found.map (·.1)).Nodup ∧
    log plan turns (.start entry) = oneByOne build (found.map (·.1)) ∧
    ((∀ id, Reachable build entry id → ∃ r, build id = .ok r) →
      (discover plan turns entry).visited = found.map (·.1) ∧
      ∃ table, (discover plan turns entry).result = .ok table) ∧
    ((∃ id b, Reachable build entry id ∧ build id = .error b) →
      ∃ before id parent after b e, found = before ++ (id, parent) :: after ∧
        (∀ x ∈ before, ∃ r, build x.1 = .ok r) ∧ build id = .error b ∧
        (discover plan turns entry).visited = before.map (·.1) ++ [id] ∧
        (discover plan turns entry).result = .error e ∧
        e.module = id ∧ e.source = b ∧ e.importer = parent ∧
        (id = entry → parent = none ∧ e.specifier = none) ∧
        (id ≠ entry → ∃ importer ∈ before.map (·.1), ∃ r specifier,
          parent = some importer ∧ build importer = .ok r ∧ e.specifier = some specifier ∧
          r.deps.find? (fun dep => dep.2 = id) = some (specifier, id))) := by
  intro plan found
  have hsearch := searching hfinite hlimit
  have hmem : ∀ id, id ∈ found.map (·.1) ↔ Reachable build entry id := fun id =>
    (Graph.mem_breadthFirst hsearch).trans reach_importsOf
  have hlog := Matches.log_eq hsearch _ turns (.start build entry) honTime
  have hvisited : (discover plan turns entry).visited = handedOut (oneByOne build (found.map (·.1))) := by
    rw [← handedOut_log hfaithful turns entry, hlog]
    rfl
  refine ⟨hmem, hsearch.nodes_nodup, hlog, fun hall => ⟨?_, ?_⟩, fun hfail => ?_⟩
  · rw [hvisited, handedOut_oneByOne_ok fun id hid => hall id ((hmem id).1 hid)]
  · exact (discover_ok_iff Nat.one_pos hfaithful honTime).2 hall
  · obtain ⟨before, ⟨id, parent⟩, after, b, hsplit, hbefore, hb⟩ :
        ∃ before x after b, found = before ++ x :: after ∧ (∀ y ∈ before, ∃ r, build y.1 = .ok r) ∧
          build x.1 = .error b := by
      refine exists_first_error.resolve_left fun hall => ?_
      obtain ⟨id, b, hid, hb⟩ := hfail
      obtain ⟨x, hx, rfl⟩ := List.mem_map.1 ((hmem id).2 hid)
      obtain ⟨r, hok⟩ := hall x hx
      rw [hok] at hb
      cases hb
    have hresult := Matches.result_eq hsearch _ turns (.start build entry) honTime before _ after b
      hsplit hbefore hb
    refine ⟨before, id, parent, after, b, _, hsplit, hbefore, hb, ?_, hresult, rfl, rfl, ?_⟩
    · rw [hvisited, hsplit, List.map_append, List.map_cons]
      refine handedOut_oneByOne_error hb _ fun x hx => ?_
      obtain ⟨y, hy, rfl⟩ := List.mem_map.1 hx
      exact hbefore y hy
    · rcases originFrom?_found hfaithful hsearch hsplit with
        ⟨rfl, rfl⟩ | ⟨hne, importer, himporter, r, specifier, rfl, hok, horigin, hfind⟩
      · exact ⟨rfl, fun _ => ⟨rfl, rfl⟩, fun hne => absurd rfl hne⟩
      · rw [horigin]
        exact ⟨rfl, fun he => absurd he hne,
          fun _ => ⟨importer, himporter, r, specifier, rfl, hok, rfl, hfind⟩⟩

/-- Modules that import each other and one that is not there. That one is put into
the queue three times, and has two spellings where it is found first. -/
theorem discover_breadthFirst_spellings :
    let storage : MemoryStorage := .ofList
      [(.ofString "/m.js", "import './a.js';\nimport './b.js';"),
       (.ofString "/a.js", "import './b.js';\nimport './c.js';\nimport './m.js';"),
       (.ofString "/b.js", "import './c.js';\nimport './lib/../x.js';\nimport './x.js';"),
       (.ofString "/c.js", "import './x.js';\nimport './c.js';")]
    let b : Builder Script.Module := ⟨scriptTransform, .es2015⟩
    let turns := inOrder 5
    breadthFirst (b.build storage) 5 ⟨"/m.js"⟩ =
      [(⟨"/m.js"⟩, none), (⟨"/a.js"⟩, some ⟨"/m.js"⟩), (⟨"/b.js"⟩, some ⟨"/m.js"⟩),
       (⟨"/c.js"⟩, some ⟨"/a.js"⟩), (⟨"/x.js"⟩, some ⟨"/b.js"⟩)] ∧
    ∃ e, (discover ⟨b.build storage, 1, 20⟩ turns ⟨"/m.js"⟩).result = .error e ∧
      e.module = ⟨"/x.js"⟩ ∧ e.importer = some ⟨"/b.js"⟩ := by
  intro storage b turns
  have hfound : breadthFirst (b.build storage) 5 ⟨"/m.js"⟩ =
      [(⟨"/m.js"⟩, none), (⟨"/a.js"⟩, some ⟨"/m.js"⟩), (⟨"/b.js"⟩, some ⟨"/m.js"⟩),
       (⟨"/c.js"⟩, some ⟨"/a.js"⟩), (⟨"/x.js"⟩, some ⟨"/b.js"⟩)] := by decide +kernel
  have hentry : (⟨"/m.js"⟩ : ModuleId) ∈
      ({⟨"/m.js"⟩, ⟨"/a.js"⟩, ⟨"/b.js"⟩, ⟨"/c.js"⟩, ⟨"/x.js"⟩} : Finset ModuleId) := by decide
  have honTime : onTime ⟨b.build storage, 1, 20⟩ turns (.start ⟨"/m.js"⟩) = true := by decide +kernel
  obtain ⟨hfinite, hcard⟩ : {id | Reachable (b.build storage) ⟨"/m.js"⟩ id}.Finite ∧ _ :=
    reachable_finite hentry (by decide +kernel)
  have hlimit : {id | Reachable (b.build storage) ⟨"/m.js"⟩ id}.ncard ≤ 5 := hcard.trans (by decide)
  obtain ⟨hmem, -, -, -, herror⟩ := discover_breadthFirst (b.build_faithful storage) hfinite hlimit honTime
  have hmissing : b.build storage ⟨"/x.js"⟩ =
      .error (.parse (ModuleId.path ⟨"/x.js"⟩) "cannot read module: file not found: /x.js") := by decide +kernel
  obtain ⟨before, id, parent, after, _, e, hsplit, -, -, hvisited, hresult, hmodule, -, himporter, -⟩ :=
    herror ⟨_, _, (hmem ⟨"/x.js"⟩).1 (by rw [hfound]; decide), hmissing⟩
  -- five modules are visited, so the one that fails is the fifth of the search
  have hlength : before.length = 4 := by
    have hfive : (discover ⟨b.build storage, 1, 20⟩ turns ⟨"/m.js"⟩).visited.length = 5 := by decide +kernel
    simpa [hvisited] using hfive
  have hlast : (breadthFirst (b.build storage) 5 ⟨"/m.js"⟩)[4]? = some (id, parent) := by
    rw [hsplit, ← hlength, List.getElem?_append_right le_rfl, Nat.sub_self, List.getElem?_cons_zero]
  rw [hfound] at hlast
  obtain ⟨rfl, rfl⟩ := Prod.mk.inj (Option.some.inj hlast)
  exact ⟨hfound, e, hresult, hmodule, himporter⟩

end Bundler.Discovery
