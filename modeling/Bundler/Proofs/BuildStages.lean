/-
How the build of one module ends. It goes through three stages that can fail:
the module is read, understood and compiled. The first that fails decides which
error is told (`Builder.Fails`), and what a module that goes through all of them
has as its record is known from what the stages give (`Builder.Builds`). Imports
are resolved in the order in which they first appear, each once
(`resolveImports_keys`).
-/
import Bundler.Proofs.TextPaths

namespace Bundler

/-! ## Imports -/

namespace DependencyMap

theorem insert_of_not_mem {specifier : String} {target : ModuleId} : ∀ {deps : DependencyMap},
    specifier ∉ deps.map (·.1) → deps.insert specifier target = deps ++ [(specifier, target)]
  | [], _ => rfl
  | (s, t) :: rest, h => by
    rw [List.map_cons, List.mem_cons, not_or] at h
    rw [insert, if_neg (Ne.symm h.1), insert_of_not_mem h.2, List.cons_append]

/-- Maps with the same specifiers in the same order, which mean what a relation
tells of them, are the same. -/
theorem eq_of_keys {means : String → ModuleId → Prop} (hunique : ∀ s t t', means s t → means s t' → t = t') :
    ∀ {deps deps' : DependencyMap}, deps.map (·.1) = deps'.map (·.1) →
      (∀ p ∈ deps, means p.1 p.2) → (∀ p ∈ deps', means p.1 p.2) → deps = deps'
  | [], [], _, _, _ => rfl
  | (s, t) :: deps, (s', t') :: deps', hkeys, h, h' => by
    rw [List.map_cons, List.map_cons, List.cons.injEq] at hkeys
    obtain ⟨rfl, hrest⟩ := hkeys
    have ht : t = t' := hunique s t t' (h _ List.mem_cons_self) (h' _ List.mem_cons_self)
    rw [ht, eq_of_keys hunique hrest (fun p hp => h p (List.mem_cons_of_mem _ hp))
      fun p hp => h' p (List.mem_cons_of_mem _ hp)]

end DependencyMap

namespace Builder

/-- The specifiers that have a meaning in the end: those that had one, and behind
them those met since, each where it is met first. -/
theorem resolveImports_keys {directory : Path} : ∀ {specifiers : List String} {deps out : DependencyMap},
    resolveImports directory specifiers deps = .ok out →
    out.map (·.1) = deps.map (·.1) ++ (specifiers.filter fun s => s ∉ deps.map (·.1)).eraseDups
  | [], deps, out, h => by
    cases h
    simp
  | specifier :: rest, deps, out, h => by
    unfold resolveImports at h
    split at h
    · next hmeant =>
      have hmem : specifier ∈ deps.map (·.1) := by
        by_contra hnot
        rw [DependencyMap.get?_eq_none.2 hnot] at hmeant
        cases hmeant
      rw [resolveImports_keys h, List.filter_cons_of_neg (by simpa using hmem)]
    · next hnew =>
      have hnot : specifier ∉ deps.map (·.1) :=
        DependencyMap.get?_eq_none.1 (Option.not_isSome_iff_eq_none.1 hnew)
      split at h
      · next target _ =>
        -- What is met again later is left out, as it has its meaning by then.
        have hlater : (rest.filter fun s => s ∉ deps.map (·.1)).filter (fun s => !s == specifier) =
            rest.filter fun s => s ∉ (deps ++ [(specifier, target)]).map (·.1) := by
          rw [List.filter_filter]
          refine List.filter_congr fun s _ => ?_
          simp only [List.map_append, List.map_cons, List.map_nil, List.mem_append, List.mem_singleton, not_or,
            Bool.decide_and, decide_not, beq_eq_decide, Bool.and_comm]
        rw [resolveImports_keys h, DependencyMap.insert_of_not_mem hnot,
          List.filter_cons_of_pos (by simpa using hnot), List.eraseDups_cons, hlater, List.map_append,
          List.append_assoc]
        rfl
      · cases h

/-! ## Stages -/

variable {τ σ : Type} [Storage σ] (b : Builder τ) (storage : σ) (id : ModuleId)

/-- A module is read, understood and compiled. -/
structure Compiles (source : String) (tree : τ) (code : String) : Prop where
  read : Storage.read storage id.path = .ok source
  parse : b.transform.parse source = .ok tree
  generate : b.transform.generate tree b.target = .ok code

/-- What stands in the record of a module that is read, understood and compiled:
its identity, its code, the digest of the text that was read, and what each of
its imports means in its directory, in the order in which they first appear. -/
structure Builds (r : ModuleRecord) (source : String) (tree : τ) (code : String) : Prop extends
    b.Compiles storage id source tree code where
  id_eq : r.id = id
  code_eq : r.code = code
  contentHash : r.contentHash = sha256 (Utf8.encode source)
  specifiers : r.deps.map (·.1) = (b.transform.imports tree).eraseDups
  resolved : ∀ p ∈ r.deps, resolve id.directory p.1 = .ok p.2

/-- The error of the first stage that fails. -/
inductive Fails : BuildError → Prop
  | read {cause : FileError} : Storage.read storage id.path = .error cause →
      Fails (.parse id.path ("cannot read module: " ++ cause.message))
  | parse {source cause : String} : Storage.read storage id.path = .ok source →
      b.transform.parse source = .error cause → Fails (.parse id.path cause)
  | generate {source cause : String} {tree : τ} : Storage.read storage id.path = .ok source →
      b.transform.parse source = .ok tree → b.transform.generate tree b.target = .error cause →
      Fails (.transform id.path cause)

variable {b storage id}

theorem Compiles.build_eq {source : String} {tree : τ} {code : String}
    (h : b.Compiles storage id source tree code) :
    ∃ r, b.build storage id = .ok r ∧ b.Builds storage id r source tree code := by
  obtain ⟨deps, hdeps, hbuild⟩ := build_of_parse h.read h.parse
  rw [h.generate] at hbuild
  refine ⟨_, hbuild, ⟨h, rfl, rfl, rfl, ?_, ?_⟩⟩
  · simpa using resolveImports_keys hdeps
  · exact fun p hp => (mem_resolveImports hdeps p hp).resolve_left List.not_mem_nil

theorem Fails.build_eq {e : BuildError} (h : b.Fails storage id e) : b.build storage id = .error e := by
  cases h with
  | read hread => simp only [build, buildSource, hread]
  | parse hread hparse => simp only [build, buildSource, hread, hparse]
  | generate hread hparse hgenerate =>
    obtain ⟨deps, -, hbuild⟩ := build_of_parse hread hparse
    rw [hbuild, hgenerate]

/-- A module goes through all stages, or one of them fails first. -/
theorem compiles_or_fails (b : Builder τ) (storage : σ) (id : ModuleId) :
    (∃ source tree code, b.Compiles storage id source tree code) ∨ ∃ e, b.Fails storage id e := by
  cases hread : Storage.read storage id.path with
  | error cause => exact .inr ⟨_, .read hread⟩
  | ok source =>
    cases hparse : b.transform.parse source with
    | error cause => exact .inr ⟨_, .parse hread hparse⟩
    | ok tree =>
      cases hgenerate : b.transform.generate tree b.target with
      | error cause => exact .inr ⟨_, .generate hread hparse hgenerate⟩
      | ok code => exact .inl ⟨source, tree, code, hread, hparse, hgenerate⟩

theorem Fails.path_eq {e : BuildError} (h : b.Fails storage id e) : e.path = id.path := by
  cases h <;> rfl

/-- The stages of a module leave one record. -/
theorem Builds.record_unique {r r' : ModuleRecord} {source source' code code' : String} {tree tree' : τ}
    (h : b.Builds storage id r source tree code) (h' : b.Builds storage id r' source' tree' code') : r = r' := by
  obtain rfl : source = source' := Except.ok.inj (h.read.symm.trans h'.read)
  obtain rfl : tree = tree' := Except.ok.inj (h.parse.symm.trans h'.parse)
  obtain rfl : code = code' := Except.ok.inj (h.generate.symm.trans h'.generate)
  have hunique : ∀ s t t', resolve id.directory s = .ok t → resolve id.directory s = .ok t' → t = t' :=
    fun s t t' ht ht' => Except.ok.inj (ht.symm.trans ht')
  have hdeps : r.deps = r'.deps :=
    DependencyMap.eq_of_keys hunique (h.specifiers.trans h'.specifiers.symm) h.resolved h'.resolved
  cases r
  cases r'
  simp only at hdeps
  rw [ModuleRecord.mk.injEq]
  exact ⟨h.id_eq.trans h'.id_eq.symm, h.code_eq.trans h'.code_eq.symm, hdeps,
    h.contentHash.trans h'.contentHash.symm⟩

theorem build_eq_ok_iff {r : ModuleRecord} :
    b.build storage id = .ok r ↔ ∃ source tree code, b.Builds storage id r source tree code := by
  constructor
  · intro h
    rcases b.compiles_or_fails storage id with ⟨source, tree, code, hcompiles⟩ | ⟨e, hfails⟩
    · obtain ⟨r', hbuild, hr⟩ := hcompiles.build_eq
      cases h.symm.trans hbuild
      exact ⟨source, tree, code, hr⟩
    · cases h.symm.trans hfails.build_eq
  · rintro ⟨source, tree, code, hr⟩
    obtain ⟨r', hbuild, hr'⟩ := hr.build_eq
    rw [hbuild, hr.record_unique hr']

theorem build_eq_error_iff {e : BuildError} : b.build storage id = .error e ↔ b.Fails storage id e := by
  constructor
  · intro h
    rcases b.compiles_or_fails storage id with ⟨source, tree, code, hcompiles⟩ | ⟨e', hfails⟩
    · obtain ⟨r, hbuild, -⟩ := hcompiles.build_eq
      cases h.symm.trans hbuild
    · cases h.symm.trans hfails.build_eq
      exact hfails
  · exact Fails.build_eq

/-- An import has the one meaning that it has in the directory of the module. -/
theorem Builds.mem_deps_iff {r : ModuleRecord} {source code : String} {tree : τ}
    (h : b.Builds storage id r source tree code) (s : String) (target : ModuleId) :
    (s, target) ∈ r.deps ↔ s ∈ b.transform.imports tree ∧ resolve id.directory s = .ok target := by
  have hkeys : s ∈ r.deps.map (·.1) ↔ s ∈ b.transform.imports tree := by
    rw [h.specifiers, List.mem_eraseDups]
  constructor
  · exact fun hmem => ⟨hkeys.1 (List.mem_map.2 ⟨_, hmem, rfl⟩), h.resolved (s, target) hmem⟩
  · rintro ⟨himport, hresolve⟩
    obtain ⟨⟨s', target'⟩, hmem, rfl⟩ := List.mem_map.1 (hkeys.2 himport)
    have hmeans : resolve id.directory s' = .ok target' := h.resolved (s', target') hmem
    rw [← Except.ok.inj (hmeans.symm.trans hresolve)]
    exact hmem

/-- **A build ends as its stages do**, for any storage and any language of modules. It
succeeds exactly if the module is read, understood and compiled, and then gives
the one record of what these stages gave. In it, each import occurs once, where it
first appears, and means what it means in the directory of the module; imports
in different spellings stay apart, also if they mean the same. Otherwise the error
is that of the first stage that fails, and tells of the path of the module. -/
theorem build_stages (b : Builder τ) (storage : σ) (id : ModuleId) :
    ((∃ r, b.build storage id = .ok r) ↔ ∃ source tree code, b.Compiles storage id source tree code) ∧
    (∀ r, b.build storage id = .ok r ↔ ∃ source tree code, b.Builds storage id r source tree code) ∧
    (∀ r source tree code, b.Builds storage id r source tree code →
      r.deps.Distinct ∧
      ∀ s target, (s, target) ∈ r.deps ↔ s ∈ b.transform.imports tree ∧ resolve id.directory s = .ok target) ∧
    ∀ e, (b.build storage id = .error e ↔ b.Fails storage id e) ∧
      (b.build storage id = .error e → e.path = id.path) := by
  refine ⟨⟨?_, ?_⟩, fun r => build_eq_ok_iff, ?_, fun e => ⟨build_eq_error_iff, ?_⟩⟩
  · rintro ⟨r, hbuild⟩
    obtain ⟨source, tree, code, hr⟩ := build_eq_ok_iff.1 hbuild
    exact ⟨source, tree, code, hr.toCompiles⟩
  · rintro ⟨source, tree, code, hcompiles⟩
    obtain ⟨r, hbuild, -⟩ := hcompiles.build_eq
    exact ⟨r, hbuild⟩
  · intro r source tree code hr
    exact ⟨deps_distinct_of_build (build_eq_ok_iff.2 ⟨source, tree, code, hr⟩), hr.mem_deps_iff⟩
  · exact fun h => (build_eq_error_iff.1 h).path_eq

/-- A module that imports one file twice in one spelling and once in another; one
that is not there; one that is not understood; and one that is not compiled. -/
theorem build_stages_spellings :
    let storage : MemoryStorage := .ofList
      [(.ofString "/app/m.js", "m"), (.ofString "/app/p.js", "p"), (.ofString "/app/g.js", "g")]
    let b : Builder String :=
      ⟨{ parse := fun s => if s = "p" then .error "no tree" else .ok s,
         imports := fun _ => ["./a.js", "a.js", "./a.js"],
         generate := fun s _ => if s = "g" then .error "no code" else .ok "code" }, .es5⟩
    (∃ r, b.build storage ⟨"/app/m.js"⟩ = .ok r ∧ r.deps.map (·.1) = ["./a.js", "a.js"] ∧
      ("./a.js", ⟨"/app/a.js"⟩) ∈ r.deps ∧ ("a.js", ⟨"/app/a.js"⟩) ∈ r.deps) ∧
      b.build storage ⟨"/app/n.js"⟩ =
        .error (.parse (.ofString "/app/n.js") "cannot read module: file not found: /app/n.js") ∧
      b.build storage ⟨"/app/p.js"⟩ = .error (.parse (.ofString "/app/p.js") "no tree") ∧
      b.build storage ⟨"/app/g.js"⟩ = .error (.transform (.ofString "/app/g.js") "no code") := by
  intro storage b
  refine ⟨?_, ?_, ?_, ?_⟩
  · obtain ⟨hok, hrecord, hdeps, -⟩ := build_stages b storage ⟨"/app/m.js"⟩
    obtain ⟨r, hbuild⟩ := hok.2 ⟨"m", "m", "code", by decide +kernel, by decide +kernel, by decide +kernel⟩
    obtain ⟨source, tree, code, hr⟩ := (hrecord r).1 hbuild
    obtain ⟨-, hmem⟩ := hdeps r source tree code hr
    have himports : b.transform.imports tree = ["./a.js", "a.js", "./a.js"] := rfl
    rw [himports] at hmem
    refine ⟨r, hbuild, hr.specifiers.trans (by rw [himports]; decide), ?_, ?_⟩
    · exact (hmem _ _).2 ⟨by decide, by decide +kernel⟩
    · exact (hmem _ _).2 ⟨by decide, by decide +kernel⟩
  · have hread : Storage.read storage (ModuleId.path ⟨"/app/n.js"⟩) =
        .error (.notStored (.ofString "/app/n.js")) := by decide +kernel
    exact ((build_stages b storage ⟨"/app/n.js"⟩).2.2.2 _).1.2 (.read hread)
  · have hread : Storage.read storage (ModuleId.path ⟨"/app/p.js"⟩) = .ok "p" := by decide +kernel
    exact ((build_stages b storage ⟨"/app/p.js"⟩).2.2.2 _).1.2 (.parse hread rfl)
  · have hread : Storage.read storage (ModuleId.path ⟨"/app/g.js"⟩) = .ok "g" := by decide +kernel
    exact ((build_stages b storage ⟨"/app/g.js"⟩).2.2.2 _).1.2 (.generate hread rfl rfl)

end Builder

end Bundler
