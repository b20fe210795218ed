/-
The records that a builder gives: each is that of the module it was asked for,
and its dependencies are what its imports were resolved to, with one meaning
for each of them.
-/
import Bundler.Builder
import Bundler.Proofs.DiscoverySteps

namespace Bundler.Builder

/-- A builder gives the record of the module it is asked for. -/
theorem build_faithful {τ σ : Type} [Storage σ] (b : Builder τ) (storage : σ) :
    Discovery.Faithful (b.build storage) := by
  intro id r h
  simp only [build, buildSource] at h
  split at h
  · cases h
  split at h
  · cases h
  split at h
  · cases h
  split at h
  · cases h
  · cases h; rfl

/-- A built record is that of a source which was read, and has its digest. -/
theorem source_of_build {τ σ : Type} [Storage σ] {b : Builder τ} {storage : σ} {id : ModuleId}
    {r : ModuleRecord} (h : b.build storage id = .ok r) :
    ∃ source, Storage.read storage id.path = .ok source ∧ b.buildSource id (.ok source) = .ok r ∧
      r.contentHash = sha256 (Utf8.encode source) := by
  simp only [build] at h
  cases hread : Storage.read storage id.path with
  | error e => rw [hread] at h; cases h
  | ok source =>
    rw [hread] at h
    refine ⟨source, rfl, h, ?_⟩
    simp only [buildSource] at h
    split at h
    · cases h
    split at h
    · cases h
    split at h
    · cases h
    · cases h; rfl

theorem mem_resolveImports {directory : Path} : ∀ {specifiers : List String} {deps out : DependencyMap},
    resolveImports directory specifiers deps = .ok out →
    ∀ p ∈ out, p ∈ deps ∨ resolve directory p.1 = .ok p.2
  | [], _, _, h, p, hp => by
    cases h
    exact .inl hp
  | specifier :: rest, deps, out, h, p, hp => by
    unfold resolveImports at h
    split at h
    · exact mem_resolveImports h p hp
    · split at h
      · next target ht =>
        rcases mem_resolveImports h p hp with hp | hp
        · rcases DependencyMap.mem_insert hp with hp | rfl
          · exact .inl hp
          · exact .inr ht
        · exact .inr hp
      · cases h

/-- The dependencies of a built record are what its imports were resolved to. -/
theorem resolveImports_of_build {τ σ : Type} [Storage σ] {b : Builder τ} {storage : σ} {id : ModuleId}
    {r : ModuleRecord} (h : b.build storage id = .ok r) :
    ∃ specifiers, resolveImports id.directory specifiers [] = .ok r.deps := by
  simp only [build, buildSource] at h
  split at h
  · cases h
  split at h
  · cases h
  split at h
  · cases h
  next hdeps =>
  split at h
  · cases h
  cases h
  exact ⟨_, hdeps⟩

/-- A built record maps each import to what it means in the directory of the
module. -/
theorem resolve_of_build {τ σ : Type} [Storage σ] {b : Builder τ} {storage : σ} {id : ModuleId}
    {r : ModuleRecord} (h : b.build storage id = .ok r) :
    ∀ s target, (s, target) ∈ r.deps → resolve id.directory s = .ok target := by
  intro s target hmem
  obtain ⟨_, hdeps⟩ := resolveImports_of_build h
  exact (mem_resolveImports hdeps _ hmem).resolve_left List.not_mem_nil

theorem resolveImports_distinct {directory : Path} : ∀ {specifiers : List String}
    {deps out : DependencyMap}, deps.Distinct → resolveImports directory specifiers deps = .ok out →
    out.Distinct
  | [], _, _, hd, h => by
    cases h
    exact hd
  | specifier :: rest, deps, out, hd, h => by
    unfold resolveImports at h
    split at h
    · exact resolveImports_distinct hd h
    · split at h
      · exact resolveImports_distinct hd.insert h
      · cases h

/-- A built record gives each specifier one meaning. -/
theorem deps_distinct_of_build {τ σ : Type} [Storage σ] {b : Builder τ} {storage : σ} {id : ModuleId}
    {r : ModuleRecord} (h : b.build storage id = .ok r) : r.deps.Distinct := by
  obtain ⟨_, hdeps⟩ := resolveImports_of_build h
  exact resolveImports_distinct .nil hdeps

end Bundler.Builder
