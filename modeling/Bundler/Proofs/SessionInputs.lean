/-
Whether a run leaves its own inputs as they were. Nothing keeps the artifact from
going where one of the modules is stored, whose source it then takes the place
of (`bundle_replaces_entry`). The sources of all other modules are kept; and if
the artifact goes where none is, a further run makes the same one
(`bundle_keeps_sources`).
-/
import Bundler.Proofs.SessionEffects

namespace Bundler

open Discovery

/-! ## Reading after a write -/

namespace MemoryStorage

variable {s s' : MemoryStorage} {p q : Path} {text : String}

theorem contents?_of_read (h : Storage.read s p = .ok text) : s.contents? p = some text := by
  simp only [Storage.read] at h
  split at h
  · next hfound => rw [hfound, Except.ok.inj h]
  · cases h

theorem Wrote.read_eq (h : s.Wrote p text s') (hq : p.same q = false) :
    Storage.read s' q = Storage.read s q := by
  simp only [Storage.read, h.others q hq]

/-- A module that is not where a write goes is built as before. -/
theorem Wrote.build_eq {τ : Type} (b : Builder τ) (h : s.Wrote p text s') {id : ModuleId}
    (hid : p.same id.path = false) : b.build s' id = b.build s id := by
  simp only [Builder.build, h.read_eq hid]

end MemoryStorage

/-! ## Runs after a run -/

namespace Session

variable {τ : Type} {s : Session τ} {turns : List Turn}

/-- **A run keeps the sources of all modules but one that is where the artifact
goes**, each with the digest that its record has. If there is none, runs after it
go as they would have gone before it: one with the same reports succeeds as it
did, and all that succeed write the same text. -/
theorem bundle_keeps_sources {storage : MemoryStorage} {summary : BundleSummary}
    (h : (s.bundle storage turns).1.1 = .ok summary) :
    let left := (s.bundle storage turns).2
    ∃ output, (s.build storage turns).1 = .ok output ∧ summary = s.summary output ∧
      storage.Wrote s.outputPath output.bundle.text left ∧
      (∀ r ∈ output.table.records, s.outputPath.same r.id.path = false → ∃ source,
        storage.contents? r.id.path = some source ∧ left.contents? r.id.path = some source ∧
        s.builder.buildSource r.id (.ok source) = .ok r ∧ r.contentHash = sha256 (Utf8.encode source)) ∧
      ((∀ r ∈ output.table.records, s.outputPath.same r.id.path = false) →
        (s.bundle left turns).1.1 = .ok summary ∧
        ∀ turns' : List Turn, s.build left turns' = s.build storage turns' ∧
          ∀ summary', (s.bundle left turns').1.1 = .ok summary' → summary' = summary ∧
            left.Wrote s.outputPath output.bundle.text (s.bundle left turns').2) := by
  intro left
  obtain ⟨output, hbuild, rfl, hwrote⟩ := memory_of_ok h
  refine ⟨output, hbuild, rfl, hwrote, ?_, ?_⟩
  · intro r hr hpath
    obtain ⟨entry, t, bundle, -, ht, -, rfl⟩ := build_made hbuild
    obtain ⟨source, hread, hsource, hhash⟩ := Builder.source_of_build (ht.sort.built r hr)
    have hstored := MemoryStorage.contents?_of_read hread
    exact ⟨source, hstored, (hwrote.others _ hpath).trans hstored, hsource, hhash⟩
  · intro hpaths
    have hsame : ∀ turns', s.build left turns' = s.build storage turns' := by
      refine build_congr_of_made hbuild fun id hid => ?_
      obtain ⟨r, hr, rfl⟩ := ModuleTable.mem_ids.1 hid
      exact hwrote.build_eq s.builder (hpaths r hr)
    refine ⟨?_, fun turns' => ⟨hsame turns', ?_⟩⟩
    · have hwritable : left.readOnly.any (·.same s.outputPath) = false := by
        rw [hwrote.readOnly]
        exact hwrote.writable
      exact memory_ok_of_build (by rw [hsame, hbuild]) hwritable
    · intro summary' h'
      obtain ⟨output', hbuild', rfl, hwrote'⟩ := memory_of_ok h'
      rw [hsame] at hbuild'
      obtain rfl := build_unique hbuild hbuild'
      exact ⟨rfl, hwrote'⟩

/-- A module that imports itself, bundled and then bundled again. -/
theorem bundle_keeps_sources_twice :
    let entry : ModuleId := ⟨"/app/m.js"⟩
    let storage : MemoryStorage := .ofList [(.ofString "/app/m.js", "import './m.js';")]
    let s : Session Script.Module :=
      ⟨{ Config.defaults 1 with entry := some (.ofString "m.js") }, .ofString "/app", scriptTransform⟩
    let left := (s.bundle storage [.report 0]).2
    ∃ summary, (s.bundle storage [.report 0]).1.1 = .ok summary ∧
      left.contents? entry.path = some "import './m.js';" ∧
      (s.bundle left [.report 0]).1.1 = .ok summary ∧
      (s.bundle left [.report 0]).2.contents? s.outputPath = left.contents? s.outputPath := by
  intro entry storage s left
  have hprepare : s.prepare = .ok entry := by decide +kernel
  have hfound : (discover (s.plan storage) [.report 0] entry).result.toOption.isSome = true := by
    decide +kernel
  have htargets : (s.builder.build storage entry).toOption.map (fun r => r.deps.targets) = some [entry] := by
    decide +kernel
  have honly : ∀ id, Reachable (s.builder.build storage) entry id → id = entry := by
    intro id hid
    induction hid with
    | refl => rfl
    | tail _ himp ih =>
      obtain ⟨r, hr, htarget⟩ := himp
      rw [ih] at hr
      rw [hr] at htargets
      have hdeps : r.deps.targets = [entry] := Option.some.inj htargets
      rw [hdeps] at htarget
      exact List.mem_singleton.1 htarget
  obtain ⟨found, hentry, hbuild, hok⟩ := memory_of_discover hprepare hfound rfl
  obtain ⟨output, hbuild', -, hwrote, -, hagain⟩ := bundle_keeps_sources hok
  cases hbuild.symm.trans hbuild'
  have hpaths : ∀ r ∈ found.table.records, s.outputPath.same r.id.path = false := by
    intro r hr
    obtain ⟨entry', t, bundle, -, ht, -, rfl⟩ := build_made hbuild
    obtain rfl : entry' = entry := hentry
    have hid := honly r.id ((ht.sort.mem_ids r.id).1 (ModuleTable.mem_ids.2 ⟨r, hr, rfl⟩))
    rw [hid]
    decide +kernel
  obtain ⟨hsecond, hafter⟩ := hagain hpaths
  obtain ⟨-, hwrote'⟩ := (hafter [.report 0]).2 _ hsecond
  refine ⟨_, hok, ?_, hsecond, ?_⟩
  · exact (hwrote.others _ (by decide +kernel)).trans (by decide +kernel)
  · have hself : s.outputPath.same s.outputPath = true := by decide +kernel
    rw [hwrote'.written _ hself, hwrote.written _ hself]

/-- An entry that is where the artifact goes: the source it was built from is lost. -/
theorem bundle_replaces_entry :
    let entry : ModuleId := ⟨"/app/main.js"⟩
    let storage : MemoryStorage := .ofList [(.ofString "/app/main.js", "")]
    let s : Session Script.Module :=
      ⟨{ Config.defaults 1 with entry := some (.ofString "main.js"), outputDirectory := .ofString "." },
        .ofString "/app", scriptTransform⟩
    let run := s.bundle storage [.report 0]
    s.workingDirectory.isAbsolute = true ∧
      ∃ output, (s.build storage [.report 0]).1 = .ok output ∧ run.1.1 = .ok (s.summary output) ∧
        ∃ r ∈ output.table.records, r.id = entry ∧ storage.contents? r.id.path = some "" ∧
          s.builder.buildSource r.id (.ok "") = .ok r ∧ run.2.contents? r.id.path ≠ some "" := by
  intro entry storage s run
  have hprepare : s.prepare = .ok entry := by decide +kernel
  have hfound : (discover (s.plan storage) [.report 0] entry).result.toOption.isSome = true := by
    decide +kernel
  have hstored : storage.contents? entry.path = some "" := by decide +kernel
  obtain ⟨found, hentry, hbuild, hok⟩ := memory_of_discover hprepare hfound rfl
  obtain ⟨output, hbuild', -, hwrote⟩ := memory_of_ok hok
  cases hbuild.symm.trans hbuild'
  obtain ⟨r, hr, hid, hsource⟩ : ∃ r ∈ found.table.records, r.id = entry ∧
      s.builder.buildSource r.id (.ok "") = .ok r := by
    obtain ⟨entry', t, bundle, -, ht, -, rfl⟩ := build_made hbuild
    obtain rfl : entry' = entry := hentry
    obtain ⟨r, hr, hid⟩ := ModuleTable.mem_ids.1 ((ht.sort.mem_ids _).2 .refl)
    obtain ⟨source, hread, hsource, -⟩ := Builder.source_of_build (ht.sort.built r hr)
    rw [hid] at hread
    have hempty := (MemoryStorage.contents?_of_read hread).symm.trans hstored
    rw [Option.some.inj hempty] at hsource
    exact ⟨r, hr, hid, hsource⟩
  refine ⟨by decide +kernel, found, hbuild, hok, r, hr, hid, hid ▸ hstored, hsource, ?_⟩
  rw [hid, hwrote.written entry.path (by decide +kernel)]
  intro hempty
  -- The text of an artifact has a banner.
  have hbanner := (summary_describes hbuild).withoutBanner
  rw [Option.some.inj hempty] at hbanner
  cases hbanner

end Session

end Bundler
