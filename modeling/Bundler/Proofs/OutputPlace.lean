/-
Where the artifact goes. A file name that the settings may have is the name of a
file and leads nowhere else (`isName_of_isPlainName`). So from wherever the
output directory leads, the output path goes on to that name
(`outputPath_eq`), however the directory is spelled, and a run over a tree of
files puts its text there and nowhere else (`outputPath_in_outputDirectory`).
-/
import Bundler.Proofs.PathJoins
import Bundler.Proofs.SessionEffects
import Bundler.Proofs.TreeWrites

namespace Bundler

/-! ## Paths joined twice -/

namespace Path

/-- The bytes of a path as they stand before those of a path in it. -/
def stem (p : Path) : List UInt8 :=
  if p.bytes.isEmpty || p.bytes.getLast? == some slash then p.bytes else p.bytes ++ [slash]

theorem join_of_not_isAbsolute {p : Path} (h : p.isAbsolute = false) (base : Path) :
    base.join p = ⟨base.stem ++ p.bytes⟩ := by
  simp only [join, h, Bool.false_eq_true, if_false, stem]
  split
  · rfl
  · rw [List.append_assoc, List.singleton_append]

theorem stem_of_eq_nil {p : Path} (h : p.bytes = []) : p.stem = [] := by simp [stem, h]

theorem stem_eq_append (p : Path) : ∃ rest, p.stem = p.bytes ++ rest := by
  unfold stem
  split
  · exact ⟨[], (List.append_nil _).symm⟩
  · exact ⟨[slash], rfl⟩

theorem stem_append (front : List UInt8) {p : Path} (h : p.bytes ≠ []) :
    stem ⟨front ++ p.bytes⟩ = front ++ p.stem := by
  have hlast : (front ++ p.bytes).getLast? = p.bytes.getLast? := by
    rw [List.getLast?_append, Option.or_of_isSome (List.getLast?_isSome.2 h)]
  have hempty : (front ++ p.bytes).isEmpty = p.bytes.isEmpty := by
    rw [List.isEmpty_eq_false_iff.2 h, List.isEmpty_eq_false_iff.2 (List.append_ne_nil_of_right_ne_nil front h)]
  simp only [stem, hlast, hempty]
  split
  · rfl
  · rw [List.append_assoc]

theorem stem_stem (p : Path) : stem ⟨p.stem⟩ = p.stem := by
  by_cases h : p.bytes = []
  · simp [stem, h]
  · by_cases hlast : p.bytes.getLast? = some slash <;> simp [stem, h, hlast]

/-- Paths are joined from either end. -/
theorem join_assoc (a b c : Path) : (a.join b).join c = a.join (b.join c) := by
  cases hc : c.isAbsolute with
  | true => rw [join_of_isAbsolute hc, join_of_isAbsolute hc, join_of_isAbsolute hc]
  | false =>
    cases hb : b.isAbsolute with
    | true => rw [join_of_isAbsolute hb, join_of_isAbsolute (join_isAbsolute hb c)]
    | false =>
      rw [join_of_not_isAbsolute hb, join_of_not_isAbsolute hc, join_of_not_isAbsolute hc]
      by_cases hnil : b.bytes = []
      · rw [stem_of_eq_nil hnil, hnil, List.append_nil, List.nil_append, stem_stem, join_of_not_isAbsolute hc]
      · have hrel : isAbsolute ⟨b.stem ++ c.bytes⟩ = false := by
          obtain ⟨rest, hstem⟩ := b.stem_eq_append
          rw [hstem, List.append_assoc, isAbsolute_append hnil]
          exact hb
        rw [stem_append _ hnil, join_of_not_isAbsolute hrel, List.append_assoc]

/-- A name leads one step down. -/
theorem placeFrom_name {s : Segment} (h : IsName s) (here : Place) : placeFrom ⟨s⟩ here = here ++ [s] := by
  have hrel : isAbsolute (written false [s]) = false :=
    isAbsolute_joinSlashes fun t ht => List.mem_singleton.1 ht ▸ h.isWritten
  change isAbsolute ⟨s⟩ = false at hrel
  rw [placeFrom, hrel, splitSlashes_of_not_mem h.2.2.2]
  exact foldl_visit_of_names here fun t ht => List.mem_singleton.1 ht ▸ h

end Path

/-! ## Names -/

namespace Config

/-- A name that settings may have is that of a file. -/
theorem isName_of_isPlainName {name : String} (h : isPlainName name = true) :
    Path.IsName (Utf8.encode name) := by
  simp only [isPlainName, Bool.and_eq_true, decide_eq_true_eq, List.all_eq_true] at h
  obtain ⟨⟨⟨hempty, hdot⟩, hdots⟩, hchars⟩ := h
  refine ⟨fun he => hempty (Utf8.encode_inj.1 he), fun he => hdot (Utf8.encode_inj.1 he),
    fun he => hdots (Utf8.encode_inj.1 he), ?_⟩
  intro hslash
  rw [Utf8.encode_eq, List.mem_flatMap] at hslash
  obtain ⟨c, hc, hmem⟩ := hslash
  exact (hchars c hc).1 (Utf8.eq_of_mem_encodeChar (a := '/') (by decide) hmem)

theorem isPlainName_of_validate {c : Config} (h : c.validate = .ok ()) : isPlainName c.outputFilename = true := by
  simp only [validate] at h
  split at h
  · cases h
  · next hfault =>
    simp only [fault?] at hfault
    split_ifs at hfault with _ hname
    simpa using hname

end Config

/-! ## The output path -/

namespace Session

variable {τ : Type} {s : Session τ}

/-- The output directory, as seen from the working directory. -/
def outputDirectory (s : Session τ) : Path := s.config.outputDirectory.absolutize s.workingDirectory

/-- The name of the artifact. -/
def outputName (s : Session τ) : Segment := Utf8.encode s.config.outputFilename

theorem isName_outputName (hvalid : s.config.validate = .ok ()) : Path.IsName s.outputName :=
  Config.isName_of_isPlainName (Config.isPlainName_of_validate hvalid)

theorem outputPlace_names (hvalid : s.config.validate = .ok ()) :
    ∀ segment ∈ s.outputDirectory.place ++ [s.outputName], Path.IsName segment := by
  intro segment hsegment
  rcases List.mem_append.1 hsegment with hmem | hmem
  · exact s.outputDirectory.place_names segment hmem
  · exact List.mem_singleton.1 hmem ▸ isName_outputName hvalid

/-- The output directory is the plain path of the place that its spelling leads
to. -/
theorem outputDirectory_eq (hcwd : s.workingDirectory.isAbsolute = true) :
    s.outputDirectory = .ofPlace (s.workingDirectory.join s.config.outputDirectory).place := by
  rw [outputDirectory, Path.absolutize, Path.normalize_eq_ofPlace (Path.join_isAbsolute hcwd _)]

theorem outputDirectory_place (hcwd : s.workingDirectory.isAbsolute = true) :
    s.outputDirectory.place = (s.workingDirectory.join s.config.outputDirectory).place := by
  rw [outputDirectory_eq hcwd, Path.place_ofPlace (Path.place_names _)]

/-- The output path goes on from the output directory to the name. -/
theorem outputPath_eq (hcwd : s.workingDirectory.isAbsolute = true) (hvalid : s.config.validate = .ok ()) :
    s.outputPath = .ofPlace (s.outputDirectory.place ++ [s.outputName]) := by
  have hjoin : s.outputPath =
      ((s.workingDirectory.join s.config.outputDirectory).join ⟨s.outputName⟩).normalize := by
    rw [Path.join_assoc]
    rfl
  rw [hjoin, Path.normalize_eq_ofPlace (Path.join_isAbsolute (Path.join_isAbsolute hcwd _) _), Path.place_join,
    Path.placeFrom_name (isName_outputName hvalid), outputDirectory_place hcwd]

/-- What a run leaves in a tree of files: the directories on the way to the output
directory, and a file in it if it succeeds. -/
theorem bundle_files (hcwd : s.workingDirectory.isAbsolute = true) (hvalid : s.config.validate = .ok ())
    (files : FileTree) (turns : List Discovery.Turn) :
    let directory := s.outputDirectory.place
    let run := s.bundle files turns
    ∃ made, FileTree.MadeOnWay directory files made ∧
      ((∃ e, run.1.1 = .error e) ∧ run.2 = made ∨
        (∃ summary, run.1.1 = .ok summary) ∧
          ∃ contents, run.2 = made.put (directory ++ [s.outputName]) (.file contents)) := by
  intro directory run
  cases hbuild : (s.build files turns).1 with
  | error e =>
    obtain ⟨herror, hsame⟩ := bundle_of_error hbuild
    exact ⟨files, .refl directory files, .inl ⟨⟨e, herror⟩, hsame⟩⟩
  | ok output =>
    obtain ⟨hleft, houtcome⟩ := bundle_of_ok hbuild
    rw [outputPath_eq hcwd hvalid] at hleft houtcome
    obtain ⟨made, hmade, ⟨e, hwrite⟩ | hwrite⟩ :=
      FileTree.write_cases (outputPlace_names hvalid) files output.bundle.text
    · rw [hwrite] at hleft houtcome
      exact ⟨made, hmade, .inl ⟨⟨_, houtcome⟩, hleft⟩⟩
    · rw [hwrite] at hleft houtcome
      exact ⟨made, hmade, .inr ⟨⟨_, houtcome⟩, _, hleft⟩⟩

/-- **The artifact lands in the output directory, under its name**, for all settings
that a run works with and however the directory is spelled: the output path is
that of the directory with the name behind it. In a tree of files it leads one
step down from where the directory is, and a run puts a file there or nowhere;
besides, it makes directories on the way to the output directory only. -/
theorem outputPath_in_outputDirectory (hcwd : s.workingDirectory.isAbsolute = true)
    (hvalid : s.config.validate = .ok ()) :
    let directory := s.config.outputDirectory.absolutize s.workingDirectory
    let name := Utf8.encode s.config.outputFilename
    s.outputPath.parent? = some directory ∧
    s.outputPath.fileName? = some name ∧
    s.outputPath = directory.join ⟨name⟩ ∧
    ∀ files : FileTree,
      (∀ above place, files.locate directory = .ok above → files.locate s.outputPath = .ok place →
        place = above ++ [name]) ∧
      ∀ turns, let run := s.bundle files turns
        ∃ made, FileTree.MadeOnWay directory.place files made ∧
          ((∃ e, run.1.1 = .error e) ∧ run.2 = made ∨
            (∃ summary, run.1.1 = .ok summary) ∧
              ∃ contents, run.2 = made.put (directory.place ++ [name]) (.file contents)) := by
  intro directory name
  have hpath := outputPath_eq hcwd hvalid
  have hnames := outputPlace_names hvalid
  have hdirectory : directory = .ofPlace directory.place := by
    change s.outputDirectory = .ofPlace s.outputDirectory.place
    rw [outputDirectory_place hcwd, outputDirectory_eq hcwd]
  have hwritten : ∀ segment ∈ directory.place, Path.IsWritten segment :=
    fun segment h => (directory.place_names segment h).isWritten
  refine ⟨?_, ?_, ?_, fun files => ⟨?_, bundle_files hcwd hvalid files⟩⟩
  · rw [hpath, Path.parent?_ofPlace hnames (by simp), List.dropLast_concat, hdirectory]
    rfl
  · rw [hpath, Path.fileName?_ofPlace hnames, List.getLast?_concat]
    rfl
  · rw [hpath, hdirectory]
    exact (Path.join_written hwritten (isName_outputName hvalid).isWritten true).symm
  · intro above place habove hplace
    rw [hdirectory] at habove
    rw [hpath] at hplace
    rw [FileTree.locate_ofPlace hnames hplace, FileTree.locate_ofPlace directory.place_names habove]
    rfl

/-- A directory that goes up further than the working directory is deep, and a name
of dots. The entry is missing, so nothing is put there. -/
theorem outputPath_in_outputDirectory_dots :
    let out : Segment := Utf8.encode "out"
    let files : FileTree := { nodes := [([out], .directory)] }
    let s : Session Script.Module :=
      ⟨{ Config.defaults 1 with
          entry := some (.ofString "m.js"), outputDirectory := .ofString "../../x/.././out//", outputFilename := "..." },
        .ofString "/app/", scriptTransform⟩
    let directory := s.config.outputDirectory.absolutize s.workingDirectory
    s.workingDirectory.isAbsolute = true ∧ s.config.validate = .ok () ∧
      s.outputPath.parent? = some (.ofString "/out") ∧ s.outputPath.fileName? = some (Utf8.encode "...") ∧
      s.outputPath = .ofString "/out/..." ∧
      files.locate directory = .ok [out] ∧
      (∀ place, files.locate s.outputPath = .ok place → place = [out, Utf8.encode "..."]) ∧
      FileTree.MadeOnWay [out] files (s.bundle files [.report 0]).2 := by
  intro out files s directory
  have hcwd : s.workingDirectory.isAbsolute = true := by decide +kernel
  have hvalid : s.config.validate = .ok () := by decide +kernel
  have hdirectory : directory = .ofString "/out" := by decide +kernel
  have hplace : directory.place = [out] := by decide +kernel
  have habove : files.locate directory = .ok [out] := by decide +kernel
  have hfails : (s.bundle files [.report 0]).1.1.toOption.isSome = false := by decide +kernel
  obtain ⟨hparent, hname, hpath, hfiles⟩ := outputPath_in_outputDirectory hcwd hvalid
  obtain ⟨hlocated, hrun⟩ := hfiles files
  refine ⟨hcwd, hvalid, hdirectory ▸ hparent, hname, ?_, habove, fun place => hlocated [out] place habove, ?_⟩
  · exact hpath.trans (by decide +kernel)
  · obtain ⟨made, hmade, ⟨-, hleft⟩ | ⟨⟨summary, hok⟩, -⟩⟩ := hrun [.report 0]
    · rw [hleft, ← hplace]
      exact hmade
    · rw [hok] at hfails
      cases hfails

end Session

end Bundler
