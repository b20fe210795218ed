/-
Which layer a setting comes from. Settings start as the defaults, and each layer
replaces those that it gives, so in the end a setting has the value of the
highest layer that gives it one (`get?_foldl_apply`). A file gives the paths in it
as seen from its own directory (`ConfigSource.setting?`). The layers are the file
of the user (`userFile`), the file of the project or the one asked for in its place
(`upperFile`), the environment and the flags, the highest last
(`load_highest_layer`).
-/
import Bundler.CommandLine.Arguments
import Bundler.Proofs.SettingValues

namespace Bundler

/-! ## Files -/

deriving instance DecidableEq for ConfigSource

namespace ConfigSource

/-- The directory that paths in a file are relative to. -/
def directory (f : ConfigSource) : Path := f.path.parent?.getD ⟨[]⟩

/-- The document that a file is, if it was read and is one. -/
def entries? (f : ConfigSource) : Option (List Toml.Entry) :=
  f.contents.toOption.bind fun text => (Toml.parse text).toOption

/-- A file that is a document of settings. -/
def WellFormed (f : ConfigSource) : Prop := ∃ entries ∈ f.entries?, Toml.AllSettings entries

instance (f : ConfigSource) : Decidable f.WellFormed :=
  inferInstanceAs (Decidable (∃ entries ∈ f.entries?, Toml.AllSettings entries))

/-- What a file gives for a setting: the value at its key, as seen from the
directory of the file. -/
def setting? (f : ConfigSource) (s : Setting) : Option s.Value :=
  (f.entries?.bind fun entries => Toml.setting? entries s).map (s.seenFrom f.directory)

theorem entries?_eq_some_iff {f : ConfigSource} {entries : List Toml.Entry} :
    f.entries? = some entries ↔ ∃ text, f.contents = .ok text ∧ Toml.parse text = .ok entries := by
  rw [entries?, Option.bind_eq_some_iff]
  refine exists_congr fun text => ?_
  cases f.contents <;> cases Toml.parse text <;> simp [Except.toOption]

theorem wellFormed_of_layer {f : ConfigSource} {l : ConfigLayer} (h : f.layer = .ok l) : f.WellFormed := by
  unfold layer at h
  split at h
  · cases h
  · next text hcontents =>
    split at h
    · cases h
    · next l' hl' =>
      obtain ⟨entries, hparse, hall⟩ := ConfigLayer.allSettings_of_ofToml hl'
      exact ⟨entries, entries?_eq_some_iff.2 ⟨text, hcontents, hparse⟩, hall⟩

theorem layer_of_wellFormed {f : ConfigSource} (h : f.WellFormed) :
    ∃ l, f.layer = .ok l ∧ ∀ s, l.get? s = f.setting? s := by
  obtain ⟨entries, hentries, hall⟩ := h
  obtain ⟨text, hcontents, hparse⟩ := entries?_eq_some_iff.1 hentries
  obtain ⟨l, hl, hget⟩ := ConfigLayer.ofToml_get? hparse hall
  refine ⟨l.seenFrom f.directory, ?_, ?_⟩
  · simp only [layer, hcontents, hl]
    rfl
  · intro s
    rw [ConfigLayer.get?_seenFrom, hget, setting?, hentries, Option.bind_some]

/-- The well-formed files are those that are layers. -/
theorem exists_layer_iff {f : ConfigSource} : (∃ l, f.layer = .ok l) ↔ f.WellFormed := by
  refine ⟨fun ⟨_, hl⟩ => wellFormed_of_layer hl, fun h => ?_⟩
  obtain ⟨l, hl, -⟩ := layer_of_wellFormed h
  exact ⟨l, hl⟩

theorem layer_get? {f : ConfigSource} {l : ConfigLayer} (h : f.layer = .ok l) (s : Setting) :
    l.get? s = f.setting? s := by
  obtain ⟨l', hl', hget⟩ := layer_of_wellFormed (wellFormed_of_layer h)
  rw [Except.ok.inj (h.symm.trans hl'), hget]

end ConfigSource

namespace Config

/-! ## Layers -/

/-- A setting has the value of the highest layer that gives it one. -/
theorem get?_foldl_apply (s : Setting) : ∀ (layers : List ConfigLayer) (c : Config),
    (layers.foldl apply c).get? s = (layers.reverse.findSome? (·.get? s)).or (c.get? s)
  | [], _ => rfl
  | l :: layers, c => by
    rw [List.foldl_cons, get?_foldl_apply s layers, get?_apply, List.reverse_cons, List.findSome?_append,
      List.findSome?_singleton, Option.or_assoc]

theorem mapM_layer_get? (s : Setting) : ∀ {sources : List ConfigSource} {layers : List ConfigLayer},
    sources.mapM ConfigSource.layer = .ok layers → layers.map (·.get? s) = sources.map (·.setting? s)
  | [], _, h => by
    cases h
    rfl
  | f :: sources, _, h => by
    rw [List.mapM_cons] at h
    obtain ⟨l, hl, hrest⟩ := bind_eq_ok h
    obtain ⟨layers, hlayers, hcons⟩ := bind_eq_ok hrest
    cases hcons
    rw [List.map_cons, List.map_cons, ConfigSource.layer_get? hl, mapM_layer_get? s hlayers]

variable {processors : Nat}

/-- All that loading does: the layers of the files are put over the defaults, and
that of the environment over them. -/
theorem ofSources_eq_ok_iff {sources : List ConfigSource} {env : Environment} {c : Config} :
    ofSources processors sources env = .ok c ↔
      ∃ layers, sources.mapM ConfigSource.layer = .ok layers ∧ (ConfigLayer.ofEnvironment env).2 = none ∧
        c = (layers.foldl apply (defaults processors)).apply (ConfigLayer.ofEnvironment env).1 := by
  constructor
  · intro h
    obtain ⟨layers, hlayers, hrest⟩ := bind_eq_ok h
    refine ⟨layers, hlayers, ?_⟩
    simp only [applyEnvironment] at hrest
    split at hrest
    · cases hrest
    · next hfault =>
      cases hrest
      exact ⟨hfault, rfl⟩
  · rintro ⟨layers, hlayers, hfault, rfl⟩
    simp only [ofSources, hlayers, applyEnvironment, hfault]
    rfl

theorem exists_ofSources_iff {sources : List ConfigSource} {env : Environment} :
    (∃ c, ofSources processors sources env = .ok c) ↔ (∀ f ∈ sources, f.WellFormed) ∧ env.AllSettings := by
  have hlayers : (∃ layers, sources.mapM ConfigSource.layer = .ok layers) ↔ ∀ f ∈ sources, f.WellFormed :=
    exists_mapM_eq_ok_iff.trans (forall₂_congr fun _ _ => ConfigSource.exists_layer_iff)
  rw [← hlayers, ← ConfigLayer.ofEnvironment_eq_none_iff]
  constructor
  · rintro ⟨c, hc⟩
    obtain ⟨layers, hok, hfault, -⟩ := ofSources_eq_ok_iff.1 hc
    exact ⟨⟨layers, hok⟩, hfault⟩
  · rintro ⟨⟨layers, hok⟩, hfault⟩
    exact ⟨_, ofSources_eq_ok_iff.2 ⟨layers, hok, hfault, rfl⟩⟩

/-- A setting that is loaded is that of the environment, or else that of the highest
file that gives it. -/
theorem ofSources_get? {sources : List ConfigSource} {env : Environment} {c : Config}
    (h : ofSources processors sources env = .ok c) (s : Setting) :
    c.get? s = (env.setting? s).or
      ((sources.reverse.findSome? (·.setting? s)).or ((defaults processors).get? s)) := by
  obtain ⟨layers, hlayers, hfault, rfl⟩ := ofSources_eq_ok_iff.1 h
  obtain ⟨-, henv⟩ := ConfigLayer.ofEnvironment_of_allSettings (ConfigLayer.ofEnvironment_eq_none_iff.1 hfault)
  have hfiles : layers.reverse.findSome? (·.get? s) = sources.reverse.findSome? (·.setting? s) := by
    have hsame := congrArg (fun values => values.reverse.findSome? id) (mapM_layer_get? s hlayers)
    simpa only [← List.map_reverse, List.findSome?_map, Function.id_comp] using hsame
  rw [get?_apply, henv, get?_foldl_apply, hfiles]

end Config

/-! ## Where the layers are -/

/-- The file at a path, as settings are read from it. -/
def FileTree.settingsFile (t : FileTree) (p : Path) : ConfigSource := ⟨p, t.readText p⟩

/-- The file at a path, if it is there. -/
def FileTree.settingsFile? (t : FileTree) (p : Path) : Option ConfigSource :=
  if t.isFile p then some (t.settingsFile p) else none

namespace Config

/-- The file of the user, if it is there. -/
def userFile (t : FileTree) (user : Option Path) : Option ConfigSource := user.bind t.settingsFile?

/-- The file asked for, or else that of the project if it is there. -/
def upperFile (t : FileTree) (project : Path) : Option Path → Option ConfigSource
  | some p => some (t.settingsFile p)
  | none => t.settingsFile? (project.join configFileName)

theorem sources_eq (t : FileTree) (user : Option Path) (project : Path) (explicit : Option Path) :
    sources t user project explicit = (userFile t user).toList ++ (upperFile t project explicit).toList := by
  have hthere (p : Path) : (if t.isFile p then [(⟨p, t.readText p⟩ : ConfigSource)] else []) =
      (t.settingsFile? p).toList := by
    unfold FileTree.settingsFile?
    split <;> rfl
  cases user <;> cases explicit <;> simp only [sources, hthere] <;> rfl

/-- The files are loaded from the lower one to the upper one. -/
theorem load_eq (processors : Nat) (t : FileTree) (user : Option Path) (project : Path) (explicit : Option Path)
    (env : Environment) : load processors t user project explicit env =
      ofSources processors ((userFile t user).toList ++ (upperFile t project explicit).toList) env := by
  rw [load, sources_eq]

theorem findSome?_toLists {α β : Type} (f : α → Option β) (lower upper : Option α) :
    (lower.toList ++ upper.toList).reverse.findSome? f = (upper.bind f).or (lower.bind f) := by
  have hone (o : Option α) : o.toList.findSome? f = o.bind f := by
    cases o with
    | none => rfl
    | some a => exact List.findSome?_singleton
  have hreverse (o : Option α) : o.toList.reverse = o.toList := by
    cases o <;> rfl
  rw [List.reverse_append, hreverse, hreverse, List.findSome?_append, hone, hone]

/-- The files and the environment are loaded exactly if all of them are well formed. -/
theorem exists_load_iff {processors : Nat} {t : FileTree} {user : Option Path} {project : Path}
    {explicit : Option Path} {env : Environment} :
    (∃ c, load processors t user project explicit env = .ok c) ↔
      (∀ f ∈ userFile t user, f.WellFormed) ∧ (∀ f ∈ upperFile t project explicit, f.WellFormed) ∧
        env.AllSettings := by
  simp only [load_eq, exists_ofSources_iff, List.mem_append, Option.mem_toList, Option.mem_def, or_imp, forall_and,
    and_assoc]

theorem load_get? {processors : Nat} {t : FileTree} {user : Option Path} {project : Path} {explicit : Option Path}
    {env : Environment} {c : Config} (h : load processors t user project explicit env = .ok c) (s : Setting) :
    c.get? s = (env.setting? s).or (((upperFile t project explicit).bind (·.setting? s)).or
      (((userFile t user).bind (·.setting? s)).or ((defaults processors).get? s))) := by
  rw [load_eq] at h
  rw [ofSources_get? h, findSome?_toLists, Option.or_assoc]

end Config

end Bundler
