/-
The settings one by one. A setting has a name in files, a variable of the
environment and values of one kind (`Setting`). A layer gives it a value or none
(`ConfigLayer.get?`), and setting one changes no other (`get?_put_other`). What a
document gives for a setting is the value at its name (`Toml.setting?`), and what
an environment gives is that of its variable (`Environment.setting?`), if all
values are of their kinds.
-/
import Bundler.Config.Load
import Bundler.Proofs.TomlKeys

namespace Bundler

/-! ## Settings -/

inductive Setting where
  | entry
  | outputDirectory
  | outputFilename
  | target
  | jobs
  | timeoutMs
  | loader
deriving DecidableEq, Repr

namespace Setting

/-- What a setting is set to. -/
def Value : Setting → Type
  | entry | outputDirectory => Path
  | outputFilename => String
  | target => Target
  | jobs | timeoutMs => Nat
  | loader => LoaderStyle

instance : (s : Setting) → DecidableEq s.Value
  | entry | outputDirectory => inferInstanceAs (DecidableEq Path)
  | outputFilename => inferInstanceAs (DecidableEq String)
  | target => inferInstanceAs (DecidableEq Target)
  | jobs | timeoutMs => inferInstanceAs (DecidableEq Nat)
  | loader => inferInstanceAs (DecidableEq LoaderStyle)

/-- The key of a setting in a file. -/
def name : Setting → String
  | entry => "entry"
  | outputDirectory => "output_directory"
  | outputFilename => "output_filename"
  | target => "target"
  | jobs => "jobs"
  | timeoutMs => "timeout_ms"
  | loader => "loader"

/-- The variable of a setting. -/
def variableName : Setting → String
  | entry => "JSPACK_ENTRY"
  | outputDirectory => "JSPACK_OUTPUT_DIRECTORY"
  | outputFilename => "JSPACK_OUTPUT_FILENAME"
  | target => "JSPACK_TARGET"
  | jobs => "JSPACK_JOBS"
  | timeoutMs => "JSPACK_TIMEOUT_MS"
  | loader => "JSPACK_LOADER"

/-- A value as it is read from a file. -/
def ofToml : (s : Setting) → Toml.Value → Except Toml.Fault s.Value
  | entry | outputDirectory => Toml.readPath
  | outputFilename => Toml.readText "a string"
  | target => fun v => (Toml.readChoice targetNames v).map fun name => if name = "es5" then .es5 else .es2015
  | jobs => Toml.readCount "usize"
  | timeoutMs => Toml.readCount "u64"
  | loader => fun v => (Toml.readChoice loaderNames v).map fun name => if name = "eval" then .eval else .factory

/-- A value as it is read from a variable. Paths and names are taken as they are. -/
def ofVariable : (s : Setting) → String → Except String s.Value
  | entry | outputDirectory => fun v => .ok (.ofString v)
  | outputFilename => .ok
  | target => fun v => ConfigLayer.readTarget (trimmed v)
  | jobs | timeoutMs => fun v => ConfigLayer.readCount (trimmed v)
  | loader => fun v => ConfigLayer.readLoader (trimmed v)

/-- A value that a file in a directory gives. Only paths depend on the directory. -/
def seenFrom (directory : Path) : (s : Setting) → s.Value → s.Value
  | entry | outputDirectory => directory.join
  | outputFilename | target | jobs | timeoutMs | loader => id

theorem name_inj {s s' : Setting} : s.name = s'.name ↔ s = s' := by
  refine ⟨?_, congrArg name⟩
  cases s <;> cases s' <;> decide

/-- All settings. -/
def all : List Setting := [entry, outputDirectory, outputFilename, target, jobs, timeoutMs, loader]

theorem mem_all (s : Setting) : s ∈ all := by
  cases s <;> decide

instance decidableForall {p : Setting → Prop} [DecidablePred p] : Decidable (∀ s, p s) :=
  decidable_of_iff (∀ s ∈ all, p s) ⟨fun h s => h s (mem_all s), fun h s _ => h s⟩

instance decidableExists {p : Setting → Prop} [DecidablePred p] : Decidable (∃ s, p s) :=
  decidable_of_iff (∃ s ∈ all, p s) ⟨fun ⟨s, _, h⟩ => ⟨s, h⟩, fun ⟨s, h⟩ => ⟨s, mem_all s, h⟩⟩

end Setting

namespace ConfigLayer

/-- What a layer gives for a setting. -/
def get? (l : ConfigLayer) : (s : Setting) → Option s.Value
  | .entry => l.entry
  | .outputDirectory => l.outputDirectory
  | .outputFilename => l.outputFilename
  | .target => l.target
  | .jobs => l.jobs
  | .timeoutMs => l.timeoutMs
  | .loader => l.loader

/-- The layer with a value for a setting. -/
def put (l : ConfigLayer) : (s : Setting) → s.Value → ConfigLayer
  | .entry, v => { l with entry := some v }
  | .outputDirectory, v => { l with outputDirectory := some v }
  | .outputFilename, v => { l with outputFilename := some v }
  | .target, v => { l with target := some v }
  | .jobs, v => { l with jobs := some v }
  | .timeoutMs, v => { l with timeoutMs := some v }
  | .loader, v => { l with loader := some v }

@[simp] theorem get?_put_self (l : ConfigLayer) (s : Setting) (v : s.Value) : (l.put s v).get? s = some v := by
  cases s <;> rfl

/-- To set one setting changes no other. -/
theorem get?_put_other (l : ConfigLayer) {s s' : Setting} (h : s' ≠ s) (v : s.Value) :
    (l.put s v).get? s' = l.get? s' := by
  cases s <;> cases s' <;> simp only [ne_eq, not_true_eq_false] at h <;> rfl

@[simp] theorem get?_empty (s : Setting) : get? {} s = none := by
  cases s <;> rfl

theorem get?_seenFrom (l : ConfigLayer) (directory : Path) (s : Setting) :
    (l.seenFrom directory).get? s = (l.get? s).map (s.seenFrom directory) := by
  cases s with
  | entry | outputDirectory => rfl
  | outputFilename | target | jobs | timeoutMs | loader => exact (Option.map_id_apply).symm

/-- A document sets a setting by its name. -/
theorem set?_name (l : ConfigLayer) (s : Setting) (v : Toml.Value) :
    l.set? Toml.settingReader s.name v = some do return l.put s (← s.ofToml v) := by
  cases s with
  | entry =>
    change some (((Toml.readPath v).map some).bind _) = some ((Toml.readPath v).bind _)
    cases Toml.readPath v <;> rfl
  | target =>
    change some ((Toml.readChoice targetNames v).bind _) = some (((Toml.readChoice targetNames v).map _).bind _)
    cases Toml.readChoice targetNames v <;> rfl
  | loader =>
    change some ((Toml.readChoice loaderNames v).bind _) = some (((Toml.readChoice loaderNames v).map _).bind _)
    cases Toml.readChoice loaderNames v <;> rfl
  | outputDirectory | outputFilename | jobs | timeoutMs => rfl

/-- There is nothing to set by another name. -/
theorem eq_name_of_set? {α ε : Type} {r : SettingReader α ε} {l : ConfigLayer} {name : String} {v : α}
    {out : Except ε ConfigLayer} (h : l.set? r name v = some out) : ∃ s : Setting, name = s.name := by
  unfold set? at h
  split at h
  · exact ⟨.entry, rfl⟩
  · exact ⟨.outputDirectory, rfl⟩
  · exact ⟨.outputFilename, rfl⟩
  · exact ⟨.target, rfl⟩
  · exact ⟨.jobs, rfl⟩
  · exact ⟨.timeoutMs, rfl⟩
  · exact ⟨.loader, rfl⟩
  · cases h

end ConfigLayer

namespace Config

/-- What settings have for a setting. Only the entry may be missing. -/
def get? (c : Config) : (s : Setting) → Option s.Value
  | .entry => c.entry
  | .outputDirectory => some c.outputDirectory
  | .outputFilename => some c.outputFilename
  | .target => some c.target
  | .jobs => some c.jobs
  | .timeoutMs => some c.timeoutMs
  | .loader => some c.loader

theorem ext_get? {c c' : Config} (h : ∀ s, c.get? s = c'.get? s) : c = c' := by
  cases c
  cases c'
  congr 1
  · exact h .entry
  · exact Option.some.inj (h .outputDirectory)
  · exact Option.some.inj (h .outputFilename)
  · exact Option.some.inj (h .target)
  · exact Option.some.inj (h .jobs)
  · exact Option.some.inj (h .timeoutMs)
  · exact Option.some.inj (h .loader)

/-- What a layer gives comes before what there was. -/
theorem get?_apply (c : Config) (l : ConfigLayer) (s : Setting) : (c.apply l).get? s = (l.get? s).or (c.get? s) := by
  cases s with
  | entry => exact Option.orElse_eq_or
  | outputDirectory | outputFilename | target | jobs | timeoutMs | loader => exact Option.or_some.symm

end Config

/-! ## Documents -/

namespace Toml

/-- What a document gives for a setting. -/
def setting? (entries : List Entry) (s : Setting) : Option s.Value :=
  (entries.find? fun e => e.key.text = s.name).bind fun e => (s.ofToml e.value).toOption

/-- Every key is that of a setting, with a value of its kind. -/
def AllSettings (entries : List Entry) : Prop :=
  ∀ e ∈ entries, ∃ s : Setting, e.key.text = s.name ∧ ∃ v, s.ofToml e.value = .ok v

instance (entries : List Entry) : Decidable (AllSettings entries) :=
  inferInstanceAs (Decidable (∀ e ∈ entries, ∃ s : Setting, e.key.text = s.name ∧ ∃ v, s.ofToml e.value = .ok v))

theorem setting?_cons_self {e : Entry} {s : Setting} {v : s.Value} (h : e.key.text = s.name)
    (hv : s.ofToml e.value = .ok v) (rest : List Entry) : setting? (e :: rest) s = some v := by
  simp only [setting?, List.find?_cons, h, decide_true, Option.bind_some, hv]
  rfl

theorem setting?_cons_other {e : Entry} {s : Setting} (h : e.key.text ≠ s.name) (rest : List Entry) :
    setting? (e :: rest) s = setting? rest s := by
  simp only [setting?, List.find?_cons, h, decide_false]

theorem setting?_of_not_mem {entries : List Entry} {s : Setting} (h : s.name ∉ entries.map (·.key.text)) :
    setting? entries s = none := by
  have hfind : entries.find? (fun e => e.key.text = s.name) = none := by
    rw [List.find?_eq_none]
    intro e he hkey
    exact h (List.mem_map.2 ⟨e, he, of_decide_eq_true hkey⟩)
  rw [setting?, hfind, Option.bind_none]

/-- The order of the keys of a document does not matter. -/
theorem setting?_perm {entries entries' : List Entry} (h : Distinct entries) (hperm : entries.Perm entries')
    (s : Setting) : setting? entries' s = setting? entries s := by
  have h' : Distinct entries' := (hperm.map _).nodup_iff.1 h
  have hfind : entries'.find? (fun e => e.key.text = s.name) = entries.find? fun e => e.key.text = s.name := by
    refine Option.ext fun e => ?_
    rw [h'.find?_eq_some_iff, h.find?_eq_some_iff, hperm.mem_iff]
  rw [setting?, hfind, setting?]

end Toml

namespace ConfigLayer

/-- Keys that are all those of settings are read one by one, each into its own
setting. -/
theorem readEntries_get? : ∀ {entries : List Toml.Entry} (l : ConfigLayer), Toml.Distinct entries →
    Toml.AllSettings entries →
    ∃ out, readEntries l entries = .ok out ∧ ∀ s, out.get? s = (Toml.setting? entries s).or (l.get? s)
  | [], l, _, _ => ⟨l, rfl, fun _ => rfl⟩
  | e :: rest, l, hdistinct, hall => by
    obtain ⟨s, hkey, v, hv⟩ := hall e List.mem_cons_self
    obtain ⟨hnew, hrest⟩ := List.nodup_cons.1 hdistinct
    obtain ⟨out, hout, hget⟩ := readEntries_get? (l.put s v) hrest fun e' he => hall e' (List.mem_cons_of_mem e he)
    refine ⟨out, ?_, ?_⟩
    · rw [readEntries, hkey, set?_name, hv]
      exact hout
    · intro s'
      rw [hget]
      by_cases hs : s' = s
      · subst hs
        rw [get?_put_self, Toml.setting?_of_not_mem (hkey ▸ hnew), Toml.setting?_cons_self hkey hv]
        rfl
      · have hother : e.key.text ≠ s'.name := fun h => hs (Setting.name_inj.1 (h.symm.trans hkey))
        rw [get?_put_other l hs, Toml.setting?_cons_other hother]

/-- Keys are only read if they are all those of settings. -/
theorem allSettings_of_readEntries : ∀ {entries : List Toml.Entry} {l out : ConfigLayer},
    readEntries l entries = .ok out → Toml.AllSettings entries
  | [], _, _, _ => fun _ he => absurd he List.not_mem_nil
  | e :: rest, l, out, h => by
    unfold readEntries at h
    split at h
    · next r hset =>
      obtain ⟨s, hkey⟩ := eq_name_of_set? hset
      rw [hkey, set?_name, Option.some.injEq] at hset
      obtain ⟨l', hl', hrest⟩ := bind_eq_ok h
      obtain ⟨v, hv, _⟩ := bind_eq_ok (hset.trans hl')
      intro e' he'
      rcases List.mem_cons.1 he' with rfl | he'
      · exact ⟨s, hkey, v, hv⟩
      · exact allSettings_of_readEntries hrest e' he'
    · cases h

theorem allSettings_of_ofToml {text : String} {l : ConfigLayer} (h : ofToml text = .ok l) :
    ∃ entries, Toml.parse text = .ok entries ∧ Toml.AllSettings entries := by
  obtain ⟨entries, hparse, hread⟩ := bind_eq_ok h
  have hperm := List.mergeSort_perm entries fun a b => !(b.key.text < a.key.text)
  exact ⟨entries, hparse, fun e he => allSettings_of_readEntries hread e (hperm.mem_iff.2 he)⟩

/-- A document of settings is the layer that gives each of them its value. -/
theorem ofToml_get? {text : String} {entries : List Toml.Entry} (hparse : Toml.parse text = .ok entries)
    (hall : Toml.AllSettings entries) :
    ∃ l, ofToml text = .ok l ∧ ∀ s, l.get? s = Toml.setting? entries s := by
  have hdistinct := Toml.parse_distinct hparse
  have hperm := List.mergeSort_perm entries fun a b => !(b.key.text < a.key.text)
  obtain ⟨l, hread, hget⟩ := readEntries_get? {} ((hperm.map _).nodup_iff.2 hdistinct)
    fun e he => hall e (hperm.mem_iff.1 he)
  refine ⟨l, ?_, ?_⟩
  · rw [ofToml, hparse]
    exact hread
  · intro s
    rw [hget, get?_empty, Option.or_none, Toml.setting?_perm hdistinct hperm.symm]

end ConfigLayer

/-! ## Variables -/

namespace Environment

/-- What an environment gives for a setting. -/
def setting? (env : Environment) (s : Setting) : Option s.Value :=
  (env.nonEmpty? s.variableName).bind fun v => (s.ofVariable v).toOption

/-- Every variable of a setting that is not empty has a value of its kind. -/
def AllSettings (env : Environment) : Prop :=
  ∀ s : Setting, ∀ v ∈ env.nonEmpty? s.variableName, ∃ a, s.ofVariable v = .ok a

instance (env : Environment) : Decidable env.AllSettings :=
  inferInstanceAs (Decidable (∀ s : Setting, ∀ v ∈ env.nonEmpty? s.variableName, ∃ a, s.ofVariable v = .ok a))

end Environment

namespace ConfigLayer

theorem readVariable_eq {α : Type} {env : Environment} {name : String} {read : String → Except String α}
    (h : ∀ v, env.nonEmpty? name = some v → ∃ a, read (trimmed v) = .ok a) :
    readVariable env name read = .ok ((env.nonEmpty? name).bind fun v => (read (trimmed v)).toOption) := by
  unfold readVariable
  cases hv : env.nonEmpty? name with
  | none => rfl
  | some v =>
    obtain ⟨a, ha⟩ := h v hv
    simp only [ha, Option.bind_some]
    rfl

/-- An environment whose variables have values of their kinds is the layer that
gives each setting that of its variable. -/
theorem ofEnvironment_of_allSettings {env : Environment} (h : env.AllSettings) :
    (ofEnvironment env).2 = none ∧ ∀ s, (ofEnvironment env).1.get? s = env.setting? s := by
  have htarget : readVariable env "JSPACK_TARGET" readTarget = .ok (env.setting? .target) :=
    readVariable_eq (h .target)
  have hjobs : readVariable env "JSPACK_JOBS" readCount = .ok (env.setting? .jobs) := readVariable_eq (h .jobs)
  have htimeout : readVariable env "JSPACK_TIMEOUT_MS" readCount = .ok (env.setting? .timeoutMs) :=
    readVariable_eq (h .timeoutMs)
  have hloader : readVariable env "JSPACK_LOADER" readLoader = .ok (env.setting? .loader) :=
    readVariable_eq (h .loader)
  simp only [ofEnvironment, htarget, hjobs, htimeout, hloader]
  refine ⟨trivial, fun s => ?_⟩
  cases s with
  | entry => exact Option.map_eq_bind
  | outputDirectory => exact Option.map_eq_bind
  | outputFilename => exact (Option.bind_fun_some _).symm
  | target | jobs | timeoutMs | loader => rfl

theorem exists_read_of_readVariable {α : Type} {env : Environment} {name : String} {read : String → Except String α}
    {o : Option α} (h : readVariable env name read = .ok o) {v : String} (hv : env.nonEmpty? name = some v) :
    ∃ a, read (trimmed v) = .ok a := by
  unfold readVariable at h
  rw [hv] at h
  cases hread : read (trimmed v) with
  | ok a => exact ⟨a, rfl⟩
  | error cause =>
    simp only [hread] at h
    cases h

/-- Without a fault, all variables have values of their kinds. -/
theorem allSettings_of_ofEnvironment {env : Environment} (h : (ofEnvironment env).2 = none) : env.AllSettings := by
  unfold ofEnvironment at h
  split at h
  · cases h
  next htarget =>
  split at h
  · cases h
  next hjobs =>
  split at h
  · cases h
  next htimeout =>
  split at h
  · cases h
  next hloader =>
  intro s v hv
  cases s with
  | entry | outputDirectory | outputFilename => exact ⟨_, rfl⟩
  | target => exact exists_read_of_readVariable htarget hv
  | jobs => exact exists_read_of_readVariable hjobs hv
  | timeoutMs => exact exists_read_of_readVariable htimeout hv
  | loader => exact exists_read_of_readVariable hloader hv

theorem ofEnvironment_eq_none_iff {env : Environment} : (ofEnvironment env).2 = none ↔ env.AllSettings :=
  ⟨allSettings_of_ofEnvironment, fun h => (ofEnvironment_of_allSettings h).1⟩

end ConfigLayer

end Bundler
