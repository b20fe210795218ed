/-
How far an environment is taken up. Settings are read from their variables one by one,
in the order of `Setting.all` (`ConfigLayer.takeVariables`). The first variable whose
text means nothing ends this: the settings before it have been taken up, it and those
after it are as they were (`applyEnvironment_up_to_fault`).
-/
import Bundler.Proofs.SettingValues
import Bundler.Proofs.VariableTexts

namespace Bundler

/-! ## What variables mean -/

/-- What a text means as the value of a setting. Paths and file names are taken as they
are, all else between white space. -/
def Setting.Means : (s : Setting) → String → s.Value → Prop
  | .entry, v, p => p = .ofString v
  | .outputDirectory, v, p => p = .ofString v
  | .outputFilename, v, name => name = v
  | .target, v, t => ∃ text, IsTrimmed v text ∧ ∃ name ∈ Target.spellings t, IsSpelling text name
  | .jobs, v, n => ∃ text, IsTrimmed v text ∧ IsCount text n
  | .timeoutMs, v, n => ∃ text, IsTrimmed v text ∧ IsCount text n
  | .loader, v, l => ∃ text, IsTrimmed v text ∧ ∃ name ∈ LoaderStyle.spellings l, IsSpelling text name

theorem mapError_eq_ok_iff {ε ε' α : Type} {x : Except ε α} {f : ε → ε'} {a : α} : x.mapError f = .ok a ↔ x = .ok a := by
  cases x <;> simp [Except.mapError]

namespace ConfigLayer

theorem readTarget_eq_ok_iff {text : String} {t : Target} :
    readTarget text = .ok t ↔ ∃ name ∈ Target.spellings t, IsSpelling text name :=
  mapError_eq_ok_iff.trans Target.ofName_eq_ok_iff

theorem readLoader_eq_ok_iff {text : String} {l : LoaderStyle} :
    readLoader text = .ok l ↔ ∃ name ∈ LoaderStyle.spellings l, IsSpelling text name :=
  mapError_eq_ok_iff.trans LoaderStyle.ofName_eq_ok_iff

theorem readCount_eq_ok_iff {text : String} {n : Nat} : readCount text = .ok n ↔ IsCount text n :=
  mapError_eq_ok_iff.trans Count.ofString_eq_ok_iff

end ConfigLayer

/-- What a text means that is read between white space. -/
theorem readTrimmed_eq_ok_iff {α : Type} (read : String → Except String α) (Means : String → α → Prop)
    (h : ∀ {text a}, read text = .ok a ↔ Means text a) {v : String} {a : α} :
    read (trimmed v) = .ok a ↔ ∃ text, IsTrimmed v text ∧ Means text a := by
  simp only [h, ← trimmed_eq_iff, exists_eq_left']

theorem Setting.ofVariable_eq_ok_iff {s : Setting} {v : String} {a : s.Value} : s.ofVariable v = .ok a ↔ s.Means v a := by
  cases s with
  | entry | outputDirectory | outputFilename =>
    exact ⟨fun h => (Except.ok.inj h).symm, fun h => congrArg Except.ok h.symm⟩
  | target => exact readTrimmed_eq_ok_iff ConfigLayer.readTarget _ ConfigLayer.readTarget_eq_ok_iff
  | jobs | timeoutMs => exact readTrimmed_eq_ok_iff ConfigLayer.readCount IsCount ConfigLayer.readCount_eq_ok_iff
  | loader => exact readTrimmed_eq_ok_iff ConfigLayer.readLoader _ ConfigLayer.readLoader_eq_ok_iff

namespace Environment

/-- The variable of a setting has a text that is not empty. -/
def Gives (env : Environment) (s : Setting) (v : String) : Prop := env s.variableName = some v ∧ v ≠ ""

/-- The variable of a setting has a text that is not empty and means nothing. -/
def Misuses (env : Environment) (s : Setting) (v : String) : Prop := env.Gives s v ∧ ∀ a, ¬s.Means v a

theorem nonEmpty?_eq_some_iff {env : Environment} {s : Setting} {v : String} :
    env.nonEmpty? s.variableName = some v ↔ env.Gives s v := by
  rw [nonEmpty?, Option.filter_eq_some_iff, Gives, decide_eq_true_eq]

theorem setting?_eq_some_iff {env : Environment} {s : Setting} {a : s.Value} :
    env.setting? s = some a ↔ ∃ v, env.Gives s v ∧ s.Means v a := by
  rw [setting?, Option.bind_eq_some_iff]
  refine exists_congr fun v => and_congr nonEmpty?_eq_some_iff ?_
  rw [← Setting.ofVariable_eq_ok_iff]
  cases s.ofVariable v <;> simp [Except.toOption]

/-- Paths and file names mean something whatever they are. -/
theorem mem_of_misuses {env : Environment} {s : Setting} {v : String} (h : env.Misuses s v) :
    s ∈ [Setting.target, .jobs, .timeoutMs, .loader] := by
  cases s with
  | entry | outputDirectory | outputFilename => exact absurd rfl (h.2 _)
  | target | jobs | timeoutMs | loader => decide

end Environment

namespace ConfigLayer

/-! ## Variables one by one -/

/-- The layer with what the variable of a setting gives, if anything. -/
def give (l : ConfigLayer) (s : Setting) : Option s.Value → ConfigLayer
  | none => l
  | some a => l.put s a

/-- Reads the variable of a setting, if it has a value. -/
def readSetting (env : Environment) (s : Setting) : Except VariableFault (Option s.Value) :=
  match env.nonEmpty? s.variableName with
  | none => .ok none
  | some v =>
    match s.ofVariable v with
    | .ok a => .ok (some a)
    | .error cause => .error ⟨s.variableName, v, cause⟩

/-- Takes up the variables of settings one after the other, up to the first one that
means nothing. -/
def takeVariables (env : Environment) : List Setting → ConfigLayer → ConfigLayer × Option VariableFault
  | [], l => (l, none)
  | s :: rest, l =>
    match readSetting env s with
    | .error f => (l, some f)
    | .ok a => takeVariables env rest (l.give s a)

theorem readSetting_of_ok {env : Environment} {s : Setting} {f : String → s.Value}
    (h : ∀ v, s.ofVariable v = .ok (f v)) : readSetting env s = .ok ((env.nonEmpty? s.variableName).map f) := by
  unfold readSetting
  cases env.nonEmpty? s.variableName with
  | none => rfl
  | some v => simp only [h]; rfl

theorem readSetting_of_read {env : Environment} {s : Setting} {read : String → Except String s.Value}
    (h : ∀ v, s.ofVariable v = read (trimmed v)) : readSetting env s = readVariable env s.variableName read := by
  unfold readSetting readVariable
  cases env.nonEmpty? s.variableName with
  | none => rfl
  | some v =>
    simp only [h]
    cases read (trimmed v) <;> rfl

/-- The environment is taken up in the order of all settings. -/
theorem ofEnvironment_eq (env : Environment) : ofEnvironment env = takeVariables env Setting.all {} := by
  have hentry : readSetting env .entry = .ok ((env.nonEmpty? "JSPACK_ENTRY").map .ofString) :=
    readSetting_of_ok fun _ => rfl
  have hdirectory : readSetting env .outputDirectory = .ok ((env.nonEmpty? "JSPACK_OUTPUT_DIRECTORY").map .ofString) :=
    readSetting_of_ok fun _ => rfl
  have hfilename : readSetting env .outputFilename = .ok (env.nonEmpty? "JSPACK_OUTPUT_FILENAME") :=
    (readSetting_of_ok fun _ => rfl).trans (congrArg Except.ok Option.map_id_apply)
  have hpaths : ((give {} .entry ((env.nonEmpty? "JSPACK_ENTRY").map .ofString)).give .outputDirectory
      ((env.nonEmpty? "JSPACK_OUTPUT_DIRECTORY").map .ofString)).give .outputFilename
      (env.nonEmpty? "JSPACK_OUTPUT_FILENAME") =
      { entry := (env.nonEmpty? "JSPACK_ENTRY").map .ofString
        outputDirectory := (env.nonEmpty? "JSPACK_OUTPUT_DIRECTORY").map .ofString
        outputFilename := env.nonEmpty? "JSPACK_OUTPUT_FILENAME" } := by
    cases env.nonEmpty? "JSPACK_ENTRY" <;> cases env.nonEmpty? "JSPACK_OUTPUT_DIRECTORY" <;>
      cases env.nonEmpty? "JSPACK_OUTPUT_FILENAME" <;> rfl
  simp only [Setting.all, takeVariables, hentry, hdirectory, hfilename, hpaths]
  have htarget : readSetting env .target = readVariable env "JSPACK_TARGET" readTarget := readSetting_of_read fun _ => rfl
  have hjobs : readSetting env .jobs = readVariable env "JSPACK_JOBS" readCount := readSetting_of_read fun _ => rfl
  have htimeout : readSetting env .timeoutMs = readVariable env "JSPACK_TIMEOUT_MS" readCount :=
    readSetting_of_read fun _ => rfl
  have hloader : readSetting env .loader = readVariable env "JSPACK_LOADER" readLoader := readSetting_of_read fun _ => rfl
  rw [htarget, hjobs, htimeout, hloader, ofEnvironment]
  -- Each of the other variables means nothing, is not there, or gives a value.
  rcases readVariable env "JSPACK_TARGET" readTarget with f | _ | target
  · rfl
  all_goals
    rcases readVariable env "JSPACK_JOBS" readCount with f | _ | jobs
    · rfl
  all_goals
    rcases readVariable env "JSPACK_TIMEOUT_MS" readCount with f | _ | timeoutMs
    · rfl
  all_goals rcases readVariable env "JSPACK_LOADER" readLoader with f | _ | loader <;> rfl

theorem get?_give_self (l : ConfigLayer) (s : Setting) (a : Option s.Value) :
    (l.give s a).get? s = a.or (l.get? s) := by
  cases a with
  | none => rfl
  | some a => exact get?_put_self l s a

theorem get?_give_other (l : ConfigLayer) {s s' : Setting} (h : s' ≠ s) (a : Option s.Value) :
    (l.give s a).get? s' = l.get? s' := by
  cases a with
  | none => rfl
  | some a => exact get?_put_other l h a

/-- All that reading a variable can come to. -/
theorem readSetting_cases (env : Environment) (s : Setting) :
    ((∀ v, ¬env.Misuses s v) ∧ readSetting env s = .ok (env.setting? s)) ∨
      ∃ v cause, env.Misuses s v ∧ readSetting env s = .error ⟨s.variableName, v, cause⟩ := by
  unfold readSetting Environment.setting?
  cases hv : env.nonEmpty? s.variableName with
  | none =>
    refine .inl ⟨fun v h => ?_, rfl⟩
    cases hv.symm.trans (Environment.nonEmpty?_eq_some_iff.2 h.1)
  | some v =>
    have hgives : env.Gives s v := Environment.nonEmpty?_eq_some_iff.1 hv
    cases hread : s.ofVariable v with
    | ok a =>
      refine .inl ⟨fun v' h => ?_, by simp only [Option.bind_some, hread]; rfl⟩
      cases hv.symm.trans (Environment.nonEmpty?_eq_some_iff.2 h.1)
      exact h.2 a (Setting.ofVariable_eq_ok_iff.1 hread)
    | error cause =>
      refine .inr ⟨v, cause, ⟨hgives, fun a h => ?_⟩, by simp only [hread]⟩
      cases hread.symm.trans (Setting.ofVariable_eq_ok_iff.2 h)

/-- Settings are taken up as far as their variables mean something. -/
theorem takeVariables_cases (env : Environment) : ∀ (settings : List Setting) (l : ConfigLayer),
    ∃ before after, settings = before ++ after ∧ (∀ s ∈ before, ∀ v, ¬env.Misuses s v) ∧
      (∀ s ∈ before, (takeVariables env settings l).1.get? s = (env.setting? s).or (l.get? s)) ∧
      (∀ s ∉ before, (takeVariables env settings l).1.get? s = l.get? s) ∧
      (after = [] ∧ (takeVariables env settings l).2 = none ∨
        ∃ s rest v cause, after = s :: rest ∧ env.Misuses s v ∧
          (takeVariables env settings l).2 = some ⟨s.variableName, v, cause⟩)
  | [], l => ⟨[], [], rfl, by simp, by simp, fun _ _ => rfl, .inl ⟨rfl, rfl⟩⟩
  | s :: rest, l => by
    rcases readSetting_cases env s with ⟨hmeans, hread⟩ | ⟨v, cause, hmisuses, hread⟩
    · obtain ⟨before, after, rfl, hbefore, htaken, hkept, hend⟩ :=
        takeVariables_cases env rest (l.give s (env.setting? s))
      have hstep : takeVariables env (s :: (before ++ after)) l =
          takeVariables env (before ++ after) (l.give s (env.setting? s)) := by
        rw [takeVariables, hread]
      have hself : ((env.setting? s).or ((env.setting? s).or (l.get? s))) = (env.setting? s).or (l.get? s) := by
        rw [← Option.or_assoc, Option.or_self]
      refine ⟨s :: before, after, rfl, List.forall_mem_cons.2 ⟨hmeans, hbefore⟩, fun s' hs' => ?_, fun s' hs' => ?_,
        hstep ▸ hend⟩
      · rw [hstep]
        by_cases hs : s' = s
        · subst hs
          by_cases hmem : s' ∈ before
          · rw [htaken s' hmem, get?_give_self, hself]
          · rw [hkept s' hmem, get?_give_self]
        · rw [htaken s' ((List.mem_cons.1 hs').resolve_left hs), get?_give_other l hs]
      · obtain ⟨hs, hmem⟩ := not_or.1 (mt List.mem_cons.2 hs')
        rw [hstep, hkept s' hmem, get?_give_other l hs]
    · have hstop : takeVariables env (s :: rest) l = (l, some ⟨s.variableName, v, cause⟩) := by
        rw [takeVariables, hread]
      rw [hstop]
      exact ⟨[], s :: rest, rfl, by simp, by simp, fun _ _ => rfl, .inr ⟨s, rest, v, cause, rfl, hmisuses, rfl⟩⟩

end ConfigLayer

namespace Config

/-- Settings from an environment, each taken up or kept. -/
theorem applyEnvironment_cases (c : Config) (env : Environment) :
    ∃ before after, Setting.all = before ++ after ∧ (∀ s ∈ before, ∀ v, ¬env.Misuses s v) ∧
      (∀ s ∈ before, (c.applyEnvironment env).1.get? s = (env.setting? s).or (c.get? s)) ∧
      (∀ s ∉ before, (c.applyEnvironment env).1.get? s = c.get? s) ∧
      (after = [] ∧ (c.applyEnvironment env).2 = none ∨
        ∃ s rest v cause, after = s :: rest ∧ env.Misuses s v ∧
          (c.applyEnvironment env).2 = some ⟨s.variableName, v, cause⟩) := by
  obtain ⟨before, after, hall, hbefore, htaken, hkept, hend⟩ := ConfigLayer.takeVariables_cases env Setting.all {}
  rw [← ConfigLayer.ofEnvironment_eq] at htaken hkept hend
  refine ⟨before, after, hall, hbefore, fun s hs => ?_, fun s hs => ?_, hend⟩
  · rw [applyEnvironment, get?_apply, htaken s hs, ConfigLayer.get?_empty, Option.or_none]
  · rw [applyEnvironment, get?_apply, hkept s hs, ConfigLayer.get?_empty, Option.none_or]

/-- **An environment is taken up to its first variable that means nothing.** It is
refused exactly if one of the variables for the target, the jobs, the time and the
loader has a text that is not empty and means nothing. The first such variable is told,
with its text as it is. The settings before it have the values that their variables
mean, or are as they were if those are empty; it and the settings after it are as they
were. -/
theorem applyEnvironment_up_to_fault (c : Config) (env : Environment) :
    ((∃ f, (c.applyEnvironment env).2 = some f) ↔
      ∃ s ∈ [Setting.target, .jobs, .timeoutMs, .loader], ∃ v, env.Misuses s v) ∧
    ∀ f, (c.applyEnvironment env).2 = some f → ∃ before s after v, Setting.all = before ++ s :: after ∧
      (∀ s' ∈ before, ∀ v', ¬env.Misuses s' v') ∧ env.Misuses s v ∧
      f.variableName = s.variableName ∧ f.value = v ∧
      f.message = "Invalid value '" ++ v ++ "' for " ++ s.variableName ++ ": " ++ f.cause ∧
      (∀ s' ∈ before, ∀ v', env.Gives s' v' →
        ∃ a, s'.Means v' a ∧ (c.applyEnvironment env).1.get? s' = some a) ∧
      (∀ s' ∈ before, (∀ v', ¬env.Gives s' v') → (c.applyEnvironment env).1.get? s' = c.get? s') ∧
      ∀ s' ∈ s :: after, (c.applyEnvironment env).1.get? s' = c.get? s' := by
  obtain ⟨before, after, hall, hbefore, htaken, hkept, hend⟩ := applyEnvironment_cases c env
  refine ⟨⟨?_, ?_⟩, ?_⟩
  · rintro ⟨f, hf⟩
    rcases hend with ⟨-, hnone⟩ | ⟨s, rest, v, cause, -, hmisuses, -⟩
    · cases hnone.symm.trans hf
    · exact ⟨s, Environment.mem_of_misuses hmisuses, v, hmisuses⟩
  · rintro ⟨s, -, v, hmisuses⟩
    rcases hend with ⟨rfl, -⟩ | ⟨s', rest, v', cause, -, -, hfault⟩
    · rw [List.append_nil] at hall
      exact absurd hmisuses (hbefore s (hall ▸ Setting.mem_all s) v)
    · exact ⟨_, hfault⟩
  · intro f hf
    rcases hend with ⟨-, hnone⟩ | ⟨s, rest, v, cause, rfl, hmisuses, hfault⟩
    · cases hnone.symm.trans hf
    · cases hfault.symm.trans hf
      refine ⟨before, s, rest, v, hall, hbefore, hmisuses, rfl, rfl, rfl, fun s' hs' v' hgives => ?_,
        fun s' hs' hnone => ?_, fun s' hs' => hkept s' fun hmem => ?_⟩
      · obtain ⟨a, ha⟩ := not_forall_not.1 fun h => hbefore s' hs' v' ⟨hgives, h⟩
        have hset : env.setting? s' = some a := Environment.setting?_eq_some_iff.2 ⟨v', hgives, ha⟩
        exact ⟨a, ha, by rw [htaken s' hs', hset, Option.some_or]⟩
      · have hset : env.setting? s' = none := by
          rw [Option.eq_none_iff_forall_ne_some]
          intro a ha
          obtain ⟨v', hgives, -⟩ := Environment.setting?_eq_some_iff.1 ha
          exact hnone v' hgives
        rw [htaken s' hs', hset, Option.none_or]
      · have hall' : (before ++ s :: rest).Nodup := hall ▸ (by decide : Setting.all.Nodup)
        exact (List.nodup_append.1 hall').2.2 s' hmem s' hs' rfl

/-- A blank number of jobs, after an empty entry and a target in capitals. -/
theorem applyEnvironment_up_to_fault_blank :
    let c : Config := { defaults 4 with entry := some (.ofString "a.js") }
    let env : Environment := .ofList [("JSPACK_ENTRY", ""), ("JSPACK_OUTPUT_FILENAME", " b.js"),
      ("JSPACK_TARGET", "\u2003ES6\n"), ("JSPACK_JOBS", "  "), ("JSPACK_TIMEOUT_MS", "7"), ("JSPACK_LOADER", "x")]
    (c.applyEnvironment env).2 = some ⟨"JSPACK_JOBS", "  ", "cannot parse integer from empty string"⟩ ∧
    (c.applyEnvironment env).1 = { c with outputFilename := " b.js", target := .es2015 } ∧
    ∃ before after, Setting.all = before ++ .jobs :: after ∧
      (∀ s ∈ before, ∀ v, env.Gives s v → ∃ a, s.Means v a ∧ (c.applyEnvironment env).1.get? s = some a) ∧
      ∀ s ∈ .jobs :: after, (c.applyEnvironment env).1.get? s = c.get? s := by
  intro c env
  have hfault : (c.applyEnvironment env).2 = some ⟨"JSPACK_JOBS", "  ", "cannot parse integer from empty string"⟩ := by
    decide +kernel
  have hjobs : ∀ s : Setting, "JSPACK_JOBS" = s.variableName → s = .jobs := by decide
  obtain ⟨before, s, after, v, hall, -, -, hname, -, -, htaken, -, hkept⟩ :=
    (applyEnvironment_up_to_fault c env).2 _ hfault
  obtain rfl := hjobs s hname
  exact ⟨hfault, by decide +kernel, before, after, hall, htaken, hkept⟩

end Config

end Bundler
