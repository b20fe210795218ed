/-
The two styles of an artifact list the same modules. Each is fixed text around JSON
texts and code (`writeTable_listed`), and what it lists can be read off it
(`readListing_artifactText`): in an eval artifact code is a JSON string, and in a
factory artifact it stands as it is, so that it takes the codes to know where a
module ends there. Read with the codes that the eval artifact has, the factory
artifact lists the same, text for text (`emit_styles_agree`).
-/
import Bundler.Proofs.ArtifactImports
import Bundler.Proofs.ArtifactOrder

namespace Bundler

namespace Artifact

/-! ## What is listed -/

/-- A module as an artifact lists it: the JSON texts of its identity and of its
dependencies, as they stand there, and its code. -/
structure ListedModule where
  name : String
  deps : String
  code : String
deriving DecidableEq, Repr

def ListedModule.ofRecord (r : ModuleRecord) : ListedModule :=
  ⟨Json.quote r.id.text, depsText r.deps, r.code⟩

/-- What an artifact lists: the JSON text of what it starts with, and modules. -/
structure Listing where
  entry : String
  modules : List ListedModule
deriving DecidableEq, Repr

def Listing.of (entry : ModuleId) (records : List ModuleRecord) : Listing :=
  ⟨Json.quote entry.text, records.map .ofRecord⟩

/-- The code that is listed with a name. -/
def Listing.code? (l : Listing) (name : String) : Option String :=
  (l.modules.find? fun m => m.name = name).map (·.code)

/-! ## How it is written -/

/-- What starts a new line after code that does not end in one. -/
def lineEnd (code : String) : String := if code.toList.getLast? = some '\n' then "" else "\n"

/-- A listed module, in the text of an artifact. -/
def ListedModule.text : LoaderStyle → ListedModule → String
  | .eval, m => m.name ++ ":\x7b\"code\":" ++ Json.quote m.code ++ ",\"deps\":" ++ m.deps ++ "\x7d"
  | .factory, m =>
    m.name ++ ": \x7b\ndeps: " ++ m.deps ++ ",\nfactory: function (require, exports) \x7b\n" ++
      m.code ++ lineEnd m.code ++ "\x7d\n\x7d"

/-- What stands before the modules. -/
def tableStart : LoaderStyle → String
  | .eval => "\x7b"
  | .factory => "\x7b\n"

/-- What stands between two modules. -/
def separator : LoaderStyle → String
  | .eval => ","
  | .factory => ",\n"

/-- What stands after the modules. -/
def tableEnd : LoaderStyle → String
  | .eval => "\x7d"
  | .factory => "\n\x7d"

/-- The artifact that lists something, without its banner. -/
def artifactText (style : LoaderStyle) (l : Listing) : String :=
  loaderHead ++ loaderInvoke style ++ loaderTail ++ "  require(" ++ l.entry ++ ");\n\x7d)(" ++
    tableStart style ++ (separator style).intercalate (l.modules.map (·.text style)) ++
    tableEnd style ++ ");\n"

theorem codeLines_eq (code : String) : codeLines code = code ++ lineEnd code := by
  unfold codeLines lineEnd
  split
  · rw [String.append_empty]
  · rfl

theorem factoryUnit_eq (r : ModuleRecord) : factoryUnit r = (ListedModule.ofRecord r).text .factory := by
  simp only [factoryUnit, ListedModule.text, ListedModule.ofRecord, codeLines_eq, String.append_assoc]

theorem memberText_eq (r : ModuleRecord) :
    Json.memberText (evalMember r) = (ListedModule.ofRecord r).text .eval := by
  simp only [memberText_evalMember, recordHead, ListedModule.text, ListedModule.ofRecord,
    String.append_assoc]

theorem evalTable_listed (records : List ModuleRecord) : evalTable records =
    tableStart .eval ++ (separator .eval).intercalate
      ((records.map .ofRecord).map (ListedModule.text .eval)) ++ tableEnd .eval := by
  have hmembers : (records.map evalMember).map Json.memberText =
      (records.map .ofRecord).map (ListedModule.text .eval) := by
    rw [List.map_map, List.map_map]
    exact List.map_congr_left fun r _ => memberText_eq r
  rw [← hmembers]
  rfl

theorem factoryTable_listed {records : List ModuleRecord} (h : records ≠ []) : factoryTable records =
    tableStart .factory ++ (separator .factory).intercalate
      ((records.map .ofRecord).map (ListedModule.text .factory)) ++ tableEnd .factory := by
  have hunits : records.map factoryUnit = (records.map .ofRecord).map (ListedModule.text .factory) := by
    rw [List.map_map]
    exact List.map_congr_left fun r _ => factoryUnit_eq r
  rw [factoryTable, hunits, List.isEmpty_eq_false_iff.2 h, if_neg Bool.false_ne_true, String.append_assoc]
  rfl

/-- **However the modules of a table are put in order and written**, they are
listed with one separator between two of them. -/
theorem writeTable_listed {t : ModuleTable} (hn : t.ids.Nodup) (h : t.records ≠ []) (style : LoaderStyle) :
    writeTable style t = tableStart style ++ (separator style).intercalate
      ((t.sort.records.map .ofRecord).map (ListedModule.text style)) ++ tableEnd style := by
  rw [writeTable_eq hn]
  cases style with
  | eval => exact evalTable_listed _
  | factory => exact factoryTable_listed (ModuleTable.sort_ne_nil h)

/-! ## How it is read -/

/-- The text of a JSON value, and what follows it. -/
def jsonText? (text : List Char) : Option (String × List Char) := do
  let (_, rest) ← Json.readValue text.length text
  some (String.ofList (text.take (text.length - rest.length)), rest)

/-- A listed module. In a factory artifact nothing marks the end of the code, so
it takes what the code is. -/
def readModule (style : LoaderStyle) (code? : String → Option String) (text : List Char) :
    Option (ListedModule × List Char) := do
  let (name, rest) ← jsonText? text
  match style with
  | .eval =>
    let rest ← expect ":\x7b\"code\":" rest
    let (code, rest) ← Json.readString rest
    let rest ← expect ",\"deps\":" rest
    let (deps, rest) ← jsonText? rest
    let rest ← expect "\x7d" rest
    some (⟨name, deps, code⟩, rest)
  | .factory =>
    let rest ← expect ": \x7b\ndeps: " rest
    let (deps, rest) ← jsonText? rest
    let rest ← expect ",\nfactory: function (require, exports) \x7b\n" rest
    let code ← code? name
    let rest ← expect (code ++ lineEnd code) rest
    let rest ← expect "\x7d\n\x7d" rest
    some (⟨name, deps, code⟩, rest)

/-- Listed modules, up to the end of the artifact. The number bounds them. -/
def readModules (style : LoaderStyle) (code? : String → Option String) :
    Nat → List Char → Option (List ListedModule)
  | 0, _ => none
  | limit + 1, text => do
    let (m, rest) ← readModule style code? text
    match expect (separator style) rest with
    | some rest =>
      let ms ← readModules style code? limit rest
      some (m :: ms)
    | none => if rest = (tableEnd style ++ ");\n").toList then some [m] else none

/-- Reads what an artifact without its banner lists. -/
def readListing (style : LoaderStyle) (code? : String → Option String) (text : String) : Option Listing := do
  let rest ← expect (loaderHead ++ loaderInvoke style ++ loaderTail ++ "  require(") text.toList
  let (entry, rest) ← jsonText? rest
  let rest ← expect (");\n\x7d)(" ++ tableStart style) rest
  let modules ← readModules style code? rest.length rest
  some ⟨entry, modules⟩

theorem jsonText?_append {text : String} {value : JsonValue} (h : Json.Reads text value) (rest : List Char) :
    jsonText? (text.toList ++ rest) = some (text, rest) := by
  have hlength : text.length ≤ (text.toList ++ rest).length := by
    rw [List.length_append, String.length_toList]
    exact Nat.le_add_right _ _
  have htake : (text.toList ++ rest).take ((text.toList ++ rest).length - rest.length) = text.toList := by
    rw [List.length_append, Nat.add_sub_cancel, List.take_left]
  simp only [jsonText?, h _ rest hlength, htake, Option.bind_eq_bind, Option.bind_some, String.ofList_toList]

/-- A module can be read where it is listed: the texts are JSON, and the code is
known if need be. -/
def Readable (style : LoaderStyle) (code? : String → Option String) (m : ListedModule) : Prop :=
  (∃ value, Json.Reads m.name value) ∧ (∃ value, Json.Reads m.deps value) ∧
    (style = .factory → code? m.name = some m.code)

variable {style : LoaderStyle} {code? : String → Option String}

theorem readModule_text {m : ListedModule} (h : Readable style code? m) (rest : List Char) :
    readModule style code? ((m.text style).toList ++ rest) = some (m, rest) := by
  obtain ⟨⟨_, hname⟩, ⟨_, hdeps⟩, hcode⟩ := h
  cases style with
  | eval =>
    simp only [readModule, ListedModule.text, String.toList_append, List.append_assoc, expect_append,
      jsonText?_append hname, jsonText?_append hdeps, Json.readString_quote, Option.bind_eq_bind,
      Option.bind_some]
  | factory =>
    have hlines : expect (m.code ++ lineEnd m.code) (m.code.toList ++ ((lineEnd m.code).toList ++
        ("\x7d\n\x7d".toList ++ rest))) = some ("\x7d\n\x7d".toList ++ rest) := by
      rw [← List.append_assoc, ← String.toList_append, expect_append]
    simp only [readModule, ListedModule.text, String.toList_append, List.append_assoc, expect_append,
      jsonText?_append hname, jsonText?_append hdeps, hcode rfl, hlines, Option.bind_eq_bind,
      Option.bind_some]

/-- A separator is told from the end of the artifact. -/
theorem expect_separator_end (style : LoaderStyle) :
    expect (separator style) (tableEnd style ++ ");\n").toList = none := by cases style <;> decide

theorem readModules_intercalate : ∀ {ms : List ListedModule} (limit : Nat), ms ≠ [] →
    (∀ m ∈ ms, Readable style code? m) → ms.length ≤ limit →
    readModules style code? limit (((separator style).intercalate (ms.map (·.text style))).toList ++
      (tableEnd style ++ ");\n").toList) = some ms
  | [], _, h, _, _ => absurd rfl h
  | _ :: _, 0, _, _, hl => absurd hl (Nat.not_succ_le_zero _)
  | [m], limit + 1, _, h, _ => by
    rw [List.map_cons, List.map_nil, String.intercalate_singleton, readModules,
      readModule_text (h m List.mem_cons_self)]
    simp only [expect_separator_end, Option.bind_eq_bind, Option.bind_some, if_true]
  | m :: m' :: ms, limit + 1, _, h, hl => by
    have htail := readModules_intercalate limit (List.cons_ne_nil m' ms)
      (fun x hx => h x (List.mem_cons_of_mem m hx)) (Nat.le_of_succ_le_succ hl)
    rw [List.map_cons] at htail
    rw [List.map_cons, List.map_cons, String.intercalate_cons_cons, String.toList_append,
      String.toList_append, List.append_assoc, List.append_assoc, readModules,
      readModule_text (h m List.mem_cons_self)]
    simp only [expect_append, htail, Option.bind_eq_bind, Option.bind_some]

/-- Texts with separators between them are as long as they are many. -/
theorem length_le_intercalate {separator : String} (h : 0 < separator.length) : ∀ texts : List String,
    texts.length ≤ (separator.intercalate texts).length + 1
  | [] => Nat.zero_le _
  | [_] => Nat.le_add_left 1 _
  | text :: text' :: texts => by
    have htail := length_le_intercalate h (text' :: texts)
    rw [String.intercalate_cons_cons, String.length_append, String.length_append, List.length_cons]
    omega

/-- **What an artifact lists is read off it**, in either style. -/
theorem readListing_artifactText {l : Listing} (hentry : ∃ value, Json.Reads l.entry value)
    (hne : l.modules ≠ []) (h : ∀ m ∈ l.modules, Readable style code? m) :
    readListing style code? (artifactText style l) = some l := by
  obtain ⟨value, hentry⟩ := hentry
  have htext : (artifactText style l).toList =
      (loaderHead ++ loaderInvoke style ++ loaderTail ++ "  require(").toList ++ (l.entry.toList ++
        ((");\n\x7d)(" ++ tableStart style).toList ++
          (((separator style).intercalate (l.modules.map (·.text style))).toList ++
            (tableEnd style ++ ");\n").toList))) := by
    simp only [artifactText, String.toList_append, List.append_assoc]
  have hlimit : l.modules.length ≤ (((separator style).intercalate (l.modules.map (·.text style))).toList ++
      (tableEnd style ++ ");\n").toList).length := by
    have hseparator : 0 < (separator style).length := by cases style <;> decide
    have hmany := length_le_intercalate hseparator (l.modules.map (·.text style))
    have hend : 0 < (tableEnd style ++ ");\n").toList.length := by cases style <;> decide
    rw [List.length_map] at hmany
    rw [List.length_append, String.length_toList]
    omega
  simp only [readListing, htext, expect_append, jsonText?_append hentry, readModules_intercalate _ hne h hlimit,
    Option.bind_eq_bind, Option.bind_some]

/-! ## Artifacts -/

theorem quote_inj {s s' : String} (h : Json.quote s = Json.quote s') : s = s' := by
  have hread := Json.readString_quote s []
  rw [h, Json.readString_quote s' [], Option.some_inj, Prod.mk.injEq] at hread
  exact hread.1.symm

/-- The code of a module that is listed, where each name is listed once. -/
theorem code?_of_mem {l : Listing} (hn : (l.modules.map (·.name)).Nodup) {m : ListedModule}
    (hm : m ∈ l.modules) : l.code? m.name = some m.code := by
  unfold Listing.code?
  cases hf : l.modules.find? fun m' => m'.name = m.name with
  | none => exact absurd (decide_eq_true rfl) (List.find?_eq_none.1 hf m hm)
  | some m' =>
    have hname : m'.name = m.name := by simpa using List.find?_some hf
    rw [List.inj_on_of_nodup_map hn (List.mem_of_find?_eq_some hf) hm hname]
    rfl

theorem names_nodup {records : List ModuleRecord} (h : (records.map (·.id)).Nodup) (entry : ModuleId) :
    ((Listing.of entry records).modules.map (·.name)).Nodup := by
  have hnames : (Listing.of entry records).modules.map (·.name) =
      (records.map (·.id)).map fun id => Json.quote id.text := by
    rw [Listing.of, List.map_map, List.map_map]
    rfl
  rw [hnames]
  exact h.map fun _ _ hquote => ModuleId.eq_of_text (quote_inj hquote)

/-- What is listed of records can be read, with the codes that are listed. -/
theorem readable_of_mem {records : List ModuleRecord} (h : (records.map (·.id)).Nodup) (entry : ModuleId)
    (hcode : style = .factory → code? = (Listing.of entry records).code?) {m : ListedModule}
    (hm : m ∈ (Listing.of entry records).modules) : Readable style code? m := by
  obtain ⟨r, -, rfl⟩ := List.mem_map.1 hm
  refine ⟨⟨_, .quote r.id.text⟩, ⟨_, reads_depsText r.deps⟩, fun hstyle => ?_⟩
  rw [hcode hstyle]
  exact code?_of_mem (names_nodup h entry) hm

/-- The styles refuse the same tables, for the same reason. -/
theorem emit_error_style {entry : ModuleId} {t : ModuleTable} {e : EmitError} {style : LoaderStyle}
    (h : emit entry t style = .error e) (style' : LoaderStyle) : emit entry t style' = .error e := by
  simp only [emit] at h ⊢
  split_ifs at h ⊢ with hentry
  · exact h
  · cases hmissing : t.missingDependencies with
    | nil => rw [hmissing] at h; cases h
    | cons d ds => rw [hmissing] at h; exact h

/-- An artifact is what writes the listing of its modules. -/
theorem withoutBanner_emit_listed {entry : ModuleId} {t : ModuleTable} {style : LoaderStyle} {bundle : Bundle}
    (h : emit entry t style = .ok bundle) (hn : t.ids.Nodup) (hne : t.records ≠ []) :
    withoutBanner bundle.text = some (artifactText style (.of entry t.sort.records)) := by
  rw [withoutBanner_emit h, body, ← writeTable_eq hn, writeTable_listed hn hne, Option.some_inj]
  simp only [artifactText, entryCall, Listing.of, String.append_assoc]

/-- **The two styles of an artifact agree**, on every table that insertions and
sorting make and every entry. They are refused together, for the same reason, or
both are made and list the same: the same JSON text for the entry, and for each
module of the table once, in the ascending order of identities, the same JSON
texts for its identity and its dependencies. Each is the text that writes this
listing, by its own way to put modules in order and to separate them. The eval
artifact is read as it, and so is the factory artifact, if it is known which code
each module has. -/
theorem emit_styles_agree (edits : List ModuleTable.Edit) (entry : ModuleId) :
    let t := ModuleTable.ofEdits edits
    (∃ e, ∀ style, emit entry t style = .error e) ∨
    ∃ records, records.Perm t.records ∧ ModuleRecord.Ascending records ∧
      let listing := Listing.of entry records
      (∀ style, ∃ bundle, emit entry t style = .ok bundle ∧
        withoutBanner bundle.text = some (artifactText style listing) ∧
        writeTable style t = tableStart style ++
          (separator style).intercalate (listing.modules.map (·.text style)) ++ tableEnd style) ∧
      readListing .eval (fun _ => none) (artifactText .eval listing) = some listing ∧
      readListing .factory listing.code? (artifactText .factory listing) = some listing := by
  intro t
  have hn : t.ids.Nodup := ModuleTable.ofEdits_nodup edits
  cases hemit : emit entry t .eval with
  | error e => exact .inl ⟨e, emit_error_style hemit⟩
  | ok bundle =>
    have hmade : ∀ style, ∃ bundle, emit entry t style = .ok bundle := by
      intro style
      cases h : emit entry t style with
      | error e => rw [emit_error_style h .eval] at hemit; cases hemit
      | ok bundle => exact ⟨bundle, rfl⟩
    have hne : t.records ≠ [] := by
      intro hnil
      have hno : entry ∉ t.ids := by rw [ModuleTable.ids, hnil]; exact List.not_mem_nil
      rw [emit_of_not_mem hno] at hemit
      cases hemit
    have hmodules : (Listing.of entry t.sort.records).modules ≠ [] := fun hnil =>
      ModuleTable.sort_ne_nil hne (List.map_eq_nil_iff.1 hnil)
    have hids : (t.sort.records.map (·.id)).Nodup := (ModuleTable.sort_ascending hn).nodup
    have hentry : ∃ value, Json.Reads (Listing.of entry t.sort.records).entry value := ⟨_, .quote entry.text⟩
    refine .inr ⟨t.sort.records, t.sort_perm, ModuleTable.sort_ascending hn, ?_, ?_, ?_⟩
    · intro style
      obtain ⟨bundle, h⟩ := hmade style
      exact ⟨bundle, h, withoutBanner_emit_listed h hn hne, writeTable_listed hn hne style⟩
    · refine readListing_artifactText hentry hmodules fun m hm => readable_of_mem hids entry ?_ hm
      exact fun h => absurd h (by decide)
    · exact readListing_artifactText hentry hmodules fun m hm => readable_of_mem hids entry (fun _ => rfl) hm

end Artifact

end Bundler
