/-
What an artifact holds can be read back from its text. The banner is a comment
that nothing in it ends early (`withoutBanner_banner`). The rest is fixed text
around a JSON string and a JSON value, which are read as the entry and as the
modules of the table, whatever characters their texts have (`readBody_body`).
-/
import Bundler.Proofs.Digests
import Bundler.Proofs.JsonReading
import Bundler.Proofs.SessionDeterminism

namespace Bundler

namespace Artifact

/-! ## The banner -/

/-- What follows the end of a comment. -/
def commentEnd? : List Char → Option (List Char)
  | '*' :: '/' :: rest => some rest
  | _ :: rest => commentEnd? rest
  | [] => none

/-- What follows a fixed text. -/
def expect (text : String) (cs : List Char) : Option (List Char) := cs.dropPrefix? text.toList

/-- A text without the comment that it starts with, and the end of its line. -/
def withoutBanner (text : String) : Option String := do
  let rest ← expect "/*" text.toList
  let rest ← commentEnd? rest
  let rest ← expect "\n" rest
  some (String.ofList rest)

theorem expect_append (text : String) (rest : List Char) :
    expect text (text.toList ++ rest) = some rest :=
  List.dropPrefix?_append_of_beq rest (beq_self_eq_true _)

theorem commentEnd?_cons {c : Char} {rest : List Char} (h : c = '*' → rest.head? ≠ some '/') :
    commentEnd? (c :: rest) = commentEnd? rest := by
  rw [commentEnd?.eq_2]
  rintro rest' rfl rfl
  exact h rfl rfl

theorem commentEnd?_append {cs : List Char} (h : '*' ∉ cs) (rest : List Char) :
    commentEnd? (cs ++ rest) = commentEnd? rest := by
  induction cs with
  | nil => rfl
  | cons c cs ih =>
    rw [List.mem_cons, not_or] at h
    rw [List.cons_append, commentEnd?_cons fun hc => absurd hc.symm h.1, ih h.2]

theorem head?_inComment (cs : List Char) : (inComment cs).head? = cs.head? := by
  fun_cases inComment cs <;> rfl

/-- A text in a comment does not end it. -/
theorem commentEnd?_inComment (cs rest : List Char) :
    commentEnd? (inComment cs ++ ' ' :: rest) = commentEnd? rest := by
  fun_induction inComment cs with
  | case1 cs ih =>
    rw [List.cons_append, commentEnd?_cons (by simp), List.cons_append, commentEnd?_cons (by simp),
      List.cons_append, commentEnd?_cons (by simp), ih]
  | case2 c cs hne ih =>
    rw [List.cons_append, commentEnd?_cons, ih]
    rintro rfl hslash
    rw [List.head?_append, head?_inComment] at hslash
    cases cs with
    | nil => simp at hslash
    | cons d ds =>
      have hd : d = '/' := by simpa using hslash
      subst hd
      exact hne ds rfl rfl
  | case3 => exact commentEnd?_cons (by simp)

/-- The banner from after the entry to where it ends. -/
def bannerRest (count : Nat) (style : LoaderStyle) (hash : String) : String :=
  "| " ++ toString count ++ " modules | loader " ++ style.name ++ " | sha256 " ++ shortHash hash 16 ++ " "

/-- The banner from after what opens it to before what ends it. -/
def bannerInside (entry : ModuleId) (count : Nat) (style : LoaderStyle) (hash : String) : List Char :=
  " jspack 0.3.0 | entry ".toList ++ (inComment entry.text.toList ++
    ' ' :: (bannerRest count style hash).toList)

theorem banner_toList (entry : ModuleId) (count : Nat) (style : LoaderStyle) (hash : String) :
    (banner entry count style hash).toList =
      "/*".toList ++ (bannerInside entry count style hash ++ '*' :: '/' :: "\n".toList) := by
  have hstart : "/* jspack 0.3.0 | entry ".toList =
      "/*".toList ++ " jspack 0.3.0 | entry ".toList := by decide
  have hentry : " | ".toList = ' ' :: "| ".toList := by decide
  have hend : " */\n".toList = " ".toList ++ '*' :: '/' :: "\n".toList := by decide
  unfold banner bannerInside
  simp only [bannerRest, String.toList_append, String.toList_ofList, hstart, hentry, hend,
    List.append_assoc, List.cons_append]

/-- What stands after the entry has no stars and no line ends. -/
theorem not_mem_bannerRest {c : Char} (hc : c = '*' ∨ c = '\n') {hash : String} (h : IsHex hash) (count : Nat)
    (style : LoaderStyle) : c ∉ (bannerRest count style hash).toList := by
  have hdigits : c ∉ Nat.toDigits 10 count := by
    intro hm
    have hdigit := Nat.isDigit_of_mem_toDigits (b := 10) (by omega) le_rfl hm
    rcases hc with rfl | rfl <;> cases hdigit
  have hstyle : c ∉ style.name.toList := by
    rcases hc with rfl | rfl <;> cases style <;> decide
  have hhash : c ∉ (shortHash hash 16).toList := by
    intro hm
    have hhex := h c (mem_of_mem_shortHash h hm)
    rcases hc with rfl | rfl <;> exact absurd hhex (by decide)
  rcases hc with rfl | rfl <;> simp [bannerRest, hdigits, hstyle, hhash]

/-- Nothing in the banner ends it. -/
theorem commentEnd?_bannerInside {hash : String} (h : IsHex hash) (entry : ModuleId) (count : Nat)
    (style : LoaderStyle) (rest : List Char) :
    commentEnd? (bannerInside entry count style hash ++ '*' :: '/' :: rest) = some rest := by
  have hstart : '*' ∉ " jspack 0.3.0 | entry ".toList := by decide
  unfold bannerInside
  rw [List.append_assoc, List.append_assoc, List.cons_append, commentEnd?_append hstart,
    commentEnd?_inComment, commentEnd?_append (not_mem_bannerRest (.inl rfl) h count style)]
  exact commentEnd?.eq_1 rest

/-- **The banner is taken off as a comment**, whatever the entry is. -/
theorem withoutBanner_banner {hash : String} (h : IsHex hash) (entry : ModuleId) (count : Nat)
    (style : LoaderStyle) (rest : String) :
    withoutBanner (banner entry count style hash ++ rest) = some rest := by
  simp only [withoutBanner, String.toList_append, banner_toList, List.append_assoc, List.cons_append,
    expect_append, commentEnd?_bannerInside h, Option.bind_eq_bind, Option.bind_some, String.ofList_toList]

/-! ## The contents -/

/-- What an artifact stores of a record. -/
structure StoredModule where
  id : ModuleId
  code : String
  deps : DependencyMap
deriving DecidableEq, Repr

def StoredModule.ofRecord (r : ModuleRecord) : StoredModule := ⟨r.id, r.code, r.deps⟩

/-- What an artifact stores: where it starts, and modules. -/
structure Contents where
  entry : ModuleId
  modules : List StoredModule
deriving DecidableEq, Repr

def dependency? : String × JsonValue → Option (String × ModuleId)
  | (specifier, .string target) => some (specifier, ⟨target⟩)
  | _ => none

/-- A module from a member with its identity as the name. -/
def storedModule? : String × JsonValue → Option StoredModule
  | (id, .object [("code", .string code), ("deps", .object deps)]) => do
    some ⟨⟨id⟩, code, ← deps.mapM dependency?⟩
  | _ => none

/-- The modules that a JSON value stands for. -/
def storedModules? : JsonValue → Option (List StoredModule)
  | .object members => members.mapM storedModule?
  | _ => none

/-- Reads an eval artifact without its banner. It is all read: only the text
that ends it follows the modules. -/
def readBody (text : String) : Option Contents := do
  let rest ← expect (loaderHead ++ loaderInvoke .eval ++ loaderTail ++ "  require(") text.toList
  let (entry, rest) ← Json.readString rest
  let rest ← expect ");\n\x7d)(" rest
  let (table, rest) ← Json.readValue rest.length rest
  let modules ← storedModules? table
  if rest = ");\n".toList then some ⟨⟨entry⟩, modules⟩ else none

/-! ## What is read of a table -/

/-- The member that a dependency is read as. -/
def dependencyMember (d : String × ModuleId) : String × JsonValue := (d.1, .string d.2.text)

/-- The member that a record is read as. -/
def recordMember (r : ModuleRecord) : String × JsonValue :=
  (r.id.text, .object [("code", .string r.code), ("deps", .object (r.deps.map dependencyMember))])

theorem reads_depsText (deps : DependencyMap) :
    Json.Reads (depsText deps) (.object (deps.map dependencyMember)) := by
  apply Json.Reads.object
  rw [List.forall₂_map_left_iff, List.forall₂_map_right_iff, List.forall₂_same]
  exact fun d _ => ⟨rfl, .quote d.2.text⟩

theorem reads_evalTable (records : List ModuleRecord) :
    Json.Reads (evalTable records) (.object (records.map recordMember)) := by
  apply Json.Reads.object
  rw [List.forall₂_map_left_iff, List.forall₂_map_right_iff, List.forall₂_same]
  intro r _
  refine ⟨rfl, .object ?_⟩
  exact .cons ⟨rfl, .quote r.code⟩ (.cons ⟨rfl, reads_depsText r.deps⟩ .nil)

/-- Reading undoes writing on a list if it does on each item. -/
theorem mapM_map {α β γ : Type} {write : α → β} {read : β → Option γ} (f : α → γ)
    (h : ∀ a, read (write a) = some (f a)) : ∀ l : List α, (l.map write).mapM read = some (l.map f)
  | [] => rfl
  | a :: l => by
    rw [List.map_cons, List.mapM_cons, h, mapM_map f h l]
    rfl

theorem dependencies_read (deps : DependencyMap) :
    (deps.map dependencyMember).mapM dependency? = some deps := by
  have hread : ∀ d, dependency? (dependencyMember d) = some (id d) := fun _ => rfl
  rw [mapM_map id hread, List.map_id]

theorem storedModule?_recordMember (r : ModuleRecord) :
    storedModule? (recordMember r) = some (.ofRecord r) := by
  simp only [storedModule?, recordMember, dependencies_read, Option.bind_eq_bind, Option.bind_some]
  rfl

theorem storedModules?_records (records : List ModuleRecord) :
    storedModules? (.object (records.map recordMember)) = some (records.map .ofRecord) :=
  mapM_map StoredModule.ofRecord storedModule?_recordMember records

theorem body_toList (entry : ModuleId) (table : ModuleTable) :
    (body entry table .eval).toList =
      (loaderHead ++ loaderInvoke .eval ++ loaderTail ++ "  require(").toList ++
        ((Json.quote entry.text).toList ++ (");\n\x7d)(".toList ++
          ((evalTable table.sort.records).toList ++ ");\n".toList))) := by
  simp only [body, entryCall, tableText, String.toList_append, List.append_assoc]

/-- **The body of an eval artifact is read as its entry and its modules.** -/
theorem readBody_body (entry : ModuleId) (table : ModuleTable) :
    readBody (body entry table .eval) = some ⟨entry, table.sort.records.map .ofRecord⟩ := by
  have hlength : (evalTable table.sort.records).length ≤
      ((evalTable table.sort.records).toList ++ ");\n".toList).length := by
    rw [List.length_append, String.length_toList]
    exact Nat.le_add_right _ _
  simp only [readBody, body_toList, expect_append, Json.readString_quote,
    reads_evalTable table.sort.records _ _ hlength, storedModules?_records, Option.bind_eq_bind,
    Option.bind_some, if_true]

/-! ## Artifacts -/

theorem emit_ok {entry : ModuleId} {table : ModuleTable} {style : LoaderStyle} {bundle : Bundle}
    (h : emit entry table style = .ok bundle) :
    let text := body entry table style
    bundle = ⟨banner entry table.records.length style (sha256 (Utf8.encode text)) ++ text,
      sha256 (Utf8.encode text), table.records.length⟩ := by
  simp only [emit] at h
  split_ifs at h
  split at h
  · cases h
  · exact (Except.ok.inj h).symm

theorem withoutBanner_emit {entry : ModuleId} {table : ModuleTable} {style : LoaderStyle}
    {bundle : Bundle} (h : emit entry table style = .ok bundle) :
    withoutBanner bundle.text = some (body entry table style) := by
  rw [emit_ok h]
  exact withoutBanner_banner (sha256_isHex _) _ _ _ _

/-- **An eval artifact can be decoded**, whatever characters are in identities,
specifiers and code: what follows the comment at its start is read, to its end,
as the entry and the modules of the table in the order of their identities,
each with its code and with its dependencies in their order. So two artifacts
that are the same after the banner are of the same entry and modules. -/
theorem emit_decodes {entry : ModuleId} {table : ModuleTable} {bundle : Bundle}
    (h : emit entry table .eval = .ok bundle) :
    withoutBanner bundle.text = some (body entry table .eval) ∧
    readBody (body entry table .eval) = some ⟨entry, table.sort.records.map .ofRecord⟩ ∧
    table.sort.records.Perm table.records ∧
    ∀ {entry' : ModuleId} {table' : ModuleTable} {bundle' : Bundle},
      emit entry' table' .eval = .ok bundle' →
      withoutBanner bundle'.text = withoutBanner bundle.text →
      entry' = entry ∧
        (table'.records.map StoredModule.ofRecord).Perm (table.records.map .ofRecord) := by
  refine ⟨withoutBanner_emit h, readBody_body entry table, table.sort_perm, ?_⟩
  intro entry' table' bundle' h' hsame
  rw [withoutBanner_emit h', withoutBanner_emit h, Option.some_inj] at hsame
  have hread := readBody_body entry' table'
  rw [hsame, readBody_body entry table, Option.some_inj, Contents.mk.injEq] at hread
  obtain ⟨hentry, hmodules⟩ := hread
  refine ⟨hentry.symm, ?_⟩
  calc table'.records.map StoredModule.ofRecord
    _ |>.Perm (table'.sort.records.map .ofRecord) := (table'.sort_perm.map _).symm
    _ = table.sort.records.map .ofRecord := hmodules.symm
    _ |>.Perm (table.records.map .ofRecord) := table.sort_perm.map _

/-- Two modules that require each other, whose texts imitate what is around
them. -/
theorem emit_decodes_imitation :
    let entry : ModuleId := ⟨"/m*/\");\n\x7d)(.js"⟩
    let other : ModuleId := ⟨"/\\u2028\u2028\x00.js"⟩
    let table : ModuleTable := ⟨[⟨entry, "\",\"deps\":\x7b\x7d\x7d", [("\":\"", other), ("\\", entry)], ""⟩,
      ⟨other, loaderHead, [("./m", entry)], ""⟩]⟩
    ∃ bundle modules, emit entry table .eval = .ok bundle ∧
      (withoutBanner bundle.text).bind readBody = some ⟨entry, modules⟩ ∧
      modules.Perm [⟨entry, "\",\"deps\":\x7b\x7d\x7d", [("\":\"", other), ("\\", entry)]⟩,
        ⟨other, loaderHead, [("./m", entry)]⟩] := by
  intro entry other table
  obtain ⟨bundle, h⟩ := emit_of_closed (show entry ∈ table.ids by decide)
    (show table.missingDependencies = [] by decide) .eval
  obtain ⟨hbody, hread, hperm, -⟩ := emit_decodes h
  refine ⟨bundle, _, h, ?_, hperm.map StoredModule.ofRecord⟩
  rw [hbody, Option.bind_some, hread]

end Artifact

end Bundler
