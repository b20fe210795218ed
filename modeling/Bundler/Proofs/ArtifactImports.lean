/-
What imports mean to the loader in an artifact. It looks a specifier up among
the own properties of an object literal, which has the dependencies of a record
as its members. That gives what the dependencies say
(`localRequire_eq_resolve`), but for one specifier: a member `__proto__` of a
literal makes no property (`localRequire_proto`).
-/
import Bundler.Loader
import Bundler.Proofs.ArtifactContents
import Bundler.Proofs.IdentityPaths

namespace Bundler

namespace Artifact

/-! ## Object literals -/

/-- The members of an object literal whose values are identities. Strings are
written in a literal as they are in JSON. -/
def literalMembers? (text : String) : Option (List (String × ModuleId)) :=
  match Json.readValue text.length text.toList with
  | some (.object members, []) => members.mapM dependency?
  | _ => none

/-- The own property with a name of the object that a literal makes. The last
member with the name counts, and `__proto__` names the prototype instead of a
property. -/
def ownProperty? {α : Type} (members : List (String × α)) (name : String) : Option α :=
  if name = "__proto__" then none else (members.reverse.find? fun m => m.1 = name).map (·.2)

/-- The module that an import means to the loader: the own property of the
dependencies that it names. -/
def localRequire (members : List (String × ModuleId)) (importer : ModuleId) (specifier : String) :
    Except LoadError ModuleId :=
  match ownProperty? members specifier with
  | some target => .ok target
  | none => .error (.unknownSpecifier importer specifier)

theorem literalMembers?_depsText (deps : DependencyMap) :
    literalMembers? (depsText deps) = some deps := by
  have hread := reads_depsText deps (depsText deps).length [] (Nat.le_refl _)
  rw [List.append_nil] at hread
  simp only [literalMembers?, hread, dependencies_read]

/-- Where each name occurs once, it does not matter from which end it is looked
for. -/
theorem find?_reverse {α : Type} (name : String) : ∀ {members : List (String × α)},
    (members.map (·.1)).Nodup →
    (members.reverse.find? fun m => m.1 = name) = members.find? fun m => m.1 = name
  | [], _ => rfl
  | (n, v) :: rest, h => by
    obtain ⟨hn, hrest⟩ := List.nodup_cons.1 h
    rw [List.reverse_cons, List.find?_append, find?_reverse name hrest]
    by_cases hname : n = name
    · subst hname
      have hnone : (rest.find? fun m => m.1 = n) = none := by
        rw [List.find?_eq_none]
        intro m hm hmn
        exact hn (List.mem_map.2 ⟨m, hm, of_decide_eq_true hmn⟩)
      simp [hnone]
    · simp [hname]

theorem ownProperty?_eq_get? {deps : DependencyMap} (h : deps.Distinct) {specifier : String}
    (hs : specifier ≠ "__proto__") : ownProperty? deps specifier = deps.get? specifier := by
  rw [ownProperty?, if_neg hs, find?_reverse specifier h, DependencyMap.get?]

/-- The loader takes a specifier for what the dependencies say. -/
theorem localRequire_eq_resolve {deps : DependencyMap} (h : deps.Distinct) (importer : ModuleId)
    {specifier : String} (hs : specifier ≠ "__proto__") :
    localRequire deps importer specifier = deps.resolve importer specifier := by
  have hown := ownProperty?_eq_get? h hs
  cases hget : deps.get? specifier with
  | none => simp only [localRequire, DependencyMap.resolve, hown, hget]
  | some target => simp only [localRequire, DependencyMap.resolve, hown, hget]

theorem localRequire_proto (members : List (String × ModuleId)) (importer : ModuleId) :
    localRequire members importer "__proto__" = .error (.unknownSpecifier importer "__proto__") := rfl

/-! ## Where the dependencies are in an artifact -/

/-- What stands before the dependencies of a record. -/
def recordHead : LoaderStyle → ModuleRecord → String
  | .eval, r => Json.quote r.id.text ++ ":\x7b\"code\":" ++ Json.quote r.code ++ ",\"deps\":"
  | .factory, r => Json.quote r.id.text ++ ": \x7b\ndeps: "

/-- A text is part of another. -/
def Occurs (part text : String) : Prop := ∃ before after, text = before ++ part ++ after

theorem Occurs.trans {part text whole : String} (h : Occurs part text) (h' : Occurs text whole) :
    Occurs part whole := by
  obtain ⟨b, a, rfl⟩ := h
  obtain ⟨b', a', rfl⟩ := h'
  exact ⟨b' ++ b, a ++ a', by simp only [String.append_assoc]⟩

theorem occurs_intercalate (separator : String) {text : String} : ∀ {texts : List String},
    text ∈ texts → Occurs text (separator.intercalate texts)
  | [t], h => by
    rw [List.mem_singleton.1 h, String.intercalate_singleton]
    exact ⟨"", "", by simp⟩
  | t :: t' :: texts, h => by
    rw [String.intercalate_cons_cons]
    rcases List.mem_cons.1 h with rfl | h
    · exact ⟨"", separator ++ separator.intercalate (t' :: texts), by simp [String.append_assoc]⟩
    · exact (occurs_intercalate separator h).trans ⟨t ++ separator, "", by simp⟩

/-- A record as a member of the table of an eval artifact. -/
def evalMember (r : ModuleRecord) : String × String :=
  (r.id.text, Json.object [("code", Json.quote r.code), ("deps", depsText r.deps)])

theorem memberText_evalMember (r : ModuleRecord) :
    Json.memberText (evalMember r) = recordHead .eval r ++ depsText r.deps ++ "\x7d" := by
  have hcode : Json.quote "code" = "\"code\"" := by decide
  have hdeps : Json.quote "deps" = "\"deps\"" := by decide
  apply String.toList_inj.1
  simp [evalMember, Json.memberText, Json.object_eq, Json.membersText_cons_cons,
    Json.membersText_singleton, recordHead, hcode, hdeps]

theorem occurs_evalTable {records : List ModuleRecord} {r : ModuleRecord} (hr : r ∈ records) :
    Occurs (recordHead .eval r ++ depsText r.deps) (evalTable records) := by
  have hrecord : Occurs (recordHead .eval r ++ depsText r.deps) (Json.memberText (evalMember r)) :=
    ⟨"", "\x7d", by rw [memberText_evalMember, String.empty_append]⟩
  have hmembers : Occurs (Json.memberText (evalMember r)) (Json.membersText (records.map evalMember)) :=
    occurs_intercalate "," (List.mem_map_of_mem (List.mem_map_of_mem hr))
  exact (hrecord.trans hmembers).trans ⟨"\x7b", "\x7d", rfl⟩

theorem occurs_factoryTable {records : List ModuleRecord} {r : ModuleRecord} (hr : r ∈ records) :
    Occurs (recordHead .factory r ++ depsText r.deps) (factoryTable records) := by
  have hrecord : Occurs (recordHead .factory r ++ depsText r.deps) (factoryUnit r) :=
    ⟨"", ",\nfactory: function (require, exports) \x7b\n" ++ codeLines r.code ++ "\x7d\n\x7d", by
      simp [factoryUnit, recordHead, String.append_assoc]⟩
  have hunits : Occurs (factoryUnit r) (",\n".intercalate (records.map factoryUnit)) :=
    occurs_intercalate ",\n" (List.mem_map_of_mem hr)
  exact (hrecord.trans hunits).trans ⟨"\x7b\n", _, by rw [factoryTable, String.append_assoc]⟩

/-- The dependencies of each record are in the artifact after the head of the
record. -/
theorem occurs_emit {entry : ModuleId} {table : ModuleTable} {style : LoaderStyle} {bundle : Bundle}
    (h : emit entry table style = .ok bundle) {r : ModuleRecord} (hr : r ∈ table.records) :
    Occurs (recordHead style r ++ depsText r.deps) bundle.text := by
  have hsort := ModuleTable.mem_sort.2 hr
  have htable : Occurs (recordHead style r ++ depsText r.deps) (tableText style table.sort.records) := by
    cases style with
    | eval => exact occurs_evalTable hsort
    | factory => exact occurs_factoryTable hsort
  rw [emit_ok h]
  have hbody : Occurs (tableText style table.sort.records) (body entry table style) := ⟨_, ");\n", rfl⟩
  exact (htable.trans hbody).trans ⟨_, "", (String.append_empty).symm⟩

/-! ## Imports in an artifact -/

/-- **The loader of an artifact takes the imports of a module for what its
dependencies say**, in either style: the object literal after the head of the
record has them as own properties, so that no import among them is refused.
`__proto__` is the exception, which is always refused. -/
theorem localRequire_emit {entry : ModuleId} {table : ModuleTable} {style : LoaderStyle}
    {bundle : Bundle} (h : emit entry table style = .ok bundle) {r : ModuleRecord}
    (hr : r ∈ table.records) (hdeps : r.deps.Distinct) :
    Occurs (recordHead style r ++ depsText r.deps) bundle.text ∧
    ∃ members, literalMembers? (depsText r.deps) = some members ∧
      (∀ specifier target, (specifier, target) ∈ r.deps → specifier ≠ "__proto__" →
        ownProperty? members specifier = some target ∧
        localRequire members r.id specifier = .ok target) ∧
      (∀ specifier, specifier ≠ "__proto__" →
        localRequire members r.id specifier = r.deps.resolve r.id specifier) ∧
      localRequire members r.id "__proto__" = .error (.unknownSpecifier r.id "__proto__") := by
  refine ⟨occurs_emit h hr, r.deps, literalMembers?_depsText r.deps, ?_, ?_, localRequire_proto _ _⟩
  · intro specifier target hmem hs
    have hown : ownProperty? r.deps specifier = some target := by
      rw [ownProperty?_eq_get? hdeps hs]
      exact hdeps.get?_eq_some hmem
    refine ⟨hown, ?_⟩
    simp only [localRequire, hown]
  · exact fun specifier hs => localRequire_eq_resolve hdeps r.id hs

/-- A module that requires another, and itself by the name of a property that
all objects inherit. -/
theorem localRequire_emit_inherited :
    let a : ModuleId := ⟨"/a.js"⟩
    let b : ModuleId := ⟨"/b.js"⟩
    let r : ModuleRecord := ⟨a, "", .ofList [("constructor", a), ("./b", b)], ""⟩
    let table : ModuleTable := ⟨[r, ⟨b, "", [], ""⟩]⟩
    ∃ bundle members, emit a table .factory = .ok bundle ∧
      literalMembers? (depsText r.deps) = some members ∧
      localRequire members a "constructor" = .ok a ∧ localRequire members a "./b" = .ok b ∧
      localRequire members a "toString" = .error (.unknownSpecifier a "toString") := by
  intro a b r table
  obtain ⟨bundle, h⟩ := emit_of_closed (show a ∈ table.ids by decide)
    (show table.missingDependencies = [] by decide) .factory
  obtain ⟨-, members, hread, hmem, hother, -⟩ :=
    localRequire_emit h (r := r) List.mem_cons_self (DependencyMap.ofList_distinct _)
  refine ⟨bundle, members, h, hread, ?_, ?_, ?_⟩
  · exact (hmem "constructor" a (by decide) (by decide)).2
  · exact (hmem "./b" b (by decide) (by decide)).2
  · exact hother "toString" (by decide)

/-- A module that requires itself as `__proto__`: its dependencies say what
that means, and the loader of the artifact refuses it. -/
theorem localRequire_emit_proto :
    let a : ModuleId := ⟨"/m.js"⟩
    let r : ModuleRecord := ⟨a, "", [("__proto__", a)], ""⟩
    ∃ bundle members, emit a ⟨[r]⟩ .eval = .ok bundle ∧
      Occurs (recordHead .eval r ++ depsText r.deps) bundle.text ∧
      literalMembers? (depsText r.deps) = some members ∧ ("__proto__", a) ∈ r.deps ∧
      r.deps.resolve a "__proto__" = .ok a ∧ ownProperty? members "__proto__" = none ∧
      localRequire members a "__proto__" = .error (.unknownSpecifier a "__proto__") := by
  intro a r
  obtain ⟨bundle, h⟩ := emit_of_closed (show a ∈ ModuleTable.ids ⟨[r]⟩ by decide)
    (show ModuleTable.missingDependencies ⟨[r]⟩ = [] by decide) .eval
  exact ⟨bundle, r.deps, h, occurs_emit h List.mem_cons_self, literalMembers?_depsText r.deps,
    List.mem_cons_self, rfl, rfl, rfl⟩

end Artifact

end Bundler
