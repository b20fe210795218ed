/-
Which modules are refused. The search for unsupported constructs is followed over the
parts of the tree: what it finds in a part is the part's own construct or is found in one
of its children, and only the step into a function that is a scope for `await` changes
what counts (`Part.mem_unsupported_iff`). So an `import.meta` is found wherever a part
holds it, and an `await` or a `for await` wherever it is held outside such scopes.

A module offends with an `import.meta` anywhere or with an `await` or a `for await` in no
function. These constructs are found, and besides them those that constructors in classes
and accessors in object literals have of their own (`Module.mem_unsupported_iff`): if there
are none, the modules that offend are refused, and no others
(`Module.generate_refuses_offenders`).
-/
import Mathlib.Logic.Relation
import Bundler.Proofs.SyntaxParts
import Bundler.Script.Generate
import Bundler.Script.Parser.Module

namespace Bundler.Script

namespace Part

/-! ## Constructs and the way to them -/

/-- The construct that a part itself is. -/
def construct? : Part → Option Unsupported
  | expr (.await offset _) => some ⟨.topLevelAwait, offset⟩
  | expr (.importMeta offset) => some ⟨.importMeta, offset⟩
  | stmt (.forOf true offset _ _ _) => some ⟨.topLevelForAwait, offset⟩
  | _ => none

def isFunc : Part → Bool
  | func _ => true
  | _ => false

theorem isFunc_iff {p : Part} : p.isFunc = true ↔ ∃ f, p = func f := by
  cases p <;> simp [isFunc]

/-- Whether a function that stands right in a part is a scope for `await`. -/
def isAwaitScope : Part → Bool
  | expr (.func ..) | expr (.arrow ..) | stmt (.func ..) => true
  | member (.method _ kind _ _) => kind.isAwaitScope
  | classMember (.method _ kind _ _) => kind.isAwaitScopeInClass
  | _ => false

/-- The function of a constructor in a class, or of an accessor in an object literal. -/
def bareFunction? : Part → Option Func
  | classMember (.method _ .constructor _ f) => some f
  | member (.method _ .getter _ f) | member (.method _ .setter _ f) | member (.method _ .constructor _ f) => some f
  | _ => none

/-- The functions that are no scope for `await` are those of constructors and accessors. -/
theorem bareFunction?_eq_some_iff {owner : Part} {f : Func} :
    owner.bareFunction? = some f ↔ owner.isAwaitScope = false ∧ func f ∈ owner.children := by
  cases owner with
  | member m | classMember m =>
    cases m with
    | method isStatic kind key g =>
      cases kind <;>
        simp [bareFunction?, isAwaitScope, MethodKind.isAwaitScope, MethodKind.isAwaitScopeInClass, children,
          Property.children, eq_comm]
    | _ => simp [bareFunction?, children, Property.children]
  | expr e => cases e <;> simp [bareFunction?, isAwaitScope, children, Expr.children]
  | key k => cases k <;> simp [bareFunction?, children, Key.children]
  | func g => cases g; simp [bareFunction?, children, Func.children]
  | stmt s => cases s <;> simp [bareFunction?, isAwaitScope, children, Stmt.children]
  | declarator d => cases d; simp [bareFunction?, children, Declarator.children]

/-- Any step. -/
def anywhere (_ _ : Part) : Bool := true

/-- A step into no function. -/
def outsideFunctions (_ q : Part) : Bool := !q.isFunc

/-- A step into no function that is a scope for `await`. -/
def outsideScopes (p q : Part) : Bool := !(p.isAwaitScope && q.isFunc)

/-- A part is or holds a construct, on a way of allowed steps. -/
def HasVia (allowed : Part → Part → Bool) (p : Part) (u : Unsupported) : Prop :=
  ∃ q, HoldsVia allowed p q ∧ q.construct? = some u

variable {allowed : Part → Part → Bool} {p : Part} {u : Unsupported} {b : Bool}

theorem hasVia_iff :
    p.HasVia allowed u ↔
      p.construct? = some u ∨ ∃ c ∈ p.children, allowed p c = true ∧ c.HasVia allowed u := by
  constructor
  · rintro ⟨q, hq, hu⟩
    obtain rfl | ⟨c, hc, hstep, hq⟩ := holdsVia_iff.1 hq
    · exact .inl hu
    · exact .inr ⟨c, hc, hstep, q, hq, hu⟩
  · rintro (hu | ⟨c, hc, hstep, q, hq, hu⟩)
    · exact ⟨p, holdsVia_iff.2 (.inl rfl), hu⟩
    · exact ⟨q, holdsVia_iff.2 (.inr ⟨c, hc, hstep, hq⟩), hu⟩

/-- No way of allowed steps leads to a construct; ways of so many steps are followed, and
there are no longer ones. -/
def isFree (allowed : Part → Part → Bool) (n : Nat) (p : Part) : Bool :=
  (level allowed n p).isEmpty && (upTo allowed n p).all fun q => q.construct?.isNone

theorem not_hasVia_of_isFree {n : Nat} (h : p.isFree allowed n = true) : ¬ p.HasVia allowed u := by
  rintro ⟨q, hq, hu⟩
  rw [isFree, Bool.and_eq_true, List.isEmpty_iff, List.all_eq_true] at h
  have hnone := h.2 q ((holdsVia_iff_mem_upTo h.1).1 hq)
  rw [hu] at hnone
  exact Bool.noConfusion hnone

/-! ## What the search finds in a part -/

/-- The search of a part. -/
def unsupported (inFunction : Bool) : Part → List Unsupported
  | expr e => e.unsupported inFunction
  | key k => k.unsupported inFunction
  | member p => p.unsupported inFunction
  | classMember p => Property.unsupportedInClass inFunction [p]
  | func f => f.unsupported inFunction
  | stmt s => s.unsupported inFunction
  | declarator d => d.unsupported inFunction

theorem unsupported_expr (b : Bool) (e : Expr) : (expr e).unsupported b = e.unsupported b := rfl

theorem unsupported_key (b : Bool) (k : Key) : (key k).unsupported b = k.unsupported b := rfl

theorem unsupported_func (b : Bool) (f : Func) : (func f).unsupported b = f.unsupported b := rfl

theorem unsupported_stmt (b : Bool) (s : Stmt) : (stmt s).unsupported b = s.unsupported b := rfl

theorem eq_flatMap_of_cons {α : Type} {search : List α → List Unsupported} {node : α → Part}
    (hnil : search [] = []) (hcons : ∀ a l, search (a :: l) = (node a).unsupported b ++ search l)
    (l : List α) : search l = (l.map node).flatMap (unsupported b) := by
  induction l with
  | nil => exact hnil
  | cons a l ih => rw [hcons, ih, List.map_cons, List.flatMap_cons]

theorem unsupportedList_exprs (b : Bool) (es : List Expr) :
    Expr.unsupportedList b es = (es.map expr).flatMap (unsupported b) :=
  eq_flatMap_of_cons rfl (fun _ _ => rfl) es

theorem unsupportedList_members (b : Bool) (ps : List Property) :
    Property.unsupportedList b ps = (ps.map member).flatMap (unsupported b) :=
  eq_flatMap_of_cons rfl (fun _ _ => rfl) ps

theorem unsupportedInClass_members (b : Bool) (ps : List Property) :
    Property.unsupportedInClass b ps = (ps.map classMember).flatMap (unsupported b) := by
  refine eq_flatMap_of_cons rfl (fun p ps => ?_) ps
  cases p <;> simp only [unsupported, Property.unsupportedInClass, List.append_nil]

theorem unsupportedList_stmts (b : Bool) (ss : List Stmt) :
    Stmt.unsupportedList b ss = (ss.map stmt).flatMap (unsupported b) :=
  eq_flatMap_of_cons rfl (fun _ _ => rfl) ss

theorem unsupportedList_declarators (b : Bool) (ds : List Declarator) :
    Declarator.unsupportedList b ds = (ds.map declarator).flatMap (unsupported b) :=
  eq_flatMap_of_cons rfl (fun _ _ => rfl) ds

theorem unsupportedOption_expr (b : Bool) (o : Option Expr) :
    Expr.unsupportedOption b o = (o.toList.map expr).flatMap (unsupported b) := by
  cases o <;> simp [Expr.unsupportedOption, unsupported]

theorem unsupportedOption_stmt (b : Bool) (o : Option Stmt) :
    Stmt.unsupportedOption b o = (o.toList.map stmt).flatMap (unsupported b) := by
  cases o <;> simp [Stmt.unsupportedOption, unsupported]

theorem mem_outsideFunctions {found : Unsupported} :
    u ∈ Script.outsideFunctions b found ↔ found = u ∧ b = false := by
  cases b <;> simp [Script.outsideFunctions, eq_comm]

/-- What is found in a part is its own construct, or found in a child of it. -/
theorem mem_unsupported_iff :
    u ∈ p.unsupported b ↔
      (p.construct? = some u ∧ (u.construct = .importMeta ∨ b = false)) ∨
        ∃ c ∈ p.children, u ∈ c.unsupported (b || (p.isAwaitScope && c.isFunc)) := by
  cases p with
  | expr e =>
    cases e <;>
      simp [unsupported_expr, unsupported_key, unsupported_func, Expr.unsupported, unsupportedList_exprs,
        unsupportedList_members, unsupportedInClass_members, unsupportedOption_expr, mem_outsideFunctions,
        construct?, isAwaitScope, isFunc, children, Expr.children, or_and_right, exists_or]
    case cls => exact or_comm
    case await | importMeta => grind
  | key k => cases k <;> simp [unsupported, Key.unsupported, construct?, isAwaitScope, children, Key.children]
  | member m =>
    cases m <;>
      simp [unsupported, Property.unsupported, unsupportedOption_expr, unsupportedList_stmts, construct?,
        isAwaitScope, isFunc, children, Property.children]
  | classMember m =>
    cases m <;>
      simp [unsupported, Property.unsupportedInClass, Property.unsupported, unsupportedOption_expr,
        unsupportedList_stmts, construct?, isAwaitScope, isFunc, children, Property.children]
  | func f =>
    cases f
    simp [unsupported, Func.unsupported, unsupportedList_exprs, unsupportedList_stmts, construct?,
      isAwaitScope, children, Func.children, or_and_right, exists_or]
  | stmt s =>
    cases s <;>
      simp [unsupported_expr, unsupported_func, unsupported_stmt, Stmt.unsupported, unsupportedList_stmts,
        unsupportedList_declarators, unsupportedInClass_members, unsupportedOption_expr,
        unsupportedOption_stmt, mem_outsideFunctions, construct?, isAwaitScope, isFunc, children,
        Stmt.children, or_and_right, exists_or]
    case cls => exact or_comm
    case forOf isAwait _ _ _ _ => cases isAwait <;> grind
  | declarator d =>
    cases d
    simp [unsupported, Declarator.unsupported, unsupportedOption_expr, construct?, isAwaitScope, children,
      Declarator.children]

/-- An `import.meta` is found wherever the part holds it. -/
theorem mem_unsupported_iff_of_importMeta (hu : u.construct = .importMeta) :
    u ∈ p.unsupported b ↔ p.HasVia anywhere u := by
  induction p using induction_children generalizing b with
  | step p ih =>
    rw [mem_unsupported_iff, hasVia_iff]
    simp only [hu, true_or, and_true, true_and, anywhere]
    exact or_congr_right (exists_congr fun c => and_congr_right fun hc => ih c hc)

theorem not_mem_unsupported_of_inFunction (hu : u.construct ≠ .importMeta) : u ∉ p.unsupported true := by
  induction p using induction_children with
  | step p ih =>
    rw [mem_unsupported_iff]
    simp only [hu, Bool.true_eq_false, or_false, and_false, Bool.true_or, false_or, not_exists, not_and]
    exact ih

/-- Another construct is found where the part holds it outside scopes for `await`. -/
theorem mem_unsupported_iff_of_await (hu : u.construct ≠ .importMeta) :
    u ∈ p.unsupported false ↔ p.HasVia outsideScopes u := by
  induction p using induction_children with
  | step p ih =>
    rw [mem_unsupported_iff, hasVia_iff]
    simp only [or_true, and_true, Bool.false_or]
    refine or_congr_right (exists_congr fun c => and_congr_right fun hc => ?_)
    cases hscope : p.isAwaitScope && c.isFunc with
    | true => simp [outsideScopes, hscope, not_mem_unsupported_of_inFunction hu]
    | false => simp [outsideScopes, hscope, ih c hc]

/-- A constructor or an accessor of the part that no scope for `await` holds has a construct
of its own. -/
def Misplaces (p : Part) (u : Unsupported) : Prop :=
  ∃ owner f, HoldsVia outsideScopes p owner ∧ owner.bareFunction? = some f ∧ (func f).HasVia outsideFunctions u

theorem outsideScopes_of_outsideFunctions (p q : Part) (h : outsideFunctions p q = true) :
    outsideScopes p q = true := by
  simp_all [outsideFunctions, outsideScopes]

/-- A way into no scope enters no function, or the last one it enters is no scope. -/
theorem hasVia_outsideScopes_iff :
    p.HasVia outsideScopes u ↔ p.HasVia outsideFunctions u ∨ p.Misplaces u := by
  constructor
  · rintro ⟨q, hq, hu⟩
    suffices HoldsVia outsideFunctions p q ∨ ∃ owner f, HoldsVia outsideScopes p owner ∧
        owner.bareFunction? = some f ∧ HoldsVia outsideFunctions (func f) q from
      this.imp (fun h => ⟨q, h, hu⟩) fun ⟨owner, f, howner, hf, h⟩ => ⟨owner, f, howner, hf, q, h, hu⟩
    clear hu
    induction hq with
    | refl => exact .inl .refl
    | @tail owner c hway hstep ih =>
      cases hc : c.isFunc with
      | true =>
        obtain ⟨f, rfl⟩ := isFunc_iff.1 hc
        have hno : owner.isAwaitScope = false := by simpa [outsideScopes, isFunc] using hstep.2
        exact .inr ⟨owner, f, hway, bareFunction?_eq_some_iff.2 ⟨hno, hstep.1⟩, .refl⟩
      | false =>
        have hnext : c ∈ owner.children ∧ outsideFunctions owner c = true :=
          ⟨hstep.1, by rw [outsideFunctions, hc]; rfl⟩
        exact ih.imp (·.tail hnext) fun ⟨o, f, ho, hf, h⟩ => ⟨o, f, ho, hf, h.tail hnext⟩
  · rintro (⟨q, hq, hu⟩ | ⟨owner, f, howner, hf, q, hq, hu⟩)
    · exact ⟨q, hq.mono outsideScopes_of_outsideFunctions, hu⟩
    · obtain ⟨hno, hchild⟩ := bareFunction?_eq_some_iff.1 hf
      have hstep : outsideScopes owner (func f) = true := by simp [outsideScopes, hno]
      exact ⟨q, (howner.tail ⟨hchild, hstep⟩).trans (hq.mono outsideScopes_of_outsideFunctions), hu⟩

end Part

/-! ## What a module holds -/

/-- The part that an item of a module is; declarations of imports and lists of exports are none. -/
def ModuleItem.part? : ModuleItem → Option Part
  | .stmt s | .exportDecl s => some (.stmt s)
  | .exportDefault (.expr e) => some (.expr e)
  | .exportDefault (.func name f) => some (.expr (.func name f))
  | .exportDefault (.cls name parent members) => some (.expr (.cls name parent members))
  | .imports .. | .exportNamed .. | .exportAll _ => none

theorem ModuleItem.unsupported_eq_part (item : ModuleItem) :
    item.unsupported = item.part?.toList.flatMap (Part.unsupported false) := by
  cases item with
  | exportDefault value => cases value <;> simp [unsupported, part?, Part.unsupported, Expr.unsupported]
  | _ => simp [unsupported, part?, Part.unsupported]

namespace Module

/-- The parts that a module consists of. -/
def roots (m : Module) : List Part := m.items.filterMap ModuleItem.part?

/-- A construct of a module that its code could not hold: an `import.meta` anywhere, or
an `await` or a `for await` that is in no function. -/
def Offends (m : Module) (u : Unsupported) : Prop :=
  ∃ r ∈ m.roots, r.HasVia (if u.construct = .importMeta then Part.anywhere else Part.outsideFunctions) u

/-- An `await` or a `for await` that a constructor in a class, or an accessor in an object
literal, has of its own. -/
def Misplaces (m : Module) (u : Unsupported) : Prop :=
  u.construct ≠ .importMeta ∧ ∃ r ∈ m.roots, r.Misplaces u

theorem mem_unsupported_iff_roots {m : Module} {u : Unsupported} :
    u ∈ m.unsupported ↔ ∃ r ∈ m.roots, u ∈ r.unsupported false := by
  simp only [Module.unsupported, roots, List.mem_flatMap, ModuleItem.unsupported_eq_part, Option.mem_toList,
    List.mem_filterMap]
  grind

/-- What the search finds in a module are the constructs that offend, and those that are
misplaced. -/
theorem mem_unsupported_iff {m : Module} {u : Unsupported} :
    u ∈ m.unsupported ↔ m.Offends u ∨ m.Misplaces u := by
  rw [mem_unsupported_iff_roots, Offends, Misplaces]
  by_cases hu : u.construct = .importMeta
  · simp [hu, Part.mem_unsupported_iff_of_importMeta hu]
  · simp [hu, Part.mem_unsupported_iff_of_await hu, Part.hasVia_outsideScopes_iff, and_or_left, exists_or]

theorem generate_eq_error_iff {m : Module} {target : Target} {fault : GenerateFault} :
    m.generate target = .error fault ↔
      ∃ u us, m.unsupported = u :: us ∧ fault = ⟨u.construct, (Location.ofOffset m.text u.offset).line⟩ := by
  rw [generate, fault?]
  cases m.unsupported with
  | nil =>
    simp only [List.head?_nil, Option.map_none, List.nil_eq, reduceCtorEq, false_and, exists_false, iff_false]
    split
    simp
  | cons u us => simp [eq_comm]

/-- Constructors and accessors have no construct of their own; ways of so many steps are
followed, and there are no longer ones. -/
def nothingMisplaced (n : Nat) (m : Module) : Bool :=
  m.roots.all fun r => (r.level Part.outsideScopes n).isEmpty &&
    (r.upTo Part.outsideScopes n).all fun owner =>
      owner.bareFunction?.all fun f => (Part.func f).isFree Part.outsideFunctions n

theorem not_misplaces_of_nothingMisplaced {n : Nat} {m : Module} (h : m.nothingMisplaced n = true) (u : Unsupported) :
    ¬ m.Misplaces u := by
  rintro ⟨-, r, hr, owner, f, howner, hf, hu⟩
  have hroot := List.all_eq_true.1 h r hr
  rw [Bool.and_eq_true, List.isEmpty_iff, List.all_eq_true] at hroot
  have hfree := hroot.2 owner ((Part.holdsVia_iff_mem_upTo hroot.1).1 howner)
  rw [hf, Option.all_some] at hfree
  exact Part.not_hasVia_of_isFree hfree hu

theorem exists_parse_of_check {text : String} {P : Module → Prop} (check : Module → Bool)
    (h : (Module.parse text).toOption.any check = true) (hcheck : ∀ m, check m = true → P m) :
    ∃ m, Module.parse text = .ok m ∧ P m := by
  cases hm : Module.parse text with
  | error fault => simp [hm, Except.toOption] at h
  | ok m => exact ⟨m, rfl, hcheck m (by simpa [hm, Except.toOption] using h)⟩

/-- **Refused are the modules with a construct that offends.** If no constructor in a class
and no accessor in an object literal has an `await` or a `for await` of its own, a module
is refused exactly if it has an `import.meta` anywhere, or an `await` or a `for await` in
no function. Told is a construct that offends, and the line on which it starts. -/
theorem generate_refuses_offenders (m : Module) (target : Target) (h : ∀ u, ¬ m.Misplaces u) :
    ((∃ fault, m.generate target = .error fault) ↔ ∃ u, m.Offends u) ∧
      ∀ fault, m.generate target = .error fault →
        ∃ u, m.Offends u ∧ fault = ⟨u.construct, (Location.ofOffset m.text u.offset).line⟩ := by
  have hfound {u : Unsupported} : u ∈ m.unsupported ↔ m.Offends u := by
    rw [mem_unsupported_iff, or_iff_left (h u)]
  have htold {fault : GenerateFault} (hfault : m.generate target = .error fault) :
      ∃ u, m.Offends u ∧ fault = ⟨u.construct, (Location.ofOffset m.text u.offset).line⟩ := by
    obtain ⟨u, us, hus, rfl⟩ := generate_eq_error_iff.1 hfault
    exact ⟨u, hfound.1 (hus ▸ List.mem_cons_self), rfl⟩
  refine ⟨⟨fun ⟨_, hfault⟩ => (htold hfault).imp fun _ => And.left, fun ⟨u, hu⟩ => ?_⟩, fun _ => htold⟩
  obtain ⟨first, rest, hus⟩ := List.exists_cons_of_ne_nil (List.ne_nil_of_mem (hfound.2 hu))
  exact ⟨_, generate_eq_error_iff.2 ⟨first, rest, hus, rfl⟩⟩

theorem generate_refuses_offenders_nested :
    ∃ m, Module.parse ("export const load = async () => await ready;\n" ++
        "class A \x7b\n  constructor() \x7b this.run = async () => \x7b for await (const x of y); \x7d; \x7d\n" ++
        "  async run() \x7b await this; \x7d\n\x7d\nexport default () => import.meta.url;\n") = .ok m ∧
      (∀ u, ¬ m.Misplaces u) ∧
      ((∃ fault, m.generate .es2015 = .error fault) ↔ ∃ u, m.Offends u) ∧
      (∀ fault, m.generate .es2015 = .error fault →
        ∃ u, m.Offends u ∧ fault = ⟨u.construct, (Location.ofOffset m.text u.offset).line⟩) ∧
      m.generate .es2015 = .error ⟨.importMeta, 6⟩ := by
  refine exists_parse_of_check (fun m => m.nothingMisplaced 30 &&
    decide (m.fault?.map (fun f => (f.construct, f.line)) = some (.importMeta, 6)))
    (by decide +kernel) fun m hm => ?_
  simp only [Bool.and_eq_true, decide_eq_true_eq, Option.map_eq_some_iff, Prod.mk.injEq] at hm
  obtain ⟨hnothing, ⟨_, _⟩, hfault, rfl, rfl⟩ := hm
  have hkept := not_misplaces_of_nothingMisplaced hnothing
  obtain ⟨hiff, htold⟩ := generate_refuses_offenders m .es2015 hkept
  exact ⟨hkept, hiff, htold, by rw [generate, hfault]⟩

/-- The loop of a constructor is in a function, and is taken for one that is in none. -/
theorem generate_refuses_constructor_loop :
    ∃ m, Module.parse "class A \x7b constructor() \x7b for await (const x of y); \x7d \x7d" = .ok m ∧
      (∃ fault, m.generate .es2015 = .error fault) ∧ ¬ ∃ u, m.Offends u := by
  refine exists_parse_of_check (fun m => decide (m.unsupported = [⟨.topLevelForAwait, 26⟩]) &&
    m.roots.all (Part.isFree Part.outsideFunctions 10)) (by decide +kernel) fun m hm => ?_
  simp only [Bool.and_eq_true, decide_eq_true_eq] at hm
  obtain ⟨hfound, hfree⟩ := hm
  refine ⟨⟨_, generate_eq_error_iff.2 ⟨_, _, hfound, rfl⟩⟩, fun ⟨u, hu⟩ => ?_⟩
  obtain rfl : u = ⟨.topLevelForAwait, 26⟩ := List.mem_singleton.1 (hfound ▸ mem_unsupported_iff.2 (.inl hu))
  obtain ⟨r, hr, hu⟩ := hu
  exact Part.not_hasVia_of_isFree (List.all_eq_true.1 hfree r hr) hu

end Module

end Bundler.Script
