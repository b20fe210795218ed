/-
The parts of a syntax tree. A part is an expression, a statement or another node of the
tree, and `Part.children` lists what stands right in it. A part holds another one if a
way of allowed steps leads down to it (`Part.HoldsVia`). What holds of a part if it holds
of its children holds of all parts (`Part.induction_children`), and what a part holds is
found level by level (`Part.holdsVia_iff_mem_upTo`).
-/
import Mathlib.Logic.Relation
import Bundler.Script.Tree

namespace Bundler.Script

/-- A node of a syntax tree. -/
inductive Part where
  | expr (e : Expr)
  | key (k : Key)
  /-- A member of an object literal or of a pattern. -/
  | member (p : Property)
  | classMember (p : Property)
  | func (f : Func)
  | stmt (s : Stmt)
  | declarator (d : Declarator)

/-! ## What stands right in a part -/

def Expr.children : Expr → List Part
  | .array items _ | .sequence items | .superCall items | .importCall _ items | .arrayPattern items =>
    items.map .expr
  | .object members _ | .objectPattern members => members.map .member
  | .func _ f | .arrow f _ => [.func f]
  | .cls _ parent members => parent.toList.map .expr ++ members.map .classMember
  | .unary _ e | .update _ _ e | .chain _ e | .paren e | .spread e | .await _ e => [.expr e]
  | .binary _ a b | .assign _ a b | .withDefault a b => [.expr a, .expr b]
  | .cond a b c => [.expr a, .expr b, .expr c]
  | .member e key => [.expr e, .key key]
  | .superMember key => [.key key]
  | .call e args _ | .new e args _ | .tagged e _ args => .expr e :: args.map .expr
  | .template _ es => es.map .expr
  | .yield _ arg => arg.toList.map .expr
  | .this | .ident _ | .lit _ | .newTarget | .importMeta _ | .privateName _ | .hole | .invalid => []

def Key.children : Key → List Part
  | .computed e => [.expr e]
  | .name _ | .str .. | .num _ | .bigint _ | .priv _ => []

def Property.children : Property → List Part
  | .shorthand _ value => value.toList.map .expr
  | .keyValue key e => [.key key, .expr e]
  | .method _ _ key f => [.key key, .func f]
  | .spread e => [.expr e]
  | .field _ key value => .key key :: value.toList.map .expr
  | .staticBlock body => body.map .stmt
  | .empty => []

def Func.children : Func → List Part
  | .mk params body _ _ => params.map .expr ++ body.map .stmt

def Stmt.children : Stmt → List Part
  | .expr e | .throw e => [.expr e]
  | .block body => body.map .stmt
  | .withIn e s | .whileLoop e s | .doWhile s e => [.expr e, .stmt s]
  | .ret arg => arg.toList.map .expr
  | .labeled _ s => [.stmt s]
  | .cond e yes no => .expr e :: .stmt yes :: no.toList.map .stmt
  | .switch e cases => .expr e :: cases.map .stmt
  | .clause test body => test.toList.map .expr ++ body.map .stmt
  | .tryCatch body catcher finalizer =>
    body.map .stmt ++ catcher.toList.map .stmt ++ finalizer.toList.map .stmt
  | .handler param body => param.toList.map .expr ++ body.map .stmt
  | .forLoop init test update s =>
    init.toList.map .stmt ++ test.toList.map .expr ++ update.toList.map .expr ++ [.stmt s]
  | .forIn head e s | .forOf _ _ head e s => [.stmt head, .expr e, .stmt s]
  | .vars _ decls => decls.map .declarator
  | .func _ f => [.func f]
  | .cls _ parent members => parent.toList.map .expr ++ members.map .classMember
  | .empty | .debugger | .breakTo _ | .continueTo _ => []

def Declarator.children : Declarator → List Part
  | .mk target init => .expr target :: init.toList.map .expr

namespace Part

def children : Part → List Part
  | expr e => e.children
  | key k => k.children
  | member p | classMember p => p.children
  | func f => f.children
  | stmt s => s.children
  | declarator d => d.children

/-- How much a part takes in. -/
noncomputable def size : Part → Nat
  | expr e => sizeOf e
  | key k => sizeOf k
  | member p | classMember p => sizeOf p
  | func f => sizeOf f
  | stmt s => sizeOf s
  | declarator d => sizeOf d

theorem sizeOf_lt_of_eq_some {α : Type} [SizeOf α] {o : Option α} {a : α} (h : o = some a) :
    sizeOf a < sizeOf o := by
  rw [h, Option.some.sizeOf_spec]
  omega

theorem size_lt_of_mem_children {p q : Part} (h : q ∈ p.children) : q.size < p.size := by
  revert q
  cases p <;> rename_i node <;> cases node <;>
    simp [children, Expr.children, Key.children, Property.children, Func.children, Stmt.children,
      Declarator.children, size, or_imp, forall_and]
  -- A child stands alone, in a list or in an option.
  all_goals
    and_intros <;>
      first
      | omega
      | intro a ha
        have hlt := List.sizeOf_lt_of_mem ha
        omega
      | intro a ha
        have hlt := sizeOf_lt_of_eq_some ha
        omega

/-- What holds of a part if it holds of its children holds of every part. -/
theorem induction_children {motive : Part → Prop} (step : ∀ p, (∀ c ∈ p.children, motive c) → motive p)
    (p : Part) : motive p :=
  step p fun c hc =>
    have := size_lt_of_mem_children hc
    induction_children step c
termination_by p.size

/-! ## What a part holds -/

variable {allowed : Part → Part → Bool}

/-- A part is, or holds at some depth, another one, on a way of allowed steps. -/
def HoldsVia (allowed : Part → Part → Bool) : Part → Part → Prop :=
  Relation.ReflTransGen fun p q => q ∈ p.children ∧ allowed p q = true

theorem HoldsVia.mono {more : Part → Part → Bool} (h : ∀ p q, allowed p q = true → more p q = true)
    {p q : Part} (hq : HoldsVia allowed p q) : HoldsVia more p q :=
  Relation.ReflTransGen.mono (fun _ _ hstep => ⟨hstep.1, h _ _ hstep.2⟩) p q hq

/-- What a part holds is itself, or is held by one of its children. -/
theorem holdsVia_iff {p q : Part} :
    HoldsVia allowed p q ↔ p = q ∨ ∃ c ∈ p.children, allowed p c = true ∧ HoldsVia allowed c q := by
  rw [HoldsVia, Relation.ReflTransGen.cases_head_iff]
  simp only [and_assoc]

/-- The parts that are reached by so many allowed steps. -/
def level (allowed : Part → Part → Bool) : Nat → Part → List Part
  | 0, p => [p]
  | n + 1, p => (p.children.filter (allowed p)).flatMap (level allowed n)

theorem mem_level_succ {n : Nat} {p q : Part} :
    q ∈ level allowed (n + 1) p ↔ ∃ c ∈ p.children, allowed p c = true ∧ q ∈ level allowed n c := by
  simp only [level, List.mem_flatMap, List.mem_filter, and_assoc]

theorem holdsVia_iff_mem_level {p q : Part} :
    HoldsVia allowed p q ↔ ∃ n, q ∈ level allowed n p := by
  constructor
  · intro h
    induction h using Relation.ReflTransGen.head_induction_on with
    | refl => exact ⟨0, List.mem_singleton_self q⟩
    | head hstep _ ih =>
      obtain ⟨n, hn⟩ := ih
      exact ⟨n + 1, mem_level_succ.2 ⟨_, hstep.1, hstep.2, hn⟩⟩
  · rintro ⟨n, hn⟩
    induction n generalizing p with
    | zero => exact holdsVia_iff.2 (.inl (List.mem_singleton.1 hn).symm)
    | succ n ih =>
      obtain ⟨c, hc, hallowed, hn⟩ := mem_level_succ.1 hn
      exact holdsVia_iff.2 (.inr ⟨c, hc, hallowed, ih hn⟩)

/-- Below an empty level there is nothing. -/
theorem level_eq_nil_of_le {n k : Nat} {p : Part} (h : level allowed n p = []) (hle : n ≤ k) :
    level allowed k p = [] := by
  induction n generalizing k p with
  | zero => exact absurd h (List.cons_ne_nil p [])
  | succ n ih =>
    obtain ⟨k, rfl⟩ : ∃ k', k = k' + 1 := ⟨k - 1, by omega⟩
    rw [level, List.flatMap_eq_nil_iff] at h ⊢
    exact fun c hc => ih (h c hc) (by omega)

/-- The parts on the first levels. -/
def upTo (allowed : Part → Part → Bool) (n : Nat) (p : Part) : List Part :=
  (List.range n).flatMap fun k => level allowed k p

/-- All that a part holds is above the first empty level. -/
theorem holdsVia_iff_mem_upTo {n : Nat} {p q : Part} (h : level allowed n p = []) :
    HoldsVia allowed p q ↔ q ∈ upTo allowed n p := by
  simp only [holdsVia_iff_mem_level, upTo, List.mem_flatMap, List.mem_range]
  refine exists_congr fun k => ⟨fun hk => ⟨Nat.lt_of_not_le fun hle => ?_, hk⟩, And.right⟩
  rw [level_eq_nil_of_le h hle] at hk
  exact List.not_mem_nil hk

end Part

end Bundler.Script
