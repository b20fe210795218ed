/-
The order of identities is that of their bytes: UTF-8 keeps the order of
texts (`Utf8.encode_lt_encode`), so `ModuleId.le` compares bytes
(`ModuleId.le_iff`). It is a linear order, and a list of identities in it is
known from its members alone (`ModuleId.Ascending.eq_of_mem_iff`).
-/
import Mathlib.Data.List.Lex
import Mathlib.Data.List.Perm.Basic
import Bundler.ImportGraph

namespace Bundler

section

variable {α : Type} {r : α → α → Prop} {l l' : List α}

theorem nodup_of_asymm (hr : ∀ {a b}, r a b → ¬ r b a) (h : l.Pairwise r) : l.Nodup := by
  refine List.Pairwise.imp ?_ h
  rintro a _ hlt rfl
  exact hr hlt hlt

/-- A list in strict order is known from its members. -/
theorem eq_of_asymm (hr : ∀ {a b}, r a b → ¬ r b a) (h : l.Pairwise r) (h' : l'.Pairwise r)
    (hm : ∀ a, a ∈ l ↔ a ∈ l') : l = l' := by
  refine List.Perm.eq_of_pairwise ?_ h h'
    ((List.perm_ext_iff_of_nodup (nodup_of_asymm hr h) (nodup_of_asymm hr h')).2 hm)
  intro a b _ _ hab hba
  exact absurd hba (hr hab)

end

namespace Utf8

/-! ## Texts and their bytes -/

theorem div_lt_or_mod_lt {m n : Nat} (h : m < n) (k : Nat) :
    m / k < n / k ∨ m / k = n / k ∧ m % k < n % k := by
  rcases (Nat.div_le_div_right (c := k) h.le).lt_or_eq with hlt | heq
  · exact .inl hlt
  · have hm := Nat.div_add_mod m k
    have hn := Nat.div_add_mod n k
    rw [heq] at hm
    exact .inr ⟨heq, by omega⟩

/-- The bytes of a smaller character come first, whatever follows. -/
theorem encodeChar_append_lt {c d : Char} (h : c < d) (x y : List UInt8) :
    String.utf8EncodeChar c ++ x < String.utf8EncodeChar d ++ y := by
  have hn : c.val.toNat < d.val.toNat := h
  have hd : d.val.toNat < 0x110000 := by
    have := d.valid
    simp only [UInt32.isValidChar, Nat.isValidChar] at this
    omega
  -- The digits that two to four bytes hold, the leading ones first.
  have h1 := div_lt_or_mod_lt hn 64
  have h2 := div_lt_or_mod_lt hn 4096
  have h3 := div_lt_or_mod_lt hn 262144
  simp only [String.utf8EncodeChar]
  split_ifs <;>
    simp (disch := omega) only [List.cons_append, List.nil_append, List.cons_lt_cons_iff,
      UInt8.lt_iff_toNat_lt, ← UInt8.toNat_inj, UInt8.toNat_ofNat', Nat.mod_eq_of_lt] <;>
    omega

theorem encode_eq (s : String) : encode s = s.toList.flatMap String.utf8EncodeChar := by
  rw [encode, String.toUTF8_eq_toByteArray]
  conv_lhs => rw [← String.ofList_toList (s := s), String.toByteArray_ofList]
  rw [List.utf8Encode, List.toList_data_toByteArray]

theorem encode_of_decode? {bytes : List UInt8} {text : String} (h : decode? bytes = some text) :
    encode text = bytes := by
  simp only [decode?, String.fromUTF8?] at h
  split at h
  · cases h; rfl
  · cases h

theorem decode?_encode (text : String) : decode? (encode text) = some text := by
  have hbytes : (⟨(encode text).toArray⟩ : ByteArray) = text.toUTF8 := rfl
  rw [decode?, hbytes]
  simp only [String.fromUTF8?]
  split
  · rfl
  · next h => exact absurd text.isValidUTF8 h

theorem encode_inj {s t : String} : encode s = encode t ↔ s = t := by
  refine ⟨fun h => ?_, congrArg encode⟩
  rw [← Option.some_inj, ← decode?_encode s, h, decode?_encode]

theorem encode_ofList (cs : List Char) :
    encode (String.ofList cs) = cs.flatMap String.utf8EncodeChar := by
  rw [encode_eq, String.toList_ofList]

/-- The byte of an ASCII character occurs in no other character. -/
theorem eq_of_mem_encodeChar {a c : Char} (ha : a.toNat < 128)
    (h : UInt8.ofNat a.toNat ∈ String.utf8EncodeChar c) : c = a := by
  apply Char.toNat_inj.1
  have hd : c.val.toNat < 0x110000 := by
    have := c.valid
    simp only [UInt32.isValidChar, Nat.isValidChar] at this
    omega
  have hc : c.toNat = c.val.toNat := rfl
  simp only [String.utf8EncodeChar] at h
  split_ifs at h <;>
    simp (disch := omega) only [List.mem_cons, List.not_mem_nil, or_false, ← UInt8.toNat_inj,
      UInt8.toNat_ofNat', Nat.mod_eq_of_lt] at h <;>
    omega

theorem flatMap_encodeChar_lt : ∀ {cs ds : List Char}, cs < ds →
    cs.flatMap String.utf8EncodeChar < ds.flatMap String.utf8EncodeChar
  | [], [], h => absurd h (List.lt_irrefl _)
  | [], d :: ds, _ => by
    have hne : (d :: ds).flatMap String.utf8EncodeChar ≠ [] := by
      intro he
      have hl := congrArg List.length he
      simp only [List.flatMap_cons, List.length_append, String.length_utf8EncodeChar,
        List.length_nil] at hl
      have := d.utf8Size_pos
      omega
    cases hb : (d :: ds).flatMap String.utf8EncodeChar with
    | nil => exact absurd hb hne
    | cons b bs => exact List.nil_lt_cons b bs
  | _ :: _, [], h => absurd h (List.not_lt_nil _)
  | c :: cs, d :: ds, h => by
    simp only [List.flatMap_cons]
    rcases List.cons_lt_cons_iff.1 h with hcd | ⟨rfl, hlt⟩
    · exact encodeChar_append_lt hcd _ _
    · exact List.append_left_lt (flatMap_encodeChar_lt hlt)

theorem encode_lt_encode {s t : String} (h : s < t) : encode s < encode t := by
  rw [encode_eq, encode_eq]
  exact flatMap_encodeChar_lt (String.lt_iff.1 h)

end Utf8

namespace ModuleId

/-! ## Identities -/

def bytes (id : ModuleId) : List UInt8 := Utf8.encode id.text

theorem le_iff_text {a b : ModuleId} : a.le b = true ↔ a.text ≤ b.text := by
  simp only [le, Bool.not_eq_true', decide_eq_false_iff_not, String.not_lt]

theorem eq_of_text {a b : ModuleId} (h : a.text = b.text) : a = b := by
  cases a; cases b; cases h; rfl

/-- **Identities are ordered by their bytes.** -/
theorem le_iff {a b : ModuleId} : a.le b = true ↔ a.bytes < b.bytes ∨ a = b := by
  rw [le_iff_text]
  constructor
  · intro h
    by_cases hba : b.text ≤ a.text
    · exact .inr (eq_of_text (String.le_antisymm h hba))
    · exact .inl (Utf8.encode_lt_encode (String.not_le.1 hba))
  · rintro (h | rfl)
    · by_contra hba
      exact List.lt_asymm h (Utf8.encode_lt_encode (String.not_le.1 hba))
    · exact String.le_refl _

theorem le_trans {a b c : ModuleId} (hab : a.le b = true) (hbc : b.le c = true) : a.le c = true := by
  rw [le_iff_text] at *
  exact String.le_trans hab hbc

theorem le_total (a b : ModuleId) : (a.le b || b.le a) = true := by
  rw [Bool.or_eq_true, le_iff_text, le_iff_text]
  exact String.le_total _ _

theorem bytes_inj {a b : ModuleId} : a.bytes = b.bytes ↔ a = b := by
  refine ⟨fun h => ?_, congrArg bytes⟩
  have htotal := le_total a b
  rw [Bool.or_eq_true] at htotal
  rcases htotal with hle | hle
  · exact (le_iff.1 hle).resolve_left (h ▸ List.lt_irrefl _)
  · exact ((le_iff.1 hle).resolve_left (h ▸ List.lt_irrefl _)).symm

/-! ## Ascending lists -/

/-- Each identity is smaller in bytes than those after it. -/
def Ascending (ids : List ModuleId) : Prop := ids.Pairwise fun a b => a.bytes < b.bytes

theorem Ascending.nodup {ids : List ModuleId} (h : Ascending ids) : ids.Nodup :=
  nodup_of_asymm List.lt_asymm h

/-- Lists in ascending order that hold the same identities are the same. -/
theorem Ascending.eq_of_mem_iff {ids ids' : List ModuleId} (h : Ascending ids) (h' : Ascending ids')
    (hm : ∀ id, id ∈ ids ↔ id ∈ ids') : ids = ids' := eq_of_asymm List.lt_asymm h h' hm

end ModuleId

namespace ImportGraph

theorem sortIds_perm (ids : List ModuleId) : (sortIds ids).Perm ids := List.mergeSort_perm _ _

@[simp] theorem mem_sortIds {ids : List ModuleId} {id : ModuleId} : id ∈ sortIds ids ↔ id ∈ ids :=
  (sortIds_perm ids).mem_iff

theorem sortIds_ascending {ids : List ModuleId} (h : ids.Nodup) : ModuleId.Ascending (sortIds ids) := by
  have hs : (sortIds ids).Pairwise fun a b => a.le b = true := by
    unfold sortIds
    refine List.pairwise_mergeSort ?_ ModuleId.le_total ids
    intro a b c
    exact ModuleId.le_trans
  have hn : (sortIds ids).Nodup := (sortIds_perm ids).nodup_iff.2 h
  exact (List.Pairwise.and hs hn).imp fun h => (ModuleId.le_iff.1 h.1).resolve_right h.2

end ImportGraph

end Bundler
