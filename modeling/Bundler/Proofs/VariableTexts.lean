/-
What the texts of variables mean. White space at the ends does not count
(`trimmed_eq_iff`). A count is decimal digits, with a plus sign or without, whose
value is below 2^64, however many zeros lead it (`Count.ofString_eq_ok_iff`). The
names of choices are read up to the case of ASCII letters
(`Target.ofName_eq_ok_iff`, `LoaderStyle.ofName_eq_ok_iff`).
-/
import Mathlib
import Bundler.Config.Environment

namespace Bundler

/-! ## White space at the ends -/

/-- `middle` is what a text is between white space at its ends, and has none at its
own. -/
def IsTrimmed (text middle : String) : Prop :=
  ∃ before after, text.toList = before ++ middle.toList ++ after ∧
    (∀ c ∈ before ++ after, isWhiteSpace c = true) ∧
    (∀ c ∈ middle.toList.head?, isWhiteSpace c = false) ∧ ∀ c ∈ middle.toList.getLast?, isWhiteSpace c = false

theorem trimmed_toList (s : String) :
    (trimmed s).toList = (s.toList.dropWhile isWhiteSpace).rdropWhile isWhiteSpace := String.toList_ofList

theorem isTrimmed_trimmed (s : String) : IsTrimmed s (trimmed s) := by
  let rest := s.toList.dropWhile isWhiteSpace
  refine ⟨s.toList.takeWhile isWhiteSpace, rest.rtakeWhile isWhiteSpace, ?_, ?_, fun c hc => ?_, fun c hc => ?_⟩
  · rw [trimmed_toList, List.append_assoc, List.rdropWhile_append_rtakeWhile, List.takeWhile_append_dropWhile]
  · intro c hc
    rcases List.mem_append.1 hc with hc | hc
    · exact List.mem_takeWhile_imp hc
    · exact List.mem_rtakeWhile_imp hc
  · rw [trimmed_toList] at hc
    obtain ⟨more, hmore⟩ := List.rdropWhile_prefix isWhiteSpace (l := rest)
    have hrest : rest.head? = some c := by rw [← hmore, List.head?_append, hc, Option.some_or]
    have hfirst := List.head?_dropWhile_not isWhiteSpace s.toList
    rwa [show (s.toList.dropWhile isWhiteSpace).head? = some c from hrest] at hfirst
  · rw [trimmed_toList] at hc
    obtain ⟨hne, rfl⟩ := List.mem_getLast?_eq_getLast hc
    exact Bool.eq_false_iff.2 (List.rdropWhile_last_not isWhiteSpace rest hne)

theorem trimmed_eq_of_isTrimmed {s middle : String} (h : IsTrimmed s middle) : trimmed s = middle := by
  obtain ⟨before, after, hs, hwhite, hhead, hlast⟩ := h
  have hafter : ∀ c ∈ after, isWhiteSpace c = true := fun c hc => hwhite c (List.mem_append_right before hc)
  have hbefore : ∀ c ∈ before, isWhiteSpace c = true := fun c hc => hwhite c (List.mem_append_left after hc)
  apply String.toList_injective
  rw [trimmed_toList, hs, List.append_assoc, List.dropWhile_append_of_pos hbefore]
  cases hm : middle.toList with
  | nil => rw [List.nil_append, List.dropWhile_eq_nil_iff.2 hafter, List.rdropWhile_nil]
  | cons c cs =>
    have hc : ¬isWhiteSpace c = true := Bool.eq_false_iff.1 (hhead c (by rw [hm]; rfl))
    rw [List.cons_append, List.dropWhile_cons_of_neg hc, ← List.cons_append, ← hm, List.rdropWhile,
      List.reverse_append, List.dropWhile_append_of_pos fun c hc => hafter c (List.mem_reverse.1 hc),
      ← List.rdropWhile, List.rdropWhile_eq_self_iff]
    intro hne
    exact Bool.eq_false_iff.1 (hlast _ (List.getLast?_eq_some_getLast hne))

/-- Each text is trimmed in one way. -/
theorem trimmed_eq_iff {s middle : String} : trimmed s = middle ↔ IsTrimmed s middle :=
  ⟨fun h => h ▸ isTrimmed_trimmed s, trimmed_eq_of_isTrimmed⟩

/-! ## Counts -/

/-- A text of decimal digits, with a plus sign or without, whose value is below 2^64. -/
def IsCount (s : String) (n : Nat) : Prop :=
  ∃ digits : List Char, (s.toList = digits ∨ s.toList = '+' :: digits) ∧ digits ≠ [] ∧
    (∀ c ∈ digits, c.isDigit = true) ∧
    Nat.ofDigits 10 (digits.reverse.map fun c => c.toNat - '0'.toNat) = n ∧ n < 2 ^ 64

namespace Count

/-- The value of digits after a number read so far. -/
def valueFrom (soFar : Nat) (digits : List Char) : Nat :=
  digits.foldl (fun n c => n * 10 + (c.toNat - '0'.toNat)) soFar

theorem valueFrom_eq : ∀ (digits : List Char) (soFar : Nat), valueFrom soFar digits =
    Nat.ofDigits 10 (digits.reverse.map fun c => c.toNat - '0'.toNat) + 10 ^ digits.length * soFar
  | [], soFar => by simp [valueFrom]
  | c :: digits, soFar => by
    have hstep : valueFrom soFar (c :: digits) = valueFrom (soFar * 10 + (c.toNat - '0'.toNat)) digits := rfl
    rw [hstep, valueFrom_eq digits, List.reverse_cons, List.map_append, Nat.ofDigits_append, List.length_map,
      List.length_reverse, List.map_cons, List.map_nil, Nat.ofDigits_singleton, List.length_cons]
    ring

/-- More digits never make a number smaller. -/
theorem le_valueFrom : ∀ (digits : List Char) (soFar : Nat), soFar ≤ valueFrom soFar digits
  | [], _ => le_rfl
  | c :: digits, soFar => by
    refine le_trans ?_ (le_valueFrom digits (soFar * 10 + (c.toNat - '0'.toNat)))
    omega

theorem readDigits_eq_ok_iff {n : Nat} : ∀ {digits : List Char} {soFar : Nat}, soFar < bound →
    (readDigits soFar digits = .ok n ↔ (∀ c ∈ digits, c.isDigit = true) ∧ valueFrom soFar digits = n ∧ n < bound)
  | [], soFar, h => by
    simp only [readDigits, valueFrom, List.foldl_nil, Except.ok.injEq, List.not_mem_nil, false_implies, implies_true,
      true_and]
    exact ⟨fun hn => ⟨hn, hn ▸ h⟩, And.left⟩
  | c :: digits, soFar, h => by
    have hstep : valueFrom soFar (c :: digits) = valueFrom (soFar * 10 + (c.toNat - '0'.toNat)) digits := rfl
    rw [readDigits, hstep, List.forall_mem_cons]
    by_cases hc : c.isDigit = true
    · by_cases hlt : soFar * 10 + (c.toNat - '0'.toNat) < bound
      · simp only [hc, hlt, Bool.not_true, Bool.false_eq_true, if_false, if_true, true_and]
        exact readDigits_eq_ok_iff hlt
      · have hle := le_valueFrom digits (soFar * 10 + (c.toNat - '0'.toNat))
        simp only [hc, hlt, Bool.not_true, Bool.false_eq_true, if_false, reduceCtorEq, false_iff]
        rintro ⟨-, hn, hbound⟩
        omega
    · simp [hc]

theorem bound_eq : bound = 2 ^ 64 := rfl

theorem readDigits_zero_eq_ok_iff {digits : List Char} {n : Nat} :
    readDigits 0 digits = .ok n ↔ (∀ c ∈ digits, c.isDigit = true) ∧
      Nat.ofDigits 10 (digits.reverse.map fun c => c.toNat - '0'.toNat) = n ∧ n < 2 ^ 64 := by
  rw [readDigits_eq_ok_iff (by decide), valueFrom_eq, Nat.mul_zero, Nat.add_zero, bound_eq]

theorem ofString_eq_ok_iff {s : String} {n : Nat} : ofString s = .ok n ↔ IsCount s n := by
  have hplus : ('+' : Char).isDigit = false := rfl
  constructor
  · intro h
    unfold ofString at h
    split at h
    · cases h
    · cases h
    · next cs hne hs =>
      exact ⟨cs, .inr hs, hne, readDigits_zero_eq_ok_iff.1 h⟩
    · next hne _ _ =>
      exact ⟨s.toList, .inl rfl, hne, readDigits_zero_eq_ok_iff.1 h⟩
  · rintro ⟨digits, hs, hne, hdigits⟩
    have hread := readDigits_zero_eq_ok_iff.2 hdigits
    cases digits with
    | nil => exact absurd rfl hne
    | cons c cs =>
      have hc : c ≠ '+' := fun hc => by
        have hdigit := hdigits.1 c List.mem_cons_self
        rw [hc, hplus] at hdigit
        cases hdigit
      rcases hs with hs | hs
      · unfold ofString
        rw [hs]
        split
        · next h => cases h
        · next h => exact absurd (List.cons.inj h).1 hc
        · next h => exact absurd (List.cons.inj h).1 hc
        · exact hread
      · unfold ofString
        rw [hs]
        exact hread

end Count

/-! ## Names -/

/-- A text is a name up to the case of ASCII letters. Names are in lower case. -/
def IsSpelling (s name : String) : Prop :=
  List.Forall₂ (fun c d => c = d ∨ c = d.toUpper) s.toList name.toList

theorem toLower_eq_iff {c d : Char} (hd : d.isUpper = false) : c.toLower = d ↔ c = d ∨ c = d.toUpper := by
  have hlower : d.toLower = d := Char.toLower_eq_of_not_isUpper (Bool.eq_false_iff.1 hd)
  constructor
  · rintro rfl
    by_cases hc : c.isUpper = true
    · right
      rw [Char.toUpper_toLower_eq_toUpper, Char.toUpper_eq_of_not_isLower (Char.not_isLower_of_isUpper hc)]
    · exact .inl (Char.toLower_eq_of_not_isUpper hc).symm
  · rintro (rfl | rfl)
    · exact hlower
    · rw [Char.toLower_toUpper_eq_toLower, hlower]

theorem map_toLower_eq_iff : ∀ {cs ds : List Char}, (∀ d ∈ ds, d.isUpper = false) →
    (cs.map Char.toLower = ds ↔ List.Forall₂ (fun c d => c = d ∨ c = d.toUpper) cs ds)
  | [], [], _ => by simp
  | [], _ :: _, _ => by simp
  | _ :: _, [], _ => by simp
  | c :: cs, d :: ds, h => by
    obtain ⟨hd, hds⟩ := List.forall_mem_cons.1 h
    rw [List.map_cons, List.cons.injEq, List.forall₂_cons, toLower_eq_iff hd, map_toLower_eq_iff hds]

theorem toLower_eq_iff_isSpelling {s name : String} (h : name.toList.any Char.isUpper = false) :
    s.toLower = name ↔ IsSpelling s name := by
  have hlower : ∀ d ∈ name.toList, d.isUpper = false := fun d hd => Bool.eq_false_iff.2 (List.any_eq_false.1 h d hd)
  rw [← String.toList_inj, String.toLower, String.toList_map, map_toLower_eq_iff hlower, IsSpelling]

def Target.spellings : Target → List String
  | .es5 => ["es5"]
  | .es2015 => ["es2015", "es6"]

def LoaderStyle.spellings : LoaderStyle → List String
  | .eval => ["eval"]
  | .factory => ["factory"]

theorem Target.ofName_eq_ok_iff {s : String} {t : Target} :
    Target.ofName s = .ok t ↔ ∃ name ∈ t.spellings, IsSpelling s name := by
  have hspelling : ∀ name ∈ t.spellings, (s.toLower = name ↔ IsSpelling s name) := by
    intro name hname
    refine toLower_eq_iff_isSpelling ?_
    revert name
    cases t <;> decide
  rw [← exists_congr fun name => and_congr_right (hspelling name)]
  unfold Target.ofName
  split
  · next h => cases t <;> simp [Target.spellings, h]
  · next h => cases t <;> simp [Target.spellings, h]
  · next h => cases t <;> simp [Target.spellings, h]
  · next h5 h15 h6 =>
    cases t with
    | es5 => simpa [Target.spellings] using h5
    | es2015 => simpa [Target.spellings] using ⟨h15, h6⟩

theorem LoaderStyle.ofName_eq_ok_iff {s : String} {l : LoaderStyle} :
    LoaderStyle.ofName s = .ok l ↔ ∃ name ∈ l.spellings, IsSpelling s name := by
  have hspelling : ∀ name ∈ l.spellings, (s.toLower = name ↔ IsSpelling s name) := by
    intro name hname
    refine toLower_eq_iff_isSpelling ?_
    revert name
    cases l <;> decide
  rw [← exists_congr fun name => and_congr_right (hspelling name)]
  unfold LoaderStyle.ofName
  split
  · next h => cases l <;> simp [LoaderStyle.spellings, h]
  · next h => cases l <;> simp [LoaderStyle.spellings, h]
  · next heval hfactory =>
    cases l with
    | eval => simpa [LoaderStyle.spellings] using heval
    | factory => simpa [LoaderStyle.spellings] using hfactory

end Bundler
