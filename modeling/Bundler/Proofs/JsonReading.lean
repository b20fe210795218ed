/-
Reading JSON. A reader takes characters off the front of a text and gives what
they mean and what follows them. The texts that `Json.quote` and `Json.object`
make are read back whatever follows: each character from how it is written
(`stringChar?_encodeChar`), a quoted text as that text (`readString_quote`),
and an object as its members in their order (`Reads.object`).
-/
import Mathlib.Data.List.Forall2
import Bundler.Text.Json
import Bundler.Text.JsonValue

namespace Bundler.Json

/-! ## Strings -/

/-- The value of a hexadecimal digit. -/
def hexValue? (c : Char) : Option Nat :=
  if c.isDigit then some (c.toNat - 48)
  else if 'a' ≤ c && c ≤ 'f' then some (c.toNat - 87)
  else if 'A' ≤ c && c ≤ 'F' then some (c.toNat - 55)
  else none

/-- The number that four hexadecimal digits write. -/
def hexNumber? : List Char → Option (Nat × List Char)
  | a :: b :: c :: d :: rest => do
    let a ← hexValue? a
    let b ← hexValue? b
    let c ← hexValue? c
    let d ← hexValue? d
    some (((a * 16 + b) * 16 + c) * 16 + d, rest)
  | _ => none

/-- The character with a code, if the code has one. -/
def codeChar? (code : Nat) : Option Char :=
  if code.isValidChar then some (Char.ofNat code) else none

/-- What an escape by code stands for, from after its `u`. A code that does
not fit in four digits is written as two escapes. -/
def codeEscape? (text : List Char) : Option (Char × List Char) := do
  let (code, rest) ← hexNumber? text
  if 0xd800 ≤ code && code < 0xdc00 then
    match rest with
    | '\\' :: 'u' :: rest =>
      let (low, rest) ← hexNumber? rest
      if 0xdc00 ≤ low && low < 0xe000 then
        (codeChar? (0x10000 + (code - 0xd800) * 0x400 + (low - 0xdc00))).map (·, rest)
      else none
    | _ => none
  else (codeChar? code).map (·, rest)

/-- What a character after a backslash stands for. -/
def escaped? : Char → Option Char
  | '"' => some '"'
  | '\\' => some '\\'
  | '/' => some '/'
  | 'b' => some '\x08'
  | 'f' => some '\x0c'
  | 'n' => some '\n'
  | 'r' => some '\r'
  | 't' => some '\t'
  | _ => none

/-- The first character of a string. -/
def stringChar? : List Char → Option (Char × List Char)
  | '\\' :: 'u' :: rest => codeEscape? rest
  | '\\' :: e :: rest => (escaped? e).map (·, rest)
  | c :: rest => if c = '\\' || c = '"' || c.toNat < 32 then none else some (c, rest)
  | [] => none

/-- The characters of a string up to the quote that ends it. The number bounds
them. -/
def stringChars : Nat → List Char → Option (List Char × List Char)
  | 0, _ => none
  | _ + 1, '"' :: rest => some ([], rest)
  | limit + 1, text => do
    let (c, rest) ← stringChar? text
    let (cs, rest) ← stringChars limit rest
    some (c :: cs, rest)

def readString : List Char → Option (String × List Char)
  | '"' :: rest => do
    let (cs, rest) ← stringChars (rest.length + 1) rest
    some (String.ofList cs, rest)
  | _ => none

/-! ## Numbers -/

/-- Decimal digits, at least one. -/
def digits? (text : List Char) : Option (List Char × List Char) :=
  match text.takeWhile Char.isDigit with
  | [] => none
  | ds => some (ds, text.drop ds.length)

def decimal (digits : List Char) : Nat := digits.foldl (fun n c => 10 * n + (c.toNat - 48)) 0

/-- The digits after a point, if there is one. -/
def fraction? : List Char → Option (List Char × List Char)
  | '.' :: rest => digits? rest
  | rest => some ([], rest)

/-- A power of ten, with a sign or without. -/
def power? : List Char → Option (Int × List Char)
  | '-' :: rest => (digits? rest).map fun (ds, rest) => (-Int.ofNat (decimal ds), rest)
  | '+' :: rest => (digits? rest).map fun (ds, rest) => (Int.ofNat (decimal ds), rest)
  | rest => (digits? rest).map fun (ds, rest) => (Int.ofNat (decimal ds), rest)

/-- The power of ten that an exponent gives, if there is one. -/
def exponent? : List Char → Option (Option Int × List Char)
  | 'e' :: rest => (power? rest).map fun (n, rest) => (some n, rest)
  | 'E' :: rest => (power? rest).map fun (n, rest) => (some n, rest)
  | rest => some (none, rest)

/-- A number. A zero is its only whole digit or not its first. -/
def readNumber (text : List Char) : Option (JsonValue × List Char) := do
  let negative := text.head? == some '-'
  let (whole, rest) ← digits? (if negative then text.drop 1 else text)
  let (fraction, rest) ← fraction? rest
  let (exponent, rest) ← exponent? rest
  let digits := decimal (whole ++ fraction)
  if whole.head? == some '0' && whole.length > 1 then none
  else if fraction.isEmpty && exponent.isNone then
    some (.ofDecimal (if negative then -Int.ofNat digits else Int.ofNat digits) 0, rest)
  else
    some (.float (Double.ofDecimal negative digits (exponent.getD 0 - Int.ofNat fraction.length)), rest)

/-! ## Values -/

def isBlank (c : Char) : Bool := c = ' ' || c = '\t' || c = '\n' || c = '\r'

def skipBlanks (text : List Char) : List Char := text.dropWhile isBlank

/-- A value that is a word, or a number. -/
def readPlain (text : List Char) : Option (JsonValue × List Char) :=
  if "null".toList.isPrefixOf text then some (.null, text.drop 4)
  else if "true".toList.isPrefixOf text then some (.boolean true, text.drop 4)
  else if "false".toList.isPrefixOf text then some (.boolean false, text.drop 5)
  else readNumber text

mutual

/-- A value. The number bounds how far values are nested and how many items
they have. -/
def readValue : Nat → List Char → Option (JsonValue × List Char)
  | 0, _ => none
  | limit + 1, text =>
    match skipBlanks text with
    | '"' :: rest => do
      let (s, rest) ← readString ('"' :: rest)
      some (.string s, rest)
    | '[' :: rest =>
      match skipBlanks rest with
      | ']' :: rest => some (.array [], rest)
      | rest => do
        let (items, rest) ← readItems limit rest
        some (.array items, rest)
    | '\x7b' :: rest =>
      match skipBlanks rest with
      | '\x7d' :: rest => some (.object [], rest)
      | rest => do
        let (members, rest) ← readMembers limit rest
        some (.object members, rest)
    | rest => readPlain rest

/-- The items of an array, up to its end. -/
def readItems : Nat → List Char → Option (List JsonValue × List Char)
  | 0, _ => none
  | limit + 1, text => do
    let (item, rest) ← readValue limit text
    match skipBlanks rest with
    | ',' :: rest => do
      let (items, rest) ← readItems limit rest
      some (item :: items, rest)
    | ']' :: rest => some ([item], rest)
    | _ => none

/-- The members of an object, up to its end. -/
def readMembers : Nat → List Char → Option (List (String × JsonValue) × List Char)
  | 0, _ => none
  | limit + 1, text => do
    let (name, rest) ← readString (skipBlanks text)
    match skipBlanks rest with
    | ':' :: rest => do
      let (value, rest) ← readValue limit rest
      match skipBlanks rest with
      | ',' :: rest => do
        let (members, rest) ← readMembers limit rest
        some ((name, value) :: members, rest)
      | '\x7d' :: rest => some ([(name, value)], rest)
      | _ => none
    | _ => none

end

/-! ## What was written is read -/

theorem hexValue?_hexDigit : ∀ n < 16, hexValue? (hexDigit n) = some n := by decide

/-- **A character is read from how it is written.** -/
theorem stringChar?_encodeChar (c : Char) (rest : List Char) :
    stringChar? (encodeChar c ++ rest) = some (c, rest) := by
  unfold encodeChar
  split_ifs with hquote hback hn hr ht hb hf hcontrol
  · subst hquote; rfl
  · subst hback; rfl
  · subst hn; rfl
  · subst hr; rfl
  · subst ht; rfl
  · have : c = '\x08' := Char.toNat_inj.1 hb
    subst this; rfl
  · have : c = '\x0c' := Char.toNat_inj.1 hf
    subst this; rfl
  · have hhigh := hexValue?_hexDigit (c.toNat / 16) (by omega)
    have hlow := hexValue?_hexDigit (c.toNat % 16) (by omega)
    have hzero : hexValue? '0' = some 0 := by decide
    have hcode : ((0 * 16 + 0) * 16 + c.toNat / 16) * 16 + c.toNat % 16 = c.toNat := by omega
    have hvalid : c.toNat.isValidChar := c.valid
    have hnot : ¬ 0xd800 ≤ c.toNat := by omega
    simp only [List.cons_append, List.nil_append, stringChar?, codeEscape?, hexNumber?, hhigh, hlow,
      hzero, hcode, Option.bind_eq_bind, Option.bind_some, hnot, decide_false, Bool.false_and,
      Bool.false_eq_true, if_false, codeChar?, hvalid, if_true, Char.ofNat_toNat, Option.map_some]
  · simp [stringChar?, hquote, hback]
    omega

/-- What starts with a character that can be read does not end the string. -/
theorem stringChars_succ {text rest : List Char} {c : Char} (h : stringChar? text = some (c, rest))
    (limit : Nat) :
    stringChars (limit + 1) text = (stringChars limit rest).map fun p => (c :: p.1, p.2) := by
  rw [stringChars.eq_3]
  · cases hr : stringChars limit rest <;> simp [h, hr]
  · rintro rest' rfl
    simp [stringChar?] at h

theorem encodeChar_ne_nil (c : Char) : encodeChar c ≠ [] := by
  unfold encodeChar
  split_ifs <;> exact List.cons_ne_nil _ _

theorem stringChars_encoded (rest : List Char) : ∀ (cs : List Char) (limit : Nat),
    (cs.flatMap encodeChar).length < limit →
    stringChars limit (cs.flatMap encodeChar ++ '"' :: rest) = some (cs, rest)
  | _, 0, h => absurd h (Nat.not_lt_zero _)
  | [], _ + 1, _ => rfl
  | c :: cs, limit + 1, h => by
    have hpos : 0 < (encodeChar c).length := List.length_pos_iff.2 (encodeChar_ne_nil c)
    rw [List.flatMap_cons, List.length_append] at h
    rw [List.flatMap_cons, List.append_assoc, stringChars_succ (stringChar?_encodeChar c _),
      stringChars_encoded rest cs limit (by omega)]
    rfl

theorem quote_toList (s : String) :
    (quote s).toList = '"' :: (s.toList.flatMap encodeChar ++ ['"']) := String.toList_ofList

/-- **A quoted text is read back**, whatever follows it. -/
theorem readString_quote (s : String) (rest : List Char) :
    readString ((quote s).toList ++ rest) = some (s, rest) := by
  rw [quote_toList, List.cons_append, List.append_assoc, List.singleton_append, readString,
    stringChars_encoded rest s.toList _ (by simp only [List.length_append, List.length_cons]; omega)]
  simp only [Option.bind_eq_bind, Option.bind_some, String.ofList_toList]

/-! ## Objects -/

/-- A text is read as a value, whatever follows it. -/
def Reads (text : String) (value : JsonValue) : Prop :=
  ∀ limit rest, text.length ≤ limit → readValue limit (text.toList ++ rest) = some (value, rest)

/-- A name with the text of a value is a member with that value. -/
def ReadsMember (text : String × String) (member : String × JsonValue) : Prop :=
  text.1 = member.1 ∧ Reads text.2 member.2

theorem skipBlanks_cons {c : Char} (h : isBlank c = false) (rest : List Char) :
    skipBlanks (c :: rest) = c :: rest := List.dropWhile_cons_of_neg (by simp [h])

theorem skipBlanks_quote (s : String) (rest : List Char) :
    skipBlanks ((quote s).toList ++ rest) = (quote s).toList ++ rest := by
  rw [quote_toList, List.cons_append, skipBlanks_cons rfl]

theorem length_quote_pos (s : String) : 0 < (quote s).length := by
  rw [← String.length_toList, quote_toList]
  exact Nat.succ_pos _

theorem Reads.quote (s : String) : Reads (quote s) (.string s) := by
  intro limit rest h
  obtain ⟨limit, rfl⟩ := Nat.exists_eq_add_one.2 (Nat.lt_of_lt_of_le (length_quote_pos s) h)
  have hread := readString_quote s rest
  rw [readValue, skipBlanks_quote]
  rw [quote_toList, List.cons_append] at hread ⊢
  simp only [hread, Option.bind_eq_bind, Option.bind_some]

/-- The text of a member. -/
def memberText (member : String × String) : String := quote member.1 ++ ":" ++ member.2

/-- The text between the braces of an object. -/
def membersText (members : List (String × String)) : String := ",".intercalate (members.map memberText)

theorem object_eq (members : List (String × String)) :
    object members = "\x7b" ++ membersText members ++ "\x7d" := rfl

theorem membersText_cons_cons (m m' : String × String) (ms : List (String × String)) :
    membersText (m :: m' :: ms) = memberText m ++ "," ++ membersText (m' :: ms) :=
  String.intercalate_cons_cons

theorem membersText_singleton (m : String × String) : membersText [m] = memberText m :=
  String.intercalate_singleton

theorem memberText_toList (m : String × String) :
    (memberText m).toList = (quote m.1).toList ++ ':' :: m.2.toList := by
  simp [memberText]

theorem length_lt_memberText (m : String × String) : m.2.length < (memberText m).length := by
  have hq := length_quote_pos m.1
  have hm := congrArg List.length (memberText_toList m)
  simp only [List.length_append, List.length_cons, String.length_toList] at hm
  omega

/-- Members start with the quote of the first name. -/
theorem membersText_head {members : List (String × String)} (h : members ≠ []) :
    ∃ cs, (membersText members).toList = '"' :: cs := by
  cases members with
  | nil => exact absurd rfl h
  | cons m ms =>
    cases ms with
    | nil => simp [membersText_singleton, memberText_toList, quote_toList]
    | cons m' ms => simp [membersText_cons_cons, memberText_toList, quote_toList]

/-- What is read of a member, and what may follow it. -/
theorem readMembers_memberText {text : String × String} {member : String × JsonValue}
    (h : ReadsMember text member) {limit : Nat} (hl : text.2.length ≤ limit) (rest : List Char) :
    readMembers (limit + 1) ((memberText text).toList ++ rest) =
      match skipBlanks rest with
      | ',' :: rest => (readMembers limit rest).map fun p => (member :: p.1, p.2)
      | '\x7d' :: rest => some ([member], rest)
      | _ => none := by
  obtain ⟨k, v⟩ := text
  obtain ⟨_, value⟩ := member
  obtain ⟨rfl, hv⟩ := h
  have hcolon : ∀ cs, skipBlanks (':' :: cs) = ':' :: cs := skipBlanks_cons rfl
  simp only [memberText_toList, List.append_assoc, List.cons_append, readMembers, skipBlanks_quote,
    readString_quote, hcolon, hv limit rest hl, Option.bind_eq_bind, Option.bind_some]
  split
  · next rest' _ => cases readMembers limit rest' <;> rfl
  · rfl
  · rfl

/-- The members of an object, one after the other: the induction is on them, and
each takes more characters than it takes of the bound. -/
theorem readMembers_membersText (rest : List Char) {texts : List (String × String)}
    {members : List (String × JsonValue)} (h : List.Forall₂ ReadsMember texts members) :
    ∀ limit : Nat, texts ≠ [] → (membersText texts).length ≤ limit →
    readMembers limit ((membersText texts).toList ++ '\x7d' :: rest) = some (members, rest) := by
  induction h with
  | nil => exact fun _ h => absurd rfl h
  | @cons m member ms members hm hms ih =>
    intro limit _ hl
    have hlt := length_lt_memberText m
    cases ms with
    | nil =>
      cases hms
      rw [membersText_singleton] at hl ⊢
      obtain ⟨limit, rfl⟩ := Nat.exists_eq_add_one.2 (Nat.zero_lt_of_lt (Nat.lt_of_lt_of_le hlt hl))
      rw [readMembers_memberText hm (by omega), skipBlanks_cons rfl]
      rfl
    | cons m' ms =>
      rw [membersText_cons_cons] at hl ⊢
      simp only [String.length_append] at hl
      obtain ⟨limit, rfl⟩ := Nat.exists_eq_add_one.2 (show 0 < limit by omega)
      have htail := ih limit (List.cons_ne_nil _ _) (by omega)
      have hcomma : (",".toList) = [','] := by decide
      rw [String.toList_append, String.toList_append, List.append_assoc, List.append_assoc, hcomma,
        readMembers_memberText hm (by omega), List.singleton_append, skipBlanks_cons rfl]
      simp only [htail, Option.map_some]

/-- A value that starts with a brace and then a quote is what its members are. -/
theorem readValue_members (limit : Nat) (cs : List Char) :
    readValue (limit + 1) ('\x7b' :: '"' :: cs) =
      (readMembers limit ('"' :: cs)).map fun p => (.object p.1, p.2) := by
  have hbrace : skipBlanks ('\x7b' :: '"' :: cs) = '\x7b' :: '"' :: cs := skipBlanks_cons rfl _
  have hquote : skipBlanks ('"' :: cs) = '"' :: cs := skipBlanks_cons rfl _
  rw [readValue, hbrace]
  simp only [hquote]
  exact Option.map_eq_bind.symm

/-- **An object is read as its members**, in their order. -/
theorem Reads.object {texts : List (String × String)} {members : List (String × JsonValue)}
    (h : List.Forall₂ ReadsMember texts members) : Reads (object texts) (.object members) := by
  intro limit rest hl
  have hlist : (Json.object texts).toList = '\x7b' :: ((membersText texts).toList ++ ['\x7d']) := by
    simp [object_eq]
  have hlength : (Json.object texts).length = (membersText texts).length + 2 := by
    simpa only [List.length_cons, List.length_append, List.length_nil, String.length_toList] using
      congrArg List.length hlist
  obtain ⟨limit, rfl⟩ := Nat.exists_eq_add_one.2 (show 0 < limit by omega)
  rw [hlist, List.cons_append, List.append_assoc, List.singleton_append]
  by_cases hne : texts = []
  · subst hne
    cases h
    rfl
  · have hread := readMembers_membersText rest h limit hne (by omega)
    obtain ⟨cs, hcs⟩ := membersText_head hne
    rw [hcs, List.cons_append] at hread ⊢
    rw [readValue_members, hread]
    rfl

end Bundler.Json
