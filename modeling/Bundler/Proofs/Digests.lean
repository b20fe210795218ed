/-
Digests as text. The digest of anything is 64 lower case hexadecimal digits
(`sha256_length`, `sha256_isHex`), each of them one byte long, so that the first
bytes of a digest are its first characters (`shortHash_eq_take`).
-/
import Bundler.Proofs.ByteOrder
import Bundler.Sha256

namespace Bundler

namespace Utf8

theorem encodeChar_ascii {c : Char} (h : c.toNat < 128) :
    String.utf8EncodeChar c = [UInt8.ofNat c.toNat] := by
  have hle : c.val.toNat ≤ 127 := Nat.le_of_lt_succ h
  simp only [String.utf8EncodeChar, hle, if_true]
  rfl

/-- The bytes of ASCII characters, one for each. -/
theorem flatMap_encodeChar_ascii : ∀ {cs : List Char}, (∀ c ∈ cs, c.toNat < 128) →
    cs.flatMap String.utf8EncodeChar = cs.map fun c => UInt8.ofNat c.toNat
  | [], _ => rfl
  | c :: cs, h => by
    rw [List.flatMap_cons, encodeChar_ascii (h c List.mem_cons_self), List.map_cons,
      flatMap_encodeChar_ascii fun d hd => h d (List.mem_cons_of_mem c hd)]
    rfl

end Utf8

/-! ## Hexadecimal digits -/

def hexDigits : List Char := "0123456789abcdef".toList

/-- A text of lower case hexadecimal digits. -/
def IsHex (s : String) : Prop := ∀ c ∈ s.toList, c ∈ hexDigits

theorem Sha256.hexDigit_mem : ∀ n < 16, Sha256.hexDigit n ∈ hexDigits := by decide

theorem sha256_isHex (bytes : List UInt8) : IsHex (sha256 bytes) := by
  intro c hc
  simp only [sha256, String.toList_ofList, List.mem_flatMap, Sha256.hexWord, List.mem_map] at hc
  obtain ⟨w, -, i, -, rfl⟩ := hc
  exact Sha256.hexDigit_mem _ (Nat.mod_lt _ (by decide))

theorem sha256_length (bytes : List UInt8) : (sha256 bytes).toList.length = 64 := by
  simp [sha256, Sha256.hexWord, Sha256.State.words]

/-! ## The beginning of a digest -/

theorem IsHex.ascii {s : String} (h : IsHex s) : ∀ c ∈ s.toList, c.toNat < 128 := by
  -- A Boolean, to be decided over the digits and not over all characters.
  have hall : hexDigits.all (fun c => c.toNat < 128) = true := by decide
  intro c hc
  simpa using List.all_eq_true.1 hall c (h c hc)

theorem IsHex.encode_eq {s : String} (h : IsHex s) :
    Utf8.encode s = s.toList.map fun c => UInt8.ofNat c.toNat := by
  rw [Utf8.encode_eq, Utf8.flatMap_encodeChar_ascii h.ascii]

theorem shortHash_eq_take {hash : String} (h : IsHex hash) (length : Nat) :
    shortHash hash length = String.ofList (hash.toList.take length) := by
  have htake : (Utf8.encode hash).take length = Utf8.encode (String.ofList (hash.toList.take length)) := by
    have hascii : ∀ c ∈ hash.toList.take length, c.toNat < 128 :=
      fun c hc => h.ascii c (List.mem_of_mem_take hc)
    rw [h.encode_eq, Utf8.encode_ofList, Utf8.flatMap_encodeChar_ascii hascii, List.map_take]
  have hbytes : (Utf8.encode hash).length = hash.toList.length := by rw [h.encode_eq, List.length_map]
  have hdecode : String.fromUTF8? ⟨((Utf8.encode hash).take length).toArray⟩ =
      some (String.ofList (hash.toList.take length)) := by
    rw [htake]
    exact Utf8.decode?_encode _
  unfold shortHash
  change (if length ≤ (Utf8.encode hash).length then
    (String.fromUTF8? ⟨((Utf8.encode hash).take length).toArray⟩).getD hash else hash) = _
  rw [hdecode, hbytes]
  split
  · rfl
  · next hlong => rw [List.take_of_length_le (Nat.le_of_not_le hlong), String.ofList_toList]

theorem mem_of_mem_shortHash {hash : String} (h : IsHex hash) {length : Nat} {c : Char}
    (hc : c ∈ (shortHash hash length).toList) : c ∈ hash.toList := by
  rw [shortHash_eq_take h, String.toList_ofList] at hc
  exact List.mem_of_mem_take hc

end Bundler
