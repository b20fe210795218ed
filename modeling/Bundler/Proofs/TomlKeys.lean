/-
The keys of a TOML document. Whatever is put in a table is put at a key that it
does not have yet, or in place of what is there, so a table has each key once
(`putEntry_distinct`). No line of a document breaks that (`readLine_distinct`),
and the table that a document is has each key once (`parse_distinct`).
-/
import Mathlib.Data.List.Nodup
import Bundler.Proofs.Results
import Bundler.Toml.Document

namespace Bundler

namespace Toml

/-! ## Tables -/

/-- Each key occurs once. -/
def Distinct (entries : List Entry) : Prop := (entries.map (·.key.text)).Nodup

theorem Distinct.nil : Distinct [] := List.nodup_nil

/-- A key that occurs once is found where it is. -/
theorem Distinct.find?_eq_some_iff {entries : List Entry} (h : Distinct entries) {key : String} {e : Entry} :
    entries.find? (fun e => e.key.text = key) = some e ↔ e ∈ entries ∧ e.key.text = key := by
  constructor
  · intro hfind
    exact ⟨List.mem_of_find?_eq_some hfind, by simpa using List.find?_some hfind⟩
  · rintro ⟨hmem, hkey⟩
    cases hfind : entries.find? (fun e => e.key.text = key) with
    | none => exact absurd (decide_eq_true hkey) (List.find?_eq_none.1 hfind e hmem)
    | some e' =>
      have hkey' : e'.key.text = key := by simpa using List.find?_some hfind
      rw [List.inj_on_of_nodup_map h (List.mem_of_find?_eq_some hfind) hmem (hkey'.trans hkey.symm)]

theorem putEntry_distinct {entries : List Entry} (h : Distinct entries) (key : Key) (value : Value) :
    Distinct (putEntry entries key value) := by
  unfold putEntry
  split
  · have hkeys : (entries.map fun e => if e.key.text = key.text then Entry.mk e.key value else e).map (·.key.text) =
        entries.map (·.key.text) := by
      rw [List.map_map]
      refine List.map_congr_left fun e _ => ?_
      simp only [Function.comp_apply]
      split <;> rfl
    rw [Distinct, hkeys]
    exact h
  · next hnew =>
    have hkey : key.text ∉ entries.map (·.key.text) := by
      simpa using hnew
    rw [Distinct, List.map_append, List.map_cons, List.map_nil, ← List.concat_eq_append]
    exact List.Nodup.concat hkey h

/-- The value to be put may be the result of a step that can fail. -/
theorem putResult_distinct {α : Type} {entries out : List Entry} {key : Key} {result : Except Fault α}
    {value : α → Value} (h : Distinct entries)
    (hput : (do return putEntry entries key (value (← result))) = .ok out) : Distinct out := by
  obtain ⟨a, -, hout⟩ := bind_eq_ok hput
  cases hout
  exact putEntry_distinct h key (value a)

/-- A change of a table after which each key still occurs once. -/
def KeepsDistinct (change : List Entry → Except Fault (List Entry)) : Prop :=
  ∀ entries out, Distinct entries → change entries = .ok out → Distinct out

theorem addValue_keeps (value : Value) (keys : List Key) : KeepsDistinct fun entries => addValue entries value keys := by
  intro entries out h hadd
  change addValue entries value keys = .ok out at hadd
  unfold addValue at hadd
  split at hadd
  · cases hadd
    exact h
  · split at hadd
    · cases hadd
    · cases hadd
      exact putEntry_distinct h _ _
  · split at hadd
    · exact putResult_distinct h hadd
    · exact putResult_distinct h hadd
    · cases hadd

theorem defineTable_keeps (span : Span) (key : Key) : KeepsDistinct (defineTable span key) := by
  intro entries out h hdefine
  unfold defineTable at hdefine
  split at hdefine <;> cases hdefine <;> exact putEntry_distinct h _ _

theorem appendTable_keeps (span : Span) (key : Key) : KeepsDistinct (appendTable span key) := by
  intro entries out h happend
  unfold appendTable at happend
  split at happend <;> cases happend <;> exact putEntry_distinct h _ _

/-- Below the first step of a path, all that is changed is the value there. -/
theorem atPath_keeps {change : List Entry → Except Fault (List Entry)} (hchange : KeepsDistinct change)
    (path : List Key) : KeepsDistinct (atPath change path) := by
  intro entries out h hat
  unfold atPath at hat
  split at hat
  · exact hchange entries out h hat
  · split at hat
    · exact putResult_distinct h hat
    · exact putResult_distinct h hat
    · exact putResult_distinct h hat
    · cases hat

/-! ## Lines -/

theorem addHeader_distinct {d d' : Draft} {span : Span} {isArray : Bool} {path : List Key}
    (h : Distinct d.entries) (hadd : d.addHeader span isArray path = .ok d') : Distinct d'.entries := by
  unfold Draft.addHeader at hadd
  split at hadd
  · cases hadd
    exact h
  · next key _ =>
    obtain ⟨entries, hat, hd⟩ := bind_eq_ok hadd
    cases hd
    refine atPath_keeps ?_ _ _ _ h hat
    cases isArray
    · exact defineTable_keeps span key
    · exact appendTable_keeps span key

theorem addPair_distinct {d d' : Draft} {key : List Key} {value : Value} (h : Distinct d.entries)
    (hadd : d.addPair key value = .ok d') : Distinct d'.entries := by
  obtain ⟨entries, hat, hd⟩ := bind_eq_ok hadd
  cases hd
  exact atPath_keeps (addValue_keeps value key) _ _ _ h hat

theorem readLine_distinct {d d' : Draft} {c c' : Cursor} (h : Distinct d.entries)
    (hread : readLine d c = .ok (d', c')) : Distinct d'.entries := by
  unfold readLine at hread
  split at hread
  iterate 4
    · cases hread
      exact h
  · obtain ⟨⟨isArray, path, stop⟩, -, hread⟩ := bind_eq_ok hread
    obtain ⟨d'', hadd, hd⟩ := bind_eq_ok hread
    cases hd
    exact addHeader_distinct h hadd
  · obtain ⟨⟨key, value, stop⟩, -, hread⟩ := bind_eq_ok hread
    obtain ⟨d'', hadd, hd⟩ := bind_eq_ok hread
    cases hd
    exact addPair_distinct h hadd

theorem readLines_distinct : ∀ (lines : Nat) {d d' : Draft} {c : Cursor}, Distinct d.entries →
    readLines lines d c = .ok d' → Distinct d'.entries
  | 0, d, d', c, h, hread => by
    cases hread
    exact h
  | lines + 1, d, d', c, h, hread => by
    unfold readLines at hread
    obtain ⟨⟨next, c⟩, hline, hread⟩ := bind_eq_ok hread
    have hnext := readLine_distinct h hline
    obtain ⟨c, -, hread⟩ := bind_eq_ok hread
    split at hread
    · exact readLines_distinct lines hnext hread
    · cases hread
      exact hnext
    · cases hread

/-- **A document has each key once.** -/
theorem parse_distinct {text : String} {entries : List Entry} (h : parse text = .ok entries) : Distinct entries := by
  obtain ⟨d, hread, hd⟩ := bind_eq_ok h
  cases hd
  exact readLines_distinct _ .nil hread

end Toml

end Bundler
