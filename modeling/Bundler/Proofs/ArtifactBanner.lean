/-
The banner of an artifact. It is a comment that ends where it is meant to end,
whatever the entry is: what reads scripts passes over the banner and nothing else
(`banner_closes_once`). The digest in it is that of all that follows the banner.
That is what follows the first line, too, if the entry has no line end; one that
it has stands in the banner as it is, and the first line ends there
(`firstLine?_emit_torn`).
-/
import Bundler.Proofs.ArtifactImports
import Bundler.Script.Lexer

namespace Bundler

namespace Artifact

/-! ## Where a comment ends -/

/-- A comment ends where its end first stands. -/
theorem commentEnd?_first : ∀ {cs rest : List Char}, commentEnd? cs = some rest →
    ∃ front, cs = front ++ '*' :: '/' :: rest ∧
      ∀ before after, cs = before ++ '*' :: '/' :: after → ∃ more, before = front ++ more := by
  intro cs
  fun_induction commentEnd? cs with
  | case1 rest' =>
    intro rest h
    cases h
    exact ⟨[], rfl, fun before _ _ => ⟨before, rfl⟩⟩
  | case2 c cs hne ih =>
    intro rest h
    obtain ⟨front, rfl, hfirst⟩ := ih h
    refine ⟨c :: front, rfl, ?_⟩
    intro before after hcs
    cases before with
    | nil =>
      obtain ⟨hc, hrest⟩ := List.cons.inj hcs
      exact (hne after hc hrest).elim
    | cons d before =>
      obtain ⟨rfl, hrest⟩ := List.cons.inj hcs
      obtain ⟨more, rfl⟩ := hfirst before after hrest
      exact ⟨more, rfl⟩
  | case3 =>
    intro rest h
    cases h

end Artifact

namespace Script

open Artifact

/-- What reads scripts leaves a comment where its end first stands. -/
theorem skipGap_blockComment : ∀ {cs rest : List Char}, commentEnd? cs = some rest →
    ∀ (hasLineEnd : Bool) (offset : Nat) (faults : List Fault), ∃ hasLineEnd' n,
      cs.length = n + rest.length ∧
      skipGap .blockComment hasLineEnd offset faults cs =
        skipGap .blank hasLineEnd' (offset + n) faults rest := by
  intro cs
  fun_induction commentEnd? cs with
  | case1 rest' =>
    intro rest h hasLineEnd offset faults
    cases h
    exact ⟨hasLineEnd, 2, by simp; omega, rfl⟩
  | case2 c cs hne ih =>
    intro rest h hasLineEnd offset faults
    obtain ⟨hasLineEnd', n, hlength, hskip⟩ := ih h (hasLineEnd || isLineEnd c) (offset + 1) faults
    have hend : (c == '*' && cs.head? == some '/') = false := by
      rw [Bool.and_eq_false_imp]
      intro hc
      rw [beq_iff_eq] at hc
      cases cs with
      | nil => rfl
      | cons d ds =>
        rw [List.head?_cons, beq_eq_false_iff_ne]
        intro hd
        cases hd
        exact hne ds hc rfl
    refine ⟨hasLineEnd', n + 1, by rw [List.length_cons, hlength]; omega, ?_⟩
    rw [skipGap]
    simp only [hend, Bool.false_eq_true, if_false]
    rw [hskip, Nat.add_assoc, Nat.add_comm 1 n]
  | case3 =>
    intro rest h
    cases h

/-- A comment at the start of a script is passed over. -/
theorem skipGap_comment {inside rest : List Char} (h : commentEnd? (inside ++ '*' :: '/' :: rest) = some rest) :
    ∃ hasLineEnd, skipGap .blank false 0 [] ('/' :: '*' :: (inside ++ '*' :: '/' :: rest)) =
      skipGap .blank hasLineEnd (2 + inside.length + 2) [] rest := by
  obtain ⟨hasLineEnd, n, hlength, hskip⟩ := skipGap_blockComment h false 2 []
  have hn : 2 + inside.length + 2 = 2 + n := by
    simp only [List.length_append, List.length_cons] at hlength
    omega
  rw [hn]
  exact ⟨hasLineEnd, hskip⟩

theorem skipGap_lineEnd (hasLineEnd : Bool) (offset : Nat) (rest : List Char) :
    skipGap .blank hasLineEnd offset [] ('\n' :: '(' :: rest) = ⟨'(' :: rest, offset + 1, true, []⟩ := rfl

end Script

namespace Artifact

/-! ## Lines -/

/-- What is before the first line end, and what is after it. -/
def splitLine? : List Char → Option (List Char × List Char)
  | [] => none
  | c :: rest => if c = '\n' then some ([], rest) else (splitLine? rest).map fun p => (c :: p.1, p.2)

/-- The first line of a text, and what follows it. -/
def firstLine? (text : String) : Option (String × String) :=
  (splitLine? text.toList).map fun p => (String.ofList p.1, String.ofList p.2)

theorem splitLine?_append : ∀ {line : List Char}, '\n' ∉ line → ∀ rest : List Char,
    splitLine? (line ++ '\n' :: rest) = some (line, rest)
  | [], _, rest => by simp [splitLine?]
  | c :: line, h, rest => by
    rw [List.mem_cons, not_or] at h
    rw [List.cons_append, splitLine?, if_neg (Ne.symm h.1), splitLine?_append h.2]
    rfl

theorem firstLine?_append {line : String} (h : '\n' ∉ line.toList) (rest : String) :
    firstLine? (line ++ "\n" ++ rest) = some (line, rest) := by
  have hchars : (line ++ "\n" ++ rest).toList = line.toList ++ '\n' :: rest.toList := by simp
  rw [firstLine?, hchars, splitLine?_append h, Option.map_some, String.ofList_toList, String.ofList_toList]

theorem lineEnd_mem_inComment (cs : List Char) : '\n' ∈ inComment cs ↔ '\n' ∈ cs := by
  fun_induction inComment cs with
  | case1 rest ih => simp [ih]
  | case2 c rest _ ih => rw [List.mem_cons, List.mem_cons, ih]
  | case3 => rfl

/-- A line end stands in a comment as it is. -/
theorem inComment_append (before after : List Char) :
    inComment (before ++ '\n' :: after) = inComment before ++ '\n' :: inComment after := by
  fun_induction inComment before with
  | case1 rest ih => rw [List.cons_append, List.cons_append, inComment, ih]; rfl
  | case2 c rest hne ih =>
    rw [List.cons_append, List.cons_append, inComment, ih]
    intro rest' hc hrest
    cases rest with
    | nil => cases hrest
    | cons d ds =>
      obtain ⟨rfl, -⟩ := List.cons.inj hrest
      exact hne ds hc rfl
  | case3 => rfl

/-! ## The banner -/

/-- The banner up to where it ends. -/
def bannerFront (entry : ModuleId) (count : Nat) (style : LoaderStyle) (hash : String) : String :=
  "/*" ++ String.ofList (bannerInside entry count style hash)

section

variable (entry : ModuleId) (count : Nat) (style : LoaderStyle) (hash : String)

theorem bannerFront_toList :
    (bannerFront entry count style hash).toList = "/*".toList ++ bannerInside entry count style hash := by
  rw [bannerFront, String.toList_append, String.toList_ofList (l := bannerInside entry count style hash)]

theorem banner_length :
    (banner entry count style hash).length = 2 + (bannerInside entry count style hash).length + 2 + 1 := by
  have hopening : "/*".toList.length = 2 := rfl
  have hclosing : ('*' :: '/' :: "\n".toList).length = 2 + 1 := rfl
  rw [← String.length_toList, banner_toList, List.length_append, List.length_append, hopening, hclosing,
    ← Nat.add_assoc, ← Nat.add_assoc]

theorem banner_eq : banner entry count style hash = bannerFront entry count style hash ++ "*/" ++ "\n" := by
  apply String.toList_inj.1
  rw [banner_toList, bannerFront]
  simp

theorem occurs_entry :
    Occurs (String.ofList (inComment entry.text.toList)) (bannerFront entry count style hash) := by
  refine ⟨"/* jspack 0.3.0 | entry ", " " ++ bannerRest count style hash, ?_⟩
  apply String.toList_inj.1
  unfold bannerFront bannerInside
  simp

theorem occurs_shortHash : Occurs (shortHash hash 16) (bannerFront entry count style hash) := by
  have hrest : Occurs (shortHash hash 16) (bannerRest count style hash) := ⟨_, " ", rfl⟩
  refine hrest.trans ⟨"/* jspack 0.3.0 | entry " ++ String.ofList (inComment entry.text.toList) ++ " ", "", ?_⟩
  apply String.toList_inj.1
  unfold bannerFront bannerInside
  simp

end

/-- The banner is one line but for the line ends of the entry. -/
theorem lineEnd_mem_bannerFront {hash : String} (h : IsHex hash) (entry : ModuleId) (count : Nat)
    (style : LoaderStyle) :
    '\n' ∈ (bannerFront entry count style hash).toList ↔ '\n' ∈ entry.text.toList := by
  have hopening : '\n' ∉ "/*".toList := by decide
  have hname : '\n' ∉ " jspack 0.3.0 | entry ".toList := by decide
  have hrest := not_mem_bannerRest (.inr rfl) h count style
  rw [bannerFront_toList]
  unfold bannerInside
  rw [List.mem_append, List.mem_append, List.mem_append, List.mem_cons, lineEnd_mem_inComment]
  constructor
  · rintro (hm | hm | hm | hm | hm)
    · exact absurd hm hopening
    · exact absurd hm hname
    · exact hm
    · cases hm
    · exact absurd hm hrest
  · exact fun hm => .inr (.inr (.inl hm))

/-- Digits are no part of a text in which each stretch as long as they are has
something else. -/
theorem not_occurs_of_isHex {digits text : String} (h : IsHex digits) {n : Nat} (hn : digits.toList.length = n)
    (hother : ∀ i < text.toList.length + 1, ((text.toList.drop i).take n).length = n →
      ((text.toList.drop i).take n).all (fun c => c ∈ hexDigits) = false) : ¬ Occurs digits text := by
  rintro ⟨before, after, rfl⟩
  have hcut : ((before ++ digits ++ after).toList.drop before.toList.length).take n = digits.toList := by
    simp [← hn]
  have hall : digits.toList.all (fun c => c ∈ hexDigits) = true :=
    List.all_eq_true.2 fun c hc => decide_eq_true (h c hc)
  have hno := hother before.toList.length (by simp) (by rw [hcut, hn])
  rw [hcut, hall] at hno
  cases hno

/-! ## The body -/

theorem lines_cons (l : String) (ls : List String) : lines (l :: ls) = lines [l] ++ lines ls := by
  apply String.toList_inj.1
  simp [lines]

/-- The body starts as the loader does. -/
theorem exists_body_eq (entry : ModuleId) (table : ModuleTable) (style : LoaderStyle) :
    ∃ more, body entry table style = "(function (modules) \x7b\n" ++ more := by
  have hfirst : lines ["(function (modules) «"] = "(function (modules) \x7b\n" := by decide
  have hhead : ∃ more, loaderHead = "(function (modules) \x7b\n" ++ more := by
    rw [loaderHead, lines_cons, hfirst]
    exact ⟨_, rfl⟩
  obtain ⟨more, hmore⟩ := hhead
  refine ⟨more ++ loaderInvoke style ++ loaderTail ++ entryCall entry ++
    tableText style table.sort.records ++ ");\n", ?_⟩
  rw [body, hmore]
  simp only [String.append_assoc]

theorem exists_body_toList (entry : ModuleId) (table : ModuleTable) (style : LoaderStyle) :
    ∃ more, (body entry table style).toList = '(' :: more := by
  obtain ⟨more, hmore⟩ := exists_body_eq entry table style
  rw [hmore, String.toList_append]
  exact ⟨_, rfl⟩

/-! ## Artifacts -/

section

variable {entry : ModuleId} {table : ModuleTable} {style : LoaderStyle} {bundle : Bundle}

theorem hash_emit (h : emit entry table style = .ok bundle) :
    bundle.hash = sha256 (Utf8.encode (body entry table style)) := by
  rw [emit_ok h]

theorem isHex_emit (h : emit entry table style = .ok bundle) : IsHex bundle.hash :=
  hash_emit h ▸ sha256_isHex _

theorem text_emit (h : emit entry table style = .ok bundle) :
    bundle.text = banner entry table.records.length style bundle.hash ++ body entry table style := by
  rw [emit_ok h]

/-- All of an artifact: a comment, a line end, and the body. -/
theorem text_emit_toList (h : emit entry table style = .ok bundle) :
    bundle.text.toList = '/' :: '*' :: (bannerInside entry table.records.length style bundle.hash ++
      '*' :: '/' :: '\n' :: (body entry table style).toList) := by
  rw [text_emit h, String.toList_append, banner_toList, List.append_assoc, List.append_assoc]
  rfl

/-- The first end of a comment in an artifact is that of the banner. -/
theorem commentEnd?_emit (h : emit entry table style = .ok bundle) :
    commentEnd? bundle.text.toList = some ('\n' :: (body entry table style).toList) := by
  have hinside := commentEnd?_bannerInside (isHex_emit h) entry table.records.length style
    ('\n' :: (body entry table style).toList)
  have hblank : (bannerInside entry table.records.length style bundle.hash ++
      '*' :: '/' :: '\n' :: (body entry table style).toList).head? = some ' ' := rfl
  rw [text_emit_toList h, commentEnd?_cons (by simp), commentEnd?_cons (by simp [hblank]), hinside]

/-- The first line is the banner if there is no line end in the entry. -/
theorem firstLine?_emit (h : emit entry table style = .ok bundle) (hentry : '\n' ∉ entry.text.toList) :
    firstLine? bundle.text =
      some (bannerFront entry table.records.length style bundle.hash ++ "*/", body entry table style) := by
  have hfront : '\n' ∉ (bannerFront entry table.records.length style bundle.hash).toList := by
    rw [lineEnd_mem_bannerFront (isHex_emit h)]
    exact hentry
  have hline : '\n' ∉ (bannerFront entry table.records.length style bundle.hash ++ "*/").toList := by
    simpa using hfront
  rw [text_emit h, banner_eq, firstLine?_append hline]

/-- The first line ends in the entry if the entry has a line end. -/
theorem firstLine?_emit_torn (h : emit entry table style = .ok bundle) {before after : List Char}
    (hentry : entry.text.toList = before ++ '\n' :: after) (hbefore : '\n' ∉ before) :
    firstLine? bundle.text = some ("/* jspack 0.3.0 | entry " ++ String.ofList (inComment before),
      String.ofList (inComment after) ++ " " ++ bannerRest table.records.length style bundle.hash ++ "*/" ++
        "\n" ++ body entry table style) := by
  have hopening : '\n' ∉ "/* jspack 0.3.0 | entry ".toList := by decide
  have hline : '\n' ∉ ("/* jspack 0.3.0 | entry " ++ String.ofList (inComment before)).toList := by
    rw [String.toList_append, List.mem_append, not_or]
    refine ⟨hopening, ?_⟩
    rw [String.toList_ofList (l := inComment before), lineEnd_mem_inComment]
    exact hbefore
  rw [← firstLine?_append hline, text_emit h, banner_eq]
  apply congrArg
  apply String.toList_inj.1
  unfold bannerFront bannerInside
  rw [hentry, inComment_append]
  simp

end

/-- **The digest of an artifact is that of all that follows the banner**, which is
what follows the first line exactly if no line end is in the entry. Then the digest
starts in that line. -/
theorem emit_firstLine {entry : ModuleId} {table : ModuleTable} {style : LoaderStyle} {bundle : Bundle}
    (h : emit entry table style = .ok bundle) :
    bundle.hash = sha256 (Utf8.encode (body entry table style)) ∧
    IsHex bundle.hash ∧ bundle.hash.toList.length = 64 ∧
    (∃ more, body entry table style = "(function (modules) \x7b\n" ++ more) ∧
    ∃ line rest, firstLine? bundle.text = some (line, rest) ∧
      (rest = body entry table style ↔ '\n' ∉ entry.text.toList) ∧
      ('\n' ∉ entry.text.toList → Occurs (String.ofList (bundle.hash.toList.take 16)) line) := by
  have hlength : bundle.hash.toList.length = 64 := hash_emit h ▸ sha256_length _
  refine ⟨hash_emit h, isHex_emit h, hlength, exists_body_eq entry table style, ?_⟩
  by_cases hentry : '\n' ∈ entry.text.toList
  · obtain ⟨before, after, hsplit, hbefore⟩ := List.eq_append_cons_of_mem hentry
    refine ⟨_, _, firstLine?_emit_torn h hsplit hbefore, iff_of_false ?_ (not_not_intro hentry), ?_⟩
    · intro hrest
      have hcount := congrArg String.length hrest
      simp only [String.length_append] at hcount
      have hend : "*/".length = 2 := rfl
      omega
    · exact fun hn => absurd hentry hn
  · refine ⟨_, _, firstLine?_emit h hentry, iff_of_true rfl hentry, ?_⟩
    intro _
    have hfront := occurs_shortHash entry table.records.length style bundle.hash
    rw [shortHash_eq_take (isHex_emit h)] at hfront
    exact hfront.trans ⟨"", "*/", by rw [String.empty_append]⟩

/-- An entry with other ends of lines, and with ends of comments. -/
theorem emit_firstLine_separators :
    let entry : ModuleId := ⟨"/\x0d\u2028*/m*/.js"⟩
    let table : ModuleTable := ⟨[⟨entry, "\n", [("./\n", entry)], ""⟩]⟩
    ∃ bundle line, emit entry table .factory = .ok bundle ∧
      firstLine? bundle.text = some (line, body entry table .factory) ∧
      bundle.hash = sha256 (Utf8.encode (body entry table .factory)) ∧
      Occurs (String.ofList (bundle.hash.toList.take 16)) line := by
  intro entry table
  obtain ⟨bundle, h⟩ := emit_of_closed (show entry ∈ table.ids by decide)
    (show table.missingDependencies = [] by decide) .factory
  have hentry : '\n' ∉ entry.text.toList := by decide
  obtain ⟨hhash, -, -, -, line, rest, hline, hrest, hshort⟩ := emit_firstLine h
  obtain rfl := hrest.2 hentry
  exact ⟨bundle, line, h, hline, hhash, hshort hentry⟩

/-- An entry with a line end: what follows the first line is not what the digest
is of, and none of the digest is in that line. -/
theorem emit_firstLine_torn :
    let entry : ModuleId := ⟨"/a\nb.js"⟩
    let table : ModuleTable := ⟨[⟨entry, "", [], ""⟩]⟩
    ∃ bundle line rest, emit entry table .eval = .ok bundle ∧
      firstLine? bundle.text = some (line, rest) ∧ line = "/* jspack 0.3.0 | entry /a" ∧
      rest ≠ body entry table .eval ∧ (¬ ∃ more, rest = "(function (modules) \x7b\n" ++ more) ∧
      ¬ Occurs (String.ofList (bundle.hash.toList.take 16)) line := by
  intro entry table
  obtain ⟨bundle, h⟩ := emit_of_closed (show entry ∈ table.ids by decide)
    (show table.missingDependencies = [] by decide) .eval
  have hsplit : entry.text.toList = ['/', 'a'] ++ '\n' :: ['b', '.', 'j', 's'] := by decide
  have htorn := firstLine?_emit_torn h hsplit (by decide)
  have hline : "/* jspack 0.3.0 | entry " ++ String.ofList (inComment ['/', 'a']) =
      "/* jspack 0.3.0 | entry /a" := by decide
  have hloader : ∀ more, String.ofList (inComment ['b', '.', 'j', 's']) ++ " " ++
      bannerRest table.records.length .eval bundle.hash ++ "*/" ++ "\n" ++ body entry table .eval ≠
        "(function (modules) \x7b\n" ++ more := by
    intro more he
    have hfirst := congrArg (fun s => s.toList.head?) he
    simp [inComment] at hfirst
  rw [hline] at htorn
  refine ⟨bundle, _, _, h, htorn, rfl, ?_, fun ⟨more, he⟩ => hloader more he, ?_⟩
  · intro he
    obtain ⟨more, hmore⟩ := exists_body_eq entry table .eval
    exact hloader more (he.trans hmore)
  · have hlength : bundle.hash.toList.length = 64 := hash_emit h ▸ sha256_length _
    have hshort : IsHex (String.ofList (bundle.hash.toList.take 16)) := by
      intro c hc
      rw [String.toList_ofList] at hc
      exact isHex_emit h c (List.mem_of_mem_take hc)
    refine not_occurs_of_isHex hshort (n := 16) ?_ (by decide)
    rw [String.toList_ofList, List.length_take, hlength]
    rfl

/-- **The banner is a comment that ends where it is meant to**, whatever characters
are in the entry: it is closed by what is written at its end, and nowhere before.
A line end follows, and then the body, which is where what reads scripts starts. -/
theorem banner_closes_once {entry : ModuleId} {table : ModuleTable} {style : LoaderStyle} {bundle : Bundle}
    (h : emit entry table style = .ok bundle) :
    ∃ front, banner entry table.records.length style bundle.hash = front ++ "*/" ++ "\n" ∧
      bundle.text = front ++ "*/" ++ ("\n" ++ body entry table style) ∧
      Occurs (String.ofList (inComment entry.text.toList)) front ∧
      (∀ before after, bundle.text = before ++ "*/" ++ after → ∃ more, before = front ++ more) ∧
      Script.skipGap .blank false 0 [] bundle.text.toList =
        ⟨(body entry table style).toList,
          (banner entry table.records.length style bundle.hash).length, true, []⟩ := by
  have hchars := text_emit_toList h
  have hbanner := banner_eq entry table.records.length style bundle.hash
  refine ⟨_, hbanner, ?_, occurs_entry entry table.records.length style bundle.hash, ?_, ?_⟩
  · rw [text_emit h, hbanner]
    simp only [String.append_assoc]
  · obtain ⟨front, hfront, hfirst⟩ := commentEnd?_first (commentEnd?_emit h)
    have hsame : (bannerFront entry table.records.length style bundle.hash).toList = front := by
      rw [hchars, ← List.cons_append, ← List.cons_append] at hfront
      rw [bannerFront_toList]
      exact List.append_cancel_right hfront
    intro before after htext
    obtain ⟨more, hmore⟩ := hfirst before.toList after.toList (by rw [htext]; simp)
    refine ⟨String.ofList more, ?_⟩
    apply String.toList_inj.1
    rw [hmore, String.toList_append, String.toList_ofList, hsame]
  · have hinside := commentEnd?_bannerInside (isHex_emit h) entry table.records.length style
      ('\n' :: (body entry table style).toList)
    obtain ⟨hasLineEnd, hskip⟩ := Script.skipGap_comment hinside
    obtain ⟨more, hbody⟩ := exists_body_toList entry table style
    rw [hchars, hskip, hbody, Script.skipGap_lineEnd, banner_length]

/-- An entry of stars, slashes and line ends that starts and ends a comment over
and over. -/
theorem banner_closes_once_stars :
    let entry : ModuleId := ⟨"/**/*//\\*\\/\n*/**"⟩
    let table : ModuleTable := ⟨[⟨entry, "*/", [("*/", entry)], ""⟩]⟩
    ∃ bundle front, emit entry table .eval = .ok bundle ∧
      bundle.text = front ++ "*/" ++ ("\n" ++ body entry table .eval) ∧
      Occurs "/**\\/*\\//\\*\\/\n*\\/**" front ∧
      (∀ before after, bundle.text = before ++ "*/" ++ after → ∃ more, before = front ++ more) ∧
      (Script.skipGap .blank false 0 [] bundle.text.toList).rest = (body entry table .eval).toList := by
  intro entry table
  obtain ⟨bundle, h⟩ := emit_of_closed (show entry ∈ table.ids by decide)
    (show table.missingDependencies = [] by decide) .eval
  obtain ⟨front, -, htext, hentry, hfirst, hskip⟩ := banner_closes_once h
  have hescaped : String.ofList (inComment entry.text.toList) = "/**\\/*\\//\\*\\/\n*\\/**" := by decide
  refine ⟨bundle, front, h, htext, hescaped ▸ hentry, hfirst, ?_⟩
  rw [hskip]

end Artifact

end Bundler
