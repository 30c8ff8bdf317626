import Mathlib.Data.List.TakeWhile
import TestBeam.Toml.Printer
import TestBeam.Toml.Text

/-!
# Strings and keys read back

The writer picks one of five spellings of a string. Each reader undoes its own spelling, so the text of
a string or key reads back as that string or key, whatever characters it holds.
-/

namespace TestBeam.Toml

/-! ## Escapes -/

theorem hexValue_hexDigit : ∀ n < 16, hexValue? (hexDigit n) = some n := by decide

theorem isControl_lt (c : Char) (h : isControl c = true) : c.toNat < 128 := by
  unfold isControl at h
  simp only [Bool.or_eq_true, Bool.and_eq_true, decide_eq_true_eq] at h
  omega

theorem readCode_hexDigits (c : Char) (h : isControl c = true) (rest : List Char) :
    readCode 4 ('0' :: '0' :: hexDigit (c.toNat / 16) :: hexDigit (c.toNat % 16) :: rest) =
      some (c, rest) := by
  have hlt := isControl_lt c h
  have h0 : hexValue? '0' = some 0 := by decide
  have h1 := hexValue_hexDigit (c.toNat / 16) (by omega)
  have h2 := hexValue_hexDigit (c.toNat % 16) (by omega)
  have hcode : 16 * (c.toNat / 16) + c.toNat % 16 = c.toNat := by omega
  have hvalid : c.toNat.isValidChar := c.valid
  simp [readCode, h0, h1, h2, hcode, hvalid]

theorem escapeChar_cases (c : Char) :
    (escapeChar c = [c] ∧ c ≠ '\\' ∧ (isTextChar c = true ∨ c = '\n')) ∨
    ∃ d body, escapeChar c = '\\' :: d :: body ∧ d ∈ ['b', 't', 'f', 'r', '\\', 'u'] ∧
      ∀ rest, readEscape (d :: body ++ rest) = some (c, rest) := by
  by_cases hb : c = '\x08'
  · exact .inr ⟨'b', [], by simp [escapeChar, hb], by simp, by simp [readEscape, hb]⟩
  by_cases ht : c = '\t'
  · exact .inr ⟨'t', [], by simp [escapeChar, ht], by simp, by simp [readEscape, ht]⟩
  by_cases hf : c = '\x0c'
  · exact .inr ⟨'f', [], by simp [escapeChar, hf], by simp, by simp [readEscape, hf]⟩
  by_cases hr : c = '\r'
  · exact .inr ⟨'r', [], by simp [escapeChar, hr], by simp, by simp [readEscape, hr]⟩
  by_cases hs : c = '\\'
  · exact .inr ⟨'\\', [], by simp [escapeChar, hs], by simp, by simp [readEscape, hs]⟩
  by_cases hc : isControl c = true
  · refine .inr ⟨'u', ['0', '0', hexDigit (c.toNat / 16), hexDigit (c.toNat % 16)], ?_, by simp, ?_⟩
    · simp [escapeChar, hb, ht, hf, hr, hs, hc]
    · intro rest
      simpa [readEscape] using readCode_hexDigits c hc rest
  · refine .inl ⟨by simp [escapeChar, hb, ht, hf, hr, hs, hc], hs, ?_⟩
    by_cases hn : c = '\n'
    · exact .inr hn
    · exact .inl (by simp [isTextChar, hc, hn])

/-! ## One line between quotes -/

theorem escapeLine_cons (c : Char) (cs : List Char) :
    escapeLine (c :: cs) =
      (if c = '\n' then ['\\', 'n'] else if c = '"' then ['\\', '"'] else escapeChar c) ++
        escapeLine cs := by
  simp [escapeLine]

theorem readLine_escapeLine (cs rest : List Char) (fuel : Nat) (h : cs.length < fuel) :
    readLine fuel (escapeLine cs ++ '"' :: rest) = some (cs, rest) := by
  induction cs generalizing fuel with
  | nil =>
    obtain ⟨fuel, rfl⟩ := Nat.exists_eq_add_one.mpr h
    simp [escapeLine, readLine]
  | cons c cs ih =>
    obtain ⟨fuel, rfl⟩ := Nat.exists_eq_add_one.mpr (by omega : 0 < fuel)
    have ih := ih fuel (by simpa using h)
    rw [escapeLine_cons]
    by_cases hn : c = '\n'
    · simp [hn, readLine, readEscape, ih]
    by_cases hq : c = '"'
    · simp [hq, readLine, readEscape, ih]
    rw [if_neg hn, if_neg hq]
    rcases escapeChar_cases c with ⟨he, hs, ht⟩ | ⟨d, body, he, -, hread⟩
    · simp [he, readLine, hq, hs, ht.resolve_right hn, ih]
    · have hread := hread (escapeLine cs ++ '"' :: rest)
      simp only [List.cons_append] at hread
      simp [he, readLine, hread, ih]

theorem length_le_escapeLine (cs : List Char) : cs.length ≤ (escapeLine cs).length := by
  induction cs with
  | nil => simp
  | cons c cs ih =>
    have hpos : 0 < (escapeChar c).length := by
      rcases escapeChar_cases c with ⟨he, -⟩ | ⟨d, body, he, -⟩ <;> simp [he]
    rw [escapeLine_cons]
    split
    · simp; omega
    · split <;> simp <;> omega

theorem readSingle_quoteLine (cs rest : List Char) :
    readSingle (quoteLine cs ++ rest) = some (cs, rest) := by
  have h := length_le_escapeLine cs
  have hread := readLine_escapeLine cs rest ((escapeLine cs ++ '"' :: rest).length + 1) (by
    rw [List.length_append]; omega)
  simpa [quoteLine, readSingle] using hread

/-! ## One line between apostrophes -/

theorem readLiteralLine_append (cs rest : List Char)
    (h : ∀ c ∈ cs, isTextChar c = true ∧ c ≠ '\x27') :
    readLiteralLine (cs ++ '\x27' :: rest) = some (cs, rest) := by
  induction cs with
  | nil => simp [readLiteralLine]
  | cons c cs ih =>
    have hc := h c (by simp)
    have ih := ih fun d hd => h d (by simp [hd])
    simp [readLiteralLine, hc.1, hc.2, ih]

theorem readSingle_literalLine (cs rest : List Char)
    (h : ∀ c ∈ cs, isTextChar c = true ∧ c ≠ '\x27') :
    readSingle (literalLine cs ++ rest) = some (cs, rest) := by
  simpa [literalLine, readSingle] using readLiteralLine_append cs rest h

/-! ## Several lines -/

/-- No run of marks is longer than two, given how many stand in front. -/
def shortRuns (mark : Char) : Nat → List Char → Prop
  | run, [] => run ≤ 2
  | run, c :: cs => run ≤ 2 ∧ shortRuns mark (if c = mark then run + 1 else 0) cs

theorem shortRuns.takeWhile_le {mark : Char} {run : Nat} {cs : List Char}
    (h : shortRuns mark run cs) : (cs.takeWhile (· == mark)).length + run ≤ 2 := by
  induction cs generalizing run with
  | nil => simpa [shortRuns] using h
  | cons c cs ih =>
    obtain ⟨hrun, htail⟩ := h
    by_cases hc : c = mark
    · have := ih htail
      simp [hc] at this ⊢
      omega
    · simpa [hc] using hrun

theorem shortRuns_of_foldl (mark : Char) (cs : List Char) (run best : Nat) (hle : run ≤ best)
    (h : (cs.foldl (fun (state : Nat × Nat) d =>
      (if d = mark then state.1 + 1 else 0,
        max state.2 (if d = mark then state.1 + 1 else 0))) (run, best)).2 ≤ 2) :
    best ≤ 2 ∧ shortRuns mark run cs := by
  induction cs generalizing run best with
  | nil => exact ⟨h, Nat.le_trans hle h⟩
  | cons c cs ih =>
    rw [List.foldl_cons] at h
    obtain ⟨hbest, htail⟩ := ih _ _ (Nat.le_max_right ..) h
    exact ⟨by omega, by omega, htail⟩

theorem shortRuns_of_longestRun (mark : Char) (cs : List Char) (h : longestRun mark cs ≤ 2) :
    shortRuns mark 0 cs :=
  (shortRuns_of_foldl mark cs 0 0 (Nat.le_refl 0) h).2

theorem readClosing_append (mark : Char) (cs rest : List Char)
    (hshort : (cs.takeWhile (· == mark)).length ≤ 2) (hrest : rest.head? ≠ some mark) :
    readClosing mark (cs ++ mark :: mark :: mark :: rest) =
      if cs.all (· == mark) then some (cs, rest) else none := by
  -- The closing is found at once if only marks are left, and not before.
  have hstop : rest.takeWhile (· == mark) = [] := by
    cases rest with
    | nil => rfl
    | cons c rest => simpa [List.takeWhile_cons] using hrest
  split
  · rename_i hall
    have hmem : ∀ c ∈ cs, (c == mark) = true := by simpa using hall
    have hrep : cs = List.replicate cs.length mark :=
      List.eq_replicate_of_mem fun c hc => by simpa using hmem c hc
    have hrun : ((cs ++ mark :: mark :: mark :: rest).takeWhile (· == mark)).length =
        cs.length + 3 := by
      rw [List.takeWhile_append_of_pos hmem]
      simp [hstop]
    have hlen : cs.length ≤ 2 := by
      rw [List.takeWhile_eq_self_iff.mpr hmem] at hshort
      omega
    have hkept : min cs.length 2 = cs.length := by omega
    unfold readClosing
    simp only [hrun]
    rw [if_neg (by omega), Nat.add_sub_cancel, hkept, ← hrep]
    simp
  · rename_i hall
    have hne : ¬ ∀ c ∈ cs, (c == mark) = true := by simpa using hall
    have hrun : (cs ++ mark :: mark :: mark :: rest).takeWhile (· == mark) =
        cs.takeWhile (· == mark) := by
      rw [List.takeWhile_append, if_neg]
      intro hlen
      have := List.takeWhile_eq_self_iff.mp
        ((List.takeWhile_prefix (p := (· == mark))).eq_of_length hlen)
      exact hne this
    unfold readClosing
    simp only [hrun]
    rw [if_pos (by omega)]

theorem readLineBreak_textChar {c : Char} (h : isTextChar c = true) (rest : List Char) :
    readLineBreak (c :: rest) = none := by
  unfold readLineBreak
  split <;> simp_all [isTextChar, isControl]

/-! ### Between triple quotes -/

theorem escapeChar_head (c : Char) (hc : c ≠ '"') :
    ∃ d body, escapeChar c = d :: body ∧ d ≠ '"' := by
  rcases escapeChar_cases c with ⟨he, -⟩ | ⟨d, body, he, -⟩
  · exact ⟨c, [], he, hc⟩
  · exact ⟨'\\', d :: body, he, by decide⟩

theorem takeWhile_escapeLines_le (cs : List Char) (run : Nat) (hrun : run ≤ 2) :
    ((escapeLines run cs).takeWhile (· == '"')).length + run ≤ 2 := by
  induction cs generalizing run with
  | nil => simpa [escapeLines] using hrun
  | cons c cs ih =>
    by_cases hc : c = '"'
    · by_cases h2 : run = 2
      · simp [escapeLines, hc, h2]
      · have := ih (run + 1) (by omega)
        simp [escapeLines, hc, h2]
        omega
    · obtain ⟨d, body, he, hd⟩ := escapeChar_head c hc
      simpa [escapeLines, hc, he, hd] using hrun

theorem escapeLines_eq_self (cs : List Char) (run : Nat)
    (h : (escapeLines run cs).all (· == '"') = true) : escapeLines run cs = cs := by
  induction cs generalizing run with
  | nil => rfl
  | cons c cs ih =>
    by_cases hc : c = '"'
    · by_cases h2 : run = 2
      · simp [escapeLines, hc, h2] at h
      · unfold escapeLines at h ⊢
        simp only [hc, h2, if_true, if_false, List.all_cons, Bool.and_eq_true] at h ⊢
        rw [ih _ h.2]
    · obtain ⟨d, body, he, hd⟩ := escapeChar_head c hc
      simp [escapeLines, hc, he, hd] at h

theorem readContinuation_escape {d : Char} (hd : d ∈ ['b', 't', 'f', 'r', '\\', 'u', '"'])
    (rest : List Char) : readContinuation (d :: rest) = none := by
  simp only [List.mem_cons, List.not_mem_nil, or_false] at hd
  rcases hd with rfl | rfl | rfl | rfl | rfl | rfl | rfl <;>
    simp [readContinuation, skipSpace, isSpace, readLineBreak]

theorem readLines_escapeLines (cs rest : List Char) (hrest : rest.head? ≠ some '"') (run : Nat)
    (hrun : run ≤ 2) (fuel : Nat) (h : cs.length < fuel) :
    readLines fuel (escapeLines run cs ++ '"' :: '"' :: '"' :: rest) = some (cs, rest) := by
  induction cs generalizing run fuel with
  | nil =>
    obtain ⟨fuel, rfl⟩ := Nat.exists_eq_add_one.mpr h
    have hclose := readClosing_append '"' [] rest (by simp) hrest
    simp only [List.nil_append, List.all_nil, if_true] at hclose
    simp [escapeLines, readLines, hclose]
  | cons c cs ih =>
    obtain ⟨fuel, rfl⟩ := Nat.exists_eq_add_one.mpr (by omega : 0 < fuel)
    have hlen : cs.length < fuel := by simpa using h
    have hclose := readClosing_append '"' (escapeLines run (c :: cs)) rest
      (by have := takeWhile_escapeLines_le (c :: cs) run hrun; omega) hrest
    by_cases hall : (escapeLines run (c :: cs)).all (· == '"') = true
    · -- Only quotes are left, and the closing takes them all.
      have hself := escapeLines_eq_self _ _ hall
      rw [if_pos hall, hself] at hclose
      rw [hself, List.cons_append, readLines]
      simp only [List.cons_append] at hclose
      rw [hclose]
    rw [if_neg hall] at hclose
    by_cases hc : c = '"'
    · subst hc
      -- A third quote in a row would close the string, so it is escaped.
      by_cases h2 : run = 2
      · have hcont := readContinuation_escape (d := '"') (by simp)
          (escapeLines 0 cs ++ '"' :: '"' :: '"' :: rest)
        unfold escapeLines at hclose ⊢
        simp only [h2, if_true, List.cons_append] at hclose ⊢
        unfold readLines
        rw [hclose]
        simp [hcont, readEscape, ih 0 (by omega) fuel hlen]
      · unfold escapeLines at hclose ⊢
        simp only [h2, if_true, if_false, List.cons_append] at hclose ⊢
        unfold readLines
        rw [hclose]
        simp [readLineBreak, isTextChar, isControl, ih (run + 1) (by omega) fuel hlen]
    have ih := ih 0 (by omega) fuel hlen
    unfold escapeLines at hclose ⊢
    simp only [hc, if_false, List.append_assoc] at hclose ⊢
    rcases escapeChar_cases c with ⟨he, hs, ht⟩ | ⟨d, body, he, hd, hread⟩
    · rw [he] at hclose ⊢
      simp only [List.cons_append, List.nil_append] at hclose ⊢
      unfold readLines
      rw [hclose]
      rcases ht with ht | rfl
      · simp [hs, readLineBreak_textChar ht, ht, ih]
      · simp [readLineBreak, ih]
    · rw [he] at hclose ⊢
      have hread := hread (escapeLines 0 cs ++ '"' :: '"' :: '"' :: rest)
      have hcont := readContinuation_escape
        (List.mem_append_left ['"'] hd : d ∈ ['b', 't', 'f', 'r', '\\', 'u'] ++ ['"'])
        (body ++ (escapeLines 0 cs ++ '"' :: '"' :: '"' :: rest))
      simp only [List.cons_append] at hclose hread ⊢
      unfold readLines
      rw [hclose]
      simp [hcont, hread, ih]

theorem length_le_escapeLines (cs : List Char) (run : Nat) :
    cs.length ≤ (escapeLines run cs).length := by
  induction cs generalizing run with
  | nil => simp [escapeLines]
  | cons c cs ih =>
    by_cases hc : c = '"'
    · by_cases h2 : run = 2
      · have := ih 0
        simp [escapeLines, hc, h2]
        omega
      · simpa [escapeLines, hc, h2] using ih (run + 1)
    · have := ih 0
      obtain ⟨d, body, he, -⟩ := escapeChar_head c hc
      simp [escapeLines, hc, he]
      omega

theorem skipOpening_opening (cs body : List Char)
    (h : '\n' ∉ cs → ∃ c rest, body = c :: rest ∧ isTextChar c = true) :
    skipOpening (opening cs ++ body) = body := by
  by_cases hn : '\n' ∈ cs
  · simp [opening, hn, skipOpening, readLineBreak]
  · obtain ⟨c, rest, rfl, hc⟩ := h hn
    simp [opening, hn, skipOpening, readLineBreak_textChar hc]

theorem escapeLines_append_head (cs rest : List Char) (h : '\n' ∉ cs) :
    ∃ c body, escapeLines 0 cs ++ '"' :: rest = c :: body ∧ isTextChar c = true := by
  cases cs with
  | nil => exact ⟨'"', rest, rfl, by decide⟩
  | cons c cs =>
    by_cases hc : c = '"'
    · exact ⟨'"', escapeLines 1 cs ++ '"' :: rest, by simp [escapeLines, hc], by decide⟩
    · have hn : c ≠ '\n' := by
        rintro rfl
        exact h (by simp)
      rcases escapeChar_cases c with ⟨he, -, ht⟩ | ⟨d, body, he, -⟩
      · exact ⟨c, escapeLines 0 cs ++ '"' :: rest, by simp [escapeLines, hc, he],
          ht.resolve_right hn⟩
      · exact ⟨'\\', d :: body ++ (escapeLines 0 cs ++ '"' :: rest), by simp [escapeLines, hc, he],
          by decide⟩

theorem readString_quoteLines (cs rest : List Char) (hrest : rest.head? ≠ some '"') :
    readString (quoteLines cs ++ rest) = some (cs, rest) := by
  have hlen := length_le_escapeLines cs 0
  have hopen := skipOpening_opening cs (escapeLines 0 cs ++ '"' :: '"' :: '"' :: rest)
    (escapeLines_append_head cs ('"' :: '"' :: rest))
  have hread := readLines_escapeLines cs rest hrest 0 (by omega)
    ((opening cs ++ (escapeLines 0 cs ++ '"' :: '"' :: '"' :: rest)).length + 1)
    (by simp only [List.length_append]; omega)
  unfold quoteLines
  simp only [List.cons_append, List.append_assoc, List.nil_append, readString]
  rw [hopen]
  exact hread

/-! ### Between triple apostrophes -/

theorem readLiteralLines_append (cs rest : List Char) (run : Nat)
    (hruns : shortRuns '\x27' run cs) (hrest : rest.head? ≠ some '\x27')
    (htext : ∀ c ∈ cs, isTextChar c = true ∨ c = '\n') (fuel : Nat) (h : cs.length < fuel) :
    readLiteralLines fuel (cs ++ '\x27' :: '\x27' :: '\x27' :: rest) = some (cs, rest) := by
  induction cs generalizing run fuel with
  | nil =>
    obtain ⟨fuel, rfl⟩ := Nat.exists_eq_add_one.mpr h
    have hclose := readClosing_append '\x27' [] rest (by simp) hrest
    simp only [List.nil_append, List.all_nil, if_true] at hclose
    simp [readLiteralLines, hclose]
  | cons c cs ih =>
    obtain ⟨fuel, rfl⟩ := Nat.exists_eq_add_one.mpr (by omega : 0 < fuel)
    have hclose := readClosing_append '\x27' (c :: cs) rest
      (by have := hruns.takeWhile_le; omega) hrest
    have ih := ih _ hruns.2 (fun d hd => htext d (by simp [hd])) fuel (by simpa using h)
    simp only [List.cons_append] at hclose ⊢
    unfold readLiteralLines
    rw [hclose]
    by_cases hall : (c :: cs).all (· == '\x27') = true
    · rw [if_pos hall]
    rw [if_neg hall]
    rcases htext c (by simp) with ht | rfl
    · simp [readLineBreak_textChar ht, ht, ih]
    · simp [readLineBreak, ih]

theorem readString_literalLines (cs rest : List Char) (hruns : shortRuns '\x27' 0 cs)
    (hrest : rest.head? ≠ some '\x27') (htext : ∀ c ∈ cs, isTextChar c = true ∨ c = '\n') :
    readString (literalLines cs ++ rest) = some (cs, rest) := by
  have hopen := skipOpening_opening cs (cs ++ '\x27' :: '\x27' :: '\x27' :: rest) (by
    intro hn
    cases cs with
    | nil => exact ⟨_, _, rfl, by decide⟩
    | cons c cs =>
      refine ⟨c, _, rfl, (htext c (by simp)).resolve_right ?_⟩
      rintro rfl
      exact hn (by simp))
  have hread := readLiteralLines_append cs rest 0 hruns hrest htext
    ((opening cs ++ (cs ++ '\x27' :: '\x27' :: '\x27' :: rest)).length + 1)
    (by simp only [List.length_append]; omega)
  unfold literalLines
  simp only [List.cons_append, List.append_assoc, List.nil_append, readString]
  rw [hopen]
  exact hread

/-! ## Any string -/

theorem readString_quoteLine (cs rest : List Char) (hrest : rest.head? ≠ some '"') :
    readString (quoteLine cs ++ rest) = some (cs, rest) := by
  rw [← readSingle_quoteLine cs rest]
  have hthree : ∀ t, quoteLine cs ++ rest ≠ '"' :: '"' :: '"' :: t := by
    intro t ht
    cases cs with
    | nil =>
      unfold quoteLine escapeLine at ht
      simp only [List.flatMap_nil, List.nil_append, List.cons_append,
        List.cons.injEq, true_and] at ht
      exact hrest (by rw [ht]; rfl)
    | cons c cs =>
      unfold quoteLine at ht
      simp only [escapeLine_cons] at ht
      by_cases hn : c = '\n'
      · simp [hn] at ht
      by_cases hq : c = '"'
      · simp [hq] at ht
      obtain ⟨d, body, he, hd⟩ := escapeChar_head c hq
      simp [hn, hq, he, hd] at ht
  have hfour : ∀ t, quoteLine cs ++ rest ≠ '\x27' :: '\x27' :: '\x27' :: t := by simp [quoteLine]
  rw [readString]
  · exact hthree
  · exact hfour

theorem readString_literalLine (cs rest : List Char) (hne : cs ≠ [])
    (htext : ∀ c ∈ cs, isTextChar c = true ∧ c ≠ '\x27') :
    readString (literalLine cs ++ rest) = some (cs, rest) := by
  rw [← readSingle_literalLine cs rest htext]
  obtain ⟨c, cs, rfl⟩ := List.exists_cons_of_ne_nil hne
  have hc := (htext c (by simp)).2
  rw [readString]
  · simp [literalLine]
  · simp [literalLine, hc]

theorem readString_printString (s : String) (rest : List Char)
    (hq : rest.head? ≠ some '"') (ha : rest.head? ≠ some '\x27') :
    readString (printString s ++ rest) = some (s.toList, rest) := by
  have htext (h : s.toList.any isControl = false) :
      ∀ c ∈ s.toList, isTextChar c = true ∨ c = '\n' := by
    intro c hc
    have hcontrol : isControl c = false := by simpa using List.any_eq_false.mp h c hc
    by_cases hn : c = '\n'
    · exact .inr hn
    · exact .inl (by simp [isTextChar, hcontrol, hn])
  -- The writer prefers plain quotes, and takes marks or lines only for what they can hold.
  simp only [printString]
  split
  · exact readString_quoteLine _ _ hq
  split
  · rename_i h0 h
    simp only [Bool.and_eq_true, Bool.not_eq_true', decide_eq_true_eq, decide_eq_false_iff_not] at h
    obtain ⟨⟨hcontrol, hmark⟩, hn⟩ := h
    refine readString_literalLine _ _ ?_ fun c hc => ⟨?_, ?_⟩
    · intro hnil
      simp [hnil] at h0
    · apply (htext hcontrol c hc).resolve_right
      rintro rfl
      exact hn hc
    · rintro rfl
      exact hmark hc
  split
  · exact readString_quoteLines _ _ hq
  split
  · rename_i h
    simp only [Bool.and_eq_true, Bool.not_eq_true', decide_eq_true_eq] at h
    exact readString_literalLines _ _ (shortRuns_of_longestRun _ _ h.2) ha (htext h.1)
  split
  · exact readString_quoteLines _ _ hq
  · exact readString_quoteLine _ _ hq

/-! ## Keys -/

theorem readKeyPart_bare (cs rest : List Char) (hne : cs ≠ [])
    (hbare : cs.all isBareKeyChar = true) (hrest : ∀ c, rest.head? = some c → isBareKeyChar c = false) :
    readKeyPart (cs ++ rest) = some (String.ofList cs, rest) := by
  have hmem : ∀ c ∈ cs, isBareKeyChar c = true := by simpa using hbare
  have hstop : rest.takeWhile isBareKeyChar = [] ∧ rest.dropWhile isBareKeyChar = rest := by
    cases rest with
    | nil => exact ⟨rfl, rfl⟩
    | cons c rest =>
      have hc := hrest c rfl
      simp [hc]
  have hsingle : readSingle (cs ++ rest) = none := by
    obtain ⟨c, cs, rfl⟩ := List.exists_cons_of_ne_nil hne
    have hc := hmem c (by simp)
    simp only [List.cons_append, readSingle]
    split <;> simp_all [isBareKeyChar]
  unfold readKeyPart
  simp only [hsingle]
  rw [List.takeWhile_append_of_pos hmem, List.dropWhile_append_of_pos hmem, hstop.1, hstop.2]
  simp [hne]

theorem readKeyPart_printKey (s : String) (rest : List Char)
    (hrest : ∀ c, rest.head? = some c → isBareKeyChar c = false) :
    readKeyPart (printKey s ++ rest) = some (s, rest) := by
  have hquote (cs : List Char) (h : readSingle (cs ++ rest) = some (s.toList, rest)) :
      readKeyPart (cs ++ rest) = some (s, rest) := by
    simp [readKeyPart, h]
  simp only [printKey]
  split
  · rename_i h
    simp only [Bool.and_eq_true, Bool.not_eq_true', List.isEmpty_eq_false_iff] at h
    simpa using readKeyPart_bare s.toList rest h.1 h.2 hrest
  split
  · exact hquote _ (readSingle_quoteLine _ _)
  split
  · rename_i h
    simp only [Bool.and_eq_true, Bool.not_eq_true', decide_eq_true_eq, List.any_eq_false,
      Bool.or_eq_true, beq_iff_eq, not_or, Bool.not_eq_true] at h
    refine hquote _ (readSingle_literalLine _ _ fun c hc => ⟨?_, ?_⟩)
    · simp [isTextChar, h.1 c hc]
    · rintro rfl
      exact h.2 hc
  · exact hquote _ (readSingle_quoteLine _ _)

end TestBeam.Toml
