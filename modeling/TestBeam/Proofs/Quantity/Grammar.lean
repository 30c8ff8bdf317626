import Mathlib.Data.List.DropRight
import TestBeam.Proofs.Quantity.Reading

/-!
# The grammar of quantities

A number does not end with a letter, so only one cut of a text can leave a number in front of letters: the
one in front of the longest run of letters at its end. A quantity is read exactly from the texts that have a
finite number there, and what it prints is such a text again.
-/

namespace TestBeam

theorem Decimal.endsNumeric_of_readFloat {cs : List Char} {x : Float} (h : readFloat cs = some x)
    (hx : x.isFinite = true) : EndsNumeric cs := by
  obtain ⟨negative, coefficient, exponent, hliteral⟩ := literal_of_isFinite h hx
  obtain ⟨whole, point, fraction, tail, hnumeral⟩ := numeral_of_readLiteral hliteral
  obtain ⟨sign, hcs, -⟩ := spanSign_append cs
  rw [hcs]
  exact hnumeral.ends.append sign

namespace Quantity

/-! ## The cut in front of the letters -/

/-- What stands in front of the letters at the end of a text. -/
def front (cs : List Char) : List Char :=
  cs.rdropWhile Char.isAlpha

/-- The longest run of letters at the end of a text. -/
def ending (cs : List Char) : List Char :=
  cs.rtakeWhile Char.isAlpha

theorem front_append_ending (cs : List Char) : front cs ++ ending cs = cs :=
  List.rdropWhile_append_rtakeWhile

theorem isAlpha_of_mem_ending {cs : List Char} {c : Char} (h : c ∈ ending cs) : c.isAlpha = true :=
  List.mem_rtakeWhile_imp h

theorem front_append_letters {number letters : List Char} (hnumber : Decimal.EndsNumeric number)
    (hletters : ∀ c ∈ letters, c.isAlpha = true) : front (number ++ letters) = number := by
  -- Letters behind a character that is no letter are the longest run at the end.
  obtain ⟨start, c, rfl, hc⟩ := hnumber
  have hnot : ¬c.isAlpha = true := by
    intro halpha
    rcases hc with hdigit | rfl
    · simp [isDigit_of_isAlpha halpha] at hdigit
    · simp at halpha
  unfold front
  induction letters using List.reverseRecOn with
  | nil => rw [List.append_nil, List.rdropWhile_concat_neg _ _ _ hnot]
  | append_singleton letters d ih =>
    rw [← List.append_assoc, List.rdropWhile_concat_pos _ _ _ (hletters d (by simp))]
    exact ih fun e he => hletters e (by simp [he])

theorem ending_eq_of_front {number letters : List Char} (h : front (number ++ letters) = number) :
    ending (number ++ letters) = letters := by
  have hboth := front_append_ending (number ++ letters)
  rw [h] at hboth
  exact List.append_cancel_left hboth

variable {number letters cs : List Char} {q : Quantity} {text : String}

theorem cut_of_ofParts (h : ofParts? number letters = some q) :
    number = front (number ++ letters) ∧ letters = ending (number ++ letters) := by
  obtain ⟨halpha, hread, hfinite, -⟩ := ofParts_eq_some_iff.mp h
  have hfront := front_append_letters (Decimal.endsNumeric_of_readFloat hread hfinite) halpha
  exact ⟨hfront.symm, (ending_eq_of_front hfront).symm⟩

/-! ## All cuts -/

theorem mem_cuts : (number, letters) ∈ cuts cs ↔ number ++ letters = cs ∧ number ≠ [] := by
  unfold cuts
  simp only [List.mem_map, List.mem_reverse, List.mem_range, Prod.mk.injEq]
  constructor
  · rintro ⟨n, hn, rfl, rfl⟩
    exact ⟨List.take_append_drop (n + 1) cs, List.ne_nil_of_length_pos (by simp; omega)⟩
  · rintro ⟨rfl, hne⟩
    have hlength := List.length_pos_iff.mpr hne
    have hsucc : number.length - 1 + 1 = number.length := by omega
    refine ⟨number.length - 1, by simp; omega, ?_, ?_⟩
    · rw [hsucc, List.take_left]
    · rw [hsucc, List.drop_left]

/-- Whichever cut is tried first, the one in front of the longest run of letters decides. -/
theorem findSome_of_perm {order : List (List Char × List Char)} (h : order.Perm (cuts cs)) :
    (order.findSome? fun p => ofParts? p.1 p.2) = ofParts? (front cs) (ending cs) := by
  have hcut (number letters : List Char) (q : Quantity) (hmem : (number, letters) ∈ order)
      (hparts : ofParts? number letters = some q) :
      ofParts? (front cs) (ending cs) = some q := by
    obtain ⟨hsplit, -⟩ := mem_cuts.mp (h.mem_iff.mp hmem)
    obtain ⟨hfront, hending⟩ := cut_of_ofParts hparts
    rw [hsplit] at hfront hending
    rw [← hfront, ← hending, hparts]
  cases hparts : ofParts? (front cs) (ending cs) with
  | none =>
    rw [List.findSome?_eq_none_iff]
    rintro ⟨number, letters⟩ hmem
    by_contra hsome
    obtain ⟨q, hq⟩ := Option.ne_none_iff_exists'.mp hsome
    rw [hcut number letters q hmem hq] at hparts
    cases hparts
  | some q =>
    obtain ⟨-, hread, -⟩ := ofParts_eq_some_iff.mp hparts
    have hmem : (front cs, ending cs) ∈ order :=
      h.mem_iff.mpr (mem_cuts.mpr ⟨front_append_ending cs, (Decimal.isNumeric_of_readFloat hread).1⟩)
    have hsome : (order.findSome? fun p => ofParts? p.1 p.2).isSome :=
      List.findSome?_isSome_iff.mpr ⟨_, hmem, by simp [hparts]⟩
    obtain ⟨found, hfound⟩ := Option.isSome_iff_exists.mp hsome
    obtain ⟨⟨number, letters⟩, hmem, hq⟩ := List.exists_of_findSome?_eq_some hfound
    rw [hfound, ← hparts, hcut number letters found hmem hq]

/-! ## What is read -/

/-- A text that starts like a number and has a finite one in front of the letters at its end. -/
structure ReadsAs (cs : List Char) (q : Quantity) : Prop where
  starts : ∃ c rest, cs = c :: rest ∧ (c.isDigit = true ∨ c = '.' ∨ c = '+' ∨ c = '-')
  number : Decimal.readFloat (front cs) = some q.value
  finite : q.value.isFinite = true
  unit : q.unit = if ending cs = [] then none else some (String.ofList (ending cs))

theorem startsNumeric_iff :
    startsNumeric cs = true ↔
      ∃ c rest, cs = c :: rest ∧ (c.isDigit = true ∨ c = '.' ∨ c = '+' ∨ c = '-') := by
  cases cs with
  | nil => simp [startsNumeric]
  | cons c rest => simp [startsNumeric, or_assoc]

theorem readsAs_iff :
    ReadsAs cs q ↔ startsNumeric cs = true ∧ ofParts? (front cs) (ending cs) = some q := by
  rw [startsNumeric_iff, ofParts_eq_some_iff]
  constructor
  · intro h
    exact ⟨h.starts, fun _ => isAlpha_of_mem_ending, h.number, h.finite, h.unit⟩
  · rintro ⟨hstarts, -, hnumber, hfinite, hunit⟩
    exact ⟨hstarts, hnumber, hfinite, hunit⟩

theorem parse_ok_iff : parse text = .ok q ↔ ReadsAs (Text.trimChars text.toList) q := by
  rw [readsAs_iff, ← findSome_of_perm (List.Perm.refl (cuts (Text.trimChars text.toList)))]
  unfold parse
  generalize Text.trimChars text.toList = cs
  by_cases hempty : cs.isEmpty = true
  · obtain rfl := List.isEmpty_iff.mp hempty
    simp [startsNumeric]
  by_cases hstarts : startsNumeric cs = true
  · simp only [hempty, hstarts, Bool.false_eq_true, if_false, Bool.not_true, true_and]
    cases (cuts cs).findSome? fun p => ofParts? p.1 p.2 <;> simp
  · simp [hempty, hstarts]

/-- A quantity that was read prints as a text that reads as the same quantity. -/
theorem parse_display (h : parse text = .ok q) : parse q.display = .ok q := by
  obtain ⟨value, unit⟩ := q
  obtain ⟨-, -, hfinite, hunit⟩ := parse_ok_iff.mp h
  simp only at hfinite hunit
  by_cases hnil : ending (Text.trimChars text.toList) = []
  · obtain rfl : unit = none := by simpa [hnil] using hunit
    have hshown : display ⟨value, none⟩ = Decimal.display value := String.append_empty
    have htrim : Text.trimChars (Decimal.display value).toList = (Decimal.display value).toList :=
      trimChars_of_no_blank fun c hc => by
        have hjoined := ((Decimal.isNumeric_display hfinite).2 c hc).joined
        simp only [Text.isSeparator, Bool.or_eq_false_iff] at hjoined
        exact hjoined.1
    obtain ⟨negative, whole, fraction, htext, -, -, -, hread⟩ := Decimal.exists_display hfinite
    rw [hshown]
    exact parse_of_readFloat (by rw [htrim, htext, hread]) hfinite
  · rw [if_neg hnil] at hunit
    subst hunit
    exact (parse_of_withUnit (withUnit_display hfinite hnil fun c => isAlpha_of_mem_ending)).1

/--
A quantity is read from a text exactly if the text, without the blanks around it, starts like a number and has
a finite number in front of its longest final run of letters, which is the unit. No other cut leaves a finite
number in front of letters, so the order in which the cuts are tried does not matter. What was read prints as
a text that reads as the same quantity.
-/
theorem quantity_grammar (text : String) :
    (∀ q, parse text = .ok q ↔ ReadsAs (Text.trimChars text.toList) q) ∧
    (∀ number letters q, number ++ letters = Text.trimChars text.toList →
      ofParts? number letters = some q →
        number = front (Text.trimChars text.toList) ∧
          letters = ending (Text.trimChars text.toList)) ∧
    (∀ order : List (List Char × List Char), order.Perm (cuts (Text.trimChars text.toList)) →
      (order.findSome? fun p => ofParts? p.1 p.2) =
        (cuts (Text.trimChars text.toList)).findSome? fun p => ofParts? p.1 p.2) ∧
    ∀ q, parse text = .ok q → parse q.display = .ok q := by
  refine ⟨fun q => parse_ok_iff, ?_, ?_, fun q => parse_display⟩
  · intro number letters q hsplit hparts
    rw [← hsplit]
    exact cut_of_ofParts hparts
  · intro order hperm
    rw [findSome_of_perm hperm, findSome_of_perm (List.Perm.refl _)]

/-- The exponent belongs to the number, and the second `e` to the unit. -/
theorem quantity_grammar_exponent :
    ∃ q, q.value = 1000 ∧ q.unit = some "eV" ∧ parse " 1e3eV " = .ok q ∧
      ReadsAs (Text.trimChars " 1e3eV ".toList) q ∧ parse q.display = .ok q := by
  have hread : ((parse " 1e3eV ").toOption.map fun q => (q.value, q.unit)) =
      some (1000, some "eV") := by
    decide +kernel
  obtain ⟨q, hsome, hq⟩ := Option.map_eq_some_iff.mp hread
  obtain ⟨hvalue, hunit⟩ := Prod.mk.inj hq
  cases hparse : parse " 1e3eV " with
  | error cause =>
    rw [hparse] at hsome
    cases hsome
  | ok found =>
    rw [hparse] at hsome
    obtain rfl := Option.some.inj hsome
    obtain ⟨hgrammar, -, -, hprints⟩ := quantity_grammar " 1e3eV "
    exact ⟨found, hvalue, hunit, rfl, (hgrammar found).mp hparse, hprints found hparse⟩

end Quantity

end TestBeam
