import TestBeam.Proofs.Decimal.Integer
import TestBeam.Proofs.Setting.Written

/-!
# Number literals taken apart

A finite number literal has a digit, starts with a sign, a digit or a point, and does not end with a
letter. The other literals are words of letters without any digit. So no literal is another one with
letters behind it.
-/

namespace TestBeam.Decimal

variable {cs : List Char}

theorem spanSign_append (cs : List Char) :
    ∃ sign, cs = sign ++ (spanSign cs).2 ∧ (sign = [] ∨ sign = ['-'] ∨ sign = ['+']) := by
  unfold spanSign
  split
  · exact ⟨['-'], rfl, .inr (.inl rfl)⟩
  · exact ⟨['+'], rfl, .inr (.inr rfl)⟩
  · exact ⟨[], rfl, .inl rfl⟩

/-! ## Words -/

theorem readWord_ne_finite {negative sign : Bool} {coefficient : Nat} {exponent : Int} :
    readWord negative cs ≠ some (.finite sign coefficient exponent) := by
  unfold readWord
  simp only
  split
  · simp
  · split <;> simp

/-! ## Numbers with digits -/

/-- Digits around a point, with an exponent or nothing behind them. -/
structure IsNumeral (body whole point fraction tail : List Char) : Prop where
  text : body = whole ++ (point ++ (fraction ++ tail))
  whole_digits : ∀ c ∈ whole, c.isDigit = true
  fraction_digits : ∀ c ∈ fraction, c.isDigit = true
  at_point : point = [] ∧ fraction = [] ∨ point = ['.']
  not_bare : whole ≠ [] ∨ fraction ≠ []
  exponent : ∃ e, readExponent tail = some e

theorem spanFraction_append (cs : List Char) :
    ∃ point, cs = point ++ ((spanFraction cs).1 ++ (spanFraction cs).2) ∧
      (point = [] ∧ (spanFraction cs).1 = [] ∨ point = ['.']) ∧
      ∀ c ∈ (spanFraction cs).1, c.isDigit = true := by
  unfold spanFraction
  split
  · rename_i rest
    refine ⟨['.'], ?_, .inr rfl, fun c hc => List.mem_takeWhile_imp hc⟩
    simp [spanDigits]
  · exact ⟨[], rfl, .inl ⟨rfl, rfl⟩, by simp⟩

theorem numeral_of_readLiteral {negative : Bool} {coefficient : Nat} {exponent : Int}
    (h : readLiteral cs = some (.finite negative coefficient exponent)) :
    ∃ whole point fraction tail, IsNumeral (spanSign cs).2 whole point fraction tail := by
  unfold readLiteral at h
  simp only at h
  split at h
  · rename_i word hword
    obtain rfl := Option.some.inj h
    exact absurd hword readWord_ne_finite
  · split at h
    · cases h
    · rename_i hdigits
      obtain ⟨e, hexponent, -⟩ := Option.map_eq_some_iff.mp h
      obtain ⟨point, htext, hpoint, hfraction⟩ := spanFraction_append (spanDigits (spanSign cs).2).2
      refine ⟨(spanDigits (spanSign cs).2).1, point, _, _, ?_, fun c hc => List.mem_takeWhile_imp hc,
        hfraction, hpoint, ?_, e, hexponent⟩
      · rw [← htext]
        exact List.takeWhile_append_dropWhile.symm
      · simpa only [Bool.and_eq_true, List.isEmpty_iff, not_and_or] using hdigits

/-! ## Both ends -/

def EndsNumeric (cs : List Char) : Prop :=
  ∃ front c, cs = front ++ [c] ∧ (c.isDigit = true ∨ c = '.')

theorem EndsNumeric.append (h : EndsNumeric cs) (front : List Char) : EndsNumeric (front ++ cs) := by
  obtain ⟨rest, c, rfl, hc⟩ := h
  exact ⟨front ++ rest, c, (List.append_assoc front rest [c]).symm, hc⟩

theorem endsNumeric_of_digits (hne : cs ≠ []) (h : ∀ c ∈ cs, c.isDigit = true) : EndsNumeric cs :=
  ⟨cs.dropLast, cs.getLast hne, (List.dropLast_append_getLast hne).symm,
    .inl (h _ (List.getLast_mem hne))⟩

theorem endsNumeric_of_readInt {i : Int} (h : readInt cs = some i) : EndsNumeric cs := by
  obtain ⟨negative, ds, hsign, hne, hdigits, -⟩ := readInt_ok h
  obtain ⟨sign, hcs, -⟩ := spanSign_append cs
  rw [hcs, hsign]
  exact (endsNumeric_of_digits hne hdigits).append sign

theorem endsNumeric_of_readExponent {e : Int} (h : readExponent cs = some e) :
    cs = [] ∨ EndsNumeric cs := by
  cases cs with
  | nil => exact .inl rfl
  | cons c cs =>
    simp only [readExponent] at h
    by_cases hmark : (c = 'e' || c = 'E') = true
    · rw [if_pos hmark] at h
      exact .inr ((endsNumeric_of_readInt h).append [c])
    · rw [if_neg hmark] at h
      cases h

theorem IsNumeral.ends {body whole point fraction tail : List Char}
    (h : IsNumeral body whole point fraction tail) : EndsNumeric body := by
  rw [h.text]
  obtain ⟨e, hexponent⟩ := h.exponent
  rcases endsNumeric_of_readExponent hexponent with rfl | hends
  · by_cases hfraction : fraction = []
    · have hwhole := h.not_bare.resolve_right (not_not_intro hfraction)
      subst hfraction
      rcases h.at_point with ⟨rfl, -⟩ | rfl
      · simpa using endsNumeric_of_digits hwhole h.whole_digits
      · exact ⟨whole, '.', rfl, .inr rfl⟩
    · have hends := endsNumeric_of_digits hfraction h.fraction_digits
      rw [List.append_nil]
      exact (hends.append point).append whole
  · exact ((hends.append fraction).append point).append whole

theorem IsNumeral.exists_digit {body whole point fraction tail : List Char}
    (h : IsNumeral body whole point fraction tail) : ∃ c ∈ body, c.isDigit = true := by
  rw [h.text]
  rcases h.not_bare with hne | hne
  · obtain ⟨c, rest, rfl⟩ := List.exists_cons_of_ne_nil hne
    exact ⟨c, by simp, h.whole_digits c (by simp)⟩
  · obtain ⟨c, rest, rfl⟩ := List.exists_cons_of_ne_nil hne
    exact ⟨c, by simp, h.fraction_digits c (by simp)⟩

theorem IsNumeral.starts {body whole point fraction tail : List Char}
    (h : IsNumeral body whole point fraction tail) : Quantity.startsNumeric body = true := by
  rw [h.text]
  cases whole with
  | cons c rest => simp [Quantity.startsNumeric, h.whole_digits c (by simp)]
  | nil =>
    rcases h.at_point with ⟨-, hnil⟩ | rfl
    · exact absurd hnil (h.not_bare.resolve_left (by simp))
    · rfl

/-! ## Finite doubles -/

theorem literal_of_isFinite {x : Float} (h : readFloat cs = some x) (hx : x.isFinite = true) :
    ∃ negative coefficient exponent,
      readLiteral cs = some (.finite negative coefficient exponent) := by
  obtain ⟨literal, hliteral, rfl⟩ := Option.map_eq_some_iff.mp h
  cases literal with
  | notANumber => exact absurd hx (by decide)
  | infinite negative => cases negative <;> exact absurd hx (by decide)
  | finite negative coefficient exponent => exact ⟨negative, coefficient, exponent, hliteral⟩

theorem startsNumeric_of_readFloat {x : Float} (h : readFloat cs = some x) (hx : x.isFinite = true) :
    Quantity.startsNumeric cs = true := by
  obtain ⟨negative, coefficient, exponent, hliteral⟩ := literal_of_isFinite h hx
  obtain ⟨whole, point, fraction, tail, hnumeral⟩ := numeral_of_readLiteral hliteral
  obtain ⟨sign, hcs, hsign⟩ := spanSign_append cs
  rw [hcs]
  rcases hsign with rfl | rfl | rfl
  · exact hnumeral.starts
  · rfl
  · rfl

theorem exists_digit_of_readFloat {x : Float} (h : readFloat cs = some x) (hx : x.isFinite = true) :
    ∃ c ∈ cs, c.isDigit = true := by
  obtain ⟨negative, coefficient, exponent, hliteral⟩ := literal_of_isFinite h hx
  obtain ⟨whole, point, fraction, tail, hnumeral⟩ := numeral_of_readLiteral hliteral
  obtain ⟨c, hc, hdigit⟩ := hnumeral.exists_digit
  obtain ⟨sign, hcs, -⟩ := spanSign_append cs
  rw [hcs]
  exact ⟨c, List.mem_append_right sign hc, hdigit⟩

/-! ## Letters behind a number -/

variable {number letters : List Char}

theorem not_endsNumeric_append (hne : letters ≠ []) (h : ∀ c ∈ letters, c.isAlpha = true) :
    ¬EndsNumeric (number ++ letters) := by
  rintro ⟨front, c, hcs, hc⟩
  have hlast : letters.getLast hne = c := by
    have hboth := congrArg List.getLast? hcs
    rw [List.getLast?_append_of_ne_nil _ hne, List.getLast?_concat,
      List.getLast?_eq_some_getLast hne] at hboth
    exact Option.some.inj hboth
  have halpha := h _ (List.getLast_mem hne)
  rw [hlast] at halpha
  rcases hc with hdigit | rfl
  · rw [isDigit_of_isAlpha halpha] at hdigit
    cases hdigit
  · simp at halpha

theorem readInt_append_letters (hne : letters ≠ []) (h : ∀ c ∈ letters, c.isAlpha = true) :
    readInt (number ++ letters) = none := by
  by_contra hsome
  obtain ⟨i, hi⟩ := Option.ne_none_iff_exists'.mp hsome
  exact not_endsNumeric_append hne h (endsNumeric_of_readInt hi)

theorem readFloat_append_letters {x : Float} (hread : readFloat number = some x)
    (hx : x.isFinite = true) (hne : letters ≠ []) (h : ∀ c ∈ letters, c.isAlpha = true) :
    readFloat (number ++ letters) = none := by
  suffices hliteral : readLiteral (number ++ letters) = none by
    rw [readFloat, hliteral]
    rfl
  obtain ⟨d, hd, hdigit⟩ := exists_digit_of_readFloat hread hx
  obtain ⟨sign, hcs, hsign⟩ := spanSign_append (number ++ letters)
  by_contra hsome
  obtain ⟨literal, hliteral⟩ := Option.ne_none_iff_exists'.mp hsome
  cases hword : readWord (spanSign (number ++ letters)).1 (spanSign (number ++ letters)).2 with
  | some word =>
    -- A word has no digits, but the number in front has one.
    have hmem : d ∈ sign ++ (spanSign (number ++ letters)).2 := by
      rw [← hcs]
      exact List.mem_append_left letters hd
    rcases List.mem_append.mp hmem with hmem | hmem
    · rcases hsign with rfl | rfl | rfl
      · cases hmem
      · obtain rfl := List.mem_singleton.mp hmem
        simp at hdigit
      · obtain rfl := List.mem_singleton.mp hmem
        simp at hdigit
    · have halpha := isAlpha_of_readWord hword d hmem
      rw [isDigit_of_isAlpha halpha] at hdigit
      cases hdigit
  | none =>
    cases literal with
    | finite negative coefficient exponent =>
      obtain ⟨whole, point, fraction, tail, hnumeral⟩ := numeral_of_readLiteral hliteral
      have hnot : ¬EndsNumeric (number ++ letters) := not_endsNumeric_append hne h
      refine hnot ?_
      rw [hcs]
      exact hnumeral.ends.append sign
    | notANumber => simp [readLiteral, hword] at hliteral
    | infinite negative => simp [readLiteral, hword] at hliteral

end TestBeam.Decimal
