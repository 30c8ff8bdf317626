import TestBeam.Json.Number
import TestBeam.Json.Reader
import TestBeam.Proofs.Decimal.RoundTrip

/-!
# Number literals read back

Counts and finite doubles are written with digits, at most one point and at most one exponent. The
reader takes such a literal as a whole and leaves what follows it. What number it stands for is decided
later.
-/

namespace TestBeam.Json

open Decimal (signed pointed digits)

/-- Behind a literal nothing may follow that could belong to it. -/
def EndsNumber (rest : List Char) : Prop :=
  ∀ c, rest.head? = some c → c.isDigit = false ∧ c ≠ '.' ∧ c ≠ 'e' ∧ c ≠ 'E'

theorem EndsNumber.of_cons {c : Char} (hc : c ∈ [',', ']', '}', '\n']) (rest : List Char) :
    EndsNumber (c :: rest) := by
  intro d hd
  obtain rfl : c = d := by simpa using hd
  simp only [List.mem_cons, List.not_mem_nil, or_false] at hc
  rcases hc with rfl | rfl | rfl | rfl <;> decide

/-! ## Literals -/

/-- An exponent always has a sign. It may be missing. -/
inductive IsExponent : List Char → Prop where
  | none : IsExponent []
  | signed (sign : Char) (ds : List Char) (hsign : sign = '+' ∨ sign = '-') (hne : ds ≠ [])
      (hds : ∀ c ∈ ds, c.isDigit = true) : IsExponent ('e' :: sign :: ds)

inductive IsNumber : List Char → Prop where
  | intro (negative : Bool) (whole fraction exponent : List Char) (hne : whole ≠ [])
      (hwhole : ∀ c ∈ whole, c.isDigit = true) (hzero : whole = ['0'] ∨ whole.head? ≠ some '0')
      (hfraction : ∀ c ∈ fraction, c.isDigit = true) (hexponent : IsExponent exponent) :
      IsNumber (signed negative (pointed whole fraction ++ exponent))

theorem IsNumber.head {literal : List Char} (h : IsNumber literal) :
    ∃ c cs, literal = c :: cs ∧ (c = '-' ∨ c.isDigit = true) := by
  obtain ⟨negative, whole, fraction, exponent, hne, hwhole⟩ := h
  obtain ⟨c, cs, rfl⟩ := List.exists_cons_of_ne_nil hne
  cases negative with
  | true => exact ⟨'-', _, rfl, .inl rfl⟩
  | false => exact ⟨c, _, rfl, .inr (hwhole c (by simp))⟩

/-! ## Reading -/

variable {ds whole fraction exponent literal rest : List Char}

theorem readDigits_append (hne : ds ≠ []) (hds : ∀ c ∈ ds, c.isDigit = true)
    (hrest : ∀ c, rest.head? = some c → c.isDigit = false) :
    readDigits (ds ++ rest) = some (ds, rest) := by
  have hspan := Decimal.spanDigits_append hds hrest
  unfold Decimal.spanDigits at hspan
  rw [Prod.mk.injEq] at hspan
  simp only [readDigits, hspan.1, hspan.2]
  rw [if_neg (by simpa using hne)]

theorem readWhole_append (hne : whole ≠ []) (hwhole : ∀ c ∈ whole, c.isDigit = true)
    (hzero : whole = ['0'] ∨ whole.head? ≠ some '0')
    (hrest : ∀ c, rest.head? = some c → c.isDigit = false) :
    readWhole (whole ++ rest) = some (whole, rest) := by
  rw [readWhole, readDigits_append hne hwhole hrest]
  rcases hzero with rfl | hzero
  · rfl
  · obtain ⟨c, cs, rfl⟩ := List.exists_cons_of_ne_nil hne
    have hc : c ≠ '0' := by simpa using hzero
    simp [hc]

theorem readFraction_append (hfraction : ∀ c ∈ fraction, c.isDigit = true)
    (hrest : ∀ c, rest.head? = some c → c.isDigit = false ∧ c ≠ '.') :
    readFraction ((if fraction.isEmpty then [] else '.' :: fraction) ++ rest) =
      some (if fraction.isEmpty then [] else '.' :: fraction, rest) := by
  -- Without a fraction there is no point either.
  cases fraction with
  | nil =>
    cases rest with
    | nil => rfl
    | cons c cs => simp [readFraction, (hrest c rfl).2]
  | cons c cs =>
    have hread := readDigits_append (by simp) hfraction fun d hd => (hrest d hd).1
    simpa [readFraction] using hread

theorem readExponent_append (h : IsExponent exponent) (hrest : EndsNumber rest) :
    readExponent (exponent ++ rest) = some (exponent, rest) := by
  cases h with
  | none =>
    cases rest with
    | nil => rfl
    | cons c cs =>
      obtain ⟨-, -, he, hE⟩ := hrest c rfl
      simp [readExponent, he, hE]
  | signed sign ds hsign hne hds =>
    have hread := readDigits_append hne hds fun c hc => (hrest c hc).1
    simp [readExponent, hsign, hread]

theorem spanMinus_signed (negative : Bool) (hne : whole ≠ [])
    (hwhole : ∀ c ∈ whole, c.isDigit = true) (rest : List Char) :
    spanMinus (signed negative (whole ++ rest)) = (if negative then ['-'] else [], whole ++ rest) := by
  cases negative with
  | true => rfl
  | false =>
    obtain ⟨c, cs, rfl⟩ := List.exists_cons_of_ne_nil hne
    have hminus : c ≠ '-' := by
      rintro rfl
      simpa using hwhole '-' (by simp)
    simp [signed, spanMinus, hminus]

theorem IsExponent.head (h : IsExponent exponent) (hrest : EndsNumber rest) (c : Char)
    (hc : (exponent ++ rest).head? = some c) : c.isDigit = false ∧ c ≠ '.' := by
  cases h with
  | none =>
    obtain ⟨hdigit, hpoint, -⟩ := hrest c hc
    exact ⟨hdigit, hpoint⟩
  | signed sign ds =>
    obtain rfl : 'e' = c := by simpa using hc
    decide

theorem readNumber_append (h : IsNumber literal) (hrest : EndsNumber rest) :
    readNumber (literal ++ rest) = some (literal, rest) := by
  obtain ⟨negative, whole, fraction, exponent, hne, hwhole, hzero, hfraction, hexponent⟩ := h
  have hhead := hexponent.head hrest
  have hbehind : ∀ c, ((if fraction.isEmpty then [] else '.' :: fraction) ++
      (exponent ++ rest)).head? = some c → c.isDigit = false := by
    intro c hc
    cases fraction with
    | nil => exact (hhead c hc).1
    | cons d ds =>
      obtain rfl : '.' = c := by simpa using hc
      decide
  have hsplit : signed negative (pointed whole fraction ++ exponent) ++ rest =
      signed negative (whole ++ ((if fraction.isEmpty then [] else '.' :: fraction) ++
        (exponent ++ rest))) := by
    cases negative <;> simp [signed, pointed]
  have hjoin : (if negative then ['-'] else []) ++ whole ++
      (if fraction.isEmpty then [] else '.' :: fraction) ++ exponent =
      signed negative (pointed whole fraction ++ exponent) := by
    cases negative <;> simp [signed, pointed]
  rw [hsplit, ← hjoin]
  simp only [readNumber, spanMinus_signed negative hne hwhole,
    readWhole_append hne hwhole hzero hbehind, readFraction_append hfraction hhead,
    readExponent_append hexponent hrest, Option.bind_eq_bind, Option.bind_some, Option.pure_def]

/-! ## Writing -/

theorem isNumber_digits (n : Nat) : IsNumber (digits n) := by
  have hnumber := IsNumber.intro false (digits n) [] [] (Decimal.digits_ne_nil n)
    (fun c hc => Decimal.isDigit_of_mem_digits hc) (Decimal.digits_cases n) (by simp) .none
  simpa [signed, pointed] using hnumber

theorem isExponent_integer (e : Int) :
    IsExponent ('e' :: (if 0 ≤ e then '+' :: Decimal.integer e else Decimal.integer e)) := by
  have hne := Decimal.digits_ne_nil e.natAbs
  have hds : ∀ c ∈ digits e.natAbs, c.isDigit = true := fun c hc => Decimal.isDigit_of_mem_digits hc
  by_cases he : 0 ≤ e
  · rw [if_pos he, Decimal.integer, if_neg (by omega)]
    exact .signed '+' _ (.inl rfl) hne hds
  · rw [if_neg he, Decimal.integer, if_pos (by omega)]
    exact .signed '-' _ (.inr rfl) hne hds

theorem exponential_mantissa {n : Nat} (hn : 0 < n) :
    ∃ first cs, ((digits n).reverse.dropWhile (· == '0')).reverse = first :: cs := by
  -- The first digit is not zero, so it is no final zero either.
  apply List.exists_cons_of_ne_nil
  rw [Ne, List.reverse_eq_nil_iff, List.dropWhile_eq_nil_iff]
  intro hall
  obtain ⟨c, cs, hcons⟩ := List.exists_cons_of_ne_nil (Decimal.digits_ne_nil n)
  have hc : c = '0' := by simpa using hall c (by simp [hcons])
  have hhead := Decimal.digits_head hn
  simp [hcons, hc] at hhead

theorem isNumber_exponential (negative : Bool) {s : Decimal.Scaled} (hs : 0 < s.coefficient) :
    IsNumber (signed negative (Decimal.exponential s)) := by
  obtain ⟨first, cs, htrimmed⟩ := exponential_mantissa hs
  have hdigits : ∀ c ∈ first :: cs, c.isDigit = true := by
    intro c hc
    rw [← htrimmed, List.mem_reverse] at hc
    exact Decimal.isDigit_of_mem_digits (List.mem_reverse.mp ((List.dropWhile_sublist _).mem hc))
  have hnumber := IsNumber.intro negative [first] cs _ (by simp)
    (fun c hc => hdigits c (List.mem_cons.mpr (.inl (by simpa using hc))))
    (by simp only [List.cons.injEq, and_true, List.head?_cons, ne_eq, Option.some.injEq]; tauto)
    (fun c hc => hdigits c (List.mem_cons_of_mem _ hc))
    (isExponent_integer ((digits s.coefficient).length - 1 + s.exponent))
  have htext : Decimal.exponential s = pointed [first] cs ++ 'e' ::
      (if 0 ≤ (digits s.coefficient).length - 1 + s.exponent then
        '+' :: Decimal.integer ((digits s.coefficient).length - 1 + s.exponent)
      else Decimal.integer ((digits s.coefficient).length - 1 + s.exponent)) := by
    simp only [Decimal.exponential, htrimmed]
    cases cs <;> rfl
  rw [htext]
  exact hnumber

theorem isNumber_positional (negative : Bool) {s : Decimal.Scaled} (hs : s.plain)
    (pointZero : Bool) : IsNumber (signed negative (Decimal.positional s pointZero)) := by
  obtain ⟨whole, fraction, hshape⟩ := Decimal.exists_shape s hs pointZero
  have hnumber := IsNumber.intro negative whole fraction [] hshape.whole_ne hshape.whole_digits
    hshape.whole_zero hshape.fraction_digits .none
  rw [hshape.text]
  simpa using hnumber

theorem isNumber_print {x : Float} (h : x.isFinite = true) :
    IsNumber (numberLayout.print x).toList := by
  have hplain := Decimal.shortest_magnitude_plain h numberLayout.tie
  unfold Decimal.Layout.print
  rw [Decimal.isNaN_of_isFinite h]
  simp only [h, Bool.false_eq_true, if_false, Bool.not_true, String.toList_ofList]
  split
  · exact isNumber_positional _ hplain _
  · rename_i hform
    simp only [Bool.or_eq_true, decide_eq_true_eq, not_or] at hform
    exact isNumber_exponential _ (Nat.pos_of_ne_zero hform.1)

/-! ## Counts -/

theorem count_ofNat {n : Nat} (h : n ≤ maxCount) : (ofNat n).count? = some n := by
  have hall : (digits n).all Char.isDigit = true :=
    List.all_eq_true.mpr fun c hc => Decimal.isDigit_of_mem_digits hc
  simp [ofNat, count?, hall, Decimal.value_digits, h]

theorem count_uint64 (n : UInt64) : (ofNat n.toNat).count? = some n.toNat :=
  count_ofNat (Nat.le_of_lt_succ n.toNat_lt)

end TestBeam.Json
