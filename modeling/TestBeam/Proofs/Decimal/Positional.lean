import TestBeam.Decimal.Shortest
import TestBeam.Proofs.Decimal.Digits

/-!
# Positional text

A number without an exponent is digits with at most one point. The literal read from it has the value
that was written.
-/

namespace TestBeam.Decimal

def Scaled.value (s : Scaled) : ℚ :=
  s.coefficient * 10 ^ s.exponent

/-- Only zero has no digits, and it is written without any power of ten. -/
def Scaled.plain (s : Scaled) : Prop :=
  0 < s.coefficient ∨ s = ⟨0, 0⟩

def pointed (whole fraction : List Char) : List Char :=
  whole ++ if fraction.isEmpty then [] else '.' :: fraction

variable {whole fraction tail : List Char}

/-! ## Reading digits with a point -/

theorem toLower_of_isDigit {c : Char} (h : c.isDigit = true) : c.toLower = c := by
  simp only [Char.isDigit, ge_iff_le, Bool.and_eq_true, decide_eq_true_eq] at h
  simp only [Char.toLower]
  rw [dif_neg]
  rintro ⟨hupper, -⟩
  have hle : 'A'.val ≤ '9'.val := UInt32.le_trans hupper h.2
  exact absurd hle (by decide)

theorem readWord_eq_none (negative : Bool) {c : Char} (hc : c.isDigit = true) (cs : List Char) :
    readWord negative (c :: cs) = none := by
  have hword (word : String) (d : Char) (hd : word.toList.head? = some d) (hne : d.isDigit = false) :
      String.ofList ((c :: cs).map Char.toLower) ≠ word := by
    rintro rfl
    have hcd : c = d := by simpa [toLower_of_isDigit hc] using hd
    simp [← hcd, hc] at hne
  have hinf := hword "inf" 'i' rfl rfl
  have hinfinity := hword "infinity" 'i' rfl rfl
  have hnan := hword "nan" 'n' rfl rfl
  unfold readWord
  simp only [hinf, hinfinity, hnan, decide_false, Bool.or_false, Bool.false_eq_true,
    if_false]

theorem spanDigits_append {ds rest : List Char} (hds : ∀ c ∈ ds, c.isDigit = true)
    (hrest : ∀ c, rest.head? = some c → c.isDigit = false) : spanDigits (ds ++ rest) = (ds, rest) := by
  have hstop : rest.takeWhile Char.isDigit = [] ∧ rest.dropWhile Char.isDigit = rest := by
    cases rest with
    | nil => exact ⟨rfl, rfl⟩
    | cons c rest => simp [hrest c rfl]
  unfold spanDigits
  rw [List.takeWhile_append_of_pos hds, List.dropWhile_append_of_pos hds, hstop.1,
    hstop.2, List.append_nil]

theorem spanFraction_pointed (hfraction : ∀ c ∈ fraction, c.isDigit = true)
    (htail : ∀ c, tail.head? = some c → c.isDigit = false ∧ c ≠ '.') :
    spanFraction ((if fraction.isEmpty then [] else '.' :: fraction) ++ tail) = (fraction, tail) := by
  cases fraction with
  | nil =>
    cases tail with
    | nil => rfl
    | cons c cs => simp [spanFraction, (htail c rfl).2]
  | cons c cs =>
    have hspan := spanDigits_append hfraction fun d hd => (htail d hd).1
    simpa [spanFraction] using hspan

theorem readLiteral_pointed (negative : Bool) (hne : whole ≠ [])
    (hwhole : ∀ c ∈ whole, c.isDigit = true) (hfraction : ∀ c ∈ fraction, c.isDigit = true)
    (htail : ∀ c, tail.head? = some c → c.isDigit = false ∧ c ≠ '.') :
    readLiteral (signed negative (pointed whole fraction ++ tail)) =
      (readExponent tail).map fun e =>
        .finite negative (value (whole ++ fraction)) (e - fraction.length) := by
  have hspan : spanDigits (pointed whole fraction ++ tail) =
      (whole, (if fraction.isEmpty then [] else '.' :: fraction) ++ tail) := by
    unfold pointed
    rw [List.append_assoc]
    apply spanDigits_append hwhole
    intro c hc
    cases fraction with
    | nil => exact (htail c (by simpa using hc)).1
    | cons d ds =>
      obtain rfl : '.' = c := by simpa using hc
      decide
  have hfractionSpan := spanFraction_pointed hfraction htail
  obtain ⟨c, cs, rfl⟩ := List.exists_cons_of_ne_nil hne
  have hhead : ∀ d, (pointed (c :: cs) fraction ++ tail).head? = some d → d.isDigit = true := by
    intro d hd
    obtain rfl : c = d := by simpa [pointed] using hd
    exact hwhole c (by simp)
  have hsign := spanSign_signed negative (by simp [pointed]) hhead
  have hword : readWord negative (pointed (c :: cs) fraction ++ tail) = none :=
    readWord_eq_none negative (hwhole c (by simp)) _
  unfold readLiteral
  simp only [hsign, hword, hspan, hfractionSpan, List.isEmpty_cons, Bool.false_and,
    Bool.false_eq_true, if_false]

/-! ## The three shapes -/

theorem value_append_zeros (ds : List Char) (n : Nat) :
    value (ds ++ List.replicate n '0') = value ds * 10 ^ n := by
  rw [value_append, value_replicate_zero, List.length_replicate, Nat.add_zero]

theorem isDigit_of_mem_zeros {n : Nat} {c : Char} (h : c ∈ List.replicate n '0') :
    c.isDigit = true := by
  rw [List.eq_of_mem_replicate h]
  decide

structure Shape (s : Scaled) (pointZero : Bool) (whole fraction : List Char) : Prop where
  text : positional s pointZero = pointed whole fraction
  whole_ne : whole ≠ []
  whole_digits : ∀ c ∈ whole, c.isDigit = true
  whole_zero : whole = ['0'] ∨ whole.head? ≠ some '0'
  fraction_ne : pointZero = true → fraction ≠ []
  fraction_digits : ∀ c ∈ fraction, c.isDigit = true
  value_eq : (⟨value (whole ++ fraction), -fraction.length⟩ : Scaled).value = s.value

theorem shape_whole (s : Scaled) (hs : s.plain) (pointZero : Bool) (h : 0 ≤ s.exponent) :
    Shape s pointZero (digits s.coefficient ++ List.replicate s.exponent.toNat '0')
      (if pointZero then ['0'] else []) where
  text := by
    cases pointZero <;> simp [positional, h, pointed]
  whole_ne := by simp [digits_ne_nil]
  whole_digits c hc := by
    rcases List.mem_append.mp hc with hc | hc
    · exact isDigit_of_mem_digits hc
    · exact isDigit_of_mem_zeros hc
  whole_zero := by
    rcases hs with hpos | rfl
    · obtain ⟨c, cs, hcons⟩ := List.exists_cons_of_ne_nil (digits_ne_nil s.coefficient)
      have := digits_head hpos
      simp_all
    · exact .inl (by simp [digits_zero])
  fraction_ne := by simp_all
  fraction_digits := by cases pointZero <;> simp
  value_eq := by
    obtain ⟨n, hn⟩ := Int.eq_ofNat_of_zero_le h
    have hvalue : value (digits s.coefficient ++ List.replicate s.exponent.toNat '0') =
        s.coefficient * 10 ^ n := by
      rw [value_append_zeros, value_digits, hn]
      rfl
    cases pointZero with
    | false =>
      rw [if_neg (by simp), List.append_nil, hvalue]
      simp [Scaled.value, hn]
    | true =>
      rw [if_pos rfl, value_append, hvalue]
      simp [Scaled.value, hn, value, digitValue]

theorem shape_inside (s : Scaled) (hs : s.plain) (pointZero : Bool) (h : s.exponent < 0)
    (hpoint : 0 < (digits s.coefficient).length + s.exponent) :
    Shape s pointZero ((digits s.coefficient).take ((digits s.coefficient).length + s.exponent).toNat)
      ((digits s.coefficient).drop ((digits s.coefficient).length + s.exponent).toNat) where
  text := by
    simp [positional, Int.not_le.mpr h, hpoint, pointed]
    omega
  whole_ne := by
    simp [digits_ne_nil]
    omega
  whole_digits c hc := isDigit_of_mem_digits (List.mem_of_mem_take hc)
  whole_zero := by
    rcases hs with hpos | rfl
    · obtain ⟨c, cs, hcons⟩ := List.exists_cons_of_ne_nil (digits_ne_nil s.coefficient)
      obtain ⟨k, hk⟩ := Nat.exists_eq_add_one.mpr
        (by omega : 0 < ((digits s.coefficient).length + s.exponent).toNat)
      have := digits_head hpos
      rw [hk, hcons]
      simp_all
    · simp at h
  fraction_ne _ := by
    simp
    omega
  fraction_digits c hc := isDigit_of_mem_digits (List.mem_of_mem_drop hc)
  value_eq := by
    rw [List.take_append_drop, value_digits, List.length_drop]
    have hexp : (-(((digits s.coefficient).length -
        ((digits s.coefficient).length + s.exponent).toNat : Nat)) : Int) = s.exponent := by omega
    rw [hexp]

theorem shape_below_one (s : Scaled) (pointZero : Bool)
    (hpoint : (digits s.coefficient).length + s.exponent ≤ 0) :
    Shape s pointZero ['0']
      (List.replicate (-((digits s.coefficient).length + s.exponent)).toNat '0' ++
        digits s.coefficient) where
  text := by
    have hpos := List.length_pos_iff.mpr (digits_ne_nil s.coefficient)
    have hexp : ¬ 0 ≤ s.exponent := by omega
    simp [positional, hexp, Int.not_lt.mpr hpoint, pointed, digits_ne_nil]
  whole_ne := by simp
  whole_digits := by simp
  whole_zero := .inl rfl
  fraction_ne _ := by simp [digits_ne_nil]
  fraction_digits c hc := by
    rcases List.mem_append.mp hc with hc | hc
    · exact isDigit_of_mem_zeros hc
    · exact isDigit_of_mem_digits hc
  value_eq := by
    rw [← List.append_assoc, value_append, value_append_zeros, value_digits, List.length_append,
      List.length_replicate]
    have hexp : (-(((-((digits s.coefficient).length + s.exponent)).toNat +
        (digits s.coefficient).length : Nat)) : Int) = s.exponent := by omega
    rw [hexp]
    simp [Scaled.value, value, digitValue]

theorem exists_shape (s : Scaled) (hs : s.plain) (pointZero : Bool) :
    ∃ whole fraction, Shape s pointZero whole fraction := by
  -- The point stands behind all digits, between them or in front of them.
  by_cases hexp : 0 ≤ s.exponent
  · exact ⟨_, _, shape_whole s hs pointZero hexp⟩
  by_cases hpoint : 0 < (digits s.coefficient).length + s.exponent
  · exact ⟨_, _, shape_inside s hs pointZero (by omega) hpoint⟩
  · exact ⟨_, _, shape_below_one s pointZero (by omega)⟩

end TestBeam.Decimal
