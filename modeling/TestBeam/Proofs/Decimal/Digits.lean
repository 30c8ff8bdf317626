import Mathlib
import TestBeam.Decimal.Layout
import TestBeam.Decimal.Reading

/-!
# Digit strings

The digits of a number, their value and their count. Every other proof about printed numbers uses
digits through these facts only. A printed integer reads back.
-/

namespace TestBeam.Decimal

theorem value_digits (n : Nat) : value (digits n) = n :=
  Nat.ofDigitChars_ten_toDigits

theorem value_append (a b : List Char) : value (a ++ b) = value a * 10 ^ b.length + value b := by
  change Nat.ofDigitChars 10 (a ++ b) 0 = _
  rw [Nat.ofDigitChars_append, Nat.ofDigitChars_eq_ofDigitChars_zero, Nat.mul_comm]
  rfl

theorem value_replicate_zero (n : Nat) : value (List.replicate n '0') = 0 := by
  change Nat.ofDigitChars 10 _ 0 = 0
  rw [Nat.ofDigitChars_replicate_zero, Nat.mul_zero]

theorem isDigit_of_mem_digits {n : Nat} {c : Char} (h : c ∈ digits n) : c.isDigit = true :=
  Nat.isDigit_of_mem_toDigits (by decide) (by decide) h

theorem digits_ne_nil (n : Nat) : digits n ≠ [] :=
  Nat.toDigits_ne_nil

theorem digits_eq_append {n : Nat} (h : 10 ≤ n) :
    digits n = digits (n / 10) ++ [(n % 10).digitChar] :=
  Nat.toDigits_of_base_le (by decide) h

theorem digits_head {n : Nat} (h : 0 < n) : (digits n).head? ≠ some '0' := by
  induction n using Nat.strongRecOn with
  | _ n ih =>
    by_cases h10 : n < 10
    · have hdigits : digits n = [n.digitChar] := Nat.toDigits_of_lt_base h10
      have hne : ∀ m < 10, 0 < m → m.digitChar ≠ '0' := by decide
      simpa [hdigits] using hne n h10 h
    · have ih := ih (n / 10) (by omega) (by omega)
      obtain ⟨d, ds, hd⟩ := List.exists_cons_of_ne_nil (digits_ne_nil (n / 10))
      rw [digits_eq_append (by omega), hd]
      simpa [hd] using ih

theorem digits_zero : digits 0 = ['0'] := by decide

theorem digits_cases (n : Nat) : digits n = ['0'] ∨ (digits n).head? ≠ some '0' := by
  rcases Nat.eq_zero_or_pos n with rfl | h
  · exact .inl digits_zero
  · exact .inr (digits_head h)

theorem lt_pow_length_digits (n : Nat) : n < 10 ^ (digits n).length :=
  (Nat.length_toDigits_le_iff (by decide) Nat.length_toDigits_pos).mp (Nat.le_refl _)

theorem pow_length_digits_le {n : Nat} (h : 0 < n) : 10 ^ ((digits n).length - 1) ≤ n := by
  by_cases h1 : (digits n).length ≤ 1
  · rw [Nat.sub_eq_zero_of_le h1]
    exact h
  · apply Nat.le_of_not_lt
    intro hlt
    have := (Nat.length_toDigits_le_iff (by decide) (by omega)).mpr hlt
    change (digits n).length ≤ _ at this
    omega

/-! ## Integers -/

theorem spanSign_of_isDigit {c : Char} (h : c.isDigit = true) (cs : List Char) :
    spanSign (c :: cs) = (false, c :: cs) := by
  have hminus : c ≠ '-' := by rintro rfl; simp at h
  have hplus : c ≠ '+' := by rintro rfl; simp at h
  simp [spanSign, hminus, hplus]

theorem spanSign_signed (negative : Bool) {cs : List Char} (hne : cs ≠ [])
    (h : ∀ c, cs.head? = some c → c.isDigit = true) :
    spanSign (signed negative cs) = (negative, cs) := by
  cases negative with
  | true => rfl
  | false =>
    obtain ⟨c, cs, rfl⟩ := List.exists_cons_of_ne_nil hne
    exact spanSign_of_isDigit (h c rfl) cs

theorem isDigit_head_digits (n : Nat) (c : Char) (h : (digits n).head? = some c) :
    c.isDigit = true :=
  isDigit_of_mem_digits (List.mem_of_head? h)

theorem integer_eq_signed (i : Int) : integer i = signed (decide (i < 0)) (digits i.natAbs) := by
  by_cases h : i < 0 <;> simp [integer, signed, h]

theorem readInt_integer (i : Int) : readInt (integer i) = some i := by
  have hall : (digits i.natAbs).all Char.isDigit = true :=
    List.all_eq_true.mpr fun c hc => isDigit_of_mem_digits hc
  rw [integer_eq_signed, readInt,
    spanSign_signed _ (digits_ne_nil _) (isDigit_head_digits _)]
  simp only [hall, value_digits, List.isEmpty_eq_false_iff.mpr (digits_ne_nil _), Bool.not_true,
    Bool.or_false, Bool.false_eq_true, if_false, decide_eq_true_eq]
  split <;> simp only [Option.some.injEq] <;> omega

theorem readInt64_integer (i : Int64) : readInt64 (integer i.toInt) = some i := by
  have hlow := Int64.minValue_le_toInt i
  have hhigh := Int64.toInt_le i
  have hmin : Int64.minValue.toInt = -2 ^ 63 := by decide
  have hmax : Int64.maxValue.toInt = 2 ^ 63 - 1 := by decide
  simp [readInt64, readInt_integer, int64OfInt?]
  omega

end TestBeam.Decimal
