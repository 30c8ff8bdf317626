import TestBeam.Proofs.Decimal.RoundTrip

/-!
# Integers as doubles

An integer of 64 bits rounds to a finite double. The double of the integer is the one that is read from
its digits.
-/

namespace TestBeam.Decimal

open Float.Model

/-! ## A double for every integer -/

theorem exists_rounds_of_nat {n : ℕ} (hpos : 0 < n) (hlt : n < 2 ^ 64) :
    ∃ v : Magnitude, v.Canonical ∧ 0 < v.mantissa ∧ v.exponent ≤ 971 ∧ v.Rounds n := by
  have hlog : n.log2 < 64 := (Nat.log2_lt hpos.ne').mpr hlt
  obtain ⟨v, hv, hmantissa, hexponent, hrounds⟩ :=
    exists_rounds_of_pos (t := 0) hpos (by omega)
  rw [zpow_zero, mul_one] at hrounds
  exact ⟨v, hv, hmantissa, by omega, hrounds⟩

theorem nearestDouble_nat {n : ℕ} (hlt : n < 2 ^ 64) :
    nearestDouble n 0 = Float.ofNat n ∧ (Float.ofNat n).isFinite = true := by
  rcases Nat.eq_zero_or_pos n with rfl | hpos
  · exact ⟨by rw [nearestDouble_zero]; rfl, by decide⟩
  obtain ⟨v, hv, hmantissa, hexponent, hrounds⟩ := exists_rounds_of_nat hpos hlt
  have hten : v.Rounds (n * 10 ^ (0 : ℤ)) := by simpa using hrounds
  have hnearest := hten.nearestDouble hv hmantissa hexponent
  have hofNat : Float.ofNat n = .ofModel (.pack (v.unpacked .positive)) :=
    hten.ofScientific hv hmantissa hexponent
  refine ⟨hnearest.trans hofNat.symm, ?_⟩
  rw [hofNat]
  change (Float.Model.pack (v.unpacked .positive)).unpack.isFinite = true
  rw [unpack_pack hv hexponent, Magnitude.unpacked, dif_neg hmantissa.ne']
  rfl

/-! ## Digits of an integer -/

theorem readInt_ok {cs : List Char} {i : ℤ} (h : readInt cs = some i) :
    ∃ negative ds, spanSign cs = (negative, ds) ∧ ds ≠ [] ∧ (∀ c ∈ ds, c.isDigit = true) ∧
      i = if negative then -(value ds : ℤ) else value ds := by
  rcases hsign : spanSign cs with ⟨negative, ds⟩
  unfold readInt at h
  simp only [hsign] at h
  split at h
  · cases h
  · rename_i hdigits
    simp only [Bool.or_eq_true, not_or, Bool.not_eq_true, Bool.not_eq_false',
      List.isEmpty_eq_false_iff, List.all_eq_true] at hdigits
    exact ⟨negative, ds, rfl, hdigits.1, hdigits.2, (Option.some.inj h).symm⟩

theorem readLiteral_of_digits {cs ds : List Char} {negative : Bool} (hsign : spanSign cs = (negative, ds))
    (hne : ds ≠ []) (hdigits : ∀ c ∈ ds, c.isDigit = true) :
    readLiteral cs = some (.finite negative (value ds) 0) := by
  obtain ⟨c, rest, rfl⟩ := List.exists_cons_of_ne_nil hne
  have hword := readWord_eq_none negative (hdigits c (by simp)) rest
  have hspan : spanDigits (c :: rest ++ []) = (c :: rest, []) := spanDigits_append hdigits (by simp)
  rw [List.append_nil] at hspan
  unfold readLiteral
  simp [hsign, hword, hspan, spanFraction, readExponent]

theorem isFinite_neg {x : Float} (h : x.isFinite = true) : (-x).isFinite = true := by
  have hx : x.toModel.unpack.isFinite = true := h
  obtain ⟨hv, hle⟩ := canonical_magnitude h
  rw [← ofModel_pack h, neg_ofModel_pack hv hle]
  change (Float.Model.pack ((magnitude x).unpacked _)).unpack.isFinite = true
  rw [unpack_pack hv hle]
  unfold Magnitude.unpacked
  split <;> rfl

/-- The digits of an integer read as its double. Only the sign of zero can differ. -/
theorem readFloat_of_readInt64 {cs : List Char} {i : Int64} (h : readInt64 cs = some i) :
    ∃ x, readFloat cs = some x ∧ x.isFinite = true ∧ (Float.ofInt i.toInt == x) = true := by
  obtain ⟨j, hread, hint⟩ := Option.bind_eq_some_iff.mp h
  obtain ⟨negative, ds, hsign, hne, hdigits, hj⟩ := readInt_ok hread
  have hmin : Int64.minValue.toInt = -2 ^ 63 := by decide
  have hmax : Int64.maxValue.toInt = 2 ^ 63 - 1 := by decide
  unfold int64OfInt? at hint
  split at hint
  · rename_i hrange
    simp only [hmin, hmax, Bool.and_eq_true, decide_eq_true_eq] at hrange
    have hi : i.toInt = j := by
      rw [← Option.some.inj hint]
      exact Int64.toInt_ofInt_of_le (by omega) (by omega)
    have hlt : value ds < 2 ^ 64 := by
      cases negative <;> simp at hj <;> omega
    obtain ⟨hnearest, hfinite⟩ := nearestDouble_nat hlt
    have hliteral := readLiteral_of_digits hsign hne hdigits
    unfold readFloat
    rw [hliteral, hi, hj]
    cases negative with
    | false =>
      refine ⟨Float.ofNat (value ds), ?_, hfinite, finite_beq_self hfinite⟩
      simp [Literal.toFloat, hnearest]
    | true =>
      refine ⟨-Float.ofNat (value ds), ?_, isFinite_neg hfinite, ?_⟩
      · simp [Literal.toFloat, hnearest]
      · simp only [if_true]
        -- A negative zero equals zero without being the same double.
        cases hvalue : value ds with
        | zero => decide
        | succ n =>
          rw [hvalue] at hfinite
          exact finite_beq_self (isFinite_neg hfinite)
  · cases hint

end TestBeam.Decimal
