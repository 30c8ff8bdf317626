import TestBeam.Proofs.Decimal.Parts

/-!
# Signs of doubles

A double other than zero lies on one side of zero, whether it is finite or not. Negation takes it to the other
side. A quotient that lies on one side of zero tells on which side its parts are.
-/

namespace TestBeam.Decimal

open Float.Model Float.Model.UnpackedFloat

/-- The side of zero on which a double lies. A zero is on neither side, nor is what is not a number. -/
def side? : UnpackedFloat → Option Sign
  | .infinity sign => some sign
  | .finite sign _ _ _ => some sign
  | .zero _ => none
  | .notANumber => none

/-! ## Comparisons -/

variable {sign : Sign} {u v : UnpackedFloat} {x y : Float}

theorem lt_unpacked_zero_iff : u.lt (.zero sign) = true ↔ side? u = some .negative := by
  unfold UnpackedFloat.lt UnpackedFloat.compare side?
  rcases u with (_ | _) | _ | _ | (_ | _) <;> simp

theorem unpacked_zero_lt_iff :
    UnpackedFloat.lt (.zero sign) u = true ↔ side? u = some .positive := by
  unfold UnpackedFloat.lt UnpackedFloat.compare side?
  rcases u with (_ | _) | _ | _ | (_ | _) <;> simp

theorem lt_iff_unpack : x < y ↔ x.toModel.unpack.lt y.toModel.unpack = true :=
  decide_eq_true_iff

theorem lt_zero_iff : x < 0 ↔ side? x.toModel.unpack = some .negative :=
  lt_iff_unpack.trans lt_unpacked_zero_iff

theorem zero_lt_iff : 0 < x ↔ side? x.toModel.unpack = some .positive :=
  lt_iff_unpack.trans unpacked_zero_lt_iff

theorem lt_of_zero (hx : x.toModel.unpack = .zero sign) (hy : 0 < y) : x < y := by
  rw [lt_iff_unpack, hx, unpacked_zero_lt_iff]
  exact zero_lt_iff.mp hy

theorem zero_le_of_zero_lt (h : 0 < x) : 0 ≤ x := by
  rw [lt_iff_unpack] at h
  unfold UnpackedFloat.lt at h
  apply decide_eq_true
  change UnpackedFloat.le _ _ = true
  unfold UnpackedFloat.le
  rw [eq_of_beq h]
  rfl

/-! ## Packing -/

theorem sign_of_side? {b : BitVec Format.binary64.numBits}
    (h : side? (UnpackedFloat.unpack Format.binary64 b) = some sign) :
    Sign.ofBitVec (unpackSign b) = sign := by
  unfold UnpackedFloat.unpack at h
  simp only at h
  split at h
  · split at h
    · exact Option.some.inj h
    · cases h
  · split at h
    · split at h
      · cases h
      · exact Option.some.inj h
    · exact Option.some.inj h

theorem side?_of_pack (h : side? (Float.Model.pack u).unpack = some sign) : side? u = some sign := by
  have hsign := sign_of_side? h
  have hpacked (s : Sign) {e m} :
      Sign.ofBitVec (unpackSign (packComponents Format.binary64 s e m)) = s := by
    rw [unpackSign_packComponents, ofBitVec_toBitVec]
  cases u with
  | notANumber =>
    have hnone : side? (Float.Model.pack .notANumber).unpack = none := by decide
    cases hnone.symm.trans h
  | zero s =>
    have hnone : ∀ s, side? (Float.Model.pack (.zero s)).unpack = none := by
      rintro (_ | _) <;> decide
    cases (hnone s).symm.trans h
  | infinity s => exact congrArg some ((hpacked s).symm.trans hsign)
  | finite s m e hm =>
    unfold Float.Model.pack UnpackedFloat.pack at hsign
    simp only at hsign
    split at hsign
    · exact congrArg some ((hpacked s).symm.trans hsign)
    · split at hsign <;> exact congrArg some ((hpacked s).symm.trans hsign)

/-! ## Negation and division -/

theorem side?_neg (u : UnpackedFloat) : side? u.neg = (side? u).map (- ·) := by
  cases u <;> rfl

theorem side?_roundWithAccuracy {m : ℕ} {e : ℤ} {a : Accuracy} {s : Sign}
    (h : side? (roundWithAccuracy Format.binary64 s m e a) = some sign) : s = sign := by
  unfold UnpackedFloat.roundWithAccuracy at h
  simp only at h
  split at h
  · cases h
  · exact Option.some.inj h

theorem side?_div {divisor : Sign} (h : side? (u.div Format.binary64 v) = some sign)
    (hv : side? v = some divisor) :
    ∃ dividend, side? u = some dividend ∧ sign = dividend / divisor := by
  unfold UnpackedFloat.div at h
  cases v with
  | notANumber => cases hv
  | zero s => cases hv
  | infinity s => cases u <;> cases h
  | finite s m e hm =>
    obtain rfl := Option.some.inj hv
    cases u with
    | notANumber => cases h
    | zero t => cases h
    | infinity t => exact ⟨t, rfl, (Option.some.inj h).symm⟩
    | finite t m' e' hm' => exact ⟨t, rfl, (side?_roundWithAccuracy h).symm⟩

theorem same_side_of_neg_div (h : -x / y < 0)
    (hy : ∀ sign, y.toModel.unpack ≠ .zero sign) : 0 < x ∧ 0 < y ∨ x < 0 ∧ y < 0 := by
  have hquotient := side?_of_pack (lt_zero_iff.mp h)
  cases hside : side? y.toModel.unpack with
  | none =>
    cases hunpack : y.toModel.unpack with
    | zero sign => exact absurd hunpack (hy sign)
    | notANumber =>
      -- The quotient is not a number either, whatever is divided.
      rw [hunpack] at hquotient
      cases hnegated : (-x).toModel.unpack <;> rw [hnegated] at hquotient <;> cases hquotient
    | infinity sign | finite sign => simp [hunpack, side?] at hside
  | some divisor =>
    obtain ⟨dividend, hdividend, hsign⟩ := side?_div hquotient hside
    have hx := side?_of_pack hdividend
    rw [side?_neg] at hx
    obtain ⟨s, hs, rfl⟩ := Option.map_eq_some_iff.mp hx
    rw [zero_lt_iff, zero_lt_iff, lt_zero_iff, lt_zero_iff, hside, hs]
    cases divisor <;> cases s <;> simp at hsign ⊢

end TestBeam.Decimal
