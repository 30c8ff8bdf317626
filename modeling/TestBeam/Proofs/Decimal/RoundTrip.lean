import TestBeam.Decimal.Layout
import TestBeam.Proofs.Decimal.Nearest
import TestBeam.Proofs.Decimal.Shortest

/-!
# Doubles read back

The positional text of a finite double reads as the same double, bit for bit.
-/

namespace TestBeam.Decimal

open Float.Model

/-! ## Kinds of doubles -/

theorem isNaN_of_isFinite {x : Float} (h : x.isFinite = true) : x.isNaN = false := by
  have hx : x.toModel.unpack.isFinite = true := h
  change x.toModel.unpack.isNaN = false
  cases hu : x.toModel.unpack <;> simp_all [UnpackedFloat.isFinite, UnpackedFloat.isNaN]

theorem finite_beq_self {x : Float} (h : x.isFinite = true) : (x == x) = true := by
  have hx : x.toModel.unpack.isFinite = true := h
  change x.toModel.unpack.beq x.toModel.unpack = true
  cases hu : x.toModel.unpack with
  | finite sign m e hm => cases sign <;> simp [UnpackedFloat.beq, UnpackedFloat.compare]
  | zero sign => rfl
  | infinity sign => simp [hu, UnpackedFloat.isFinite] at hx
  | notANumber => simp [hu, UnpackedFloat.isFinite] at hx

theorem finite_beq_infinity {x : Float} (h : x.isFinite = true) : (x == 1 / 0) = false := by
  have hx : x.toModel.unpack.isFinite = true := h
  have hinfinity : (1 / 0 : Float).toModel.unpack = .infinity .positive := rfl
  change x.toModel.unpack.beq (1 / 0 : Float).toModel.unpack = false
  rw [hinfinity]
  cases hu : x.toModel.unpack with
  | finite sign m e hm => rfl
  | zero sign => rfl
  | infinity sign => simp [hu, UnpackedFloat.isFinite] at hx
  | notANumber => rfl

/-! ## Round trip -/

theorem print_positional (layout : Layout) (hpositional : ∀ e, layout.isPositional e = true)
    {x : Float} (h : x.isFinite = true) :
    layout.print x = String.ofList
      (signed (isNegative x) (positional ((magnitude x).shortest layout.tie) layout.pointZero)) := by
  unfold Layout.print
  rw [isNaN_of_isFinite h]
  simp [h, hpositional]

theorem shortest_magnitude_plain {x : Float} (h : x.isFinite = true) (tie : Tie) :
    ((magnitude x).shortest tie).plain :=
  shortest_plain (canonical_magnitude h).1 tie

theorem readFloat_positional {x : Float} (h : x.isFinite = true) (tie : Tie) (pointZero : Bool) :
    readFloat (signed (isNegative x) (positional ((magnitude x).shortest tie) pointZero)) =
      some x := by
  obtain ⟨whole, fraction, hshape⟩ := exists_shape _ (shortest_magnitude_plain h tie) pointZero
  have hread : readLiteral (signed (isNegative x) (pointed whole fraction ++ [])) = _ :=
    readLiteral_pointed (isNegative x) hshape.whole_ne hshape.whole_digits hshape.fraction_digits
      (by simp)
  rw [List.append_nil, ← hshape.text] at hread
  have hvalue := hshape.value_eq
  unfold Scaled.value at hvalue
  unfold readFloat
  rw [hread]
  unfold readExponent
  simp only [Option.map_some, zero_sub, Option.some.injEq]
  apply toFloat_eq h
  split
  · rename_i hzero
    have hten : (10 : ℚ) ^ (-(fraction.length : ℤ)) ≠ 0 := by positivity
    unfold Magnitude.shortest at hvalue
    rw [if_pos hzero, Nat.cast_zero, zero_mul] at hvalue
    exact_mod_cast (mul_eq_zero.mp hvalue).resolve_right hten
  · rename_i hne
    rw [hvalue]
    exact rounds_shortest (canonical_magnitude h).1 (Nat.pos_of_ne_zero hne) tie

end TestBeam.Decimal
