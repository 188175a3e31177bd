import Mathlib

/-!
# Doubles and their opposites

The bits of a double are three fields. Negation changes the first of them alone, so nothing is
rounded (`unpack_neg`): every double is the opposite of its opposite (`neg_neg`), and two doubles
are equal as numbers when their opposites are (`beq_neg_comm`). A sum does not depend on the order
of its terms (`add_comm`), and a finite double and its opposite add up to a zero, whose magnitude is
below every positive tolerance (`abs_add_lt_of_beq_neg`).
-/

namespace Peephole

namespace Double

open Float.Model
open Float.Model.UnpackedFloat (Sign packComponents unpackSign unpackExponent unpackMantissa)

/-! ## Negation of bits -/

/-- What is read from bits is read again from the bits that it is written as. -/
theorem unpack_pack_unpack {spec : Format} (bits : BitVec spec.numBits)
    (wide : 2 ≤ spec.exponentBits) :
    UnpackedFloat.unpack spec (UnpackedFloat.pack spec (UnpackedFloat.unpack spec bits)) =
      UnpackedFloat.unpack spec bits := by
  rw [UnpackedFloat.pack_unpack bits wide]
  split
  · rename_i undefined
    simp only [UnpackedFloat.isNaNBits, decide_eq_true_eq] at undefined
    rw [UnpackedFloat.unpack_packedNaN]
    simp [UnpackedFloat.unpack, undefined]
  · rfl

theorem neg_unpack {spec : Format} (sign : Sign) (exponent : BitVec spec.exponentBits)
    (mantissa : BitVec spec.mantissaBitsWithoutImplicit) :
    (UnpackedFloat.unpack spec (packComponents spec sign exponent mantissa)).neg =
      UnpackedFloat.unpack spec (packComponents spec (-sign) exponent mantissa) := by
  simp only [UnpackedFloat.unpack, UnpackedFloat.unpackSign_packComponents,
    UnpackedFloat.unpackExponent_packComponents, UnpackedFloat.unpackMantissa_packComponents,
    Sign.ofBitVec_toBitVec]
  split
  · split <;> rfl
  · split
    · split <;> rfl
    · rfl

theorem exists_fields (spec : Format) (bits : BitVec spec.numBits) :
    ∃ sign exponent mantissa, bits = packComponents spec sign exponent mantissa :=
  ⟨Sign.ofBitVec (unpackSign bits), unpackExponent bits, unpackMantissa bits,
    (UnpackedFloat.packComponents_unpackSign_unpackExponent_unpackMantissa bits).symm⟩

theorem unpack_neg (x : Float) : (-x).toModel.unpack = x.toModel.unpack.neg := by
  obtain ⟨sign, exponent, mantissa, fields⟩ :=
    exists_fields .binary64 x.toModel.toBits.toBitVec
  have read : x.toModel.unpack =
      UnpackedFloat.unpack .binary64 (packComponents .binary64 sign exponent mantissa) :=
    congrArg (UnpackedFloat.unpack .binary64) fields
  have written : (-x).toModel.unpack =
      UnpackedFloat.unpack .binary64 (UnpackedFloat.pack .binary64 x.toModel.unpack.neg) := rfl
  rw [written, read, neg_unpack, unpack_pack_unpack _ (by decide)]

/-! ## Opposite numbers -/

theorem eq_of_unpack_eq {x y : Float} (same : x.toModel.unpack = y.toModel.unpack) : x = y := by
  rw [← Float.toBits_inj, ← UInt64.toBitVec_inj]
  exact (UnpackedFloat.unpack_inj_of_valid x.toModel.valid y.toModel.valid).mp same

theorem neg_neg (x : Float) : - -x = x := by
  have signs : ∀ sign : Sign, - -sign = sign := by
    intro sign
    cases sign <;> rfl
  apply eq_of_unpack_eq
  rw [unpack_neg, unpack_neg]
  cases x.toModel.unpack <;> simp [UnpackedFloat.neg, signs]

theorem neg_ne_nan {x : Float} (number : x ≠ Float.nan) : -x ≠ Float.nan := by
  intro undefined
  apply number
  rw [← neg_neg x, undefined]
  decide

theorem neg_beq_neg {x y : Float} (equal : (x == y) = true) : (-x == -y) = true := by
  rw [Float.beq_iff_ne_nan_and_eq] at equal
  obtain ⟨number, -, rfl | ⟨rfl, rfl⟩ | ⟨rfl, rfl⟩⟩ := equal
  · exact Float.beq_self_iff.mpr (neg_ne_nan number)
  · decide
  · decide

theorem beq_neg_comm {x y : Float} (opposite : (x == -y) = true) : (y == -x) = true := by
  have back := neg_beq_neg opposite
  rw [neg_neg] at back
  exact PartialEquivBEq.symm back

/-- Numbers that are equal have one magnitude, zeros of either sign too. -/
theorem abs_eq_of_beq {x y : Float} (equal : (x == y) = true) : x.abs = y.abs := by
  rw [Float.beq_iff_ne_nan_and_eq] at equal
  obtain ⟨-, -, rfl | ⟨rfl, rfl⟩ | ⟨rfl, rfl⟩⟩ := equal
  · rfl
  · decide
  · decide

/-! ## Sums in either order -/

theorem add_unpacked_comm (spec : Format) (x y : UnpackedFloat) : x.add spec y = y.add spec x := by
  cases x with
  | notANumber => cases y <;> rfl
  | infinity sign =>
      cases y with
      | infinity sign' => cases sign <;> cases sign' <;> rfl
      | notANumber | zero | finite => rfl
  | zero sign =>
      cases y with
      | zero sign' => cases sign <;> cases sign' <;> rfl
      | notANumber | infinity | finite => rfl
  | finite sign mantissa exponent positive =>
      cases y with
      | notANumber | infinity | zero => rfl
      | finite sign' mantissa' exponent' positive' =>
          simp only [UnpackedFloat.add]
          rw [Int.min_comm, Int.add_comm]

theorem add_comm (x y : Float) : x + y = y + x := by
  have computed (x y : Float) : x + y = Float.ofModel
      (Float.Model.pack (x.toModel.unpack.add .binary64 y.toModel.unpack)) := rfl
  rw [computed, computed, add_unpacked_comm]

/-! ## Sums of opposites -/

theorem isFinite_neg {x : Float} (finite : x.isFinite = true) : (-x).isFinite = true := by
  have real : x.toModel.unpack.isFinite = true := finite
  have opposite : (-x).isFinite = (-x).toModel.unpack.isFinite := rfl
  rw [opposite, unpack_neg]
  cases number : x.toModel.unpack <;> simp_all [UnpackedFloat.neg, UnpackedFloat.isFinite]

theorem beq_self_of_isFinite {x : Float} (finite : x.isFinite = true) : (x == x) = true := by
  rw [Float.beq_self_iff]
  rintro rfl
  revert finite
  decide

theorem add_neg_unpacked (spec : Format) {x : UnpackedFloat} (finite : x.isFinite = true) :
    ∃ sign, x.add spec x.neg = .zero sign := by
  cases x with
  | notANumber | infinity => cases finite
  | zero sign => cases sign <;> exact ⟨.positive, rfl⟩
  | finite sign mantissa exponent positive =>
      have cancelled : ∀ n : Nat, sign.apply n + (-sign).apply n = 0 := by
        intro n
        cases sign
        · exact Int.add_left_neg _
        · exact Int.add_right_neg _
      refine ⟨.positive, ?_⟩
      simp only [UnpackedFloat.neg, UnpackedFloat.add]
      rw [cancelled]
      rfl

theorem abs_add_neg {x : Float} (finite : x.isFinite = true) : (x + -x).abs = 0 := by
  obtain ⟨sign, sum⟩ := add_neg_unpacked .binary64 finite
  have computed : (x + -x).abs = Float.ofModel (Float.Model.abs
      (Float.Model.pack (x.toModel.unpack.add .binary64 (-x).toModel.unpack))) := rfl
  rw [computed, unpack_neg, sum]
  cases sign <;> rfl

/-- A finite double and its opposite add up to a zero. -/
theorem abs_add_lt_of_beq_neg {x y tolerance : Float} (finite : x.isFinite = true)
    (opposite : (y == -x) = true) (positive : 0 < tolerance) : (x + y).abs < tolerance := by
  have zero : (x + y).abs = 0 := by
    rw [Float.beq_iff_ne_nan_and_eq] at opposite
    obtain ⟨-, -, rfl | ⟨rfl, zero⟩ | ⟨rfl, zero⟩⟩ := opposite
    · exact abs_add_neg finite
    · rw [← neg_neg x, zero]
      decide
    · rw [← neg_neg x, zero]
      decide
  rw [zero]
  exact positive

end Double

end Peephole
