import Peephole.Proofs.Number.Order

/-!
# Differences of ordered doubles

Subtracting a finite double from one that is no smaller gives nothing negative
(`zero_le_sub`). The exact difference is not negative, and rounding and packing only ever make a
zero or a number of the same sign from it.
-/

namespace Peephole

namespace Binary64

open Float.Model
open Float.Model.UnpackedFloat (Sign packComponents)

/-! ## Numbers that are not negative -/

/-- Zeros, whatever their sign, and what is above zero. -/
def Nonnegative : UnpackedFloat → Prop
  | .zero _ | .finite .positive _ _ _ | .infinity .positive => True
  | .notANumber | .finite .negative _ _ _ | .infinity .negative => False

theorem zero_le_iff {x : Float} : 0.0 ≤ x ↔ Nonnegative x.toModel.unpack := by
  have read : 0.0 ≤ x ↔ (UnpackedFloat.compare (.zero .positive) x.toModel.unpack).any
      Ordering.isLE = true := decide_eq_true_iff
  rw [read]
  cases x.toModel.unpack with
  | notANumber => exact iff_of_false Bool.false_ne_true id
  | zero sign => exact iff_of_true rfl trivial
  | infinity sign | finite sign =>
      cases sign
      · exact iff_of_false Bool.false_ne_true id
      · exact iff_of_true rfl trivial

theorem nonnegative_of_fields {exponent : BitVec Format.binary64.exponentBits}
    {mantissa : BitVec Format.binary64.mantissaBitsWithoutImplicit}
    (number : exponent = -1#_ → mantissa = 0#_) :
    Nonnegative (UnpackedFloat.unpack .binary64
      (packComponents .binary64 .positive exponent mantissa)) := by
  simp only [UnpackedFloat.unpack, UnpackedFloat.unpackSign_packComponents,
    UnpackedFloat.unpackExponent_packComponents, UnpackedFloat.unpackMantissa_packComponents,
    Sign.ofBitVec_toBitVec]
  split
  · rename_i top
    rw [if_pos (number top)]
    trivial
  · split
    · split <;> trivial
    · trivial

/-- Packing keeps what is not negative so. -/
theorem nonnegative_pack {number : UnpackedFloat} (nonnegative : Nonnegative number) :
    Nonnegative (UnpackedFloat.unpack .binary64 (UnpackedFloat.pack .binary64 number)) := by
  cases number with
  | notANumber => exact absurd nonnegative id
  | zero sign =>
      rw [UnpackedFloat.pack, UnpackedFloat.unpack_packedZero]
      trivial
  | infinity sign =>
      cases sign with
      | negative => exact absurd nonnegative id
      | positive => exact nonnegative_of_fields fun _ => rfl
  | finite sign mantissa exponent positive =>
      cases sign with
      | negative => exact absurd nonnegative id
      | positive =>
          rw [UnpackedFloat.pack]
          dsimp only
          split
          · exact nonnegative_of_fields fun _ => rfl
          · rename_i small
            split
            · refine nonnegative_of_fields fun top => ?_
              have biased := congrArg BitVec.toNat top
              rw [BitVec.toNat_ofNat, Nat.mod_eq_of_lt (by omega)] at biased
              exact absurd (Nat.le_of_eq (congrArg (· + 1) biased.symm)) small
            · exact nonnegative_of_fields fun top => absurd top (by decide)

/-! ## Rounding keeps signs -/

theorem nonnegative_round (mantissa : Nat) (exponent : Int) :
    Nonnegative (UnpackedFloat.round .binary64 .positive mantissa exponent) := by
  simp only [UnpackedFloat.round, UnpackedFloat.roundWithAccuracy]
  split <;> trivial

theorem nonnegative_normalize {mantissa : Int} (nonnegative : 0 ≤ mantissa) (exponent : Int)
    (zeroSign : Sign) :
    Nonnegative (UnpackedFloat.normalize .binary64 mantissa exponent zeroSign) := by
  rw [UnpackedFloat.normalize]
  split
  · rename_i below
    exact absurd (compare_lt_iff_lt.mp below) (Int.not_lt.mpr nonnegative)
  · trivial
  · exact nonnegative_round _ _

/-! ## Differences -/

/-- A significand with its sign, scaled to a lower exponent. -/
theorem apply_shiftLeft (negative : Bool) (significand shift : Nat) :
    (signOf negative).apply ((significand <<< shift : Nat) : Int) =
      signed negative (significand * 2 ^ shift) := by
  rw [Nat.shiftLeft_eq]
  cases negative <;> rfl

theorem signed_mul (negative : Bool) (magnitude scale : Nat) :
    signed negative (magnitude * scale) = signed negative magnitude * scale := by
  cases negative <;> simp [signed]

theorem nonnegative_sub_finite {left right : Parts} (least : leastExponent ≤ left.exponent)
    (least' : leastExponent ≤ right.exponent) (ordered : right.units ≤ left.units)
    (positive : 0 < left.significand) (positive' : 0 < right.significand) :
    Nonnegative (UnpackedFloat.sub .binary64
      (.finite (signOf left.negative) left.significand left.exponent positive)
      (.finite (signOf right.negative) right.significand right.exponent positive')) := by
  refine nonnegative_normalize ?_ _ _
  let lower := min left.exponent right.exponent
  change 0 ≤ (signOf left.negative).apply
      ((left.significand <<< (left.exponent - lower).toNat : Nat) : Int) -
    (signOf right.negative).apply
      ((right.significand <<< (right.exponent - lower).toNat : Nat) : Int)
  rw [apply_shiftLeft, apply_shiftLeft, Int.sub_nonneg]
  have split (exponent : Int) (above : lower ≤ exponent) : (exponent - leastExponent).toNat =
      (exponent - lower).toNat + (lower - leastExponent).toNat := by omega
  rw [Parts.units_eq, Parts.units_eq, Parts.scaled, Parts.scaled,
    split left.exponent (Int.min_le_left _ _), split right.exponent (Int.min_le_right _ _),
    Nat.pow_add, Nat.pow_add, ← Nat.mul_assoc, ← Nat.mul_assoc,
    signed_mul _ _ (2 ^ (lower - leastExponent).toNat),
    signed_mul _ _ (2 ^ (lower - leastExponent).toNat)] at ordered
  exact Int.le_of_mul_le_mul_right ordered (Int.natCast_pos.mpr (Nat.two_pow_pos _))

theorem nonnegative_sub {left right : Parts} (canonical : left.Canonical)
    (canonical' : right.Canonical) (ordered : right.units ≤ left.units) :
    Nonnegative (UnpackedFloat.sub .binary64 (View.finite left).unpacked
      (View.finite right).unpacked) := by
  have values := ordered
  rw [Parts.units_eq, Parts.units_eq] at values
  rcases canonical.unpacked_cases with ⟨isZero, zero⟩ | ⟨positive, isFinite, some⟩
  · rw [isZero]
    rw [canonical.scaled_eq_zero_iff.mpr zero, signed_zero] at values
    rcases canonical'.unpacked_cases with ⟨isZero', zero'⟩ | ⟨positive', isFinite', some'⟩
    · rw [isZero', UnpackedFloat.sub]
      split <;> trivial
    · rw [isFinite', UnpackedFloat.sub]
      have scaled := mt canonical'.scaled_eq_zero_iff.mp some'.ne'
      cases negative : right.negative with
      | true => trivial
      | false =>
          rw [negative] at values
          simp only [signed, Bool.false_eq_true, if_false] at values
          omega
  · rw [isFinite]
    rcases canonical'.unpacked_cases with ⟨isZero', zero'⟩ | ⟨positive', isFinite', some'⟩
    · rw [isZero']
      change Nonnegative (.finite (signOf left.negative) left.significand left.exponent positive)
      rw [canonical'.scaled_eq_zero_iff.mpr zero', signed_zero] at values
      have scaled := mt canonical.scaled_eq_zero_iff.mp some.ne'
      cases negative : left.negative with
      | false => trivial
      | true =>
          rw [negative] at values
          simp only [signed, if_true] at values
          omega
    · rw [isFinite']
      exact nonnegative_sub_finite canonical.least canonical'.least ordered positive positive'

theorem zero_le_sub {x y : Float} (finite : isFinite x = true) (finite' : isFinite y = true)
    (ordered : y ≤ x) : 0.0 ≤ x - y := by
  have canonical := canonical_view x
  have canonical' := canonical_view y
  have computed : (x - y).toModel.unpack = UnpackedFloat.unpack .binary64
      (UnpackedFloat.pack .binary64 (UnpackedFloat.sub .binary64 x.toModel.unpack
        y.toModel.unpack)) := rfl
  rw [zero_le_iff, computed, ← unpacked_view, ← unpacked_view]
  obtain ⟨parts, shape⟩ := exists_view_of_isFinite finite
  obtain ⟨parts', shape'⟩ := exists_view_of_isFinite finite'
  rw [shape] at canonical ⊢
  rw [shape'] at canonical' ⊢
  rw [le_iff_rank_le, shape, shape'] at ordered
  exact nonnegative_pack (nonnegative_sub canonical canonical'
    ((Parts.Canonical.units_le_iff canonical' canonical).mpr ordered.2.2))

end Binary64

end Peephole
