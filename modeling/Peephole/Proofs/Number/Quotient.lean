import Peephole.Proofs.Number.Order

/-!
# Quotients of finite doubles

A finite double divided by one of at least one and a half is finite (`isFinite_div`). Whether a
number is packed as an infinity is decided by its exponent; rounding raises the exponent only as far
as the significand is too long, and once more if it carries (`packable_roundWithAccuracy`). A
quotient by one and a half or more is so far below the greatest double that neither gets beyond the
greatest exponent.
-/

namespace Peephole

namespace Binary64

open Float.Model
open Float.Model.UnpackedFloat (Accuracy ExtendedMantissa Sign packComponents)

/-! ## Finite doubles, packed and unpacked -/

theorem isFinite_unpack (x : Float) : x.toModel.unpack.isFinite = isFinite x := by
  rw [← unpacked_view, isFinite]
  cases view x with
  | nan | infinite => rfl
  | finite parts =>
      rw [View.unpacked]
      split <;> rfl

theorem isFinite_eq (x : Float) : isFinite x = x.isFinite :=
  (isFinite_unpack x).symm

/-- Zeros and numbers whose exponent has a place in a double. -/
def Packable : UnpackedFloat → Prop
  | .zero _ => True
  | .finite _ _ exponent _ => exponent ≤ 971
  | .notANumber | .infinity _ => False

theorem isFinite_of_fields (sign : Sign) {exponent : BitVec Format.binary64.exponentBits}
    (mantissa : BitVec Format.binary64.mantissaBitsWithoutImplicit) (below : exponent ≠ -1#_) :
    (UnpackedFloat.unpack .binary64 (packComponents .binary64 sign exponent mantissa)).isFinite =
      true := by
  simp only [UnpackedFloat.unpack, UnpackedFloat.unpackSign_packComponents,
    UnpackedFloat.unpackExponent_packComponents, UnpackedFloat.unpackMantissa_packComponents,
    if_neg below]
  split
  · split <;> rfl
  · rfl

theorem isFinite_pack {number : UnpackedFloat} (packable : Packable number) :
    (UnpackedFloat.unpack .binary64 (UnpackedFloat.pack .binary64 number)).isFinite = true := by
  cases number with
  | notANumber | infinity => exact absurd packable id
  | zero sign => exact isFinite_of_fields sign _ (by decide)
  | finite sign mantissa exponent positive =>
      have top : exponent ≤ 971 := packable
      have bias : Format.binary64.exponentBias = 1023 := rfl
      rw [UnpackedFloat.pack]
      dsimp only
      rw [bias]
      split
      · omega
      · split
        · refine isFinite_of_fields sign _ fun isTop => ?_
          have biased := congrArg BitVec.toNat isTop
          rw [BitVec.toNat_ofNat, Nat.mod_eq_of_lt (by omega)] at biased
          change _ = 2047 at biased
          omega
        · exact isFinite_of_fields sign _ (by decide)

/-! ## Rounding -/

theorem mantissa_shiftRight (extended : ExtendedMantissa) (shift : Nat) :
    (extended >>> shift).mantissa = extended.mantissa / 2 ^ shift := by
  induction shift with
  | zero => exact (Nat.div_one _).symm
  | succ shift ih =>
      rw [Nat.pow_succ, ← Nat.div_div_eq_div_mul, ← ih]
      rfl

theorem mantissa_ofMantissaAndAccuracy (mantissa : Nat) (accuracy : Accuracy) :
    (ExtendedMantissa.ofMantissaAndAccuracy mantissa accuracy).mantissa = mantissa := by
  cases accuracy with
  | exact => rfl
  | inexact side => cases side <;> rfl

theorem roundedMantissa_le (extended : ExtendedMantissa) :
    extended.roundedMantissa ≤ extended.mantissa + 1 := by
  unfold ExtendedMantissa.roundedMantissa Accuracy.roundToNearestEven
  split <;> omega

theorem log2_lt_iff {number bits : Nat} (positive : 0 < bits) :
    number.log2 < bits ↔ number < 2 ^ bits := by
  by_cases zero : number = 0
  · rw [zero, Nat.log2_zero]
    exact iff_of_true positive (Nat.two_pow_pos _)
  · exact Nat.log2_lt zero

/-- How far a significand is shifted to the right for it to fit. -/
def roundingShift (mantissa : Nat) (exponent : Int) : Nat :=
  (max (totalExponent mantissa exponent - 53) (-1074) - exponent).toNat

/-- Rounding shifts, rounds, and shifts once more in case of a carry. -/
theorem roundWithAccuracy_eq (sign : Sign) (mantissa : Nat) (exponent : Int)
    (accuracy : Accuracy) :
    UnpackedFloat.roundWithAccuracy .binary64 sign mantissa exponent accuracy =
      let shift := roundingShift mantissa exponent
      let rounded :=
        (ExtendedMantissa.ofMantissaAndAccuracy mantissa accuracy >>> shift).roundedMantissa
      let again := roundingShift rounded (exponent + shift)
      let last := (ExtendedMantissa.ofMantissaAndAccuracy rounded .exact >>> again).mantissa
      if positive : last = 0 then .zero sign
      else .finite sign last (exponent + shift + again) (Nat.pos_of_ne_zero positive) :=
  rfl

theorem add_roundingShift_le {mantissa : Nat} {exponent : Int} (least : exponent ≤ 971)
    (total : totalExponent mantissa exponent ≤ 1024) :
    exponent + roundingShift mantissa exponent ≤ 971 := by
  unfold roundingShift
  omega

/-- The shifted significand fits, and at the greatest exponent there is room for a carry. -/
theorem shifted_fits {mantissa : Nat} {exponent : Int} (least : exponent ≤ 971)
    (below : mantissa < (2 ^ 53 - 1) * 2 ^ (971 - exponent).toNat) :
    exponent + roundingShift mantissa exponent ≤ 971 ∧
      mantissa / 2 ^ roundingShift mantissa exponent < 2 ^ 53 ∧
      (exponent + roundingShift mantissa exponent = 971 →
        mantissa / 2 ^ roundingShift mantissa exponent < 2 ^ 53 - 1) := by
  have short : mantissa.log2 < 53 + (971 - exponent).toNat := by
    rw [log2_lt_iff (by omega), Nat.pow_add]
    exact below.trans (Nat.mul_lt_mul_of_pos_right (by decide) (Nat.two_pow_pos _))
  refine ⟨add_roundingShift_le least (by unfold totalExponent; omega), ?_, fun top => ?_⟩
  · rw [Nat.div_lt_iff_lt_mul (Nat.two_pow_pos _), ← Nat.pow_add, ← log2_lt_iff (by omega)]
    simp only [roundingShift, totalExponent]
    omega
  · have shift : roundingShift mantissa exponent = (971 - exponent).toNat := by omega
    rwa [Nat.div_lt_iff_lt_mul (Nat.two_pow_pos _), shift]

/-- A carry does not lead beyond the greatest exponent if there was room for it. -/
theorem totalExponent_le_of_carry {rounded mantissa : Nat} {exponent : Int} (least : exponent ≤ 971)
    (carried : rounded ≤ mantissa + 1) (fits : mantissa < 2 ^ 53)
    (room : exponent = 971 → mantissa < 2 ^ 53 - 1) : totalExponent rounded exponent ≤ 1024 := by
  unfold totalExponent
  by_cases top : exponent = 971
  · have roomy := room top
    have bound : rounded.log2 < 53 := (log2_lt_iff (by decide)).mpr (by omega)
    omega
  · have bound : rounded.log2 < 54 := (log2_lt_iff (by decide)).mpr (by omega)
    omega

/-- What is below the greatest double by more than one unit of its significand is not rounded beyond
it. -/
theorem packable_roundWithAccuracy (sign : Sign) {mantissa : Nat} {exponent : Int}
    (accuracy : Accuracy) (least : exponent ≤ 971)
    (below : mantissa < (2 ^ 53 - 1) * 2 ^ (971 - exponent).toNat) :
    Packable (UnpackedFloat.roundWithAccuracy .binary64 sign mantissa exponent accuracy) := by
  obtain ⟨lowered, fits, room⟩ := shifted_fits least below
  rw [roundWithAccuracy_eq]
  dsimp only
  split
  · trivial
  · have carried := roundedMantissa_le (ExtendedMantissa.ofMantissaAndAccuracy mantissa accuracy >>>
      roundingShift mantissa exponent)
    rw [mantissa_shiftRight, mantissa_ofMantissaAndAccuracy] at carried
    exact add_roundingShift_le lowered (totalExponent_le_of_carry lowered carried fits room)

/-! ## Division -/

/-- The quotient by one and a half or more is well below the greatest double. -/
theorem packable_div_finite (sign sign' : Sign) {mantissa mantissa' : Nat}
    {exponent exponent' : Int} (positive : 0 < mantissa) (positive' : 0 < mantissa')
    (small : mantissa < 2 ^ 53) (greatest : exponent ≤ 971) (large : 3 * 2 ^ 51 ≤ mantissa')
    (least : -52 ≤ exponent') :
    Packable (UnpackedFloat.div .binary64 (.finite sign mantissa exponent positive)
      (.finite sign' mantissa' exponent' positive')) := by
  let lower := min (exponent - exponent') (max (totalExponent mantissa exponent -
    totalExponent mantissa' exponent' - 53) (-1074))
  let shift := (exponent - exponent' - lower).toNat
  have bits : mantissa.log2 < 53 := (log2_lt_iff (by decide)).mpr small
  have bits' : 52 ≤ mantissa'.log2 := (Nat.le_log2 (by omega)).mpr (by omega)
  have low : lower ≤ 971 := by
    simp only [lower, totalExponent]
    omega
  have result : UnpackedFloat.div .binary64 (.finite sign mantissa exponent positive)
      (.finite sign' mantissa' exponent' positive') =
    UnpackedFloat.roundWithAccuracy .binary64 (sign / sign') (mantissa <<< shift / mantissa') lower
      (UnpackedFloat.accuracyOfFraction (mantissa <<< shift % mantissa') mantissa') := rfl
  rw [result]
  refine packable_roundWithAccuracy _ _ low ?_
  have scale : 2 ^ shift ≤ 2 ^ 52 * 2 ^ (971 - lower).toNat := by
    rw [← Nat.pow_add]
    exact Nat.pow_le_pow_right (by decide) (by omega)
  have bound : mantissa * 2 ^ shift < 2 ^ 53 * (2 ^ 52 * 2 ^ (971 - lower).toNat) :=
    Nat.lt_of_lt_of_le (Nat.mul_lt_mul_of_pos_right small (Nat.two_pow_pos _))
      (Nat.mul_le_mul_left _ scale)
  have room : 2 ^ 53 * (2 ^ 52 * 2 ^ (971 - lower).toNat) ≤
      (2 ^ 53 - 1) * 2 ^ (971 - lower).toNat * (3 * 2 ^ 51) := by
    omega
  rw [Nat.shiftLeft_eq, Nat.div_lt_iff_lt_mul positive']
  exact bound.trans_le (room.trans (Nat.mul_le_mul_left _ large))

/-- A finite double divided by one of at least one and a half is finite. -/
theorem isFinite_div {x y : Float} (finite : isFinite x = true) {divisor : Parts}
    (shape : view y = .finite divisor) (large : 3 * 2 ^ 51 ≤ divisor.significand)
    (least : -52 ≤ divisor.exponent) : isFinite (x / y) = true := by
  have canonical := canonical_view x
  obtain ⟨parts, shape'⟩ := exists_view_of_isFinite finite
  rw [shape'] at canonical
  have positive' : 0 < divisor.significand := by omega
  have unpacked : y.toModel.unpack =
      .finite (signOf divisor.negative) divisor.significand divisor.exponent positive' := by
    rw [← unpacked_view, shape, View.unpacked, dif_pos positive']
  have computed : (x / y).toModel.unpack = UnpackedFloat.unpack .binary64
      (UnpackedFloat.pack .binary64
        (UnpackedFloat.div .binary64 x.toModel.unpack y.toModel.unpack)) := rfl
  rw [← isFinite_unpack, computed]
  refine isFinite_pack ?_
  rw [unpacked, ← unpacked_view, shape']
  rcases canonical.unpacked_cases with ⟨isZero, -⟩ | ⟨positive, isFinite, -⟩
  · rw [isZero]
    trivial
  · rw [isFinite]
    exact packable_div_finite _ _ positive positive' canonical.small canonical.greatest large least

end Binary64

end Peephole
