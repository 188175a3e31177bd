import Mathlib.Algebra.Order.Floor.Ring
import Mathlib.Tactic.FieldSimp
import Mathlib.Tactic.Linarith
import Peephole.Proofs.Number.Real
import Peephole.Proofs.Number.Rounding

/-!
# The nearest integer

The nearest integer of a real number, a half going to the even one, is the only integer that is at
most half apart, and even if it is no less (`nearestEven_eq`). Quotients of natural numbers are
rounded to it (`nearestEven_div`), and so are doubles, which are such quotients with a sign
(`nearestInt?_eq`).
-/

namespace Peephole

/-- The nearest integer, a half going to the even one. -/
noncomputable def nearestEven (ratio : ℝ) : ℤ :=
  let below := ⌊ratio⌋
  if ratio - below < below + 1 - ratio then below
  else if below + 1 - ratio < ratio - below then below + 1
  else below + below % 2

theorem abs_sub_nearestEven_le (ratio : ℝ) : |ratio - nearestEven ratio| ≤ 1 / 2 := by
  have below := Int.floor_le ratio
  have above := Int.lt_floor_add_one ratio
  unfold nearestEven
  dsimp only
  split_ifs with left right
  · rw [abs_le]
    constructor <;> linarith
  · rw [abs_le]
    push_cast
    constructor <;> linarith
  · rcases Int.emod_two_eq_zero_or_one ⌊ratio⌋ with even | odd
    · rw [even, abs_le]
      push_cast
      constructor <;> linarith
    · rw [odd, abs_le]
      push_cast
      constructor <;> linarith

/-- A ratio that is at most half apart from an integer, and less if the integer is odd, has it for
its nearest. -/
theorem nearestEven_eq {ratio : ℝ} {whole : ℤ} (near : |ratio - whole| ≤ 1 / 2)
    (tied : |ratio - whole| = 1 / 2 → Even whole) : nearestEven ratio = whole := by
  have below := Int.floor_le ratio
  have above := Int.lt_floor_add_one ratio
  obtain ⟨least, greatest⟩ := abs_le.mp near
  have floor : ⌊ratio⌋ = whole ∨ ⌊ratio⌋ = whole - 1 := by
    have first : (whole : ℝ) < ((⌊ratio⌋ + 2 : ℤ) : ℝ) := by
      push_cast
      linarith
    have second : ((⌊ratio⌋ : ℤ) : ℝ) < ((whole + 1 : ℤ) : ℝ) := by
      push_cast
      linarith
    have first := Int.cast_lt.mp first
    have second := Int.cast_lt.mp second
    omega
  unfold nearestEven
  dsimp only
  rcases floor with same | before
  · rw [same] at below ⊢
    split_ifs with left right
    · rfl
    · linarith
    · have even := tied (le_antisymm near (by rw [abs_of_nonneg] <;> linarith))
      rw [Int.even_iff.mp even, add_zero]
  · rw [before] at below above ⊢
    push_cast at below above ⊢
    split_ifs with left right
    · linarith
    · omega
    · have even := tied (le_antisymm near (by rw [abs_of_nonpos] <;> linarith))
      have odd := Int.even_iff.mp even
      omega

theorem even_of_tied {ratio : ℝ} (tied : |ratio - nearestEven ratio| = 1 / 2) :
    Even (nearestEven ratio) := by
  have below := Int.floor_le ratio
  unfold nearestEven at tied ⊢
  dsimp only at tied ⊢
  rw [Int.even_iff]
  split_ifs at tied ⊢ with left right
  · rw [abs_of_nonneg (by linarith)] at tied
    linarith
  · push_cast at tied
    rw [abs_of_nonpos (by linarith [Int.lt_floor_add_one ratio])] at tied
    linarith
  · omega

theorem nearestEven_neg (ratio : ℝ) : nearestEven (-ratio) = -nearestEven ratio := by
  have apart : |-ratio - ((-nearestEven ratio : ℤ) : ℝ)| = |ratio - nearestEven ratio| := by
    rw [Int.cast_neg, ← neg_sub', abs_neg]
  refine nearestEven_eq (apart.le.trans (abs_sub_nearestEven_le ratio)) fun tied => ?_
  exact (even_of_tied (apart.symm.trans tied)).neg

/-- A rounded quotient is at most half apart from the quotient, and less if it is odd. -/
theorem roundQuotient_near (numerator : Nat) {denominator : Nat} (positive : 0 < denominator) :
    2 * |(numerator : ℤ) - roundQuotient numerator denominator * denominator| ≤ denominator ∧
      (2 * |(numerator : ℤ) - roundQuotient numerator denominator * denominator| = denominator →
        roundQuotient numerator denominator % 2 = 0) := by
  have small := Nat.mod_lt numerator positive
  have split : (numerator : ℤ) =
      (numerator / denominator : Nat) * denominator + (numerator % denominator : Nat) := by
    rw [mul_comm]
    exact_mod_cast (Nat.div_add_mod numerator denominator).symm
  unfold roundQuotient
  dsimp only
  split_ifs with left right
  · have rest : (numerator : ℤ) - (numerator / denominator : Nat) * denominator =
        (numerator % denominator : Nat) := by omega
    rw [rest, abs_of_nonneg (Int.natCast_nonneg _)]
    omega
  · have rest : (numerator : ℤ) - (numerator / denominator + 1 : Nat) * denominator =
        (numerator % denominator : Nat) - denominator := by
      rw [Nat.cast_add, add_mul, Nat.cast_one, one_mul]
      omega
    rw [rest, abs_of_neg (by omega)]
    omega
  · rcases Nat.mod_two_eq_zero_or_one (numerator / denominator) with even | odd
    · have rest : (numerator : ℤ) - (numerator / denominator : Nat) * denominator =
          (numerator % denominator : Nat) := by omega
      rw [even, Nat.add_zero, rest, abs_of_nonneg (Int.natCast_nonneg _)]
      omega
    · have rest : (numerator : ℤ) - (numerator / denominator + 1 : Nat) * denominator =
          (numerator % denominator : Nat) - denominator := by
        rw [Nat.cast_add, add_mul, Nat.cast_one, one_mul]
        omega
      rw [odd, rest, abs_of_neg (by omega)]
      omega

theorem nearestEven_div (numerator : Nat) {denominator : Nat} (positive : 0 < denominator) :
    nearestEven ((numerator : ℝ) / denominator) = roundQuotient numerator denominator := by
  obtain ⟨near, even⟩ := roundQuotient_near numerator positive
  have scale : (0 : ℝ) < denominator := Nat.cast_pos.mpr positive
  have apart : |(numerator : ℝ) / denominator - (roundQuotient numerator denominator : ℤ)| =
      (|(numerator : ℤ) - roundQuotient numerator denominator * denominator| : ℤ) /
        denominator := by
    rw [Int.cast_abs, ← abs_of_pos scale, ← abs_div, abs_of_pos scale]
    push_cast
    rw [sub_div, mul_div_cancel_right₀ _ scale.ne']
  have half : (1 : ℝ) / 2 = ((denominator : ℤ) : ℝ) / 2 / denominator := by
    rw [Int.cast_natCast]
    field_simp
  refine nearestEven_eq ?_ fun tied => ?_
  · rw [apart, half, div_le_div_iff_of_pos_right scale, le_div_iff₀ two_pos, mul_comm]
    exact_mod_cast near
  · rw [apart, half, div_left_inj' scale.ne', eq_div_iff two_ne_zero, mul_comm] at tied
    rw [Int.even_iff]
    exact_mod_cast even (by exact_mod_cast tied)

theorem nearestEven_natCast (whole : Nat) : nearestEven whole = whole := by
  have same : ((whole : ℤ) : ℝ) = whole := Int.cast_natCast whole
  refine nearestEven_eq ?_ fun tied => ?_
  · rw [same, sub_self, abs_zero]
    norm_num
  · rw [same, sub_self, abs_zero] at tied
    norm_num at tied

namespace Binary64

/-- A double is its significand times a power of two. -/
theorem toReal_eq_of_view {x : Float} {parts : Parts} (shape : view x = .finite parts) :
    toReal x = if parts.negative then -(parts.significand * 2 ^ parts.exponent : ℝ)
      else parts.significand * 2 ^ parts.exponent := by
  have canonical := canonical_view x
  rw [shape] at canonical
  have read : units? x = some parts.units := by rw [units?, shape]
  have shift : ((parts.exponent - leastExponent).toNat : ℤ) = parts.exponent - leastExponent :=
    Int.toNat_of_nonneg (Int.sub_nonneg.mpr canonical.least)
  have scaled : (parts.scaled : ℝ) * 2 ^ leastExponent =
      parts.significand * 2 ^ parts.exponent := by
    rw [Parts.scaled, Nat.cast_mul, Nat.cast_pow, Nat.cast_ofNat, ← zpow_natCast, shift, mul_assoc,
      ← zpow_add₀ two_ne_zero, sub_add_cancel]
  rw [toReal_eq read, Parts.units_eq, signed]
  split
  · rw [Int.cast_neg, Int.cast_natCast, neg_mul, scaled]
  · rw [Int.cast_natCast, scaled]

/-- Doubles are rounded as the real numbers that they stand for. -/
theorem nearestInt?_eq {x : Float} {whole : ℤ} (rounded : nearestInt? x = some whole) :
    whole = nearestEven (toReal x) := by
  unfold nearestInt? at rounded
  split at rounded
  · rename_i parts shape
    have magnitude : nearestEven (parts.significand * 2 ^ parts.exponent : ℝ) =
        ((if 0 ≤ parts.exponent then parts.significand * twoTo parts.exponent.toNat
          else roundQuotient parts.significand (twoTo (-parts.exponent).toNat) : Nat) : ℤ) := by
      rw [twoTo_eq, twoTo_eq]
      split_ifs with large
      · obtain ⟨exponent, isExponent⟩ := Int.eq_ofNat_of_zero_le large
        rw [isExponent, zpow_natCast, Int.toNat_natCast, ← nearestEven_natCast]
        push_cast
        rfl
      · obtain ⟨exponent, isExponent⟩ := Int.eq_ofNat_of_zero_le (a := -parts.exponent) (by omega)
        rw [isExponent, Int.toNat_natCast, ← nearestEven_div _ (Nat.two_pow_pos exponent)]
        rw [← Int.neg_neg parts.exponent, isExponent, zpow_neg, zpow_natCast, div_eq_mul_inv]
        push_cast
        rfl
    rw [toReal_eq_of_view shape]
    dsimp only at rounded
    rw [← magnitude] at rounded
    split at rounded
    · rename_i negative
      rw [if_pos negative, nearestEven_neg]
      exact (Option.some.inj rounded).symm
    · rename_i positive
      rw [if_neg positive]
      exact (Option.some.inj rounded).symm
  · cases rounded

end Binary64

end Peephole
