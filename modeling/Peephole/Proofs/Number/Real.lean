import Peephole.Proofs.Number.Order

/-!
# Doubles as real numbers

A finite double is a whole number of units of the least double, hence a real number, and finite
doubles are in order exactly if these real numbers are. Zero and one are what their names say.
-/

namespace Peephole

namespace Binary64

/-- The real number that a finite double stands for, and zero for any other double. -/
noncomputable def toReal (x : Float) : ℝ :=
  ((units? x).getD 0 : ℤ) * 2 ^ leastExponent

theorem toReal_eq {x : Float} {units : Int} (read : units? x = some units) :
    toReal x = units * 2 ^ leastExponent := by
  rw [toReal, read]
  rfl

theorem toReal_lt_toReal_iff {x y : Float} (finite : isFinite x = true)
    (finite' : isFinite y = true) : toReal x < toReal y ↔ x < y := by
  obtain ⟨units, read⟩ := exists_units_of_isFinite finite
  obtain ⟨units', read'⟩ := exists_units_of_isFinite finite'
  rw [toReal_eq read, toReal_eq read', lt_iff_units_lt read read',
    mul_lt_mul_iff_of_pos_right (zpow_pos two_pos _), Int.cast_lt]

theorem toReal_le_toReal_iff {x y : Float} (finite : isFinite x = true)
    (finite' : isFinite y = true) : toReal x ≤ toReal y ↔ x ≤ y := by
  obtain ⟨units, read⟩ := exists_units_of_isFinite finite
  obtain ⟨units', read'⟩ := exists_units_of_isFinite finite'
  rw [toReal_eq read, toReal_eq read', le_iff_units_le read read',
    mul_le_mul_iff_of_pos_right (zpow_pos two_pos _), Int.cast_le]

theorem toReal_zero : toReal 0.0 = 0 := by
  have zero : units? 0.0 = some 0 := by decide
  rw [toReal_eq zero, Int.cast_zero, zero_mul]

theorem toReal_one : toReal 1.0 = 1 := by
  have one : units? 1.0 = some ((2 ^ (-leastExponent).toNat : Nat) : Int) := by decide +kernel
  have exponents : (((-leastExponent).toNat : Nat) : Int) + leastExponent = 0 := by decide
  rw [toReal_eq one, Int.cast_natCast, Nat.cast_pow, Nat.cast_ofNat, ← zpow_natCast,
    ← zpow_add₀ two_ne_zero, exponents, zpow_zero]

end Binary64

end Peephole
