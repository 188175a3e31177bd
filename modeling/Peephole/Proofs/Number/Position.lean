import Peephole.Proofs.Number.Order

/-!
# The order of numbers

Numbers of all kinds are compared by where they are in units of the least double. For two doubles
that is the order of the doubles themselves, infinities and what is undefined included
(`lt_float_iff`, `le_float_iff`), and for two integers that of the integers (`le_int_iff`). Zero and
one are where the doubles of that name are.
-/

namespace Peephole

namespace Number

open Binary64

/-! ## Doubles among numbers -/

def positionOf : View → Position
  | .nan => .undefined
  | .infinite true => .below
  | .infinite false => .above
  | .finite parts => .at parts.units

theorem position_float (x : Float) : (Number.float x).position = positionOf (view x) := by
  simp only [position]
  cases view x with
  | nan | finite => rfl
  | infinite negative => cases negative <;> rfl

theorem positionOf_eq_undefined_iff {v : View} : positionOf v = .undefined ↔ v = .nan := by
  cases v with
  | nan | finite => simp [positionOf]
  | infinite negative => cases negative <;> simp [positionOf]

theorem positionOf_lt_iff {left right : View} (canonical : left.Canonical)
    (canonical' : right.Canonical) :
    (positionOf left).lt (positionOf right) = true ↔
      left ≠ .nan ∧ right ≠ .nan ∧ left.rank < right.rank := by
  cases left with
  | nan => simp [positionOf, Position.lt]
  | infinite negative =>
      cases right with
      | nan => cases negative <;> simp [positionOf, Position.lt]
      | infinite negative' => cases negative <;> cases negative' <;> decide
      | finite parts' =>
          obtain ⟨above, below⟩ := View.rank_between_infinities canonical'
          cases negative
          · simpa [positionOf, Position.lt] using below.le
          · simpa [positionOf, Position.lt] using above
  | finite parts =>
      cases right with
      | nan => simp [positionOf, Position.lt]
      | infinite negative' =>
          obtain ⟨above, below⟩ := View.rank_between_infinities canonical
          cases negative'
          · simpa [positionOf, Position.lt] using below
          · simpa [positionOf, Position.lt] using above.le
      | finite parts' =>
          simpa [positionOf, Position.lt] using
            Parts.Canonical.units_lt_iff canonical canonical'

theorem lt_float_iff {x y : Float} : (Number.float x).lt (.float y) = true ↔ x < y := by
  rw [lt_iff_rank_lt, lt, position_float, position_float,
    positionOf_lt_iff (canonical_view x) (canonical_view y)]

theorem Position.lt_or_eq_or_lt {left right : Position} (defined : left ≠ .undefined)
    (defined' : right ≠ .undefined) :
    left.lt right = true ∨ left = right ∨ right.lt left = true := by
  cases left with
  | undefined => exact absurd rfl defined
  | below => cases right <;> simp_all [Position.lt]
  | above => cases right <;> simp_all [Position.lt]
  | «at» units =>
      cases right with
      | undefined => exact absurd rfl defined'
      | below | above => simp [Position.lt]
      | «at» units' => simpa [Position.lt] using Int.lt_trichotomy units units'

theorem Position.lt_asymm {left right : Position} (less : left.lt right = true) :
    ¬ right.lt left = true := by
  cases left <;> cases right <;> simp_all [Position.lt, Int.le_of_lt]

theorem same_iff {left right : Number} :
    left.same right = true ↔ left.position = right.position ∧ left.position ≠ .undefined := by
  simp [same]

theorem le_iff_not_lt {left right : Number} (defined : left.position ≠ .undefined)
    (defined' : right.position ≠ .undefined) :
    left.le right = true ↔ ¬ right.lt left = true := by
  rw [le, Bool.or_eq_true, same_iff, lt, lt]
  constructor
  · rintro (less | ⟨equal, -⟩)
    · exact Position.lt_asymm less
    · rw [equal]
      exact fun less => Position.lt_asymm less less
  · intro notMore
    rcases Position.lt_or_eq_or_lt defined defined' with less | equal | more
    · exact Or.inl less
    · exact Or.inr ⟨equal, defined⟩
    · exact absurd more notMore

theorem le_eq_false_of_undefined {left right : Number}
    (undefined : left.position = .undefined ∨ right.position = .undefined) :
    ¬ left.le right = true := by
  rw [le, Bool.or_eq_true, same_iff, lt]
  rcases undefined with left' | right'
  · simp [left', Position.lt]
  · rw [right']
    rintro (less | ⟨equal, defined⟩)
    · revert less
      cases left.position <;> simp [Position.lt]
    · exact defined equal

/-- Doubles are compared with each other as numbers of all kinds are. -/
theorem le_float_iff {x y : Float} : (Number.float x).le (.float y) = true ↔ x ≤ y := by
  have left := positionOf_eq_undefined_iff (v := view x)
  have right := positionOf_eq_undefined_iff (v := view y)
  rw [← position_float] at left right
  rw [le_iff_rank_le]
  by_cases undefined : view x = .nan ∨ view y = .nan
  · refine iff_of_false ?_ fun numbers => undefined.elim numbers.1 numbers.2.1
    exact le_eq_false_of_undefined (undefined.imp left.mpr right.mpr)
  · obtain ⟨number, number'⟩ := not_or.mp undefined
    rw [le_iff_not_lt (mt left.mp number) (mt right.mp number'), lt_float_iff, lt_iff_rank_lt]
    constructor
    · exact fun notMore =>
        ⟨number, number', Int.not_lt.mp fun more => notMore ⟨number', number, more⟩⟩
    · exact fun ordered more => Int.not_lt.mpr ordered.2.2 more.2.2

/-! ## Integers among numbers -/

/-- How many units make one. -/
theorem units_per_one_pos : (0 : Int) < twoTo (-leastExponent).toNat := by
  rw [twoTo_eq]
  exact Int.natCast_pos.mpr (Nat.two_pow_pos (-leastExponent).toNat)

theorem lt_int_iff {left right : Int} :
    (Number.int left).lt (.int right) = true ↔ left < right := by
  rw [lt, position, position, Position.lt, decide_eq_true_eq,
    Int.mul_lt_mul_right units_per_one_pos]

theorem le_int_iff {left right : Int} :
    (Number.int left).le (.int right) = true ↔ left ≤ right := by
  have defined (value : Int) : (Number.int value).position ≠ .undefined := by
    rw [position]
    exact Position.noConfusion
  rw [le_iff_not_lt (defined left) (defined right), lt_int_iff, Int.not_lt]

theorem position_int_zero : (Number.int 0).position = (Number.float 0.0).position := by
  have zero : view 0.0 = .finite ⟨false, 0, leastExponent⟩ := by decide
  rw [position_float, zero, position, positionOf, Int.zero_mul, Parts.units_eq, Parts.scaled,
    Nat.zero_mul, signed_zero]

theorem position_int_one : (Number.int 1).position = (Number.float 1.0).position := by
  have one : view 1.0 = .finite ⟨false, 2 ^ 52, -52⟩ := by decide
  have exponents : (-leastExponent).toNat = 52 + (-52 - leastExponent).toNat := by decide
  rw [position_float, one, position, positionOf, Int.one_mul, Parts.units_eq, Parts.scaled,
    twoTo_eq, exponents, Nat.pow_add, signed, if_neg Bool.false_ne_true]

theorem zero_le_float_iff {x : Float} : (Number.int 0).le (.float x) = true ↔ 0.0 ≤ x := by
  rw [← le_float_iff]
  simp only [le, lt, same, position_int_zero]

theorem float_lt_one_iff {x : Float} : (Number.float x).lt (.int 1) = true ↔ x < 1.0 := by
  rw [← lt_float_iff]
  simp only [lt, position_int_one]

end Number

end Peephole
