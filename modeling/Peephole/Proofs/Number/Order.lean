import Mathlib
import Peephole.Number.Exact

/-!
# The order of doubles

A view of a double tells what it is unpacked to (`unpacked_view`). The fields of a double count
consecutively, so its magnitude field with the sign in front is its rank among all doubles, and the
order of doubles is that of their ranks (`le_iff_rank_le`). Among finite doubles it is the order of
the exact values too (`le_iff_units_le`).
-/

namespace Peephole

theorem twoTo_eq (exponent : Nat) : twoTo exponent = 2 ^ exponent :=
  rfl

namespace Binary64

open Float.Model
open Float.Model.UnpackedFloat (Sign unpackSign unpackExponent unpackMantissa)

/-! ## Views and what they are unpacked to -/

def signOf (negative : Bool) : Sign :=
  if negative then .negative else .positive

def View.unpacked : View → UnpackedFloat
  | .nan => .notANumber
  | .infinite negative => .infinity (signOf negative)
  | .finite ⟨negative, significand, exponent⟩ =>
    if positive : 0 < significand then .finite (signOf negative) significand exponent positive
    else .zero (signOf negative)

theorem toNat_unpackMantissa (bits : BitVec Format.binary64.numBits) :
    (unpackMantissa bits).toNat = bits.toNat % 2 ^ 52 := by
  rw [UnpackedFloat.unpackMantissa_def, BitVec.extractLsb'_toNat]
  rfl

theorem toNat_unpackExponent (bits : BitVec Format.binary64.numBits) :
    (unpackExponent bits).toNat = bits.toNat / 2 ^ 52 % 2 ^ 11 := by
  rw [UnpackedFloat.unpackExponent_def, BitVec.extractLsb'_toNat, Nat.shiftRight_eq_div_pow]

theorem toNat_unpackSign (bits : BitVec Format.binary64.numBits) :
    (unpackSign bits).toNat = bits.toNat / 2 ^ 63 := by
  rw [UnpackedFloat.unpackSign_def, BitVec.extractLsb'_toNat, Nat.shiftRight_eq_div_pow]
  have bound : bits.toNat < 2 ^ 64 := bits.isLt
  change bits.toNat / 2 ^ 63 % 2 ^ 1 = _
  omega

theorem ofBitVec_eq_signOf (sign : BitVec 1) : Sign.ofBitVec sign = signOf (sign.toNat == 1) := by
  rcases BitVec.eq_zero_or_eq_one sign with rfl | rfl <;> rfl

/-- The leading bit of a normal significand is not stored. -/
theorem toNat_leading (fraction : BitVec 52) :
    (1#1 ++ fraction).toNat = 2 ^ 52 + fraction.toNat := by
  rw [BitVec.toNat_append, Nat.shiftLeft_eq]
  exact (Nat.two_pow_add_eq_or_of_lt fraction.isLt 1).symm

/-- The view of a double is what the double is unpacked to. -/
theorem unpacked_view (x : Float) : (view x).unpacked = x.toModel.unpack := by
  let bits : BitVec Format.binary64.numBits := x.toBits.toBitVec
  have sign : Sign.ofBitVec (unpackSign bits) = signOf (bits.toNat / 2 ^ 63 == 1) := by
    rw [ofBitVec_eq_signOf, toNat_unpackSign]
  have unpacked : x.toModel.unpack = UnpackedFloat.unpack .binary64 bits := rfl
  have viewed : x.toBits.toNat = bits.toNat := rfl
  have topExponent : unpackExponent bits = -1#_ ↔ bits.toNat / 2 ^ 52 % 2 ^ 11 = 2047 := by
    rw [← BitVec.toNat_inj, toNat_unpackExponent]
    exact Iff.rfl
  have leastExponent : unpackExponent bits = 0#_ ↔ bits.toNat / 2 ^ 52 % 2 ^ 11 = 0 := by
    rw [← BitVec.toNat_inj, toNat_unpackExponent]
    exact Iff.rfl
  have noMantissa : unpackMantissa bits = 0#_ ↔ bits.toNat % 2 ^ 52 = 0 := by
    rw [← BitVec.toNat_inj, toNat_unpackMantissa]
    exact Iff.rfl
  rw [unpacked, UnpackedFloat.unpack]
  simp only [topExponent, leastExponent, noMantissa, sign, view, viewed, twoTo_eq, beq_iff_eq,
    toNat_unpackExponent, toNat_unpackMantissa]
  by_cases top : bits.toNat / 2 ^ 52 % 2 ^ 11 = 2047
  · rw [if_pos top, if_pos top]
    split <;> rfl
  · rw [if_neg top, if_neg top]
    by_cases least : bits.toNat / 2 ^ 52 % 2 ^ 11 = 0
    · rw [if_pos least, if_pos least, View.unpacked]
      by_cases zero : bits.toNat % 2 ^ 52 = 0
      · rw [dif_pos zero, dif_neg (by omega)]
      · rw [dif_neg zero, dif_pos (Nat.pos_of_ne_zero zero), least]
        rfl
    · have bias : Format.binary64.exponentBias = 1023 := rfl
      rw [if_neg least, if_neg least, View.unpacked, dif_pos (by omega)]
      congr 1
      rw [toNat_leading, toNat_unpackMantissa]

/-! ## Ranks -/

def signed (negative : Bool) (magnitude : Nat) : Int :=
  if negative then -(magnitude : Int) else magnitude

/-- The exponent field and the fraction of a finite double, read as one number. -/
def Parts.magnitude (parts : Parts) : Nat :=
  (parts.exponent - leastExponent).toNat * 2 ^ 52 + parts.significand

/-- The place of a double among all doubles, zero being at zero. -/
def View.rank : View → Int
  | .nan => 0
  | .infinite negative => signed negative (2047 * 2 ^ 52)
  | .finite parts => signed parts.negative parts.magnitude

/-- The parts that are read from doubles: a significand without a leading bit has the least
exponent. -/
structure Parts.Canonical (parts : Parts) : Prop where
  small : parts.significand < 2 ^ 53
  least : leastExponent ≤ parts.exponent
  greatest : parts.exponent ≤ 971
  normal : leastExponent < parts.exponent → 2 ^ 52 ≤ parts.significand

def View.Canonical : View → Prop
  | .finite parts => parts.Canonical
  | .nan | .infinite _ => True

theorem canonical_view (x : Float) : (view x).Canonical := by
  simp only [view, twoTo_eq, beq_iff_eq]
  split
  · split <;> trivial
  · rename_i notTop
    split
    · rename_i least
      have small : leastExponent ≤ 971 := by decide
      refine ⟨?_, Int.le_refl _, small, fun less => absurd less (Int.lt_irrefl _)⟩
      exact (Nat.mod_lt _ (by decide)).trans (by decide)
    · rename_i notLeast
      have bound := Nat.mod_lt (x.toBits.toNat / 2 ^ 52) (y := 2 ^ 11) (by decide)
      have fraction := Nat.mod_lt x.toBits.toNat (y := 2 ^ 52) (by decide)
      refine ⟨?_, ?_, ?_, ?_⟩
      · dsimp only
        omega
      · unfold leastExponent
        dsimp only
        omega
      · dsimp only
        omega
      · intro _
        dsimp only
        omega

theorem Parts.Canonical.magnitude_lt {parts : Parts} (canonical : parts.Canonical) :
    parts.magnitude < 2047 * 2 ^ 52 := by
  obtain ⟨small, least, greatest, normal⟩ := canonical
  unfold Parts.magnitude
  unfold leastExponent at *
  omega

/-- Exponents count before significands. -/
theorem Parts.Canonical.compare_then {left right : Parts} (canonical : left.Canonical)
    (canonical' : right.Canonical) :
    (compare left.exponent right.exponent).then (compare left.significand right.significand) =
      compare left.magnitude right.magnitude := by
  obtain ⟨small, least, greatest, normal⟩ := canonical
  obtain ⟨small', least', greatest', normal'⟩ := canonical'
  unfold Parts.magnitude
  unfold leastExponent at *
  rcases lt_trichotomy left.exponent right.exponent with less | same | more
  · rw [compare_lt_iff_lt.mpr less, eq_comm]
    exact compare_lt_iff_lt.mpr (by omega)
  · rw [compare_eq_iff_eq.mpr same, same, Ordering.eq_then]
    simp only [Nat.compare_eq_ite_lt, Nat.add_lt_add_iff_left]
  · rw [compare_gt_iff_gt.mpr more, eq_comm]
    exact compare_gt_iff_gt.mpr (by omega)

theorem signed_false_strictMono : StrictMono (signed false) := by
  intro small large less
  simp only [signed, Bool.false_eq_true, if_false]
  exact Int.ofNat_lt.mpr less

theorem signed_true_strictAnti : StrictAnti (signed true) := by
  intro small large less
  simp only [signed, if_true]
  exact Int.neg_lt_neg (Int.ofNat_lt.mpr less)

/-- Finite parts are a zero of rank zero or a number of their sign. -/
theorem Parts.Canonical.unpacked_cases {parts : Parts} (canonical : parts.Canonical) :
    ((View.finite parts).unpacked = .zero (signOf parts.negative) ∧ parts.magnitude = 0) ∨
      ∃ positive, (View.finite parts).unpacked =
          .finite (signOf parts.negative) parts.significand parts.exponent positive ∧
        0 < parts.magnitude := by
  obtain ⟨negative, significand, exponent⟩ := parts
  obtain ⟨-, least, -, normal⟩ := canonical
  dsimp only at least normal
  simp only [View.unpacked, Parts.magnitude]
  by_cases positive : 0 < significand
  · exact Or.inr ⟨positive, dif_pos positive, by omega⟩
  · refine Or.inl ⟨dif_neg positive, ?_⟩
    have lowest : ¬ leastExponent < exponent := by omega
    omega

theorem View.compare_infinite_finite (negative : Bool) {parts : Parts}
    (canonical : parts.Canonical) :
    (View.infinite negative).unpacked.compare (View.finite parts).unpacked =
      some (compare (View.infinite negative).rank (View.finite parts).rank) := by
  have bound := canonical.magnitude_lt
  have beyond : compare (View.infinite negative).rank (View.finite parts).rank =
      if negative then .lt else .gt := by
    cases negative
    · refine compare_gt_iff_gt.mpr ?_
      simp only [View.rank, signed, Bool.false_eq_true, if_false]
      split <;> omega
    · refine compare_lt_iff_lt.mpr ?_
      simp only [View.rank, signed, if_true]
      split <;> omega
  rw [beyond]
  rcases canonical.unpacked_cases with ⟨zero, -⟩ | ⟨positive, finite, -⟩
  · rw [zero]
    cases negative <;> rfl
  · rw [finite]
    cases negative <;> rfl

theorem signed_zero (negative : Bool) : signed negative 0 = 0 := by
  cases negative <;> rfl

theorem compare_zero_signed {magnitude : Nat} (positive : 0 < magnitude) (negative : Bool) :
    compare 0 (signed negative magnitude) = if negative then .gt else .lt := by
  cases negative
  · exact compare_lt_iff_lt.mpr (Int.natCast_pos.mpr positive)
  · exact compare_gt_iff_gt.mpr (Int.neg_neg_of_pos (Int.natCast_pos.mpr positive))

theorem compare_signed_zero {magnitude : Nat} (positive : 0 < magnitude) (negative : Bool) :
    compare (signed negative magnitude) 0 = if negative then .lt else .gt := by
  cases negative
  · exact compare_gt_iff_gt.mpr (Int.natCast_pos.mpr positive)
  · exact compare_lt_iff_lt.mpr (Int.neg_neg_of_pos (Int.natCast_pos.mpr positive))

theorem compare_signed_true_false {magnitude : Nat} (positive : 0 < magnitude)
    (magnitude' : Nat) : compare (signed true magnitude) (signed false magnitude') = .lt := by
  refine compare_lt_iff_lt.mpr ?_
  simp only [signed, Bool.false_eq_true, if_true, if_false]
  omega

theorem compare_signed_false_true {magnitude : Nat} (positive : 0 < magnitude)
    (magnitude' : Nat) : compare (signed false magnitude) (signed true magnitude') = .gt := by
  refine compare_gt_iff_gt.mpr ?_
  simp only [signed, Bool.false_eq_true, if_true, if_false]
  omega

theorem compare_swap (left right : UnpackedFloat) :
    right.compare left = (left.compare right).map Ordering.swap := by
  cases left with
  | notANumber => cases right <;> rfl
  | infinity sign =>
      cases right with
      | notANumber | zero | finite => cases sign <;> rfl
      | infinity sign' => cases sign <;> cases sign' <;> rfl
  | zero sign =>
      cases right with
      | notANumber | zero => rfl
      | infinity sign' | finite sign' => cases sign' <;> rfl
  | finite sign significand exponent =>
      cases right with
      | notANumber => rfl
      | infinity sign' => cases sign <;> cases sign' <;> rfl
      | zero sign' => cases sign <;> rfl
      | finite sign' significand' exponent' =>
          have exponents : compare exponent exponent' = (compare exponent' exponent).swap :=
            Std.OrientedCmp.eq_swap
          have significands :
              compare significand significand' = (compare significand' significand).swap :=
            Std.OrientedCmp.eq_swap
          cases sign <;> cases sign' <;>
            simp [UnpackedFloat.compare, exponents, significands, Ordering.swap_then]

theorem View.compare_finite_finite {left right : Parts} (canonical : left.Canonical)
    (canonical' : right.Canonical) :
    (View.finite left).unpacked.compare (View.finite right).unpacked =
      some (compare (View.finite left).rank (View.finite right).rank) := by
  have order := canonical.compare_then canonical'
  simp only [View.rank]
  rcases canonical.unpacked_cases with ⟨isZero, zero⟩ | ⟨positive, isFinite, some⟩
  · rw [isZero, zero, signed_zero]
    rcases canonical'.unpacked_cases with ⟨isZero', zero'⟩ | ⟨positive', isFinite', some'⟩
    · rw [isZero', zero', signed_zero]
      rfl
    · rw [isFinite', compare_zero_signed some']
      cases right.negative <;> rfl
  · rw [isFinite]
    rcases canonical'.unpacked_cases with ⟨isZero', zero'⟩ | ⟨positive', isFinite', some'⟩
    · rw [isZero', zero', signed_zero, compare_signed_zero some]
      cases left.negative <;> rfl
    · rw [isFinite']
      cases left.negative <;> cases right.negative
      · rw [← cmp_eq_compare, signed_false_strictMono.cmp_map_eq, cmp_eq_compare, ← order]
        rfl
      · rw [compare_signed_false_true some]
        rfl
      · rw [compare_signed_true_false some]
        rfl
      · rw [← cmp_eq_compare, signed_true_strictAnti.cmp_map_eq, ← cmp_swap, cmp_eq_compare,
          ← order]
        rfl

/-- Doubles are compared by rank. -/
theorem View.compare_unpacked {left right : View} (canonical : left.Canonical)
    (canonical' : right.Canonical) (number : left ≠ .nan) (number' : right ≠ .nan) :
    left.unpacked.compare right.unpacked = some (compare left.rank right.rank) := by
  cases left with
  | nan => exact absurd rfl number
  | infinite negative =>
      cases right with
      | nan => exact absurd rfl number'
      | infinite negative' => cases negative <;> cases negative' <;> decide
      | finite parts => exact compare_infinite_finite negative canonical'
  | finite parts =>
      cases right with
      | nan => exact absurd rfl number'
      | infinite negative =>
          have ranks : compare (View.finite parts).rank (View.infinite negative).rank =
              (compare (View.infinite negative).rank (View.finite parts).rank).swap :=
            Std.OrientedCmp.eq_swap
          rw [compare_swap, compare_infinite_finite negative canonical, Option.map_some, ranks]
      | finite parts' => exact compare_finite_finite canonical canonical'

theorem compare_unpack_of_nan {x y : Float} (undefined : view x = .nan ∨ view y = .nan) :
    x.toModel.unpack.compare y.toModel.unpack = none := by
  rw [← unpacked_view, ← unpacked_view]
  rcases undefined with left | right
  · rw [left]
    rfl
  · rw [right, compare_swap]
    rfl

theorem compare_unpack_of_ne_nan {x y : Float} (number : view x ≠ .nan) (number' : view y ≠ .nan) :
    x.toModel.unpack.compare y.toModel.unpack = some (compare (view x).rank (view y).rank) := by
  rw [← unpacked_view, ← unpacked_view]
  exact View.compare_unpacked (canonical_view x) (canonical_view y) number number'

/-- One double is at most another one if both are numbers and their ranks are so ordered. -/
theorem le_iff_rank_le {x y : Float} :
    x ≤ y ↔ view x ≠ .nan ∧ view y ≠ .nan ∧ (view x).rank ≤ (view y).rank := by
  have read : x ≤ y ↔ (x.toModel.unpack.compare y.toModel.unpack).any Ordering.isLE = true :=
    decide_eq_true_iff
  rw [read]
  by_cases undefined : view x = .nan ∨ view y = .nan
  · rw [compare_unpack_of_nan undefined]
    exact iff_of_false Bool.false_ne_true fun numbers =>
      undefined.elim numbers.1 numbers.2.1
  · obtain ⟨number, number'⟩ := not_or.mp undefined
    rw [compare_unpack_of_ne_nan number number', Option.any_some, Int.isLE_compare]
    exact ⟨fun ordered => ⟨number, number', ordered⟩, fun numbers => numbers.2.2⟩

theorem lt_iff_rank_lt {x y : Float} :
    x < y ↔ view x ≠ .nan ∧ view y ≠ .nan ∧ (view x).rank < (view y).rank := by
  have read : x < y ↔ (x.toModel.unpack.compare y.toModel.unpack == some .lt) = true :=
    decide_eq_true_iff
  rw [read, beq_iff_eq]
  by_cases undefined : view x = .nan ∨ view y = .nan
  · rw [compare_unpack_of_nan undefined]
    exact iff_of_false (Option.some_ne_none _).symm fun numbers =>
      undefined.elim numbers.1 numbers.2.1
  · obtain ⟨number, number'⟩ := not_or.mp undefined
    rw [compare_unpack_of_ne_nan number number', Option.some_inj, compare_lt_iff_lt]
    exact ⟨fun ordered => ⟨number, number', ordered⟩, fun numbers => numbers.2.2⟩

theorem le_trans {x y z : Float} (first : x ≤ y) (second : y ≤ z) : x ≤ z := by
  rw [le_iff_rank_le] at *
  exact ⟨first.1, second.2.1, Int.le_trans first.2.2 second.2.2⟩

theorem le_of_lt {x y : Float} (less : x < y) : x ≤ y := by
  rw [lt_iff_rank_lt] at less
  rw [le_iff_rank_le]
  exact ⟨less.1, less.2.1, Int.le_of_lt less.2.2⟩

/-! ## Exact values -/

/-- Exponents count before significands in the value too. -/
theorem scaled_lt_scaled {small large smallExponent largeExponent : Nat}
    (bound : small < 2 ^ 53) (normal : 2 ^ 52 ≤ large) (less : smallExponent < largeExponent) :
    small * 2 ^ smallExponent < large * 2 ^ largeExponent :=
  calc small * 2 ^ smallExponent
    _ < 2 ^ 53 * 2 ^ smallExponent := Nat.mul_lt_mul_of_pos_right bound (Nat.two_pow_pos _)
    _ = 2 ^ 52 * 2 ^ (smallExponent + 1) := by rw [← Nat.pow_add, ← Nat.pow_add]; congr 1; omega
    _ ≤ 2 ^ 52 * 2 ^ largeExponent :=
      Nat.mul_le_mul_left _ (Nat.pow_le_pow_right Nat.two_pos less)
    _ ≤ large * 2 ^ largeExponent := Nat.mul_le_mul_right _ normal

/-- The magnitude of a finite double in units of the least one. -/
def Parts.scaled (parts : Parts) : Nat :=
  parts.significand * 2 ^ (parts.exponent - leastExponent).toNat

theorem Parts.units_eq (parts : Parts) : parts.units = signed parts.negative parts.scaled := by
  simp [Parts.units, signed, scaled, twoTo_eq]

theorem Parts.Canonical.scaled_lt_iff {left right : Parts} (canonical : left.Canonical)
    (canonical' : right.Canonical) :
    left.scaled < right.scaled ↔ left.magnitude < right.magnitude := by
  obtain ⟨small, least, greatest, normal⟩ := canonical
  obtain ⟨small', least', greatest', normal'⟩ := canonical'
  unfold Parts.scaled Parts.magnitude
  rcases lt_trichotomy left.exponent right.exponent with less | same | more
  · have large := normal' (by omega)
    refine iff_of_true (scaled_lt_scaled small large (by omega)) (by omega)
  · rw [same, Nat.mul_lt_mul_right (Nat.two_pow_pos _)]
    omega
  · have large := normal (by omega)
    have reverse : right.significand * 2 ^ (right.exponent - leastExponent).toNat <
        left.significand * 2 ^ (left.exponent - leastExponent).toNat :=
      scaled_lt_scaled small' large (by omega)
    exact iff_of_false (Nat.lt_asymm reverse) (by omega)

theorem signed_lt_signed_iff {magnitude magnitude' scaled scaled' : Nat}
    (forth : magnitude < magnitude' ↔ scaled < scaled')
    (back : magnitude' < magnitude ↔ scaled' < scaled)
    (none : magnitude = 0 ↔ scaled = 0) (none' : magnitude' = 0 ↔ scaled' = 0)
    (negative negative' : Bool) :
    signed negative magnitude < signed negative' magnitude' ↔
      signed negative scaled < signed negative' scaled' := by
  unfold signed
  cases negative <;> cases negative' <;> simp only [Bool.false_eq_true, if_true, if_false] <;> omega

theorem Parts.Canonical.scaled_eq_zero_iff {parts : Parts} (canonical : parts.Canonical) :
    parts.scaled = 0 ↔ parts.magnitude = 0 := by
  obtain ⟨-, least, -, normal⟩ := canonical
  unfold Parts.scaled Parts.magnitude
  rw [Nat.mul_eq_zero, or_iff_left (Nat.two_pow_pos _).ne']
  constructor
  · intro zero
    have lowest : ¬ leastExponent < parts.exponent := by omega
    omega
  · omega

/-- Finite doubles are ordered by value as they are by rank. -/
theorem Parts.Canonical.units_lt_iff {left right : Parts} (canonical : left.Canonical)
    (canonical' : right.Canonical) :
    left.units < right.units ↔ (View.finite left).rank < (View.finite right).rank := by
  rw [Parts.units_eq, Parts.units_eq]
  exact signed_lt_signed_iff (canonical.scaled_lt_iff canonical')
    (canonical'.scaled_lt_iff canonical) canonical.scaled_eq_zero_iff
    canonical'.scaled_eq_zero_iff left.negative right.negative

theorem Parts.Canonical.units_le_iff {left right : Parts} (canonical : left.Canonical)
    (canonical' : right.Canonical) :
    left.units ≤ right.units ↔ (View.finite left).rank ≤ (View.finite right).rank := by
  rw [← Int.not_lt, ← Int.not_lt, canonical'.units_lt_iff canonical]

theorem exists_view_of_isFinite {x : Float} (finite : isFinite x = true) :
    ∃ parts, view x = .finite parts := by
  unfold isFinite at finite
  cases shape : view x with
  | nan | infinite => simp [shape] at finite
  | finite parts => exact ⟨parts, rfl⟩

theorem exists_units_of_isFinite {x : Float} (finite : isFinite x = true) :
    ∃ units, units? x = some units := by
  obtain ⟨parts, shape⟩ := exists_view_of_isFinite finite
  exact ⟨parts.units, by rw [units?, shape]⟩

/-- Finite doubles are ordered as their exact values are. -/
theorem le_iff_units_le {x y : Float} {units units' : Int} (read : units? x = some units)
    (read' : units? y = some units') : x ≤ y ↔ units ≤ units' := by
  have canonical := canonical_view x
  have canonical' := canonical_view y
  unfold units? at read read'
  rw [le_iff_rank_le]
  cases shape : view x with
  | nan | infinite => simp [shape] at read
  | finite parts =>
      cases shape' : view y with
      | nan | infinite => simp [shape'] at read'
      | finite parts' =>
          rw [shape] at read canonical
          rw [shape'] at read' canonical'
          obtain rfl := Option.some.inj read
          obtain rfl := Option.some.inj read'
          rw [Parts.Canonical.units_le_iff canonical canonical']
          exact ⟨fun numbers => numbers.2.2, fun ordered => ⟨nofun, nofun, ordered⟩⟩

theorem view_ne_nan_of_units {x : Float} {units : Int} (read : units? x = some units) :
    view x ≠ .nan := by
  intro undefined
  rw [units?, undefined] at read
  cases read

theorem lt_iff_units_lt {x y : Float} {units units' : Int} (read : units? x = some units)
    (read' : units? y = some units') : x < y ↔ units < units' := by
  have reverse : ¬ y ≤ x ↔ ¬ units' ≤ units := not_congr (le_iff_units_le read' read)
  have number := view_ne_nan_of_units read
  have number' := view_ne_nan_of_units read'
  rw [le_iff_rank_le, and_iff_right number', and_iff_right number, Int.not_le, Int.not_le]
    at reverse
  rw [lt_iff_rank_lt, and_iff_right number, and_iff_right number', reverse]

theorem View.rank_between_infinities {parts : Parts} (canonical : parts.Canonical) :
    (View.infinite true).rank < (View.finite parts).rank ∧
      (View.finite parts).rank < (View.infinite false).rank := by
  have bound := canonical.magnitude_lt
  simp only [View.rank, signed, Bool.false_eq_true, if_true, if_false]
  constructor <;> split <;> omega

theorem isFinite_iff_rank {x : Float} :
    isFinite x = true ↔ view x ≠ .nan ∧ (View.infinite true).rank < (view x).rank ∧
      (view x).rank < (View.infinite false).rank := by
  have canonical := canonical_view x
  unfold isFinite
  cases shape : view x with
  | nan => exact iff_of_false Bool.false_ne_true fun numbers => numbers.1 rfl
  | infinite negative =>
      refine iff_of_false Bool.false_ne_true fun numbers => ?_
      cases negative with
      | true => exact Int.lt_irrefl _ numbers.2.1
      | false => exact Int.lt_irrefl _ numbers.2.2
  | finite parts =>
      rw [shape] at canonical
      exact iff_of_true rfl ⟨nofun, View.rank_between_infinities canonical⟩

/-- What lies between finite doubles is finite. -/
theorem isFinite_of_between {low x high : Float} (finite : isFinite low = true)
    (finite' : isFinite high = true) (above : low ≤ x) (below : x ≤ high) : isFinite x = true := by
  rw [le_iff_rank_le] at above below
  exact isFinite_iff_rank.mpr ⟨above.2.1,
    Int.lt_of_lt_of_le (isFinite_iff_rank.mp finite).2.1 above.2.2,
    Int.lt_of_le_of_lt below.2.2 (isFinite_iff_rank.mp finite').2.2⟩

/-- Finite doubles are below infinity. -/
theorem lt_infinity {x : Float} (finite : isFinite x = true) : x < infinity false := by
  have top : view (infinity false) = .infinite false := by decide
  obtain ⟨number, -, below⟩ := isFinite_iff_rank.mp finite
  rw [lt_iff_rank_lt, top]
  exact ⟨number, nofun, below⟩

/-- Nothing is above infinity, so what is below some double and not below a finite one is
finite. -/
theorem isFinite_of_le_of_lt {low x high : Float} (finite : isFinite low = true) (above : low ≤ x)
    (below : x < high) : isFinite x = true := by
  rw [le_iff_rank_le] at above
  rw [lt_iff_rank_lt] at below
  have canonical := canonical_view high
  have most : (view high).rank ≤ (View.infinite false).rank := by
    cases shape : view high with
    | nan => decide
    | infinite negative => cases negative <;> decide
    | finite parts =>
        rw [shape] at canonical
        exact Int.le_of_lt (View.rank_between_infinities canonical).2
  exact isFinite_iff_rank.mpr ⟨above.2.1,
    Int.lt_of_lt_of_le (isFinite_iff_rank.mp finite).2.1 above.2.2,
    Int.lt_of_lt_of_le below.2.2 most⟩

end Binary64

end Peephole
