import Peephole.Proofs.Number.Order

/-!
# Rounding keeps order

A natural number of units is rounded to a double by its magnitude field: how far it has to be
shifted to fit the significand, and the significand that is left (`nearest_units`). Both
count into one number that never falls as the units grow, a significand that rounds up carrying
into the exponent, so rounding keeps order (`ofUnits_le_ofUnits`). Exactly formed sums are rounded
once, hence they keep order as well, and the order of their terms does not show (`sum_eq_of_perm`).
-/

namespace Peephole

/-! ## Rounded quotients -/

theorem div_le_roundQuotient (numerator denominator : Nat) :
    numerator / denominator ≤ roundQuotient numerator denominator := by
  unfold roundQuotient
  dsimp only
  split
  · exact Nat.le_refl _
  · split <;> omega

theorem roundQuotient_le_div_add_one (numerator denominator : Nat) :
    roundQuotient numerator denominator ≤ numerator / denominator + 1 := by
  unfold roundQuotient
  dsimp only
  split
  · exact Nat.le_succ _
  · split <;> omega

theorem roundQuotient_le_roundQuotient {numerator numerator' : Nat}
    (le : numerator ≤ numerator') (denominator : Nat) :
    roundQuotient numerator denominator ≤ roundQuotient numerator' denominator := by
  rcases Nat.lt_or_ge (numerator / denominator) (numerator' / denominator) with less | same
  · exact (roundQuotient_le_div_add_one _ _).trans
      (Nat.le_trans less (div_le_roundQuotient _ _))
  · have quotients : numerator / denominator = numerator' / denominator :=
      Nat.le_antisymm (Nat.div_le_div_right le) same
    have split := Nat.div_add_mod numerator denominator
    have split' := Nat.div_add_mod numerator' denominator
    rw [← quotients] at split'
    have remainders : numerator % denominator ≤ numerator' % denominator := by omega
    unfold roundQuotient
    rw [← quotients]
    dsimp only
    split_ifs <;> omega

theorem roundQuotient_mul_self {denominator : Nat} (positive : 0 < denominator) (quotient : Nat) :
    roundQuotient (quotient * denominator) denominator = quotient := by
  simp [roundQuotient, Nat.mul_div_cancel _ positive, positive]

theorem roundQuotient_mul_right (numerator denominator : Nat) {scale : Nat}
    (positive : 0 < scale) :
    roundQuotient (numerator * scale) (denominator * scale) =
      roundQuotient numerator denominator := by
  unfold roundQuotient
  rw [Nat.mul_div_mul_right _ _ positive, Nat.mul_mod_mul_right, ← Nat.mul_assoc]
  simp only [Nat.mul_lt_mul_right positive]

namespace Binary64

open Float.Model

/-! ## Units as magnitudes -/

/-- How far so many units have to be shifted to fit a significand. -/
def shiftOf (units : Nat) : Nat :=
  units.log2 - 52

/-- The magnitude field nearest to so many units. -/
def magnitudeOf (units : Nat) : Nat :=
  shiftOf units * 2 ^ 52 + roundQuotient units (2 ^ shiftOf units)

theorem units_lt_of_shiftOf (units : Nat) : units < 2 ^ 53 * 2 ^ shiftOf units :=
  calc units
    _ < 2 ^ (units.log2 + 1) := Nat.lt_log2_self
    _ ≤ 2 ^ (53 + shiftOf units) := Nat.pow_le_pow_right Nat.two_pos (by unfold shiftOf; omega)
    _ = 2 ^ 53 * 2 ^ shiftOf units := Nat.pow_add 2 53 _

theorem le_units_of_shiftOf {units : Nat} (shifted : 0 < shiftOf units) :
    2 ^ 52 * 2 ^ shiftOf units ≤ units := by
  unfold shiftOf at *
  have nonzero : units ≠ 0 := by
    rintro rfl
    simp at shifted
  rw [← Nat.pow_add, Nat.add_sub_cancel' (by omega)]
  exact Nat.log2_self_le nonzero

theorem shiftOf_le_shiftOf {units units' : Nat} (le : units ≤ units') :
    shiftOf units ≤ shiftOf units' := by
  unfold shiftOf
  have logs : units.log2 ≤ units'.log2 := by
    rcases Nat.eq_zero_or_pos units with rfl | positive
    · exact Nat.zero_le _
    · rw [Nat.le_log2 (by omega)]
      exact (Nat.log2_self_le (by omega)).trans le
  omega

/-- A significand that rounds up to the next power of two carries into the exponent. -/
theorem magnitudeOf_le (units : Nat) : magnitudeOf units ≤ (shiftOf units + 2) * 2 ^ 52 := by
  have rounded := roundQuotient_le_roundQuotient (units_lt_of_shiftOf units).le
    (2 ^ shiftOf units)
  rw [roundQuotient_mul_self (Nat.two_pow_pos _)] at rounded
  unfold magnitudeOf
  omega

theorem le_magnitudeOf {units : Nat} (shifted : 0 < shiftOf units) :
    (shiftOf units + 1) * 2 ^ 52 ≤ magnitudeOf units := by
  have rounded := roundQuotient_le_roundQuotient (le_units_of_shiftOf shifted)
    (2 ^ shiftOf units)
  rw [roundQuotient_mul_self (Nat.two_pow_pos _)] at rounded
  unfold magnitudeOf
  omega

theorem magnitudeOf_le_magnitudeOf {units units' : Nat} (le : units ≤ units') :
    magnitudeOf units ≤ magnitudeOf units' := by
  rcases Nat.lt_or_eq_of_le (shiftOf_le_shiftOf le) with less | same
  · have below := magnitudeOf_le units
    have shifted : 0 < shiftOf units' := by omega
    have above := le_magnitudeOf shifted
    have steps : (shiftOf units + 2) * 2 ^ 52 ≤ (shiftOf units' + 1) * 2 ^ 52 :=
      Nat.mul_le_mul_right _ (by omega)
    omega
  · unfold magnitudeOf
    rw [same]
    exact Nat.add_le_add_left (roundQuotient_le_roundQuotient le _) _

/-! ## Doubles of given magnitude -/

/-- The magnitude of infinity. -/
def topMagnitude : Nat :=
  2047 * 2 ^ 52

/-- Bits other than those of an undefined number are kept as they are. -/
theorem toBits_ofBits {bits : UInt64}
    (number : bits.toNat / 2 ^ 52 % 2 ^ 11 = 2047 → bits.toNat % 2 ^ 52 = 0) :
    (Float.ofBits bits).toBits = bits := by
  let word : BitVec Format.binary64.numBits := bits.toBitVec
  have defined : UnpackedFloat.isNaNBits word = false := by
    rw [UnpackedFloat.isNaNBits, decide_eq_false_iff_not, ← BitVec.toNat_inj, Ne,
      ← BitVec.toNat_inj, toNat_unpackExponent, toNat_unpackMantissa]
    exact fun undefined => undefined.2 (number undefined.1)
  have kept := UnpackedFloat.pack_unpack word (by decide)
  rw [defined] at kept
  exact congrArg UInt64.ofBitVec kept

theorem toBits_ofFields (negative : Bool) {magnitude : Nat} (number : magnitude ≤ topMagnitude) :
    (ofFields negative magnitude).toBits.toNat =
      (if negative then 2 ^ 63 else 0) + magnitude := by
  unfold topMagnitude at number
  have read : (UInt64.ofNat ((if negative then twoTo 63 else 0) + magnitude)).toNat =
      (if negative then 2 ^ 63 else 0) + magnitude := by
    rw [twoTo_eq, UInt64.toNat_ofNat']
    split <;> omega
  unfold ofFields
  rw [toBits_ofBits, read]
  rw [read]
  split <;> omega

/-- The fields that were written are the fields that are read. -/
theorem view_ofFields_eq (negative : Bool) {magnitude : Nat} (number : magnitude ≤ topMagnitude) :
    view (ofFields negative magnitude) =
      if magnitude = topMagnitude then .infinite negative
      else if magnitude / 2 ^ 52 = 0 then .finite ⟨negative, magnitude % 2 ^ 52, leastExponent⟩
      else .finite ⟨negative, 2 ^ 52 + magnitude % 2 ^ 52, (magnitude / 2 ^ 52 : Nat) - 1075⟩ := by
  have bits := toBits_ofFields negative number
  unfold topMagnitude at number ⊢
  have sign : ((ofFields negative magnitude).toBits.toNat / 2 ^ 63 == 1) = negative := by
    rw [bits]
    cases negative
    · refine beq_eq_false_iff_ne.mpr ?_
      rw [if_neg Bool.false_ne_true]
      omega
    · refine beq_iff_eq.mpr ?_
      rw [if_pos rfl]
      omega
  have biased : (ofFields negative magnitude).toBits.toNat / 2 ^ 52 % 2 ^ 11 =
      magnitude / 2 ^ 52 := by
    rw [bits]
    split <;> omega
  have fraction : (ofFields negative magnitude).toBits.toNat % 2 ^ 52 = magnitude % 2 ^ 52 := by
    rw [bits]
    split <;> omega
  simp only [view, twoTo_eq, beq_iff_eq, sign, biased, fraction]
  by_cases top : magnitude = 2047 * 2 ^ 52
  · rw [if_pos top, if_pos (by omega), if_pos (by omega)]
  · rw [if_neg top, if_neg (by omega)]

theorem view_ofFields (negative : Bool) {magnitude : Nat} (number : magnitude ≤ topMagnitude) :
    view (ofFields negative magnitude) ≠ .nan ∧
      (view (ofFields negative magnitude)).rank = signed negative magnitude := by
  rw [view_ofFields_eq negative number]
  split
  · rename_i top
    subst top
    exact ⟨fun same => View.noConfusion same, rfl⟩
  · split
    · rename_i least
      refine ⟨fun same => View.noConfusion same, congrArg (signed negative) ?_⟩
      unfold Parts.magnitude
      dsimp only
      omega
    · rename_i normal
      refine ⟨fun same => View.noConfusion same, congrArg (signed negative) ?_⟩
      unfold Parts.magnitude leastExponent
      dsimp only
      omega

/-! ## Rounding -/

theorem binaryOrder_twoTo {units : Nat} (nonzero : units ≠ 0) (exponent : Nat) :
    binaryOrder units (twoTo exponent) = (units.log2 : Int) - exponent := by
  have order := Nat.log2_self_le nonzero
  unfold binaryOrder
  rw [twoTo_eq, Nat.log2_two_pow]
  dsimp only
  split
  · rename_i above
    have raised : 2 ^ exponent * twoTo ((units.log2 : Int) - exponent).toNat = 2 ^ units.log2 := by
      rw [twoTo_eq, ← Nat.pow_add]
      congr 1
      omega
    rw [raised, if_pos order]
  · rename_i below
    have lowered : 2 ^ exponent ≤ units * twoTo (-((units.log2 : Int) - exponent)).toNat := by
      calc 2 ^ exponent
        _ = 2 ^ units.log2 * twoTo (-((units.log2 : Int) - exponent)).toNat := by
            rw [twoTo_eq, ← Nat.pow_add]
            congr 1
            omega
        _ ≤ units * twoTo (-((units.log2 : Int) - exponent)).toNat :=
            Nat.mul_le_mul_right _ order
    rw [if_pos lowered]

/-- The significand of the double nearest to so many units of `1 / 2 ^ scale`. -/
theorem roundQuotient_shifted (units scale shift : Nat) :
    (if 0 ≤ (shift : Int) - scale then
        roundQuotient units (twoTo scale * twoTo ((shift : Int) - scale).toNat)
      else roundQuotient (units * twoTo (-((shift : Int) - scale)).toNat) (twoTo scale)) =
      roundQuotient units (2 ^ shift) := by
  simp only [twoTo_eq]
  split
  · rename_i above
    rw [← Nat.pow_add]
    congr 2
    omega
  · rename_i below
    have whole : 2 ^ scale = 2 ^ shift * 2 ^ (-((shift : Int) - scale)).toNat := by
      rw [← Nat.pow_add]
      congr 1
      omega
    rw [whole, roundQuotient_mul_right _ _ (Nat.two_pow_pos _)]

theorem nearest_units (negative : Bool) (units : Nat) :
    nearest negative units (twoTo (-leastExponent).toNat) =
      ofFields negative (min (magnitudeOf units) topMagnitude) := by
  unfold nearest
  by_cases zero : units = 0
  · subst zero
    rfl
  · have exponent : max (binaryOrder units (twoTo (-leastExponent).toNat) - 52) leastExponent =
        (shiftOf units : Int) - (-leastExponent).toNat := by
      rw [binaryOrder_twoTo zero]
      unfold shiftOf leastExponent
      omega
    have shift : ((shiftOf units : Int) - (-leastExponent).toNat - leastExponent).toNat =
        shiftOf units := by
      unfold leastExponent
      omega
    rw [if_neg (by simpa using zero)]
    dsimp only
    rw [exponent, shift, roundQuotient_shifted, twoTo_eq]
    change (if topMagnitude ≤ magnitudeOf units then ofFields negative topMagnitude
      else ofFields negative (magnitudeOf units)) = _
    split
    · rename_i beyond
      rw [Nat.min_eq_right beyond]
    · rw [Nat.min_eq_left (by omega)]

theorem ofUnits_eq (units : Int) :
    ofUnits units = ofFields (units < 0) (min (magnitudeOf units.natAbs) topMagnitude) :=
  nearest_units (units < 0) units.natAbs

/-- Rounding keeps order. -/
theorem ofUnits_le_ofUnits {units units' : Int} (le : units ≤ units') :
    ofUnits units ≤ ofUnits units' := by
  obtain ⟨number, rank⟩ := view_ofFields (units < 0) (Nat.min_le_right (magnitudeOf units.natAbs)
    topMagnitude)
  obtain ⟨number', rank'⟩ := view_ofFields (units' < 0)
    (Nat.min_le_right (magnitudeOf units'.natAbs) topMagnitude)
  rw [ofUnits_eq, ofUnits_eq, le_iff_rank_le, rank, rank']
  refine ⟨number, number', ?_⟩
  unfold signed
  by_cases negative : units < 0
  · by_cases negative' : units' < 0
    · have order : magnitudeOf units'.natAbs ≤ magnitudeOf units.natAbs :=
        magnitudeOf_le_magnitudeOf (by omega)
      simp only [negative, negative', decide_true, if_true]
      omega
    · simp only [negative, negative', decide_true, decide_false, if_true, Bool.false_eq_true,
        if_false]
      omega
  · have negative' : ¬ units' < 0 := by omega
    have order : magnitudeOf units.natAbs ≤ magnitudeOf units'.natAbs :=
      magnitudeOf_le_magnitudeOf (by omega)
    simp only [negative, negative', decide_false, Bool.false_eq_true, if_false]
    omega

/-- A sum of finite terms is the exact sum rounded once. -/
theorem sum_eq_ofUnits {terms : List Float} {units : List Int}
    (finite : terms.mapM units? = some units) : sum terms = ofUnits units.sum := by
  rw [sum, finite]
  rfl

theorem mapM_eq_some_iff {β γ : Type} {valueOf : β → Option γ} {items : List β} {values : List γ} :
    items.mapM valueOf = some values ↔
      (∀ item ∈ items, (valueOf item).isSome = true) ∧ items.filterMap valueOf = values := by
  induction items generalizing values with
  | nil => simp
  | cons item items ih =>
      cases known : valueOf item with
      | none => simp [known]
      | some value =>
          simp only [List.mapM_cons, known, Option.bind_eq_bind, Option.bind_some,
            Option.bind_eq_some_iff, ih, List.filterMap_cons, List.forall_mem_cons,
            Option.isSome_some, true_and, Option.pure_def, Option.some_inj]
          constructor
          · rintro ⟨_, ⟨all, rfl⟩, rfl⟩
            exact ⟨all, rfl⟩
          · rintro ⟨all, rfl⟩
            exact ⟨_, ⟨all, rfl⟩, rfl⟩

theorem mapM_eq_none_of_not {β γ : Type} {valueOf : β → Option γ} {items : List β}
    (missing : ¬ ∀ item ∈ items, (valueOf item).isSome = true) : items.mapM valueOf = none :=
  Option.eq_none_iff_forall_ne_some.mpr fun _ read => missing (mapM_eq_some_iff.mp read).1

/-- Terms have the same sum in every order, infinite terms and undefined ones included. -/
theorem sum_eq_of_perm {terms terms' : List Float} (perm : terms.Perm terms') :
    sum terms = sum terms' := by
  have alike : (∀ term ∈ terms, (units? term).isSome = true) ↔
      ∀ term ∈ terms', (units? term).isSome = true :=
    forall_congr' fun _ => imp_congr_left perm.mem_iff
  by_cases finite : ∀ term ∈ terms, (units? term).isSome = true
  · rw [sum_eq_ofUnits (mapM_eq_some_iff.mpr ⟨finite, rfl⟩),
      sum_eq_ofUnits (mapM_eq_some_iff.mpr ⟨alike.mp finite, rfl⟩),
      (perm.filterMap units?).sum_eq]
  · unfold sum
    rw [mapM_eq_none_of_not finite, mapM_eq_none_of_not (mt alike.mpr finite)]
    simp only [(perm.map view).contains_eq]

theorem ofUnits_zero : ofUnits 0 = 0.0 := by
  decide

/-- Multiples of what is not negative, rounded once, keep order. -/
theorem ofUnits_mul_le {units : Int} (nonnegative : 0 ≤ units) {count count' : Nat}
    (le : count ≤ count') : ofUnits (units * count) ≤ ofUnits (units * count') :=
  ofUnits_le_ofUnits (Int.mul_le_mul_of_nonneg_left (Int.ofNat_le.mpr le) nonnegative)

end Binary64

end Peephole
