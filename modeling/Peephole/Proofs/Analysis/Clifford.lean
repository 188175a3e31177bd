import Mathlib.Analysis.Real.Pi.Bounds
import Peephole.Analysis.Clifford
import Peephole.Proofs.Number.Nearest

/-!
# Quarter turns that are told from others

A rotation counts as a number of quarter turns if the ratio of its angle to a quarter turn is close
to an integer. Close is meant relative to the ratio, so the room around each integer grows with the
ratio (`isWhole_iff`), and from half a billion quarter turns on nothing is left between the rooms of
two neighbours (`isWhole_of_large`). Hence more turns may change the verdict. They never do just if
the ratio is within the tolerance of an integer (`forall_isWhole_add_iff`), and so it is for the
counts of circuits (`turns_keep_counts_iff`).

Ratios are real numbers here. The test for closeness is the one that is run on doubles, and doubles
are rounded to integers as the real numbers that they stand for.
-/

namespace Peephole

namespace Analysis

/-! ## Ratios -/

/-- Whether a ratio is close to its nearest integer, without rounding. -/
noncomputable def isWhole (ratio : ℝ) : Bool :=
  isClose abs (1 / 10 ^ 9) ratio (nearestEven ratio)

/-- Within the tolerance of an integer, whatever the magnitude. -/
def NearInteger (ratio : ℝ) : Prop :=
  ∃ whole : ℤ, |ratio - whole| ≤ 1 / 10 ^ 9

theorem isWhole_iff (ratio : ℝ) :
    isWhole ratio = true ↔
      |ratio - nearestEven ratio| ≤ 1 / 10 ^ 9 * max 1 (max |ratio| |(nearestEven ratio : ℝ)|) := by
  have positive : (0 : ℝ) ≤ 1 / 10 ^ 9 := by norm_num
  rw [isWhole, isClose, Bool.or_eq_true, Bool.or_eq_true, decide_eq_true_iff, decide_eq_true_iff,
    decide_eq_true_iff, abs_sub_comm, abs_mul, abs_mul, abs_of_nonneg positive,
    mul_max_of_nonneg _ _ positive, mul_max_of_nonneg _ _ positive, mul_one, le_max_iff,
    le_max_iff]
  tauto

/-- No integer is nearer than the nearest. -/
theorem nearInteger_iff (ratio : ℝ) :
    NearInteger ratio ↔ |ratio - nearestEven ratio| ≤ 1 / 10 ^ 9 := by
  refine ⟨fun ⟨whole, near⟩ => ?_, fun near => ⟨_, near⟩⟩
  have less : (1 : ℝ) / 10 ^ 9 < 1 / 2 := by norm_num
  rwa [nearestEven_eq (near.trans less.le) fun tied => absurd tied (near.trans_lt less).ne]

theorem NearInteger.add {ratio : ℝ} (near : NearInteger ratio) (turns : ℤ) :
    NearInteger (ratio + turns) := by
  obtain ⟨whole, near⟩ := near
  refine ⟨whole + turns, ?_⟩
  rwa [Int.cast_add, add_sub_add_right_eq_sub]

theorem isWhole_of_nearInteger {ratio : ℝ} (near : NearInteger ratio) : isWhole ratio = true := by
  rw [isWhole_iff]
  refine ((nearInteger_iff ratio).mp near).trans (le_mul_of_one_le_right ?_ (le_max_left _ _))
  norm_num

/-- Up to one quarter turn there is no more room around an integer than the tolerance. -/
theorem isWhole_iff_of_small {ratio : ℝ} (small : |ratio| ≤ 1) :
    isWhole ratio = true ↔ NearInteger ratio := by
  have whole : |(nearestEven ratio : ℝ)| ≤ 1 := by
    have near := abs_sub_nearestEven_le ratio
    rw [abs_le] at near small
    have least : (-2 : ℝ) < nearestEven ratio := by linarith
    have greatest : (nearestEven ratio : ℝ) < 2 := by linarith
    have least : -2 < nearestEven ratio := by exact_mod_cast least
    have greatest : nearestEven ratio < 2 := by exact_mod_cast greatest
    have bounded : |nearestEven ratio| ≤ 1 := by
      rw [abs_le]
      omega
    exact_mod_cast bounded
  rw [isWhole_iff, nearInteger_iff, max_eq_left (max_le small whole), mul_one]

/-- No ratio is further from its nearest integer than half, and this is room enough. -/
theorem isWhole_of_large {ratio : ℝ} (large : 5 * 10 ^ 8 ≤ |ratio|) : isWhole ratio = true := by
  rw [isWhole_iff]
  refine (abs_sub_nearestEven_le ratio).trans ?_
  calc (1 : ℝ) / 2 = 1 / 10 ^ 9 * (5 * 10 ^ 8) := by norm_num
    _ ≤ 1 / 10 ^ 9 * max 1 (max |ratio| |(nearestEven ratio : ℝ)|) := by
        refine mul_le_mul_of_nonneg_left ?_ (by norm_num)
        exact large.trans ((le_max_left _ _).trans (le_max_right _ _))

/-! ## Turns -/

/-- Any ratio is turned near zero. -/
theorem exists_small_turn (ratio : ℝ) : ∃ turns : ℤ, |ratio + turns| ≤ 1 := by
  refine ⟨-nearestEven ratio, ?_⟩
  rw [Int.cast_neg, ← sub_eq_add_neg]
  exact (abs_sub_nearestEven_le ratio).trans (by norm_num)

/-- Any ratio is turned as far as one likes. -/
theorem exists_large_turn (ratio : ℝ) : ∃ turns : ℤ, 5 * 10 ^ 8 ≤ |ratio + turns| := by
  refine ⟨5 * 10 ^ 8 - ⌊ratio⌋, ?_⟩
  have below := Int.floor_le ratio
  rw [le_abs]
  push_cast
  left
  linarith

theorem nearInteger_add_iff (ratio : ℝ) (turns : ℤ) :
    NearInteger (ratio + turns) ↔ NearInteger ratio := by
  refine ⟨fun near => ?_, fun near => near.add turns⟩
  have back := near.add (-turns)
  rwa [Int.cast_neg, add_neg_cancel_right] at back

/-- More turns never change the verdict on a ratio just if it is near an integer. -/
theorem forall_isWhole_add_iff (ratio : ℝ) :
    (∀ turns : ℤ, isWhole (ratio + turns) = isWhole ratio) ↔ NearInteger ratio := by
  constructor
  · intro same
    obtain ⟨turns, large⟩ := exists_large_turn ratio
    obtain ⟨turns', small⟩ := exists_small_turn ratio
    have whole : isWhole (ratio + turns') = true :=
      (same turns').trans ((same turns).symm.trans (isWhole_of_large large))
    exact (nearInteger_add_iff ratio turns').mp ((isWhole_iff_of_small small).mp whole)
  · intro near turns
    rw [isWhole_of_nearInteger near, isWhole_of_nearInteger (near.add turns)]

/-! ## Circuits -/

/-- Clifford gates are counted by exact ratios to a quarter turn. -/
noncomputable def exactCounts (quarter : ℝ) (gates : List (Gate ℝ)) : Except Fault CliffordCounts :=
  countClifford (fun angle => .ok (isWhole (angle / quarter))) gates

/-- The same gate, or the same rotation with more quarter turns. -/
inductive Turned (quarter : ℝ) : Gate ℝ → Gate ℝ → Prop
  | same (gate : Gate ℝ) : Turned quarter gate gate
  | rotation (axis : Axis) (qubit : Int) (angle : ℝ) (turns : ℤ) (annotations : Fields) :
    Turned quarter ⟨.rotation axis qubit angle, annotations⟩
      ⟨.rotation axis qubit (angle + turns * quarter), annotations⟩

/-- What the exact test says of a gate. -/
noncomputable def verdict (quarter : ℝ) (gate : Gate ℝ) : Option Bool :=
  match gate.operation with
  | .fixed kind _ => some (isCliffordKind kind)
  | .rotation _ _ angle => some (isWhole (angle / quarter))
  | .pair _ _ _ _ => some true
  | .measure _ _ => none

theorem verdict_rotation (quarter : ℝ) (axis : Axis) (qubit : Int) (angle : ℝ)
    (annotations : Fields) :
    verdict quarter ⟨.rotation axis qubit angle, annotations⟩ = some (isWhole (angle / quarter)) :=
  rfl

theorem exactCounts_eq (quarter : ℝ) (gates : List (Gate ℝ)) :
    exactCounts quarter gates =
      .ok ⟨(gates.map (verdict quarter)).count (some true),
        (gates.map (verdict quarter)).count (some false)⟩ := by
  have each : ∀ gate : Gate ℝ,
      isClifford? (fun angle => .ok (isWhole (angle / quarter))) gate.operation =
        (.ok (verdict quarter gate) : Except Fault (Option Bool)) := by
    rintro ⟨op, annotations⟩
    cases op <;> rfl
  have all : gates.mapM (fun gate =>
      isClifford? (fun angle => .ok (isWhole (angle / quarter))) gate.operation) =
        (.ok (gates.map (verdict quarter)) : Except Fault (List (Option Bool))) := by
    induction gates with
    | nil => rfl
    | cons gate gates ih =>
        rw [List.mapM_cons, each, ih]
        rfl
  rw [exactCounts, countClifford, all]
  rfl

/-- What turns are added to a rotation, its ratio has in addition. -/
theorem verdict_turned {quarter : ℝ} (nonzero : quarter ≠ 0) (axis : Axis) (qubit : Int)
    (angle : ℝ) (turns : ℤ) (annotations : Fields) :
    verdict quarter ⟨.rotation axis qubit (angle + turns * quarter), annotations⟩ =
      some (isWhole (angle / quarter + turns)) := by
  rw [verdict_rotation, add_div, mul_div_cancel_right₀ _ nonzero]

/-- Gates with the same counts in the same place of a circuit are Clifford gates both, or none. -/
theorem verdict_of_counts {quarter : ℝ} {before after : List (Gate ℝ)} {gate gate' : Gate ℝ}
    (same : exactCounts quarter (before ++ gate :: after) =
      exactCounts quarter (before ++ gate' :: after))
    (clifford : verdict quarter gate = some true) :
    verdict quarter gate' ≠ some false := by
  intro other
  rw [exactCounts_eq, exactCounts_eq] at same
  have others := congrArg CliffordCounts.nonClifford (Except.ok.inj same)
  simp only [List.map_append, List.map_cons, List.count_append, List.count_cons, clifford,
    other] at others
  simp at others

/-- More turns never change the counts of a circuit just if the ratio of every rotation is near an
integer. -/
theorem turns_keep_counts_iff {quarter : ℝ} (nonzero : quarter ≠ 0) (gates : List (Gate ℝ)) :
    (∀ gates', List.Forall₂ (Turned quarter) gates gates' →
      exactCounts quarter gates' = exactCounts quarter gates) ↔
      ∀ gate ∈ gates, ∀ angle ∈ gate.operation.params, NearInteger (angle / quarter) := by
  constructor
  · rintro same ⟨op, annotations⟩ member angle isAngle
    cases op with
    | fixed | pair | measure => cases isAngle
    | rotation axis qubit angle =>
        obtain rfl := List.mem_singleton.mp isAngle
        obtain ⟨before, after, rfl⟩ := List.append_of_mem member
        have turned (turns : ℤ) := same
          (before ++ ⟨.rotation axis qubit (angle + turns * quarter), annotations⟩ :: after)
          (List.rel_append (List.forall₂_same.mpr fun gate _ => .same gate)
            (.cons (.rotation axis qubit angle turns annotations)
              (List.forall₂_same.mpr fun gate _ => .same gate)))
        -- Far out the rotation passes, so it passes near zero too, where only the tolerance counts.
        obtain ⟨far, large⟩ := exists_large_turn (angle / quarter)
        obtain ⟨near, small⟩ := exists_small_turn (angle / quarter)
        have clifford := (verdict_turned nonzero axis qubit angle far annotations).trans
          (congrArg some (isWhole_of_large large))
        have told := verdict_of_counts ((turned far).trans (turned near).symm) clifford
        rw [verdict_turned nonzero, ne_eq, Option.some_inj, Bool.not_eq_false] at told
        exact (nearInteger_add_iff _ near).mp ((isWhole_iff_of_small small).mp told)
  · intro near gates' turned
    have verdicts : gates'.map (verdict quarter) = gates.map (verdict quarter) := by
      induction turned with
      | nil => rfl
      | cons step _ ih =>
          obtain ⟨first, rest⟩ := List.forall_mem_cons.mp near
          rw [List.map_cons, List.map_cons, ih rest]
          congr 1
          cases step with
          | same => rfl
          | rotation axis qubit angle turns annotations =>
              have near := first angle (.head _)
              rw [verdict_turned nonzero, isWhole_of_nearInteger (near.add turns),
                verdict_rotation, isWhole_of_nearInteger near]
    rw [exactCounts_eq, exactCounts_eq, verdicts]

/-- The test goes by closeness relative to the ratio. It says what the tolerance alone would say up
to one quarter turn, while far out it lets every ratio pass; so more turns leave the verdict on a
ratio, and the counts of a circuit, as they are just if the ratios are within the tolerance of
integers. The nearest integer is the one to which doubles are rounded. -/
theorem clifford_test_ignores_turns_iff (ratio : ℝ) {quarter : ℝ} (nonzero : quarter ≠ 0)
    (gates : List (Gate ℝ)) :
    (isWhole ratio = true ↔ |ratio - nearestEven ratio| ≤
      1 / 10 ^ 9 * max 1 (max |ratio| |(nearestEven ratio : ℝ)|)) ∧
    (|ratio| ≤ 1 → (isWhole ratio = true ↔ NearInteger ratio)) ∧
    (5 * 10 ^ 8 ≤ |ratio| → isWhole ratio = true) ∧
    ((∀ turns : ℤ, isWhole (ratio + turns) = isWhole ratio) ↔ NearInteger ratio) ∧
    ((∀ gates', List.Forall₂ (Turned quarter) gates gates' →
      exactCounts quarter gates' = exactCounts quarter gates) ↔
      ∀ gate ∈ gates, ∀ angle ∈ gate.operation.params, NearInteger (angle / quarter)) ∧
    ∀ x whole, Binary64.nearestInt? x = some whole → whole = nearestEven (Binary64.toReal x) :=
  ⟨isWhole_iff ratio, isWhole_iff_of_small, isWhole_of_large, forall_isWhole_add_iff ratio,
    turns_keep_counts_iff nonzero gates, fun _ _ => Binary64.nearestInt?_eq⟩

/-- Three quarter turns and seven more. -/
theorem ten_quarter_turns_are_clifford :
    exactCounts (Real.pi / 2)
      [⟨.rotation .z 0 (3 * (Real.pi / 2) + ((7 : ℤ) : ℝ) * (Real.pi / 2)), []⟩] = .ok ⟨1, 0⟩ := by
  have nonzero : Real.pi / 2 ≠ 0 := (half_pos Real.pi_pos).ne'
  have ratio : 3 * (Real.pi / 2) / (Real.pi / 2) = 3 := mul_div_cancel_right₀ 3 nonzero
  have whole : NearInteger (3 * (Real.pi / 2) / (Real.pi / 2)) := ⟨3, by rw [ratio]; norm_num⟩
  obtain ⟨-, -, -, -, counts, -⟩ := clifford_test_ignores_turns_iff 3 nonzero
    [⟨.rotation .z 0 (3 * (Real.pi / 2)), []⟩]
  rw [counts.mpr ?_ _ (.cons (.rotation _ _ _ 7 _) .nil), exactCounts_eq]
  · simp only [List.map_singleton, verdict_rotation, isWhole_of_nearInteger whole]
    rfl
  · rintro gate listed angle isAngle
    obtain rfl := List.mem_singleton.mp listed
    obtain rfl := List.mem_singleton.mp isAngle
    exact whole

/-- The ratio of a billion lies between two integers. -/
theorem billion_between :
    636619772.3 < 10 ^ 9 / (Real.pi / 2) ∧ 10 ^ 9 / (Real.pi / 2) < 636619772.4 := by
  have quarter : 0 < Real.pi / 2 := half_pos Real.pi_pos
  rw [lt_div_iff₀ quarter, div_lt_iff₀ quarter]
  constructor
  · linarith [Real.pi_lt_d20]
  · linarith [Real.pi_gt_d20]

/-- Three tenths of a quarter turn are told from an integer, but not once a billion turns are
added. A rotation by a billion counts as quarter turns in a run, though no integer is near. -/
theorem billion_passes_for_turns :
    isWhole (3 / 10) = false ∧ isWhole (3 / 10 + ((10 ^ 9 : ℤ) : ℝ)) = true ∧
      ¬ NearInteger (10 ^ 9 / (Real.pi / 2)) ∧
      countClifford isQuarterTurns [⟨.rotation .z 0 1e9, []⟩] = .ok ⟨1, 0⟩ := by
  refine ⟨?_, isWhole_of_large ?_, ?_, rfl⟩
  · have nearest : nearestEven (3 / 10) = 0 := by
      refine nearestEven_eq ?_ fun _ => Even.zero
      norm_num [abs_le]
    rw [← Bool.not_eq_true, isWhole_iff_of_small (by norm_num [abs_le]), nearInteger_iff, nearest]
    norm_num [abs_le]
  · rw [le_abs]
    left
    norm_num
  · rintro ⟨whole, near⟩
    obtain ⟨below, above⟩ := billion_between
    obtain ⟨least, greatest⟩ := abs_le.mp near
    have first : ((636619772 : ℤ) : ℝ) < whole := by
      push_cast
      linarith
    have second : (whole : ℝ) < ((636619773 : ℤ) : ℝ) := by
      push_cast
      linarith
    have first := Int.cast_lt.mp first
    have second := Int.cast_lt.mp second
    omega

end Analysis

end Peephole
