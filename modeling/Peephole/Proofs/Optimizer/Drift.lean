import Mathlib.Algebra.BigOperators.Group.List.Basic
import Mathlib.Algebra.Order.Field.Rat
import Mathlib.Tactic.Linarith
import Mathlib.Tactic.Ring
import Peephole.Proofs.Optimizer.Meaning

/-!
# How far the passes turn a qubit off

Angles are added without rounding here, as rational numbers. A pass gives up less than the tolerance
when it drops a rotation or a pair of them, and nothing when it adds two rotations up. So the sum of
the angles about one axis on one qubit drifts by at most the tolerance for each rotation there that
is gone (`Drift`). As passes are chains of local rewritings, this is seen from one rewriting
(`drift_of_rewrites`) and adds up along chains of them (`Drift.trans`), so it holds for any passes
and any number of rounds (`Optimizer.angle_drift_bounded`).
-/

namespace Peephole

/-- Angles without rounding. A quarter turn is the double that stands for it elsewhere. -/
instance : Angle ℚ where
  isBelow tolerance angle := decide (|angle| < tolerance)
  quarterTurn := 884279719003555 / 562949953421312
  text := toString

/-! ## Drift -/

/-- From one list of angles to another that is not longer the sum drifts by at most the tolerance
for each angle that is gone. -/
structure Drift (tolerance : ℚ) (angles angles' : List ℚ) : Prop where
  fewer : angles'.length ≤ angles.length
  bounded : |angles'.sum - angles.sum| ≤
    tolerance * ((angles.length : ℚ) - (angles'.length : ℚ))

namespace Drift

variable {tolerance : ℚ} {angles angles' angles'' : List ℚ}

theorem of_perm (perm : angles.Perm angles') : Drift tolerance angles angles' where
  fewer := perm.length_eq.ge
  bounded := by rw [perm.sum_eq, perm.length_eq, sub_self, sub_self, abs_zero, mul_zero]

theorem refl (angles : List ℚ) : Drift tolerance angles angles :=
  of_perm (.refl angles)

/-- Drifts add up, and so do the numbers of angles that are gone. -/
theorem trans (first : Drift tolerance angles angles')
    (second : Drift tolerance angles' angles'') : Drift tolerance angles angles'' where
  fewer := second.fewer.trans first.fewer
  bounded := calc
    |angles''.sum - angles.sum| ≤ |angles''.sum - angles'.sum| + |angles'.sum - angles.sum| :=
      abs_sub_le _ _ _
    _ ≤ tolerance * ((angles'.length : ℚ) - angles''.length) +
        tolerance * ((angles.length : ℚ) - angles'.length) :=
      add_le_add second.bounded first.bounded
    _ = tolerance * ((angles.length : ℚ) - angles''.length) := by ring

theorem append_left (before : List ℚ) (drift : Drift tolerance angles angles') :
    Drift tolerance (before ++ angles) (before ++ angles') where
  fewer := by
    rw [List.length_append, List.length_append]
    exact Nat.add_le_add_left drift.fewer _
  bounded := by
    simpa only [List.sum_append, List.length_append, Nat.cast_add, add_sub_add_left_eq_sub] using
      drift.bounded

theorem drop (angles : List ℚ) {angle : ℚ} (small : |angle| < tolerance) :
    Drift tolerance (angle :: angles) angles where
  fewer := Nat.le_succ _
  bounded := by
    have gone : angles.sum - (angle :: angles).sum = -angle := by
      rw [List.sum_cons]
      ring
    rw [gone, abs_neg, List.length_cons, Nat.cast_succ, add_sub_cancel_left, mul_one]
    exact small.le

/-- The bound allows for twice the tolerance, as two angles are gone. -/
theorem dropPair (angles : List ℚ) {angle angle' : ℚ} (small : |angle + angle'| < tolerance) :
    Drift tolerance (angle :: angle' :: angles) angles where
  fewer := (Nat.le_succ _).trans (Nat.le_succ _)
  bounded := by
    have gone : angles.sum - (angle :: angle' :: angles).sum = -(angle + angle') := by
      rw [List.sum_cons, List.sum_cons]
      ring
    have nonneg := (abs_nonneg _).trans small.le
    rw [gone, abs_neg, List.length_cons, List.length_cons]
    push_cast
    linarith

theorem add (nonneg : 0 ≤ tolerance) (angles : List ℚ) (angle angle' : ℚ) :
    Drift tolerance (angle :: angle' :: angles) ((angle + angle') :: angles) where
  fewer := Nat.le_succ _
  bounded := by
    have same : ((angle + angle') :: angles).sum = (angle :: angle' :: angles).sum := by
      rw [List.sum_cons, List.sum_cons, List.sum_cons, add_assoc]
    rw [same, sub_self, abs_zero, List.length_cons, List.length_cons, List.length_cons]
    push_cast
    linarith

/-- Without a tolerance there is no drift. -/
theorem sum_eq (drift : Drift tolerance angles angles') (zero : tolerance = 0) :
    angles'.sum = angles.sum := by
  have bounded := drift.bounded
  rw [zero, zero_mul] at bounded
  exact sub_eq_zero.mp (abs_nonpos_iff.mp bounded)

end Drift

/-! ## The angles about one axis on one qubit -/

variable {α : Type}

/-- The angle of a rotation about the given axis on the given qubit. -/
def Gate.angleOn? (axis : Axis) (qubit : Int) (gate : Gate α) : Option α :=
  match gate.operation with
  | .rotation axis' qubit' angle => if axis' = axis ∧ qubit' = qubit then some angle else none
  | .fixed _ _ | .pair _ _ _ _ | .measure _ _ => none

/-- The angles of the rotations about one axis on one qubit, in order. -/
def anglesOn (axis : Axis) (qubit : Int) (gates : List (Gate α)) : List α :=
  gates.filterMap (Gate.angleOn? axis qubit)

section AnglesOn

variable {axis axis' : Axis} {qubit qubit' : Int}

theorem anglesOn_cons (gate : Gate α) (gates : List (Gate α)) :
    anglesOn axis qubit (gate :: gates) =
      (gate.angleOn? axis qubit).toList ++ anglesOn axis qubit gates := by
  rw [anglesOn, List.filterMap_cons]
  cases gate.angleOn? axis qubit <;> rfl

theorem Gate.angleOn?_of_rotation {gate : Gate α} {angle : α}
    (rotation : gate.operation = .rotation axis' qubit' angle) :
    gate.angleOn? axis qubit = if axis' = axis ∧ qubit' = qubit then some angle else none := by
  rw [Gate.angleOn?, rotation]

theorem Gate.angleOn?_of_not_rotation {gate : Gate α} (other : gate.kind.isRotation = false) :
    gate.angleOn? axis qubit = none := by
  rw [Gate.angleOn?]
  cases shape : gate.operation with
  | rotation => exact absurd shape (Gate.operation_ne_rotation other)
  | fixed | pair | measure => rfl

end AnglesOn

/-! ## Along rewritings -/

section Rewriting

open Reduction

variable {tolerance : ℚ} {axis : Axis} {qubit : Int}

/-- Two gates go that cancel: rotations on the qubit whose sum is below the tolerance, or none. -/
theorem drift_of_gatesCancel {first second : Gate ℚ}
    (cancels : gatesCancel (Angle.isBelow tolerance) first second = true)
    (gates : List (Gate ℚ)) :
    Drift tolerance (anglesOn axis qubit (first :: second :: gates))
      (anglesOn axis qubit gates) := by
  rw [anglesOn_cons, anglesOn_cons]
  rcases first.rotation_or_not with ⟨axis', qubit', angle, rotation⟩ | other
  · obtain ⟨angle', rotation', small⟩ := (gatesCancel_rotation_iff rotation).mp cancels
    rw [Gate.angleOn?_of_rotation rotation, Gate.angleOn?_of_rotation rotation']
    split
    · exact .dropPair _ (of_decide_eq_true small)
    · exact .refl _
  · have kinds := ((gatesCancel_iff_of_not_rotation other).mp cancels).1
    have other' := GateKind.isRotation_of_inverse?_eq_some kinds
    rw [Gate.angleOn?_of_not_rotation other, Gate.angleOn?_of_not_rotation other']
    exact .refl _

theorem drift_of_isIdentity {gate : Gate ℚ}
    (identity : isIdentity (Angle.isBelow tolerance) gate.operation = true)
    (gates : List (Gate ℚ)) :
    Drift tolerance (anglesOn axis qubit (gate :: gates)) (anglesOn axis qubit gates) := by
  rw [anglesOn_cons]
  rcases gate.rotation_or_not with ⟨axis', qubit', angle, rotation⟩ | other
  · rw [rotation] at identity
    rw [Gate.angleOn?_of_rotation rotation]
    split
    · exact .drop _ (of_decide_eq_true identity)
    · exact .refl _
  · rw [Gate.angleOn?_of_not_rotation other]
    exact .refl _

theorem angleOn?_eq_of_same {gate gate' : Gate ℚ} (same : gate.same gate' = true) :
    gate.angleOn? axis qubit = gate'.angleOn? axis qubit := by
  obtain ⟨operation, _⟩ := gate
  obtain ⟨operation', _⟩ := gate'
  cases operation <;> cases operation' <;>
    simp_all [Gate.same, Operation.same, Gate.angleOn?]

/-- What one rewriting does to the angles about one axis on one qubit. -/
theorem drift_of_rewrites (nonneg : 0 ≤ tolerance) {gates gates' : List (Gate ℚ)}
    (rewrites : Rewrites (Angle.isBelow tolerance) gates gates') :
    Drift tolerance (anglesOn axis qubit gates) (anglesOn axis qubit gates') := by
  induction rewrites with
  | exchange after => exact .of_perm ((List.Perm.swap _ _ after).filterMap _)
  | cancel after cancels => exact drift_of_gatesCancel cancels after
  | drop after identity => exact drift_of_isIdentity identity after
  | add axis' qubit' angle angle' annotations annotations' after =>
      rw [anglesOn_cons, anglesOn_cons, anglesOn_cons, Gate.angleOn?_of_rotation rfl,
        Gate.angleOn?_of_rotation rfl, Gate.angleOn?_of_rotation rfl]
      split
      · exact .add nonneg _ angle angle'
      · exact .refl _
  | revise after same =>
      rw [anglesOn_cons, anglesOn_cons, angleOn?_eq_of_same same]
      exact .refl _
  | later gate _ ih =>
      rw [anglesOn_cons, anglesOn_cons]
      exact ih.append_left _

theorem drift_of_rewritten (axis : Axis) (qubit : Int) (nonneg : 0 ≤ tolerance)
    {gates gates' : List (Gate ℚ)} (rewritten : Rewritten (Angle.isBelow tolerance) gates gates') :
    Drift tolerance (anglesOn axis qubit gates) (anglesOn axis qubit gates') := by
  induction rewritten with
  | refl => exact .refl _
  | tail _ rewrites ih => exact ih.trans (drift_of_rewrites nonneg rewrites)

end Rewriting

namespace Optimizer

/-- After any passes and any number of rounds the sum of the angles about one axis on one qubit
differs from what it was by at most the tolerance for each rotation there that is gone; not at all
if the tolerance is zero. -/
theorem angle_drift_bounded (passes : List Pass) {tolerance : ℚ} (nonneg : 0 ≤ tolerance)
    (limit : Int) {circuit : Circuit ℚ} (wellFormed : circuit.WellFormed) :
    (∃ result, run ⟨passes, some tolerance⟩ circuit = .ok result ∧
      ∀ axis qubit,
        Drift tolerance (anglesOn axis qubit circuit.gates)
            (anglesOn axis qubit result.circuit.gates) ∧
          (tolerance = 0 → (anglesOn axis qubit result.circuit.gates).sum =
            (anglesOn axis qubit circuit.gates).sum)) ∧
    ∃ settled, toFixedPoint ⟨passes, some tolerance⟩ limit circuit = .ok settled ∧
      ∀ axis qubit,
        Drift tolerance (anglesOn axis qubit circuit.gates)
            (anglesOn axis qubit settled.gates) ∧
          (tolerance = 0 → (anglesOn axis qubit settled.gates).sum =
            (anglesOn axis qubit circuit.gates).sum) := by
  constructor
  · have rewritten := Pass.applyAll_rewritten (Angle.isBelow tolerance) passes circuit.gates
    refine ⟨_, run_eq wellFormed passes tolerance, fun axis qubit => ?_⟩
    have drift := drift_of_rewritten axis qubit nonneg rewritten
    exact ⟨drift, drift.sum_eq⟩
  · have rewritten := Pass.settle_rewritten (Angle.isBelow tolerance) passes
      (max limit 1).toNat circuit.gates
    refine ⟨_, toFixedPoint_eq wellFormed passes tolerance limit, fun axis qubit => ?_⟩
    have drift := drift_of_rewritten axis qubit nonneg rewritten
    exact ⟨drift, drift.sum_eq⟩

/-- Two rotations that nearly cancel, one that hardly turns, and two that add up. -/
def wavering : Circuit ℚ :=
  (Circuit.empty ⟨1, 0⟩ ⟨.null, []⟩).replaceGates
    [⟨.rotation .z 0 (1 / 2), []⟩, ⟨.rotation .z 0 (-49 / 100), []⟩, ⟨.fixed .h 0, []⟩,
      ⟨.rotation .z 0 (1 / 100), []⟩, ⟨.fixed .h 0, []⟩, ⟨.rotation .z 0 (1 / 4), []⟩,
      ⟨.rotation .z 0 (1 / 4), []⟩]

theorem wavering_drifts :
    wavering.WellFormed ∧ (0 : ℚ) ≤ 1 / 50 ∧
      ∃ settled, toFixedPoint ⟨[.dropIdentities, .cancelInverses, .mergeRotations],
          some (1 / 50)⟩ 10 wavering = .ok settled ∧
        Drift (1 / 50) (anglesOn .z 0 wavering.gates) (anglesOn .z 0 settled.gates) ∧
        anglesOn .z 0 wavering.gates = [1 / 2, -49 / 100, 1 / 100, 1 / 4, 1 / 4] ∧
        anglesOn .z 0 settled.gates = [1 / 2] := by
  have wellFormed : wavering.WellFormed :=
    Circuit.wellFormed_of_within (by decide) (by decide)
  have nonneg : (0 : ℚ) ≤ 1 / 50 := by norm_num
  obtain ⟨-, settled, reached, drifts⟩ := angle_drift_bounded
    [.dropIdentities, .cancelInverses, .mergeRotations] nonneg 10 wellFormed
  have known := reached.symm.trans (toFixedPoint_eq wellFormed _ _ _)
  refine ⟨wellFormed, nonneg, settled, reached, (drifts .z 0).1, by decide +kernel, ?_⟩
  obtain rfl := Except.ok.inj known
  change anglesOn .z 0 (Pass.settle _ _ _ _) = _
  decide +kernel

end Optimizer

end Peephole
