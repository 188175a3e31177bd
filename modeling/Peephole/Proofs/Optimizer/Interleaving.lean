import Mathlib.Data.List.Forall2
import Peephole.Proofs.Optimizer.Rounds

/-!
# The optimizer does not see how independent gates are interleaved

Circuits whose gate lists are interleavings of each other stay so through every pass and every
round. As interleavings hold the very same gates, the two runs drop the same gates, form the same
sums of angles and keep the same annotations; they have the same gate count after every pass and
stop after the same number of rounds (`Optimizer.interleavings_agree`).
-/

namespace Peephole

variable {α : Type}

/-- The same pass with the same gate counts. The depths may differ. -/
def PassRecord.SameCounts (record record' : PassRecord) : Prop :=
  record.pass = record'.pass ∧ record.gatesBefore = record'.gatesBefore ∧
    record.gatesAfter = record'.gatesAfter

namespace Pass

theorem applyAll_interleaved [Add α] [BEq α] {negligible : α → Bool} (passes : List Pass)
    {gates gates' : List (Gate α)} (interleaved : Interleaved gates gates') :
    Interleaved (applyAll negligible passes gates) (applyAll negligible passes gates') := by
  induction passes generalizing gates gates' with
  | nil => exact interleaved
  | cons pass passes ih => exact ih (pass.apply_interleaved negligible interleaved)

theorem recordAll_interleaved [Angle α] {negligible : α → Bool} (passes : List Pass)
    {gates gates' : List (Gate α)} (interleaved : Interleaved gates gates') :
    List.Forall₂ PassRecord.SameCounts (recordAll negligible passes gates)
      (recordAll negligible passes gates') := by
  induction passes generalizing gates gates' with
  | nil => exact .nil
  | cons pass passes ih =>
      have after := pass.apply_interleaved negligible interleaved
      exact .cons ⟨rfl, interleaved.length_eq, after.length_eq⟩ (ih after)

end Pass

namespace Circuit

/-- Circuits whose gate lists are interleavings of each other. -/
def SameUpToInterleaving (circuit circuit' : Circuit α) : Prop :=
  Interleaved circuit.gates circuit'.gates

theorem sameUpToInterleaving_getLastD {circuit circuit' : Circuit α}
    {visited visited' : List (Circuit α)} (start : circuit.SameUpToInterleaving circuit')
    (steps : List.Forall₂ SameUpToInterleaving visited visited') :
    (visited.getLastD circuit).SameUpToInterleaving (visited'.getLastD circuit') := by
  induction steps generalizing circuit circuit' with
  | nil => exact start
  | cons step _ ih =>
      rw [List.getLastD_cons, List.getLastD_cons]
      exact ih step

end Circuit

namespace Optimizer

variable [Angle α]

/-- The rounds of two interleavings go side by side and stop together. -/
theorem course_interleaved (passes : List Pass) (tolerance : α) (limit : Nat)
    {circuit circuit' : Circuit α} (wellFormed : circuit.WellFormed)
    (wellFormed' : circuit'.WellFormed) (same : circuit.SameUpToInterleaving circuit') :
    ∃ visited visited', course ⟨passes, some tolerance⟩ limit circuit = .ok visited ∧
      course ⟨passes, some tolerance⟩ limit circuit' = .ok visited' ∧
      List.Forall₂ Circuit.SameUpToInterleaving visited visited' := by
  induction limit generalizing circuit circuit' with
  | zero => exact ⟨[], [], rfl, rfl, .nil⟩
  | succ limit ih =>
      have round : (circuit.replaceGates (Pass.applyAll (Angle.isBelow tolerance) passes
            circuit.gates)).SameUpToInterleaving
          (circuit'.replaceGates (Pass.applyAll (Angle.isBelow tolerance) passes
            circuit'.gates)) :=
        Pass.applyAll_interleaved passes same
      have before : circuit.gateCount = circuit'.gateCount := Interleaved.length_eq same
      have after := Interleaved.length_eq round
      rw [course_of_optimize_eq (optimize_eq wellFormed passes tolerance),
        course_of_optimize_eq (optimize_eq wellFormed' passes tolerance)]
      unfold Circuit.gateCount at before ⊢
      rw [← before, ← after]
      split
      · exact ⟨_, _, rfl, rfl, .cons round .nil⟩
      · obtain ⟨visited, visited', ran, ran', steps⟩ :=
          ih (wellFormed_applyAll wellFormed passes tolerance)
            (wellFormed_applyAll wellFormed' passes tolerance) round
        rw [ran, ran']
        exact ⟨_, _, rfl, rfl, .cons round steps⟩

/-- Two interleavings of a circuit come out of one round as interleavings, with equal gate counts
after every pass, and reach their fixed points as interleavings after equally many rounds. -/
theorem interleavings_agree (passes : List Pass) (tolerance : α) (limit : Int)
    {circuit circuit' : Circuit α} (wellFormed : circuit.WellFormed)
    (wellFormed' : circuit'.WellFormed)
    (interleaved : Interleaved circuit.gates circuit'.gates) :
    (∃ result result', run ⟨passes, some tolerance⟩ circuit = .ok result ∧
      run ⟨passes, some tolerance⟩ circuit' = .ok result' ∧
      Interleaved result.circuit.gates result'.circuit.gates ∧
      List.Forall₂ PassRecord.SameCounts result.records result'.records) ∧
    ∃ visited visited',
      course ⟨passes, some tolerance⟩ (max limit 1).toNat circuit = .ok visited ∧
      course ⟨passes, some tolerance⟩ (max limit 1).toNat circuit' = .ok visited' ∧
      visited.length = visited'.length ∧
      List.Forall₂ Circuit.SameUpToInterleaving visited visited' ∧
      ∃ settled settled', toFixedPoint ⟨passes, some tolerance⟩ limit circuit = .ok settled ∧
        toFixedPoint ⟨passes, some tolerance⟩ limit circuit' = .ok settled' ∧
        settled = visited.getLastD circuit ∧ settled' = visited'.getLastD circuit' ∧
        Interleaved settled.gates settled'.gates := by
  constructor
  · exact ⟨_, _, run_eq wellFormed passes tolerance, run_eq wellFormed' passes tolerance,
      Pass.applyAll_interleaved passes interleaved,
      Pass.recordAll_interleaved passes interleaved⟩
  · obtain ⟨visited, visited', ran, ran', steps⟩ :=
      course_interleaved passes tolerance (max limit 1).toNat wellFormed wellFormed' interleaved
    refine ⟨visited, visited', ran, ran', steps.length_eq, steps, _, _, ?_, ?_, rfl, rfl,
      Circuit.sameUpToInterleaving_getLastD interleaved steps⟩
    · rw [toFixedPoint, rounds_eq_course, ran]
      rfl
    · rw [toFixedPoint, rounds_eq_course, ran']
      rfl

/-- A rotation on one qubit before and after a gate on another one. -/
def turnedAround : Circuit Float :=
  (Circuit.empty ⟨2, 0⟩ ⟨.null, []⟩).replaceGates
    [⟨.rotation .x 0 0.5, []⟩, ⟨.fixed .h 1, []⟩, ⟨.rotation .x 0 0.25, []⟩]

/-- The same gates with the rotations next to each other. -/
def turnedFirst : Circuit Float :=
  turnedAround.replaceGates
    [⟨.rotation .x 0 0.5, []⟩, ⟨.rotation .x 0 0.25, []⟩, ⟨.fixed .h 1, []⟩]

theorem turnedAround_agrees :
    turnedAround.WellFormed ∧ turnedFirst.WellFormed ∧
      Interleaved turnedAround.gates turnedFirst.gates ∧
      ∃ settled settled',
        toFixedPoint ⟨[.cancelInverses, .mergeRotations], some 1e-10⟩ 5 turnedAround =
            .ok settled ∧
          toFixedPoint ⟨[.cancelInverses, .mergeRotations], some 1e-10⟩ 5 turnedFirst =
            .ok settled' ∧
          Interleaved settled.gates settled'.gates := by
  have wellFormed : turnedAround.WellFormed :=
    Circuit.wellFormed_of_within (by decide) (by decide)
  have wellFormed' : turnedFirst.WellFormed :=
    Circuit.wellFormed_of_within (by decide) (by decide)
  have interleaved : Interleaved turnedAround.gates turnedFirst.gates :=
    .single (.later _ (.here _ rfl))
  obtain ⟨-, _, _, -, -, -, -, settled, settled', reached, reached', -, -, same⟩ :=
    interleavings_agree [.cancelInverses, .mergeRotations] 1e-10 5 wellFormed wellFormed'
      interleaved
  exact ⟨wellFormed, wellFormed', interleaved, settled, settled', reached, reached', same⟩

end Optimizer

end Peephole
