import Mathlib.Data.List.Chain
import Peephole.Proofs.Circuit.Figures
import Peephole.Proofs.Optimizer.Rounds

/-!
# The records of a run

A run leaves one record for each of its passes. Each starts where the one before it ends, so that
together they lead from the circuit that goes in to the one that comes out, and no pass adds gates
or depth. Since a pass only thins out the gate list, no figure of the circuit that is told by kinds
and qubits grows either.
-/

namespace Peephole

variable {α : Type}

namespace PassRecord

/-- The next record starts with the figures that this one ends with. -/
def Follows (record next : PassRecord) : Prop :=
  record.gatesAfter = next.gatesBefore ∧ record.depthAfter = next.depthBefore

def StartsAt (record : PassRecord) (circuit : Circuit α) : Prop :=
  record.gatesBefore = circuit.gateCount ∧ record.depthBefore = circuit.depth

def EndsAt (record : PassRecord) (circuit : Circuit α) : Prop :=
  record.gatesAfter = circuit.gateCount ∧ record.depthAfter = circuit.depth

end PassRecord

namespace Pass

variable [Angle α] (negligible : α → Bool)

theorem map_pass_recordAll (passes : List Pass) (gates : List (Gate α)) :
    (recordAll negligible passes gates).map PassRecord.pass = passes := by
  induction passes generalizing gates with
  | nil => rfl
  | cons pass passes ih => rw [recordAll, List.map_cons, ih]; rfl

theorem le_of_mem_recordAll {passes : List Pass} {gates : List (Gate α)} :
    ∀ record ∈ recordAll negligible passes gates,
      record.gatesAfter ≤ record.gatesBefore ∧ record.depthAfter ≤ record.depthBefore := by
  induction passes generalizing gates with
  | nil => simp [recordAll]
  | cons pass passes ih =>
      have thinned : Thinned gates (pass.apply negligible gates) := pass.apply_thinned gates
      exact List.forall_mem_cons.mpr
        ⟨⟨thinned.length_le, Schedule.depth_le_of_thinned thinned⟩, ih⟩

theorem startsAt_of_mem_head?_recordAll {passes : List Pass} (circuit : Circuit α) :
    ∀ record ∈ (recordAll negligible passes circuit.gates).head?, record.StartsAt circuit := by
  cases passes with
  | nil => simp [recordAll]
  | cons pass passes =>
      intro record isHead
      obtain rfl := Option.some.inj isHead
      exact ⟨rfl, rfl⟩

theorem isChain_recordAll (passes : List Pass) (gates : List (Gate α)) :
    (recordAll negligible passes gates).IsChain PassRecord.Follows := by
  induction passes generalizing gates with
  | nil => exact .nil
  | cons pass passes ih =>
      refine List.isChain_cons.mpr ⟨fun next isHead => ?_, ih _⟩
      cases passes with
      | nil => cases isHead
      | cons following passes =>
          obtain rfl := Option.some.inj isHead
          exact ⟨rfl, rfl⟩

theorem endsAt_of_mem_getLast?_recordAll {passes : List Pass} (circuit : Circuit α) :
    ∀ record ∈ (recordAll negligible passes circuit.gates).getLast?,
      record.EndsAt (circuit.replaceGates (applyAll negligible passes circuit.gates)) := by
  induction passes generalizing circuit with
  | nil => simp [recordAll]
  | cons pass passes ih =>
      intro record isLast
      cases passes with
      | nil =>
          obtain rfl := Option.some.inj isLast
          exact ⟨rfl, rfl⟩
      | cons next passes =>
          exact ih (circuit.replaceGates (pass.apply negligible circuit.gates)) record isLast

/-- What the passes remove one after the other is what the round removes. -/
theorem sum_gatesRemoved_recordAll (passes : List Pass) (gates : List (Gate α)) :
    ((recordAll negligible passes gates).map PassRecord.gatesRemoved).foldr (· + ·) 0 =
      (gates.length : Int) - (applyAll negligible passes gates).length := by
  induction passes generalizing gates with
  | nil => exact (Int.sub_self _).symm
  | cons pass passes ih =>
      have first : (Optimizer.recordOf pass gates (pass.apply negligible gates)).gatesRemoved =
          (gates.length : Int) - (pass.apply negligible gates).length := rfl
      have round : applyAll negligible (pass :: passes) gates =
          applyAll negligible passes (pass.apply negligible gates) := rfl
      rw [recordAll, List.map_cons, List.foldr_cons, ih, first, round]
      omega

end Pass

namespace Optimizer

/-- The records of a run lead from the input to the output without adding gates or depth. The
critical path is no longer than before, and there are no more gates on two qubits or of any one
kind. -/
theorem run_never_worse [Angle α] (passes : List Pass) (tolerance : α) {circuit : Circuit α}
    (wellFormed : circuit.WellFormed) :
    ∃ result, run ⟨passes, some tolerance⟩ circuit = .ok result ∧
      result.records.map PassRecord.pass = passes ∧
      (∀ record ∈ result.records,
        record.gatesAfter ≤ record.gatesBefore ∧ record.depthAfter ≤ record.depthBefore) ∧
      (∀ record ∈ result.records.head?, record.StartsAt circuit) ∧
      result.records.IsChain PassRecord.Follows ∧
      (∀ record ∈ result.records.getLast?, record.EndsAt result.circuit) ∧
      result.gatesRemoved = (circuit.gateCount : Int) - result.circuit.gateCount ∧
      Schedule.criticalPathLength result.circuit.gates ≤
        Schedule.criticalPathLength circuit.gates ∧
      result.circuit.twoQubitCount ≤ circuit.twoQubitCount ∧
      ∀ kind, (result.circuit.gateCounts.lookup kind).getD 0 ≤
        (circuit.gateCounts.lookup kind).getD 0 := by
  have thinned := Pass.applyAll_thinned (Angle.isBelow tolerance) passes circuit.gates
  refine ⟨_, run_eq wellFormed passes tolerance, Pass.map_pass_recordAll _ passes _,
    Pass.le_of_mem_recordAll _, Pass.startsAt_of_mem_head?_recordAll _ circuit,
    Pass.isChain_recordAll _ passes _, Pass.endsAt_of_mem_getLast?_recordAll _ circuit,
    Pass.sum_gatesRemoved_recordAll _ passes _,
    Schedule.criticalPathLength_le_of_thinned thinned, ?_,
    Circuit.lookup_gateCounts_le_of_thinned thinned⟩
  rw [wellFormed.counted]
  exact thinned.countP_isTwoQubit_le

/-- Two Hadamard gates that cancel around the middle of two rotations that merge. -/
def entwined : Circuit Float :=
  (Circuit.empty ⟨2, 0⟩ ⟨.null, []⟩).replaceGates
    [⟨.rotation .z 0 0.5, []⟩, ⟨.fixed .h 1, []⟩, ⟨.fixed .h 1, []⟩, ⟨.rotation .z 0 0.25, []⟩,
      ⟨.pair .cx 1 0 (by decide), []⟩]

theorem entwined_never_worse :
    entwined.WellFormed ∧
      ∃ result, run ⟨[.cancelInverses, .mergeRotations], some 1e-10⟩ entwined = .ok result ∧
        result.records.map PassRecord.pass = [.cancelInverses, .mergeRotations] ∧
        result.gatesRemoved = 5 - (result.circuit.gateCount : Int) ∧
        Schedule.criticalPathLength result.circuit.gates ≤ 3 := by
  have wellFormed : entwined.WellFormed :=
    Circuit.wellFormed_of_within (by decide) (by decide)
  obtain ⟨result, ran, passes, -, -, -, -, removed, path, -, -⟩ :=
    run_never_worse [.cancelInverses, .mergeRotations] 1e-10 wellFormed
  exact ⟨wellFormed, result, ran, passes, removed, path⟩

end Optimizer

end Peephole
