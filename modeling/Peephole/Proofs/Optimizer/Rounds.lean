import Peephole.Optimizer.Basic
import Peephole.Proofs.Circuit.Building
import Peephole.Proofs.Reduction.Passes

/-!
# The optimizer on well-formed circuits

With a tolerance that is a magnitude the optimizer never fails on a well-formed circuit: passes
put gates only where gates were, so the registers admit what comes out. What comes out is then the
circuit with the gate list that the passes leave (`run_eq`, `toFixedPoint_eq`), and the theory of
the optimizer is a theory of gate lists.

`course` keeps the circuits that the rounds go through, one a round (`rounds_eq_course`).
-/

namespace Peephole

variable {α : Type}

/-! ## Gates stay in the registers -/

/-- Registers that admit a gate list admit what is left when it is thinned out. -/
theorem Thinned.admitted [Angle α] {registers : Registers} {gates gates' : List (Gate α)}
    (thinned : Thinned gates gates') (admitted : ∀ gate ∈ gates, registers.fault? gate = none) :
    ∀ gate ∈ gates', registers.fault? gate = none := by
  intro gate member
  obtain ⟨origin, inGates, same⟩ := thinned.exists_sameOperands gate member
  exact Registers.fault?_eq_none_of_sameOperands same (admitted origin inGates)

/-- The records of a round. -/
def Pass.recordAll [Angle α] (negligible : α → Bool) : List Pass → List (Gate α) → List PassRecord
  | [], _ => []
  | pass :: passes, gates =>
    Optimizer.recordOf pass gates (pass.apply negligible gates) ::
      recordAll negligible passes (pass.apply negligible gates)

namespace Optimizer

variable [Angle α]

theorem applyAll_eq (tolerance : α) (passes : List Pass) (gates : List (Gate α)) :
    applyAll (some tolerance) passes gates =
      .ok (Pass.applyAll (Angle.isBelow tolerance) passes gates,
        Pass.recordAll (Angle.isBelow tolerance) passes gates) := by
  induction passes generalizing gates with
  | nil => rfl
  | cons pass passes ih =>
      simp only [applyAll, applyPass, bind, Except.bind, ih]
      rfl

theorem run_eq {circuit : Circuit α} (wellFormed : circuit.WellFormed) (passes : List Pass)
    (tolerance : α) :
    run ⟨passes, some tolerance⟩ circuit =
      .ok ⟨circuit.replaceGates (Pass.applyAll (Angle.isBelow tolerance) passes circuit.gates),
        Pass.recordAll (Angle.isBelow tolerance) passes circuit.gates⟩ := by
  have thinned := Pass.applyAll_thinned (Angle.isBelow tolerance) passes circuit.gates
  simp only [run, applyAll_eq, bind, Except.bind,
    Circuit.withGates_eq (thinned.admitted wellFormed.admitted)]
  rfl

theorem optimize_eq {circuit : Circuit α} (wellFormed : circuit.WellFormed) (passes : List Pass)
    (tolerance : α) :
    optimize ⟨passes, some tolerance⟩ circuit =
      .ok (circuit.replaceGates
        (Pass.applyAll (Angle.isBelow tolerance) passes circuit.gates)) := by
  simp only [optimize, run_eq wellFormed, bind, Except.bind]
  rfl

/-- A round that does not lower the gate count changes nothing. -/
theorem eq_of_optimize {circuit optimized : Circuit α} (wellFormed : circuit.WellFormed)
    {passes : List Pass} {tolerance : α}
    (round : optimize ⟨passes, some tolerance⟩ circuit = .ok optimized)
    (full : circuit.gateCount ≤ optimized.gateCount) : optimized = circuit := by
  rw [optimize_eq wellFormed] at round
  obtain rfl := Except.ok.inj round
  rw [Circuit.gateCount, Circuit.gateCount, Circuit.gates_replaceGates] at full
  have fixed := Pass.apply_eq_self_of_applyAll_length full
  rw [Pass.applyAll_eq_self fixed, wellFormed.replaceGates_self]

/-- A circuit that comes out of a round is well formed again. -/
theorem wellFormed_applyAll {circuit : Circuit α} (wellFormed : circuit.WellFormed)
    (passes : List Pass) (tolerance : α) :
    (circuit.replaceGates
      (Pass.applyAll (Angle.isBelow tolerance) passes circuit.gates)).WellFormed :=
  Circuit.wellFormed_replaceGates
    ((Pass.applyAll_thinned _ passes circuit.gates).admitted wellFormed.admitted)

/-- A round that succeeds is the last one if it does not lower the gate count. -/
theorem rounds_of_optimize_eq {optimizer : Optimizer α} {circuit optimized : Circuit α}
    (round : optimizer.optimize circuit = .ok optimized) (limit : Nat) :
    optimizer.rounds (limit + 1) circuit =
      if circuit.gateCount ≤ optimized.gateCount then .ok optimized
      else optimizer.rounds limit optimized := by
  rw [rounds, round]
  rfl

theorem rounds_eq {circuit : Circuit α} (wellFormed : circuit.WellFormed) (passes : List Pass)
    (tolerance : α) (limit : Nat) :
    rounds ⟨passes, some tolerance⟩ limit circuit =
      .ok (circuit.replaceGates
        (Pass.settle (Angle.isBelow tolerance) passes limit circuit.gates)) := by
  induction limit generalizing circuit with
  | zero => rw [rounds, Pass.settle, wellFormed.replaceGates_self]
  | succ limit ih =>
      have next := ih (wellFormed_applyAll wellFormed passes tolerance)
      rw [rounds_of_optimize_eq (optimize_eq wellFormed passes tolerance), next, Pass.settle]
      unfold Circuit.gateCount
      rw [Circuit.gates_replaceGates, Circuit.replaceGates_replaceGates]
      split <;> rfl

theorem toFixedPoint_eq {circuit : Circuit α} (wellFormed : circuit.WellFormed)
    (passes : List Pass) (tolerance : α) (limit : Int) :
    toFixedPoint ⟨passes, some tolerance⟩ limit circuit =
      .ok (circuit.replaceGates
        (Pass.settle (Angle.isBelow tolerance) passes (max limit 1).toNat circuit.gates)) :=
  rounds_eq wellFormed passes tolerance _

/-! ## The course of the rounds -/

/-- The circuits after each round, in order, at most so many. -/
def course (optimizer : Optimizer α) : Nat → Circuit α → Except Fault (List (Circuit α))
  | 0, _ => .ok []
  | limit + 1, circuit => do
    let optimized ← optimizer.optimize circuit
    if circuit.gateCount ≤ optimized.gateCount then return [optimized]
    else return optimized :: (← optimizer.course limit optimized)

theorem course_of_optimize_eq {optimizer : Optimizer α} {circuit optimized : Circuit α}
    (round : optimizer.optimize circuit = .ok optimized) (limit : Nat) :
    optimizer.course (limit + 1) circuit =
      if circuit.gateCount ≤ optimized.gateCount then .ok [optimized]
      else (optimizer.course limit optimized).map (optimized :: ·) := by
  rw [course, round]
  simp only [bind, Except.bind]
  split
  · rfl
  · cases optimizer.course limit optimized <;> rfl

/-- The rounds end with the last circuit of their course. -/
theorem rounds_eq_course (optimizer : Optimizer α) (limit : Nat) (circuit : Circuit α) :
    optimizer.rounds limit circuit =
      (optimizer.course limit circuit).map fun visited => visited.getLastD circuit := by
  induction limit generalizing circuit with
  | zero => rfl
  | succ limit ih =>
      cases round : optimizer.optimize circuit with
      | error fault =>
          rw [rounds, course, round]
          rfl
      | ok optimized =>
          rw [rounds_of_optimize_eq round, course_of_optimize_eq round, ih]
          split
          · rfl
          · cases optimizer.course limit optimized with
            | error fault => rfl
            | ok visited => simp only [Except.map, List.getLastD_cons]

end Optimizer

end Peephole
