import Peephole.Proofs.Optimizer.Rounds

/-!
# Rounds end at a fixed point

The rounds stop as soon as the gate count no longer falls; whether the list has changed is not
asked. As no pass makes a list longer, and none that changes it keeps its length, an unchanged count
does mean an unchanged list (`Optimizer.eq_of_optimize`), and every single pass leaves that list as
it is. More rounds than gates are never needed (`Optimizer.toFixedPoint_reaches_fixed_point`).
-/

namespace Peephole

variable {α : Type}

namespace Optimizer

/-- A round that does not lower the gate count has changed nothing. So more rounds than gates reach
a circuit that every pass leaves as it is, with no more gates than there were. At level 1 no gate in
it is cancelled by its neighbour; at level 2 there is moreover no identity, no rotation below the
tolerance and no run of rotations. -/
theorem toFixedPoint_reaches_fixed_point [Angle α] (passes : List Pass) (tolerance : α)
    {limit : Int} {circuit : Circuit α} (wellFormed : circuit.WellFormed)
    (enough : (circuit.gateCount : Int) < limit) :
    (∀ before after : Circuit α, before.WellFormed →
      optimize ⟨passes, some tolerance⟩ before = .ok after →
        before.gateCount ≤ after.gateCount → after = before) ∧
    ∃ settled, toFixedPoint ⟨passes, some tolerance⟩ limit circuit = .ok settled ∧
      (∀ pass ∈ passes, applyPass (some tolerance) pass settled.gates = .ok settled.gates) ∧
      optimize ⟨passes, some tolerance⟩ settled = .ok settled ∧
      ((∀ gate ∈ settled.gates, ∀ angle ∈ gate.params, (angle == angle) = true) →
        settled.same settled = true) ∧
      settled.gateCount ≤ circuit.gateCount ∧
      (Pass.ofLevel? 1 = some passes →
        Reduction.Settled (Reduction.gatesCancel (Angle.isBelow tolerance)) settled.gates) ∧
      (Pass.ofLevel? 2 = some passes →
        Reduction.Settled (Reduction.gatesCancel (Angle.isBelow tolerance)) settled.gates ∧
        (∀ gate ∈ settled.gates, gate.kind ≠ .fixed .i) ∧
        (∀ gate ∈ settled.gates, ∀ axis qubit angle,
          gate.operation = .rotation axis qubit angle → Angle.isBelow tolerance angle = false) ∧
        Reduction.RunsMerged settled.gates) := by
  have rounds : circuit.gates.length < (max limit 1).toNat := by
    unfold Circuit.gateCount at enough
    omega
  have fixed := Pass.apply_settle (Angle.isBelow tolerance) passes rounds
  have thinned := Pass.settle_thinned (Angle.isBelow tolerance) passes
    (max limit 1).toNat circuit.gates
  have admitted := thinned.admitted wellFormed.admitted
  refine ⟨fun _ _ given => eq_of_optimize given, _,
    toFixedPoint_eq wellFormed passes tolerance limit, ?_, ?_, Circuit.same_self,
    thinned.length_le, ?_, ?_⟩
  · intro pass member
    exact congrArg Except.ok (fixed pass member)
  · rw [optimize_eq (Circuit.wellFormed_replaceGates admitted), Circuit.gates_replaceGates,
      Pass.applyAll_eq_self fixed, Circuit.replaceGates_replaceGates]
  · intro level
    obtain rfl := Option.some.inj level
    exact Pass.settled_of_apply_cancelInverses (fixed _ (by simp))
  · intro level
    obtain rfl := Option.some.inj level
    have active := Pass.isIdentity_of_apply_dropIdentities (fixed .dropIdentities (by simp))
    refine ⟨Pass.settled_of_apply_cancelInverses (fixed _ (by simp)), ?_, ?_,
      Pass.runsMerged_of_apply_mergeRotations (fixed _ (by simp))⟩
    · intro gate member identity
      exact Bool.false_ne_true ((active gate member).symm.trans
        (Reduction.isIdentity_of_kind identity))
    · intro gate member axis qubit angle rotation
      have act := active gate member
      rwa [rotation] at act

/-- A rotation around a pair that cancels, and the opposite rotation. -/
def nested : Circuit Float :=
  (Circuit.empty ⟨1, 0⟩ ⟨.null, []⟩).replaceGates
    [⟨.rotation .x 0 0.5, []⟩, ⟨.fixed .s 0, []⟩, ⟨.fixed .sdg 0, []⟩, ⟨.rotation .x 0 (-0.5), []⟩]

theorem nested_reaches_fixed_point :
    nested.WellFormed ∧ (nested.gateCount : Int) < 5 ∧
      (∀ after, optimize ⟨[.cancelInverses], some 1e-10⟩ nested = .ok after →
        nested.gateCount ≤ after.gateCount → after = nested) ∧
      ∃ settled, toFixedPoint ⟨[.cancelInverses], some 1e-10⟩ 5 nested = .ok settled ∧
        optimize ⟨[.cancelInverses], some 1e-10⟩ settled = .ok settled ∧
        Reduction.Settled (Reduction.gatesCancel (Angle.isBelow 1e-10)) settled.gates := by
  have wellFormed : nested.WellFormed :=
    Circuit.wellFormed_of_within (by decide) (by decide)
  have enough : (nested.gateCount : Int) < 5 := by decide
  obtain ⟨unchanged, settled, reached, -, same, -, -, level, -⟩ :=
    toFixedPoint_reaches_fixed_point [.cancelInverses] 1e-10 wellFormed enough
  exact ⟨wellFormed, enough, fun after => unchanged nested after wellFormed, settled, reached, same,
    level rfl⟩

end Optimizer

end Peephole
