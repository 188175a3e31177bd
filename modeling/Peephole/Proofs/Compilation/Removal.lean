import Peephole.Proofs.Compilation.Cost
import Peephole.Proofs.Optimizer.Records

/-!
# How many gates a compilation has removed

A compilation tells twice how many gates are gone: by the gate counts of its reports, and by the
records of the passes. What the passes of a round remove one after the other adds up to what the
round removes, so for a single round both are the same. When rounds are repeated no records are
kept, and the sum over them is zero whatever was removed (`removals_agree_iff`).
-/

namespace Peephole

theorem Compilation.gatesRemoved_eq_zero_iff {α ρ : Type} {compilation : Compilation α ρ} :
    compilation.gatesRemoved = 0 ↔
      compilation.after.gateCount = compilation.before.gateCount := by
  rw [gatesRemoved]
  omega

namespace Compiler

section Compile

variable [arithmetic : RateArithmetic Float] {settings : Settings} {compiler : Compiler}
  {device : Option (Device Float)} {circuit : Circuit Float} {resolved : Device Float}
  {tolerance : Float}

/-- The reports tell how many gates the circuit has lost, and never that it has gained any. The
records tell the same number if there was one round only, or if no gates are gone. -/
theorem removals_agree_iff (wellFormed : circuit.WellFormed)
    (tolerant : compiler.optimizer.tolerance = some tolerance)
    (available : Cost.deviceFor settings compiler.fallbackRate device circuit = .ok resolved)
    (limited : compiler.toFixedPoint = true →
      ∃ limit, Optimizer.roundsOf settings.maxFixedPointIterations = .ok limit) :
    ∃ compilation, compiler.compile settings device circuit = .ok compilation ∧
      compilation.gatesRemoved = (circuit.gateCount : Int) - compilation.optimized.gateCount ∧
      0 ≤ compilation.gatesRemoved ∧
      (compilation.gatesRemoved = compilation.optimization.gatesRemoved ↔
        compiler.toFixedPoint = false ∨
          compilation.after.gateCount = compilation.before.gateCount) := by
  cases times : compiler.toFixedPoint with
  | false =>
      have thinned := Pass.applyAll_thinned (Angle.isBelow tolerance) compiler.optimizer.passes
        circuit.gates
      refine ⟨_, compile_once_eq wellFormed tolerant available times, rfl, ?_, ?_⟩
      · exact Int.sub_nonneg_of_le (Int.ofNat_le.mpr thinned.length_le)
      · exact iff_of_true (Pass.sum_gatesRemoved_recordAll _ _ _).symm (.inl rfl)
  | true =>
      obtain ⟨limit, read⟩ := limited times
      have thinned := Pass.settle_thinned (Angle.isBelow tolerance) compiler.optimizer.passes
        (max limit 1).toNat circuit.gates
      refine ⟨_, compile_toFixedPoint_eq wellFormed tolerant available times read, rfl, ?_, ?_⟩
      · exact Int.sub_nonneg_of_le (Int.ofNat_le.mpr thinned.length_le)
      · rw [or_iff_right Bool.true_eq_false.mp]
        exact Compilation.gatesRemoved_eq_zero_iff

end Compile

/-- Two gates that cancel. -/
def doubled : Circuit Float :=
  (Circuit.empty ⟨1, 0⟩ ⟨.null, []⟩).replaceGates [⟨.fixed .h 0, []⟩, ⟨.fixed .h 0, []⟩]

def cancelling (toFixedPoint : Bool) : Compiler :=
  ⟨⟨[.cancelInverses], some 1e-10⟩, toFixedPoint, .null⟩

theorem wellFormed_doubled : doubled.WellFormed :=
  Circuit.wellFormed_of_within (by decide) (by decide)

theorem doubled_recorded :
    doubled.WellFormed ∧
      ∃ compilation, compile Settings.standard (cancelling false) (some unreliableLine) doubled =
          .ok compilation ∧
        compilation.gatesRemoved = compilation.optimization.gatesRemoved := by
  have tolerant : (cancelling false).optimizer.tolerance = some 1e-10 := rfl
  have available : Cost.deviceFor Settings.standard (cancelling false).fallbackRate
      (some unreliableLine) doubled = .ok unreliableLine := rfl
  obtain ⟨compilation, compiled, -, -, same⟩ :=
    removals_agree_iff wellFormed_doubled tolerant available
      fun repeated => absurd repeated Bool.false_ne_true
  exact ⟨wellFormed_doubled, compilation, compiled, same.mpr (.inl rfl)⟩

/-- With rounds repeated, the reports tell of two gates that are gone and the records of none. -/
theorem doubled_unrecorded :
    ∃ compilation, compile Settings.standard (cancelling true) (some unreliableLine) doubled =
        .ok compilation ∧
      compilation.gatesRemoved = 2 ∧ compilation.optimization.gatesRemoved = 0 := by
  have tolerant : (cancelling true).optimizer.tolerance = some 1e-10 := rfl
  have available : Cost.deviceFor Settings.standard (cancelling true).fallbackRate
      (some unreliableLine) doubled = .ok unreliableLine := rfl
  have gone : (Pass.settle (Angle.isBelow 1e-10) (cancelling true).optimizer.passes
      (max 10 1 : Int).toNat doubled.gates).length = 0 := by
    decide +kernel
  refine ⟨_, compile_toFixedPoint_eq wellFormed_doubled tolerant available rfl rfl, ?_, rfl⟩
  change ((2 : Nat) : Int) - ((Pass.settle _ _ _ _).length : Nat) = 2
  rw [gone]
  rfl

end Compiler

end Peephole
