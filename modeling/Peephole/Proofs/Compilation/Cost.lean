import Peephole.Compilation
import Peephole.Proofs.Cost.Thinning
import Peephole.Proofs.Number.Rounding
import Peephole.Proofs.Optimizer.Rounds

/-!
# Compiling costs nothing

A compilation measures one circuit on one device before and after the optimizer, and the optimizer
only thins out the gate list, whether in one run or in many. So what the reports say about routing,
error and success never gets worse (`compile_never_costs_more`). That holds for devices whose
error rates are probabilities below one, as those of every device are that can be asked for
(`Device.calibrated_of_ofRequest`), the ideal one included.
-/

namespace Peephole

/-- The device on which a circuit is measured is calibrated if the one that is given is. -/
theorem Cost.calibrated_deviceFor {settings : Settings} {fallbackRate : Datum}
    {device : Option (Device Float)} {circuit : Circuit Float} {resolved : Device Float}
    (calibrated : ∀ given ∈ device, given.Calibrated)
    (available : deviceFor settings fallbackRate device circuit = .ok resolved) :
    resolved.Calibrated := by
  cases device with
  | none => exact Device.calibrated_of_ofParts available
  | some given =>
      obtain rfl := Except.ok.inj available
      exact calibrated given rfl

namespace Compiler

section Compile

variable [arithmetic : RateArithmetic Float] {settings : Settings} {compiler : Compiler}
  {device : Option (Device Float)} {circuit : Circuit Float} {resolved : Device Float}
  {tolerance : Float}

/-- One round is recorded pass by pass. -/
theorem compile_once_eq (wellFormed : circuit.WellFormed)
    (tolerant : compiler.optimizer.tolerance = some tolerance)
    (available : Cost.deviceFor settings compiler.fallbackRate device circuit = .ok resolved)
    (single : compiler.toFixedPoint = false) :
    compiler.compile settings device circuit =
      .ok (Compilation.measure resolved circuit
        ⟨circuit.replaceGates
            (Pass.applyAll (Angle.isBelow tolerance) compiler.optimizer.passes circuit.gates),
          Pass.recordAll (Angle.isBelow tolerance) compiler.optimizer.passes circuit.gates⟩) := by
  obtain ⟨⟨passes, _⟩, _, fallbackRate⟩ := compiler
  obtain rfl : _ = some tolerance := tolerant
  obtain rfl : _ = false := single
  simp only [compile, available, bind, Except.bind, Compilation.once, Optimizer.run_eq wellFormed]
  rfl

/-- Of many rounds nothing is recorded but what they leave. -/
theorem compile_toFixedPoint_eq (wellFormed : circuit.WellFormed)
    (tolerant : compiler.optimizer.tolerance = some tolerance)
    (available : Cost.deviceFor settings compiler.fallbackRate device circuit = .ok resolved)
    (repeated : compiler.toFixedPoint = true) {limit : Int}
    (limited : Optimizer.roundsOf settings.maxFixedPointIterations = .ok limit) :
    compiler.compile settings device circuit =
      .ok (Compilation.measure resolved circuit
        ⟨circuit.replaceGates (Pass.settle (Angle.isBelow tolerance) compiler.optimizer.passes
            (max limit 1).toNat circuit.gates), []⟩) := by
  obtain ⟨⟨passes, _⟩, _, fallbackRate⟩ := compiler
  obtain rfl : _ = some tolerance := tolerant
  obtain rfl : _ = true := repeated
  simp only [compile, available, limited, bind, Except.bind, Compilation.toFixedPoint,
    Optimizer.toFixedPoint_eq wellFormed]
  rfl

/-- A compilation measures the circuit and what is left when it is thinned out. -/
theorem exists_compile_eq (wellFormed : circuit.WellFormed)
    (tolerant : compiler.optimizer.tolerance = some tolerance)
    (available : Cost.deviceFor settings compiler.fallbackRate device circuit = .ok resolved)
    (limited : compiler.toFixedPoint = true →
      ∃ limit, Optimizer.roundsOf settings.maxFixedPointIterations = .ok limit) :
    ∃ gates records, Thinned circuit.gates gates ∧
      compiler.compile settings device circuit =
        .ok (Compilation.measure resolved circuit ⟨circuit.replaceGates gates, records⟩) := by
  cases times : compiler.toFixedPoint with
  | false =>
      exact ⟨_, _, Pass.applyAll_thinned _ _ circuit.gates,
        compile_once_eq wellFormed tolerant available times⟩
  | true =>
      obtain ⟨limit, read⟩ := limited times
      exact ⟨_, _, Pass.settle_thinned _ _ _ circuit.gates,
        compile_toFixedPoint_eq wellFormed tolerant available times read⟩

/-- Whatever the optimizer does, the violations that are left were there before, a routable circuit
stays routable, the circuit fits the device or does not as before, no kind of gate adds up to more
error, and success is no less likely. -/
theorem compile_never_costs_more (dependable : arithmetic.Dependable circuit.gateCount)
    (wellFormed : circuit.WellFormed)
    (tolerant : compiler.optimizer.tolerance = some tolerance)
    (calibrated : ∀ given ∈ device, given.Calibrated)
    (available : Cost.deviceFor settings compiler.fallbackRate device circuit = .ok resolved)
    (limited : compiler.toFixedPoint = true →
      ∃ limit, Optimizer.roundsOf settings.maxFixedPointIterations = .ok limit) :
    ∃ compilation, compiler.compile settings device circuit = .ok compilation ∧
      (compilation.after.violations.map RoutingViolation.place).Sublist
        (compilation.before.violations.map RoutingViolation.place) ∧
      (compilation.before.isRoutable = true → compilation.after.isRoutable = true) ∧
      compilation.after.fitsDevice = compilation.before.fitsDevice ∧
      (∀ kind amount, compilation.after.errorBudget.lookup kind = some amount →
        ∃ amount', compilation.before.errorBudget.lookup kind = some amount' ∧
          amount ≤ amount') ∧
      compilation.before.fidelity ≤ compilation.after.fidelity ∧
      0.0 ≤ compilation.fidelityGain := by
  have calibrated := Cost.calibrated_deviceFor calibrated available
  obtain ⟨gates, records, thinned, compiled⟩ :=
    exists_compile_eq wellFormed tolerant available limited
  refine ⟨_, compiled, Cost.violations_sublist_of_thinned resolved thinned,
    Cost.isRoutable_of_thinned rfl thinned, rfl, ?_,
    Cost.fidelity_le_of_thinned dependable calibrated thinned,
    Cost.zero_le_fidelity_sub_of_thinned dependable calibrated thinned⟩
  intro kind amount
  exact Cost.exists_lookup_errorBudget_of_thinned dependable calibrated (Nat.le_refl _) thinned

end Compile

/-! ## Errors that occur every other time -/

/-- The exponentials of the sums of up to three logarithms of one half. -/
def expOfHalves (x : Float) : Float :=
  if x ≤ -2.0794415416798357 then 0.12500000000000003
  else if x ≤ -1.3862943611198906 then 0.25
  else if x ≤ -0.6931471805599453 then 0.5
  else 1.0

theorem expOfHalves_le_expOfHalves {x y : Float} (ordered : x ≤ y) :
    expOfHalves x ≤ expOfHalves y := by
  unfold expOfHalves
  by_cases three : y ≤ -2.0794415416798357
  · rw [if_pos (Binary64.le_trans ordered three), if_pos three]
    decide
  · rw [if_neg three]
    by_cases two : y ≤ -1.3862943611198906
    · rw [if_pos (Binary64.le_trans ordered two), if_pos two]
      split <;> decide
    · rw [if_neg two]
      by_cases one : y ≤ -0.6931471805599453
      · rw [if_pos (Binary64.le_trans ordered one), if_pos one]
        split
        · decide
        · split <;> decide
      · rw [if_neg one]
        split
        · decide
        · split
          · decide
          · split <;> decide

theorem expOfHalves_between (x : Float) : 0.0 ≤ expOfHalves x ∧ expOfHalves x ≤ 1.0 := by
  unfold expOfHalves
  split
  · decide
  · split
    · decide
    · split <;> decide

/-- The arithmetic of doubles as far as every error occurs every other time and no more than three
gates are counted. -/
@[reducible]
def halving : RateArithmetic Float where
  decidableLT := inferInstance
  certainty := 1.0
  logSuccess rate := if rate == 0.5 then -0.6931471805599453 else 0.0
  sum := Binary64.sum
  exp := expOfHalves
  times rate count := Binary64.ofUnits ((Binary64.units? rate).getD 0 * count)

theorem dependable_halving (most : Nat) : halving.Dependable most where
  certainty := rfl
  logSuccess_finite rate _ := by
    change Binary64.isFinite (if rate == 0.5 then -0.6931471805599453 else 0.0) = true
    split <;> decide
  logSuccess_le rate _ := by
    change (if rate == 0.5 then -0.6931471805599453 else 0.0) ≤ 0.0
    split <;> decide
  sum_rounds := ⟨Binary64.ofUnits, fun _ _ => Binary64.ofUnits_le_ofUnits, Binary64.ofUnits_zero,
    fun _ _ => Binary64.sum_eq_ofUnits⟩
  exp_le_exp _ _ := expOfHalves_le_expOfHalves
  exp_between x _ := expOfHalves_between x
  times_le_times rate admitted count count' le _ := by
    obtain ⟨units, read⟩ := Calibration.exists_units_of_admits admitted
    change Binary64.ofUnits ((Binary64.units? rate).getD 0 * count) ≤
      Binary64.ofUnits ((Binary64.units? rate).getD 0 * count')
    rw [read]
    exact Binary64.ofUnits_mul_le (Int.natCast_nonneg units) le

/-- Three qubits in a line. Every gate fails every other time. -/
def unreliableLine : Device Float where
  name := .text "line"
  couplings := .line 3
  rule := none
  isAllToAll := false
  errorRates := [("RZ", 0.5)]
  durations := none
  fallbackRate := 0.5

/-- Two rotations that merge past a gate on qubits that are not coupled. -/
def stretched : Circuit Float :=
  (Circuit.empty ⟨3, 0⟩ ⟨.null, []⟩).replaceGates
    [⟨.rotation .z 1 0.5, []⟩, ⟨.pair .cx 0 2 (by decide), []⟩, ⟨.rotation .z 1 0.25, []⟩]

theorem stretched_costs_no_more :
    halving.Dependable stretched.gateCount ∧ stretched.WellFormed ∧ unreliableLine.Calibrated ∧
      ∃ compilation, @compile halving Settings.standard
          ⟨⟨[.mergeRotations], some 1e-10⟩, true, .null⟩ (some unreliableLine) stretched =
            .ok compilation ∧
        (compilation.after.violations.map RoutingViolation.place).Sublist
          (compilation.before.violations.map RoutingViolation.place) ∧
        compilation.before.fidelity ≤ compilation.after.fidelity ∧
        0.0 ≤ compilation.fidelityGain := by
  have wellFormed : stretched.WellFormed :=
    Circuit.wellFormed_of_within (by decide) (by decide)
  have calibrated : unreliableLine.Calibrated :=
    Device.calibrated_of_within ((Calibration.within_nil _).set "RZ" (by decide)) (by decide)
  have dependable := dependable_halving stretched.gateCount
  obtain ⟨compilation, compiled, routing, -, -, -, success, gain⟩ :=
    @compile_never_costs_more halving Settings.standard
      ⟨⟨[.mergeRotations], some 1e-10⟩, true, .null⟩ (some unreliableLine) stretched unreliableLine
      1e-10 dependable wellFormed rfl (fun given isGiven => Option.some.inj isGiven ▸ calibrated)
      rfl (fun _ => ⟨10, rfl⟩)
  exact ⟨dependable, wellFormed, calibrated, compilation, compiled, routing, success, gain⟩

end Compiler

end Peephole
