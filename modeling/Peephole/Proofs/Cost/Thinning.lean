import Peephole.Cost.Basic
import Peephole.Proofs.Circuit.Figures
import Peephole.Proofs.Device.Calibrated
import Peephole.Proofs.Number.Difference

/-!
# Costs of thinned circuits

When a circuit is thinned out, what is left of it violates no coupling that it did not violate
before, and no kind of gate adds up to more error. The logarithms of the success probabilities are
not positive, so fewer of them have a sum that is no smaller; the sum is rounded once, which keeps
order where adding up rounded sums would not, and the circuit is no less likely to succeed.

How rates are multiplied, and how logarithms and exponentials come out, is up to the arithmetic
that is used. `Dependable` says what is relied on.
-/

namespace Peephole

variable {α : Type}

/-- What is relied on in the arithmetic of error rates, where a rate is multiplied by no count above
`most`: errors do not make success certain to more than certainty, sums of finite terms are the
exact sums rounded in a way that keeps order, and the exponential and the multiples of a rate keep
order. -/
structure RateArithmetic.Dependable (arithmetic : RateArithmetic Float) (most : Nat) : Prop where
  certainty : arithmetic.certainty = 1.0
  logSuccess_finite : ∀ rate, Calibration.errorRate.admits rate = true →
    Binary64.isFinite (arithmetic.logSuccess rate) = true
  logSuccess_le : ∀ rate, Calibration.errorRate.admits rate = true →
    arithmetic.logSuccess rate ≤ 0.0
  sum_rounds : ∃ round : Int → Float,
    (∀ units units', units ≤ units' → round units ≤ round units') ∧ round 0 = 0.0 ∧
      ∀ terms units, terms.mapM Binary64.units? = some units →
        arithmetic.sum terms = round units.sum
  exp_le_exp : ∀ x y, x ≤ y → arithmetic.exp x ≤ arithmetic.exp y
  exp_between : ∀ x, x ≤ 0.0 → 0.0 ≤ arithmetic.exp x ∧ arithmetic.exp x ≤ 1.0
  times_le_times : ∀ rate, Calibration.errorRate.admits rate = true → ∀ count count',
    count ≤ count' → count' ≤ most → arithmetic.times rate count ≤ arithmetic.times rate count'

/-- What a violation is apart from the index of its gate. -/
def RoutingViolation.place (violation : RoutingViolation) : GateKind × List Int × Option Nat :=
  (violation.kind, violation.qubits, violation.distance)

namespace Cost

/-! ## Rates -/

theorem ratesOf_eq {ρ : Type} (device : Device ρ) (gates : List (Gate α)) :
    ratesOf device gates = (gates.map Gate.kind).map fun kind => device.errorRate kind.name := by
  rw [List.map_map]
  rfl

theorem admits_of_mem_ratesOf {device : Device Float} (calibrated : device.Calibrated)
    (gates : List (Gate α)) :
    ∀ rate ∈ ratesOf device gates, Calibration.errorRate.admits rate = true := by
  intro rate member
  obtain ⟨gate, -, rfl⟩ := List.mem_map.mp member
  exact calibrated gate.kind.name

theorem lookup_errorBudget {ρ : Type} [RateArithmetic ρ] (device : Device ρ) (circuit : Circuit α)
    (kind : GateKind) :
    (errorBudget device circuit).lookup kind =
      (circuit.gateCounts.lookup kind).map
        (RateArithmetic.times (device.errorRate kind.name)) :=
  lookup_map (fun (kind : GateKind) => RateArithmetic.times (device.errorRate kind.name))
    circuit.gateCounts kind

/-! ## Success -/

section Success

variable [arithmetic : RateArithmetic Float] {most : Nat}

/-- The logarithm of a success probability in units of the least double. -/
def logUnits (rate : Float) : Int :=
  (Binary64.units? (arithmetic.logSuccess rate)).getD 0

variable (dependable : arithmetic.Dependable most)

include dependable

theorem units?_logSuccess {rate : Float} (admitted : Calibration.errorRate.admits rate = true) :
    Binary64.units? (arithmetic.logSuccess rate) = some (logUnits rate) := by
  obtain ⟨units, read⟩ :=
    Binary64.exists_units_of_isFinite (dependable.logSuccess_finite rate admitted)
  rw [logUnits, read]
  rfl

theorem logUnits_nonpos {rate : Float} (admitted : Calibration.errorRate.admits rate = true) :
    logUnits rate ≤ 0 := by
  have zero : Binary64.units? 0.0 = some 0 := by decide
  exact (Binary64.le_iff_units_le (units?_logSuccess dependable admitted) zero).mp
    (dependable.logSuccess_le rate admitted)

theorem mapM_units?_logSuccess {rates : List Float}
    (admitted : ∀ rate ∈ rates, Calibration.errorRate.admits rate = true) :
    (rates.map arithmetic.logSuccess).mapM Binary64.units? = some (rates.map logUnits) := by
  induction rates with
  | nil => rfl
  | cons rate rates ih =>
      rw [List.forall_mem_cons] at admitted
      rw [List.map_cons, List.mapM_cons, units?_logSuccess dependable admitted.1, ih admitted.2]
      rfl

/-- Without some of the errors the sum of the logarithms is no smaller. -/
theorem sum_logUnits_le {rates rates' : List Float} (sublist : rates'.Sublist rates)
    (admitted : ∀ rate ∈ rates, Calibration.errorRate.admits rate = true) :
    (rates.map logUnits).sum ≤ (rates'.map logUnits).sum := by
  induction sublist with
  | slnil => exact Int.le_refl _
  | cons rate _ ih =>
      rw [List.forall_mem_cons] at admitted
      have fewer := ih admitted.2
      have nonpos := logUnits_nonpos dependable admitted.1
      rw [List.map_cons, List.sum_cons]
      omega
  | cons_cons rate _ ih =>
      rw [List.forall_mem_cons] at admitted
      have fewer := ih admitted.2
      rw [List.map_cons, List.sum_cons, List.map_cons, List.sum_cons]
      omega

theorem sum_logSuccess_le {rates rates' : List Float} (sublist : rates'.Sublist rates)
    (admitted : ∀ rate ∈ rates, Calibration.errorRate.admits rate = true) :
    arithmetic.sum (rates.map arithmetic.logSuccess) ≤
      arithmetic.sum (rates'.map arithmetic.logSuccess) := by
  obtain ⟨round, keepsOrder, -, rounds⟩ := dependable.sum_rounds
  have admitted' := fun rate member => admitted rate (sublist.subset member)
  rw [rounds _ _ (mapM_units?_logSuccess dependable admitted),
    rounds _ _ (mapM_units?_logSuccess dependable admitted')]
  exact keepsOrder _ _ (sum_logUnits_le dependable sublist admitted)

theorem sum_logSuccess_nonpos {rates : List Float}
    (admitted : ∀ rate ∈ rates, Calibration.errorRate.admits rate = true) :
    arithmetic.sum (rates.map arithmetic.logSuccess) ≤ 0.0 := by
  obtain ⟨round, -, zero, rounds⟩ := dependable.sum_rounds
  have none := rounds [] [] rfl
  have fewer := sum_logSuccess_le dependable (List.nil_sublist rates) admitted
  rw [List.map_nil, none, List.sum_nil, zero] at fewer
  exact fewer

theorem successOf_between {rates : List Float}
    (admitted : ∀ rate ∈ rates, Calibration.errorRate.admits rate = true) :
    0.0 ≤ successOf rates ∧ successOf rates ≤ 1.0 := by
  unfold successOf
  split
  · rw [dependable.certainty]
    decide
  · exact dependable.exp_between _ (sum_logSuccess_nonpos dependable admitted)

/-- Without some of the errors success is no less likely. -/
theorem successOf_le_successOf {rates rates' : List Float} (sublist : rates'.Sublist rates)
    (admitted : ∀ rate ∈ rates, Calibration.errorRate.admits rate = true) :
    successOf rates ≤ successOf rates' := by
  cases rates' with
  | nil =>
      have certain : successOf ([] : List Float) = 1.0 := dependable.certainty
      rw [certain]
      exact (successOf_between dependable admitted).2
  | cons rate' rates' =>
      cases rates with
      | nil => cases sublist
      | cons rate rates =>
          exact dependable.exp_le_exp _ _ (sum_logSuccess_le dependable sublist admitted)

theorem fidelity_le_of_thinned {device : Device Float} (calibrated : device.Calibrated)
    {circuit circuit' : Circuit α} (thinned : Thinned circuit.gates circuit'.gates) :
    fidelity device circuit ≤ fidelity device circuit' := by
  refine successOf_le_successOf dependable ?_ (admits_of_mem_ratesOf calibrated circuit.gates)
  rw [ratesOf_eq, ratesOf_eq]
  exact thinned.kinds.map _

theorem isFinite_fidelity {device : Device Float} (calibrated : device.Calibrated)
    (circuit : Circuit α) : Binary64.isFinite (fidelity device circuit) = true := by
  obtain ⟨above, below⟩ :=
    successOf_between dependable (admits_of_mem_ratesOf calibrated circuit.gates)
  exact Binary64.isFinite_of_between (by decide) (by decide) above below

theorem zero_le_fidelity_sub_of_thinned {device : Device Float} (calibrated : device.Calibrated)
    {circuit circuit' : Circuit α} (thinned : Thinned circuit.gates circuit'.gates) :
    0.0 ≤ fidelity device circuit' - fidelity device circuit :=
  Binary64.zero_le_sub (isFinite_fidelity dependable calibrated circuit')
    (isFinite_fidelity dependable calibrated circuit)
    (fidelity_le_of_thinned dependable calibrated thinned)

/-! ## Error budget -/

/-- No kind adds up to more error than before. -/
theorem exists_lookup_errorBudget_of_thinned {device : Device Float}
    (calibrated : device.Calibrated) {circuit circuit' : Circuit α}
    (small : circuit.gateCount ≤ most) (thinned : Thinned circuit.gates circuit'.gates)
    {kind : GateKind} {amount : Float}
    (found : (errorBudget device circuit').lookup kind = some amount) :
    ∃ amount', (errorBudget device circuit).lookup kind = some amount' ∧ amount ≤ amount' := by
  rw [lookup_errorBudget] at found
  obtain ⟨count, counted, rfl⟩ := Option.map_eq_some_iff.mp found
  obtain ⟨count', counted', le, bound⟩ :=
    Circuit.exists_lookup_gateCounts_of_thinned thinned counted
  refine ⟨_, by rw [lookup_errorBudget, counted', Option.map_some], ?_⟩
  exact dependable.times_le_times _ (calibrated kind.name) count count' le (bound.trans small)

end Success

/-! ## Routing -/

/-- The violation of a gate, told by its operands. -/
def misplaced? (device : Device Float) :
    GateKind × List Int × List Int → Option (GateKind × List Int × Option Nat)
  | (.pair kind, [first, second], _) =>
    if device.isConnected first second then none
    else some (.pair kind, [first, second], device.distance? first second)
  | _ => none

theorem map_place_violation? (device : Device Float) (gateIndex : Nat) (gate : Gate α) :
    (violation? device gateIndex gate).map RoutingViolation.place =
      misplaced? device gate.operands := by
  obtain ⟨operation, annotations⟩ := gate
  cases operation with
  | pair kind first second distinct =>
      change Option.map RoutingViolation.place
          (if device.isConnected first second then none
            else some ⟨gateIndex, .pair kind, [first, second], device.distance? first second⟩) =
        if device.isConnected first second then none
        else some (.pair kind, [first, second], device.distance? first second)
      split <;> rfl
  | fixed | rotation | measure => rfl

theorem map_place_violations (device : Device Float) (circuit : Circuit α) :
    (violations device circuit).map RoutingViolation.place =
      (circuit.gates.map Gate.operands).filterMap (misplaced? device) := by
  have placed : ∀ entry : Gate α × Nat,
      (violation? device entry.2 entry.1).map RoutingViolation.place =
        misplaced? device entry.1.operands :=
    fun entry => map_place_violation? device entry.2 entry.1
  unfold violations
  rw [List.map_filterMap]
  simp only [placed]
  rw [← List.zipIdx_map_fst 0 circuit.gates, List.map_map, List.filterMap_map,
    List.zipIdx_map_fst]
  rfl

/-- The violations that are left are a part of those that there were, in their order. -/
theorem violations_sublist_of_thinned (device : Device Float) {circuit circuit' : Circuit α}
    (thinned : Thinned circuit.gates circuit'.gates) :
    ((violations device circuit').map RoutingViolation.place).Sublist
      ((violations device circuit).map RoutingViolation.place) := by
  rw [map_place_violations, map_place_violations]
  exact List.Sublist.filterMap _ thinned

/-- A circuit that a device can run can be run when it is thinned out. -/
theorem isRoutable_of_thinned [RateArithmetic Float] {device : Device Float}
    {circuit circuit' : Circuit α} (registers : circuit'.registers = circuit.registers)
    (thinned : Thinned circuit.gates circuit'.gates)
    (routable : (report device circuit).isRoutable = true) :
    (report device circuit').isRoutable = true := by
  obtain ⟨fits, empty⟩ := Bool.and_eq_true_iff.mp routable
  have none : violations device circuit = [] := List.isEmpty_iff.mp empty
  have sublist := violations_sublist_of_thinned device thinned
  rw [none, List.map_nil, List.sublist_nil, List.map_eq_nil_iff] at sublist
  refine Bool.and_eq_true_iff.mpr ⟨?_, List.isEmpty_iff.mpr sublist⟩
  simpa only [report, registers] using fits

end Cost

end Peephole
