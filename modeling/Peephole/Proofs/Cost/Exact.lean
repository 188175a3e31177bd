import Mathlib.Analysis.SpecialFunctions.Log.Basic
import Peephole.Proofs.Circuit.Building
import Peephole.Proofs.Cost.Thinning
import Peephole.Proofs.Number.Real

/-!
# Costs in real numbers

A report tells the fidelity and the error budget of a circuit, and comes to them in different ways:
the one gate by gate by way of logarithms, the other kind by kind. Both are taken here for the real
numbers that the error rates of a device stand for, with nothing rounded (`exactReport`). Then the
logarithms and the exponential cancel, what is counted by kind can be regrouped gate by gate, and a
product of probabilities falls short of one by no more than the missing parts add up to
(`exact_fidelity_within_budget`).
-/

namespace Peephole

variable {α : Type}

/-! ## Devices with rates of another type -/

/-- A device with its rates and durations read as values of another type. -/
def Device.map {ρ σ : Type} (read : ρ → σ) (device : Device ρ) : Device σ where
  name := device.name
  couplings := device.couplings
  rule := device.rule
  isAllToAll := device.isAllToAll
  errorRates := device.errorRates.map fun entry => (entry.1, read entry.2)
  durations := device.durations.map fun table => table.map fun entry => (entry.1, read entry.2)
  fallbackRate := read device.fallbackRate

theorem Device.errorRate_map {ρ σ : Type} (read : ρ → σ) (device : Device ρ) (name : String) :
    (device.map read).errorRate name = read (device.errorRate name) := by
  have entry : (device.map read).errorRates.get? name = (device.errorRates.get? name).map read :=
    lookup_map (fun _ => read) device.errorRates name
  rw [errorRate, errorRate, entry]
  cases device.errorRates.get? name <;> rfl

/-! ## The arithmetic of real numbers -/

/-- The arithmetic of rates in which nothing is rounded. -/
@[reducible]
noncomputable def RateArithmetic.real : RateArithmetic ℝ where
  decidableLT := inferInstance
  certainty := 1
  logSuccess rate := Real.log (1 - rate)
  sum := List.sum
  exp := Real.exp
  times rate count := rate * count

/-! ## Gates by kind -/

namespace Circuit

theorem toFinset_eraseDups (kinds : List GateKind) :
    kinds.eraseDups.toFinset = kinds.toFinset := by
  ext kind
  rw [List.mem_toFinset, List.mem_toFinset, List.mem_eraseDups]

/-- Powers by kind are a product gate by gate. -/
theorem prod_gateCounts (circuit : Circuit α) (valueOf : GateKind → ℝ) :
    (circuit.gateCounts.map fun entry => valueOf entry.1 ^ entry.2).prod =
      ((circuit.gates.map Gate.kind).map valueOf).prod := by
  rw [Finset.prod_list_map_count (circuit.gates.map Gate.kind), ← toFinset_eraseDups,
    List.prod_toFinset _ (nodup_eraseDups _), gateCounts, List.map_map]
  rfl

/-- Multiples by kind are a sum gate by gate. -/
theorem sum_gateCounts (circuit : Circuit α) (valueOf : GateKind → ℝ) :
    (circuit.gateCounts.map fun entry => valueOf entry.1 * entry.2).sum =
      ((circuit.gates.map Gate.kind).map valueOf).sum := by
  rw [Finset.sum_list_map_count (circuit.gates.map Gate.kind), ← toFinset_eraseDups,
    List.sum_toFinset _ (nodup_eraseDups _), gateCounts, List.map_map]
  congr 1
  exact List.map_congr_left fun kind _ => by rw [Function.comp_apply, nsmul_eq_mul, mul_comm]

end Circuit

/-! ## Probabilities of success -/

/-- Probabilities multiply to a probability, and that falls short of one by no more than they do
together. -/
theorem prod_complements {rates : List ℝ} (within : ∀ rate ∈ rates, 0 ≤ rate ∧ rate < 1) :
    0 < (rates.map (1 - ·)).prod ∧ (rates.map (1 - ·)).prod ≤ 1 ∧
      1 - rates.sum ≤ (rates.map (1 - ·)).prod := by
  induction rates with
  | nil => simp
  | cons rate rates ih =>
      obtain ⟨⟨nonnegative, below⟩, rest⟩ := List.forall_mem_cons.mp within
      obtain ⟨positive, atMost, short⟩ := ih rest
      have lost : rate * (rates.map (1 - ·)).prod ≤ rate :=
        mul_le_of_le_one_right nonnegative atMost
      rw [List.map_cons, List.prod_cons, List.sum_cons]
      refine ⟨mul_pos (sub_pos.mpr below) positive, ?_, ?_⟩
      · exact mul_le_one₀ (sub_le_self 1 nonnegative) positive.le atMost
      · rw [one_sub_mul]
        linarith

theorem toReal_of_admits {rate : Float} (admitted : Calibration.errorRate.admits rate = true) :
    0 ≤ Binary64.toReal rate ∧ Binary64.toReal rate < 1 := by
  obtain ⟨above, below⟩ := Bool.and_eq_true_iff.mp admitted
  have nonnegative : 0.0 ≤ rate := of_decide_eq_true above
  have lessThanOne : rate < 1.0 := of_decide_eq_true below
  have finite := Binary64.isFinite_of_le_of_lt (by decide) nonnegative lessThanOne
  constructor
  · rw [← Binary64.toReal_zero]
    exact (Binary64.toReal_le_toReal_iff (by decide) finite).mpr nonnegative
  · rw [← Binary64.toReal_one]
    exact (Binary64.toReal_lt_toReal_iff finite (by decide)).mpr lessThanOne

namespace Cost

/-- The exponential of the sum of the logarithms is the product. -/
theorem successOf_real {rates : List ℝ} (below : ∀ rate ∈ rates, rate < 1) :
    @successOf ℝ .real rates = (rates.map (1 - ·)).prod := by
  cases rates with
  | nil => rfl
  | cons rate rates =>
      change Real.exp ((rate :: rates).map fun rate => Real.log (1 - rate)).sum = _
      rw [Real.exp_list_sum, List.map_map]
      congr 1
      exact List.map_congr_left fun rate member =>
        Real.exp_log (sub_pos.mpr (below rate member))

/-- What a report would tell if nothing were rounded. -/
noncomputable def exactReport (device : Device Float) (circuit : Circuit α) : CostReport ℝ :=
  @report α ℝ .real (device.map Binary64.toReal) circuit

section Exact

variable {device : Device Float} (calibrated : device.Calibrated) (circuit : Circuit α)

/-- The real number that the error rate of a kind stands for. -/
noncomputable def realRate (device : Device Float) (kind : GateKind) : ℝ :=
  Binary64.toReal (device.errorRate kind.name)

theorem ratesOf_map_toReal (device : Device Float) (gates : List (Gate α)) :
    ratesOf (device.map Binary64.toReal) gates = (gates.map Gate.kind).map (realRate device) := by
  rw [ratesOf_eq]
  exact List.map_congr_left fun kind _ => Device.errorRate_map Binary64.toReal device kind.name

include calibrated in
theorem realRate_within (kinds : List GateKind) :
    ∀ rate ∈ kinds.map (realRate device), 0 ≤ rate ∧ rate < 1 := by
  intro rate member
  obtain ⟨kind, -, rfl⟩ := List.mem_map.mp member
  exact toReal_of_admits (calibrated kind.name)

include calibrated in
theorem fidelity_exactReport :
    (exactReport device circuit).fidelity =
      (((circuit.gates.map Gate.kind).map (realRate device)).map (1 - ·)).prod := by
  change @successOf ℝ .real (ratesOf (device.map Binary64.toReal) circuit.gates) = _
  rw [ratesOf_map_toReal]
  exact successOf_real fun rate member => (realRate_within calibrated _ rate member).2

theorem sum_errorBudget_exactReport :
    ((exactReport device circuit).errorBudget.map Prod.snd).sum =
      ((circuit.gates.map Gate.kind).map (realRate device)).sum := by
  rw [← Circuit.sum_gateCounts]
  change ((circuit.gateCounts.map fun entry => (entry.1,
    (device.map Binary64.toReal).errorRate entry.1.name * (entry.2 : ℝ))).map Prod.snd).sum = _
  rw [List.map_map]
  congr 1
  refine List.map_congr_left fun entry _ => ?_
  exact congrArg (· * (entry.2 : ℝ)) (Device.errorRate_map _ device entry.1.name)

end Exact

/-- If nothing is rounded, a circuit succeeds with the product of the probabilities that its gates
leave, kind by kind. That is a probability above zero, circuits one after the other multiply theirs,
and what is missing to certainty is no more than the error budget adds up to. -/
theorem exact_fidelity_within_budget {settings : Settings} {parts : Device.Parts}
    {device : Device Float} (made : Device.ofParts settings parts = .ok device)
    (circuit : Circuit Float) :
    (exactReport device circuit).fidelity =
        (circuit.gateCounts.map fun entry =>
          (1 - Binary64.toReal (device.errorRate entry.1.name)) ^ entry.2).prod ∧
      0 < (exactReport device circuit).fidelity ∧ (exactReport device circuit).fidelity ≤ 1 ∧
      (∀ other composed, circuit.compose other = .ok composed →
        (exactReport device composed).fidelity =
          (exactReport device circuit).fidelity * (exactReport device other).fidelity) ∧
      1 - ((exactReport device circuit).errorBudget.map Prod.snd).sum ≤
        (exactReport device circuit).fidelity := by
  have calibrated := Device.calibrated_of_ofParts made
  obtain ⟨positive, atMost, short⟩ :=
    prod_complements (realRate_within calibrated (circuit.gates.map Gate.kind))
  rw [← fidelity_exactReport calibrated] at positive atMost short
  refine ⟨?_, positive, atMost, fun other composed built => ?_, ?_⟩
  · rw [fidelity_exactReport calibrated, List.map_map]
    exact (Circuit.prod_gateCounts circuit fun kind => 1 - realRate device kind).symm
  · rw [fidelity_exactReport calibrated, fidelity_exactReport calibrated,
      fidelity_exactReport calibrated, Circuit.gates_of_compose built, List.map_append,
      List.map_append, List.map_append, List.prod_append]
  · rw [sum_errorBudget_exactReport]
    exact short

/-- Two qubits on which every fourth Hadamard gate and every other controlled gate fails. -/
def failingParts : Device.Parts where
  numQubits := .int 2
  edges := .null
  errorRates := .record [("H", .float 0.25), ("CX", .float 0.5)]
  durations := .null
  rule := none
  fallbackRate := .null
  name := .text "failing"

def bell : Circuit Float :=
  (Circuit.empty ⟨2, 0⟩ ⟨.null, []⟩).replaceGates
    [⟨.fixed .h 0, []⟩, ⟨.pair .cx 0 1 Int.zero_ne_one, []⟩]

theorem bell_fidelity_within_budget :
    ∃ device, Device.ofParts Settings.standard failingParts = .ok device ∧
      (exactReport device bell).fidelity =
        (1 - Binary64.toReal 0.25) * (1 - Binary64.toReal 0.5) ∧
      1 - ((exactReport device bell).errorBudget.map Prod.snd).sum ≤
        (exactReport device bell).fidelity ∧
      ∃ twice, bell.compose bell = .ok twice ∧
        (exactReport device twice).fidelity =
          (exactReport device bell).fidelity * (exactReport device bell).fidelity := by
  obtain ⟨device, made, told⟩ : ∃ device,
      Device.ofParts Settings.standard failingParts = .ok device ∧
        (device.errorRate "H", device.errorRate "CX") = (0.25, 0.5) :=
    exists_eq_ok_of_toOption (by decide +kernel)
  obtain ⟨hadamard, controlled⟩ := Prod.mk.inj told
  have wellFormed : bell.WellFormed := Circuit.wellFormed_of_within (by decide) (by decide)
  have composed := Circuit.compose_eq wellFormed wellFormed rfl
  have counts : bell.gateCounts = [(.fixed .h, 1), (.pair .cx, 1)] := by decide
  obtain ⟨product, -, -, twice, budget⟩ := exact_fidelity_within_budget made bell
  refine ⟨device, made, ?_, budget, _, composed, twice bell _ composed⟩
  rw [product, counts]
  change (1 - Binary64.toReal (device.errorRate "H")) ^ 1 *
    ((1 - Binary64.toReal (device.errorRate "CX")) ^ 1 * 1) = _
  rw [hadamard, controlled, pow_one, pow_one, mul_one]

end Cost

end Peephole
