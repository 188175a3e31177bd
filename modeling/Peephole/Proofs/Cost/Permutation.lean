import Peephole.Proofs.Circuit.Building
import Peephole.Proofs.Cost.Thinning
import Peephole.Proofs.Number.Rounding

/-!
# Costs in another order

Doubles that are added one after the other give different sums in different orders, and so would
the product of the success probabilities. The logarithms are added exactly and rounded once, so
which gates occur settles the fidelity, to the last bit, whatever logarithm and exponential are
used. The error budget takes the kinds in the order in which they first occur, but what it says of
a kind depends on the number of its gates alone (`cost_of_permuted`).
-/

namespace Peephole

variable {α : Type}

namespace Cost

theorem successOf_eq_of_perm [arithmetic : RateArithmetic Float]
    (exact : ∀ terms, arithmetic.sum terms = Binary64.sum terms) {rates rates' : List Float}
    (perm : rates.Perm rates') : successOf rates = successOf rates' := by
  have sums : arithmetic.sum (rates.map arithmetic.logSuccess) =
      arithmetic.sum (rates'.map arithmetic.logSuccess) := by
    rw [exact, exact]
    exact Binary64.sum_eq_of_perm (perm.map _)
  rw [successOf, successOf, perm.isEmpty_eq, sums]

section Kinds

variable {circuit circuit' : Circuit α}
  (perm : (circuit.gates.map Gate.kind).Perm (circuit'.gates.map Gate.kind))

include perm

theorem perm_ratesOf (device : Device Float) :
    (ratesOf device circuit.gates).Perm (ratesOf device circuit'.gates) := by
  rw [ratesOf_eq, ratesOf_eq]
  exact perm.map _

theorem perm_errorBudget {ρ : Type} [RateArithmetic ρ] (device : Device ρ) :
    (errorBudget device circuit).Perm (errorBudget device circuit') :=
  (Circuit.perm_gateCounts perm).map _

theorem lookup_errorBudget_of_perm {ρ : Type} [RateArithmetic ρ] (device : Device ρ)
    (kind : GateKind) :
    (errorBudget device circuit).lookup kind = (errorBudget device circuit').lookup kind := by
  rw [lookup_errorBudget, lookup_errorBudget, Circuit.lookup_gateCounts_of_perm perm]

end Kinds

/-- With exact sums that are rounded once, circuits with the same gates in different orders succeed
with the same probability, double for double. They have the same error budget for each kind, and
the kinds differ in order at most. -/
theorem cost_of_permuted [arithmetic : RateArithmetic Float]
    (exact : ∀ terms, arithmetic.sum terms = Binary64.sum terms) (device : Device Float)
    {circuit circuit' : Circuit Float} (permuted : circuit.gates.Perm circuit'.gates) :
    fidelity device circuit = fidelity device circuit' ∧
      (∀ kind, (errorBudget device circuit).lookup kind =
        (errorBudget device circuit').lookup kind) ∧
      (errorBudget device circuit).Perm (errorBudget device circuit') := by
  have kinds := permuted.map Gate.kind
  exact ⟨successOf_eq_of_perm exact (perm_ratesOf kinds device),
    lookup_errorBudget_of_perm kinds device, perm_errorBudget kinds device⟩

/-- Every gate on its three qubits has a rate that no double holds exactly. -/
def wearing : Device Float where
  name := .text "wearing"
  couplings := .line 3
  rule := none
  isAllToAll := false
  errorRates := [("H", 0.0007), ("CX", 0.02)]
  durations := none
  fallbackRate := 0.0003

def entangling : Circuit Float :=
  (Circuit.empty ⟨3, 0⟩ ⟨.null, []⟩).replaceGates
    [⟨.fixed .h 0, []⟩, ⟨.pair .cx 0 1 Int.zero_ne_one, []⟩, ⟨.fixed .t 1, []⟩,
      ⟨.fixed .h 2, []⟩, ⟨.pair .cx 1 0 Int.one_ne_zero, []⟩]

def entanglingReversed : Circuit Float :=
  entangling.replaceGates entangling.gates.reverse

/-- From the last gate to the first, the kinds stand in another order in the error budget. -/
theorem cost_of_reversed :
    entangling.gates.Perm entanglingReversed.gates ∧
      fidelity wearing entangling = fidelity wearing entanglingReversed ∧
      (errorBudget wearing entangling).lookup (.fixed .h) =
        (errorBudget wearing entanglingReversed).lookup (.fixed .h) ∧
      (errorBudget wearing entangling).map Prod.fst = [.fixed .h, .pair .cx, .fixed .t] ∧
      (errorBudget wearing entanglingReversed).map Prod.fst =
        [.pair .cx, .fixed .h, .fixed .t] := by
  have permuted : entangling.gates.Perm entanglingReversed.gates :=
    (List.reverse_perm entangling.gates).symm
  obtain ⟨success, budgets, -⟩ := cost_of_permuted (fun _ => rfl) wearing permuted
  exact ⟨permuted, success, budgets (.fixed .h), by decide, by decide⟩

end Cost

end Peephole
