import Mathlib.Algebra.FreeMonoid.Basic
import Peephole.Proofs.Optimizer.Rounds
import Peephole.Proofs.Reduction.Rewriting

/-!
# The optimizer keeps the meaning of a circuit

A circuit means the product of its gates under an `Interpretation`. Passes are chains of local
rewritings, and so are rounds of passes and repeated rounds (`Pass.applyAll_rewritten`,
`Pass.settle_rewritten`); hence one round and the fixed point keep the product, whatever the
passes, their order and the number of rounds (`Optimizer.keeps_product`).

The sequence of measurements is one such meaning, so measurements stay in their order even when
they write the same classical bit (`Optimizer.measurements_in_order`).
-/

namespace Peephole

universe u

variable {α : Type}

namespace Pass

variable [Add α] [BEq α]

theorem applyAll_rewritten (negligible : α → Bool) (passes : List Pass) (gates : List (Gate α)) :
    Reduction.Rewritten negligible gates (applyAll negligible passes gates) :=
  applyAll_related _ .refl .trans (fun pass _ => apply_rewritten pass) gates

theorem settle_rewritten (negligible : α → Bool) (passes : List Pass) (limit : Nat)
    (gates : List (Gate α)) :
    Reduction.Rewritten negligible gates (settle negligible passes limit gates) :=
  settle_related _ .refl .trans (fun pass _ => apply_rewritten pass) limit gates

end Pass

namespace Optimizer

/-- One round and the fixed point are reached by local rewritings, none of which moves a gate past
another one on a common qubit or exchanges two measurements, and every interpretation gives the
circuits that come out the product of the one that went in. -/
theorem keeps_product [Angle α] {M : Type u} [Monoid M] (passes : List Pass) (tolerance : α)
    (limit : Int) {circuit : Circuit α} (wellFormed : circuit.WellFormed)
    (interpretation : Interpretation (Angle.isBelow tolerance) M) :
    (∃ result, run ⟨passes, some tolerance⟩ circuit = .ok result ∧
      Reduction.Rewritten (Angle.isBelow tolerance) circuit.gates result.circuit.gates ∧
      interpretation.product result.circuit.gates = interpretation.product circuit.gates) ∧
    ∃ settled, toFixedPoint ⟨passes, some tolerance⟩ limit circuit = .ok settled ∧
      Reduction.Rewritten (Angle.isBelow tolerance) circuit.gates settled.gates ∧
      interpretation.product settled.gates = interpretation.product circuit.gates := by
  constructor
  · have rewritten := Pass.applyAll_rewritten (Angle.isBelow tolerance) passes
      circuit.gates
    exact ⟨_, run_eq wellFormed passes tolerance, rewritten,
      interpretation.product_eq_of_rewritten rewritten⟩
  · have rewritten := Pass.settle_rewritten (Angle.isBelow tolerance) passes
      (max limit 1).toNat circuit.gates
    exact ⟨_, toFixedPoint_eq wellFormed passes tolerance limit, rewritten,
      interpretation.product_eq_of_rewritten rewritten⟩

/-! ## Measurements in order -/

/-- The measurements of a circuit in their order: each qubit with the bit that it is stored in. -/
def measurements [Add α] [BEq α] (negligible : α → Bool) :
    Interpretation negligible (FreeMonoid (Int × Int)) where
  value gate :=
    match gate.operation with
    | .measure qubit clbit => FreeMonoid.of (qubit, clbit)
    | .fixed _ _ | .rotation _ _ _ | .pair _ _ _ _ => 1
  same {gate gate'} same := by
    obtain ⟨operation, _⟩ := gate
    obtain ⟨operation', _⟩ := gate'
    cases operation <;> cases operation' <;> simp_all [Gate.same, Operation.same]
  apart {left right} _ free := by
    obtain ⟨operation, _⟩ := left
    obtain ⟨operation', _⟩ := right
    cases operation <;> cases operation' <;> simp_all [Gate.kind, Operation.kind]
  cancel {first second} cancels := by
    have unitary := Reduction.kind_ne_measure_of_gatesCancel cancels
    have unitary' := Reduction.kind_ne_measure_of_gatesCancel_right cancels
    obtain ⟨operation, _⟩ := first
    obtain ⟨operation', _⟩ := second
    cases operation <;> cases operation' <;> simp_all [Gate.kind, Operation.kind]
  identity {gate} identity := by
    obtain ⟨operation, _⟩ := gate
    cases operation <;> simp_all [Reduction.isIdentity]
  sum axis qubit angle angle' annotations annotations' := by simp

/-- Two qubits are measured into one bit, with gates around them that cancel and merge. -/
def measuredPair : Circuit Float :=
  (Circuit.empty ⟨2, 1⟩ ⟨.null, []⟩).replaceGates
    [⟨.fixed .h 1, []⟩, ⟨.measure 0 0, []⟩, ⟨.fixed .h 1, []⟩, ⟨.rotation .z 1 0.5, []⟩,
      ⟨.rotation .z 1 0.25, []⟩, ⟨.measure 1 0, []⟩]

theorem measurements_in_order :
    measuredPair.WellFormed ∧
      ∃ result, run ⟨[.cancelInverses, .mergeRotations], some 1e-10⟩ measuredPair = .ok result ∧
        (measurements (Angle.isBelow 1e-10)).product result.circuit.gates =
          FreeMonoid.of (0, 0) * FreeMonoid.of (1, 0) := by
  have wellFormed : measuredPair.WellFormed :=
    Circuit.wellFormed_of_within (by decide) (by decide)
  obtain ⟨⟨result, ran, -, kept⟩, -⟩ := keeps_product [.cancelInverses, .mergeRotations] 1e-10 1
    wellFormed (measurements (Angle.isBelow 1e-10))
  refine ⟨wellFormed, result, ran, kept.trans ?_⟩
  simp [measurements, measuredPair, Interpretation.product, Circuit.replaceGates]

end Optimizer

end Peephole
