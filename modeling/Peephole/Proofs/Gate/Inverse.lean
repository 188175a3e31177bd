import Peephole.Proofs.Gate.Overlap

/-!
# Inverse gates

A gate has an inverse unless it is a measurement (`Gate.inverse_eq`), and the inverse acts on the
same qubits. Inverse kinds are inverse to each other (`GateKind.inverse?_symm`), and so are inverse
gates where opposites of opposites are what they were (`Gate.inverted_inverted`), the square root of
X aside.
-/

namespace Peephole

variable {α : Type}

theorem FixedKind.inverse?_symm {kind kind' : FixedKind} (inverse : kind.inverse? = some kind') :
    kind'.inverse? = some kind := by
  cases kind <;> cases inverse <;> rfl

theorem GateKind.inverse?_symm {kind kind' : GateKind} (inverse : kind.inverse? = some kind') :
    kind'.inverse? = some kind := by
  cases kind with
  | fixed kind =>
      obtain ⟨fixed, fixedInverse, rfl⟩ := Option.map_eq_some_iff.mp inverse
      exact Option.map_eq_some_iff.mpr ⟨kind, FixedKind.inverse?_symm fixedInverse, rfl⟩
  | pair kind =>
      obtain rfl := Option.some.inj inverse
      rfl
  | rotation | measure => cases inverse

namespace Gate

variable [Angle α]

/-- The inverse of a gate that has one. -/
def inverted (gate : Gate α) : Gate α :=
  ⟨gate.operation.inverse?.getD gate.operation, gate.annotations⟩

theorem inverse_eq {gate : Gate α} (unitary : gate.kind ≠ .measure) :
    gate.inverse = .ok gate.inverted := by
  cases inverse : gate.operation.inverse? with
  | none => exact absurd (Operation.inverse?_eq_none_iff.mp inverse) unitary
  | some operation =>
      unfold Gate.inverse inverted
      rw [inverse, Option.getD_some]

theorem qubits_inverted (gate : Gate α) : gate.inverted.qubits = gate.qubits := by
  obtain ⟨operation, _⟩ := gate
  cases operation with
  | fixed kind qubit => cases kind <;> rfl
  | rotation | pair | measure => rfl

theorem clbits_inverted (gate : Gate α) : gate.inverted.clbits = gate.clbits := by
  obtain ⟨operation, _⟩ := gate
  cases operation with
  | fixed kind qubit => cases kind <;> rfl
  | rotation | pair | measure => rfl

theorem operation_inverted_of_rotation {gate : Gate α} {axis : Axis} {qubit : Int} {angle : α}
    (rotation : gate.operation = .rotation axis qubit angle) :
    gate.inverted.operation = .rotation axis qubit (-angle) := by
  rw [inverted, rotation]
  rfl

/-- Other gates are undone by the inverse kind on the same operands, the square root of X aside. -/
theorem kind_inverted_of_not_rotation {gate : Gate α} (other : gate.kind.isRotation = false)
    (root : gate.kind ≠ .fixed .sx) (unitary : gate.kind ≠ .measure) :
    gate.kind.inverse? = some gate.inverted.kind ∧
      gate.operation.operandKey = gate.inverted.operation.operandKey := by
  obtain ⟨operation, _⟩ := gate
  cases operation with
  | fixed kind qubit =>
      cases kind with
      | sx => exact absurd rfl root
      | i | x | y | z | h | s | sdg | t | tdg => exact ⟨rfl, rfl⟩
  | pair kind first second distinct => exact ⟨rfl, rfl⟩
  | rotation axis qubit angle => cases other
  | measure qubit clbit => exact absurd rfl unitary

/-- The inverse is undone by the gate itself. What undoes the square root of X is a rotation, whose
inverse is another one. -/
theorem inverted_inverted (neg_neg : ∀ angle : α, - -angle = angle) {gate : Gate α}
    (root : gate.kind ≠ .fixed .sx) : gate.inverted.inverted = gate := by
  obtain ⟨operation, annotations⟩ := gate
  cases operation with
  | fixed kind qubit =>
      cases kind with
      | sx => exact absurd rfl root
      | i | x | y | z | h | s | sdg | t | tdg => rfl
  | rotation axis qubit angle =>
      change (⟨.rotation axis qubit (- -angle), annotations⟩ : Gate α) = _
      rw [neg_neg]
  | pair | measure => rfl

theorem kind_inverted_ne_measure {gate : Gate α} (unitary : gate.kind ≠ .measure) :
    gate.inverted.kind ≠ .measure := by
  obtain ⟨operation, _⟩ := gate
  cases operation with
  | fixed kind qubit => cases kind <;> exact nofun
  | rotation | pair => exact nofun
  | measure => exact absurd rfl unitary

end Gate

/-- A gate equals itself if its angle does. -/
theorem Gate.same_self [BEq α] {gate : Gate α}
    (numbers : ∀ angle ∈ gate.params, (angle == angle) = true) : gate.same gate = true := by
  obtain ⟨operation, _⟩ := gate
  cases operation with
  | rotation axis qubit angle =>
      simpa [Gate.same, Operation.same] using numbers angle (.head _)
  | fixed | pair | measure => simp [Gate.same, Operation.same]

end Peephole
