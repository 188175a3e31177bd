import Peephole.Proofs.Gate.Inverse
import Peephole.Proofs.Reduction.Confluence

/-!
# Gates that are exact opposites

Within a tolerance, cancelling need not be transitive in any sense: a rotation may cancel two others
that are too far apart to cancel the same gates. `opposed` is cancelling without a tolerance, which
asks for opposite angles. Where numbers compare as they should, it is a `Pairing`, and every
invertible gate, the square root of X aside, is opposed to its inverse (`opposed_inverted`). A
tolerance that tells apart the angles of a circuit comes to the same (`gatesCancel_eq_opposed`).
-/

namespace Peephole

namespace Reduction

variable {α : Type} [Angle α]

/-- Whether two operations are rotations about one axis on one qubit by opposite angles. -/
def oppositeTurns (first second : Operation α) : Bool :=
  match first, second with
  | .rotation axis qubit angle, .rotation axis' qubit' angle' =>
    axis' == axis && qubit' == qubit && angle' == -angle
  | _, _ => false

/-- Whether two gates cancel without a tolerance. -/
def opposed (first second : Gate α) : Bool :=
  gatesCancel (fun _ => false) first second || oppositeTurns first.operation second.operation

theorem opposed_rotation_iff {first second : Gate α} {axis : Axis} {qubit : Int} {angle : α}
    (rotation : first.operation = .rotation axis qubit angle) :
    opposed first second = true ↔
      ∃ angle', second.operation = .rotation axis qubit angle' ∧ (angle' == -angle) = true := by
  have never : gatesCancel (fun _ => false) first second = false := by
    rw [← Bool.not_eq_true, gatesCancel_rotation_iff rotation]
    simp
  simp only [opposed, never, Bool.false_or, oppositeTurns, rotation]
  cases second.operation with
  | rotation axis' qubit' angle' =>
      simp only [Bool.and_eq_true, beq_iff_eq, Operation.rotation.injEq]
      constructor
      · rintro ⟨⟨rfl, rfl⟩, opposite⟩
        exact ⟨angle', ⟨rfl, rfl, rfl⟩, opposite⟩
      · rintro ⟨_, ⟨rfl, rfl, rfl⟩, opposite⟩
        exact ⟨⟨rfl, rfl⟩, opposite⟩
  | fixed | pair | measure => simp

theorem opposed_iff_of_not_rotation {first second : Gate α}
    (other : first.kind.isRotation = false) :
    opposed first second = true ↔
      first.kind.inverse? = some second.kind ∧
        first.operation.operandKey = second.operation.operandKey := by
  have turns : oppositeTurns first.operation second.operation = false := by
    obtain ⟨operation, _⟩ := first
    cases operation with
    | rotation axis qubit angle => cases other
    | fixed | pair | measure => rfl
  rw [opposed, turns, Bool.or_false]
  exact gatesCancel_iff_of_not_rotation other

/-- Opposed gates are rotations both or neither. -/
theorem isRotation_eq_of_opposed {first second : Gate α} (opposite : opposed first second = true) :
    second.kind.isRotation = first.kind.isRotation := by
  rcases first.rotation_or_not with ⟨axis, qubit, angle, rotation⟩ | other
  · obtain ⟨angle', rotation', -⟩ := (opposed_rotation_iff rotation).mp opposite
    rw [Gate.kind, Gate.kind, rotation, rotation']
    rfl
  · have kinds := GateKind.inverse?_symm ((opposed_iff_of_not_rotation other).mp opposite).1
    rw [other]
    cases kind : second.kind with
    | rotation axis =>
        rw [kind] at kinds
        cases kinds
    | fixed | pair | measure => rfl

theorem opposed_onSameQubits : OnSameQubits (opposed (α := α)) := by
  intro first second opposite
  rcases first.rotation_or_not with ⟨axis, qubit, angle, rotation⟩ | other
  · obtain ⟨angle', rotation', -⟩ := (opposed_rotation_iff rotation).mp opposite
    intro index
    simp [Gate.qubits, rotation, rotation', Operation.qubits]
  · refine gatesCancel_onSameQubits (fun _ => false) ?_
    rw [gatesCancel_iff_of_not_rotation other, ← opposed_iff_of_not_rotation other]
    exact opposite

section Pairing

variable (opposite_comm : ∀ {x y : α}, (x == -y) = true → (y == -x) = true)

include opposite_comm

theorem opposed_symm {first second : Gate α} (opposite : opposed first second = true) :
    opposed second first = true := by
  rcases first.rotation_or_not with ⟨axis, qubit, angle, rotation⟩ | other
  · obtain ⟨angle', rotation', turns⟩ := (opposed_rotation_iff rotation).mp opposite
    exact (opposed_rotation_iff rotation').mpr ⟨angle, rotation, opposite_comm turns⟩
  · have other' := (isRotation_eq_of_opposed opposite).trans other
    obtain ⟨kinds, keys⟩ := (opposed_iff_of_not_rotation other).mp opposite
    exact (opposed_iff_of_not_rotation other').mpr ⟨GateKind.inverse?_symm kinds, keys.symm⟩

/-- Exact opposites are a pairing where equality of numbers is symmetric and transitive and passes
to opposite numbers. -/
theorem opposed_pairing [PartialEquivBEq α] : Pairing (opposed (α := α)) where
  onSameQubits := opposed_onSameQubits
  symm := opposed_symm opposite_comm
  shared {first first' second third} left right next := by
    have back := opposed_symm opposite_comm left
    have back' := opposed_symm opposite_comm right
    rcases second.rotation_or_not with ⟨axis, qubit, angle, rotation⟩ | other
    · obtain ⟨turn, shape, opposite⟩ := (opposed_rotation_iff rotation).mp back
      obtain ⟨turn', shape', opposite'⟩ := (opposed_rotation_iff rotation).mp back'
      obtain ⟨last, lastShape, lastOpposite⟩ := (opposed_rotation_iff shape).mp next
      have equal : (turn' == turn) = true := PartialEquivBEq.trans opposite'
        (PartialEquivBEq.symm opposite)
      have opposites := PartialEquivBEq.trans equal (opposite_comm lastOpposite)
      exact (opposed_rotation_iff shape').mpr ⟨last, lastShape, opposite_comm opposites⟩
    · have plain := (isRotation_eq_of_opposed back).trans other
      have plain' := (isRotation_eq_of_opposed back').trans other
      obtain ⟨kinds, keys⟩ := (opposed_iff_of_not_rotation plain).mp left
      obtain ⟨kinds', keys'⟩ := (opposed_iff_of_not_rotation plain').mp right
      obtain ⟨nextKinds, nextKeys⟩ := (opposed_iff_of_not_rotation plain).mp next
      refine (opposed_iff_of_not_rotation plain').mpr ⟨?_, ?_⟩
      · rw [kinds', ← kinds, nextKinds]
      · rw [keys', ← keys, nextKeys]

end Pairing

theorem opposed_inverted {gate : Gate α} (root : gate.kind ≠ .fixed .sx)
    (unitary : gate.kind ≠ .measure)
    (numbers : ∀ angle ∈ gate.params, (-angle == -angle) = true) :
    opposed gate gate.inverted = true := by
  rcases gate.rotation_or_not with ⟨axis, qubit, angle, rotation⟩ | other
  · have used : angle ∈ gate.params := by
      rw [Gate.params, rotation]
      exact .head _
    exact (opposed_rotation_iff rotation).mpr
      ⟨-angle, Gate.operation_inverted_of_rotation rotation, numbers angle used⟩
  · exact (opposed_iff_of_not_rotation other).mpr
      (Gate.kind_inverted_of_not_rotation other root unitary)

/-- Where angles of one axis add up to none only if they are opposite, a tolerance makes no
difference. -/
theorem gatesCancel_eq_opposed {negligible : α → Bool} {first second : Gate α}
    (separate : ∀ axis qubit angle angle', first.operation = .rotation axis qubit angle →
      second.operation = .rotation axis qubit angle' →
      (negligible (angle + angle') = true ↔ (angle' == -angle) = true)) :
    gatesCancel negligible first second = opposed first second := by
  rw [Bool.eq_iff_iff]
  rcases first.rotation_or_not with ⟨axis, qubit, angle, rotation⟩ | other
  · rw [gatesCancel_rotation_iff rotation, opposed_rotation_iff rotation]
    constructor
    · rintro ⟨angle', rotation', small⟩
      exact ⟨angle', rotation', (separate axis qubit angle angle' rotation rotation').mp small⟩
    · rintro ⟨angle', rotation', opposite⟩
      exact ⟨angle', rotation', (separate axis qubit angle angle' rotation rotation').mpr opposite⟩
  · rw [gatesCancel_iff_of_not_rotation other, opposed_iff_of_not_rotation other]

end Reduction

end Peephole
