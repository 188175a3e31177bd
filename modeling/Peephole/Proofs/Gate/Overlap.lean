import Peephole.Reduction.Cancellation

/-!
# Gates on common qubits

Two gates overlap when some qubit belongs to both. Whether they do depends on the sets of their
qubits alone, and a gate that cancels another one acts on exactly the qubits of the other, so
whatever stays clear of the first stays clear of the second.
-/

namespace Peephole

variable {α : Type}

/-! ## Overlapping -/

namespace Gate

theorem overlaps_iff {left right : Gate α} :
    left.overlaps right = true ↔ ∃ qubit ∈ left.qubits, qubit ∈ right.qubits := by
  simp [Gate.overlaps, Operation.overlaps, List.any_eq_true]

theorem overlaps_eq_false_iff {left right : Gate α} :
    left.overlaps right = false ↔ ∀ qubit ∈ left.qubits, qubit ∉ right.qubits := by
  rw [← Bool.not_eq_true, overlaps_iff]
  simp

theorem overlaps_comm (left right : Gate α) : left.overlaps right = right.overlaps left := by
  rw [Bool.eq_iff_iff, overlaps_iff, overlaps_iff]
  constructor
  · rintro ⟨qubit, inLeft, inRight⟩
    exact ⟨qubit, inRight, inLeft⟩
  · rintro ⟨qubit, inRight, inLeft⟩
    exact ⟨qubit, inLeft, inRight⟩

theorem exists_mem_qubits (gate : Gate α) : ∃ qubit, qubit ∈ gate.qubits := by
  obtain ⟨operation, _⟩ := gate
  cases operation with
  | fixed _ qubit | rotation _ qubit _ | measure qubit _ => exact ⟨qubit, .head _⟩
  | pair _ first _ _ => exact ⟨first, .head _⟩

theorem overlaps_self (gate : Gate α) : gate.overlaps gate = true := by
  obtain ⟨qubit, member⟩ := gate.exists_mem_qubits
  exact overlaps_iff.mpr ⟨qubit, member, member⟩

/-- Two gates act on the same qubits, in whatever order. -/
def SameQubits (left right : Gate α) : Prop :=
  ∀ qubit, qubit ∈ left.qubits ↔ qubit ∈ right.qubits

theorem SameQubits.overlaps_eq {left right : Gate α} (same : left.SameQubits right)
    (other : Gate α) : left.overlaps other = right.overlaps other := by
  rw [Bool.eq_iff_iff, overlaps_iff, overlaps_iff]
  constructor
  · rintro ⟨qubit, inLeft, inOther⟩
    exact ⟨qubit, (same qubit).mp inLeft, inOther⟩
  · rintro ⟨qubit, inRight, inOther⟩
    exact ⟨qubit, (same qubit).mpr inRight, inOther⟩

theorem SameQubits.overlaps_right_eq {left right : Gate α} (same : left.SameQubits right)
    (other : Gate α) : other.overlaps left = other.overlaps right := by
  rw [overlaps_comm other left, overlaps_comm other right, same.overlaps_eq]

theorem SameQubits.overlaps {left right : Gate α} (same : left.SameQubits right) :
    left.overlaps right = true := by
  rw [same.overlaps_eq, overlaps_self]

/-- Two gates differ in nothing but angles and annotations. -/
structure SameOperands (left right : Gate α) : Prop where
  kind : left.kind = right.kind
  qubits : left.qubits = right.qubits
  clbits : left.clbits = right.clbits

theorem SameOperands.refl (gate : Gate α) : gate.SameOperands gate :=
  ⟨rfl, rfl, rfl⟩

theorem SameOperands.trans {first second third : Gate α} (left : first.SameOperands second)
    (right : second.SameOperands third) : first.SameOperands third :=
  ⟨left.kind.trans right.kind, left.qubits.trans right.qubits, left.clbits.trans right.clbits⟩

theorem SameOperands.sameQubits {left right : Gate α} (same : left.SameOperands right) :
    left.SameQubits right := by
  intro qubit
  rw [same.qubits]

theorem rotation_or_not (gate : Gate α) :
    (∃ axis qubit angle, gate.operation = .rotation axis qubit angle) ∨
      gate.kind.isRotation = false := by
  obtain ⟨operation, annotations⟩ := gate
  cases operation with
  | rotation axis qubit angle => exact Or.inl ⟨axis, qubit, angle, rfl⟩
  | fixed | pair | measure => exact Or.inr rfl

theorem operation_ne_rotation {gate : Gate α} {axis : Axis} {qubit : Int} {angle : α}
    (other : gate.kind.isRotation = false) : gate.operation ≠ .rotation axis qubit angle := by
  intro rotation
  rw [Gate.kind, rotation] at other
  cases other

/-- A gate with the operands of a rotation is a rotation. -/
theorem SameOperands.exists_rotation {left right : Gate α} {axis : Axis} {qubit : Int} {angle : α}
    (same : left.SameOperands right) (rotation : left.operation = .rotation axis qubit angle) :
    ∃ angle', right.operation = .rotation axis qubit angle' := by
  have kind := same.kind
  have qubits := same.qubits
  rw [Gate.kind, Gate.kind, rotation] at kind
  rw [Gate.qubits, Gate.qubits, rotation] at qubits
  cases shape : right.operation with
  | rotation axis' qubit' angle' =>
      rw [shape] at kind qubits
      obtain rfl := GateKind.rotation.inj kind
      obtain rfl := List.singleton_inj.mp qubits
      exact ⟨angle', rfl⟩
  | fixed | pair | measure =>
      rw [shape] at kind
      cases kind

/-- A rotation overlaps exactly the gates on its qubit. -/
theorem overlaps_of_rotation {gate : Gate α} {axis : Axis} {qubit : Int} {angle : α}
    (rotation : gate.operation = .rotation axis qubit angle) (other : Gate α) :
    gate.overlaps other = other.qubits.contains qubit := by
  have single : gate.operation.qubits = [qubit] := by rw [rotation]; rfl
  simp [Gate.overlaps, Operation.overlaps, single]

theorem overlaps_of_rotations {left right : Gate α} {axis axis' : Axis} {qubit : Int}
    {angle angle' : α} (rotation : left.operation = .rotation axis qubit angle)
    (rotation' : right.operation = .rotation axis' qubit angle') :
    left.overlaps right = true := by
  rw [overlaps_of_rotation rotation]
  simp [Gate.qubits, rotation', Operation.qubits]

end Gate

/-! ## Cancelling -/

theorem GateKind.inverse?_ne_measure (kind : GateKind) : kind.inverse? ≠ some .measure := by
  cases kind with
  | fixed kind => cases kind <;> simp [GateKind.inverse?, FixedKind.inverse?]
  | rotation | pair | measure => simp [GateKind.inverse?]

theorem GateKind.isRotation_of_inverse?_eq_some {kind kind' : GateKind}
    (inverse : kind.inverse? = some kind') : kind'.isRotation = false := by
  cases kind with
  | fixed kind =>
      obtain ⟨inverse, -, rfl⟩ := Option.map_eq_some_iff.mp inverse
      rfl
  | pair kind =>
      obtain rfl := Option.some.inj inverse
      rfl
  | rotation | measure => cases inverse

namespace Operation

theorem mem_operandKey {operation : Operation α} {qubit : Int} :
    qubit ∈ operation.operandKey ↔ qubit ∈ operation.qubits := by
  cases operation with
  | fixed | rotation | measure => rfl
  | pair kind first second distinct =>
      simp only [operandKey, qubits]
      split
      · rcases Int.le_total first second with le | le
        · rw [Int.min_eq_left le, Int.max_eq_right le]
        · rw [Int.min_eq_right le, Int.max_eq_left le]
          simp [or_comm]
      · rfl

end Operation

namespace Reduction

/-- A relation by which gates cancel only gates on the same qubits. -/
def OnSameQubits (cancels : Gate α → Gate α → Bool) : Prop :=
  ∀ {first second : Gate α}, cancels first second = true → first.SameQubits second

/-- What cancels a rotation is a rotation about the same axis on the same qubit whose angle
makes up for the first one. -/
theorem gatesCancel_rotation_iff [Add α] {negligible : α → Bool} {first second : Gate α}
    {axis : Axis} {qubit : Int} {angle : α}
    (rotation : first.operation = .rotation axis qubit angle) :
    gatesCancel negligible first second = true ↔
      ∃ angle', second.operation = .rotation axis qubit angle' ∧
        negligible (angle + angle') = true := by
  simp only [gatesCancel, undoes, rotation]
  cases second.operation with
  | rotation axis' qubit' angle' =>
      simp only [Bool.and_eq_true, beq_iff_eq, Operation.rotation.injEq]
      constructor
      · rintro ⟨⟨rfl, rfl⟩, small⟩
        exact ⟨angle', ⟨rfl, rfl, rfl⟩, small⟩
      · rintro ⟨_, ⟨rfl, rfl, rfl⟩, small⟩
        exact ⟨⟨rfl, rfl⟩, small⟩
  | fixed | pair | measure => simp

/-- What cancels a gate that is no rotation has the inverse kind and the same operands, up to
order where order does not count. -/
theorem gatesCancel_iff_of_not_rotation [Add α] {negligible : α → Bool}
    {first second : Gate α} (other : first.kind.isRotation = false) :
    gatesCancel negligible first second = true ↔
      first.kind.inverse? = some second.kind ∧
        first.operation.operandKey = second.operation.operandKey := by
  obtain ⟨operation, _⟩ := first
  cases operation with
  | rotation => simp [Gate.kind, Operation.kind, GateKind.isRotation] at other
  | fixed | pair | measure => simp [gatesCancel, undoes]

theorem gatesCancel_onSameQubits [Add α] (negligible : α → Bool) :
    OnSameQubits (gatesCancel (α := α) negligible) := by
  intro first second cancels qubit
  cases shape : first.operation with
  | rotation axis qubit' angle =>
      obtain ⟨angle', rotation, _⟩ := (gatesCancel_rotation_iff shape).mp cancels
      simp [Gate.qubits, shape, rotation, Operation.qubits]
  | fixed | pair | measure =>
      have other : first.kind.isRotation = false := by
        simp [Gate.kind, shape, Operation.kind, GateKind.isRotation]
      have keys := ((gatesCancel_iff_of_not_rotation other).mp cancels).2
      rw [Gate.qubits, ← Operation.mem_operandKey, keys, Operation.mem_operandKey]

/-- A measurement cancels nothing. -/
theorem kind_ne_measure_of_gatesCancel [Add α] {negligible : α → Bool} {first second : Gate α}
    (cancels : gatesCancel negligible first second = true) : first.kind ≠ .measure := by
  intro measured
  have other : first.kind.isRotation = false := by rw [measured]; rfl
  have kinds := ((gatesCancel_iff_of_not_rotation other).mp cancels).1
  rw [measured] at kinds
  cases kinds

theorem kind_ne_measure_of_gatesCancel_right [Add α] {negligible : α → Bool}
    {first second : Gate α} (cancels : gatesCancel negligible first second = true) :
    second.kind ≠ .measure := by
  intro measured
  rcases first.rotation_or_not with ⟨axis, qubit, angle, rotation⟩ | other
  · obtain ⟨angle', rotation', -⟩ := (gatesCancel_rotation_iff rotation).mp cancels
    rw [Gate.kind, rotation'] at measured
    cases measured
  · have kinds := ((gatesCancel_iff_of_not_rotation other).mp cancels).1
    rw [measured] at kinds
    exact GateKind.inverse?_ne_measure _ kinds

end Reduction

end Peephole
