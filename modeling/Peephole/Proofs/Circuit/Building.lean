import Peephole.Circuit.Basic
import Peephole.Proofs.Gate.Inverse

/-!
# Circuits that hold what their registers admit

A circuit is well formed when every gate lies in its registers and the count of two-qubit gates
agrees with the list; building goes through `append`, which checks the one and keeps up the other,
so whatever is built is well formed (`wellFormed_extend`). Over such circuits the derived ones need
not be checked again: `withGates`, `inverse` and `compose` succeed and are given here without the
checks (`withGates_eq`, `inverse_eq`, `compose_eq_of_width`).
-/

namespace Peephole

variable {α : Type}

/-! ## Admission to registers -/

namespace Registers

theorem outside_eq_false_iff {size : Nat} {index : Int} :
    outside size index = false ↔ 0 ≤ index ∧ index < size := by
  simp only [outside, Bool.or_eq_false_iff, decide_eq_false_iff_not]
  omega

/-- Registers admit a gate exactly if all its operands lie in them. -/
theorem fault?_eq_none_iff [Angle α] {registers : Registers} {gate : Gate α} :
    registers.fault? gate = none ↔
      (∀ qubit ∈ gate.qubits, 0 ≤ qubit ∧ qubit < registers.qubits) ∧
        ∀ clbit ∈ gate.clbits, 0 ≤ clbit ∧ clbit < registers.clbits := by
  have within : ∀ (size : Nat) (indices : List Int),
      indices.find? (outside size) = none ↔ ∀ index ∈ indices, 0 ≤ index ∧ index < size := by
    intro size indices
    simp only [List.find?_eq_none, Bool.not_eq_true, outside_eq_false_iff]
  rw [← within, ← within, fault?]
  cases gate.qubits.find? (outside registers.qubits) with
  | some qubit => simp
  | none =>
      cases gate.clbits.find? (outside registers.clbits) with
      | some clbit => simp
      | none => simp

theorem fault?_eq_none_of_sameOperands [Angle α] {registers : Registers} {gate origin : Gate α}
    (same : gate.SameOperands origin) (admitted : registers.fault? origin = none) :
    registers.fault? gate = none := by
  rw [fault?_eq_none_iff] at admitted ⊢
  rw [same.qubits, same.clbits]
  exact admitted

theorem fault?_eq_none_of_wider [Angle α] {registers wider : Registers} {gate : Gate α}
    (admitted : registers.fault? gate = none) (qubits : registers.qubits ≤ wider.qubits)
    (clbits : registers.clbits ≤ wider.clbits) : wider.fault? gate = none := by
  rw [fault?_eq_none_iff] at admitted ⊢
  refine ⟨fun qubit member => ?_, fun clbit member => ?_⟩
  · have inside := admitted.1 qubit member
    omega
  · have inside := admitted.2 clbit member
    omega

end Registers

/-! ## Well-formed circuits -/

namespace Circuit

/-- Every gate lies in the registers, and the two-qubit gates are counted. -/
structure WellFormed [Angle α] (circuit : Circuit α) : Prop where
  admitted : ∀ gate ∈ circuit.gates, circuit.registers.fault? gate = none
  counted : circuit.twoQubitCount = circuit.gates.countP Gate.isTwoQubit

/-- The circuit with other gates, which are not checked. -/
def replaceGates (circuit : Circuit α) (gates : List (Gate α)) : Circuit α :=
  { circuit with gates := gates, twoQubitCount := gates.countP Gate.isTwoQubit }

@[simp]
theorem gates_replaceGates (circuit : Circuit α) (gates : List (Gate α)) :
    (circuit.replaceGates gates).gates = gates :=
  rfl

@[simp]
theorem replaceGates_replaceGates (circuit : Circuit α) (gates gates' : List (Gate α)) :
    (circuit.replaceGates gates).replaceGates gates' = circuit.replaceGates gates' :=
  rfl

theorem WellFormed.replaceGates_self [Angle α] {circuit : Circuit α}
    (wellFormed : circuit.WellFormed) : circuit.replaceGates circuit.gates = circuit := by
  unfold replaceGates
  rw [← wellFormed.counted]

theorem wellFormed_replaceGates [Angle α] {circuit : Circuit α} {gates : List (Gate α)}
    (admitted : ∀ gate ∈ gates, circuit.registers.fault? gate = none) :
    (circuit.replaceGates gates).WellFormed :=
  ⟨admitted, rfl⟩

theorem wellFormed_of_within [Angle α] {circuit : Circuit α} {gates : List (Gate α)}
    (qubits : ∀ gate ∈ gates, ∀ qubit ∈ gate.qubits,
      0 ≤ qubit ∧ qubit < circuit.registers.qubits)
    (clbits : ∀ gate ∈ gates, ∀ clbit ∈ gate.clbits,
      0 ≤ clbit ∧ clbit < circuit.registers.clbits) :
    (circuit.replaceGates gates).WellFormed :=
  wellFormed_replaceGates fun gate member =>
    Registers.fault?_eq_none_iff.mpr ⟨qubits gate member, clbits gate member⟩

/-! ## Building keeps circuits well formed -/

theorem wellFormed_empty [Angle α] (registers : Registers) (labels : Labels) :
    (empty registers labels : Circuit α).WellFormed :=
  ⟨fun _ member => absurd member List.not_mem_nil, rfl⟩

theorem wellFormed_of_append [Angle α] {circuit longer : Circuit α} {gate : Gate α}
    (wellFormed : circuit.WellFormed) (appended : circuit.append gate = .ok longer) :
    longer.WellFormed := by
  rw [append] at appended
  split at appended
  · cases appended
  · rename_i admitted
    obtain rfl := Except.ok.inj appended
    refine ⟨?_, ?_⟩
    · intro other member
      rcases List.mem_append.mp member with inGates | new
      · exact wellFormed.admitted other inGates
      · obtain rfl := List.mem_singleton.mp new
        exact admitted
    · simp only [push, wellFormed.counted, List.countP_append, List.countP_singleton]

/-- Also the gates before the first one that will not do make a well-formed circuit. -/
theorem wellFormed_extend [Angle α] {circuit : Circuit α} (wellFormed : circuit.WellFormed)
    (gates : List (Except Fault (Gate α))) : (circuit.extend gates).1.WellFormed := by
  induction gates generalizing circuit with
  | nil => exact wellFormed
  | cons given gates ih =>
      cases given with
      | error fault => exact wellFormed
      | ok gate =>
          rw [extend]
          split
          · rename_i longer appended
            exact ih (wellFormed_of_append wellFormed appended)
          · exact wellFormed

/-- If all gates are added, it is without a fault. -/
theorem extend_of_extendAll [Angle α] {circuit longer : Circuit α}
    {gates : List (Except Fault (Gate α))} (extended : circuit.extendAll gates = .ok longer) :
    circuit.extend gates = (longer, none) := by
  rw [extendAll] at extended
  split at extended
  · rename_i same
    obtain rfl := Except.ok.inj extended
    exact same
  · cases extended

theorem wellFormed_of_extendAll [Angle α] {circuit longer : Circuit α}
    (wellFormed : circuit.WellFormed) {gates : List (Except Fault (Gate α))}
    (extended : circuit.extendAll gates = .ok longer) : longer.WellFormed := by
  have kept := wellFormed_extend wellFormed gates
  rwa [extend_of_extendAll extended] at kept

theorem wellFormed_of_inverse [Angle α] {circuit inverse : Circuit α}
    (built : circuit.inverse = .ok inverse) : inverse.WellFormed :=
  wellFormed_of_extendAll (wellFormed_empty _ _) built

theorem wellFormed_of_compose [Angle α] {first second composed : Circuit α}
    (built : first.compose second = .ok composed) : composed.WellFormed := by
  rw [compose] at built
  split at built
  · cases built
  · exact wellFormed_of_extendAll (wellFormed_empty _ _) built

/-! ## The gates of what is built -/

theorem gates_of_append [Angle α] {circuit longer : Circuit α} {gate : Gate α}
    (appended : circuit.append gate = .ok longer) : longer.gates = circuit.gates ++ [gate] := by
  rw [append] at appended
  split at appended
  · cases appended
  · obtain rfl := Except.ok.inj appended
    rfl

theorem gates_of_extend [Angle α] {circuit longer : Circuit α} {gates : List (Gate α)}
    (extended : circuit.extend (gates.map .ok) = (longer, none)) :
    longer.gates = circuit.gates ++ gates := by
  induction gates generalizing circuit with
  | nil =>
      obtain ⟨rfl, -⟩ := Prod.mk.inj extended
      exact (List.append_nil _).symm
  | cons gate gates ih =>
      rw [List.map_cons, extend] at extended
      split at extended
      · rename_i next appended
        rw [ih extended, gates_of_append appended, List.append_assoc, List.singleton_append]
      · cases extended

theorem gates_of_compose [Angle α] {first second composed : Circuit α}
    (built : first.compose second = .ok composed) :
    composed.gates = first.gates ++ second.gates := by
  rw [compose] at built
  split at built
  · cases built
  · have gates := gates_of_extend (extend_of_extendAll built)
    rwa [empty, List.nil_append] at gates

/-! ## Building from gates that are admitted -/

theorem extend_eq [Angle α] (circuit : Circuit α) {gates : List (Gate α)}
    (admitted : ∀ gate ∈ gates, circuit.registers.fault? gate = none) :
    circuit.extend (gates.map .ok) =
      ({ circuit with
          gates := circuit.gates ++ gates
          twoQubitCount := circuit.twoQubitCount + gates.countP Gate.isTwoQubit }, none) := by
  induction gates generalizing circuit with
  | nil => simp [extend]
  | cons gate gates ih =>
      rw [List.forall_mem_cons] at admitted
      have pushed : circuit.append gate = .ok (circuit.push gate) := by
        rw [append, admitted.1]
      rw [List.map_cons, extend, pushed]
      dsimp only
      have rest : ∀ other ∈ gates, (circuit.push gate).registers.fault? other = none :=
        admitted.2
      rw [ih _ rest]
      simp only [push, List.append_assoc, List.singleton_append, List.countP_cons]
      rw [Nat.add_assoc, Nat.add_comm (if gate.isTwoQubit = true then 1 else 0)]

theorem extendAll_empty_eq [Angle α] {registers : Registers} (labels : Labels)
    {gates : List (Gate α)} (admitted : ∀ gate ∈ gates, registers.fault? gate = none) :
    (empty registers labels).extendAll (gates.map .ok) =
      .ok ((empty registers labels).replaceGates gates) := by
  rw [extendAll, extend_eq (empty registers labels) admitted]
  simp [empty, replaceGates]

theorem withGates_eq [Angle α] {circuit : Circuit α} {gates : List (Gate α)}
    (admitted : ∀ gate ∈ gates, circuit.registers.fault? gate = none) :
    circuit.withGates gates = .ok (circuit.replaceGates gates) := by
  rw [withGates, extendAll_empty_eq circuit.labels admitted]
  rfl

/-! ## Mirror images -/

theorem admitted_inverted [Angle α] {registers : Registers} {gates : List (Gate α)}
    (admitted : ∀ gate ∈ gates, registers.fault? gate = none) :
    ∀ gate ∈ gates.reverse.map Gate.inverted, registers.fault? gate = none := by
  intro gate member
  obtain ⟨origin, inGates, rfl⟩ := List.mem_map.mp member
  have original := admitted origin (List.mem_reverse.mp inGates)
  rw [Registers.fault?_eq_none_iff] at original ⊢
  rw [Gate.qubits_inverted, Gate.clbits_inverted]
  exact original

/-- A circuit without measurements has an inverse: the inverse gates in reverse order. -/
theorem inverse_eq [Angle α] {circuit : Circuit α} (wellFormed : circuit.WellFormed)
    (unitary : ∀ gate ∈ circuit.gates, gate.kind ≠ .measure) :
    circuit.inverse =
      .ok (circuit.replaceGates (circuit.gates.reverse.map Gate.inverted)) := by
  have inverses : circuit.gates.reverse.map Gate.inverse =
      (circuit.gates.reverse.map Gate.inverted).map .ok := by
    rw [List.map_map]
    apply List.map_congr_left
    intro gate member
    exact Gate.inverse_eq (unitary gate (List.mem_reverse.mp member))
  rw [inverse, inverses, extendAll_empty_eq circuit.labels (admitted_inverted wellFormed.admitted)]
  rfl

/-- Circuits of one width follow each other, whatever their classical bits. -/
theorem compose_eq_of_width [Angle α] {first second : Circuit α} (wellFormed : first.WellFormed)
    (wellFormed' : second.WellFormed) (width : second.registers.qubits = first.registers.qubits) :
    first.compose second =
      .ok ((empty ⟨first.registers.qubits, max first.registers.clbits second.registers.clbits⟩
        first.labels).replaceGates (first.gates ++ second.gates)) := by
  have admitted : ∀ gate ∈ first.gates ++ second.gates,
      (⟨first.registers.qubits, max first.registers.clbits second.registers.clbits⟩ :
        Registers).fault? gate = none := by
    intro gate member
    rcases List.mem_append.mp member with inFirst | inSecond
    · exact Registers.fault?_eq_none_of_wider (wellFormed.admitted gate inFirst) (Nat.le_refl _)
        (Nat.le_max_left _ _)
    · exact Registers.fault?_eq_none_of_wider (wellFormed'.admitted gate inSecond)
        (Nat.le_of_eq width) (Nat.le_max_right _ _)
  rw [compose, if_neg (not_not_intro width)]
  exact extendAll_empty_eq first.labels admitted

/-- Circuits over the same registers follow each other. -/
theorem compose_eq [Angle α] {first second : Circuit α} (wellFormed : first.WellFormed)
    (wellFormed' : second.WellFormed) (same : second.registers = first.registers) :
    first.compose second = .ok (first.replaceGates (first.gates ++ second.gates)) := by
  have registers : (⟨first.registers.qubits,
      max first.registers.clbits second.registers.clbits⟩ : Registers) = first.registers := by
    rw [same, Nat.max_self]
  rw [compose_eq_of_width wellFormed wellFormed' (congrArg Registers.qubits same), registers]
  rfl

/-! ## Equality -/

/-- A circuit equals itself if its angles do. -/
theorem same_self [BEq α] {circuit : Circuit α}
    (numbers : ∀ gate ∈ circuit.gates, ∀ angle ∈ gate.params, (angle == angle) = true) :
    circuit.same circuit = true := by
  have alike : ∀ gate ∈ circuit.gates, gate.same gate = true :=
    fun gate member => Gate.same_self (numbers gate member)
  have pairs : circuit.gates.zip circuit.gates = circuit.gates.map fun gate => (gate, gate) :=
    List.zipWith_self
  simp only [same, beq_self_eq_true, Bool.true_and, pairs, List.all_map, List.all_eq_true]
  exact alike

end Circuit

end Peephole
