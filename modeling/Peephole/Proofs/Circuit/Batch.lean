import Peephole.Circuit.Document
import Peephole.Proofs.Circuit.Building

/-!
# Circuits after a batch of gates

A sound circuit has a qubit, gates that fit their kinds and lie in its registers, and a true count
of its gates on two qubits. Building keeps it sound, whether all gates of a batch will do or not.
What a batch leaves in a circuit is told without the loop that adds the gates one by one: the gates
that were there and after them the longest prefix of the batch in which every gate is acceptable
(`extend_longestPrefix`). Measuring all qubits is such a batch as well, although no measurement
behind the first one without a classical bit is ever formed (`measureAll_eq`).
-/

namespace Peephole

variable {α : Type}

/-! ## Acceptable gates -/

namespace Registers

/-- The operands of a gate lie in the registers. -/
def Admits (registers : Registers) (gate : Gate α) : Prop :=
  (∀ qubit ∈ gate.qubits, 0 ≤ qubit ∧ qubit < registers.qubits) ∧
    ∀ clbit ∈ gate.clbits, 0 ≤ clbit ∧ clbit < registers.clbits

theorem admits_iff [Angle α] {registers : Registers} {gate : Gate α} :
    registers.Admits gate ↔ registers.fault? gate = none :=
  fault?_eq_none_iff.symm

/-- A batch is given, some of which may be no gates; what is kept is a prefix of it whose gates are
all acceptable, and there is no longer one. -/
structure LongestPrefix (registers : Registers) (given : List (Except Fault (Gate α)))
    (kept : List (Gate α)) : Prop where
  isPrefix : kept.map .ok <+: given
  admitted : ∀ gate ∈ kept, registers.Admits gate
  longest : ∀ other : List (Gate α), other.map .ok <+: given →
    (∀ gate ∈ other, registers.Admits gate) → other.length ≤ kept.length

theorem longestPrefix_nil {registers : Registers} {given : List (Except Fault (Gate α))}
    (refused : ∀ gate, given.head? = some (.ok gate) → ¬ registers.Admits gate) :
    registers.LongestPrefix given [] where
  isPrefix := List.nil_prefix
  admitted := fun _ member => absurd member List.not_mem_nil
  longest := by
    intro other isPrefix admitted
    cases other with
    | nil => exact Nat.le_refl 0
    | cons gate other =>
        obtain ⟨rest, rfl⟩ := isPrefix
        exact absurd (admitted gate (.head _)) (refused gate rfl)

theorem LongestPrefix.cons {registers : Registers} {given : List (Except Fault (Gate α))}
    {kept : List (Gate α)} (longest : registers.LongestPrefix given kept) {gate : Gate α}
    (admitted : registers.Admits gate) :
    registers.LongestPrefix (.ok gate :: given) (gate :: kept) where
  isPrefix := List.cons_prefix_cons.mpr ⟨rfl, longest.isPrefix⟩
  admitted := List.forall_mem_cons.mpr ⟨admitted, longest.admitted⟩
  longest := by
    intro other isPrefix acceptable
    cases other with
    | nil => exact Nat.zero_le _
    | cons first other =>
        exact Nat.succ_le_succ (longest.longest other (List.cons_prefix_cons.mp isPrefix).2
          (List.forall_mem_cons.mp acceptable).2)

theorem eq_of_ofWidths {qubits clbits : Int} {registers : Registers}
    (made : ofWidths qubits clbits = .ok registers) :
    1 ≤ registers.qubits ∧ qubits = registers.qubits ∧ clbits = registers.clbits := by
  unfold ofWidths at made
  split at made
  · cases made
  · split at made
    · cases made
    · obtain rfl := Except.ok.inj made
      dsimp only
      omega

end Registers

/-! ## Sound circuits -/

namespace Circuit

/-- What every circuit that can be built satisfies. The registers are wide enough for one qubit,
and classical bits there may be none. -/
structure Sound (circuit : Circuit α) : Prop where
  hasQubit : 1 ≤ circuit.registers.qubits
  fitting : ∀ gate ∈ circuit.gates, gate.qubits.length = gate.kind.numQubits ∧
    gate.params.length = gate.kind.numParams ∧ gate.clbits.length = gate.kind.numClbits ∧
    gate.qubits.Nodup
  admitted : ∀ gate ∈ circuit.gates, circuit.registers.Admits gate
  counted : circuit.twoQubitCount = circuit.gates.countP Gate.isTwoQubit

theorem sound_iff [Angle α] {circuit : Circuit α} :
    circuit.Sound ↔ 1 ≤ circuit.registers.qubits ∧ circuit.WellFormed := by
  constructor
  · intro sound
    exact ⟨sound.hasQubit, fun gate member => Registers.admits_iff.mp (sound.admitted gate member),
      sound.counted⟩
  · rintro ⟨hasQubit, wellFormed⟩
    exact ⟨hasQubit,
      fun gate _ => ⟨gate.operation.length_qubits, gate.operation.length_params,
        gate.operation.length_clbits, gate.operation.nodup_qubits⟩,
      fun gate member => Registers.admits_iff.mpr (wellFormed.admitted gate member),
      wellFormed.counted⟩

/-! ## What adding gates leaves alone -/

theorem frame_extend [Angle α] (circuit : Circuit α) (given : List (Except Fault (Gate α))) :
    (circuit.extend given).1.registers = circuit.registers ∧
      (circuit.extend given).1.labels = circuit.labels := by
  fun_induction extend circuit given with
  | case1 | case2 | case4 => exact ⟨rfl, rfl⟩
  | case3 circuit gate rest longer appended ih =>
      unfold append at appended
      split at appended
      · cases appended
      · obtain rfl := Except.ok.inj appended
        exact ih

@[simp]
theorem registers_extend [Angle α] (circuit : Circuit α) (given : List (Except Fault (Gate α))) :
    (circuit.extend given).1.registers = circuit.registers :=
  (circuit.frame_extend given).1

@[simp]
theorem labels_extend [Angle α] (circuit : Circuit α) (given : List (Except Fault (Gate α))) :
    (circuit.extend given).1.labels = circuit.labels :=
  (circuit.frame_extend given).2

theorem registers_of_extendAll [Angle α] {circuit longer : Circuit α}
    {given : List (Except Fault (Gate α))} (extended : circuit.extendAll given = .ok longer) :
    longer.registers = circuit.registers := by
  have same := circuit.registers_extend given
  rwa [extend_of_extendAll extended] at same

theorem labels_of_extendAll [Angle α] {circuit longer : Circuit α}
    {given : List (Except Fault (Gate α))} (extended : circuit.extendAll given = .ok longer) :
    longer.labels = circuit.labels := by
  have same := circuit.labels_extend given
  rwa [extend_of_extendAll extended] at same

/-! ## Building keeps circuits sound -/

theorem sound_empty (registers : Registers) (labels : Labels) (hasQubit : 1 ≤ registers.qubits) :
    (empty registers labels : Circuit α).Sound where
  hasQubit := hasQubit
  fitting := fun _ member => absurd member List.not_mem_nil
  admitted := fun _ member => absurd member List.not_mem_nil
  counted := rfl

theorem Sound.extend [Angle α] {circuit : Circuit α} (sound : circuit.Sound)
    (given : List (Except Fault (Gate α))) : (circuit.extend given).1.Sound := by
  obtain ⟨hasQubit, wellFormed⟩ := sound_iff.mp sound
  exact sound_iff.mpr
    ⟨by rw [registers_extend]; exact hasQubit, wellFormed_extend wellFormed given⟩

/-! ## What a batch leaves -/

theorem WellFormed.replaceGates_append_nil [Angle α] {circuit : Circuit α}
    (wellFormed : circuit.WellFormed) : circuit.replaceGates (circuit.gates ++ []) = circuit := by
  rw [List.append_nil, wellFormed.replaceGates_self]

/-- A batch adds its longest acceptable prefix. -/
theorem extend_longestPrefix [Angle α] {circuit : Circuit α} (wellFormed : circuit.WellFormed)
    (given : List (Except Fault (Gate α))) :
    ∃ kept, circuit.registers.LongestPrefix given kept ∧
      (circuit.extend given).1 = circuit.replaceGates (circuit.gates ++ kept) := by
  -- What is kept is added one gate at a time to a circuit that stays well formed.
  fun_induction extend circuit given with
  | case1 | case2 =>
      exact ⟨[], Registers.longestPrefix_nil (fun _ found => by cases found),
        wellFormed.replaceGates_append_nil.symm⟩
  | case3 circuit gate rest longer appended ih =>
      obtain ⟨kept, longest, extended⟩ := ih (wellFormed_of_append wellFormed appended)
      unfold append at appended
      split at appended
      · cases appended
      · rename_i admitted
        obtain rfl := Except.ok.inj appended
        refine ⟨gate :: kept, longest.cons (Registers.admits_iff.mpr admitted), ?_⟩
        rw [extended]
        simp only [push, replaceGates, List.append_assoc, List.singleton_append]
  | case4 circuit gate rest fault appended =>
      have refused : ¬ circuit.registers.Admits gate := by
        intro admits
        rw [append, Registers.admits_iff.mp admits] at appended
        cases appended
      refine ⟨[], Registers.longestPrefix_nil (fun other found => ?_),
        wellFormed.replaceGates_append_nil.symm⟩
      obtain rfl := Except.ok.inj (Option.some.inj found)
      exact refused

/-- A change that fails leaves the circuit as it is. -/
def AllOrNothing (circuit : Circuit α) (change : Circuit α × Option Fault) : Prop :=
  change.2 ≠ none → change.1 = circuit

theorem allOrNothing_unchanged (circuit : Circuit α) (fault : Option Fault) :
    circuit.AllOrNothing (circuit, fault) :=
  fun _ => rfl

theorem allOrNothing_extend_singleton [Angle α] (circuit : Circuit α)
    (given : Except Fault (Gate α)) : circuit.AllOrNothing (circuit.extend [given]) := by
  cases given with
  | error fault => exact allOrNothing_unchanged circuit _
  | ok gate =>
      rw [extend]
      cases circuit.append gate with
      | error fault => exact allOrNothing_unchanged circuit _
      | ok longer => exact fun failed => absurd rfl failed

/-! ## Measuring all qubits -/

/-- Nothing behind a gate that will not do is looked at. -/
theorem extend_append_of_refused [Angle α] {circuit : Circuit α} {gate : Gate α}
    (refused : circuit.registers.fault? gate ≠ none) (front rest : List (Except Fault (Gate α))) :
    circuit.extend (front ++ .ok gate :: rest) = circuit.extend (front ++ [.ok gate]) := by
  induction front generalizing circuit with
  | nil =>
      obtain ⟨fault, found⟩ := Option.ne_none_iff_exists'.mp refused
      simp only [List.nil_append, extend, append, found]
  | cons first front ih =>
      cases first with
      | error fault => rfl
      | ok first =>
          simp only [List.cons_append, extend]
          cases appended : circuit.append first with
          | error fault => rfl
          | ok longer =>
              unfold append at appended
              split at appended
              · cases appended
              · obtain rfl := Except.ok.inj appended
                exact ih refused

/-- Measuring all qubits is adding a measurement of each, as far as that will do. -/
theorem measureAll_eq [Angle α] (circuit : Circuit α) :
    circuit.measureAll = circuit.extend ((measurements circuit.registers.qubits).map .ok) := by
  obtain ⟨⟨qubits, clbits⟩, labels, gates, count⟩ := circuit
  unfold measureAll
  dsimp only
  by_cases enough : qubits ≤ clbits + 1
  · rw [Nat.min_eq_left enough]
  · rw [Nat.min_eq_right (by omega)]
    -- The measurement into the first bit outside the register is the last one that is formed.
    obtain ⟨more, rfl⟩ : ∃ more, qubits = clbits + 1 + more := ⟨qubits - (clbits + 1), by omega⟩
    have split : (measurements (clbits + 1 + more) : List (Gate α)) =
        measurements clbits ++ ⟨.measure clbits clbits, []⟩ ::
          (List.range more).map fun offset =>
            ⟨.measure ((clbits + 1 + offset : Nat) : Int) ((clbits + 1 + offset : Nat) : Int),
              []⟩ := by
      unfold measurements
      rw [List.range_add, List.range_succ]
      simp
    have last : (measurements (clbits + 1) : List (Gate α)) =
        measurements clbits ++ [⟨.measure clbits clbits, []⟩] := by
      unfold measurements
      rw [List.range_succ]
      simp
    rw [split, last, List.map_append, List.map_append, List.map_cons, List.map_cons, List.map_nil]
    refine (extend_append_of_refused ?_ _ _).symm
    intro admitted
    have inside := (Registers.fault?_eq_none_iff.mp admitted).2 clbits (.head _)
    exact absurd inside.2 (Int.lt_irrefl _)

end Circuit

end Peephole
