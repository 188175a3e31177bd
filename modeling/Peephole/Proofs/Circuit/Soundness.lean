import Peephole.Circuit.Builder
import Peephole.Optimizer.Basic
import Peephole.Program.Basic
import Peephole.Proofs.Circuit.Batch

/-!
# Circuits are sound wherever they come from

Every way to a circuit begins with an empty one that has a qubit and adds gates to it, each of which
is judged on its own (`Sound.extend`). So circuits are sound that are read from documents and
programs (`sound_of_ofDatum`, `sound_of_ofProgram`), that are built from sound ones, and that an
optimizer makes of sound ones, be it in one run or round after round (`Sound.of_rounds`).
-/

namespace Peephole

namespace Circuit

/-- Labels are no part of what makes a circuit sound. -/
theorem Sound.relabelled {α : Type} {circuit : Circuit α} (sound : circuit.Sound)
    (labels : Labels) : { circuit with labels := labels }.Sound :=
  ⟨sound.hasQubit, sound.fitting, sound.admitted, sound.counted⟩

/-! ## Circuits of circuits -/

section Building

variable {α : Type} [Angle α]

theorem Sound.of_extendAll {circuit longer : Circuit α} (sound : circuit.Sound)
    {given : List (Except Fault (Gate α))} (extended : circuit.extendAll given = .ok longer) :
    longer.Sound := by
  have kept := sound.extend given
  rwa [extend_of_extendAll extended] at kept

theorem Sound.of_withGates {circuit other : Circuit α} (sound : circuit.Sound)
    {gates : List (Gate α)} (built : circuit.withGates gates = .ok other) : other.Sound :=
  (sound_empty circuit.registers circuit.labels sound.hasQubit).of_extendAll built

theorem Sound.of_compose {first second composed : Circuit α} (sound : first.Sound)
    (built : first.compose second = .ok composed) : composed.Sound := by
  unfold compose at built
  split at built
  · cases built
  · have start : (empty ⟨first.registers.qubits,
        max first.registers.clbits second.registers.clbits⟩ first.labels : Circuit α).Sound :=
      sound_empty _ _ sound.hasQubit
    exact start.of_extendAll built

theorem Sound.of_inverse {circuit inverse : Circuit α} (sound : circuit.Sound)
    (built : circuit.inverse = .ok inverse) : inverse.Sound :=
  (sound_empty circuit.registers circuit.labels sound.hasQubit).of_extendAll built

end Building

/-! ## Circuits that are read -/

theorem sound_of_blank {numQubits numClbits name annotations : Datum} {circuit : Circuit Float}
    (made : blank numQubits numClbits name annotations = .ok circuit) : circuit.Sound := by
  obtain ⟨qubits, -, made⟩ := bind_eq_ok made
  obtain ⟨clbits, -, made⟩ := bind_eq_ok made
  obtain ⟨registers, widths, made⟩ := bind_eq_ok made
  obtain ⟨notes, -, made⟩ := bind_eq_ok made
  obtain rfl := Except.ok.inj made
  exact sound_empty registers _ (Registers.eq_of_ofWidths widths).1

theorem Sound.extendFrom {circuit : Circuit Float} (sound : circuit.Sound) (gates : Datum) :
    (circuit.extendFrom gates).1.Sound := by
  unfold Circuit.extendFrom
  split
  · exact sound.extend _
  · exact sound

theorem sound_of_ofParts {parts : Parts} {circuit : Circuit Float}
    (made : ofParts parts = .ok circuit) : circuit.Sound := by
  obtain ⟨empty, blank, made⟩ := bind_eq_ok made
  have full : (empty.extendFrom parts.gates).1.Sound :=
    (sound_of_blank blank).extendFrom parts.gates
  split at made
  · rename_i extended
    rw [extended] at full
    obtain rfl := Except.ok.inj made
    exact full
  · cases made

theorem sound_of_ofDatum {datum : Datum} {circuit : Circuit Float}
    (made : ofDatum datum = .ok circuit) : circuit.Sound := by
  obtain ⟨fields, -, made⟩ := bind_eq_ok made
  split at made
  · cases made
  · obtain ⟨items, -, made⟩ := bind_eq_ok made
    obtain ⟨gates, -, made⟩ := bind_eq_ok made
    obtain ⟨name, -, made⟩ := bind_eq_ok made
    obtain ⟨empty, blank, made⟩ := bind_eq_ok made
    exact (sound_of_blank blank).of_extendAll made

theorem sound_of_ofProgram {program : Program} {circuit : Circuit Float}
    (made : ofProgram program = .ok circuit) : circuit.Sound := by
  obtain ⟨registers, widths, made⟩ := bind_eq_ok made
  exact (sound_empty registers _ (Registers.eq_of_ofWidths widths).1).of_extendAll made

/-! ## Circuits that are added to -/

theorem Sound.add {circuit : Circuit Float} (sound : circuit.Sound) (kind qubits : Datum)
    (params : Option Datum) : (circuit.add kind qubits params).1.Sound :=
  sound.extend _

theorem Sound.measureAll {circuit : Circuit Float} (sound : circuit.Sound) :
    circuit.measureAll.1.Sound := by
  rw [measureAll_eq]
  exact sound.extend _

theorem Sound.build {circuit : Circuit Float} (sound : circuit.Sound) (builder : Builder)
    (arguments : List Datum) : (circuit.build builder arguments).1.Sound := by
  unfold Circuit.build
  split
  · split
    · exact sound.extend _
    · exact sound
  · exact sound.extend _
  · exact sound.extend _
  · exact sound.extend _
  · exact sound.measureAll
  · exact sound
  · exact sound

/-! ## Circuits that are optimized -/

theorem Sound.of_optimize {optimizer : Optimizer Float} {circuit optimized : Circuit Float}
    (sound : circuit.Sound) (made : optimizer.optimize circuit = .ok optimized) :
    optimized.Sound := by
  obtain ⟨optimization, ran, made⟩ := bind_eq_ok made
  obtain ⟨⟨final, records⟩, -, ran⟩ := bind_eq_ok ran
  obtain ⟨rebuilt, built, ran⟩ := bind_eq_ok ran
  obtain rfl := Except.ok.inj ran
  obtain rfl := Except.ok.inj made
  exact sound.of_withGates built

theorem Sound.of_rounds {optimizer : Optimizer Float} {limit : Nat}
    {circuit optimized : Circuit Float} (sound : circuit.Sound)
    (made : optimizer.rounds limit circuit = .ok optimized) : optimized.Sound := by
  induction limit generalizing circuit with
  | zero =>
      obtain rfl := Except.ok.inj made
      exact sound
  | succ limit ih =>
      obtain ⟨reduced, round, made⟩ := bind_eq_ok made
      split at made
      · obtain rfl := Except.ok.inj made
        exact sound.of_optimize round
      · exact ih (sound.of_optimize round) made

end Circuit

end Peephole
