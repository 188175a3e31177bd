import Peephole.Cost.Document
import Peephole.Proofs.Compilation.Duration
import Peephole.Proofs.Gate.Document
import Peephole.Proofs.Session.History

/-!
# Reachable circuits are never refused

A circuit is reachable if it comes out of a history of steps, on circuits read from programs or from
nothing. Everything that optimizing and measuring may stumble over was judged when the circuit was
built, and is kept by the passes: operands lie in the registers and are as many as the kind takes,
layers are not empty. The rates were judged when the device was made.
`Serviceable` puts this together, for whatever angles; a reachable circuit is serviceable on every
device, and so is what an optimizer makes of it (`reachable_optimizes_and_measures`).
-/

namespace Peephole

/-- What optimizing and measuring a circuit on a device rely on. -/
structure Circuit.Serviceable (device : Device Float) (circuit : Circuit Float) : Prop where
  sound : circuit.Sound
  /-- Every gate can be made anew of what it has. -/
  remade : ∀ gate ∈ circuit.gates,
    Gate.ofItems gate.kind (gate.qubits.map .int) (gate.params.map .float)
      (gate.clbits.map .int) (.map gate.annotations) = .ok gate
  /-- The registers take all gates again. -/
  refilled : circuit.withGates circuit.gates = .ok circuit
  pairs : ∀ gate ∈ circuit.gates, gate.isTwoQubit = true →
    ∃ first second, gate.qubits = [first, second]
  layers : ∀ layer ∈ Schedule.layers circuit.gates, layer.gates ≠ []
  rates : ∀ rate ∈ Cost.ratesOf device circuit.gates, 0.0 ≤ rate ∧ rate < 1.0
  measured : ∀ settings fallbackRate, Cost.evaluate settings fallbackRate (some device) circuit =
    .ok (Cost.report device circuit)

namespace Circuit

theorem exists_qubits_of_isTwoQubit {gate : Gate Float} (isPair : gate.isTwoQubit = true) :
    ∃ first second, gate.qubits = [first, second] := by
  obtain ⟨operation, annotations⟩ := gate
  cases operation with
  | pair kind first second => exact ⟨first, second, rfl⟩
  | fixed | rotation | measure => cases isPair

/-- A circuit whose gates were all judged is serviceable on a device whose rates were. -/
theorem Sound.serviceable {circuit : Circuit Float} (sound : circuit.Sound)
    {device : Device Float} (calibrated : device.Calibrated) : circuit.Serviceable device := by
  have wellFormed := (sound_iff.mp sound).2
  refine ⟨sound, ?_, ?_, fun _ _ => exists_qubits_of_isTwoQubit, ?_, ?_, fun _ _ => rfl⟩
  · intro gate member
    exact Gate.ofItems_operands gate.operation (Datum.annotations_map gate.annotations)
  · rw [withGates_eq wellFormed.admitted, wellFormed.replaceGates_self]
  · intro layer member
    exact Schedule.ne_nil_of_mem_blocks circuit.gates layer.gates
      (Schedule.gates_mem_blocks member)
  · intro rate member
    obtain ⟨above, below⟩ := Bool.and_eq_true_iff.mp
      (Cost.admits_of_mem_ratesOf calibrated circuit.gates rate member)
    exact ⟨of_decide_eq_true above, of_decide_eq_true below⟩

/-! ## Reachable circuits -/

/-- Circuits that come out of a history of steps. It may begin with circuits that were read from
programs. -/
def Reachable (circuit : Circuit Float) : Prop :=
  ∃ (settings : Settings) (start : Session) (steps : List Session.Step) (slot : Key),
    (∀ entry ∈ start, ∃ program, ofProgram program = .ok entry.2) ∧
      (slot, circuit) ∈
        steps.foldl (fun session step => (session.perform settings step).1) start

theorem Reachable.sound {circuit : Circuit Float} (reachable : circuit.Reachable) :
    circuit.Sound := by
  obtain ⟨settings, start, steps, slot, programs, member⟩ := reachable
  have read : start.Sound := by
    intro entry given
    obtain ⟨program, made⟩ := programs entry given
    exact sound_of_ofProgram made
  exact read.performAll settings steps _ member

end Circuit

namespace Optimizer

/-- Whatever passes an optimizer has, whatever the tolerance and however many rounds are admitted,
it makes of a reachable circuit another one over the same registers with the same labels, and both
can be measured on every device. -/
theorem reachable_optimizes_and_measures {circuit : Circuit Float} (reachable : circuit.Reachable)
    {rules : Device.Rules} {asked : Settings} {maker : Maker} {arguments : Arguments}
    {device : Device Float} (made : Device.ofRequest rules asked maker arguments = .ok device)
    (passes : List Pass) (tolerance : Float) (limit : Int) :
    circuit.Serviceable device ∧
      (∃ optimization, run ⟨passes, some tolerance⟩ circuit = .ok optimization ∧
        optimization.circuit.registers = circuit.registers ∧
        optimization.circuit.labels = circuit.labels ∧
        optimization.circuit.Serviceable device) ∧
      ∃ optimized, toFixedPoint ⟨passes, some tolerance⟩ limit circuit = .ok optimized ∧
        optimized.registers = circuit.registers ∧ optimized.labels = circuit.labels ∧
        optimized.Serviceable device := by
  have calibrated := Device.calibrated_of_ofRequest made
  have sound := reachable.sound
  have wellFormed := (Circuit.sound_iff.mp sound).2
  refine ⟨sound.serviceable calibrated, ?_, ?_⟩
  · have optimized := sound.of_optimize (optimize_eq wellFormed passes tolerance)
    exact ⟨_, run_eq wellFormed passes tolerance, rfl, rfl, optimized.serviceable calibrated⟩
  · have settled := toFixedPoint_eq wellFormed passes tolerance limit
    exact ⟨_, settled, rfl, rfl, (sound.of_rounds settled).serviceable calibrated⟩

/-- Two turns without bound in opposite directions, and another one. -/
def unbounded : Session.Step :=
  ⟨.ok (.text "a"), none, .text "a", .ok (.create (.document (.record [("num_qubits", .int 2),
    ("gates", .list [
      .record [("kind", .text "RZ"), ("qubits", .list [.int 0]),
        ("params", .list [.float (Binary64.infinity false)])],
      .record [("kind", .text "CX"), ("qubits", .list [.int 1, .int 0])],
      .record [("kind", .text "RX"), ("qubits", .list [.int 1]),
        ("params", .list [.float (Binary64.infinity false)])],
      .record [("kind", .text "RX"), ("qubits", .list [.int 1]),
        ("params", .list [.float (Binary64.infinity true)])]])])))⟩

/-- The opposite turns merge into one whose angle is no number. -/
theorem unbounded_optimizes_and_measures :
    ∃ circuit : Circuit Float, circuit.Reachable ∧
      circuit.gates.map Gate.params = [[Binary64.infinity false], [], [Binary64.infinity false],
        [Binary64.infinity true]] ∧
      ∃ device, Device.ofRequest (fun _ => none) Settings.standard .line Compiler.slowReading =
          .ok device ∧
        circuit.Serviceable device ∧
        ∃ optimization, run ⟨[.mergeRotations], some 1e-10⟩ circuit = .ok optimization ∧
          optimization.circuit.Serviceable device := by
  obtain ⟨device, made, -⟩ := Compiler.exists_slowReading
  have created : ∃ circuit, Session.after Settings.standard [unbounded] =
      [(Key.text "a", circuit)] := ⟨_, rfl⟩
  obtain ⟨circuit, history⟩ := created
  have reachable : circuit.Reachable := by
    refine ⟨Settings.standard, [], [unbounded], .text "a", nofun, ?_⟩
    change _ ∈ Session.after Settings.standard [unbounded]
    rw [history]
    exact .head _
  have turns : (Session.after Settings.standard [unbounded]).map
      (fun entry => entry.2.gates.map Gate.params) = [[[Binary64.infinity false], [],
        [Binary64.infinity false], [Binary64.infinity true]]] := by
    decide +kernel
  rw [history] at turns
  obtain ⟨serviceable, ⟨optimization, ran, -, -, serviceable'⟩, -⟩ :=
    reachable_optimizes_and_measures reachable made [.mergeRotations] 1e-10 0
  exact ⟨circuit, reachable, List.head_eq_of_cons_eq turns, device, made, serviceable,
    optimization, ran, serviceable'⟩

end Optimizer

end Peephole
