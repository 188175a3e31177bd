import Peephole.Analysis.Basic
import Peephole.Proofs.Schedule.Reversal
import Peephole.Proofs.Session.History

/-!
# The inverse of a circuit costs what the circuit costs

The inverse of a circuit without measurements holds, from the last gate to the first, gates on the
same qubits. So it has the depth, the critical path, the gate counts and the use of every qubit that
the circuit has, although its layers are other sets of gates in general. A circuit with a
measurement has no inverse; the fault is that of the measurement, and a session in which the inverse
is asked for goes on with the circuits that it had (`Circuit.inverse_keeps_figures`).
-/

namespace Peephole

variable {α : Type}

/-! ## Figures of reversed gate lists -/

section Figures

variable [Angle α]

theorem Gate.isTwoQubit_inverted (gate : Gate α) : gate.inverted.isTwoQubit = gate.isTwoQubit := by
  have arity : ∀ other : Gate α, other.isTwoQubit = (other.qubits.length == 2) := by
    intro other
    rw [Gate.isTwoQubit, GateKind.isTwoQubit, Gate.qubits, Operation.length_qubits]
  rw [arity, arity, Gate.qubits_inverted]

theorem countP_isTwoQubit_inverted (gates : List (Gate α)) :
    (gates.reverse.map Gate.inverted).countP Gate.isTwoQubit = gates.countP Gate.isTwoQubit := by
  rw [List.countP_map, ← (List.reverse_perm gates).countP_eq]
  exact List.countP_congr fun gate _ => by rw [Function.comp_apply, Gate.isTwoQubit_inverted]

/-- The inverses act on the same qubits, each as often as the gates do. -/
theorem perm_qubits_inverted (gates : List (Gate α)) :
    ((gates.reverse.map Gate.inverted).flatMap Gate.qubits).Perm (gates.flatMap Gate.qubits) := by
  rw [List.flatMap_map]
  simp only [Gate.qubits_inverted]
  exact (List.reverse_perm gates).flatMap_right Gate.qubits

theorem depth_inverted (gates : List (Gate α)) :
    Schedule.depth (gates.reverse.map Gate.inverted) = Schedule.depth gates := by
  rw [Schedule.depth_map Gate.qubits_inverted, Schedule.depth_reverse]

theorem criticalPathLength_inverted (gates : List (Gate α)) :
    Schedule.criticalPathLength (gates.reverse.map Gate.inverted) =
      Schedule.criticalPathLength gates := by
  rw [Schedule.criticalPathLength_map Gate.qubits_inverted, Schedule.criticalPathLength_reverse]

end Figures

namespace Circuit

/-- A qubit is used as often in circuits of one width whose gates act on the same qubits equally
often. -/
theorem qubitUsage_eq_of_perm {circuit circuit' : Circuit α}
    (width : circuit'.registers = circuit.registers)
    (perm : (circuit'.gates.flatMap Gate.qubits).Perm (circuit.gates.flatMap Gate.qubits)) :
    Analysis.qubitUsage circuit' = Analysis.qubitUsage circuit := by
  unfold Analysis.qubitUsage
  rw [width]
  exact List.map_congr_left fun qubit _ => perm.count_eq (qubit : Int)

/-! ## Circuits without an inverse -/

variable [Angle α]

/-- Adding inverses one by one stops at the first measurement at the latest, and not before. -/
theorem extend_inverses_of_measure {circuit : Circuit α} {gates : List (Gate α)}
    (admitted : ∀ gate ∈ gates, circuit.registers.fault? gate = none)
    (measured : ∃ gate ∈ gates, gate.kind = .measure) :
    (circuit.extend (gates.map Gate.inverse)).2 = some (.noInverse .measure) := by
  induction gates generalizing circuit with
  | nil => simp at measured
  | cons gate rest ih =>
      rw [List.forall_mem_cons] at admitted
      by_cases isMeasure : gate.kind = .measure
      · have refused : gate.inverse = .error (.noInverse .measure) := by
          rw [Gate.inverse, Operation.inverse?_eq_none_iff.mpr isMeasure, isMeasure]
        rw [List.map_cons, refused, extend]
      · have later : ∃ other ∈ rest, other.kind = .measure := by
          simpa [isMeasure] using measured
        have inRegisters : circuit.registers.fault? gate.inverted = none := by
          have original := admitted.1
          rw [Registers.fault?_eq_none_iff] at original ⊢
          rwa [Gate.qubits_inverted, Gate.clbits_inverted]
        have appended : circuit.append gate.inverted = .ok (circuit.push gate.inverted) := by
          rw [append, inRegisters]
        have admittedRest : ∀ other ∈ rest,
            (circuit.push gate.inverted).registers.fault? other = none := admitted.2
        rw [List.map_cons, Gate.inverse_eq isMeasure, extend, appended]
        exact ih admittedRest later

/-- The inverse of a circuit with a measurement fails for that measurement. -/
theorem inverse_eq_error {circuit : Circuit α} (wellFormed : circuit.WellFormed)
    (measured : ∃ gate ∈ circuit.gates, gate.kind = .measure) :
    circuit.inverse = .error (.noInverse .measure) := by
  have admitted : ∀ gate ∈ circuit.gates.reverse,
      (empty circuit.registers circuit.labels : Circuit α).registers.fault? gate = none :=
    fun gate member => wellFormed.admitted gate (List.mem_reverse.mp member)
  have failed := extend_inverses_of_measure admitted (by simpa using measured)
  unfold inverse extendAll
  split
  · rename_i longer extended
    rw [extended] at failed
    cases failed
  · rename_i kept fault extended
    rw [extended] at failed
    rw [Option.some.inj failed]

end Circuit

/-! ## Inverses in a session -/

/-- Asking for the inverse of the circuit in a slot. -/
def Session.inverting (slot : Key) (destination : Option Key) (shown : Key) : Session.Step :=
  ⟨.ok slot, destination, shown, .ok (.work (.ok .inverse))⟩

/-- A step that asks for an inverse that there is not leaves the session as it is. -/
theorem Session.perform_inverting_of_error {settings : Settings} {session : Session} {slot : Key}
    {circuit : Circuit Float} {fault : Fault} (found : session.find? slot = some circuit)
    (failed : circuit.inverse = .error fault) (destination : Option Key) (shown : Key) :
    session.perform settings (inverting slot destination shown) = (session, .error fault) := by
  have outcome : session.outcome settings (inverting slot destination shown) = .error fault := by
    simp only [Session.outcome, inverting, get_of_find? found, Deed.outcome, failed, bind,
      Except.bind]
  rw [perform, outcome]

namespace Circuit

/-- There are as many layers from the back as from the front. A circuit without measurements has an
inverse of the same depth, critical path, gate count, two-qubit count and use of each qubit. A
circuit with a measurement has none, and no slot of a session changes when it is asked for. -/
theorem inverse_keeps_figures {circuit : Circuit Float} (wellFormed : circuit.WellFormed) :
    Schedule.depth circuit.gates.reverse = circuit.depth ∧
      ((∀ gate ∈ circuit.gates, gate.kind ≠ .measure) →
        ∃ inverse, circuit.inverse = .ok inverse ∧
          inverse.depth = circuit.depth ∧
          Schedule.criticalPathLength inverse.gates =
            Schedule.criticalPathLength circuit.gates ∧
          inverse.gateCount = circuit.gateCount ∧
          inverse.twoQubitCount = circuit.twoQubitCount ∧
          Analysis.qubitUsage inverse = Analysis.qubitUsage circuit) ∧
      ((∃ gate ∈ circuit.gates, gate.kind = .measure) →
        circuit.inverse = .error (.noInverse .measure) ∧
          ∀ (settings : Settings) (session : Session) (slot : Key),
            session.find? slot = some circuit → ∀ destination shown,
              session.perform settings (Session.inverting slot destination shown) =
                (session, .error (.noInverse .measure))) := by
  refine ⟨Schedule.depth_reverse circuit.gates, fun unitary => ?_, fun measured => ?_⟩
  · refine ⟨_, inverse_eq wellFormed unitary, depth_inverted circuit.gates,
      criticalPathLength_inverted circuit.gates, ?_, ?_,
      qubitUsage_eq_of_perm rfl (perm_qubits_inverted circuit.gates)⟩
    · rw [gateCount, gateCount, gates_replaceGates, List.length_map, List.length_reverse]
    · rw [wellFormed.counted]
      exact countP_isTwoQubit_inverted circuit.gates
  · have failed := inverse_eq_error wellFormed measured
    exact ⟨failed, fun settings session slot found =>
      Session.perform_inverting_of_error found failed⟩

/-- From the front the gates on the first qubit stand in two layers of two gates; from the back the
first layer takes three gates. -/
def staggered : Circuit Float :=
  (empty ⟨4, 0⟩ ⟨.null, []⟩).replaceGates
    [⟨.fixed .h 0, []⟩, ⟨.fixed .sx 1, []⟩, ⟨.rotation .z 0 0.5, []⟩,
      ⟨.pair .cx 2 3 (by decide), []⟩]

theorem staggered_keeps_figures :
    staggered.WellFormed ∧ ∃ inverse, staggered.inverse = .ok inverse ∧ inverse.depth = 2 ∧
      Schedule.criticalPathLength inverse.gates = 2 ∧ inverse.gateCount = 4 ∧
      inverse.twoQubitCount = 1 ∧ Analysis.qubitUsage inverse = [2, 1, 1, 1] ∧
      (Schedule.blocks staggered.gates).map List.length = [2, 2] ∧
      (Schedule.blocks inverse.gates).map List.length = [3, 1] := by
  have wellFormed : staggered.WellFormed :=
    wellFormed_of_within (by decide) (by decide)
  have unitary : ∀ gate ∈ staggered.gates, gate.kind ≠ .measure := by decide
  obtain ⟨inverse, made, depth, path, count, pairs, usage⟩ :=
    (inverse_keeps_figures wellFormed).2.1 unitary
  have known := made.symm.trans (inverse_eq wellFormed unitary)
  obtain rfl := Except.ok.inj known
  exact ⟨wellFormed, _, made, depth.trans (by decide), path.trans (by decide), count, pairs,
    usage.trans (by decide), by decide, by decide⟩

end Circuit

end Peephole
