import Peephole.Analysis.Clifford
import Peephole.Analysis.Interaction

/-!
Analysis of circuits: how often each kind of gate and each qubit is used, which qubits interact,
and how the gates fall into layers.
-/

namespace Peephole

/-- The figures of a circuit. -/
structure Analysis where
  kindCounts : List (GateKind × Nat)
  /-- The number of gates on each qubit. -/
  usage : List Nat
  activeQubits : Nat
  averageUsage : Float
  interaction : Analysis.InteractionMetrics
  clifford : Analysis.CliffordCounts
  /-- The positions of the gates of each layer. -/
  layers : List (List Nat)
  depth : Nat
  criticalPath : Nat

namespace Analysis

variable {α : Type}

def qubitUsage (circuit : Circuit α) : List Nat :=
  let operands := circuit.gates.flatMap Gate.qubits
  (List.range circuit.registers.qubits).map fun (qubit : Nat) => operands.count (qubit : Int)

/-- Puts positions, counted from `position`, into groups by number. The number of the next group
opens it; beyond that there is no group to put a position into. -/
def group? (groups : List (List Nat)) (position : Nat) : List Nat → Option (List (List Nat))
  | [] => some groups
  | number :: rest =>
    if number = groups.length then group? (groups ++ [[position]]) (position + 1) rest
    else if number < groups.length then
      group? (groups.modify number (· ++ [position])) (position + 1) rest
    else none

/-- The positions of the gates, layer by layer. -/
def parallelLayers? (circuit : Circuit α) : Option (List (List Nat)) :=
  group? [] 0 (Schedule.layerIndices circuit.gates)

/-- A whole number divided by another, rounded once. -/
def quotient (numerator denominator : Nat) : Float :=
  Binary64.nearest false numerator denominator

def ofCircuit (circuit : Circuit Float) : Except Fault Analysis := do
  let usage := qubitUsage circuit
  match parallelLayers? circuit with
  | none => throw .missingItem
  | some layers =>
    return {
      kindCounts := circuit.gateCounts
      usage := usage
      activeQubits := usage.countP (· != 0)
      averageUsage := quotient (usage.foldr (· + ·) 0) usage.length
      interaction := interactionMetrics circuit
      clifford := ← cliffordCounts circuit
      layers := layers
      depth := layers.length
      criticalPath := Schedule.criticalPathLength circuit.gates }

end Analysis

end Peephole
