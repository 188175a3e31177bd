import Peephole.Circuit.Basic
import Peephole.QubitGraph

/-!
Which qubits of a circuit interact. The interaction graph has all qubits of the circuit and an
edge for every pair on which a two-qubit gate acts; the weight of an edge is the number of such
gates.
-/

namespace Peephole

namespace Analysis

variable {α : Type}

/-- The pairs on which the two-qubit gates act, gate by gate. -/
def interactions (gates : List (Gate α)) : List (Nat × Nat) :=
  gates.filterMap fun gate =>
    match gate.operation with
    | .pair _ first second _ => some (first.toNat, second.toNat)
    | _ => none

/-- One more gate on an edge: its weight is raised by one, or it is added with a weight of one. -/
def raiseWeight (edge : Nat × Nat) : List ((Nat × Nat) × Nat) → List ((Nat × Nat) × Nat)
  | [] => [(edge, 1)]
  | entry :: rest =>
    if entry.1 = edge then (entry.1, entry.2 + 1) :: rest else entry :: raiseWeight edge rest

/-- The edges with their weights. In which order a gate has its qubits does not count. -/
def weightedEdges (gates : List (Gate α)) : List ((Nat × Nat) × Nat) :=
  (interactions gates).foldl (fun edges pair => raiseWeight (QubitGraph.orient pair) edges) []

def interactionGraph (circuit : Circuit α) : QubitGraph :=
  .ofPairs circuit.registers.qubits ((weightedEdges circuit.gates).map Prod.fst)

/-- The number of two-qubit gates on a pair of qubits. -/
def weight (circuit : Circuit α) (edge : Nat × Nat) : Nat :=
  ((weightedEdges circuit.gates).lookup (QubitGraph.orient edge)).getD 0

/-! ## Clustering -/

/-- The number of edges among some qubits. -/
def edgesAmong (graph : QubitGraph) (qubits : List Nat) : Nat :=
  graph.edges.countP fun edge => qubits.contains edge.1 && qubits.contains edge.2

/-- The share of the pairs of neighbours of a qubit that are joined by an edge. -/
def clustering (graph : QubitGraph) (qubit : Nat) : Float :=
  let neighbors := graph.neighbors qubit
  let joined := 2 * edgesAmong graph neighbors
  if joined == 0 then 0.0
  else Float.ofNat joined / Float.ofNat (neighbors.length * (neighbors.length - 1))

def averageClustering (graph : QubitGraph) : Float :=
  ((List.range graph.size).map (clustering graph)).foldl (· + ·) 0.0 / Float.ofNat graph.size

/-! ## Metrics -/

structure InteractionMetrics where
  twoQubitCount : Nat
  /-- The number of pairs that interact. -/
  pairCount : Nat
  componentCount : Nat
  /-- The number of qubits in the largest component. -/
  largestComponent : Nat
  averageClustering : Float

def interactionMetrics (circuit : Circuit α) : InteractionMetrics :=
  let graph := interactionGraph circuit
  let sizes := graph.components.map List.length
  { twoQubitCount := circuit.twoQubitCount
    pairCount := graph.edges.length
    componentCount := sizes.length
    largestComponent := sizes.foldl max 0
    averageClustering := averageClustering graph }

end Analysis

end Peephole
