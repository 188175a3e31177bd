import Peephole.Analysis.Basic

/-!
Analyses as documents.
-/

namespace Peephole

def kindCountsDatum (counts : List (GateKind × Nat)) : Datum :=
  .list (counts.map fun (kind, count) => .list [.text kind.name, .ofNat count])

namespace Analysis

/-- The edges of the interaction graph with their weights. -/
def interactionDatum (circuit : Circuit Float) : Datum :=
  .list ((interactionGraph circuit).edges.map fun edge =>
    .list [.ofNat edge.1, .ofNat edge.2, .ofNat (weight circuit edge)])

def CliffordCounts.toDatum (counts : CliffordCounts) : Datum :=
  .record [("clifford", .ofNat counts.clifford), ("non_clifford", .ofNat counts.nonClifford)]

/-- The metrics as doubles. -/
def InteractionMetrics.toDatum (metrics : InteractionMetrics) : Datum :=
  .record [
    ("two_qubit_gate_count", .float (Float.ofNat metrics.twoQubitCount)),
    ("interacting_pairs", .float (Float.ofNat metrics.pairCount)),
    ("connected_components", .float (Float.ofNat metrics.componentCount)),
    ("max_connected_size", .float (Float.ofNat metrics.largestComponent)),
    ("avg_clustering_coefficient", .float metrics.averageClustering)]

def toDatum (analysis : Analysis) : Datum :=
  .record [
    ("gate_distribution", kindCountsDatum analysis.kindCounts),
    ("qubit_usage", .list (analysis.usage.map .ofNat)),
    ("active_qubits", .ofNat analysis.activeQubits),
    ("average_qubit_utilization", .float analysis.averageUsage),
    ("interaction", analysis.interaction.toDatum),
    ("clifford_counts", analysis.clifford.toDatum),
    ("parallel_layers",
      .list (analysis.layers.map fun layer => .list (layer.map .ofNat))),
    ("depth", .ofNat analysis.depth),
    ("critical_path_length", .ofNat analysis.criticalPath)]

end Analysis

end Peephole
