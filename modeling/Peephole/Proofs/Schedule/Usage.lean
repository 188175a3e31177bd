import Mathlib.Data.List.Nodup
import Peephole.Proofs.Schedule.Thinning

/-!
# Qubits in use

The gates on one qubit all meet there, so in their order they are a chain, and no qubit is used more
often than the critical path is long (`count_le_criticalPathLength`). Every gate makes a block of
its own at worst, so there are no more layers than gates; and all gates go into one layer exactly if
no qubit is used twice (`depth_le_one_iff`).
-/

namespace Peephole

variable {α : Type}

namespace Schedule

/-- The operands of all gates hold a qubit as often as there are gates on it. -/
theorem count_flatMap_qubits (gates : List (Gate α)) (qubit : Int) :
    (gates.flatMap Gate.qubits).count qubit =
      (gates.filter fun gate => gate.qubits.contains qubit).length := by
  induction gates with
  | nil => rfl
  | cons gate gates ih =>
      rw [List.flatMap_cons, List.count_append, ih, List.filter_cons]
      by_cases used : qubit ∈ gate.qubits
      · rw [List.count_eq_one_of_mem gate.operation.nodup_qubits used,
          if_pos (List.contains_iff_mem.mpr used), List.length_cons, Nat.add_comm]
      · rw [List.count_eq_zero_of_not_mem used, if_neg (by simpa using used), Nat.zero_add]

/-- The gates on a qubit are a chain. -/
theorem chained_filter_contains (gates : List (Gate α)) (qubit : Int) :
    Chained (gates.filter fun gate => gate.qubits.contains qubit) := by
  refine List.Pairwise.isChain
    (List.pairwise_of_forall_mem_list fun left inLeft right inRight => ?_)
  exact Gate.overlaps_iff.mpr ⟨qubit, List.contains_iff_mem.mp (List.mem_filter.mp inLeft).2,
    List.contains_iff_mem.mp (List.mem_filter.mp inRight).2⟩

theorem count_le_criticalPathLength (gates : List (Gate α)) (qubit : Int) :
    (gates.flatMap Gate.qubits).count qubit ≤ criticalPathLength gates := by
  rw [count_flatMap_qubits]
  exact (chained_filter_contains gates qubit).length_le List.filter_sublist

theorem depth_le_length (gates : List (Gate α)) : depth gates ≤ gates.length := by
  have cut : IsCut gates (gates.map fun gate => [gate]) := by
    refine ⟨by rw [← List.flatMap_def, List.flatMap_singleton'], fun block member => ?_⟩
    obtain ⟨gate, -, rfl⟩ := List.mem_map.mp member
    exact parallel_singleton gate
  have bound := depth_le_of_isCut cut
  rwa [List.length_map] at bound

/-- One layer is enough exactly if no qubit is used twice. -/
theorem depth_le_one_iff (gates : List (Gate α)) :
    depth gates ≤ 1 ↔ ∀ qubit, (gates.flatMap Gate.qubits).count qubit ≤ 1 := by
  constructor
  · intro shallow qubit
    exact (count_le_criticalPathLength gates qubit).trans
      ((criticalPathLength_le_depth gates).trans shallow)
  · intro once
    have apart := (List.nodup_flatMap.mp (List.nodup_iff_count_le_one.mpr once)).2
    have parallel : Parallel gates := parallel_iff_disjoint.mpr (List.pairwise_map.mpr apart)
    exact depth_le_of_isCut
      ⟨List.flatten_singleton, fun block member => List.mem_singleton.mp member ▸ parallel⟩

/-- The layers hold the operands of all gates. -/
theorem flatMap_qubits_layers (gates : List (Gate α)) :
    (layers gates).flatMap Layer.qubits = gates.flatMap Gate.qubits := by
  calc (layers gates).flatMap Layer.qubits
      = (layers gates).flatMap fun layer => layer.gates.flatMap Gate.qubits := by
        rw [List.flatMap_def, List.flatMap_def, List.map_congr_left qubits_of_mem_layers]
    _ = ((layers gates).map Layer.gates).flatten.flatMap Gate.qubits := by
        rw [← List.flatMap_def, List.flatMap_assoc]
    _ = gates.flatMap Gate.qubits := by
        rw [map_gates_layers, (isCut_blocks gates).flatten]

/-- The operands of all gates: one for each gate, and one more for each gate on two qubits. -/
theorem length_flatMap_qubits (gates : List (Gate α)) :
    (gates.flatMap Gate.qubits).length = gates.length + gates.countP Gate.isTwoQubit := by
  induction gates with
  | nil => rfl
  | cons gate gates ih =>
      have operands : gate.qubits.length = 1 + if gate.isTwoQubit then 1 else 0 := by
        obtain ⟨operation, _⟩ := gate
        cases operation <;> rfl
      rw [List.flatMap_cons, List.length_append, ih, operands, List.length_cons, List.countP_cons]
      omega

end Schedule

end Peephole
