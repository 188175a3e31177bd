import Mathlib.Data.List.Forall2
import Peephole.Proofs.Gate.Thinning
import Peephole.Proofs.Schedule.CriticalPath

/-!
# Schedules of thinned gate lists

Thinning out a gate list cannot deepen it. Dropping a gate shifts the end of every layer after it,
so layers are not compared one by one: the old layers without the dropped gates are a cut of the
new list, and the depth is the least number of blocks of a cut. A chain of the new list is a chain
of the old one, so neither does the critical path get longer.
-/

namespace Peephole

variable {α : Type}

namespace Schedule

/-! ## Depth -/

theorem parallel_iff_disjoint {block : List (Gate α)} :
    Parallel block ↔ (block.map Gate.qubits).Pairwise List.Disjoint := by
  rw [List.pairwise_map, Parallel]
  exact List.Pairwise.iff fun left right => Gate.overlaps_eq_false_iff

theorem Parallel.thinned {block block' : List (Gate α)} (parallel : Parallel block)
    (thinned : Thinned block block') : Parallel block' :=
  parallel_iff_disjoint.mpr ((parallel_iff_disjoint.mp parallel).sublist thinned.qubits)

/-- The blocks of a cut without the dropped gates are a cut. -/
theorem IsCut.exists_thinned {cut : List (List (Gate α))} {gates gates' : List (Gate α)}
    (isCut : IsCut gates cut) (thinned : Thinned gates gates') :
    ∃ cut', IsCut gates' cut' ∧ List.Forall₂ Thinned cut cut' := by
  induction cut generalizing gates gates' with
  | nil =>
      obtain rfl : gates = [] := isCut.flatten.symm
      obtain rfl := List.length_eq_zero_iff.mp (Nat.le_zero.mp thinned.length_le)
      exact ⟨[], isCut, .nil⟩
  | cons block cut ih =>
      obtain ⟨parallel, parallelRest⟩ := List.forall_mem_cons.mp isCut.parallel
      rw [← isCut.flatten, List.flatten_cons] at thinned
      obtain ⟨block', rest', rfl, thinnedBlock, thinnedRest⟩ := thinned.exists_eq_append
      obtain ⟨cut', isCut', thinnedCut⟩ := ih ⟨rfl, parallelRest⟩ thinnedRest
      exact ⟨block' :: cut', .cons (parallel.thinned thinnedBlock) isCut',
        .cons thinnedBlock thinnedCut⟩

theorem depth_le_of_thinned {gates gates' : List (Gate α)} (thinned : Thinned gates gates') :
    depth gates' ≤ depth gates := by
  obtain ⟨cut, isCut, thinnedCut⟩ := (isCut_blocks gates).exists_thinned thinned
  rw [depth_eq_length_blocks gates, thinnedCut.length_eq]
  exact depth_le_of_isCut isCut

/-! ## Critical path -/

theorem chained_iff_meets {chain : List (Gate α)} :
    Chained chain ↔
      (chain.map Gate.qubits).IsChain fun left right => ∃ qubit ∈ left, qubit ∈ right := by
  rw [List.isChain_map, Chained]
  simp only [Gate.overlaps_iff]

theorem Chained.of_operands_eq {chain chain' : List (Gate α)} (chained : Chained chain')
    (same : chain'.map Gate.operands = chain.map Gate.operands) : Chained chain := by
  have qubits : chain'.map Gate.qubits = chain.map Gate.qubits := by
    have projected := congrArg (List.map fun operands => operands.2.1) same
    rwa [List.map_map, List.map_map] at projected
  rwa [chained_iff_meets, qubits, ← chained_iff_meets] at chained

theorem criticalPathLength_le_of_thinned {gates gates' : List (Gate α)}
    (thinned : Thinned gates gates') : criticalPathLength gates' ≤ criticalPathLength gates := by
  obtain ⟨chain', inThinned, chained, length'⟩ := (isGreatest_criticalPathLength gates').1
  obtain ⟨chain, sublist, same⟩ := thinned.exists_sublist inThinned
  have length : chain'.length = chain.length := by simpa using congrArg List.length same
  rw [← length', length]
  exact (chained.of_operands_eq same).length_le sublist

end Schedule

end Peephole
