import Peephole.Proofs.Schedule.CriticalPath

/-!
# Gate lists read backwards

The layers of a gate list read backwards are other sets of gates in general, so they are not
compared one by one. But a cut read backwards is a cut of the list read backwards, and the depth is
the least number of blocks of a cut; so there are as many layers from the back as from the front
(`depth_reverse`). A chain read backwards is a chain, so the critical path is as long as well.

Only the qubits of gates count for both, so gates may be replaced by others on the same qubits
(`depth_map`, `criticalPathLength_map`).
-/

namespace Peephole

variable {α : Type}

namespace Schedule

/-! ## Cuts and chains read backwards -/

theorem Parallel.reverse {block : List (Gate α)} (parallel : Parallel block) :
    Parallel block.reverse := by
  refine List.pairwise_reverse.mpr (List.Pairwise.imp ?_ parallel)
  intro left right apart
  rw [Gate.overlaps_comm, apart]

theorem IsCut.reverse {gates : List (Gate α)} {cut : List (List (Gate α))}
    (isCut : IsCut gates cut) : IsCut gates.reverse (cut.map List.reverse).reverse where
  flatten := by rw [← isCut.flatten, List.reverse_flatten]
  parallel := by
    intro block member
    obtain ⟨origin, inCut, rfl⟩ := List.mem_map.mp (List.mem_reverse.mp member)
    exact (isCut.parallel origin inCut).reverse

theorem depth_reverse_le (gates : List (Gate α)) : depth gates.reverse ≤ depth gates := by
  have bound := depth_le_of_isCut (isCut_blocks gates).reverse
  rwa [List.length_reverse, List.length_map, ← depth_eq_length_blocks] at bound

/-- There are as many layers from the back as from the front. -/
theorem depth_reverse (gates : List (Gate α)) : depth gates.reverse = depth gates := by
  refine Nat.le_antisymm (depth_reverse_le gates) ?_
  have back := depth_reverse_le gates.reverse
  rwa [List.reverse_reverse] at back

theorem Chained.reverse {chain : List (Gate α)} (chained : Chained chain) :
    Chained chain.reverse := by
  refine List.isChain_reverse.mpr (List.IsChain.imp ?_ chained)
  intro left right meets
  rwa [Gate.overlaps_comm]

theorem criticalPathLength_le_reverse (gates : List (Gate α)) :
    criticalPathLength gates ≤ criticalPathLength gates.reverse := by
  obtain ⟨chain, sublist, chained, length⟩ := (isGreatest_criticalPathLength gates).1
  rw [← length, ← List.length_reverse]
  exact chained.reverse.length_le sublist.reverse

theorem criticalPathLength_reverse (gates : List (Gate α)) :
    criticalPathLength gates.reverse = criticalPathLength gates := by
  refine Nat.le_antisymm ?_ (criticalPathLength_le_reverse gates)
  have back := criticalPathLength_le_reverse gates.reverse
  rwa [List.reverse_reverse] at back

/-! ## Other gates on the same qubits -/

section SameQubits

variable {image : Gate α → Gate α} (same : ∀ gate, (image gate).qubits = gate.qubits)

include same

theorem overlaps_image (left right : Gate α) :
    (image left).overlaps (image right) = left.overlaps right := by
  rw [Bool.eq_iff_iff, Gate.overlaps_iff, Gate.overlaps_iff, same, same]

theorem blocksFrom_map (block rest : List (Gate α)) :
    blocksFrom (block.map image) (rest.map image) =
      (blocksFrom block rest).map (List.map image) := by
  induction rest generalizing block with
  | nil => rfl
  | cons gate rest ih =>
      have meets : (block.map image).any (image gate).overlaps = block.any gate.overlaps := by
        rw [List.any_map]
        exact List.any_congr rfl fun other => overlaps_image same gate other
      rw [List.map_cons, blocksFrom, blocksFrom, meets]
      split
      · rw [List.map_cons, ← ih [gate], List.map_singleton]
      · rw [← ih (block ++ [gate]), List.map_append, List.map_singleton]

theorem depth_map (gates : List (Gate α)) : depth (gates.map image) = depth gates := by
  rw [depth_eq_length_blocks, depth_eq_length_blocks]
  cases gates with
  | nil => rfl
  | cons gate rest =>
      rw [List.map_cons, blocks, blocks, ← List.map_singleton, blocksFrom_map same,
        List.length_map]

theorem highestLevel_map (levels : Levels) (highest : Nat) (gates : List (Gate α)) :
    highestLevel levels highest (gates.map image) = highestLevel levels highest gates := by
  induction gates generalizing levels highest with
  | nil => rfl
  | cons gate rest ih =>
      have level : gateLevel levels (image gate) = gateLevel levels gate := by
        rw [gateLevel, gateLevel, same]
      have raised : raise levels (image gate) = raise levels gate := by
        rw [raise, raise, same, level]
      rw [List.map_cons, highestLevel, highestLevel, level, raised, ih]

theorem criticalPathLength_map (gates : List (Gate α)) :
    criticalPathLength (gates.map image) = criticalPathLength gates :=
  highestLevel_map same [] 0 gates

end SameQubits

end Schedule

end Peephole
