import Peephole.Proofs.Schedule.CriticalPath

/-!
# Gate lists one after the other

When a gate list follows another one, its layers are cut anew: its first gates may run with the last
ones of the other list, and that may shift every boundary behind them. So the layers of the two
lists are not compared with the layers of the whole. But cuts of the two lists make up a cut of the
whole, and a cut of the whole, torn where the second list begins, is a cut of each list with one
block more at most. The depth is the least number of blocks of a cut; so depths add up, or one layer
is saved (`depth_append`). A chain of the whole is likewise one of the first list and one of the
second, and either may be missing.
-/

namespace Peephole

variable {α : Type}

namespace Schedule

/-! ## Depth -/

theorem IsCut.append {front back : List (Gate α)} {cut cut' : List (List (Gate α))}
    (isCut : IsCut front cut) (isCut' : IsCut back cut') : IsCut (front ++ back) (cut ++ cut') where
  flatten := by rw [List.flatten_append, isCut.flatten, isCut'.flatten]
  parallel := List.forall_mem_append.mpr ⟨isCut.parallel, isCut'.parallel⟩

/-- A cut of two lists is torn where the second one begins, in one block at most. -/
theorem IsCut.exists_torn {front back : List (Gate α)} {cut : List (List (Gate α))}
    (isCut : IsCut (front ++ back) cut) :
    ∃ cutFront cutBack, IsCut front cutFront ∧ IsCut back cutBack ∧
      cutFront.length + cutBack.length ≤ cut.length + 1 := by
  induction cut generalizing front with
  | nil =>
      obtain ⟨rfl, rfl⟩ := List.append_eq_nil_iff.mp isCut.flatten.symm
      exact ⟨[], [], isCut, isCut, Nat.zero_le _⟩
  | cons block cut ih =>
      obtain ⟨parallel, parallelRest⟩ := List.forall_mem_cons.mp isCut.parallel
      rcases List.append_eq_append_iff.mp isCut.flatten with
        ⟨more, rfl, rest⟩ | ⟨more, rfl, rfl⟩
      · obtain ⟨cutFront, cutBack, isFront, isBack, length⟩ := ih ⟨rest, parallelRest⟩
        refine ⟨block :: cutFront, cutBack, .cons parallel isFront, isBack, ?_⟩
        rw [List.length_cons, List.length_cons]
        omega
      · -- The second list begins inside the block, which is then a block of either.
        obtain ⟨parallelFront, parallelMore, -⟩ := List.pairwise_append.mp parallel
        refine ⟨[front], more :: cut, ⟨List.flatten_singleton, ?_⟩,
          .cons parallelMore ⟨rfl, parallelRest⟩, ?_⟩
        · exact List.forall_mem_singleton.mpr parallelFront
        · rw [List.length_singleton, List.length_cons, List.length_cons, Nat.add_comm]

theorem depth_append_le (front back : List (Gate α)) :
    depth (front ++ back) ≤ depth front + depth back := by
  have joined := depth_le_of_isCut ((isCut_blocks front).append (isCut_blocks back))
  rwa [List.length_append, ← depth_eq_length_blocks, ← depth_eq_length_blocks] at joined

theorem depth_add_depth_le (front back : List (Gate α)) :
    depth front + depth back ≤ depth (front ++ back) + 1 := by
  obtain ⟨cutFront, cutBack, isFront, isBack, length⟩ := (isCut_blocks (front ++ back)).exists_torn
  rw [depth_eq_length_blocks (front ++ back)]
  exact (Nat.add_le_add (depth_le_of_isCut isFront) (depth_le_of_isCut isBack)).trans length

/-- The layers of two lists add up, or the last one of the first list and the first one of the
second count as one. -/
theorem depth_append (front back : List (Gate α)) :
    depth (front ++ back) = depth front + depth back ∨
      front ≠ [] ∧ back ≠ [] ∧ depth (front ++ back) + 1 = depth front + depth back := by
  by_cases joined : depth (front ++ back) = depth front + depth back
  · exact .inl joined
  · have upper := depth_append_le front back
    have lower := depth_add_depth_le front back
    refine .inr ⟨?_, ?_, by omega⟩
    · rintro rfl
      exact joined (Nat.zero_add _).symm
    · rintro rfl
      exact joined (by rw [List.append_nil]; rfl)

/-- One more gate opens a layer or does not. -/
theorem depth_append_singleton (gates : List (Gate α)) (gate : Gate α) :
    depth gates ≤ depth (gates ++ [gate]) ∧ depth (gates ++ [gate]) ≤ depth gates + 1 := by
  have single : depth [gate] = 1 := rfl
  have upper := depth_append_le gates [gate]
  have lower := depth_add_depth_le gates [gate]
  omega

/-! ## Critical path -/

theorem criticalPathLength_le_of_sublist {gates gates' : List (Gate α)}
    (sublist : gates'.Sublist gates) : criticalPathLength gates' ≤ criticalPathLength gates := by
  obtain ⟨chain, inPart, chained, length⟩ := (isGreatest_criticalPathLength gates').1
  rw [← length]
  exact chained.length_le (inPart.trans sublist)

theorem criticalPathLength_append_le (front back : List (Gate α)) :
    criticalPathLength (front ++ back) ≤ criticalPathLength front + criticalPathLength back := by
  obtain ⟨chain, sublist, chained, length⟩ := (isGreatest_criticalPathLength (front ++ back)).1
  obtain ⟨early, late, rfl, inFront, inBack⟩ := List.sublist_append_iff.mp sublist
  obtain ⟨earlyChained, lateChained, -⟩ := List.isChain_append.mp chained
  rw [← length, List.length_append]
  exact Nat.add_le_add (Chained.length_le earlyChained inFront)
    (Chained.length_le lateChained inBack)

theorem max_criticalPathLength_le (front back : List (Gate α)) :
    max (criticalPathLength front) (criticalPathLength back) ≤ criticalPathLength (front ++ back) :=
  Nat.max_le.mpr
    ⟨criticalPathLength_le_of_sublist (List.sublist_append_left front back),
      criticalPathLength_le_of_sublist (List.sublist_append_right front back)⟩

end Schedule

end Peephole
