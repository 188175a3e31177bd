import Mathlib.Algebra.Order.Ring.Nat
import Peephole.Proofs.Gate.Interleaving
import Peephole.Proofs.Schedule.Layers

/-!
# The critical path as a longest chain and a least depth

A chain is a list of gates each of which shares a qubit with the next. The critical path length of
a gate list is the length of its longest chain, read off from the levels of the gates
(`isGreatest_criticalPathLength`). An exchange of neighbours that share no qubit leaves every chain
where it is, so all interleavings have the same critical path length. Since a block of gates that
run together holds at most one gate of a chain, none of them has less depth; and the gates in the
order of their levels are an interleaving whose depth is no larger.
-/

namespace Peephole

variable {α : Type}

namespace Schedule

/-! ## Levels -/

theorem Levels.get_set (levels : Levels) (qubit other : Int) (level : Nat) :
    (levels.set qubit level).get other = if other = qubit then level else levels.get other := by
  unfold Levels.get Levels.set
  rw [List.lookup_cons]
  by_cases same : other = qubit
  · simp [same]
  · have differ : (other == qubit) = false := by simpa using same
    rw [differ, if_neg same]
    congr 1
    induction levels with
    | nil => rfl
    | cons entry levels ih =>
        obtain ⟨busy, busyLevel⟩ := entry
        rw [List.filter_cons]
        by_cases replaced : busy = qubit
        · subst replaced
          rw [List.lookup_cons, differ]
          simpa using ih
        · simp only [bne_iff_ne, ne_eq, replaced, not_false_eq_true, if_true, List.lookup_cons, ih]

theorem get_foldl_set (qubits : List Int) (levels : Levels) (level : Nat) (qubit : Int) :
    Levels.get (qubits.foldl (fun raised other => raised.set other level) levels) qubit =
      if qubit ∈ qubits then level else levels.get qubit := by
  induction qubits generalizing levels with
  | nil => simp
  | cons first qubits ih =>
      rw [List.foldl_cons, ih, Levels.get_set]
      by_cases later : qubit ∈ qubits
      · simp [later]
      · simp [later]

/-- A gate lifts its own qubits to its level and leaves the others alone. -/
theorem get_raise (levels : Levels) (gate : Gate α) (qubit : Int) :
    (raise levels gate).get qubit =
      if qubit ∈ gate.qubits then gateLevel levels gate else levels.get qubit :=
  get_foldl_set gate.qubits levels (gateLevel levels gate) qubit

theorem foldl_max_le_iff (qubits : List Int) (levels : Levels) (highest bound : Nat) :
    qubits.foldl (fun highest qubit => max highest (levels.get qubit)) highest ≤ bound ↔
      highest ≤ bound ∧ ∀ qubit ∈ qubits, levels.get qubit ≤ bound := by
  induction qubits generalizing highest with
  | nil => simp
  | cons qubit qubits ih =>
      rw [List.foldl_cons, ih, Nat.max_le, List.forall_mem_cons, and_assoc]

theorem gateLevel_le_iff {levels : Levels} {gate : Gate α} {bound : Nat} :
    gateLevel levels gate ≤ bound ↔ ∀ qubit ∈ gate.qubits, levels.get qubit < bound := by
  unfold gateLevel
  cases bound with
  | zero =>
      obtain ⟨qubit, member⟩ := gate.exists_mem_qubits
      exact iff_of_false (Nat.not_succ_le_zero _) fun below =>
        Nat.not_lt_zero _ (below qubit member)
  | succ bound =>
      rw [Nat.succ_le_succ_iff, foldl_max_le_iff, and_iff_right (Nat.zero_le _)]
      simp only [Nat.lt_succ_iff]

theorem gateLevel_pos (levels : Levels) (gate : Gate α) : 0 < gateLevel levels gate :=
  Nat.succ_pos _

theorem get_lt_gateLevel {levels : Levels} {gate : Gate α} {qubit : Int}
    (member : qubit ∈ gate.qubits) : levels.get qubit < gateLevel levels gate :=
  gateLevel_le_iff.mp (Nat.le_refl _) qubit member

/-- A gate moves the gates that share a qubit with it above itself. -/
theorem gateLevel_raise_of_meets {levels : Levels} {gate other : Gate α}
    (meets : gate.overlaps other = true) :
    gateLevel (raise levels gate) other =
      max (gateLevel levels gate + 1) (gateLevel levels other) := by
  obtain ⟨shared, inGate, inOther⟩ := Gate.overlaps_iff.mp meets
  refine eq_of_forall_ge_iff fun bound => ?_
  rw [Nat.max_le, gateLevel_le_iff, gateLevel_le_iff, Nat.succ_le_iff]
  constructor
  · intro below
    have gateBelow : gateLevel levels gate < bound := by
      simpa [get_raise, inGate] using below shared inOther
    refine ⟨gateBelow, fun qubit member => ?_⟩
    by_cases common : qubit ∈ gate.qubits
    · exact (get_lt_gateLevel common).trans gateBelow
    · simpa [get_raise, common] using below qubit member
  · rintro ⟨gateBelow, below⟩ qubit member
    rw [get_raise]
    split
    · exact gateBelow
    · exact below qubit member

theorem gateLevel_raise_of_apart {levels : Levels} {gate other : Gate α}
    (apart : gate.overlaps other = false) :
    gateLevel (raise levels gate) other = gateLevel levels other := by
  refine eq_of_forall_ge_iff fun bound => ?_
  rw [gateLevel_le_iff, gateLevel_le_iff]
  refine forall₂_congr fun qubit member => ?_
  have outside : qubit ∉ gate.qubits := by
    rw [Gate.overlaps_comm] at apart
    exact Gate.overlaps_eq_false_iff.mp apart qubit member
  rw [get_raise, if_neg outside]

theorem gateLevel_le_gateLevel_raise (levels : Levels) (gate other : Gate α) :
    gateLevel levels other ≤ gateLevel (raise levels gate) other := by
  cases meets : gate.overlaps other
  · rw [gateLevel_raise_of_apart meets]
  · rw [gateLevel_raise_of_meets meets]
    exact Nat.le_max_right _ _

theorem le_highestLevel (levels : Levels) (highest : Nat) (gates : List (Gate α)) :
    highest ≤ highestLevel levels highest gates := by
  induction gates generalizing levels highest with
  | nil => exact Nat.le_refl highest
  | cons gate gates ih => exact (Nat.le_max_left _ _).trans (ih _ _)

/-! ## Chains -/

/-- Each gate shares a qubit with the next. -/
def Chained (chain : List (Gate α)) : Prop :=
  chain.IsChain fun left right => left.overlaps right = true

/-- The levels rise along a chain. -/
theorem gateLevel_add_length_le {gates chain : List (Gate α)} {first : Gate α} (levels : Levels)
    (highest : Nat) (sublist : (first :: chain).Sublist gates)
    (chained : Chained (first :: chain)) :
    gateLevel levels first + chain.length ≤ highestLevel levels highest gates := by
  induction gates generalizing levels highest first chain with
  | nil => cases sublist
  | cons gate gates ih =>
      rw [highestLevel]
      cases sublist with
      | cons _ later =>
          exact (Nat.add_le_add_right (gateLevel_le_gateLevel_raise levels gate first) _).trans
            (ih (raise levels gate) _ later chained)
      | cons_cons _ later =>
          cases chain with
          | nil => exact (Nat.le_max_right _ _).trans (le_highestLevel _ _ gates)
          | cons second chain =>
              obtain ⟨meets, chained⟩ := List.isChain_cons_cons.mp chained
              have above : gateLevel levels gate + 1 ≤ gateLevel (raise levels gate) second := by
                rw [gateLevel_raise_of_meets meets]
                exact Nat.le_max_left _ _
              have bounded := ih (raise levels gate) (max highest (gateLevel levels gate))
                later chained
              rw [List.length_cons]
              omega

/-- The highest level is reached along a chain. -/
theorem highestLevel_eq_or_exists_chain (levels : Levels) (highest : Nat)
    (gates : List (Gate α)) :
    highestLevel levels highest gates = highest ∨
      ∃ first chain, (first :: chain).Sublist gates ∧ Chained (first :: chain) ∧
        gateLevel levels first + chain.length = highestLevel levels highest gates := by
  induction gates generalizing levels highest with
  | nil => exact Or.inl rfl
  | cons gate gates ih =>
      rw [highestLevel]
      rcases ih (raise levels gate) (max highest (gateLevel levels gate)) with
        unraised | ⟨first, chain, sublist, chained, reached⟩
      · rcases Nat.le_total (gateLevel levels gate) highest with below | above
        · left
          rw [unraised, Nat.max_eq_left below]
        · right
          refine ⟨gate, [], List.singleton_sublist.mpr List.mem_cons_self, .singleton gate, ?_⟩
          rw [unraised, Nat.max_eq_right above]
          rfl
      · right
        cases meets : gate.overlaps first with
        | false =>
            rw [gateLevel_raise_of_apart meets] at reached
            exact ⟨first, chain, sublist.cons gate, chained, reached⟩
        | true =>
            -- The chain either starts at its own first gate or goes back to this one.
            rw [gateLevel_raise_of_meets meets] at reached
            rcases Nat.le_total (gateLevel levels gate + 1) (gateLevel levels first) with
              below | above
            · rw [Nat.max_eq_right below] at reached
              exact ⟨first, chain, sublist.cons gate, chained, reached⟩
            · rw [Nat.max_eq_left above] at reached
              refine ⟨gate, first :: chain, sublist.cons_cons gate, .cons_cons meets chained, ?_⟩
              rw [List.length_cons]
              omega

theorem gateLevel_nil (gate : Gate α) : gateLevel [] gate = 1 :=
  Nat.le_antisymm (gateLevel_le_iff.mpr fun _ _ => Nat.one_pos) (gateLevel_pos [] gate)

/-- The critical path length is the length of the longest chain. -/
theorem isGreatest_criticalPathLength (gates : List (Gate α)) :
    IsGreatest {count | ∃ chain : List (Gate α), chain.Sublist gates ∧ Chained chain ∧
      chain.length = count} (criticalPathLength gates) := by
  constructor
  · rcases highestLevel_eq_or_exists_chain [] 0 gates with
      none | ⟨first, chain, sublist, chained, reached⟩
    · exact ⟨[], List.nil_sublist gates, .nil, none.symm⟩
    · refine ⟨first :: chain, sublist, chained, ?_⟩
      rw [criticalPathLength, ← reached, gateLevel_nil, List.length_cons, Nat.add_comm]
  · rintro count ⟨chain, sublist, chained, rfl⟩
    cases chain with
    | nil => exact Nat.zero_le _
    | cons first chain =>
        have bounded := gateLevel_add_length_le [] 0 sublist chained
        rwa [gateLevel_nil, Nat.add_comm] at bounded

theorem Chained.length_le {gates chain : List (Gate α)} (chained : Chained chain)
    (sublist : chain.Sublist gates) : chain.length ≤ criticalPathLength gates :=
  (isGreatest_criticalPathLength gates).2 ⟨chain, sublist, chained, rfl⟩

/-! ## Chains in interleavings -/

theorem Chained.sublist_of_exchanged {gates gates' chain : List (Gate α)}
    (chained : Chained chain) (exchanged : Exchanged gates gates')
    (sublist : chain.Sublist gates) : chain.Sublist gates' := by
  induction exchanged generalizing chain with
  | @here left right after apart =>
      cases sublist with
      | cons _ sublist =>
          cases sublist with
          | cons _ inAfter => exact (inAfter.cons left).cons right
          | cons_cons _ inAfter => exact (inAfter.cons left).cons_cons right
      | cons_cons _ sublist =>
          cases sublist with
          | cons _ inAfter => exact (inAfter.cons_cons left).cons right
          | cons_cons _ inAfter =>
              have meets := (List.isChain_cons_cons.mp chained).1
              rw [apart] at meets
              cases meets
  | later gate _ ih =>
      cases sublist with
      | cons _ later => exact (ih chained later).cons gate
      | cons_cons _ later => exact (ih chained.tail later).cons_cons gate

/-- Exchanges do not break chains. -/
theorem Chained.sublist_of_interleaved {gates gates' chain : List (Gate α)}
    (chained : Chained chain) (interleaved : Interleaved gates gates')
    (sublist : chain.Sublist gates) : chain.Sublist gates' := by
  induction interleaved with
  | refl => exact sublist
  | tail _ exchanged ih => exact chained.sublist_of_exchanged exchanged ih

theorem criticalPathLength_le_of_interleaved {gates gates' : List (Gate α)}
    (interleaved : Interleaved gates gates') :
    criticalPathLength gates ≤ criticalPathLength gates' := by
  obtain ⟨chain, sublist, chained, length⟩ := (isGreatest_criticalPathLength gates).1
  rw [← length]
  exact chained.length_le (chained.sublist_of_interleaved interleaved sublist)

theorem criticalPathLength_eq_of_interleaved {gates gates' : List (Gate α)}
    (interleaved : Interleaved gates gates') :
    criticalPathLength gates' = criticalPathLength gates :=
  Nat.le_antisymm (criticalPathLength_le_of_interleaved interleaved.symm)
    (criticalPathLength_le_of_interleaved interleaved)

/-- Of gates that run together a chain takes one at most. -/
theorem Chained.length_le_one {block chain : List (Gate α)} (chained : Chained chain)
    (parallel : Parallel block) (sublist : chain.Sublist block) : chain.length ≤ 1 := by
  match chain with
  | [] => exact Nat.zero_le 1
  | [_] => exact Nat.le_refl 1
  | first :: second :: _ =>
      have meets := (List.isChain_cons_cons.mp chained).1
      have apart := (List.pairwise_cons.mp (parallel.sublist sublist)).1 second List.mem_cons_self
      rw [apart] at meets
      cases meets

/-- Whatever gates count, a chain counts no more than a cut in which no gate counts more than its
block: each block has one gate of the chain at most. -/
theorem Chained.sum_le_sum_cut (weight : Gate α → Nat) (bound : List (Gate α) → Nat)
    {cut : List (List (Gate α))} {chain : List (Gate α)} (chained : Chained chain)
    (parallel : ∀ block ∈ cut, Parallel block)
    (within : ∀ block ∈ cut, ∀ gate ∈ block, weight gate ≤ bound block)
    (sublist : chain.Sublist cut.flatten) : (chain.map weight).sum ≤ (cut.map bound).sum := by
  induction cut generalizing chain with
  | nil =>
      obtain rfl := List.sublist_nil.mp sublist
      exact Nat.le_refl _
  | cons block cut ih =>
      rw [List.forall_mem_cons] at parallel within
      obtain ⟨head, tail, rfl, inBlock, inCut⟩ := List.sublist_append_iff.mp sublist
      obtain ⟨headChained, tailChained, -⟩ := List.isChain_append.mp chained
      have single : (head.map weight).sum ≤ bound block := by
        match head, Chained.length_le_one headChained parallel.1 inBlock with
        | [], _ => exact Nat.zero_le _
        | [gate], _ => exact within.1 gate (List.singleton_sublist.mp inBlock)
      rw [List.map_append, List.sum_append, List.map_cons, List.sum_cons]
      exact Nat.add_le_add single (ih tailChained parallel.2 within.2 inCut)

theorem Chained.length_le_length_cut {cut : List (List (Gate α))} {chain : List (Gate α)}
    (chained : Chained chain) (parallel : ∀ block ∈ cut, Parallel block)
    (sublist : chain.Sublist cut.flatten) : chain.length ≤ cut.length := by
  have counted := chained.sum_le_sum_cut (fun _ => 1) (fun _ => 1) parallel
    (fun _ _ _ _ => Nat.le_refl 1) sublist
  rwa [List.map_const', List.map_const', List.sum_replicate_nat, List.sum_replicate_nat,
    Nat.mul_one, Nat.mul_one] at counted

theorem criticalPathLength_le_depth (gates : List (Gate α)) :
    criticalPathLength gates ≤ depth gates := by
  obtain ⟨chain, sublist, chained, length⟩ := (isGreatest_criticalPathLength gates).1
  have cut := isCut_blocks gates
  rw [← length, depth_eq_length_blocks]
  exact chained.length_le_length_cut cut.parallel (by rwa [cut.flatten])

/-! ## The gates in the order of their levels -/

/-- The gates with their levels. -/
def leveled (levels : Levels) : List (Gate α) → List (Gate α × Nat)
  | [] => []
  | gate :: rest => (gate, gateLevel levels gate) :: leveled (raise levels gate) rest

theorem map_fst_leveled (levels : Levels) (gates : List (Gate α)) :
    (leveled levels gates).map Prod.fst = gates := by
  induction gates generalizing levels with
  | nil => rfl
  | cons gate gates ih => rw [leveled, List.map_cons, ih]

theorem gateLevel_le_of_mem_leveled {levels : Levels} {gates : List (Gate α)} :
    ∀ entry ∈ leveled levels gates, gateLevel levels entry.1 ≤ entry.2 := by
  induction gates generalizing levels with
  | nil => simp [leveled]
  | cons gate gates ih =>
      refine List.forall_mem_cons.mpr ⟨Nat.le_refl _, fun entry later => ?_⟩
      exact (gateLevel_le_gateLevel_raise levels gate entry.1).trans (ih entry later)

theorem le_highestLevel_of_mem_leveled {levels : Levels} {highest : Nat} {gates : List (Gate α)} :
    ∀ entry ∈ leveled levels gates, entry.2 ≤ highestLevel levels highest gates := by
  induction gates generalizing levels highest with
  | nil => simp [leveled]
  | cons gate gates ih =>
      refine List.forall_mem_cons.mpr ⟨?_, ih⟩
      exact (Nat.le_max_right _ _).trans (le_highestLevel _ _ gates)

/-- Of two gates that share a qubit, the later one is at the higher level. -/
theorem pairwise_leveled (levels : Levels) (gates : List (Gate α)) :
    (leveled levels gates).Pairwise fun left right =>
      left.1.overlaps right.1 = true → left.2 < right.2 := by
  induction gates generalizing levels with
  | nil => exact .nil
  | cons gate gates ih =>
      refine List.pairwise_cons.mpr ⟨fun entry later meets => ?_, ih _⟩
      have above := gateLevel_le_of_mem_leveled entry later
      rw [gateLevel_raise_of_meets meets] at above
      exact (Nat.le_max_left _ _).trans above

/-- The gates at the last level go behind all others, and they can run together. -/
theorem exists_last_level {bound : Nat} {entries : List (Gate α × Nat)}
    (ordered : entries.Pairwise fun left right =>
      left.1.overlaps right.1 = true → left.2 < right.2)
    (within : ∀ entry ∈ entries, 0 < entry.2 ∧ entry.2 ≤ bound + 1) :
    ∃ (early : List (Gate α × Nat)) (last : List (Gate α)),
      Interleaved (entries.map Prod.fst) (early.map Prod.fst ++ last) ∧ early.Sublist entries ∧
        (∀ entry ∈ early, 0 < entry.2 ∧ entry.2 ≤ bound) ∧ Parallel last := by
  let isEarly : Gate α × Nat → Bool := fun entry => entry.2 ≤ bound
  refine ⟨entries.filter isEarly, (entries.filter (!isEarly ·)).map Prod.fst, ?_,
    List.filter_sublist, ?_, ?_⟩
  · refine Interleaved.partition isEarly (ordered.imp fun rises leftLate rightEarly => ?_)
    refine Bool.eq_false_iff.mpr fun meets => ?_
    have rise := rises meets
    have leftAbove := of_decide_eq_false leftLate
    have rightBelow := of_decide_eq_true rightEarly
    omega
  · intro entry kept
    obtain ⟨member, below⟩ := List.mem_filter.mp kept
    exact ⟨(within entry member).1, of_decide_eq_true below⟩
  · refine List.pairwise_map.mpr ((ordered.filter _).imp_of_mem ?_)
    intro left right inLeft inRight rises
    refine Bool.eq_false_iff.mpr fun meets => ?_
    have rise := rises meets
    obtain ⟨leftMember, leftLate⟩ := List.mem_filter.mp inLeft
    have leftAbove : ¬ left.2 ≤ bound := by simpa [isEarly] using leftLate
    have rightBelow := (within right (List.mem_filter.mp inRight).1).2
    omega

/-- Gates at levels up to a bound can be exchanged into as many blocks. -/
theorem exists_cut_of_levels (bound : Nat) {entries : List (Gate α × Nat)}
    (ordered : entries.Pairwise fun left right =>
      left.1.overlaps right.1 = true → left.2 < right.2)
    (within : ∀ entry ∈ entries, 0 < entry.2 ∧ entry.2 ≤ bound) :
    ∃ cut : List (List (Gate α)), (∀ block ∈ cut, Parallel block) ∧ cut.length = bound ∧
      Interleaved (entries.map Prod.fst) cut.flatten := by
  induction bound generalizing entries with
  | zero =>
      cases entries with
      | nil => exact ⟨[], by simp, rfl, Interleaved.refl []⟩
      | cons entry entries =>
          have bounds := within entry List.mem_cons_self
          omega
  | succ bound ih =>
      obtain ⟨early, last, split, sublist, below, lastParallel⟩ := exists_last_level ordered within
      obtain ⟨cut, parallel, length, reordered⟩ := ih (ordered.sublist sublist) below
      refine ⟨cut ++ [last], ?_, ?_, ?_⟩
      · simpa [or_imp, forall_and] using ⟨parallel, lastParallel⟩
      · rw [List.length_append, length, List.length_singleton]
      · rw [List.flatten_append, List.flatten_singleton]
        exact split.trans (reordered.append_right last)

theorem exists_interleaved_depth_le (gates : List (Gate α)) :
    ∃ gates', Interleaved gates gates' ∧ depth gates' ≤ criticalPathLength gates := by
  obtain ⟨cut, parallel, length, interleaved⟩ :=
    exists_cut_of_levels (criticalPathLength gates) (pairwise_leveled [] gates)
      fun entry member => ⟨(gateLevel_pos [] entry.1).trans_le
        (gateLevel_le_of_mem_leveled entry member), le_highestLevel_of_mem_leveled entry member⟩
  rw [map_fst_leveled] at interleaved
  exact ⟨cut.flatten, interleaved, length ▸ depth_le_of_isCut ⟨rfl, parallel⟩⟩

/-- The critical path length is the length of the longest chain of a gate list, the same for all of
its interleavings, and the least of their depths. -/
theorem criticalPathLength_longest_chain_least_depth (gates : List (Gate α)) :
    IsGreatest {count | ∃ chain : List (Gate α), chain.Sublist gates ∧ Chained chain ∧
        chain.length = count} (criticalPathLength gates) ∧
      (∀ gates', Interleaved gates gates' →
        criticalPathLength gates' = criticalPathLength gates) ∧
      IsLeast {count | ∃ gates', Interleaved gates gates' ∧ depth gates' = count}
        (criticalPathLength gates) := by
  refine ⟨isGreatest_criticalPathLength gates,
    fun gates' => criticalPathLength_eq_of_interleaved, ?_, ?_⟩
  · obtain ⟨gates', interleaved, depthLe⟩ := exists_interleaved_depth_le gates
    refine ⟨gates', interleaved, Nat.le_antisymm depthLe ?_⟩
    rw [← criticalPathLength_eq_of_interleaved interleaved]
    exact criticalPathLength_le_depth gates'
  · rintro count ⟨gates', interleaved, rfl⟩
    rw [← criticalPathLength_eq_of_interleaved interleaved]
    exact criticalPathLength_le_depth gates'

end Schedule

end Peephole
