import Mathlib.Algebra.Order.BigOperators.Group.List
import Peephole.Proofs.Schedule.Thinning

/-!
# How long layers take

A layer takes as long as its slowest gate, and layers run one after the other. Dropping gates makes
no layer of a cut slower, so a thinned list has a cut that takes no longer. But the greedy cut need
not be that one: a layer that closes earlier than before may leave slow gates behind that ran
together, and then both layers are slow. No block of another cut is torn like this more than once,
nor is the first one at all, so the greedy cut takes at most as long again as the blocks behind the
first (`totalSpan_blocks_le_of_thinned`).

Of a chain of gates no two fall into one block, so every cut takes as long as any chain at least;
and it takes no longer than all gates one by one.
-/

namespace Peephole

variable {α : Type}

namespace Schedule

variable (timeOf : GateKind → Nat)

/-- How long gates take that run together. -/
def span (block : List (Gate α)) : Nat :=
  block.foldl (fun longest gate => max longest (timeOf gate.kind)) 0

/-- How long blocks take one after the other. -/
def totalSpan (cut : List (List (Gate α))) : Nat :=
  (cut.map (span timeOf)).sum

variable {timeOf}

theorem totalSpan_cons (block : List (Gate α)) (cut : List (List (Gate α))) :
    totalSpan timeOf (block :: cut) = span timeOf block + totalSpan timeOf cut :=
  List.sum_cons

/-! ## Slowest gates -/

theorem foldl_longest_le_iff {block : List (Gate α)} {longest bound : Nat} :
    block.foldl (fun longest gate => max longest (timeOf gate.kind)) longest ≤ bound ↔
      longest ≤ bound ∧ ∀ gate ∈ block, timeOf gate.kind ≤ bound := by
  induction block generalizing longest with
  | nil => simp
  | cons gate block ih => rw [List.foldl_cons, ih, Nat.max_le, List.forall_mem_cons, and_assoc]

theorem span_le_iff {block : List (Gate α)} {bound : Nat} :
    span timeOf block ≤ bound ↔ ∀ gate ∈ block, timeOf gate.kind ≤ bound := by
  rw [span, foldl_longest_le_iff, and_iff_right (Nat.zero_le bound)]

theorem timeOf_le_span {block : List (Gate α)} {gate : Gate α} (member : gate ∈ block) :
    timeOf gate.kind ≤ span timeOf block :=
  span_le_iff.mp (Nat.le_refl _) gate member

theorem span_append_singleton (block : List (Gate α)) (gate : Gate α) :
    span timeOf (block ++ [gate]) = max (span timeOf block) (timeOf gate.kind) := by
  rw [span, List.foldl_append]
  rfl

theorem span_singleton (gate : Gate α) : span timeOf [gate] = timeOf gate.kind :=
  Nat.zero_max _

theorem span_le_sum (block : List (Gate α)) :
    span timeOf block ≤ (block.map fun gate => timeOf gate.kind).sum :=
  span_le_iff.mpr fun _ member => List.le_sum_of_mem (List.mem_map_of_mem member)

theorem span_le_of_thinned {block block' : List (Gate α)} (thinned : Thinned block block') :
    span timeOf block' ≤ span timeOf block := by
  refine span_le_iff.mpr fun gate member => ?_
  obtain ⟨origin, inBlock, same⟩ := thinned.exists_sameOperands gate member
  rw [same.kind]
  exact timeOf_le_span inBlock

/-- Blocks from which gates are dropped take no longer. -/
theorem totalSpan_le_of_thinned {cut cut' : List (List (Gate α))}
    (thinned : List.Forall₂ Thinned cut cut') : totalSpan timeOf cut' ≤ totalSpan timeOf cut := by
  induction thinned with
  | nil => exact Nat.le_refl _
  | cons thinnedBlock _ ih =>
      rw [totalSpan_cons, totalSpan_cons]
      exact Nat.add_le_add (span_le_of_thinned thinnedBlock) ih

theorem exists_cut_totalSpan_le {gates gates' : List (Gate α)} (thinned : Thinned gates gates')
    {cut : List (List (Gate α))} (isCut : IsCut gates cut) :
    ∃ cut', IsCut gates' cut' ∧ totalSpan timeOf cut' ≤ totalSpan timeOf cut := by
  obtain ⟨cut', isCut', thinnedCut⟩ := isCut.exists_thinned thinned
  exact ⟨cut', isCut', totalSpan_le_of_thinned thinnedCut⟩

/-! ## The greedy cut against another one -/

/-- A block of gates that run together is torn at most once: what the greedy cut has under
construction and what it opens next both take no longer than `most`. -/
theorem totalSpan_blocksFrom_append_le {next after : List (Gate α)} {most bound : Nat}
    (parallel : Parallel next) (short : ∀ gate ∈ next, timeOf gate.kind ≤ most)
    (afterwards : ∀ block, totalSpan timeOf (blocksFrom block after) ≤ span timeOf block + bound)
    (block : List (Gate α)) :
    totalSpan timeOf (blocksFrom block (next ++ after)) ≤
      max (span timeOf block) most + (most + bound) := by
  induction next generalizing block with
  | nil =>
      have rest := afterwards block
      rw [List.nil_append]
      omega
  | cons gate next ih =>
      obtain ⟨shortGate, shortRest⟩ := List.forall_mem_cons.mp short
      rw [List.cons_append]
      rcases meets_or_apart block gate with meets | apart
      · have opened : span timeOf (gate :: next) ≤ most := span_le_iff.mpr short
        have rest := afterwards (gate :: next)
        rw [blocksFrom_cons_of_meets _ meets, totalSpan_cons,
          blocksFrom_singleton_append after parallel]
        omega
      · have grown : max (span timeOf (block ++ [gate])) most = max (span timeOf block) most := by
          rw [span_append_singleton]
          omega
        have rest := ih (List.pairwise_cons.mp parallel).2 shortRest (block ++ [gate])
        rw [grown] at rest
        rw [blocksFrom_cons_of_apart _ apart]
        exact rest

theorem totalSpan_blocksFrom_flatten_le {cut : List (List (Gate α))}
    (parallel : ∀ block ∈ cut, Parallel block) (block : List (Gate α)) :
    totalSpan timeOf (blocksFrom block cut.flatten) ≤
      span timeOf block + (totalSpan timeOf cut + totalSpan timeOf cut) := by
  induction cut generalizing block with
  | nil => exact Nat.le_refl _
  | cons next cut ih =>
      rw [List.forall_mem_cons] at parallel
      have torn := totalSpan_blocksFrom_append_le parallel.1
        (fun gate member => timeOf_le_span member) (ih parallel.2) block
      rw [List.flatten_cons, totalSpan_cons]
      omega

theorem totalSpan_tail_le (cut : List (List (Gate α))) :
    totalSpan timeOf cut.tail ≤ totalSpan timeOf cut := by
  cases cut with
  | nil => exact Nat.le_refl _
  | cons block cut =>
      rw [totalSpan_cons, List.tail_cons]
      exact Nat.le_add_left _ _

theorem totalSpan_blocks_flatten_le {cut : List (List (Gate α))}
    (parallel : ∀ block ∈ cut, Parallel block) :
    totalSpan timeOf (blocks cut.flatten) ≤
      totalSpan timeOf cut + totalSpan timeOf cut.tail := by
  induction cut with
  | nil => exact Nat.le_refl _
  | cons first cut ih =>
      rw [List.forall_mem_cons] at parallel
      rw [List.flatten_cons, List.tail_cons, totalSpan_cons]
      cases first with
      | nil =>
          have later := ih parallel.2
          have tail : totalSpan timeOf cut.tail ≤ totalSpan timeOf cut := totalSpan_tail_le cut
          rw [List.nil_append]
          omega
      | cons gate first =>
          have later : totalSpan timeOf (blocksFrom (gate :: first) cut.flatten) ≤
              span timeOf (gate :: first) + (totalSpan timeOf cut + totalSpan timeOf cut) :=
            totalSpan_blocksFrom_flatten_le parallel.2 (gate :: first)
          rw [List.cons_append, blocks, blocksFrom_singleton_append _ parallel.1]
          omega

/-- The layers of a thinned list take at most as long as the layers before and those of them that
came after the first once more. -/
theorem totalSpan_blocks_le_of_thinned {gates gates' : List (Gate α)}
    (thinned : Thinned gates gates') :
    totalSpan timeOf (blocks gates') ≤
      totalSpan timeOf (blocks gates) + totalSpan timeOf (blocks gates).tail := by
  obtain ⟨cut, isCut, thinnedCut⟩ := (isCut_blocks gates).exists_thinned thinned
  have greedy : totalSpan timeOf (blocks cut.flatten) ≤
      totalSpan timeOf cut + totalSpan timeOf cut.tail :=
    totalSpan_blocks_flatten_le isCut.parallel
  have cutTime : totalSpan timeOf cut ≤ totalSpan timeOf (blocks gates) :=
    totalSpan_le_of_thinned thinnedCut
  have thinnedTail : List.Forall₂ Thinned (blocks gates).tail cut.tail := by
    simpa only [List.drop_one] using List.forall₂_drop 1 thinnedCut
  have tailTime : totalSpan timeOf cut.tail ≤ totalSpan timeOf (blocks gates).tail :=
    totalSpan_le_of_thinned thinnedTail
  rw [isCut.flatten] at greedy
  omega

/-! ## The greedy cut against its gates -/

section Gates

variable (timeOf)

theorem totalSpan_append (cut cut' : List (List (Gate α))) :
    totalSpan timeOf (cut ++ cut') = totalSpan timeOf cut + totalSpan timeOf cut' := by
  rw [totalSpan, List.map_append, List.sum_append]
  rfl

theorem Chained.sum_le_totalSpan {cut : List (List (Gate α))} {chain : List (Gate α)}
    (chained : Chained chain) (parallel : ∀ block ∈ cut, Parallel block)
    (sublist : chain.Sublist cut.flatten) :
    (chain.map fun gate => timeOf gate.kind).sum ≤ totalSpan timeOf cut :=
  chained.sum_le_sum_cut (fun gate => timeOf gate.kind) (span timeOf) parallel
    (fun _ _ _ => timeOf_le_span) sublist

/-- All gates on a qubit make up a chain. -/
theorem chained_filter_qubit (gates : List (Gate α)) (qubit : Int) :
    Chained (gates.filter (·.qubits.contains qubit)) := by
  refine List.Pairwise.isChain
    (List.pairwise_of_forall_mem_list fun left inLeft right inRight => ?_)
  have onLeft := List.contains_iff_mem.mp (List.mem_filter.mp inLeft).2
  have onRight := List.contains_iff_mem.mp (List.mem_filter.mp inRight).2
  exact Gate.overlaps_iff.mpr ⟨qubit, onLeft, onRight⟩

theorem totalSpan_le_sum (cut : List (List (Gate α))) :
    totalSpan timeOf cut ≤ (cut.flatten.map fun gate => timeOf gate.kind).sum := by
  induction cut with
  | nil => exact Nat.le_refl _
  | cons block cut ih =>
      rw [totalSpan_cons, List.flatten_cons, List.map_append, List.sum_append]
      exact Nat.add_le_add (span_le_sum block) ih

theorem totalSpan_le_length_mul (cut : List (List (Gate α))) :
    totalSpan timeOf cut ≤ cut.length * span timeOf cut.flatten := by
  have bound : ∀ time ∈ cut.map (span timeOf), time ≤ span timeOf cut.flatten := by
    intro time member
    obtain ⟨block, inCut, rfl⟩ := List.mem_map.mp member
    exact span_le_iff.mpr fun gate inBlock =>
      timeOf_le_span (List.mem_flatten_of_mem inCut inBlock)
  have total := List.sum_le_card_nsmul _ _ bound
  rwa [List.length_map, Nat.nsmul_eq_mul] at total

/-- One more gate never shortens the greedy cut, and lengthens it by its own time at most. -/
theorem totalSpan_blocks_append_singleton (gates : List (Gate α)) (gate : Gate α) :
    totalSpan timeOf (blocks gates) ≤ totalSpan timeOf (blocks (gates ++ [gate])) ∧
      totalSpan timeOf (blocks (gates ++ [gate])) ≤
        totalSpan timeOf (blocks gates) + timeOf gate.kind := by
  have single (block : List (Gate α)) : totalSpan timeOf [block] = span timeOf block :=
    Nat.add_zero _
  rcases blocks_append_singleton gates gate with opened | ⟨front, last, closed, joined⟩
  · rw [opened, totalSpan_append, single, span_singleton]
    omega
  · rw [closed, joined, totalSpan_append, totalSpan_append, single, single, span_append_singleton]
    omega

end Gates

/-! ## Gates that take equally long -/

theorem span_of_uniform {block : List (Gate α)} {time : Nat} (some : block ≠ [])
    (uniform : ∀ gate ∈ block, timeOf gate.kind = time) : span timeOf block = time := by
  refine Nat.le_antisymm (span_le_iff.mpr fun gate member => (uniform gate member).le) ?_
  obtain ⟨gate, member⟩ := List.exists_mem_of_ne_nil block some
  rw [← uniform gate member]
  exact timeOf_le_span member

/-- If every gate takes equally long, the depth is the measure of time. -/
theorem totalSpan_blocks_of_uniform {gates : List (Gate α)} {time : Nat}
    (uniform : ∀ gate ∈ gates, timeOf gate.kind = time) :
    totalSpan timeOf (blocks gates) = depth gates * time := by
  have spans : ∀ block ∈ blocks gates, span timeOf block = time := by
    intro block member
    refine span_of_uniform (ne_nil_of_mem_blocks gates block member) fun gate inBlock => ?_
    refine uniform gate ?_
    rw [← (isCut_blocks gates).flatten]
    exact List.mem_flatten_of_mem member inBlock
  rw [totalSpan, List.map_congr_left spans, List.map_const', List.sum_replicate_nat,
    depth_eq_length_blocks]

theorem totalSpan_blocks_le_of_uniform {gates gates' : List (Gate α)}
    (thinned : Thinned gates gates') {time : Nat}
    (uniform : ∀ gate ∈ gates, timeOf gate.kind = time) :
    totalSpan timeOf (blocks gates') ≤ totalSpan timeOf (blocks gates) := by
  have uniform' : ∀ gate ∈ gates', timeOf gate.kind = time := by
    intro gate member
    obtain ⟨origin, inGates, same⟩ := thinned.exists_sameOperands gate member
    rw [same.kind]
    exact uniform origin inGates
  rw [totalSpan_blocks_of_uniform uniform, totalSpan_blocks_of_uniform uniform']
  exact Nat.mul_le_mul_right time (depth_le_of_thinned thinned)

end Schedule

end Peephole
