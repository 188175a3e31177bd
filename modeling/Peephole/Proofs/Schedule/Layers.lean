import Mathlib.Data.List.Chain
import Mathlib.Order.Bounds.Basic
import Peephole.Proofs.Gate.Overlap
import Peephole.Schedule

/-!
# Layers as a least cut

A cut of a gate list is a division of it into consecutive blocks in none of which two gates act on
a common qubit. The layers are such a cut (`isCut_blocks`), and each layer but the first begins with
a gate that the layer before it could not take up (`isChain_blocks`). No cut has fewer blocks
(`depth_le_of_isCut`): whatever the greedy cut has under construction, a block of another cut
closes it at most once, since the block opened in its place takes up all that remains.
-/

namespace Peephole

variable {α : Type}

namespace Schedule

/-! ## Blocks of gates that run together -/

/-- No two gates of a list act on a common qubit. -/
def Parallel (block : List (Gate α)) : Prop :=
  block.Pairwise fun left right => left.overlaps right = false

theorem parallel_singleton (gate : Gate α) : Parallel [gate] :=
  List.pairwise_singleton _ gate

theorem parallel_append_singleton {block : List (Gate α)} {gate : Gate α} :
    Parallel (block ++ [gate]) ↔
      Parallel block ∧ ∀ other ∈ block, gate.overlaps other = false := by
  unfold Parallel
  rw [List.pairwise_append]
  simp [Gate.overlaps_comm gate]

/-- The qubits of gates that run together are all different. -/
theorem Parallel.nodup_qubits {block : List (Gate α)} (parallel : Parallel block) :
    (block.flatMap Gate.qubits).Nodup := by
  refine List.pairwise_flatMap.mpr ⟨fun gate _ => gate.operation.nodup_qubits, ?_⟩
  refine parallel.imp fun apart qubit inLeft other inRight same => ?_
  subst same
  exact Gate.overlaps_eq_false_iff.mp apart qubit inLeft inRight

/-- Consecutive blocks of a gate list, each of gates that run together. -/
structure IsCut (gates : List (Gate α)) (cut : List (List (Gate α))) : Prop where
  flatten : cut.flatten = gates
  parallel : ∀ block ∈ cut, Parallel block

theorem IsCut.cons {gates block : List (Gate α)} {cut : List (List (Gate α))}
    (parallel : Parallel block) (isCut : IsCut gates cut) :
    IsCut (block ++ gates) (block :: cut) where
  flatten := by rw [List.flatten_cons, isCut.flatten]
  parallel := List.forall_mem_cons.mpr ⟨parallel, isCut.parallel⟩

/-! ## The greedy cut -/

theorem blocksFrom_cons_of_meets {block : List (Gate α)} {gate : Gate α} (rest : List (Gate α))
    (meets : ∃ other ∈ block, gate.overlaps other = true) :
    blocksFrom block (gate :: rest) = block :: blocksFrom [gate] rest := by
  rw [blocksFrom, if_pos (List.any_eq_true.mpr meets)]

theorem blocksFrom_cons_of_apart {block : List (Gate α)} {gate : Gate α} (rest : List (Gate α))
    (apart : ∀ other ∈ block, gate.overlaps other = false) :
    blocksFrom block (gate :: rest) = blocksFrom (block ++ [gate]) rest := by
  rw [blocksFrom, if_neg]
  simpa using apart

/-- A gate shares a qubit with some gate of a block or with none. -/
theorem meets_or_apart (block : List (Gate α)) (gate : Gate α) :
    (∃ other ∈ block, gate.overlaps other = true) ∨
      ∀ other ∈ block, gate.overlaps other = false := by
  by_cases meets : ∃ other ∈ block, gate.overlaps other = true
  · exact Or.inl meets
  · exact Or.inr (by simpa using meets)

/-- The block under construction only grows until it is closed. -/
theorem exists_blocksFrom_eq_cons (block rest : List (Gate α)) :
    ∃ more later, blocksFrom block rest = (block ++ more) :: later := by
  induction rest generalizing block with
  | nil => exact ⟨[], [], by rw [blocksFrom, List.append_nil]⟩
  | cons gate rest ih =>
      rcases meets_or_apart block gate with meets | apart
      · rw [blocksFrom_cons_of_meets rest meets]
        exact ⟨[], blocksFrom [gate] rest, by rw [List.append_nil]⟩
      · rw [blocksFrom_cons_of_apart rest apart]
        obtain ⟨more, later, grown⟩ := ih (block ++ [gate])
        exact ⟨gate :: more, later, by rw [grown, List.append_assoc, List.singleton_append]⟩

theorem isCut_blocksFrom {block : List (Gate α)} (parallel : Parallel block)
    (rest : List (Gate α)) : IsCut (block ++ rest) (blocksFrom block rest) := by
  induction rest generalizing block with
  | nil => exact ⟨by simp [blocksFrom], by simpa [blocksFrom] using parallel⟩
  | cons gate rest ih =>
      rcases meets_or_apart block gate with meets | apart
      · rw [blocksFrom_cons_of_meets rest meets]
        exact .cons parallel (ih (parallel_singleton gate))
      · rw [blocksFrom_cons_of_apart rest apart]
        have grown := ih (parallel_append_singleton.mpr ⟨parallel, apart⟩)
        rwa [List.append_assoc, List.singleton_append] at grown

/-- The layers are a cut. -/
theorem isCut_blocks (gates : List (Gate α)) : IsCut gates (blocks gates) := by
  cases gates with
  | nil => exact ⟨rfl, by simp [blocks]⟩
  | cons gate rest => exact isCut_blocksFrom (parallel_singleton gate) rest

theorem ne_nil_of_mem_blocksFrom {block : List (Gate α)} (started : block ≠ [])
    (rest : List (Gate α)) : ∀ other ∈ blocksFrom block rest, other ≠ [] := by
  induction rest generalizing block with
  | nil => simpa [blocksFrom] using started
  | cons gate rest ih =>
      rcases meets_or_apart block gate with meets | apart
      · rw [blocksFrom_cons_of_meets rest meets]
        exact List.forall_mem_cons.mpr ⟨started, ih (List.cons_ne_nil gate [])⟩
      · rw [blocksFrom_cons_of_apart rest apart]
        exact ih (by simp)

theorem ne_nil_of_mem_blocks (gates : List (Gate α)) : ∀ block ∈ blocks gates, block ≠ [] := by
  cases gates with
  | nil => simp [blocks]
  | cons gate rest => exact ne_nil_of_mem_blocksFrom (List.cons_ne_nil gate []) rest

/-- A block begins with a gate that shares a qubit with the block before it. -/
def Blocked (block next : List (Gate α)) : Prop :=
  ∃ gate ∈ next.head?, ∃ other ∈ block, gate.overlaps other = true

theorem isChain_blocksFrom (block rest : List (Gate α)) :
    (blocksFrom block rest).IsChain Blocked := by
  induction rest generalizing block with
  | nil => exact .singleton block
  | cons gate rest ih =>
      rcases meets_or_apart block gate with meets | apart
      · rw [blocksFrom_cons_of_meets rest meets]
        have later := ih [gate]
        obtain ⟨more, blocks, opened⟩ := exists_blocksFrom_eq_cons [gate] rest
        rw [opened] at later ⊢
        exact .cons_cons ⟨gate, rfl, meets⟩ later
      · rw [blocksFrom_cons_of_apart rest apart]
        exact ih (block ++ [gate])

theorem isChain_blocks (gates : List (Gate α)) : (blocks gates).IsChain Blocked := by
  cases gates with
  | nil => exact .nil
  | cons gate rest => exact isChain_blocksFrom [gate] rest

/-- A last gate opens a block of its own or joins the last block. -/
theorem blocksFrom_append_singleton (block rest : List (Gate α)) (gate : Gate α) :
    blocksFrom block (rest ++ [gate]) = blocksFrom block rest ++ [[gate]] ∨
      ∃ front last, blocksFrom block rest = front ++ [last] ∧
        blocksFrom block (rest ++ [gate]) = front ++ [last ++ [gate]] := by
  induction rest generalizing block with
  | nil =>
      rw [List.nil_append]
      rcases meets_or_apart block gate with meets | apart
      · exact .inl (blocksFrom_cons_of_meets [] meets)
      · exact .inr ⟨[], block, rfl, blocksFrom_cons_of_apart [] apart⟩
  | cons first rest ih =>
      rw [List.cons_append]
      rcases meets_or_apart block first with meets | apart
      · rw [blocksFrom_cons_of_meets _ meets, blocksFrom_cons_of_meets _ meets]
        rcases ih [first] with opened | ⟨front, last, closed, joined⟩
        · exact .inl (by rw [opened, List.cons_append])
        · exact .inr ⟨block :: front, last, by rw [closed, List.cons_append],
            by rw [joined, List.cons_append]⟩
      · rw [blocksFrom_cons_of_apart _ apart, blocksFrom_cons_of_apart _ apart]
        exact ih (block ++ [first])

theorem blocks_append_singleton (gates : List (Gate α)) (gate : Gate α) :
    blocks (gates ++ [gate]) = blocks gates ++ [[gate]] ∨
      ∃ front last, blocks gates = front ++ [last] ∧
        blocks (gates ++ [gate]) = front ++ [last ++ [gate]] := by
  cases gates with
  | nil => exact .inl rfl
  | cons first rest => exact blocksFrom_append_singleton [first] rest gate

/-! ## No cut has fewer blocks -/

/-- The block under construction takes up gates that neither it nor they keep out. -/
theorem blocksFrom_append {block more : List (Gate α)} (rest : List (Gate α))
    (parallel : Parallel more)
    (apart : ∀ gate ∈ more, ∀ other ∈ block, gate.overlaps other = false) :
    blocksFrom block (more ++ rest) = blocksFrom (block ++ more) rest := by
  induction more generalizing block with
  | nil => rw [List.nil_append, List.append_nil]
  | cons gate more ih =>
      obtain ⟨apartMore, parallelMore⟩ := List.pairwise_cons.mp parallel
      rw [List.forall_mem_cons] at apart
      have apartGrown : ∀ later ∈ more, ∀ other ∈ block ++ [gate],
          later.overlaps other = false := by
        intro later inMore other inGrown
        rcases List.mem_append.mp inGrown with inBlock | isGate
        · exact apart.2 later inMore other inBlock
        · obtain rfl := List.mem_singleton.mp isGate
          rw [Gate.overlaps_comm, apartMore later inMore]
      rw [List.cons_append, blocksFrom_cons_of_apart _ apart.1, ih parallelMore apartGrown,
        List.append_assoc, List.singleton_append]

/-- The block that a gate opens takes up the gates that can run with it. -/
theorem blocksFrom_singleton_append {gate : Gate α} {more : List (Gate α)} (rest : List (Gate α))
    (parallel : Parallel (gate :: more)) :
    blocksFrom [gate] (more ++ rest) = blocksFrom (gate :: more) rest := by
  obtain ⟨apart, parallelMore⟩ := List.pairwise_cons.mp parallel
  refine blocksFrom_append rest parallelMore fun other inMore first isFirst => ?_
  obtain rfl := List.mem_singleton.mp isFirst
  rw [Gate.overlaps_comm, apart other inMore]

/-- A block of gates that run together costs at most one more greedy block. -/
theorem length_blocksFrom_append_le {next after : List (Gate α)} {bound : Nat}
    (parallel : Parallel next) (afterwards : ∀ block, (blocksFrom block after).length ≤ bound)
    (block : List (Gate α)) : (blocksFrom block (next ++ after)).length ≤ bound + 1 := by
  induction next generalizing block with
  | nil => exact Nat.le_succ_of_le (afterwards block)
  | cons gate next ih =>
      rw [List.cons_append]
      rcases meets_or_apart block gate with meets | apart
      · rw [blocksFrom_cons_of_meets _ meets, List.length_cons,
          blocksFrom_singleton_append after parallel]
        exact Nat.succ_le_succ (afterwards _)
      · rw [blocksFrom_cons_of_apart _ apart]
        exact ih (List.pairwise_cons.mp parallel).2 (block ++ [gate])

theorem length_blocksFrom_flatten_le {cut : List (List (Gate α))}
    (parallel : ∀ block ∈ cut, Parallel block) (block : List (Gate α)) :
    (blocksFrom block cut.flatten).length ≤ cut.length + 1 := by
  induction cut generalizing block with
  | nil => exact Nat.le_refl 1
  | cons next cut ih =>
      rw [List.forall_mem_cons] at parallel
      rw [List.flatten_cons, List.length_cons]
      exact length_blocksFrom_append_le parallel.1 (ih parallel.2) block

theorem length_blocks_flatten_le {cut : List (List (Gate α))}
    (parallel : ∀ block ∈ cut, Parallel block) : (blocks cut.flatten).length ≤ cut.length := by
  induction cut with
  | nil => exact Nat.le_refl 0
  | cons next cut ih =>
      rw [List.forall_mem_cons] at parallel
      cases next with
      | nil => exact Nat.le_succ_of_le (ih parallel.2)
      | cons gate next =>
          rw [List.flatten_cons, List.cons_append, blocks,
            blocksFrom_singleton_append _ parallel.1]
          exact length_blocksFrom_flatten_le parallel.2 (gate :: next)

/-! ## Depth -/

theorem depth_eq_length_blocks (gates : List (Gate α)) : depth gates = (blocks gates).length := by
  simp [depth, layers]

theorem depth_le_of_isCut {gates : List (Gate α)} {cut : List (List (Gate α))}
    (isCut : IsCut gates cut) : depth gates ≤ cut.length := by
  rw [depth_eq_length_blocks, ← isCut.flatten]
  exact length_blocks_flatten_le isCut.parallel

/-- The depth is the least number of blocks in a cut. -/
theorem isLeast_depth (gates : List (Gate α)) :
    IsLeast {count | ∃ cut, IsCut gates cut ∧ cut.length = count} (depth gates) := by
  constructor
  · exact ⟨blocks gates, isCut_blocks gates, (depth_eq_length_blocks gates).symm⟩
  · rintro count ⟨cut, isCut, rfl⟩
    exact depth_le_of_isCut isCut

/-! ## Layers -/

theorem map_gates_layers (gates : List (Gate α)) :
    (layers gates).map Layer.gates = blocks gates := by
  unfold layers
  rw [List.map_map]
  exact List.zipIdx_map_fst 0 (blocks gates)

theorem map_index_layers (gates : List (Gate α)) :
    (layers gates).map Layer.index = List.range (depth gates) := by
  rw [depth_eq_length_blocks, List.range_eq_range', ← List.zipIdx_map_snd 0 (blocks gates), layers,
    List.map_map]
  rfl

theorem qubits_of_mem_layers {gates : List (Gate α)} :
    ∀ layer ∈ layers gates, layer.qubits = layer.gates.flatMap Gate.qubits := by
  intro layer member
  obtain ⟨entry, _, rfl⟩ := List.mem_map.mp member
  rfl

theorem gates_mem_blocks {gates : List (Gate α)} {layer : Layer α}
    (member : layer ∈ layers gates) : layer.gates ∈ blocks gates := by
  rw [← map_gates_layers]
  exact List.mem_map_of_mem member

theorem isChain_layers (gates : List (Gate α)) :
    (layers gates).IsChain fun layer next =>
      ∃ gate ∈ next.gates.head?, ∃ qubit ∈ gate.qubits, qubit ∈ layer.qubits := by
  have chain := isChain_blocks gates
  rw [← map_gates_layers, List.isChain_map] at chain
  refine chain.imp_of_mem_imp fun layer next inLayers _ blocked => ?_
  obtain ⟨gate, isHead, other, inLayer, overlap⟩ := blocked
  obtain ⟨qubit, inGate, inOther⟩ := Gate.overlaps_iff.mp overlap
  refine ⟨gate, isHead, qubit, inGate, ?_⟩
  rw [qubits_of_mem_layers layer inLayers]
  exact List.mem_flatMap.mpr ⟨other, inLayer, inOther⟩

/-- The layers are numbered from zero, none is empty, together they are the gate list, and within
one no two gates share a qubit; each but the first begins with a gate that shares a qubit with the
layer before it. No cut of the list into blocks of gates that run together has fewer blocks. -/
theorem layers_least_cut (gates : List (Gate α)) :
    (layers gates).map Layer.index = List.range (depth gates) ∧
      (∀ layer ∈ layers gates, layer.gates ≠ [] ∧ Parallel layer.gates ∧ layer.qubits.Nodup ∧
        ∀ qubit, qubit ∈ layer.qubits ↔ ∃ gate ∈ layer.gates, qubit ∈ gate.qubits) ∧
      (layers gates).flatMap Layer.gates = gates ∧
      (layers gates).IsChain (fun layer next =>
        ∃ gate ∈ next.gates.head?, ∃ qubit ∈ gate.qubits, qubit ∈ layer.qubits) ∧
      IsLeast {count | ∃ cut, IsCut gates cut ∧ cut.length = count} (depth gates) := by
  have cut := isCut_blocks gates
  refine ⟨map_index_layers gates, ?_, ?_, isChain_layers gates, isLeast_depth gates⟩
  · intro layer member
    have inBlocks := gates_mem_blocks member
    have parallel := cut.parallel layer.gates inBlocks
    rw [qubits_of_mem_layers layer member]
    exact ⟨ne_nil_of_mem_blocks gates layer.gates inBlocks, parallel, parallel.nodup_qubits,
      fun qubit => List.mem_flatMap⟩
  · rw [List.flatMap_def, map_gates_layers, cut.flatten]

end Schedule

end Peephole
