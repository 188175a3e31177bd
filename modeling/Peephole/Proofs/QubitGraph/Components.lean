import Mathlib.Algebra.GroupWithZero.Nat
import Mathlib.Combinatorics.SimpleGraph.Connectivity.Connected
import Peephole.Proofs.QubitGraph.Edges

/-!
# Components of a graph of qubits

Every qubit begins as a block of its own, and each edge joins the blocks that hold its ends. A join
moves no qubit in or out, splits no block and puts the ends of its edge together; what it puts
together is linked, and at most one block is lost (`Blocks.join`). After all edges the blocks are
the connected components (`mem_iff_reachable`). As no more blocks are lost than there are edges,
there are at least so many components, and none is larger than one more than the number of edges.
-/

namespace Peephole

namespace QubitGraph

/-! ## Joining blocks -/

section Join

variable {blocks : List (List Nat)} {edge : Nat × Nat}

/-- Whether a block holds an end of an edge. -/
def touches (edge : Nat × Nat) (block : List Nat) : Bool :=
  block.contains edge.1 || block.contains edge.2

theorem touches_iff {block : List Nat} :
    touches edge block = true ↔ edge.1 ∈ block ∨ edge.2 ∈ block := by
  rw [touches, Bool.or_eq_true, List.contains_iff_mem, List.contains_iff_mem]

theorem joinBlocks_eq (blocks : List (List Nat)) (edge : Nat × Nat) :
    joinBlocks blocks edge =
      if (blocks.filter (touches edge)).isEmpty then blocks.filter (! touches edge ·)
      else (blocks.filter (touches edge)).flatten :: blocks.filter (! touches edge ·) := by
  rw [joinBlocks, List.partition_eq_filter_filter]
  rfl

theorem mem_joinBlocks {joined : List Nat} :
    joined ∈ joinBlocks blocks edge ↔
      (joined ∈ blocks ∧ touches edge joined = false) ∨
        (blocks.filter (touches edge) ≠ [] ∧ joined = (blocks.filter (touches edge)).flatten) := by
  rw [joinBlocks_eq]
  split
  · rename_i untouched
    have none : blocks.filter (touches edge) = [] := List.isEmpty_iff.mp untouched
    simp [none]
  · rename_i touched
    have some : blocks.filter (touches edge) ≠ [] := fun none => touched (List.isEmpty_iff.mpr none)
    rw [List.mem_cons, List.mem_filter, Bool.not_eq_true', or_comm]
    exact or_congr_right ⟨fun same => ⟨some, same⟩, And.right⟩

/-- No qubit gets in or out. -/
theorem perm_flatten_joinBlocks (blocks : List (List Nat)) (edge : Nat × Nat) :
    (joinBlocks blocks edge).flatten.Perm blocks.flatten := by
  have parts : (joinBlocks blocks edge).flatten =
      (blocks.filter (touches edge) ++ blocks.filter (! touches edge ·)).flatten := by
    rw [joinBlocks_eq, List.flatten_append]
    split
    · rename_i untouched
      rw [List.isEmpty_iff.mp untouched]
      rfl
    · rfl
  rw [parts]
  exact (List.filter_append_perm (touches edge) blocks).flatten

/-- No block is split. -/
theorem exists_subset_joinBlocks (edge : Nat × Nat) {block : List Nat} (member : block ∈ blocks) :
    ∃ joined ∈ joinBlocks blocks edge, block ⊆ joined := by
  cases touched : touches edge block with
  | false => exact ⟨block, mem_joinBlocks.mpr (.inl ⟨member, touched⟩), fun _ inside => inside⟩
  | true =>
      have kept := List.mem_filter.mpr ⟨member, touched⟩
      exact ⟨_, mem_joinBlocks.mpr (.inr ⟨List.ne_nil_of_mem kept, rfl⟩),
        fun qubit inside => List.mem_flatten.mpr ⟨block, kept, inside⟩⟩

/-- The ends of the edge get into one block. -/
theorem exists_ends_joinBlocks (first : edge.1 ∈ blocks.flatten)
    (second : edge.2 ∈ blocks.flatten) :
    ∃ joined ∈ joinBlocks blocks edge, edge.1 ∈ joined ∧ edge.2 ∈ joined := by
  obtain ⟨left, inLeft, leftEnd⟩ := List.mem_flatten.mp first
  obtain ⟨right, inRight, rightEnd⟩ := List.mem_flatten.mp second
  have left' := List.mem_filter.mpr ⟨inLeft, touches_iff.mpr (.inl leftEnd)⟩
  have right' := List.mem_filter.mpr ⟨inRight, touches_iff.mpr (.inr rightEnd)⟩
  exact ⟨_, mem_joinBlocks.mpr (.inr ⟨List.ne_nil_of_mem left', rfl⟩),
    List.mem_flatten.mpr ⟨left, left', leftEnd⟩, List.mem_flatten.mpr ⟨right, right', rightEnd⟩⟩

theorem filled_joinBlocks (filled : ∀ block ∈ blocks, block ≠ []) :
    ∀ joined ∈ joinBlocks blocks edge, joined ≠ [] := by
  intro joined member
  rcases mem_joinBlocks.mp member with ⟨inBlocks, -⟩ | ⟨some, rfl⟩
  · exact filled joined inBlocks
  · obtain ⟨block, touched⟩ := List.exists_mem_of_ne_nil _ some
    exact List.flatten_ne_nil_iff.mpr ⟨block, touched, filled block (List.mem_filter.mp touched).1⟩

/-- What is put together is linked through the edge. -/
theorem linked_joinBlocks {linked : Nat → Nat → Prop} (equivalence : Equivalence linked)
    (ends : linked edge.1 edge.2)
    (inside : ∀ block ∈ blocks, ∀ left ∈ block, ∀ right ∈ block, linked left right) :
    ∀ joined ∈ joinBlocks blocks edge, ∀ left ∈ joined, ∀ right ∈ joined, linked left right := by
  have toEnd : ∀ qubit ∈ (blocks.filter (touches edge)).flatten, linked qubit edge.1 := by
    intro qubit member
    obtain ⟨block, kept, here⟩ := List.mem_flatten.mp member
    obtain ⟨inBlocks, touched⟩ := List.mem_filter.mp kept
    rcases touches_iff.mp touched with first | second
    · exact inside block inBlocks qubit here edge.1 first
    · exact equivalence.trans (inside block inBlocks qubit here edge.2 second)
        (equivalence.symm ends)
  intro joined member left inLeft right inRight
  rcases mem_joinBlocks.mp member with ⟨inBlocks, -⟩ | ⟨-, rfl⟩
  · exact inside joined inBlocks left inLeft right inRight
  · exact equivalence.trans (toEnd left inLeft) (equivalence.symm (toEnd right inRight))

theorem countP_contains_le (blocks : List (List Nat)) (qubit : Nat) :
    blocks.countP (·.contains qubit) ≤ blocks.flatten.count qubit := by
  induction blocks with
  | nil => exact Nat.le_refl 0
  | cons block blocks ih =>
      rw [List.countP_cons, List.flatten_cons, List.count_append]
      split
      · rename_i here
        have once := List.count_pos_iff.mpr (List.contains_iff_mem.mp here)
        omega
      · omega

theorem countP_touches_le (blocks : List (List Nat)) (edge : Nat × Nat) :
    blocks.countP (touches edge) ≤
      blocks.countP (·.contains edge.1) + blocks.countP (·.contains edge.2) := by
  induction blocks with
  | nil => exact Nat.le_refl 0
  | cons block blocks ih =>
      rw [List.countP_cons, List.countP_cons, List.countP_cons, touches]
      cases block.contains edge.1 <;> cases block.contains edge.2 <;>
        simp only [Bool.or_true, Bool.or_false, Bool.false_eq_true, ↓reduceIte] <;> omega

/-- An edge has two ends, so it touches at most two blocks. -/
theorem length_touched_le (edge : Nat × Nat) (apart : blocks.flatten.Nodup) :
    (blocks.filter (touches edge)).length ≤ 2 := by
  have once := List.nodup_iff_count_le_one.mp apart
  calc (blocks.filter (touches edge)).length
      = blocks.countP (touches edge) := List.countP_eq_length_filter.symm
    _ ≤ blocks.countP (·.contains edge.1) + blocks.countP (·.contains edge.2) :=
        countP_touches_le blocks edge
    _ ≤ 1 + 1 := Nat.add_le_add ((countP_contains_le blocks edge.1).trans (once edge.1))
        ((countP_contains_le blocks edge.2).trans (once edge.2))

/-- At most one block is lost. -/
theorem length_le_length_joinBlocks (edge : Nat × Nat) (apart : blocks.flatten.Nodup) :
    blocks.length ≤ (joinBlocks blocks edge).length + 1 := by
  have parts := (List.filter_append_perm (touches edge) blocks).length_eq
  have touched := length_touched_le edge apart
  rw [List.length_append] at parts
  rw [joinBlocks_eq]
  split
  · rename_i untouched
    rw [List.isEmpty_iff.mp untouched] at parts
    rw [List.length_nil] at parts
    omega
  · rw [List.length_cons]
    omega

end Join

/-! ## All edges -/

/-- What the blocks are after some of the edges of a graph. -/
structure Blocks (graph : QubitGraph) (done : List (Nat × Nat)) (blocks : List (List Nat)) :
    Prop where
  perm : blocks.flatten.Perm (List.range graph.size)
  filled : ∀ block ∈ blocks, block ≠ []
  joined : ∀ edge ∈ done, ∃ block ∈ blocks, edge.1 ∈ block ∧ edge.2 ∈ block
  linked : ∀ block ∈ blocks, ∀ left ∈ block, ∀ right ∈ block, graph.adjacent.Reachable left right
  many : graph.size ≤ blocks.length + done.length

namespace Blocks

variable {graph : QubitGraph}

theorem singles (graph : QubitGraph) :
    graph.Blocks [] ((List.range graph.size).map fun qubit => [qubit]) where
  perm := by rw [← List.flatMap_def, List.flatMap_singleton']
  filled := by simp
  joined := nofun
  linked := by
    intro block member left inLeft right inRight
    obtain ⟨qubit, -, rfl⟩ := List.mem_map.mp member
    rw [List.mem_singleton.mp inLeft, List.mem_singleton.mp inRight]
  many := by simp

theorem mem_flatten {done : List (Nat × Nat)} {blocks : List (List Nat)}
    (state : graph.Blocks done blocks) {qubit : Nat} (inside : qubit < graph.size) :
    qubit ∈ blocks.flatten :=
  state.perm.mem_iff.mpr (List.mem_range.mpr inside)

theorem nodup {done : List (Nat × Nat)} {blocks : List (List Nat)}
    (state : graph.Blocks done blocks) : blocks.flatten.Nodup :=
  state.perm.nodup_iff.mpr List.nodup_range

/-- One more edge. -/
theorem join (tidy : graph.Tidy) {done : List (Nat × Nat)} {blocks : List (List Nat)}
    (state : graph.Blocks done blocks) {edge : Nat × Nat} (listed : edge ∈ graph.edges) :
    graph.Blocks (done ++ [edge]) (joinBlocks blocks edge) := by
  obtain ⟨lower, inside⟩ := tidy edge listed
  have ends : graph.adjacent.Reachable edge.1 edge.2 :=
    (tidy.adjacent_iff.mpr (tidy.hasEdge_iff.mpr ⟨edge, listed, .inl rfl⟩)).reachable
  refine ⟨(perm_flatten_joinBlocks blocks edge).trans state.perm, filled_joinBlocks state.filled,
    ?_, linked_joinBlocks graph.adjacent.reachable_is_equivalence ends state.linked, ?_⟩
  · intro other member
    rcases List.mem_append.mp member with earlier | new
    · obtain ⟨block, inBlocks, first, second⟩ := state.joined other earlier
      obtain ⟨joined, inJoined, subset⟩ := exists_subset_joinBlocks edge inBlocks
      exact ⟨joined, inJoined, subset first, subset second⟩
    · obtain rfl := List.mem_singleton.mp new
      exact exists_ends_joinBlocks (state.mem_flatten (lower.trans inside))
        (state.mem_flatten inside)
  · have lost := length_le_length_joinBlocks edge state.nodup
    have many := state.many
    rw [List.length_append, List.length_singleton]
    omega

theorem foldl (tidy : graph.Tidy) {done rest : List (Nat × Nat)} {blocks : List (List Nat)}
    (state : graph.Blocks done blocks) (listed : ∀ edge ∈ rest, edge ∈ graph.edges) :
    graph.Blocks (done ++ rest) (rest.foldl joinBlocks blocks) := by
  induction rest generalizing done blocks with
  | nil => rwa [List.append_nil]
  | cons edge rest ih =>
      rw [List.forall_mem_cons] at listed
      rw [List.foldl_cons, ← List.singleton_append, ← List.append_assoc]
      exact ih (state.join tidy listed.1) listed.2

end Blocks

/-! ## Components -/

theorem length_add_length_le_flatten {blocks : List (List Nat)}
    (filled : ∀ block ∈ blocks, block ≠ []) :
    blocks.length ≤ blocks.flatten.length ∧
      ∀ block ∈ blocks, block.length + blocks.length ≤ blocks.flatten.length + 1 := by
  induction blocks with
  | nil => exact ⟨Nat.le_refl 0, nofun⟩
  | cons first blocks ih =>
      rw [List.forall_mem_cons] at filled
      obtain ⟨total, each⟩ := ih filled.2
      have some := List.length_pos_iff.mpr filled.1
      rw [List.flatten_cons, List.length_append, List.length_cons]
      refine ⟨by omega, List.forall_mem_cons.mpr ⟨by omega, fun block member => ?_⟩⟩
      have other := each block member
      omega

namespace Tidy

variable {graph : QubitGraph} (tidy : graph.Tidy)

include tidy

theorem blocks_components : graph.Blocks graph.edges graph.components :=
  (Blocks.singles graph).foldl tidy fun _ listed => listed

/-- Every qubit is in one component. -/
theorem perm_components : graph.components.flatten.Perm (List.range graph.size) :=
  tidy.blocks_components.perm

theorem sum_length_components : (graph.components.map List.length).sum = graph.size := by
  rw [← List.length_flatten, tidy.perm_components.length_eq, List.length_range]

/-- A component holds what can be reached from any of its qubits. -/
theorem mem_iff_reachable {block : List Nat} (member : block ∈ graph.components) {left right : Nat}
    (inside : left ∈ block) : right ∈ block ↔ graph.adjacent.Reachable left right := by
  have state := tidy.blocks_components
  refine ⟨state.linked block member left inside right, ?_⟩
  rintro ⟨walk⟩
  induction walk with
  | nil => exact inside
  | cons adjacent walk ih =>
      refine ih ?_
      rename_i start next _
      obtain ⟨edge, listed, ends⟩ := tidy.hasEdge_iff.mp (tidy.adjacent_iff.mp adjacent)
      obtain ⟨other, inOther, first, second⟩ := state.joined edge listed
      have both : start ∈ other ∧ next ∈ other := by
        rcases ends with rfl | rfl
        · exact ⟨first, second⟩
        · exact ⟨second, first⟩
      have disjoint := (List.nodup_flatten.mp state.nodup).2
      have same : other = block := by
        by_contra differ
        have : Std.Symm (@List.Disjoint Nat) := ⟨fun _ _ apart => apart.symm⟩
        exact disjoint.forall inOther member differ both.1 inside
      exact same ▸ both.2

/-- Each edge costs at most one component. -/
theorem size_le_components : graph.size ≤ graph.components.length + graph.edges.length :=
  tidy.blocks_components.many

/-- Each qubit of a component but one takes an edge. -/
theorem length_le_of_mem_components {block : List Nat} (member : block ∈ graph.components) :
    block.length ≤ graph.edges.length + 1 := by
  have state := tidy.blocks_components
  have sizes := (length_add_length_le_flatten state.filled).2 block member
  have many := state.many
  rw [state.perm.length_eq, List.length_range] at sizes
  omega

end Tidy

end QubitGraph

end Peephole
