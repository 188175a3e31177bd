import Mathlib.Combinatorics.SimpleGraph.Basic
import Peephole.QubitGraph

/-!
# Edges between qubits

Graphs are made from pairs of qubits or from a relation on them, and are asked whether two qubits
have an edge. Making one sorts the pairs, turns them round and drops repeated ones; the answer does
not show any of that (`hasEdge_ofPairs`, `hasEdge_ofRelation`).
-/

namespace Peephole

namespace QubitGraph

/-! ## Tidy graphs -/

/-- Every edge has its lower end first, and its ends are qubits. -/
def Tidy (graph : QubitGraph) : Prop :=
  ∀ edge ∈ graph.edges, edge.1 < edge.2 ∧ edge.2 < graph.size

theorem orient_of_lt {left right : Nat} (lower : left < right) :
    orient (left, right) = (left, right) := by
  rw [orient, min_eq_left lower.le, max_eq_right lower.le]

theorem orient_comm (left right : Nat) : orient (left, right) = orient (right, left) := by
  rw [orient, orient, min_comm, max_comm]

theorem hasEdge_iff {graph : QubitGraph} {left right : Nat} :
    graph.hasEdge left right = true ↔ orient (left, right) ∈ graph.edges :=
  List.contains_iff_mem

theorem hasEdge_comm (graph : QubitGraph) (left right : Nat) :
    graph.hasEdge left right = graph.hasEdge right left := by
  rw [hasEdge, hasEdge, orient_comm]

/-- In a tidy graph an edge is listed in one of two ways. -/
theorem Tidy.hasEdge_iff {graph : QubitGraph} (tidy : graph.Tidy) {left right : Nat} :
    graph.hasEdge left right = true ↔
      ∃ edge ∈ graph.edges, edge = (left, right) ∨ edge = (right, left) := by
  rw [QubitGraph.hasEdge_iff]
  constructor
  · intro listed
    refine ⟨_, listed, ?_⟩
    rcases Nat.le_total left right with le | le
    · exact .inl (by rw [orient, min_eq_left le, max_eq_right le])
    · exact .inr (by rw [orient, min_eq_right le, max_eq_left le])
  · rintro ⟨edge, listed, rfl | rfl⟩
    · rwa [orient_of_lt (tidy _ listed).1]
    · rwa [orient_comm, orient_of_lt (tidy _ listed).1]

theorem Tidy.ends {graph : QubitGraph} (tidy : graph.Tidy) {left right : Nat}
    (linked : graph.hasEdge left right = true) :
    left ≠ right ∧ left < graph.size ∧ right < graph.size := by
  obtain ⟨edge, listed, rfl | rfl⟩ := tidy.hasEdge_iff.mp linked
  all_goals
    obtain ⟨lower, inside⟩ := tidy _ listed
    dsimp only at lower inside
    omega

/-- Which qubits have an edge, as a relation. -/
def adjacent (graph : QubitGraph) : SimpleGraph Nat :=
  SimpleGraph.fromRel fun left right => graph.hasEdge left right = true

theorem Tidy.adjacent_iff {graph : QubitGraph} (tidy : graph.Tidy) {left right : Nat} :
    graph.adjacent.Adj left right ↔ graph.hasEdge left right = true := by
  rw [adjacent, SimpleGraph.fromRel_adj, graph.hasEdge_comm right left, or_self]
  exact ⟨And.right, fun linked => ⟨(tidy.ends linked).1, linked⟩⟩

/-! ## Graphs of pairs -/

theorem mem_dropRepeats {β : Type} [BEq β] [LawfulBEq β] {items : List β} {item : β} :
    item ∈ dropRepeats items ↔ item ∈ items := by
  fun_induction dropRepeats items with
  | case1 first second rest same ih =>
      obtain rfl := eq_of_beq same
      rw [ih]
      simp only [List.mem_cons, or_self_left]
  | case2 first second rest differ ih => simp only [List.mem_cons, ih]
  | case3 => rfl

theorem mem_edges_ofPairs {size : Nat} {pairs : List (Nat × Nat)} {edge : Nat × Nat} :
    edge ∈ (ofPairs size pairs).edges ↔ ∃ pair ∈ pairs, pair.1 ≠ pair.2 ∧ orient pair = edge := by
  simp only [ofPairs, mem_dropRepeats, List.mem_mergeSort, List.mem_map, List.mem_filter,
    bne_iff_ne, and_assoc]

theorem tidy_ofPairs {size : Nat} {pairs : List (Nat × Nat)}
    (inside : ∀ pair ∈ pairs, pair.1 < size ∧ pair.2 < size) : (ofPairs size pairs).Tidy := by
  intro edge listed
  obtain ⟨pair, given, differ, rfl⟩ := mem_edges_ofPairs.mp listed
  obtain ⟨first, second⟩ := inside pair given
  exact ⟨min_lt_max.mpr differ, max_lt first second⟩

theorem hasEdge_ofPairs {size : Nat} {pairs : List (Nat × Nat)} {left right : Nat} :
    (ofPairs size pairs).hasEdge left right = true ↔
      left ≠ right ∧ ((left, right) ∈ pairs ∨ (right, left) ∈ pairs) := by
  rw [hasEdge_iff, mem_edges_ofPairs]
  constructor
  · rintro ⟨⟨first, second⟩, given, differ, same⟩
    obtain ⟨lower, upper⟩ := Prod.mk.inj same
    dsimp only at differ lower upper
    obtain ⟨rfl, rfl⟩ | ⟨rfl, rfl⟩ :
        first = left ∧ second = right ∨ first = right ∧ second = left := by
      omega
    · exact ⟨differ, .inl given⟩
    · exact ⟨differ.symm, .inr given⟩
  · rintro ⟨differ, given | given⟩
    · exact ⟨_, given, differ, rfl⟩
    · exact ⟨_, given, differ.symm, orient_comm right left⟩

/-! ## Graphs of relations -/

theorem mem_pairsWhere {size : Nat} {related : Nat → Nat → Bool} {edge : Nat × Nat} :
    edge ∈ pairsWhere size related ↔
      edge.1 < edge.2 ∧ edge.2 < size ∧ related edge.1 edge.2 = true := by
  obtain ⟨low, high⟩ := edge
  simp only [pairsWhere, List.mem_flatMap, List.mem_range, List.mem_map, List.mem_filter,
    List.mem_range'_1, Prod.mk.injEq]
  constructor
  · rintro ⟨_, _, _, ⟨⟨above, below⟩, holds⟩, rfl, rfl⟩
    exact ⟨by omega, by omega, holds⟩
  · rintro ⟨lower, inside, holds⟩
    exact ⟨low, by omega, high, ⟨⟨by omega, by omega⟩, holds⟩, rfl, rfl⟩

theorem tidy_ofRelation (size : Nat) (related : Nat → Nat → Bool) :
    (ofRelation size related).Tidy := by
  intro edge listed
  obtain ⟨lower, inside, -⟩ := mem_pairsWhere.mp listed
  exact ⟨lower, inside⟩

/-- A symmetric relation is asked once about two qubits, in whatever order. -/
theorem hasEdge_ofRelation {size : Nat} {related : Nat → Nat → Bool} {left right : Nat}
    (first : left < size) (second : right < size)
    (symmetric : related left right = related right left) :
    (ofRelation size related).hasEdge left right = true ↔
      left ≠ right ∧ related left right = true := by
  rw [hasEdge_iff]
  change orient (left, right) ∈ pairsWhere size related ↔ _
  rcases Nat.lt_trichotomy left right with lower | rfl | upper
  · rw [orient_of_lt lower, mem_pairsWhere]
    exact ⟨fun ⟨_, _, holds⟩ => ⟨lower.ne, holds⟩, fun ⟨_, holds⟩ => ⟨lower, second, holds⟩⟩
  · rw [mem_pairsWhere, orient, min_self, max_self]
    exact ⟨fun ⟨lower, _⟩ => absurd lower (lt_irrefl _), fun ⟨differ, _⟩ => absurd rfl differ⟩
  · rw [orient_comm, orient_of_lt upper, mem_pairsWhere, symmetric]
    exact ⟨fun ⟨_, _, holds⟩ => ⟨upper.ne', holds⟩, fun ⟨_, holds⟩ => ⟨upper, first, holds⟩⟩

/-! ## Edges in order -/

/-- Edges are ordered by their lower ends, and then by their upper ends. -/
def Before (left right : Nat × Nat) : Prop :=
  left.1 < right.1 ∨ (left.1 = right.1 ∧ left.2 < right.2)

/-- Every edge is listed once, and in its place. -/
def Ordered (graph : QubitGraph) : Prop :=
  graph.edges.Pairwise Before

theorem edgeLe_iff {left right : Nat × Nat} :
    edgeLe left right = true ↔ left.1 < right.1 ∨ (left.1 = right.1 ∧ left.2 ≤ right.2) := by
  simp [edgeLe]

theorem pairwise_edgeLe_mergeSort (edges : List (Nat × Nat)) :
    (edges.mergeSort edgeLe).Pairwise fun left right => edgeLe left right = true := by
  refine List.pairwise_mergeSort ?_ ?_ edges
  · intro first second third
    simp only [edgeLe_iff]
    omega
  · intro left right
    rw [Bool.or_eq_true, edgeLe_iff, edgeLe_iff]
    omega

theorem before_of_edgeLe {left right : Nat × Nat} (le : edgeLe left right = true)
    (differ : left ≠ right) : Before left right := by
  have ends : ¬ (left.1 = right.1 ∧ left.2 = right.2) := fun same => differ (Prod.ext_iff.mpr same)
  rw [edgeLe_iff] at le
  unfold Before
  omega

theorem pairwise_before_dropRepeats {edges : List (Nat × Nat)}
    (sorted : edges.Pairwise fun left right => edgeLe left right = true) :
    (dropRepeats edges).Pairwise Before := by
  fun_induction dropRepeats edges with
  | case1 first second rest same ih => exact ih (List.pairwise_cons.mp sorted).2
  | case2 first second rest differ ih =>
      obtain ⟨least, sortedRest⟩ := List.pairwise_cons.mp sorted
      refine List.pairwise_cons.mpr ⟨fun edge listed => ?_, ih sortedRest⟩
      have next : Before first second :=
        before_of_edgeLe (least second (.head _)) fun same => differ (beq_iff_eq.mpr same)
      rcases List.mem_cons.mp (mem_dropRepeats.mp listed) with rfl | later
      · exact next
      · have after := edgeLe_iff.mp ((List.pairwise_cons.mp sortedRest).1 edge later)
        unfold Before at next ⊢
        omega
  | case3 items short =>
      match items, short with
      | [], _ => exact .nil
      | [edge], _ => exact List.pairwise_singleton _ edge
      | first :: second :: rest, short => exact absurd rfl (short first second rest)

theorem ordered_ofPairs (size : Nat) (pairs : List (Nat × Nat)) : (ofPairs size pairs).Ordered :=
  pairwise_before_dropRepeats (pairwise_edgeLe_mergeSort _)

theorem ordered_ofRelation (size : Nat) (related : Nat → Nat → Bool) :
    (ofRelation size related).Ordered := by
  refine List.pairwise_flatMap.mpr ⟨fun low _ => ?_, ?_⟩
  · refine List.pairwise_map.mpr (List.Pairwise.filter _ ?_)
    exact (List.pairwise_lt_range' 1).imp fun less => .inr ⟨rfl, less⟩
  · refine List.pairwise_lt_range.imp fun {low low'} less edge listed edge' listed' => ?_
    obtain ⟨high, -, rfl⟩ := List.mem_map.mp listed
    obtain ⟨high', -, rfl⟩ := List.mem_map.mp listed'
    exact .inl less

theorem dropRepeats_eq_self {edges : List (Nat × Nat)} (ordered : edges.Pairwise Before) :
    dropRepeats edges = edges := by
  fun_induction dropRepeats edges with
  | case1 first second rest same ih =>
      obtain rfl := eq_of_beq same
      have strict := (List.pairwise_cons.mp ordered).1 first (.head _)
      unfold Before at strict
      omega
  | case2 first second rest differ ih => rw [ih (List.pairwise_cons.mp ordered).2]
  | case3 => rfl

/-- A tidy graph whose edges are in order is the graph of its edges. -/
theorem ofPairs_edges {graph : QubitGraph} (tidy : graph.Tidy) (ordered : graph.Ordered) :
    ofPairs graph.size graph.edges = graph := by
  have proper : graph.edges.filter (fun edge => edge.1 != edge.2) = graph.edges := by
    rw [List.filter_eq_self]
    exact fun edge listed => bne_iff_ne.mpr (tidy edge listed).1.ne
  have oriented : graph.edges.map orient = graph.edges :=
    (List.map_congr_left fun edge listed => orient_of_lt (tidy edge listed).1).trans
      (List.map_id _)
  have sorted : graph.edges.mergeSort edgeLe = graph.edges := by
    refine List.mergeSort_of_pairwise (ordered.imp fun before => edgeLe_iff.mpr ?_)
    exact before.imp_right fun ⟨same, less⟩ => ⟨same, less.le⟩
  rw [ofPairs, proper, oriented, sorted, dropRepeats_eq_self ordered]

end QubitGraph

end Peephole
