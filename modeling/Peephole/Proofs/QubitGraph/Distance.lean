import Mathlib.Combinatorics.SimpleGraph.Metric
import Peephole.Proofs.QubitGraph.Edges

/-!
# Distances between qubits

A search goes out from one qubit, one edge at a time, until it meets the other. After so many steps
it has seen the qubits that are no further away and its frontier holds those that are just as far
away (`Search.Reached`), so the first frontier with the other qubit tells the distance. The search
gives up after as many steps as there are qubits: a shortest walk meets no qubit twice, so none is
that long (`edist_lt_size`).
-/

namespace Peephole

namespace QubitGraph

/-! ## Walks -/

/-- What is one edge further away is next to something that is not. -/
theorem edist_eq_succ_iff {V : Type} {graph : SimpleGraph V} {start target : V} {hops : Nat} :
    graph.edist start target = (hops + 1 : Nat) ↔
      ¬ graph.edist start target ≤ hops ∧
        ∃ last, graph.edist start last = hops ∧ graph.Adj last target := by
  constructor
  · intro distant
    obtain ⟨walk, length⟩ := SimpleGraph.exists_walk_of_edist_eq_coe distant
    have proper : ¬ walk.Nil := by
      rw [← SimpleGraph.Walk.length_eq_zero_iff, length]
      exact Nat.succ_ne_zero hops
    have adjacent := walk.adj_penultimate proper
    refine ⟨?_, walk.penultimate, le_antisymm ?_ ?_, adjacent⟩
    · rw [distant, Nat.cast_le]
      exact Nat.not_succ_le_self hops
    · have short := SimpleGraph.edist_le walk.dropLast
      have total := SimpleGraph.Walk.length_dropLast_add_one proper
      rwa [show walk.dropLast.length = hops by omega] at short
    · have detour := graph.edist_triangle (u := start) (v := walk.penultimate) (w := target)
      rw [distant, SimpleGraph.edist_eq_one_iff_adj.mpr adjacent, Nat.cast_add,
        Nat.cast_one] at detour
      exact (WithTop.add_le_add_iff_right ENat.one_ne_top).mp detour
  · rintro ⟨distant, last, near, adjacent⟩
    have detour := graph.edist_triangle (u := start) (v := last) (w := target)
    rw [near, SimpleGraph.edist_eq_one_iff_adj.mpr adjacent] at detour
    exact le_antisymm detour (Order.add_one_le_of_lt (not_le.mp distant))

theorem Tidy.lt_size_of_mem_support {graph : QubitGraph} (tidy : graph.Tidy) {start target : Nat}
    (inside : start < graph.size) (walk : graph.adjacent.Walk start target) :
    ∀ qubit ∈ walk.support, qubit < graph.size := by
  induction walk with
  | nil =>
      intro qubit member
      rwa [List.mem_singleton.mp member]
  | cons adjacent walk ih =>
      intro qubit member
      rw [SimpleGraph.Walk.support_cons, List.mem_cons] at member
      rcases member with rfl | member
      · exact inside
      · exact ih (tidy.ends (tidy.adjacent_iff.mp adjacent)).2.2 qubit member

theorem Tidy.edist_lt_size {graph : QubitGraph} (tidy : graph.Tidy) {start target hops : Nat}
    (inside : start < graph.size) (distant : graph.adjacent.edist start target = hops) :
    hops < graph.size := by
  have reachable : graph.adjacent.Reachable start target :=
    SimpleGraph.reachable_of_edist_ne_top (by rw [distant]; exact ENat.natCast_ne_top hops)
  obtain ⟨path, isPath, length⟩ := reachable.exists_path_of_dist
  have within := tidy.lt_size_of_mem_support inside path
  have fits : path.support.length ≤ (List.range graph.size).length :=
    (isPath.support_nodup.subperm fun qubit member =>
      List.mem_range.mpr (within qubit member)).length_le
  rw [SimpleGraph.Walk.length_support, List.length_range, length] at fits
  rw [← reachable.coe_dist_eq_edist, Nat.cast_inj] at distant
  omega

/-! ## Neighbours -/

theorem mem_getD_modify {table : Array (List Nat)} {index qubit added other : Nat} :
    other ∈ (table.modify index (added :: ·)).getD qubit [] ↔
      (index = qubit ∧ qubit < table.size ∧ other = added) ∨ other ∈ table.getD qubit [] := by
  rw [Array.getD_eq_getD_getElem?, Array.getD_eq_getD_getElem?, Array.getElem?_modify]
  by_cases present : qubit < table.size
  · rw [Array.getElem?_eq_getElem present]
    by_cases same : index = qubit
    · simp [same, present]
    · simp [same]
  · rw [Array.getElem?_eq_none (Nat.le_of_not_lt present)]
    simp [present]

/-- Every edge puts its ends among the neighbours of each other. -/
theorem mem_getD_foldl_modify {edges : List (Nat × Nat)} {table : Array (List Nat)}
    {qubit other : Nat} :
    other ∈ (edges.foldl
        (fun table edge => (table.modify edge.1 (edge.2 :: ·)).modify edge.2 (edge.1 :: ·))
        table).getD qubit [] ↔
      other ∈ table.getD qubit [] ∨
        qubit < table.size ∧ ∃ edge ∈ edges, edge = (qubit, other) ∨ edge = (other, qubit) := by
  induction edges generalizing table with
  | nil => simp
  | cons edge edges ih =>
      obtain ⟨first, second⟩ := edge
      rw [List.foldl_cons, ih]
      simp only [mem_getD_modify, Array.size_modify]
      grind

theorem Tidy.mem_adjacency {graph : QubitGraph} (tidy : graph.Tidy) {qubit other : Nat} :
    other ∈ graph.adjacency.getD qubit [] ↔ graph.adjacent.Adj qubit other := by
  rw [adjacency, mem_getD_foldl_modify, Array.size_replicate, tidy.adjacent_iff,
    ← tidy.hasEdge_iff]
  constructor
  · rintro (none | ⟨_, linked⟩)
    · rw [Array.getD_eq_getD_getElem?, Array.getElem?_replicate] at none
      split at none <;> cases none
    · exact linked
  · exact fun linked => .inr ⟨(tidy.ends linked).2.1, linked⟩

/-! ## Searches -/

namespace Search

/-- What a search knows so many edges away from its start. -/
structure Reached (graph : QubitGraph) (start hops : Nat) (search : Search) : Prop where
  size : search.seen.size = graph.size
  seen : ∀ qubit < graph.size,
    (search.seen.getD qubit true = true ↔ graph.adjacent.edist start qubit ≤ hops)
  frontier : ∀ qubit, qubit ∈ search.frontier ↔ graph.adjacent.edist start qubit = hops

theorem getD_set! {seen : Array Bool} {qubit other : Nat} :
    (seen.set! qubit true).getD other true = true ↔
      other = qubit ∨ seen.getD other true = true := by
  rw [Array.set!_eq_setIfInBounds, Array.getD_eq_getD_getElem?, Array.getD_eq_getD_getElem?,
    Array.getElem?_setIfInBounds]
  by_cases same : qubit = other
  · by_cases present : qubit < seen.size
    · simp [same, same ▸ present]
    · simp [same, same ▸ present]
  · simp [same, Ne.symm same]

theorem size_foldl_visit (qubits : List Nat) (search : Search) :
    (qubits.foldl visit search).seen.size = search.seen.size := by
  induction qubits generalizing search with
  | nil => rfl
  | cons qubit qubits ih =>
      rw [List.foldl_cons, ih, visit]
      split
      · rfl
      · exact Array.size_setIfInBounds

theorem seen_foldl_visit (qubits : List Nat) (search : Search) {other : Nat} :
    (qubits.foldl visit search).seen.getD other true = true ↔
      other ∈ qubits ∨ search.seen.getD other true = true := by
  induction qubits generalizing search with
  | nil => simp
  | cons qubit qubits ih =>
      rw [List.foldl_cons, ih, List.mem_cons, visit]
      split
      · grind
      · rw [getD_set!]
        grind

/-- Only what has not been seen before comes to the frontier. -/
theorem mem_frontier_foldl_visit (qubits : List Nat) (search : Search) {other : Nat} :
    other ∈ (qubits.foldl visit search).frontier ↔
      other ∈ search.frontier ∨
        other ∈ qubits ∧ ¬ search.seen.getD other true = true := by
  induction qubits generalizing search with
  | nil => simp
  | cons qubit qubits ih =>
      rw [List.foldl_cons, ih, List.mem_cons, visit]
      split
      · grind
      · rw [getD_set!, List.mem_cons]
        grind

theorem reached_start {graph : QubitGraph} {start : Nat} (inside : start < graph.size) :
    Reached graph start 0 (visit ⟨Array.replicate graph.size false, []⟩ start) := by
  have unseen : ∀ qubit, (Array.replicate graph.size false).getD qubit true = true ↔
      graph.size ≤ qubit := by
    intro qubit
    rw [Array.getD_eq_getD_getElem?, Array.getElem?_replicate]
    split <;> simp_all
  refine ⟨?_, fun qubit inside => ?_, fun qubit => ?_⟩
  · exact (size_foldl_visit [start] _).trans Array.size_replicate
  · refine (seen_foldl_visit [start] _).trans ?_
    rw [unseen, List.mem_singleton, Nat.cast_zero, nonpos_iff_eq_zero,
      SimpleGraph.edist_eq_zero_iff]
    exact ⟨fun known => known.elim Eq.symm fun outside => absurd inside (not_lt.mpr outside),
      fun same => .inl same.symm⟩
  · refine (mem_frontier_foldl_visit [start] _).trans ?_
    rw [unseen, List.mem_singleton, Nat.cast_zero, SimpleGraph.edist_eq_zero_iff]
    constructor
    · rintro (none | ⟨rfl, -⟩)
      · cases none
      · rfl
    · rintro rfl
      exact .inr ⟨rfl, not_le.mpr inside⟩

/-- One step further out, the search knows what is one edge further away. -/
theorem Reached.advance {graph : QubitGraph} (tidy : graph.Tidy) {start hops : Nat}
    {search : Search} (reached : search.Reached graph start hops) :
    (search.advance graph.adjacency).Reached graph start (hops + 1) := by
  have found : ∀ qubit,
      qubit ∈ (search.frontier.flatMap fun last => graph.adjacency.getD last []) ↔
        ∃ last, graph.adjacent.edist start last = hops ∧ graph.adjacent.Adj last qubit := by
    intro qubit
    simp only [List.mem_flatMap, reached.frontier, tidy.mem_adjacency]
  refine ⟨?_, fun qubit inside => ?_, fun qubit => ?_⟩
  · rw [Search.advance, size_foldl_visit, reached.size]
  · rw [Search.advance, seen_foldl_visit, found, reached.seen qubit inside]
    rw [le_iff_lt_or_eq (b := ((hops + 1 : Nat) : ENat)), edist_eq_succ_iff, Nat.cast_add_one,
      ENat.lt_add_one_iff (ENat.natCast_ne_top hops)]
    by_cases close : graph.adjacent.edist start qubit ≤ hops <;> simp [close]
  · rw [Search.advance, mem_frontier_foldl_visit, found, edist_eq_succ_iff]
    constructor
    · rintro (none | ⟨⟨last, near, adjacent⟩, unseen⟩)
      · cases none
      · have inside := (tidy.ends (tidy.adjacent_iff.mp adjacent)).2.2
        exact ⟨fun close => unseen ((reached.seen qubit inside).mpr close), last, near, adjacent⟩
    · rintro ⟨distant, last, near, adjacent⟩
      have inside := (tidy.ends (tidy.adjacent_iff.mp adjacent)).2.2
      exact .inr ⟨⟨last, near, adjacent⟩,
        fun known => distant ((reached.seen qubit inside).mp known)⟩

/-- Beyond an empty frontier there is nothing. -/
theorem not_edist_of_frontier_eq_nil {graph : QubitGraph} {start hops : Nat} {search : Search}
    (reached : search.Reached graph start hops) (empty : search.frontier = []) {target : Nat}
    (beyond : ¬ graph.adjacent.edist start target < hops) (further : Nat) :
    graph.adjacent.edist start target ≠ further := by
  have none : ∀ more qubit, graph.adjacent.edist start qubit ≠ (hops + more : Nat) := by
    intro more
    induction more with
    | zero =>
        intro qubit
        rw [Nat.add_zero, ne_eq, ← reached.frontier, empty]
        exact List.not_mem_nil
    | succ more ih =>
        intro qubit distant
        obtain ⟨-, last, near, -⟩ := edist_eq_succ_iff.mp distant
        exact ih last near
  intro distant
  rw [distant, Nat.cast_lt, not_lt] at beyond
  exact none (further - hops) target (by rw [distant, Nat.add_sub_cancel' beyond])

/-- The steps that a search has left are enough for it to find its target. -/
theorem hopsTo_eq_some_iff {graph : QubitGraph} (tidy : graph.Tidy) {start target : Nat}
    (inside : start < graph.size) {steps hops : Nat} {search : Search}
    (reached : search.Reached graph start hops) (enough : graph.size ≤ hops + steps)
    (beyond : ¬ graph.adjacent.edist start target < hops) {distance : Nat} :
    hopsTo graph.adjacency target steps search hops = some distance ↔
      graph.adjacent.edist start target = distance := by
  induction steps generalizing hops search with
  | zero =>
      rw [hopsTo]
      refine ⟨fun none => absurd none (Option.some_ne_none _).symm, fun distant => ?_⟩
      have short := tidy.edist_lt_size inside distant
      rw [distant, Nat.cast_lt] at beyond
      omega
  | succ steps ih =>
      rw [hopsTo]
      split
      · rename_i met
        rw [List.contains_iff_mem, reached.frontier] at met
        rw [met, Option.some_inj, Nat.cast_inj]
      · rename_i missed
        rw [List.contains_iff_mem, reached.frontier] at missed
        split
        · rename_i empty
          refine ⟨fun none => absurd none (Option.some_ne_none _).symm, fun distant => ?_⟩
          exact absurd distant
            (not_edist_of_frontier_eq_nil reached (List.isEmpty_iff.mp empty) beyond distance)
        · refine ih (reached.advance tidy) (by omega) ?_
          rw [Nat.cast_add_one, ENat.lt_add_one_iff (ENat.natCast_ne_top hops), le_iff_lt_or_eq]
          exact not_or.mpr ⟨beyond, missed⟩

end Search

/-! ## Distances -/

/-- The distance is the number of edges on a shortest walk; there is none if no walk leads from one
qubit to the other. -/
theorem Tidy.distance?_eq_some_iff {graph : QubitGraph} (tidy : graph.Tidy) {left right : Nat}
    (first : left < graph.size) (second : right < graph.size) {distance : Nat} :
    graph.distance? left right = some distance ↔ graph.adjacent.edist left right = distance := by
  rw [QubitGraph.distance?, if_pos (by simp [first, second])]
  refine Search.hopsTo_eq_some_iff tidy first (Search.reached_start first) ?_ ?_
  · rw [Nat.zero_add]
  · exact not_lt_zero

/-- Qubits are one apart just if they have an edge. -/
theorem Tidy.distance?_eq_one_iff {graph : QubitGraph} (tidy : graph.Tidy) {left right : Nat}
    (first : left < graph.size) (second : right < graph.size) :
    graph.distance? left right = some 1 ↔ graph.hasEdge left right = true := by
  rw [tidy.distance?_eq_some_iff first second, Nat.cast_one, SimpleGraph.edist_eq_one_iff_adj,
    tidy.adjacent_iff]

end QubitGraph

end Peephole
