import Peephole.Proofs.QubitGraph.Distance

/-!
# Lattices

The places of a lattice are in rows and columns, and its qubits are counted row by row. So every
qubit has its place, and a row does not run on into the next one: the last qubit of a row and the
first of the next have consecutive numbers, but no edge unless rows are one qubit long. Edges are
steps to a neighbouring row or column (`hasEdge_grid`). A walk cannot be shorter than the rows and
columns it has to cross, and from every place there is a step that leaves one fewer to cross, so the
distance of two qubits is their number (`distance?_grid`). A line is a lattice of one row
(`line_eq_grid`).
-/

namespace Peephole

namespace QubitGraph

/-! ## Distances that are told by steps -/

theorem steps_le_add_length {V : Type} {graph : SimpleGraph V} {steps : V → Nat}
    (slow : ∀ place next, graph.Adj place next → steps place ≤ steps next + 1) {place other : V}
    (walk : graph.Walk place other) : steps place ≤ steps other + walk.length := by
  induction walk with
  | nil => exact Nat.le_refl _
  | cons adjacent walk ih =>
      have first := slow _ _ adjacent
      rw [SimpleGraph.Walk.length_cons]
      omega

theorem edist_le_steps {V : Type} {graph : SimpleGraph V} {inside : V → Prop} {target : V}
    {steps : V → Nat} (arrived : ∀ place, inside place → steps place = 0 → place = target)
    (nearer : ∀ place count, inside place → steps place = count + 1 →
      ∃ next, inside next ∧ graph.Adj place next ∧ steps next = count) {start : V}
    (within : inside start) : graph.edist start target ≤ steps start := by
  -- Each step leads to a place from which one step fewer is left.
  induction far : steps start generalizing start with
  | zero => rw [arrived start within far, SimpleGraph.edist_self, Nat.cast_zero]
  | succ count ih =>
      obtain ⟨next, inNext, adjacent, near⟩ := nearer start count within far
      calc graph.edist start target
          ≤ graph.edist start next + graph.edist next target := SimpleGraph.edist_triangle
        _ ≤ 1 + count :=
            add_le_add (SimpleGraph.edist_eq_one_iff_adj.mpr adjacent).le (ih inNext near)
        _ = ((count + 1 : Nat) : ENat) := by rw [Nat.cast_add, Nat.cast_one, add_comm]

/-- A number of steps is the distance to a target if an edge takes off one step at most and, as long
as the target is not reached, some edge does. -/
theorem edist_eq_steps {V : Type} {graph : SimpleGraph V} {inside : V → Prop} {target : V}
    {steps : V → Nat} (arrived : ∀ place, inside place → (steps place = 0 ↔ place = target))
    (nearer : ∀ place count, inside place → steps place = count + 1 →
      ∃ next, inside next ∧ graph.Adj place next ∧ steps next = count)
    (slow : ∀ place next, graph.Adj place next → steps place ≤ steps next + 1)
    (present : inside target) {start : V} (within : inside start) :
    graph.edist start target = steps start := by
  have short := edist_le_steps (fun place inPlace => (arrived place inPlace).mp) nearer within
  obtain ⟨walk, length⟩ := SimpleGraph.exists_walk_of_edist_ne_top
    (ne_top_of_le_ne_top (ENat.natCast_ne_top _) short)
  refine le_antisymm short ?_
  have long := steps_le_add_length slow walk
  rw [(arrived target present).mpr rfl, Nat.zero_add] at long
  rwa [← length, Nat.cast_le]

/-! ## Places of a lattice -/

theorem qubitAt_div {columns column : Nat} (inRow : column < columns) (row : Nat) :
    qubitAt columns (row, column) / columns = row := by
  rw [qubitAt, Nat.mul_comm, Nat.mul_add_div (by omega), Nat.div_eq_of_lt inRow, Nat.add_zero]

theorem qubitAt_mod {columns column : Nat} (inRow : column < columns) (row : Nat) :
    qubitAt columns (row, column) % columns = column := by
  rw [qubitAt, Nat.mul_add_mod_self_right, Nat.mod_eq_of_lt inRow]

theorem qubitAt_lt_iff {columns column : Nat} (inRow : column < columns) {rows row : Nat} :
    qubitAt columns (row, column) < rows * columns ↔ row < rows := by
  rw [← Nat.div_lt_iff_lt_mul (by omega), qubitAt_div inRow]

/-- Every qubit has its place. -/
theorem exists_qubitAt {rows columns qubit : Nat} (inside : qubit < rows * columns) :
    ∃ row < rows, ∃ column < columns, qubit = qubitAt columns (row, column) := by
  have wide : 0 < columns := Nat.pos_of_mul_pos_left (Nat.zero_lt_of_lt inside)
  exact ⟨qubit / columns, (Nat.div_lt_iff_lt_mul wide).mpr inside, qubit % columns,
    Nat.mod_lt _ wide, (Nat.div_add_mod' qubit columns).symm⟩

/-- How many rows and how many columns two qubits are apart. -/
def stepsApart (columns left right : Nat) : Nat :=
  ((left / columns : Nat) - (right / columns : Nat) : Int).natAbs +
    ((left % columns : Nat) - (right % columns : Nat) : Int).natAbs

theorem stepsApart_qubitAt {columns row column row' column' : Nat} (inRow : column < columns)
    (inRow' : column' < columns) :
    stepsApart columns (qubitAt columns (row, column)) (qubitAt columns (row', column')) =
      (row - row' : Int).natAbs + (column - column' : Int).natAbs := by
  rw [stepsApart, qubitAt_div inRow, qubitAt_div inRow', qubitAt_mod inRow, qubitAt_mod inRow']

/-! ## Edges of a lattice -/

theorem qubitAt_add_columns (columns row column : Nat) :
    qubitAt columns (row, column) + columns = qubitAt columns (row + 1, column) := by
  rw [qubitAt, qubitAt, Nat.succ_mul, Nat.add_right_comm]

theorem mem_places {rows columns : Nat} {place : Nat × Nat} :
    place ∈ places rows columns ↔ place.1 < rows ∧ place.2 < columns := by
  obtain ⟨row, column⟩ := place
  simp [places]

theorem mem_nextPlaces {rows columns : Nat} {place next : Nat × Nat} :
    next ∈ nextPlaces rows columns place ↔
      place.2 + 1 < columns ∧ next = (place.1, place.2 + 1) ∨
        place.1 + 1 < rows ∧ next = (place.1 + 1, place.2) := by
  simp [nextPlaces]

theorem mem_edges_grid {rows columns : Nat} {edge : Nat × Nat} :
    edge ∈ (grid rows columns).edges ↔
      ∃ row column, row < rows ∧ column < columns ∧ edge.1 = qubitAt columns (row, column) ∧
        (column + 1 < columns ∧ edge.2 = qubitAt columns (row, column + 1) ∨
          row + 1 < rows ∧ edge.2 = qubitAt columns (row + 1, column)) := by
  simp only [grid, latticeEdges, List.mem_map, List.mem_flatMap, mem_places, mem_nextPlaces]
  constructor
  · rintro ⟨_, ⟨⟨row, column⟩, ⟨inRows, inRow⟩, _, ⟨more, rfl⟩ | ⟨more, rfl⟩, rfl⟩, rfl⟩
    · exact ⟨row, column, inRows, inRow, rfl, .inl ⟨more, rfl⟩⟩
    · exact ⟨row, column, inRows, inRow, rfl, .inr ⟨more, rfl⟩⟩
  · rintro ⟨row, column, inRows, inRow, start, ⟨more, next⟩ | ⟨more, next⟩⟩
    · exact ⟨_, ⟨(row, column), ⟨inRows, inRow⟩, _, .inl ⟨more, rfl⟩, rfl⟩,
        Prod.ext start.symm next.symm⟩
    · exact ⟨_, ⟨(row, column), ⟨inRows, inRow⟩, _, .inr ⟨more, rfl⟩, rfl⟩,
        Prod.ext start.symm next.symm⟩

theorem tidy_grid (rows columns : Nat) : (grid rows columns).Tidy := by
  intro edge listed
  obtain ⟨row, column, inRows, inRow, start, ⟨more, next⟩ | ⟨more, next⟩⟩ :=
    mem_edges_grid.mp listed
  · rw [start, next]
    exact ⟨Nat.lt_succ_self _, (qubitAt_lt_iff more).mpr inRows⟩
  · rw [start, next]
    refine ⟨?_, (qubitAt_lt_iff inRow).mpr more⟩
    rw [← qubitAt_add_columns]
    omega

/-- Places that come first have the lower numbers. -/
theorem qubitAt_lt_qubitAt {columns : Nat} {place place' : Nat × Nat} (before : Before place place')
    (inRow : place.2 < columns) : qubitAt columns place < qubitAt columns place' := by
  unfold qubitAt
  rcases before with above | ⟨same, left⟩
  · calc place.1 * columns + place.2
        < place.1 * columns + columns := Nat.add_lt_add_left inRow _
      _ = (place.1 + 1) * columns := (Nat.succ_mul _ _).symm
      _ ≤ place'.1 * columns := Nat.mul_le_mul_right _ above
      _ ≤ place'.1 * columns + place'.2 := Nat.le_add_right _ _
  · rw [same]
    exact Nat.add_lt_add_left left _

theorem pairwise_places (rows columns : Nat) : (places rows columns).Pairwise Before := by
  refine List.pairwise_flatMap.mpr ⟨fun row _ => ?_, ?_⟩
  · exact List.pairwise_map.mpr (List.pairwise_lt_range.imp fun left => .inr ⟨rfl, left⟩)
  · refine List.pairwise_lt_range.imp fun above place listed place' listed' => ?_
    obtain ⟨column, -, rfl⟩ := List.mem_map.mp listed
    obtain ⟨column', -, rfl⟩ := List.mem_map.mp listed'
    exact .inl above

theorem pairwise_nextPlaces (rows columns : Nat) (place : Nat × Nat) :
    (nextPlaces rows columns place).Pairwise Before := by
  refine List.pairwise_append.mpr ⟨?_, ?_, fun right isRight below isBelow => ?_⟩
  · split
    · exact List.pairwise_singleton _ _
    · exact .nil
  · split
    · exact List.pairwise_singleton _ _
    · exact .nil
  · obtain ⟨-, rfl⟩ := List.mem_ite_nil_right.mp isRight |>.imp_right List.mem_singleton.mp
    obtain ⟨-, rfl⟩ := List.mem_ite_nil_right.mp isBelow |>.imp_right List.mem_singleton.mp
    exact .inl (Nat.lt_succ_self _)

theorem ordered_grid (rows columns : Nat) : (grid rows columns).Ordered := by
  refine List.pairwise_map.mpr (List.pairwise_flatMap.mpr ⟨fun place listed => ?_, ?_⟩)
  · obtain ⟨-, inRow⟩ := mem_places.mp listed
    refine List.pairwise_map.mpr ((pairwise_nextPlaces rows columns place).imp_of_mem
      fun {next next'} isNext _ before => .inr ⟨rfl, qubitAt_lt_qubitAt before ?_⟩)
    rcases mem_nextPlaces.mp isNext with ⟨more, rfl⟩ | ⟨-, rfl⟩
    · exact more
    · exact inRow
  · refine (pairwise_places rows columns).imp_of_mem
      fun {place place'} listed _ before edge isEdge edge' isEdge' => ?_
    obtain ⟨next, -, rfl⟩ := List.mem_map.mp isEdge
    obtain ⟨next', -, rfl⟩ := List.mem_map.mp isEdge'
    exact .inl (qubitAt_lt_qubitAt before (mem_places.mp listed).2)

theorem stepsApart_comm (columns left right : Nat) :
    stepsApart columns left right = stepsApart columns right left := by
  unfold stepsApart
  omega

theorem stepsApart_le (columns left middle right : Nat) :
    stepsApart columns left right ≤
      stepsApart columns left middle + stepsApart columns middle right := by
  unfold stepsApart
  omega

theorem stepsApart_of_mem_edges {rows columns : Nat} {edge : Nat × Nat}
    (listed : edge ∈ (grid rows columns).edges) : stepsApart columns edge.1 edge.2 = 1 := by
  obtain ⟨row, column, -, inRow, start, ⟨more, next⟩ | ⟨-, next⟩⟩ := mem_edges_grid.mp listed
  · rw [start, next, stepsApart_qubitAt inRow more]
    omega
  · rw [start, next, stepsApart_qubitAt inRow inRow]
    omega

/-- Qubits of a lattice have an edge just if they are one step apart. -/
theorem hasEdge_grid {rows columns left right : Nat} (first : left < rows * columns)
    (second : right < rows * columns) :
    (grid rows columns).hasEdge left right = true ↔ stepsApart columns left right = 1 := by
  rw [(tidy_grid rows columns).hasEdge_iff]
  constructor
  · rintro ⟨edge, listed, rfl | rfl⟩
    · exact stepsApart_of_mem_edges listed
    · rw [stepsApart_comm]
      exact stepsApart_of_mem_edges listed
  · intro one
    obtain ⟨row, inRows, column, inRow, rfl⟩ := exists_qubitAt first
    obtain ⟨row', inRows', column', inRow', rfl⟩ := exists_qubitAt second
    rw [stepsApart_qubitAt inRow inRow'] at one
    obtain ⟨rfl, rfl | rfl⟩ | ⟨rfl, rfl | rfl⟩ :
        (row = row' ∧ (column' = column + 1 ∨ column = column' + 1)) ∨
          (column = column' ∧ (row' = row + 1 ∨ row = row' + 1)) := by
      omega
    · exact ⟨_, mem_edges_grid.mpr ⟨row, column, inRows, inRow, rfl, .inl ⟨inRow', rfl⟩⟩, .inl rfl⟩
    · exact ⟨_, mem_edges_grid.mpr ⟨row, column', inRows, inRow', rfl, .inl ⟨inRow, rfl⟩⟩,
        .inr rfl⟩
    · exact ⟨_, mem_edges_grid.mpr ⟨row, column, inRows, inRow, rfl, .inr ⟨inRows', rfl⟩⟩, .inl rfl⟩
    · exact ⟨_, mem_edges_grid.mpr ⟨row', column, inRows', inRow, rfl, .inr ⟨inRows, rfl⟩⟩,
        .inr rfl⟩

/-! ## Distances on a lattice -/

theorem stepsApart_eq_zero_iff {columns left right : Nat} :
    stepsApart columns left right = 0 ↔ left = right := by
  constructor
  · intro none
    unfold stepsApart at none
    have rows : left / columns = right / columns := by omega
    have places : left % columns = right % columns := by omega
    rw [← Nat.div_add_mod left columns, ← Nat.div_add_mod right columns, rows, places]
  · rintro rfl
    unfold stepsApart
    omega

/-- From every other place there is a step towards a qubit. -/
theorem exists_stepsApart_eq {rows columns left right count : Nat} (first : left < rows * columns)
    (second : right < rows * columns) (far : stepsApart columns left right = count + 1) :
    ∃ next, next < rows * columns ∧ stepsApart columns left next = 1 ∧
      stepsApart columns next right = count := by
  obtain ⟨row, inRows, column, inRow, rfl⟩ := exists_qubitAt first
  obtain ⟨row', inRows', column', inRow', rfl⟩ := exists_qubitAt second
  rw [stepsApart_qubitAt inRow inRow'] at far
  obtain ⟨nextRow, nextColumn, inRows'', inRow'', one, rest⟩ : ∃ nextRow nextColumn,
      nextRow < rows ∧ nextColumn < columns ∧
        (row - nextRow : Int).natAbs + (column - nextColumn : Int).natAbs = 1 ∧
        (nextRow - row' : Int).natAbs + (nextColumn - column' : Int).natAbs = count := by
    rcases Nat.lt_trichotomy row row' with above | rfl | below
    · exact ⟨row + 1, column, by omega, inRow, by omega, by omega⟩
    · rcases Nat.lt_trichotomy column column' with before | rfl | behind
      · exact ⟨row, column + 1, inRows, by omega, by omega, by omega⟩
      · omega
      · exact ⟨row, column - 1, inRows, by omega, by omega, by omega⟩
    · exact ⟨row - 1, column, by omega, inRow, by omega, by omega⟩
  refine ⟨qubitAt columns (nextRow, nextColumn), (qubitAt_lt_iff inRow'').mpr inRows'', ?_, ?_⟩
  · rwa [stepsApart_qubitAt inRow inRow'']
  · rwa [stepsApart_qubitAt inRow'' inRow']

/-- On a lattice every way is as long as the rows and columns that it crosses. -/
theorem distance?_grid {rows columns left right : Nat} (first : left < rows * columns)
    (second : right < rows * columns) :
    (grid rows columns).distance? left right = some (stepsApart columns left right) := by
  have tidy := tidy_grid rows columns
  have adjacent_iff : ∀ {place next}, place < rows * columns → next < rows * columns →
      ((grid rows columns).adjacent.Adj place next ↔ stepsApart columns place next = 1) :=
    fun inside inside' => tidy.adjacent_iff.trans (hasEdge_grid inside inside')
  rw [tidy.distance?_eq_some_iff first second]
  refine edist_eq_steps (fun place (_ : place < rows * columns) => stepsApart_eq_zero_iff) ?_ ?_
    second first
  · intro place count inside far
    obtain ⟨next, inNext, one, near⟩ := exists_stepsApart_eq inside second far
    exact ⟨next, inNext, (adjacent_iff inside inNext).mpr one, near⟩
  · intro place next adjacent
    obtain ⟨-, inside, inside'⟩ := tidy.ends (tidy.adjacent_iff.mp adjacent)
    have one := (adjacent_iff inside inside').mp adjacent
    have detour := stepsApart_le columns place next right
    omega

/-! ## Lines -/

/-- A line is a lattice of one row. -/
theorem line_eq_grid (size : Nat) : line size = grid 1 size := by
  cases size with
  | zero => rfl
  | succ size =>
      have inner : ∀ column ∈ List.range size,
          nextPlaces 1 (size + 1) (0, column) = [(0, column + 1)] := by
        intro column listed
        have more : column + 1 < size + 1 := Nat.succ_lt_succ (List.mem_range.mp listed)
        rw [nextPlaces, if_pos more, if_neg (by omega), List.append_nil]
      have last : nextPlaces 1 (size + 1) (0, size) = [] := by
        rw [nextPlaces, if_neg (Nat.lt_irrefl _), if_neg (by omega), List.append_nil]
      have edges : latticeEdges 1 (size + 1) =
          (List.range size).map fun column => ((0, column), (0, column + 1)) := by
        rw [latticeEdges, places, List.range_one, List.flatMap_singleton, List.flatMap_map,
          List.range_succ, List.flatMap_append, List.flatMap_singleton, last, List.map_nil,
          List.append_nil, List.map_eq_flatMap]
        refine List.flatMap_congr fun column listed => ?_
        rw [inner column listed, List.map_singleton]
      rw [grid, edges, List.map_map, line, Nat.one_mul, Nat.add_sub_cancel]
      refine congrArg _ (List.map_congr_left fun column _ => ?_)
      simp only [Function.comp_apply, Prod.map_apply, qubitAt, Nat.zero_mul, Nat.zero_add]

end QubitGraph
end Peephole
