import Peephole.Analysis.Basic
import Peephole.Proofs.Schedule.Numbering

/-!
# Positions grouped by layer

The analysis forgets the layers and puts the positions of the gates back into groups by the numbers
of their layers. Layers are consecutive and none is empty, so each number is that of the group
opened last or that of the next one. No position is left without a group, and the groups are the
positions of the members of each layer (`parallelLayers?_eq`). At the positions of a group stand the
gates of the layer, and a position is in the group whose number stands there, so that grouping and
numbering undo each other (`layers_regrouped`).
-/

namespace Peephole

namespace Analysis

/-- The positions of the members of consecutive blocks, counted from `start`. -/
def positions {β : Type} (start : Nat) : List (List β) → List (List Nat)
  | [] => []
  | block :: blocks => List.range' start block.length :: positions (start + block.length) blocks

theorem length_positions {β : Type} (start : Nat) (blocks : List (List β)) :
    (positions start blocks).length = blocks.length := by
  induction blocks generalizing start with
  | nil => rfl
  | cons block blocks ih => rw [positions, List.length_cons, ih, List.length_cons]

/-! ## One group -/

theorem modify_append_last {β : Type} (items : List β) (last : β) (change : β → β) :
    (items ++ [last]).modify items.length change = items ++ [change last] := by
  induction items with
  | nil => rfl
  | cons item items ih => rw [List.cons_append, List.length_cons, List.modify_succ_cons, ih]; rfl

/-- The number of the group opened last puts positions into it. -/
theorem group?_last (groups : List (List Nat)) (group : List Nat) (position count : Nat)
    (rest : List Nat) :
    group? (groups ++ [group]) position (List.replicate count groups.length ++ rest) =
      group? (groups ++ [group ++ List.range' position count]) (position + count) rest := by
  induction count generalizing group position with
  | zero => rw [List.range'_zero, List.append_nil]; rfl
  | succ count ih =>
      have opened : groups.length ≠ (groups ++ [group]).length := by
        rw [List.length_append, List.length_singleton]
        omega
      have below : groups.length < (groups ++ [group]).length := by
        rw [List.length_append, List.length_singleton]
        omega
      rw [List.replicate_succ, List.cons_append, group?, if_neg opened, if_pos below,
        modify_append_last, ih, List.append_assoc, List.singleton_append, ← List.range'_succ,
        Nat.add_assoc, Nat.add_comm 1]

/-- The next number, as often as a block has members, opens a group for the block. -/
theorem group?_next (groups : List (List Nat)) (position : Nat) {count : Nat} (some : count ≠ 0)
    (rest : List Nat) :
    group? groups position (List.replicate count groups.length ++ rest) =
      group? (groups ++ [List.range' position count]) (position + count) rest := by
  obtain ⟨more, rfl⟩ := Nat.exists_eq_succ_of_ne_zero some
  rw [List.replicate_succ, List.cons_append, group?, if_pos rfl, group?_last,
    List.singleton_append, ← List.range'_succ, Nat.add_assoc, Nat.add_comm 1]

/-! ## All groups -/

/-- The numbers of the blocks put the positions back together. -/
theorem group?_blockNumbers {β : Type} {blocks : List (List β)}
    (filled : ∀ block ∈ blocks, block ≠ []) (groups : List (List Nat)) (position : Nat) :
    group? groups position (Schedule.blockNumbers groups.length blocks) =
      some (groups ++ positions position blocks) := by
  induction blocks generalizing groups position with
  | nil => rw [positions, List.append_nil]; rfl
  | cons block blocks ih =>
      rw [List.forall_mem_cons] at filled
      have count : block.length ≠ 0 := fun empty => filled.1 (List.length_eq_zero_iff.mp empty)
      have later := ih filled.2 (groups ++ [List.range' position block.length])
        (position + block.length)
      rw [List.length_append, List.length_singleton] at later
      rw [Schedule.blockNumbers, group?_next groups position count, later, positions,
        List.append_assoc, List.singleton_append]

-- A number left out would leave its position without a group.
example : group? [] 0 [0, 2] = none := rfl

variable {α : Type}

/-- The groups are the positions of the gates of each layer. -/
theorem parallelLayers?_eq (circuit : Circuit α) :
    parallelLayers? circuit = some (positions 0 (Schedule.blocks circuit.gates)) := by
  rw [parallelLayers?, Schedule.layerIndices_eq]
  exact group?_blockNumbers (Schedule.ne_nil_of_mem_blocks circuit.gates) [] 0

/-! ## Groups and layers -/

theorem positions_append {β : Type} (start : Nat) (before after : List (List β)) :
    positions start (before ++ after) =
      positions start before ++ positions (start + before.flatten.length) after := by
  induction before generalizing start with
  | nil => rfl
  | cons block before ih =>
      rw [List.cons_append, positions, positions, ih, List.cons_append, List.flatten_cons,
        List.length_append, Nat.add_assoc]

/-- No position is left out or taken twice. -/
theorem flatten_positions {β : Type} (start : Nat) (blocks : List (List β)) :
    (positions start blocks).flatten = List.range' start blocks.flatten.length := by
  induction blocks generalizing start with
  | nil => rfl
  | cons block blocks ih =>
      rw [positions, List.flatten_cons, ih, List.range'_append_1, List.flatten_cons,
        List.length_append]

theorem map_getElem?_range' {β : Type} (before block after : List β) :
    (List.range' before.length block.length).map ((before ++ (block ++ after))[·]?) =
      block.map some := by
  refine List.ext_getElem (by simp) fun place inRange inBlock => ?_
  rw [List.length_map] at inBlock
  simp [List.getElem?_append_right, List.getElem?_append_left inBlock]

/-- The members at the positions of each group are those of its block. -/
theorem forall₂_positions {β : Type} (before : List β) (blocks : List (List β)) :
    List.Forall₂ (fun group block => group.map ((before ++ blocks.flatten)[·]?) = block.map some)
      (positions before.length blocks) blocks := by
  induction blocks generalizing before with
  | nil => exact .nil
  | cons block blocks ih =>
      rw [positions, List.flatten_cons]
      refine .cons (map_getElem?_range' before block blocks.flatten) ?_
      have later := ih (before ++ block)
      rwa [List.length_append, List.append_assoc] at later

theorem getElem?_positions_place {β : Type} (before : List (List β)) (block : List β)
    (after : List (List β)) :
    (positions 0 (before ++ block :: after))[before.length]? =
      some (List.range' before.flatten.length block.length) := by
  rw [positions_append, positions, ← length_positions 0 before, List.getElem?_append_right le_rfl,
    Nat.sub_self, List.getElem?_cons_zero, Nat.zero_add]

/-- The group with a number holds the positions at which that number stands. -/
theorem exists_group_iff {β : Type} {blocks : List (List β)} {position number : Nat} :
    (∃ group, (positions 0 blocks)[number]? = some group ∧ position ∈ group) ↔
      (Schedule.blockNumbers 0 blocks)[position]? = some number := by
  rw [Schedule.getElem?_blockNumbers_iff]
  constructor
  · rintro ⟨group, found, member⟩
    obtain ⟨bound, -⟩ := List.getElem?_eq_some_iff.mp found
    rw [length_positions] at bound
    obtain ⟨before, block, after, rfl, rfl, -⟩ := List.exists_of_modify id bound
    obtain rfl := Option.some.inj ((getElem?_positions_place before block after).symm.trans found)
    obtain ⟨above, below⟩ := List.mem_range'_1.mp member
    exact ⟨before, block, after, position - before.flatten.length, rfl, rfl, by omega, by omega⟩
  · rintro ⟨before, block, after, place, rfl, rfl, inside, rfl⟩
    refine ⟨_, getElem?_positions_place before block after, ?_⟩
    exact List.mem_range'_1.mpr ⟨Nat.le_add_right _ _, Nat.add_lt_add_left inside _⟩

/-- The numbers of the layers count them, and grouping by them finds a group for each position. The
groups together are all positions in their order; there are as many as layers, and at the positions
of each group stand the gates of the layer with its number. So the number of a gate's layer tells
the group that holds its position, and the groups tell the numbers. -/
theorem layers_regrouped (circuit : Circuit α) :
    Schedule.CountsLayers circuit.gates (Schedule.layerIndices circuit.gates) ∧
      ∃ groups, parallelLayers? circuit = some groups ∧
        groups.length = Schedule.depth circuit.gates ∧
        groups.flatten = List.range circuit.gates.length ∧
        List.Forall₂ (fun group layer => group.map (circuit.gates[·]?) = layer.gates.map some)
          groups (Schedule.layers circuit.gates) ∧
        ∀ position number : Nat, (∃ group, groups[number]? = some group ∧ position ∈ group) ↔
          (Schedule.layerIndices circuit.gates)[position]? = some number := by
  have cut := Schedule.isCut_blocks circuit.gates
  refine ⟨Schedule.countsLayers_iff.mpr rfl, _, parallelLayers?_eq circuit, ?_, ?_, ?_, ?_⟩
  · rw [length_positions, Schedule.depth_eq_length_blocks]
  · rw [flatten_positions, cut.flatten, List.range_eq_range']
  · have members := forall₂_positions [] (Schedule.blocks circuit.gates)
    rw [List.nil_append, cut.flatten, ← Schedule.map_gates_layers,
      List.forall₂_map_right_iff] at members
    rw [← Schedule.map_gates_layers]
    exact members
  · intro position number
    rw [Schedule.layerIndices_eq]
    exact exists_group_iff

end Analysis

end Peephole
