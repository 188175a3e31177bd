import Peephole.Proofs.Schedule.Layers

/-!
# The numbers of the layers

Going through the layers gives every gate the number of its layer. In the order of the gates these
numbers count the layers: they begin at zero, and a gate has the number of the gate before it, or
the next one if it shares a qubit with an earlier gate that has this number (`CountsLayers`). That
follows from what is known of the layers, without going over the gates once more: they are a cut, so
a gate shares no qubit with the others of its block; each but the first is opened by a gate that the
one before it keeps out; and none is empty, so no number is left out. No other numbers count layers
(`countsLayers_iff`).

A position of the list is that of a place in one of the blocks (`exists_place`), and what stands
there is the number of the block (`getElem?_blockNumbers_iff`).
-/

namespace Peephole

variable {α : Type}

namespace Schedule

/-! ## Members of consecutive blocks -/

section Blocks

variable {β : Type}

/-- The number of each member's block, for blocks that are numbered from `start`. -/
def blockNumbers (start : Nat) : List (List β) → List Nat
  | [] => []
  | block :: blocks => List.replicate block.length start ++ blockNumbers (start + 1) blocks

theorem blockNumbers_eq_flatMap (start : Nat) (blocks : List (List β)) :
    blockNumbers start blocks = (blocks.zipIdx start).flatMap fun entry =>
      List.replicate entry.1.length entry.2 := by
  induction blocks generalizing start with
  | nil => rfl
  | cons block blocks ih => rw [blockNumbers, ih, List.zipIdx_cons, List.flatMap_cons]

theorem length_blockNumbers (start : Nat) (blocks : List (List β)) :
    (blockNumbers start blocks).length = blocks.flatten.length := by
  induction blocks generalizing start with
  | nil => rfl
  | cons block blocks ih =>
      rw [blockNumbers, List.length_append, List.length_replicate, ih, List.flatten_cons,
        List.length_append]

theorem blockNumbers_append (start : Nat) (before after : List (List β)) :
    blockNumbers start (before ++ after) =
      blockNumbers start before ++ blockNumbers (start + before.length) after := by
  induction before generalizing start with
  | nil => rfl
  | cons block before ih =>
      rw [List.cons_append, blockNumbers, blockNumbers, ih, List.append_assoc, List.length_cons,
        Nat.add_assoc, Nat.add_comm 1]

/-- Each position belongs to a place in one of the blocks. -/
theorem exists_place {blocks : List (List β)} {position : Nat}
    (inside : position < blocks.flatten.length) :
    ∃ before block after place, blocks = before ++ block :: after ∧ place < block.length ∧
      position = before.flatten.length + place := by
  induction blocks generalizing position with
  | nil => cases inside
  | cons block blocks ih =>
      rcases Nat.lt_or_ge position block.length with here | behind
      · exact ⟨[], block, blocks, position, rfl, here, (Nat.zero_add position).symm⟩
      · rw [List.flatten_cons, List.length_append] at inside
        have insideRest : position - block.length < blocks.flatten.length := by omega
        obtain ⟨before, block', after, place, rfl, within, rest⟩ := ih insideRest
        refine ⟨block :: before, block', after, place, rfl, within, ?_⟩
        rw [List.flatten_cons, List.length_append]
        omega

theorem getElem?_flatten_place (before : List (List β)) {block : List β}
    (after : List (List β)) {place : Nat} (inside : place < block.length) :
    (before ++ block :: after).flatten[before.flatten.length + place]? = block[place]? := by
  rw [List.flatten_append, List.flatten_cons, List.getElem?_append_right (Nat.le_add_right _ _),
    Nat.add_sub_cancel_left, List.getElem?_append_left inside]

theorem getElem?_blockNumbers_place (before : List (List β)) {block : List β}
    (after : List (List β)) {place : Nat} (inside : place < block.length) :
    (blockNumbers 0 (before ++ block :: after))[before.flatten.length + place]? =
      some before.length := by
  rw [blockNumbers_append, blockNumbers, ← length_blockNumbers 0 before,
    List.getElem?_append_right (Nat.le_add_right _ _), Nat.add_sub_cancel_left,
    List.getElem?_append_left (by rwa [List.length_replicate]),
    List.getElem?_replicate_of_lt inside, Nat.zero_add]

/-- What stands at a position is the number of the block that the position belongs to. -/
theorem getElem?_blockNumbers_iff {blocks : List (List β)} {position number : Nat} :
    (blockNumbers 0 blocks)[position]? = some number ↔
      ∃ before block after place, blocks = before ++ block :: after ∧ before.length = number ∧
        place < block.length ∧ position = before.flatten.length + place := by
  constructor
  · intro numbered
    obtain ⟨bound, -⟩ := List.getElem?_eq_some_iff.mp numbered
    rw [length_blockNumbers] at bound
    obtain ⟨before, block, after, place, rfl, inside, rfl⟩ := exists_place bound
    rw [getElem?_blockNumbers_place before after inside] at numbered
    exact ⟨before, block, after, place, rfl, Option.some.inj numbered, inside, rfl⟩
  · rintro ⟨before, block, after, place, rfl, rfl, inside, rfl⟩
    exact getElem?_blockNumbers_place before after inside

/-- Behind a block the next one opens. -/
theorem split_opened (before : List (List β)) (block opened : List β) (after : List (List β)) :
    before ++ block :: opened :: after = (before ++ [block]) ++ opened :: after ∧
      before.flatten.length + block.length = (before ++ [block]).flatten.length + 0 := by
  simp

theorem getElem?_flatten_opened (before : List (List β)) (block : List β) {opened : List β}
    (after : List (List β)) (filled : opened ≠ []) :
    (before ++ block :: opened :: after).flatten[before.flatten.length + block.length]? =
      opened.head? := by
  obtain ⟨split, position⟩ := split_opened before block opened after
  rw [split, position, getElem?_flatten_place _ after (List.length_pos_iff.mpr filled),
    List.head?_eq_getElem?]

theorem getElem?_blockNumbers_opened (before : List (List β)) (block : List β) {opened : List β}
    (after : List (List β)) (filled : opened ≠ []) :
    (blockNumbers 0 (before ++ block :: opened :: after))[before.flatten.length + block.length]? =
      some (before.length + 1) := by
  obtain ⟨split, position⟩ := split_opened before block opened after
  rw [split, position, getElem?_blockNumbers_place _ after (List.length_pos_iff.mpr filled),
    List.length_append, List.length_singleton]

end Blocks

/-! ## Numbers that count layers -/

/-- A gate at a position shares a qubit with an earlier gate that has a certain number. -/
def MeetsNumber (gates : List (Gate α)) (numbers : List Nat) (position number : Nat)
    (gate : Gate α) : Prop :=
  ∃ earlier < position, ∃ other, gates[earlier]? = some other ∧ numbers[earlier]? = some number ∧
    ∃ qubit ∈ gate.qubits, qubit ∈ other.qubits

/-- Numbers of gates that begin at zero and stay or grow by one from each gate to the next, and grow
exactly if the gate shares a qubit with an earlier gate of the number reached so far. -/
structure CountsLayers (gates : List (Gate α)) (numbers : List Nat) : Prop where
  length_eq : numbers.length = gates.length
  begins : gates ≠ [] → numbers.head? = some 0
  stays_or_grows : ∀ position number next, numbers[position]? = some number →
    numbers[position + 1]? = some next → next = number ∨ next = number + 1
  grows_iff : ∀ position number next gate, numbers[position]? = some number →
    numbers[position + 1]? = some next → gates[position + 1]? = some gate →
      (number < next ↔ MeetsNumber gates numbers (position + 1) number gate)

/-- Within a block no gate shares a qubit with an earlier one of the block. -/
theorem not_meetsNumber_of_place {before after : List (List (Gate α))} {block : List (Gate α)}
    (parallel : Parallel block) {place : Nat} {gate : Gate α} (given : block[place]? = some gate) :
    ¬ MeetsNumber (before ++ block :: after).flatten (blockNumbers 0 (before ++ block :: after))
      (before.flatten.length + place) before.length gate := by
  rintro ⟨earlier, isEarlier, other, found, numbered, shared⟩
  obtain ⟨before', block', after', place', same, length, inside, rfl⟩ :=
    getElem?_blockNumbers_iff.mp numbered
  obtain ⟨rfl, rest⟩ := List.append_inj same length.symm
  obtain ⟨rfl, rfl⟩ := List.cons.inj rest
  rw [getElem?_flatten_place before after inside] at found
  obtain ⟨_, rfl⟩ := List.getElem?_eq_some_iff.mp given
  obtain ⟨_, rfl⟩ := List.getElem?_eq_some_iff.mp found
  have apart := List.pairwise_iff_getElem.mp parallel place' place ‹_› ‹_› (by omega)
  rw [Gate.overlaps_comm, Gate.overlaps_iff.mpr shared] at apart
  cases apart

/-- The gate that opens a block shares a qubit with a gate of the block before it. -/
theorem meetsNumber_of_blocked (before : List (List (Gate α))) {block next : List (Gate α)}
    (after : List (List (Gate α))) (blocked : Blocked block next) {gate : Gate α}
    (opens : next.head? = some gate) :
    MeetsNumber (before ++ block :: next :: after).flatten
      (blockNumbers 0 (before ++ block :: next :: after)) (before.flatten.length + block.length)
      before.length gate := by
  obtain ⟨first, isFirst, other, inBlock, overlap⟩ := blocked
  obtain rfl := Option.some.inj (isFirst.symm.trans opens)
  obtain ⟨place, inside, rfl⟩ := List.mem_iff_getElem.mp inBlock
  refine ⟨before.flatten.length + place, by omega, block[place], ?_,
    getElem?_blockNumbers_place before _ inside, Gate.overlaps_iff.mp overlap⟩
  rw [getElem?_flatten_place before _ inside, List.getElem?_eq_getElem inside]

/-- From one gate to the next the number stays or grows by one, and it grows where the next gate
meets an earlier one of the same number. -/
theorem step_of_isCut {gates : List (Gate α)} {cut : List (List (Gate α))} (isCut : IsCut gates cut)
    (filled : ∀ block ∈ cut, block ≠ []) (chain : cut.IsChain Blocked)
    {position number next : Nat} {gate : Gate α}
    (numbered : (blockNumbers 0 cut)[position]? = some number)
    (numberedNext : (blockNumbers 0 cut)[position + 1]? = some next)
    (given : gates[position + 1]? = some gate) :
    next = number ∧ ¬ MeetsNumber gates (blockNumbers 0 cut) (position + 1) number gate ∨
      next = number + 1 ∧ MeetsNumber gates (blockNumbers 0 cut) (position + 1) number gate := by
  obtain ⟨before, block, after, place, rfl, rfl, inside, rfl⟩ :=
    getElem?_blockNumbers_iff.mp numbered
  obtain rfl := isCut.flatten
  rw [Nat.add_assoc] at given numberedNext ⊢
  rcases Nat.lt_or_eq_of_le (Nat.succ_le_of_lt inside) with within | ends
  · -- The next gate belongs to the same block.
    rw [getElem?_flatten_place before after within] at given
    rw [getElem?_blockNumbers_place before after within] at numberedNext
    exact .inl ⟨(Option.some.inj numberedNext).symm,
      not_meetsNumber_of_place (isCut.parallel block (by simp)) given⟩
  · -- The next gate opens the next block, which must exist for the gate to be there.
    rw [← Nat.succ_eq_add_one, ends] at given numberedNext ⊢
    cases after with
    | nil =>
        obtain ⟨bound, -⟩ := List.getElem?_eq_some_iff.mp given
        simp at bound
    | cons opened after =>
        have filledNext : opened ≠ [] := filled opened (by simp)
        have blocked := (List.isChain_append_cons_cons.mp chain).2.1
        rw [getElem?_flatten_opened before block after filledNext] at given
        rw [getElem?_blockNumbers_opened before block after filledNext] at numberedNext
        exact .inr ⟨(Option.some.inj numberedNext).symm,
          meetsNumber_of_blocked before after blocked given⟩

/-- The numbers of the blocks of a cut count layers if none is empty and each but the first begins
with a gate that the block before it keeps out. -/
theorem countsLayers_of_isCut {gates : List (Gate α)} {cut : List (List (Gate α))}
    (isCut : IsCut gates cut) (filled : ∀ block ∈ cut, block ≠ []) (chain : cut.IsChain Blocked) :
    CountsLayers gates (blockNumbers 0 cut) where
  length_eq := by rw [length_blockNumbers, isCut.flatten]
  begins := by
    intro given
    cases cut with
    | nil => exact absurd isCut.flatten.symm given
    | cons block cut =>
        obtain ⟨gate, more, rfl⟩ := List.exists_cons_of_ne_nil (filled block List.mem_cons_self)
        rfl
  stays_or_grows := by
    intro position number next numbered numberedNext
    obtain ⟨bound, -⟩ := List.getElem?_eq_some_iff.mp numberedNext
    rw [length_blockNumbers, isCut.flatten] at bound
    exact (step_of_isCut isCut filled chain numbered numberedNext
      (List.getElem?_eq_getElem bound)).imp And.left And.left
  grows_iff := by
    intro position number next gate numbered numberedNext given
    rcases step_of_isCut isCut filled chain numbered numberedNext given with
      ⟨rfl, apart⟩ | ⟨rfl, meets⟩
    · exact iff_of_false (Nat.lt_irrefl _) apart
    · exact iff_of_true (Nat.lt_succ_self _) meets

theorem layerIndices_eq (gates : List (Gate α)) :
    layerIndices gates = blockNumbers 0 (blocks gates) := by
  rw [layerIndices, layers, List.flatMap_map, blockNumbers_eq_flatMap]
  simp only [List.map_const']

theorem meetsNumber_congr {gates : List (Gate α)} {left right : List Nat} {position number : Nat}
    {gate : Gate α} (agree : ∀ earlier < position, left[earlier]? = right[earlier]?) :
    MeetsNumber gates left position number gate ↔ MeetsNumber gates right position number gate := by
  unfold MeetsNumber
  refine exists_congr fun earlier => and_congr_right fun isEarlier => ?_
  rw [agree earlier isEarlier]

theorem CountsLayers.exists_number {gates : List (Gate α)} {numbers : List Nat}
    (counts : CountsLayers gates numbers) {position : Nat} (inside : position < gates.length) :
    ∃ number, numbers[position]? = some number := by
  rw [← counts.length_eq] at inside
  exact ⟨_, List.getElem?_eq_getElem inside⟩

/-- Only one numbering counts layers: where two agree up to a gate, they agree on whether the next
gate meets one of the number reached. -/
theorem CountsLayers.unique {gates : List (Gate α)} {left right : List Nat}
    (countsLeft : CountsLayers gates left) (countsRight : CountsLayers gates right) :
    left = right := by
  refine List.ext_getElem? fun position => ?_
  rcases Nat.lt_or_ge position gates.length with inside | beyond
  · induction position using Nat.strong_induction_on with
    | _ position ih =>
      cases position with
      | zero =>
          have given : gates ≠ [] := List.ne_nil_of_length_pos inside
          rw [← List.head?_eq_getElem?, ← List.head?_eq_getElem?, countsLeft.begins given,
            countsRight.begins given]
      | succ position =>
          have agree : ∀ earlier < position + 1, left[earlier]? = right[earlier]? :=
            fun earlier isEarlier => ih earlier isEarlier (isEarlier.trans inside)
          obtain ⟨number, atLeft⟩ := countsLeft.exists_number (Nat.lt_of_succ_lt inside)
          have atRight : right[position]? = some number := by
            rw [← agree position (Nat.lt_succ_self position), atLeft]
          obtain ⟨next, nextLeft⟩ := countsLeft.exists_number inside
          obtain ⟨next', nextRight⟩ := countsRight.exists_number inside
          have given := List.getElem?_eq_getElem inside
          have grows : number < next ↔ number < next' := by
            rw [countsLeft.grows_iff position number next _ atLeft nextLeft given,
              countsRight.grows_iff position number next' _ atRight nextRight given,
              meetsNumber_congr agree]
          have stepLeft := countsLeft.stays_or_grows position number next atLeft nextLeft
          have stepRight := countsRight.stays_or_grows position number next' atRight nextRight
          have same : next = next' := by omega
          rw [nextLeft, nextRight, same]
  · rw [List.getElem?_eq_none (countsLeft.length_eq.trans_le beyond),
      List.getElem?_eq_none (countsRight.length_eq.trans_le beyond)]

/-- The numbers of the layers are the ones that count layers. -/
theorem countsLayers_iff {gates : List (Gate α)} {numbers : List Nat} :
    CountsLayers gates numbers ↔ numbers = layerIndices gates := by
  have counts : CountsLayers gates (layerIndices gates) := by
    rw [layerIndices_eq]
    exact countsLayers_of_isCut (isCut_blocks gates) (ne_nil_of_mem_blocks gates)
      (isChain_blocks gates)
  constructor
  · intro given
    exact given.unique counts
  · rintro rfl
    exact counts

end Schedule

end Peephole
