import Peephole.Optimizer.Basic
import Peephole.Proofs.Gate.Neighbours
import Peephole.Proofs.Reduction.Cancellation
import Peephole.Proofs.Reduction.Links

/-!
# Which gates a scan for cancelling neighbours takes out

Two positions are linked if the gates there are neighbours that cancel. The links are those of the
list that is given, and yet the scan, which takes gates out as it goes, follows just them: what it
has left is intact all the time (`Intact.filter`), because a gate that is taken out stood behind one
on the same qubits. From the first gate left it takes the next link if there is one, so it goes
through the chains of links two places at a time. What stays are the last gates of the maximal
chains of odd length (`exists_division`).
-/

namespace Peephole

namespace Reduction

variable {α ι : Type} [LinearOrder ι] {cancels : Gate α → Gate α → Bool} {gateAt : ι → Gate α}

/-- The gates at two positions are neighbours that cancel. -/
structure Linked (cancels : Gate α → Gate α → Bool) (gateAt : ι → Gate α) (first second : ι) :
    Prop where
  neighbours : Neighbours gateAt first second
  cancel : cancels (gateAt first) (gateAt second) = true

/-- At most one link leads from a position, and at most one to it. -/
theorem linked_biUnique (same : OnSameQubits cancels) :
    Relator.BiUnique (Linked cancels gateAt) := by
  constructor
  · intro first first' second left right
    exact right.neighbours.eq_of_sameQubits (same right.cancel) left.neighbours
  · intro first second second' left right
    exact left.neighbours.unique right.neighbours

/-! ## One step of the scan -/

section Steps

variable {first second : ι} {rest : List ι}

theorem filter_notMem_singleton {before after : List ι}
    (ordered : (before ++ second :: after).Pairwise (· < ·)) :
    (before ++ second :: after).filter (· ∉ [second]) = before ++ after := by
  obtain ⟨-, behind, front⟩ := List.pairwise_append.mp ordered
  have keepsFront : before.filter (· ∉ [second]) = before :=
    List.filter_eq_self.mpr fun other member =>
      decide_eq_true fun goes =>
        (front other member second (.head _)).ne (List.mem_singleton.mp goes)
  have keepsBack : after.filter (· ∉ [second]) = after :=
    List.filter_eq_self.mpr fun other member =>
      decide_eq_true fun goes =>
        ((List.pairwise_cons.mp behind).1 other member).ne' (List.mem_singleton.mp goes)
  rw [List.filter_append, List.filter_cons, keepsFront, keepsBack]
  simp

/-- The gate at the first position goes with the one that it is linked to. -/
theorem cancelInverses_map_of_linked (intact : Intact gateAt (first :: rest))
    (linked : Linked cancels gateAt first second) :
    cancelInverses cancels ((first :: rest).map gateAt) =
      cancelInverses cancels ((rest.filter (· ∉ [second])).map gateAt) := by
  obtain ⟨before, after, rfl⟩ :=
    List.append_of_mem (intact.mem_of_neighbours linked.neighbours)
  have apart := intact.apart_of_mem linked.neighbours
  have found : removePartner? cancels (gateAt first) ((before ++ second :: after).map gateAt) =
      some ((before ++ after).map gateAt) := by
    refine removePartner?_eq_some_iff.mpr ⟨before.map gateAt, gateAt second, after.map gateAt, ?_,
      List.map_append, List.forall_mem_map.mpr apart, linked.neighbours.meet, linked.cancel⟩
    rw [List.map_append, List.map_cons]
  rw [filter_notMem_singleton (List.pairwise_cons.mp intact.ordered).2, List.map_cons,
    cancelInverses_cons_of_some found]

/-- The gate at a first position that is not linked stays. -/
theorem cancelInverses_map_of_unlinked [WellFoundedLT ι] (intact : Intact gateAt (first :: rest))
    (unlinked : ∀ after, ¬ Linked cancels gateAt first after) :
    cancelInverses cancels ((first :: rest).map gateAt) =
      gateAt first :: cancelInverses cancels (rest.map gateAt) := by
  have missing : removePartner? cancels (gateAt first) (rest.map gateAt) = none := by
    refine Option.eq_none_iff_forall_ne_some.mpr fun remaining found => ?_
    obtain ⟨before, partner, after, split, -, apart, meet, cancel⟩ :=
      removePartner?_eq_some_iff.mp found
    obtain ⟨before, tail, rfl, rfl, atTail⟩ := List.map_eq_append_iff.mp split
    obtain ⟨second, after, rfl, rfl, rfl⟩ := List.map_eq_cons_iff.mp atTail
    exact unlinked second
      ⟨intact.neighbours_of_meet (List.forall_mem_map.mp apart) meet, cancel⟩
  rw [List.map_cons, cancelInverses_cons_of_none missing]

end Steps

/-! ## The whole scan -/

/-- Pairs of positions one after the other. -/
def unpaired (pairs : List (ι × ι)) : List ι :=
  pairs.flatMap fun pair => [pair.1, pair.2]

/-- A scan over what is left keeps some positions and takes the others out in pairs. -/
structure Sifted (cancels : Gate α → Gate α → Bool) (gateAt : ι → Gate α) (positions kept : List ι)
    (pairs : List (ι × ι)) : Prop where
  scan : cancelInverses cancels (positions.map gateAt) = kept.map gateAt
  sublist : kept.Sublist positions
  final : ∀ position ∈ kept, OddPlace (Linked cancels gateAt) position ∧
    ∀ after, ¬ Linked cancels gateAt position after
  linked : ∀ pair ∈ pairs, OddPlace (Linked cancels gateAt) pair.1 ∧
    Linked cancels gateAt pair.1 pair.2
  parted : (kept ++ unpaired pairs).Perm positions

namespace Sifted

variable {first second : ι} {rest kept : List ι} {pairs : List (ι × ι)}

theorem nil : Sifted cancels gateAt [] [] [] :=
  ⟨by simp, .slnil, by simp, by simp, .nil⟩

theorem keep [WellFoundedLT ι] (intact : Intact gateAt (first :: rest))
    (odd : OddPlace (Linked cancels gateAt) first)
    (unlinked : ∀ after, ¬ Linked cancels gateAt first after)
    (sifted : Sifted cancels gateAt rest kept pairs) :
    Sifted cancels gateAt (first :: rest) (first :: kept) pairs where
  scan := by rw [cancelInverses_map_of_unlinked intact unlinked, sifted.scan, List.map_cons]
  sublist := sifted.sublist.cons_cons first
  final := List.forall_mem_cons.mpr ⟨⟨odd, unlinked⟩, sifted.final⟩
  linked := sifted.linked
  parted := sifted.parted.cons first

theorem pair (intact : Intact gateAt (first :: rest))
    (odd : OddPlace (Linked cancels gateAt) first) (linked : Linked cancels gateAt first second)
    (sifted : Sifted cancels gateAt (rest.filter (· ∉ [second])) kept pairs) :
    Sifted cancels gateAt (first :: rest) kept ((first, second) :: pairs) where
  scan := by rw [cancelInverses_map_of_linked intact linked, sifted.scan]
  sublist := (sifted.sublist.trans List.filter_sublist).cons first
  final := sifted.final
  linked := List.forall_mem_cons.mpr ⟨⟨odd, linked⟩, sifted.linked⟩
  parted := by
    have parted := sifted.parted
    obtain ⟨before, after, rfl⟩ :=
      List.append_of_mem (intact.mem_of_neighbours linked.neighbours)
    rw [filter_notMem_singleton (List.pairwise_cons.mp intact.ordered).2] at parted
    have together : (kept ++ unpaired ((first, second) :: pairs)).Perm
        (first :: second :: (kept ++ unpaired pairs)) :=
      List.perm_middle.trans (List.perm_middle.cons first)
    exact together.trans (((parted.cons second).trans List.perm_middle.symm).cons first)

end Sifted

/-! ## Along the chains -/

/-- What is left is intact, and every position that is left still has the position that is linked to
it, or stands at an odd place. -/
structure Aligned (cancels : Gate α → Gate α → Bool) (gateAt : ι → Gate α) (positions : List ι) :
    Prop where
  intact : Intact gateAt positions
  odd : ∀ second ∈ positions, ∀ first, Linked cancels gateAt first second →
    first ∈ positions ∨ OddPlace (Linked cancels gateAt) second

namespace Aligned

variable {first second : ι} {rest : List ι}

/-- Links lead on, so nothing left is linked to the first position left. -/
theorem oddPlace (aligned : Aligned cancels gateAt (first :: rest)) :
    OddPlace (Linked cancels gateAt) first := by
  by_cases led : ∃ before, Linked cancels gateAt before first
  · obtain ⟨before, link⟩ := led
    rcases aligned.odd first (.head _) before link with member | place
    · exact absurd member (aligned.intact.notMem_of_neighbours link.neighbours)
    · exact place
  · exact .start (not_exists.mp led)

theorem keep (aligned : Aligned cancels gateAt (first :: rest))
    (unlinked : ∀ after, ¬ Linked cancels gateAt first after) : Aligned cancels gateAt rest where
  intact := aligned.intact.tail
  odd := by
    intro third member origin link
    rcases aligned.odd third (.tail _ member) origin link with left | place
    · rcases List.mem_cons.mp left with rfl | left
      · exact absurd link (unlinked third)
      · exact Or.inl left
    · exact Or.inr place

/-- A pair goes; the position that its second one is linked to is the next odd place. -/
theorem pair (same : OnSameQubits cancels) (aligned : Aligned cancels gateAt (first :: rest))
    (linked : Linked cancels gateAt first second) :
    Aligned cancels gateAt (rest.filter (· ∉ [second])) where
  intact := by
    refine aligned.intact.filter fun other goes => ?_
    obtain rfl := List.mem_singleton.mp goes
    exact ⟨first, .head _, linked.neighbours, same linked.cancel⟩
  odd := by
    intro third member origin link
    obtain ⟨inRest, stays⟩ := List.mem_filter.mp member
    by_cases fromSecond : origin = second
    · subst fromSecond
      exact Or.inr (aligned.oddPlace.next linked link)
    · rcases aligned.odd third (.tail _ inRest) origin link with left | place
      · rcases List.mem_cons.mp left with rfl | left
        · obtain rfl := (linked_biUnique same).2 linked link
          exact absurd (List.mem_singleton_self _) (of_decide_eq_true stays)
        · exact Or.inl (List.mem_filter.mpr ⟨left, by simpa using fromSecond⟩)
      · exact Or.inr place

end Aligned

/-- The scan goes through the chains of links two places at a time. -/
theorem exists_sifted [WellFoundedLT ι] (same : OnSameQubits cancels) {positions : List ι}
    (aligned : Aligned cancels gateAt positions) :
    ∃ kept pairs, Sifted cancels gateAt positions kept pairs := by
  induction positions using sublist_induction with
  | nil => exact ⟨[], [], .nil⟩
  | cons first rest ih =>
      by_cases leads : ∃ second, Linked cancels gateAt first second
      · obtain ⟨second, linked⟩ := leads
        obtain ⟨kept, pairs, sifted⟩ := ih _ List.filter_sublist (aligned.pair same linked)
        exact ⟨kept, _, sifted.pair aligned.intact aligned.oddPlace linked⟩
      · have unlinked := not_exists.mp leads
        obtain ⟨kept, pairs, sifted⟩ := ih rest (.refl rest) (aligned.keep unlinked)
        exact ⟨_, pairs, sifted.keep aligned.intact aligned.oddPlace unlinked⟩

/-! ## What stays and what goes -/

/-- A division of all positions: those that stay, in order, are the last ones of the maximal chains
of odd length, and the others are pairs of neighbours that cancel. -/
structure Division (cancels : Gate α → Gate α → Bool) {size : Nat} (gateAt : Fin size → Gate α)
    (kept : List (Fin size)) (pairs : List (Fin size × Fin size)) : Prop where
  ordered : kept.Pairwise (· < ·)
  mem_iff : ∀ position, position ∈ kept ↔
    ∃ chain, MaximalChain (Linked cancels gateAt) chain ∧ Odd chain.length ∧
      position ∈ chain.getLast?
  linked : ∀ pair ∈ pairs, Linked cancels gateAt pair.1 pair.2
  parted : (kept ++ unpaired pairs).Perm (List.finRange size)

section Divisions

variable {size : Nat} {gateAt : Fin size → Gate α} {kept : List (Fin size)}
  {pairs : List (Fin size × Fin size)}

theorem Sifted.division (same : OnSameQubits cancels)
    (sifted : Sifted cancels gateAt (List.finRange size) kept pairs) :
    Division cancels gateAt kept pairs where
  ordered := (List.pairwise_lt_finRange size).sublist sifted.sublist
  mem_iff := by
    intro position
    rw [← oddPlace_unlinked_iff]
    refine ⟨sifted.final position, fun ⟨odd, unlinked⟩ => ?_⟩
    rcases List.mem_append.mp (sifted.parted.mem_iff.mpr (List.mem_finRange position)) with
      stays | goes
    · exact stays
    · obtain ⟨pair, member, isOne⟩ := List.mem_flatMap.mp goes
      obtain ⟨oddFirst, linked⟩ := sifted.linked pair member
      rcases List.mem_pair.mp isOne with rfl | rfl
      · exact absurd linked (unlinked pair.2)
      · exact absurd odd (oddFirst.not_of_link (linked_biUnique same).1 linked)
  linked := fun pair member => (sifted.linked pair member).2
  parted := sifted.parted

theorem exists_division (same : OnSameQubits cancels) (gateAt : Fin size → Gate α) :
    ∃ kept pairs, cancelInverses cancels ((List.finRange size).map gateAt) = kept.map gateAt ∧
      Division cancels gateAt kept pairs := by
  have aligned : Aligned cancels gateAt (List.finRange size) :=
    ⟨intact_finRange gateAt, fun _ _ first _ => Or.inl (List.mem_finRange first)⟩
  obtain ⟨kept, pairs, sifted⟩ := exists_sifted same aligned
  exact ⟨kept, pairs, sifted.scan, sifted.division same⟩

namespace Division

theorem length_eq (division : Division cancels gateAt kept pairs) :
    size = kept.length + 2 * pairs.length := by
  have total := division.parted.length_eq
  have doubled : (unpaired pairs).length = 2 * pairs.length := by
    simp [unpaired, List.length_flatMap, Nat.mul_comm]
  rw [List.length_append, doubled, List.length_finRange] at total
  exact total.symm

/-- What stays is not cancelled by its neighbour. -/
theorem not_cancels (division : Division cancels gateAt kept pairs) {first second : Fin size}
    (stays : first ∈ kept) (neighbours : Neighbours gateAt first second) :
    cancels (gateAt first) (gateAt second) = false := by
  obtain ⟨chain, maximal, -, last⟩ := (division.mem_iff first).mp stays
  exact Bool.eq_false_iff.mpr fun cancel => maximal.stop first last second ⟨neighbours, cancel⟩

end Division

end Divisions

end Reduction

namespace Optimizer

open Reduction

/-- A cancelling pass keeps the last gate of each maximal chain of odd length, chains of links
between neighbours that cancel, in order and as it is. All other gates go in pairs of neighbours, so
their number is even. No gate that stays is cancelled by a neighbour that it had; so a pair that
another pass takes out has become neighbours through the first. -/
theorem cancelling_keeps_odd_chain_ends {α : Type} [Angle α] (tolerance : α)
    (gates : List (Gate α)) :
    Relator.BiUnique (Linked (gatesCancel (Angle.isBelow tolerance)) gates.get) ∧
      ∃ kept pairs,
        applyPass (some tolerance) .cancelInverses gates = .ok (kept.map gates.get) ∧
          Division (gatesCancel (Angle.isBelow tolerance)) gates.get kept pairs ∧
          (kept.map gates.get).Sublist gates ∧ gates.length = kept.length + 2 * pairs.length ∧
          (∀ first ∈ kept, ∀ second, Neighbours gates.get first second →
            gatesCancel (Angle.isBelow tolerance) (gates.get first) (gates.get second) = false) ∧
          ∃ kept' pairs',
            applyPass (some tolerance) .cancelInverses (kept.map gates.get) =
                .ok (kept'.map fun place => gates.get (kept.get place)) ∧
              Division (gatesCancel (Angle.isBelow tolerance))
                (fun place => gates.get (kept.get place)) kept' pairs' ∧
              ∀ pair ∈ pairs', ¬ Neighbours gates.get (kept.get pair.1) (kept.get pair.2) := by
  have same : OnSameQubits (gatesCancel (Angle.isBelow tolerance)) :=
    fun cancel => gatesCancel_onSameQubits _ cancel
  obtain ⟨kept, pairs, scan, division⟩ := exists_division same gates.get
  rw [List.map_get_finRange] at scan
  obtain ⟨kept', pairs', scan', division'⟩ :=
    exists_division same fun place => gates.get (kept.get place)
  have places : (List.finRange kept.length).map (fun place => gates.get (kept.get place)) =
      kept.map gates.get := by
    conv_rhs => rw [← List.map_get_finRange kept, List.map_map]
    rfl
  rw [places] at scan'
  refine ⟨linked_biUnique same, kept, pairs, congrArg Except.ok scan, division, ?_,
    division.length_eq, fun first stays second => division.not_cancels stays, kept', pairs',
    congrArg Except.ok scan', division', fun pair member neighbours => ?_⟩
  · rw [← scan]
    exact cancelInverses_sublist _ gates
  · have cancel := (division'.linked pair member).cancel
    rw [division.not_cancels (List.get_mem kept pair.1) neighbours] at cancel
    cases cancel

end Optimizer

end Peephole
