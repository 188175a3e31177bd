import Mathlib.Data.List.FinRange
import Mathlib.Order.Fin.Basic
import Peephole.Proofs.Gate.Overlap

/-!
# Neighbours by their positions

The neighbour of a gate is the first later gate on a common qubit. Here gates are told apart by
positions in the whole list, which stay what they are while a pass takes gates out: `gateAt` is the
whole list, and a list of positions is what is left of it. It is `Intact` if no gate that is left
has lost its neighbour. Then the first gate left that shares a qubit with a given one is its
neighbour in the whole list (`Intact.neighbours_of_meet`), so that looking at what is left is as
good as looking at everything.

A pass takes out gates that follow each other on the same qubits. No other gate can be neighbour to
them in between (`Neighbours.eq_of_sameQubits`), so what is left stays intact (`Intact.filter`).
-/

namespace Peephole

variable {α ι : Type} [LinearOrder ι]

/-- The gate at the second position is the first one behind the first position that shares a qubit
with the gate there. -/
structure Neighbours (gateAt : ι → Gate α) (first second : ι) : Prop where
  later : first < second
  meet : (gateAt first).overlaps (gateAt second) = true
  apart : ∀ between, first < between → between < second →
    (gateAt first).overlaps (gateAt between) = false

variable {gateAt : ι → Gate α}

namespace Neighbours

theorem le_of_meet {first second other : ι} (neighbours : Neighbours gateAt first second)
    (later : first < other) (meet : (gateAt first).overlaps (gateAt other) = true) :
    second ≤ other := by
  by_contra behind
  have apart := neighbours.apart other later (not_le.mp behind)
  rw [meet] at apart
  cases apart

theorem unique {first second second' : ι} (left : Neighbours gateAt first second)
    (right : Neighbours gateAt first second') : second = second' :=
  le_antisymm (left.le_of_meet right.later right.meet) (right.le_of_meet left.later left.meet)

/-- A gate that has a neighbour on just the same qubits is the only one that has it. -/
theorem eq_of_sameQubits {first first' second : ι} (left : Neighbours gateAt first second)
    (same : (gateAt first).SameQubits (gateAt second)) (right : Neighbours gateAt first' second) :
    first' = first := by
  have meet : (gateAt first').overlaps (gateAt first) = true := by
    rw [same.overlaps_right_eq, right.meet]
  rcases lt_trichotomy first' first with before | equal | behind
  · have apart := right.apart first before left.later
    rw [meet] at apart
    cases apart
  · exact equal
  · have apart := left.apart first' behind right.later
    rw [Gate.overlaps_comm, meet] at apart
    cases apart

end Neighbours

/-- A gate with any later gate on a common qubit has a neighbour. -/
theorem exists_neighbours [WellFoundedLT ι] {first other : ι} (later : first < other)
    (meet : (gateAt first).overlaps (gateAt other) = true) :
    ∃ second ≤ other, Neighbours gateAt first second := by
  induction other using WellFoundedLT.induction with
  | ind other ih =>
      by_cases nearer : ∃ between, first < between ∧ between < other ∧
          (gateAt first).overlaps (gateAt between) = true
      · obtain ⟨between, behind, before, meets⟩ := nearer
        obtain ⟨second, bound, neighbours⟩ := ih between before behind meets
        exact ⟨second, bound.trans before.le, neighbours⟩
      · refine ⟨other, le_rfl, later, meet, fun between behind before => ?_⟩
        exact Bool.eq_false_iff.mpr fun meets => nearer ⟨between, behind, before, meets⟩

/-! ## What is left of a gate list -/

theorem filter_notMem_nil (positions : List ι) :
    positions.filter (· ∉ ([] : List ι)) = positions :=
  List.filter_eq_self.mpr (by simp)

omit [LinearOrder ι] in
/-- Induction on what is left: the first position goes, and with it any others. -/
theorem sublist_induction {motive : List ι → Prop} (nil : motive [])
    (cons : ∀ first rest, (∀ left, left.Sublist rest → motive left) → motive (first :: rest))
    (positions : List ι) : motive positions :=
  match positions with
  | [] => nil
  | first :: rest => cons first rest fun left _ => sublist_induction nil cons left
termination_by positions.length
decreasing_by
  rename_i sublist
  exact Nat.lt_succ_of_le sublist.length_le

/-- The positions in order of gates none of which has lost its neighbour. -/
structure Intact (gateAt : ι → Gate α) (positions : List ι) : Prop where
  ordered : positions.Pairwise (· < ·)
  closed : ∀ first ∈ positions, ∀ second, Neighbours gateAt first second → second ∈ positions

theorem intact_finRange {size : Nat} (gateAt : Fin size → Gate α) :
    Intact gateAt (List.finRange size) :=
  ⟨List.pairwise_lt_finRange size, fun _ _ second _ => List.mem_finRange second⟩

namespace Intact

variable {first second : ι} {rest : List ι}

theorem lt_of_mem (intact : Intact gateAt (first :: rest)) : ∀ other ∈ rest, first < other :=
  (List.pairwise_cons.mp intact.ordered).1

theorem mem_of_neighbours (intact : Intact gateAt (first :: rest))
    (neighbours : Neighbours gateAt first second) : second ∈ rest := by
  rcases List.mem_cons.mp (intact.closed first (.head _) second neighbours) with rfl | member
  · exact absurd neighbours.later (lt_irrefl _)
  · exact member

/-- A neighbour stands behind, so no gate that is left has the first one for its neighbour. -/
theorem notMem_of_neighbours {before : ι} (intact : Intact gateAt (first :: rest))
    (neighbours : Neighbours gateAt before first) : before ∉ first :: rest := by
  intro member
  rcases List.mem_cons.mp member with rfl | later
  · exact lt_irrefl _ neighbours.later
  · exact lt_asymm neighbours.later (intact.lt_of_mem before later)

/-- What stands in front of a neighbour stands between the two. -/
theorem apart_of_mem {before after : List ι}
    (intact : Intact gateAt (first :: (before ++ second :: after)))
    (neighbours : Neighbours gateAt first second) :
    ∀ other ∈ before, (gateAt first).overlaps (gateAt other) = false := by
  intro other member
  have ordered := (List.pairwise_cons.mp intact.ordered).2
  refine neighbours.apart other (intact.lt_of_mem other (List.mem_append_left _ member)) ?_
  exact (List.pairwise_append.mp ordered).2.2 other member second (.head _)

/-- The first gate left on a common qubit is the neighbour in the whole list. -/
theorem neighbours_of_meet [WellFoundedLT ι] {before after : List ι}
    (intact : Intact gateAt (first :: (before ++ second :: after)))
    (apart : ∀ other ∈ before, (gateAt first).overlaps (gateAt other) = false)
    (meet : (gateAt first).overlaps (gateAt second) = true) : Neighbours gateAt first second := by
  have ordered := (List.pairwise_cons.mp intact.ordered).2
  obtain ⟨nearest, bound, neighbours⟩ :=
    exists_neighbours (intact.lt_of_mem second (by simp)) meet
  rcases List.mem_append.mp (intact.mem_of_neighbours neighbours) with inBefore | member
  · have clear := apart nearest inBefore
    rw [neighbours.meet] at clear
    cases clear
  · rcases List.mem_cons.mp member with rfl | inAfter
    · exact neighbours
    · have behind := (List.pairwise_cons.mp (List.pairwise_append.mp ordered).2.1).1 nearest inAfter
      exact absurd behind (not_lt.mpr bound)

theorem neighbours_of_next [WellFoundedLT ι] (intact : Intact gateAt (first :: second :: rest))
    (meet : (gateAt first).overlaps (gateAt second) = true) : Neighbours gateAt first second := by
  rw [← List.nil_append (second :: rest)] at intact
  exact intact.neighbours_of_meet (List.forall_mem_nil _) meet

/-- Gates go, the first one and others that are neighbours on the same qubits of gates that go. -/
theorem filter {gone : List ι} (intact : Intact gateAt (first :: rest))
    (follow : ∀ second ∈ gone, ∃ origin ∈ first :: gone, Neighbours gateAt origin second ∧
      (gateAt origin).SameQubits (gateAt second)) :
    Intact gateAt (rest.filter (· ∉ gone)) where
  ordered := (List.pairwise_cons.mp intact.ordered).2.filter _
  closed := by
    intro other member second neighbours
    obtain ⟨inRest, stays⟩ := List.mem_filter.mp member
    have behind := intact.lt_of_mem other inRest
    have left := intact.closed other (.tail _ inRest) second neighbours
    refine List.mem_filter.mpr ⟨?_, ?_⟩
    · rcases List.mem_cons.mp left with rfl | inRest
      · exact absurd (behind.trans neighbours.later) (lt_irrefl _)
      · exact inRest
    · refine decide_eq_true fun goes => ?_
      obtain ⟨origin, inGone, followed, same⟩ := follow second goes
      obtain rfl := followed.eq_of_sameQubits same neighbours
      rcases List.mem_cons.mp inGone with rfl | inGone
      · exact absurd behind (lt_irrefl _)
      · exact of_decide_eq_true stays inGone

theorem tail (intact : Intact gateAt (first :: rest)) : Intact gateAt rest := by
  have kept : Intact gateAt (rest.filter (· ∉ ([] : List ι))) :=
    intact.filter fun _ member => absurd member List.not_mem_nil
  rwa [filter_notMem_nil] at kept

/-- A gate that is no neighbour of the one before it may go. -/
theorem skip (intact : Intact gateAt (first :: second :: rest))
    (apart : (gateAt first).overlaps (gateAt second) = false) : Intact gateAt (first :: rest) where
  ordered := intact.ordered.sublist ((List.sublist_cons_self second rest).cons_cons first)
  closed := by
    intro other member neighbour neighbours
    rcases List.mem_cons.mp member with rfl | inRest
    · rcases List.mem_cons.mp (intact.mem_of_neighbours neighbours) with rfl | later
      · rw [neighbours.meet] at apart
        cases apart
      · exact .tail _ later
    · exact .tail _ (intact.tail.tail.closed other inRest neighbour neighbours)

end Intact

end Peephole
