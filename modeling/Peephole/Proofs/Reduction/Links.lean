import Mathlib.Algebra.Ring.Parity
import Mathlib.Data.List.Chain
import Mathlib.Logic.Relation
import Mathlib.Logic.Relator

/-!
# Chains of links

Links lead from places to places. A chain goes along links, and it is maximal if no link leads to
its first place or from its last one. If at most one link leads to a place and at most one from it,
then no place is in two maximal chains (`MaximalChain.eq_of_mem`).

The scan for pairs goes along chains two places at a time, from the first place: `OddPlace` says of
a place that it stands at the first, third, fifth place of a chain that nothing leads to. No two
places in a row are odd (`OddPlace.not_of_link`), and the odd places that no link leads from are the
last ones of the maximal chains of odd length (`oddPlace_unlinked_iff`).
-/

namespace Peephole

namespace Reduction

variable {ι : Type} {link : ι → ι → Prop}

/-- Places each of which is linked to the next. No link leads to the first or from the last. -/
structure MaximalChain (link : ι → ι → Prop) (chain : List ι) : Prop where
  linked : chain.IsChain link
  start : ∀ first ∈ chain.head?, ∀ before, ¬ link before first
  stop : ∀ last ∈ chain.getLast?, ∀ after, ¬ link last after

/-- From the places of a chain that cannot go on links lead to its own places only. -/
theorem mem_of_link (unique : Relator.RightUnique link) {head : ι} {chain : List ι}
    (linked : (head :: chain).IsChain link)
    (stop : ∀ last ∈ (head :: chain).getLast?, ∀ after, ¬ link last after) {first second : ι}
    (member : first ∈ head :: chain) (leads : link first second) : second ∈ chain := by
  induction chain generalizing head with
  | nil =>
      obtain rfl := List.mem_singleton.mp member
      exact absurd leads (stop first rfl second)
  | cons next chain ih =>
      obtain ⟨step, rest⟩ := List.isChain_cons_cons.mp linked
      rw [List.getLast?_cons_cons] at stop
      rcases List.mem_cons.mp member with rfl | later
      · rw [unique leads step]
        exact .head _
      · exact .tail _ (ih rest stop later)

theorem exists_link_of_mem {head : ι} {chain : List ι} (linked : (head :: chain).IsChain link) :
    ∀ second ∈ chain, ∃ first ∈ head :: chain, link first second := by
  induction chain generalizing head with
  | nil => simp
  | cons next chain ih =>
      obtain ⟨step, rest⟩ := List.isChain_cons_cons.mp linked
      refine List.forall_mem_cons.mpr ⟨⟨head, .head _, step⟩, fun second member => ?_⟩
      obtain ⟨first, inChain, leads⟩ := ih rest second member
      exact ⟨first, .tail _ inChain, leads⟩

/-- A chain that cannot go on is known from its first place. -/
theorem eq_of_isChain (unique : Relator.RightUnique link) {head : ι} {chain chain' : List ι}
    (linked : (head :: chain).IsChain link)
    (stop : ∀ last ∈ (head :: chain).getLast?, ∀ after, ¬ link last after)
    (linked' : (head :: chain').IsChain link)
    (stop' : ∀ last ∈ (head :: chain').getLast?, ∀ after, ¬ link last after) : chain = chain' := by
  induction chain generalizing head chain' with
  | nil =>
      cases chain' with
      | nil => rfl
      | cons next chain' => exact absurd (List.isChain_cons_cons.mp linked').1 (stop head rfl next)
  | cons next chain ih =>
      cases chain' with
      | nil => exact absurd (List.isChain_cons_cons.mp linked).1 (stop' head rfl next)
      | cons next' chain' =>
          obtain ⟨step, rest⟩ := List.isChain_cons_cons.mp linked
          obtain ⟨step', rest'⟩ := List.isChain_cons_cons.mp linked'
          obtain rfl := unique step step'
          rw [List.getLast?_cons_cons] at stop stop'
          rw [ih rest stop rest' stop']

theorem reflTransGen_of_mem {head : ι} {chain : List ι} (linked : (head :: chain).IsChain link) :
    ∀ place ∈ head :: chain, Relation.ReflTransGen link head place := by
  induction chain generalizing head with
  | nil =>
      intro place member
      obtain rfl := List.mem_singleton.mp member
      exact .refl
  | cons next chain ih =>
      obtain ⟨step, rest⟩ := List.isChain_cons_cons.mp linked
      exact List.forall_mem_cons.mpr ⟨.refl, fun place member => .head step (ih rest place member)⟩

/-- From a place links lead back to one place only that no link leads to. -/
theorem eq_of_reflTransGen (unique : Relator.LeftUnique link) {first first' place : ι}
    (unled : ∀ before, ¬ link before first) (unled' : ∀ before, ¬ link before first')
    (leads : Relation.ReflTransGen link first place)
    (leads' : Relation.ReflTransGen link first' place) : first = first' := by
  induction leads with
  | refl =>
      rcases leads'.cases_tail with same | ⟨before, -, step⟩
      · exact same
      · exact absurd step (unled before)
  | tail _ step ih =>
      rcases leads'.cases_tail with rfl | ⟨before, leads', step'⟩
      · exact absurd step (unled' _)
      · obtain rfl := unique step step'
        exact ih leads'

/-- Every place is in at most one maximal chain. -/
theorem MaximalChain.eq_of_mem (unique : Relator.BiUnique link) {chain chain' : List ι}
    (maximal : MaximalChain link chain) (maximal' : MaximalChain link chain') {place : ι}
    (member : place ∈ chain) (member' : place ∈ chain') : chain = chain' := by
  cases chain with
  | nil => exact absurd member List.not_mem_nil
  | cons first rest =>
      cases chain' with
      | nil => exact absurd member' List.not_mem_nil
      | cons first' rest' =>
          obtain rfl := eq_of_reflTransGen unique.1 (maximal.start first rfl)
            (maximal'.start first' rfl) (reflTransGen_of_mem maximal.linked place member)
            (reflTransGen_of_mem maximal'.linked place member')
          rw [eq_of_isChain unique.2 maximal.linked maximal.stop maximal'.linked maximal'.stop]

/-! ## Odd places -/

/-- The first, third, fifth place of a chain that nothing leads to. -/
inductive OddPlace (link : ι → ι → Prop) : ι → Prop
  | start {first : ι} (unled : ∀ before, ¬ link before first) : OddPlace link first
  | next {first second third : ι} (odd : OddPlace link first) (step : link first second)
    (step' : link second third) : OddPlace link third

/-- An odd place does not lead to an odd place. -/
theorem OddPlace.not_of_link (unique : Relator.LeftUnique link) {first second : ι}
    (odd : OddPlace link first) (step : link first second) : ¬ OddPlace link second := by
  induction odd generalizing second with
  | start unled =>
      intro odd
      cases odd with
      | start unled' => exact unled' _ step
      | next _ back back' =>
          obtain rfl := unique back' step
          exact unled _ back
  | next _ before before' ih =>
      intro odd
      cases odd with
      | start unled => exact unled _ step
      | next odd' back back' =>
          obtain rfl := unique back' step
          obtain rfl := unique back before'
          exact ih before odd'

theorem OddPlace.exists_chain {place : ι} (odd : OddPlace link place) :
    ∃ chain : List ι, chain.IsChain link ∧
      (∀ first ∈ chain.head?, ∀ before, ¬ link before first) ∧ Odd chain.length ∧
      place ∈ chain.getLast? := by
  induction odd with
  | @start first unled =>
      refine ⟨[first], .singleton first, ?_, odd_one, rfl⟩
      rintro _ ⟨⟩
      exact unled
  | @next first second third _ step step' ih =>
      obtain ⟨chain, linked, start, length, last⟩ := ih
      have started : chain ≠ [] := by
        rintro rfl
        cases last
      refine ⟨chain ++ [second, third], ?_, ?_, ?_, ?_⟩
      · refine List.isChain_append.mpr ⟨linked, List.isChain_pair.mpr step', ?_⟩
        intro left isLast right isNext
        obtain rfl := Option.some.inj (last.symm.trans isLast)
        obtain rfl := Option.some.inj isNext
        exact step
      · rwa [List.head?_append_of_ne_nil _ started]
      · rw [List.length_append]
        exact length.add_even even_two
      · simp

/-- Going on by two places keeps to odd places. -/
theorem OddPlace.getLast? {first : ι} {chain : List ι} (odd : OddPlace link first)
    (linked : (first :: chain).IsChain link) (length : Odd (first :: chain).length) :
    ∀ last ∈ (first :: chain).getLast?, OddPlace link last := by
  match chain with
  | [] =>
      rintro _ ⟨⟩
      exact odd
  | [_] => exact absurd length (Nat.not_odd_iff_even.mpr even_two)
  | second :: third :: chain =>
      obtain ⟨step, linked⟩ := List.isChain_cons_cons.mp linked
      obtain ⟨step', linked⟩ := List.isChain_cons_cons.mp linked
      rw [List.getLast?_cons_cons, List.getLast?_cons_cons]
      refine (odd.next step step').getLast? linked ?_
      rw [List.length_cons, List.length_cons] at length
      simpa [Nat.odd_add_one] using length
termination_by chain.length

/-- The odd places that lead nowhere are the last ones of the maximal chains of odd length. -/
theorem oddPlace_unlinked_iff {place : ι} :
    (OddPlace link place ∧ ∀ after, ¬ link place after) ↔
      ∃ chain, MaximalChain link chain ∧ Odd chain.length ∧ place ∈ chain.getLast? := by
  constructor
  · rintro ⟨odd, unlinked⟩
    obtain ⟨chain, linked, start, length, last⟩ := odd.exists_chain
    refine ⟨chain, ⟨linked, start, fun other isLast => ?_⟩, length, last⟩
    obtain rfl := Option.some.inj (last.symm.trans isLast)
    exact unlinked
  · rintro ⟨chain, maximal, length, last⟩
    refine ⟨?_, maximal.stop place last⟩
    cases chain with
    | nil => cases last
    | cons first chain =>
        exact (OddPlace.start (maximal.start first rfl)).getLast? maximal.linked length place last

end Reduction

end Peephole
