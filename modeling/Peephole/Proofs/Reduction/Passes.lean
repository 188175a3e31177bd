import Peephole.Proofs.Reduction.Cancellation
import Peephole.Proofs.Reduction.Merging
import Peephole.Reduction.Pass

/-!
# Passes one after the other, round after round

A pass drops gates and otherwise changes nothing but angles (`apply_thinned`), and it leaves a list
as it is when it does not make it shorter (`apply_eq_self_or_length_lt`). `applyAll` is one round of
passes and `settle` repeats rounds until the count stops falling; whatever every single pass keeps,
both keep (`applyAll_related`, `settle_related`). With more rounds than gates no pass changes what
the rounds end with (`apply_settle`).
-/

namespace Peephole

variable {α : Type}

/-! ## Single passes -/

namespace Reduction

theorem dropIdentities_sublist (negligible : α → Bool) (gates : List (Gate α)) :
    (dropIdentities negligible gates).Sublist gates :=
  List.filter_sublist

theorem isIdentity_of_kind {negligible : α → Bool} {gate : Gate α}
    (identity : gate.kind = .fixed .i) : isIdentity negligible gate.operation = true := by
  obtain ⟨operation, _⟩ := gate
  cases operation <;> simp_all [Gate.kind, Operation.kind, isIdentity]

end Reduction

namespace Pass

variable [Add α] [BEq α] {negligible : α → Bool}

/-- A pass drops gates and changes nothing else but angles. -/
theorem apply_thinned (pass : Pass) (gates : List (Gate α)) :
    Thinned gates (pass.apply negligible gates) := by
  cases pass with
  | cancelInverses => exact .of_sublist (Reduction.cancelInverses_sublist _ gates)
  | dropIdentities => exact .of_sublist (Reduction.dropIdentities_sublist negligible gates)
  | mergeRotations => exact Reduction.mergeRotations_thinned negligible gates

theorem apply_eq_self_or_length_lt (pass : Pass) (negligible : α → Bool)
    (gates : List (Gate α)) :
    pass.apply negligible gates = gates ∨ (pass.apply negligible gates).length < gates.length := by
  cases pass with
  | cancelInverses =>
      rcases Reduction.cancelInverses_eq_self_or_length_add_two_le gates with same | shorter
      · exact Or.inl same
      · exact Or.inr (Nat.lt_of_lt_of_le (Nat.lt_add_of_pos_right Nat.two_pos) shorter)
  | dropIdentities =>
      have sublist := Reduction.dropIdentities_sublist negligible gates
      rcases Nat.lt_or_ge (Reduction.dropIdentities negligible gates).length gates.length with
        shorter | full
      · exact Or.inr shorter
      · exact Or.inl (sublist.eq_of_length_le full)
  | mergeRotations => exact Reduction.mergeRotations_eq_self_or_length_lt negligible gates

theorem apply_interleaved (pass : Pass) (negligible : α → Bool) {gates gates' : List (Gate α)}
    (interleaved : Interleaved gates gates') :
    Interleaved (pass.apply negligible gates) (pass.apply negligible gates') := by
  cases pass with
  | cancelInverses =>
      exact Reduction.cancelInverses_interleaved (Reduction.gatesCancel_onSameQubits negligible)
        interleaved
  | dropIdentities => exact interleaved.filter _
  | mergeRotations => exact Reduction.mergeRotations_interleaved interleaved

/-! ## Rounds of passes -/

/-- One round: every pass once, each on what the one before it left. -/
def applyAll (negligible : α → Bool) (passes : List Pass) (gates : List (Gate α)) :
    List (Gate α) :=
  passes.foldl (fun gates pass => pass.apply negligible gates) gates

/-- At most so many rounds, until the gate count stops falling. -/
def settle (negligible : α → Bool) (passes : List Pass) : Nat → List (Gate α) → List (Gate α)
  | 0, gates => gates
  | limit + 1, gates =>
    if gates.length ≤ (applyAll negligible passes gates).length then
      applyAll negligible passes gates
    else settle negligible passes limit (applyAll negligible passes gates)

section Related

variable {passes : List Pass} (related : List (Gate α) → List (Gate α) → Prop)
  (reflexive : ∀ gates, related gates gates)
  (transitive : ∀ {first second third}, related first second → related second third →
    related first third)
  (step : ∀ pass ∈ passes, ∀ gates, related gates (pass.apply negligible gates))

include reflexive transitive step

/-- What every pass keeps, a round keeps. -/
theorem applyAll_related (gates : List (Gate α)) :
    related gates (applyAll negligible passes gates) := by
  induction passes generalizing gates with
  | nil => exact reflexive gates
  | cons pass passes ih =>
      rw [List.forall_mem_cons] at step
      exact transitive (step.1 gates) (ih step.2 _)

/-- What every pass keeps, any number of rounds keeps. -/
theorem settle_related (limit : Nat) (gates : List (Gate α)) :
    related gates (settle negligible passes limit gates) := by
  have round := applyAll_related related reflexive transitive step
  induction limit generalizing gates with
  | zero => exact reflexive gates
  | succ limit ih =>
      rw [settle]
      split
      · exact round gates
      · exact transitive (round gates) (ih _)

end Related

theorem applyAll_thinned (negligible : α → Bool) (passes : List Pass) (gates : List (Gate α)) :
    Thinned gates (applyAll negligible passes gates) :=
  applyAll_related Thinned .refl .trans (fun pass _ => pass.apply_thinned) gates

theorem settle_thinned (negligible : α → Bool) (passes : List Pass) (limit : Nat)
    (gates : List (Gate α)) : Thinned gates (settle negligible passes limit gates) :=
  settle_related Thinned .refl .trans (fun pass _ => pass.apply_thinned) limit gates

/-- A round that does not lower the gate count leaves the list as it is, and so does each of its
passes. -/
theorem apply_eq_self_of_applyAll_length {passes : List Pass} {gates : List (Gate α)}
    (same : gates.length ≤ (applyAll negligible passes gates).length) :
    ∀ pass ∈ passes, pass.apply negligible gates = gates := by
  induction passes with
  | nil => simp
  | cons first passes ih =>
      have bound := (applyAll_thinned negligible passes (first.apply negligible gates)).length_le
      have unfolded : applyAll negligible (first :: passes) gates =
          applyAll negligible passes (first.apply negligible gates) := rfl
      rw [unfolded] at same
      rcases first.apply_eq_self_or_length_lt negligible gates with fixed | shorter
      · rw [fixed] at same
        exact List.forall_mem_cons.mpr ⟨fixed, ih same⟩
      · omega

theorem applyAll_eq_self {passes : List Pass} {gates : List (Gate α)}
    (fixed : ∀ pass ∈ passes, pass.apply negligible gates = gates) :
    applyAll negligible passes gates = gates := by
  induction passes with
  | nil => rfl
  | cons first passes ih =>
      rw [List.forall_mem_cons] at fixed
      have unfolded : applyAll negligible (first :: passes) gates =
          applyAll negligible passes (first.apply negligible gates) := rfl
      rw [unfolded, fixed.1, ih fixed.2]

/-! ## Where the rounds end -/

/-- With more rounds than gates the last round is one that lowers no count, and what such a round
starts from is what it ends with. -/
theorem apply_settle (negligible : α → Bool) (passes : List Pass) {limit : Nat}
    {gates : List (Gate α)} (enough : gates.length < limit) :
    ∀ pass ∈ passes, pass.apply negligible (settle negligible passes limit gates) =
      settle negligible passes limit gates := by
  induction limit generalizing gates with
  | zero => omega
  | succ limit ih =>
      rw [settle]
      split
      · rename_i full
        have fixed := apply_eq_self_of_applyAll_length full
        rw [applyAll_eq_self fixed]
        exact fixed
      · exact ih (by omega)

/-! ## What is left at a fixed point -/

theorem settled_of_apply_cancelInverses {gates : List (Gate α)}
    (fixed : Pass.cancelInverses.apply negligible gates = gates) :
    Reduction.Settled (Reduction.gatesCancel negligible) gates :=
  Reduction.cancelInverses_eq_self_iff.mp fixed

theorem isIdentity_of_apply_dropIdentities {gates : List (Gate α)}
    (fixed : Pass.dropIdentities.apply negligible gates = gates) :
    ∀ gate ∈ gates, Reduction.isIdentity negligible gate.operation = false := by
  have kept := List.filter_eq_self.mp fixed
  simpa using kept

theorem runsMerged_of_apply_mergeRotations {gates : List (Gate α)}
    (fixed : Pass.mergeRotations.apply negligible gates = gates) : Reduction.RunsMerged gates :=
  Reduction.runsMerged_of_mergeRotations_eq_self fixed

end Pass

end Peephole
