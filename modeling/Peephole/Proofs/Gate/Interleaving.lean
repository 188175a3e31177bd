import Mathlib.Logic.Relation
import Peephole.Proofs.Gate.Overlap

/-!
# Interleavings of gate lists

`Interleaved` relates two gate lists when one is obtained from the other by any number of
exchanges of neighbouring gates that share no qubit. On every single qubit such lists hold the
same gates in the same order; only the way in which independent qubits are written into one list
differs. The gates themselves, angles and annotations included, are the same.
-/

namespace Peephole

variable {α : Type}

/-- One exchange of two neighbours that share no qubit. -/
inductive Exchanged : List (Gate α) → List (Gate α) → Prop
  | here {left right : Gate α} (after : List (Gate α)) (apart : left.overlaps right = false) :
    Exchanged (left :: right :: after) (right :: left :: after)
  | later (gate : Gate α) {gates gates' : List (Gate α)} (exchanged : Exchanged gates gates') :
    Exchanged (gate :: gates) (gate :: gates')

theorem Exchanged.symm {gates gates' : List (Gate α)} (exchanged : Exchanged gates gates') :
    Exchanged gates' gates := by
  induction exchanged with
  | here after apart => exact .here after ((Gate.overlaps_comm _ _).trans apart)
  | later gate _ ih => exact .later gate ih

theorem Exchanged.perm {gates gates' : List (Gate α)} (exchanged : Exchanged gates gates') :
    gates.Perm gates' := by
  induction exchanged with
  | here after _ => exact .swap _ _ after
  | later gate _ ih => exact ih.cons gate

theorem Exchanged.append_right (more : List (Gate α)) {gates gates' : List (Gate α)}
    (exchanged : Exchanged gates gates') : Exchanged (gates ++ more) (gates' ++ more) := by
  induction exchanged with
  | here after apart => exact .here (after ++ more) apart
  | later gate _ ih => exact .later gate ih

/-- Any number of exchanges. -/
def Interleaved : List (Gate α) → List (Gate α) → Prop :=
  Relation.ReflTransGen Exchanged

namespace Interleaved

theorem refl (gates : List (Gate α)) : Interleaved gates gates :=
  Relation.ReflTransGen.refl

theorem single {gates gates' : List (Gate α)} (exchanged : Exchanged gates gates') :
    Interleaved gates gates' :=
  Relation.ReflTransGen.single exchanged

theorem trans {gates gates' gates'' : List (Gate α)} (first : Interleaved gates gates')
    (second : Interleaved gates' gates'') : Interleaved gates gates'' :=
  Relation.ReflTransGen.trans first second

theorem symm {gates gates' : List (Gate α)} (interleaved : Interleaved gates gates') :
    Interleaved gates' gates := by
  induction interleaved with
  | refl => exact refl _
  | tail _ exchanged ih => exact (single exchanged.symm).trans ih

theorem cons (gate : Gate α) {gates gates' : List (Gate α)}
    (interleaved : Interleaved gates gates') : Interleaved (gate :: gates) (gate :: gates') := by
  induction interleaved with
  | refl => exact refl _
  | tail _ exchanged ih => exact ih.trans (single (exchanged.later gate))

theorem append_left (before : List (Gate α)) {gates gates' : List (Gate α)}
    (interleaved : Interleaved gates gates') :
    Interleaved (before ++ gates) (before ++ gates') := by
  induction before with
  | nil => exact interleaved
  | cons gate before ih => exact ih.cons gate

theorem append_right (after : List (Gate α)) {gates gates' : List (Gate α)}
    (interleaved : Interleaved gates gates') :
    Interleaved (gates ++ after) (gates' ++ after) := by
  induction interleaved with
  | refl => exact refl _
  | tail _ exchanged ih => exact ih.trans (single (exchanged.append_right after))

/-- A gate passes by gates with which it shares no qubit. -/
theorem pass_by {gate : Gate α} {passed : List (Gate α)} (after : List (Gate α))
    (apart : ∀ other ∈ passed, gate.overlaps other = false) :
    Interleaved (gate :: (passed ++ after)) (passed ++ gate :: after) := by
  induction passed with
  | nil => exact refl _
  | cons other passed ih =>
      rw [List.forall_mem_cons] at apart
      exact (single (.here (passed ++ after) apart.1)).trans ((ih apart.2).cons other)

/-- The kept gates can all go first when they share no qubit with earlier ones that are not
kept. -/
theorem partition {β : Type} {gateOf : β → Gate α} (keep : β → Bool) {entries : List β}
    (apart : entries.Pairwise fun left right => keep left = false → keep right = true →
      (gateOf left).overlaps (gateOf right) = false) :
    Interleaved (entries.map gateOf)
      ((entries.filter keep).map gateOf ++ (entries.filter (!keep ·)).map gateOf) := by
  induction entries with
  | nil => exact refl _
  | cons entry entries ih =>
      obtain ⟨apartFirst, apartRest⟩ := List.pairwise_cons.mp apart
      have rest := (ih apartRest).cons (gateOf entry)
      cases kept : keep entry with
      | true => simpa [kept] using rest
      | false =>
          have passed : ∀ other ∈ (entries.filter keep).map gateOf,
              (gateOf entry).overlaps other = false := by
            intro other member
            obtain ⟨later, inFiltered, rfl⟩ := List.mem_map.mp member
            obtain ⟨inEntries, keepLater⟩ := List.mem_filter.mp inFiltered
            exact apartFirst later inEntries kept keepLater
          simpa [kept] using rest.trans (pass_by _ passed)

theorem perm {gates gates' : List (Gate α)} (interleaved : Interleaved gates gates') :
    gates.Perm gates' := by
  induction interleaved with
  | refl => exact .refl _
  | tail _ exchanged ih => exact ih.trans exchanged.perm

theorem length_eq {gates gates' : List (Gate α)} (interleaved : Interleaved gates gates') :
    gates.length = gates'.length :=
  interleaved.perm.length_eq

/-- A transformation that takes exchanges in lists up to some size to interleavings takes all
interleavings of such lists to interleavings. -/
theorem image_of_exchanged {image : List (Gate α) → List (Gate α)} {size : Nat}
    (step : ∀ {gates gates' : List (Gate α)}, gates.length ≤ size → Exchanged gates gates' →
      Interleaved (image gates) (image gates'))
    {gates gates' : List (Gate α)} (small : gates.length ≤ size)
    (interleaved : Interleaved gates gates') : Interleaved (image gates) (image gates') := by
  induction interleaved with
  | refl => exact refl _
  | tail earlier exchanged ih =>
      have length := length_eq earlier
      exact ih.trans (step (by omega) exchanged)

theorem filter_of_exchanged (keep : Gate α → Bool) {gates gates' : List (Gate α)}
    (exchanged : Exchanged gates gates') :
    Interleaved (gates.filter keep) (gates'.filter keep) := by
  induction exchanged with
  | @here left right after apart =>
      simp only [List.filter_cons]
      cases keep left
      · exact refl _
      · cases keep right
        · exact refl _
        · exact single (.here _ apart)
  | @later gate gates gates' _ ih =>
      simp only [List.filter_cons]
      cases keep gate
      · exact ih
      · exact ih.cons gate

theorem filter (keep : Gate α → Bool) {gates gates' : List (Gate α)}
    (interleaved : Interleaved gates gates') :
    Interleaved (gates.filter keep) (gates'.filter keep) :=
  image_of_exchanged (fun _ exchanged => filter_of_exchanged keep exchanged) (Nat.le_refl _)
    interleaved

end Interleaved

end Peephole
