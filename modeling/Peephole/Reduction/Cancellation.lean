import Peephole.Gate.Basic

/-!
Cancellation of neighbours that undo each other. Neighbours are a gate and the first later gate
on a common qubit; whatever stands between them acts on other qubits. The scan goes once from
left to right and never looks back, so pairs that become neighbours by a removal are left for
another run.

Angles are tested by a predicate, `negligible`, which says when an angle counts as none. The scan
itself takes any relation `cancels` between a gate and its neighbour.
-/

namespace Peephole

namespace Reduction

variable {α : Type}

/-- Whether the second operation undoes the first: rotations about one axis whose angles add up
to none, or operations of inverse kinds on the same operands. -/
def undoes [Add α] (negligible : α → Bool) (first second : Operation α) : Bool :=
  match first with
  | .rotation axis qubit angle =>
    match second with
    | .rotation axis' qubit' angle' =>
      axis' == axis && qubit' == qubit && negligible (angle + angle')
    | _ => false
  | first =>
    first.kind.inverse? == some second.kind && first.operandKey == second.operandKey

/-- Whether two gates that follow each other on their qubits may both be dropped. -/
def gatesCancel [Add α] (negligible : α → Bool) (first second : Gate α) : Bool :=
  undoes negligible first.operation second.operation

/-- The gates without the one that cancels `gate`, if the first of them that shares a qubit with
it does. -/
def removePartner? (cancels : Gate α → Gate α → Bool) (gate : Gate α) :
    List (Gate α) → Option (List (Gate α))
  | [] => none
  | candidate :: rest =>
    if gate.overlaps candidate then
      if cancels gate candidate then some rest else none
    else (removePartner? cancels gate rest).map (candidate :: ·)

theorem length_of_removePartner? {cancels : Gate α → Gate α → Bool} {gate : Gate α}
    {gates rest : List (Gate α)} (found : removePartner? cancels gate gates = some rest) :
    rest.length + 1 = gates.length := by
  induction gates generalizing rest with
  | nil => simp [removePartner?] at found
  | cons candidate gates ih =>
    simp only [removePartner?] at found
    split at found
    · split at found
      · simp_all
      · simp at found
    · obtain ⟨inner, innerFound, rfl⟩ := Option.map_eq_some_iff.mp found
      simp [← ih innerFound]

/-- Drops pairs of neighbours that cancel. -/
def cancelInverses (cancels : Gate α → Gate α → Bool) : List (Gate α) → List (Gate α)
  | [] => []
  | gate :: rest =>
    match _found : removePartner? cancels gate rest with
    | some remaining => cancelInverses cancels remaining
    | none => gate :: cancelInverses cancels rest
termination_by gates => gates.length
decreasing_by
  · have := length_of_removePartner? _found
    simp only [List.length_cons]
    omega
  · simp

/-! ## Whether angles matter -/

/-- Whether two operations are rotations about one axis on one qubit, so that their angles
decide. -/
def sameRotation (first second : Operation α) : Bool :=
  match first, second with
  | .rotation axis qubit _, .rotation axis' qubit' _ => axis' == axis && qubit' == qubit
  | _, _ => false

/-- Whether the neighbour of a gate is a rotation like it. -/
def meetsRotation (gate : Gate α) (gates : List (Gate α)) : Bool :=
  match gates.find? gate.overlaps with
  | some neighbour => sameRotation gate.operation neighbour.operation
  | none => false

/-- Whether the scan for cancellations ever tests an angle. Up to its first test it drops the
pairs that cancel whatever their angles. -/
def cancellationTestsAngle [Add α] : List (Gate α) → Bool
  | [] => false
  | gate :: rest =>
    meetsRotation gate rest ||
      match _found : removePartner? (gatesCancel fun _ => false) gate rest with
      | some remaining => cancellationTestsAngle remaining
      | none => cancellationTestsAngle rest
termination_by gates => gates.length
decreasing_by
  · have := length_of_removePartner? _found
    simp only [List.length_cons]
    omega
  · simp

end Reduction

end Peephole
