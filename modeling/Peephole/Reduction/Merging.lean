import Peephole.Gate.Basic

/-!
Passes over single rotations and runs of them. `dropIdentities` drops what does nothing.
`mergeRotations` makes one rotation of every run: rotations about one axis on one qubit, each
the next gate on that qubit after the one before it.
-/

namespace Peephole

namespace Reduction

variable {α : Type}

/-- Whether an operation does nothing: an identity, or a rotation by a negligible angle. -/
def isIdentity (negligible : α → Bool) : Operation α → Bool
  | .fixed .i _ => true
  | .rotation _ _ angle => negligible angle
  | .fixed _ _ | .pair _ _ _ _ | .measure _ _ => false

def dropIdentities (negligible : α → Bool) (gates : List (Gate α)) : List (Gate α) :=
  gates.filter fun gate => !isIdentity negligible gate.operation

/-- Takes the rest of a run out of a gate list, adding its angles to `total` one after the
other, and leaves the other gates in place. The run ends at the first gate on the qubit that
does not belong to it. -/
def takeRun [Add α] (axis : Axis) (qubit : Int) (total : α) :
    List (Gate α) → α × List (Gate α)
  | [] => (total, [])
  | gate :: rest =>
    if gate.qubits.contains qubit then
      match gate.operation with
      | .rotation axis' _ angle =>
        if axis' = axis then takeRun axis qubit (total + angle) rest else (total, gate :: rest)
      | _ => (total, gate :: rest)
    else
      let (sum, remaining) := takeRun axis qubit total rest
      (sum, gate :: remaining)

theorem length_takeRun_le [Add α] (axis : Axis) (qubit : Int) (total : α)
    (gates : List (Gate α)) : (takeRun axis qubit total gates).2.length ≤ gates.length := by
  induction gates generalizing total with
  | nil => simp [takeRun]
  | cons gate rest ih =>
    simp only [takeRun]
    split
    · split
      · split
        · exact Nat.le_succ_of_le (ih _)
        · exact Nat.le_refl _
      · exact Nat.le_refl _
    · exact Nat.succ_le_succ (ih _)

/-- The rotation that stands for a run: none if the angles add up to none, the first gate itself
if they add up to its angle, else the first gate with the sum for its angle. -/
def mergedGate? [BEq α] (negligible : α → Bool) (first : Gate α) (axis : Axis) (qubit : Int)
    (angle total : α) : Option (Gate α) :=
  if negligible total then none
  else if total == angle then some first
  else some ⟨.rotation axis qubit total, first.annotations⟩

/-- Replaces every run of rotations, at the place of its first member, by one rotation. -/
def mergeRotations [Add α] [BEq α] (negligible : α → Bool) : List (Gate α) → List (Gate α)
  | [] => []
  | gate :: rest =>
    match gate.operation with
    | .rotation axis qubit angle =>
      let run := takeRun axis qubit angle rest
      (mergedGate? negligible gate axis qubit angle run.1).toList ++
        mergeRotations negligible run.2
    | _ => gate :: mergeRotations negligible rest
termination_by gates => gates.length
decreasing_by
  · have := length_takeRun_le axis qubit angle rest
    simp only [List.length_cons]
    omega
  · simp

/-- Whether a list holds a rotation, whose angle both passes test. -/
def holdsRotation (gates : List (Gate α)) : Bool :=
  gates.any fun gate => gate.kind.isRotation

end Reduction

end Peephole
