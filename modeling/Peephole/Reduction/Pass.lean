import Peephole.Reduction.Cancellation
import Peephole.Reduction.Merging

/-!
The passes by name. A pass turns a gate list into a shorter one that does the same, given what
counts as a negligible angle.
-/

namespace Peephole

inductive Pass where
  | cancelInverses
  | dropIdentities
  | mergeRotations
  deriving DecidableEq, Repr

namespace Pass

def all : List Pass := [.cancelInverses, .dropIdentities, .mergeRotations]

def name : Pass → String
  | .cancelInverses => "cancel_adjacent_inverses"
  | .dropIdentities => "remove_identity_rotations"
  | .mergeRotations => "merge_rotations"

def ofName? (name : String) : Option Pass :=
  all.find? fun pass => pass.name == name

theorem ofName?_name (pass : Pass) : ofName? pass.name = some pass := by
  cases pass <;> decide

variable {α : Type}

def apply [Add α] [BEq α] (negligible : α → Bool) :
    Pass → List (Gate α) → List (Gate α)
  | .cancelInverses => Reduction.cancelInverses (Reduction.gatesCancel negligible)
  | .dropIdentities => Reduction.dropIdentities negligible
  | .mergeRotations => Reduction.mergeRotations negligible

/-- Whether a pass over a gate list tests any angle. -/
def testsAngle [Add α] : Pass → List (Gate α) → Bool
  | .cancelInverses => Reduction.cancellationTestsAngle
  | .dropIdentities | .mergeRotations => Reduction.holdsRotation

/-- Whether two gates cancel within a tolerance. A tolerance that is no magnitude will do unless
the angles decide. -/
def cancelWithin [Angle α] (tolerance : Option α) (first second : Gate α) : Except Fault Bool :=
  match tolerance with
  | some bound => .ok (Reduction.gatesCancel (Angle.isBelow bound) first second)
  | none =>
    if Reduction.sameRotation first.operation second.operation then .error .unordered
    else .ok (Reduction.gatesCancel (fun _ => false) first second)

/-- The passes of an optimization level. -/
def ofLevel? : Int → Option (List Pass)
  | 0 => some []
  | 1 => some [.cancelInverses]
  | 2 => some [.dropIdentities, .cancelInverses, .mergeRotations]
  | _ => none

end Pass

end Peephole
