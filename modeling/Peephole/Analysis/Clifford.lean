import Peephole.Circuit.Basic

/-!
Clifford gates. Fixed gates other than the eighth turns are Clifford gates, pair gates are, and
so are rotations by quarter turns; measurements are neither. Whether an angle is a number of
quarter turns is decided by the closeness of its ratio to the nearest integer, relative to the
ratio or, near zero, absolute.
-/

namespace Peephole

namespace Analysis

/-- Whether two numbers are close: their difference is at most the tolerance, or at most the
tolerance times one of them. -/
def isClose {κ : Type} [Sub κ] [Mul κ] [LE κ] [DecidableLE κ] (magnitude : κ → κ)
    (tolerance left right : κ) : Bool :=
  let difference := magnitude (right - left)
  difference ≤ magnitude (tolerance * right) || difference ≤ magnitude (tolerance * left) ||
    difference ≤ tolerance

def quarterTurnTolerance : Float := 1e-9

/-- Whether an angle is a number of quarter turns. Only finite angles have a nearest one. -/
def isQuarterTurns (angle : Float) : Except Fault Bool := do
  let ratio := angle / Angle.quarterTurn
  match Binary64.nearestInt? ratio with
  | some nearest =>
    let turns := Binary64.nearest (nearest < 0) nearest.natAbs 1
    return isClose Float.abs quarterTurnTolerance ratio turns
  | none => throw (if ratio.isNaN then .roundedNaN else .roundedInfinity)

def isCliffordKind : FixedKind → Bool
  | .t | .tdg => false
  | .i | .x | .y | .z | .h | .s | .sdg | .sx => true

/-- Whether an operation is a Clifford gate; `none` for measurements. The test decides for
rotations. -/
def isClifford? {α ε : Type} (quarterTurns : α → Except ε Bool) :
    Operation α → Except ε (Option Bool)
  | .fixed kind _ => .ok (some (isCliffordKind kind))
  | .rotation _ _ angle => do return some (← quarterTurns angle)
  | .pair _ _ _ _ => .ok (some true)
  | .measure _ _ => .ok none

structure CliffordCounts where
  clifford : Nat
  nonClifford : Nat
  deriving DecidableEq, Repr

def countClifford {α ε : Type} (quarterTurns : α → Except ε Bool) (gates : List (Gate α)) :
    Except ε CliffordCounts := do
  let verdicts ← gates.mapM fun gate => isClifford? quarterTurns gate.operation
  return ⟨verdicts.count (some true), verdicts.count (some false)⟩

def cliffordCounts (circuit : Circuit Float) : Except Fault CliffordCounts :=
  countClifford isQuarterTurns circuit.gates

end Analysis

end Peephole
