import Peephole.Circuit.Basic
import Peephole.Reduction.Pass

/-!
The optimizer runs passes over a circuit, once or until the gate count stops falling, and keeps
a record of what each pass did. The circuit that comes out has the registers and labels of the
one that went in.
-/

namespace Peephole

/-- The effect of one pass. -/
structure PassRecord where
  pass : Pass
  gatesBefore : Nat
  gatesAfter : Nat
  depthBefore : Nat
  depthAfter : Nat
  deriving DecidableEq, Repr

def PassRecord.gatesRemoved (record : PassRecord) : Int :=
  (record.gatesBefore : Int) - record.gatesAfter

/-- An optimized circuit with the records of the passes that led to it. -/
structure Optimization (α : Type) where
  circuit : Circuit α
  records : List PassRecord

def Optimization.gatesRemoved {α : Type} (optimization : Optimization α) : Int :=
  (optimization.records.map PassRecord.gatesRemoved).foldr (· + ·) 0

structure Optimizer (α : Type) where
  passes : List Pass
  /-- Below this magnitude an angle counts as none. What is no magnitude at all is `none`, and
  will do until an angle is tested. -/
  tolerance : Option α

namespace Optimizer

variable {α : Type}

/-- Applies a pass. -/
def applyPass [Angle α] (tolerance : Option α) (pass : Pass) (gates : List (Gate α)) :
    Except Fault (List (Gate α)) :=
  match tolerance with
  | some bound => .ok (pass.apply (Angle.isBelow bound) gates)
  | none =>
    if pass.testsAngle gates then .error .unordered else .ok (pass.apply (fun _ => false) gates)

def recordOf (pass : Pass) (before after : List (Gate α)) : PassRecord :=
  ⟨pass, before.length, after.length, Schedule.depth before, Schedule.depth after⟩

/-- Applies passes one after the other. -/
def applyAll [Angle α] (tolerance : Option α) :
    List Pass → List (Gate α) → Except Fault (List (Gate α) × List PassRecord)
  | [], gates => .ok (gates, [])
  | pass :: passes, gates => do
    let reduced ← applyPass tolerance pass gates
    let (final, records) ← applyAll tolerance passes reduced
    return (final, recordOf pass gates reduced :: records)

/-- Applies every pass once. -/
def run [Angle α] (optimizer : Optimizer α) (circuit : Circuit α) :
    Except Fault (Optimization α) := do
  let (gates, records) ← applyAll optimizer.tolerance optimizer.passes circuit.gates
  return ⟨← circuit.withGates gates, records⟩

def optimize [Angle α] (optimizer : Optimizer α) (circuit : Circuit α) :
    Except Fault (Circuit α) := do
  return (← optimizer.run circuit).circuit

/-- Optimizes again and again, at most so many times, until the gate count stops falling. -/
def rounds [Angle α] (optimizer : Optimizer α) : Nat → Circuit α → Except Fault (Circuit α)
  | 0, circuit => .ok circuit
  | limit + 1, circuit => do
    let optimized ← optimizer.optimize circuit
    if circuit.gateCount ≤ optimized.gateCount then return optimized
    else optimizer.rounds limit optimized

/-- Optimizes until the gate count stops falling. There is at least one round. -/
def toFixedPoint [Angle α] (optimizer : Optimizer α) (limit : Int) (circuit : Circuit α) :
    Except Fault (Circuit α) :=
  optimizer.rounds (max limit 1).toNat circuit

end Optimizer

end Peephole
