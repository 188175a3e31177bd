import Peephole.Datum.Reader
import Peephole.Optimizer.Basic
import Peephole.Settings.Basic

/-!
Choosing an optimizer by documents: the passes by a level, the tolerance by a number, and the
greatest number of rounds by an integer. The settings stand in for what is not given.
-/

namespace Peephole

namespace Optimizer

/-- The passes of the level that a document gives. Any number will do that equals a level. -/
def passesOfLevel (level : Datum) : Except Fault (List Pass) := do
  let key ← level.toKey
  match (key.number?.bind Number.toInt?).bind Pass.ofLevel? with
  | some passes => return passes
  | none => throw (.unsupportedLevel level.plain)

/-- The tolerance that a document gives, as the bound below which angles lie. -/
def toleranceOf (tolerance : Datum) : Option Float :=
  tolerance.number?.map Number.ceiling

/-- The pass that a document names. -/
def passOf (name : Datum) : Except Fault Pass := do
  match ← name.toKey with
  | .text text =>
    match Pass.ofName? text with
    | some pass => return pass
    | none => throw (.missingKey name.literal)
  | _ => throw (.missingKey name.literal)

/-- What an optimizer is chosen by: passes, or else a level, and a tolerance. -/
structure Choice where
  /-- The names of passes, if they are given at all. -/
  passes : Option Datum
  level : Datum
  tolerance : Datum

def Choice.ofFields (fields : Fields) : Choice where
  passes := fields.get? "passes"
  level := (fields.get? "level").getD .null
  tolerance := (fields.get? "tolerance").getD .null

/-- The choice of a level and nothing else. -/
def Choice.ofLevel (level : Datum) : Choice :=
  ⟨none, level, .null⟩

def Choice.optimizer (settings : Settings) (choice : Choice) :
    Except Fault (Optimizer Float) := do
  let passes ←
    match choice.passes with
    | some names => (← names.elements).mapM passOf
    | none => passesOfLevel (Settings.orElse choice.level settings.optimizationLevel)
  return ⟨passes, toleranceOf (Settings.orElse choice.tolerance settings.cancellationTolerance)⟩

def ofLevel (settings : Settings) (level : Datum) : Except Fault (Optimizer Float) :=
  (Choice.ofLevel level).optimizer settings

/-- Applies the passes that documents name one after the other, with the list after each. A name
is looked at when its turn comes. -/
def stages (tolerance : Option Float) :
    List Datum → List (Gate Float) → Except Fault (List (List (Gate Float)))
  | [], _ => .ok []
  | name :: rest, gates => do
    let reduced ← applyPass tolerance (← passOf name) gates
    return reduced :: (← stages tolerance rest reduced)

/-- The number of rounds that a document allows. A double is no number of rounds, unless it is
below one and so makes way for the one round that there always is. -/
def roundsOf (limit : Datum) : Except Fault Int := do
  let number ← limit.toNumber
  match number with
  | .int value => return value
  | .float _ => if number.lt (.int 1) then return 1 else throw .wrongArguments

/-- Optimizes until the gate count stops falling, for as many rounds as a document or the
settings allow. -/
def settle (settings : Settings) (optimizer : Optimizer Float) (limit : Datum)
    (circuit : Circuit Float) : Except Fault (Circuit Float) := do
  let limit ← roundsOf (Settings.orElse limit settings.maxFixedPointIterations)
  optimizer.toFixedPoint limit circuit

end Optimizer

end Peephole
