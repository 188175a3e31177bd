import Peephole.Cost.Document
import Peephole.Optimizer.Selection

/-!
Compilation: a circuit is optimized and measured before and after on one device. A batch is
compiled circuit by circuit, and the first fault is that of the batch.
-/

namespace Peephole

structure Compilation (α ρ : Type) where
  input : Circuit α
  optimization : Optimization α
  layers : List (Layer α)
  before : CostReport ρ
  after : CostReport ρ

namespace Compilation

variable {α ρ : Type}

def optimized (compilation : Compilation α ρ) : Circuit α :=
  compilation.optimization.circuit

/-- By how many gates the reports differ. -/
def gatesRemoved (compilation : Compilation α ρ) : Int :=
  (compilation.before.gateCount : Int) - compilation.after.gateCount

def fidelityGain [Sub ρ] (compilation : Compilation α ρ) : ρ :=
  compilation.after.fidelity - compilation.before.fidelity

/-- The outcome for a circuit and its optimization on a device. -/
def measure [RateArithmetic ρ] (device : Device ρ) (input : Circuit α)
    (optimization : Optimization α) : Compilation α ρ where
  input := input
  optimization := optimization
  layers := Schedule.layers optimization.circuit.gates
  before := Cost.report device input
  after := Cost.report device optimization.circuit

/-- Compiles with one run of the optimizer. -/
def once [Angle α] [RateArithmetic ρ] (optimizer : Optimizer α) (device : Device ρ)
    (circuit : Circuit α) : Except Fault (Compilation α ρ) := do
  return measure device circuit (← optimizer.run circuit)

/-- Compiles with as many rounds of the optimizer as lower the gate count. The rounds are not
recorded. -/
def toFixedPoint [Angle α] [RateArithmetic ρ] (optimizer : Optimizer α) (limit : Int)
    (device : Device ρ) (circuit : Circuit α) : Except Fault (Compilation α ρ) := do
  return measure device circuit ⟨← optimizer.toFixedPoint limit circuit, []⟩

end Compilation

/-! ## Compilers -/

/-- How circuits are compiled: by which optimizer, whether until the gate count stops falling,
and with which error rate on the ideal device. -/
structure Compiler where
  optimizer : Optimizer Float
  toFixedPoint : Bool
  fallbackRate : Datum

namespace Compiler

/-- Compiles for the device given, or for the ideal one. -/
def compile [RateArithmetic Float] (settings : Settings) (compiler : Compiler)
    (device : Option (Device Float)) (circuit : Circuit Float) :
    Except Fault (Compilation Float Float) := do
  let device ← Cost.deviceFor settings compiler.fallbackRate device circuit
  if compiler.toFixedPoint then
    let limit ← Optimizer.roundsOf settings.maxFixedPointIterations
    Compilation.toFixedPoint compiler.optimizer limit device circuit
  else Compilation.once compiler.optimizer device circuit

/-- A number of workers has to be above zero, if one is given at all. -/
def checkWorkers (workers : Datum) : Except Fault Unit :=
  match workers with
  | .null => .ok ()
  | workers => do
    let number ← workers.toNumber
    if number.le (.int 0) then throw .noWorkers

/-- Compiles circuits in order. The number of workers is checked and has no effect on what comes
out. -/
def compileAll [RateArithmetic Float] (settings : Settings) (compiler : Compiler)
    (device : Option (Device Float)) (workers : Datum) (circuits : List (Circuit Float)) :
    Except Fault (List (Compilation Float Float)) := do
  checkWorkers (Settings.orElse workers settings.batchWorkers)
  circuits.mapM (compiler.compile settings device)

end Compiler

end Peephole
