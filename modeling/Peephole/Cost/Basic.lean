import Peephole.Device.Basic

/-!
What a circuit costs on a device. Every gate succeeds with the probability that its error rate
leaves, independently of the others, and the circuit succeeds if all gates do; the logarithms of
the probabilities are added, so that long circuits do not underflow. Two-qubit gates on qubits
that are not connected are reported. A layer takes as long as its slowest gate.

`RateArithmetic` names what is done with rates and durations; doubles are one instance.
-/

namespace Peephole

class RateArithmetic (ρ : Type) extends Add ρ, LT ρ, OfNat ρ 0 where
  decidableLT : DecidableLT ρ
  /-- The probability of what is certain. -/
  certainty : ρ
  /-- The logarithm of the probability that an error of the given rate does not occur. -/
  logSuccess : ρ → ρ
  sum : List ρ → ρ
  exp : ρ → ρ
  /-- A rate times a count. -/
  times : ρ → Nat → ρ

instance RateArithmetic.instDecidableLT {ρ : Type} [RateArithmetic ρ] : DecidableLT ρ :=
  RateArithmetic.decidableLT

/-- The logarithm of `1 - rate`. The difference is rounded, so the logarithm is corrected by the
ratio of the rate to what was in fact subtracted. -/
def logComplement (rate : Float) : Float :=
  let rest := 1.0 - rate
  if rest == 1.0 then -rate else rest.log * (-rate / (rest - 1.0))

instance : RateArithmetic Float where
  decidableLT := inferInstance
  certainty := 1.0
  logSuccess := logComplement
  sum := Binary64.sum
  exp := Float.exp
  times rate count := rate * Float.ofNat count

/-- A two-qubit gate on qubits that are not connected. -/
structure RoutingViolation where
  gateIndex : Nat
  kind : GateKind
  qubits : List Int
  /-- How far apart the qubits are, if there is a path. -/
  distance : Option Nat
  deriving DecidableEq, Repr

structure CostReport (ρ : Type) where
  /-- What the device is called. -/
  device : Datum
  gateCount : Nat
  twoQubitCount : Nat
  depth : Nat
  fidelity : ρ
  violations : List RoutingViolation
  duration : Option ρ
  /-- Whether the circuit is no wider than the device. -/
  fitsDevice : Bool
  /-- The error rates of the gates of each kind added up. -/
  errorBudget : List (GateKind × ρ)

namespace CostReport

variable {ρ : Type}

def isRoutable (report : CostReport ρ) : Bool :=
  report.fitsDevice && report.violations.isEmpty

end CostReport

namespace Cost

variable {α ρ : Type}

/-! ## Fidelity -/

/-- The probability that none of the errors occurs. -/
def successOf [RateArithmetic ρ] (rates : List ρ) : ρ :=
  if rates.isEmpty then RateArithmetic.certainty
  else RateArithmetic.exp (RateArithmetic.sum (rates.map RateArithmetic.logSuccess))

def ratesOf (device : Device ρ) (gates : List (Gate α)) : List ρ :=
  gates.map fun gate => device.errorRate gate.kind.name

/-- The probability that a circuit succeeds. -/
def fidelity [RateArithmetic ρ] (device : Device ρ) (circuit : Circuit α) : ρ :=
  successOf (ratesOf device circuit.gates)

/-- For each kind, the error rate times the number of gates. -/
def errorBudget [RateArithmetic ρ] (device : Device ρ) (circuit : Circuit α) :
    List (GateKind × ρ) :=
  circuit.gateCounts.map fun (kind, count) =>
    (kind, RateArithmetic.times (device.errorRate kind.name) count)

/-! ## Routing -/

def violation? (device : Device ρ) (gateIndex : Nat) (gate : Gate α) : Option RoutingViolation :=
  match gate.operation with
  | .pair kind first second _ =>
    if device.isConnected first second then none
    else some ⟨gateIndex, .pair kind, [first, second], device.distance? first second⟩
  | _ => none

/-- The two-qubit gates that a device cannot run, in order. -/
def violations (device : Device ρ) (circuit : Circuit α) : List RoutingViolation :=
  circuit.gates.zipIdx.filterMap fun (gate, gateIndex) => violation? device gateIndex gate

/-! ## Duration -/

def larger [LT ρ] [DecidableLT ρ] (left right : ρ) : ρ :=
  if left < right then right else left

/-- How long the slowest gate of a layer takes. -/
def slowest [RateArithmetic ρ] (timeOf : GateKind → ρ) (layer : List (Gate α)) : ρ :=
  layer.foldl (fun longest gate => larger longest (timeOf gate.kind)) 0

/-- How long the layers take one after the other, on a device that tells durations. -/
def duration? [RateArithmetic ρ] (device : Device ρ) (circuit : Circuit α) : Option ρ :=
  device.durations.map fun table =>
    let timeOf (kind : GateKind) : ρ := (table.get? kind.name).getD 0
    (Schedule.blocks circuit.gates).foldl (fun total layer => total + slowest timeOf layer) 0

/-! ## Reports -/

def report [RateArithmetic ρ] (device : Device ρ) (circuit : Circuit α) : CostReport ρ where
  device := device.name
  gateCount := circuit.gateCount
  twoQubitCount := circuit.twoQubitCount
  depth := circuit.depth
  fidelity := fidelity device circuit
  violations := violations device circuit
  duration := duration? device circuit
  fitsDevice := circuit.registers.qubits ≤ device.numQubits
  errorBudget := errorBudget device circuit

end Cost

end Peephole
