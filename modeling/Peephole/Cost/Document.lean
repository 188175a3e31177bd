import Peephole.Cost.Basic
import Peephole.Device.Document
import Peephole.Gate.Document

/-!
Cost reports as documents, and the device against which a circuit is measured when none is
given.
-/

namespace Peephole

/-- The distance that a document shows: a whole number written as a double. -/
def distanceDatum (distance : Option Nat) : Datum :=
  match distance with
  | some hops => .float (Float.ofNat hops)
  | none => .null

def RoutingViolation.toDatum (violation : RoutingViolation) : Datum :=
  .record [
    ("gate_index", .ofNat violation.gateIndex),
    ("kind", .text violation.kind.name),
    ("qubits", Gate.indices violation.qubits),
    ("distance", distanceDatum violation.distance)]

def CostReport.toDatum (report : CostReport Float) : Datum :=
  .record [
    ("target", report.device),
    ("gate_count", .ofNat report.gateCount),
    ("two_qubit_gate_count", .ofNat report.twoQubitCount),
    ("depth", .ofNat report.depth),
    ("estimated_fidelity", .float report.fidelity),
    ("routing_violations", .list (report.violations.map RoutingViolation.toDatum)),
    ("estimated_duration", (report.duration.map Datum.float).getD .null),
    ("fits_device", .bool report.fitsDevice),
    ("error_budget",
      .record (report.errorBudget.map fun (kind, amount) => (kind.name, .float amount)))]

namespace Cost

/-- The device given, or one as wide as the circuit on which every gate has the fallback
rate. -/
def deviceFor (settings : Settings) (fallbackRate : Datum) (device : Option (Device Float))
    (circuit : Circuit Float) : Except Fault (Device Float) :=
  match device with
  | some device => .ok device
  | none => Device.ideal settings circuit.registers.qubits fallbackRate

/-- What a circuit costs on the device given, or on the ideal one. -/
def evaluate (settings : Settings) (fallbackRate : Datum) (device : Option (Device Float))
    (circuit : Circuit Float) : Except Fault (CostReport Float) := do
  return report (← deviceFor settings fallbackRate device circuit) circuit

end Cost

end Peephole
