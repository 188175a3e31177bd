import Peephole.Circuit.Basic
import Peephole.Device.Calibration
import Peephole.QubitGraph

/-!
Devices: how many qubits there are, which of them are coupled, and how well and how fast each
kind of gate runs. A rule on pairs of qubits may say which pairs are coupled in place of the
graph. Rates and durations may be numbers of any type.
-/

namespace Peephole

/-- A rule that tells which qubits are coupled. It may be asked about numbers between the indices
of qubits too. -/
abbrev CouplingRule := Number → Number → Bool

structure Device (ρ : Type) where
  /-- What the device is called; usually a text. -/
  name : Datum
  couplings : QubitGraph
  rule : Option CouplingRule
  /-- Whether all qubits are coupled because neither edges nor a rule were given. -/
  isAllToAll : Bool
  errorRates : Calibration ρ
  durations : Option (Calibration ρ)
  /-- The error rate of kinds that the calibration does not list. -/
  fallbackRate : ρ

namespace Device

variable {ρ : Type}

def numQubits (device : Device ρ) : Nat :=
  device.couplings.size

/-- The graph of a device: the edges given, else the pairs of the rule, else all pairs. -/
def couplingsOf (size : Nat) (edges : Option (List (Nat × Nat))) (rule : Option CouplingRule) :
    QubitGraph :=
  match edges, rule with
  | some pairs, _ => .ofPairs size pairs
  | none, some rule => .ofRelation size fun low high => rule (.int low) (.int high)
  | none, none => .complete size

def contains (device : Device ρ) (qubit : Int) : Bool :=
  !Registers.outside device.numQubits qubit

/-- Whether a two-qubit gate runs on a pair of qubits. -/
def isConnected (device : Device ρ) (left right : Int) : Bool :=
  device.contains left && device.contains right && left != right &&
    match device.rule with
    | some rule => rule (.int left) (.int right)
    | none => device.couplings.hasEdge left.toNat right.toNat

/-- The number of couplings between two qubits, if there is a path. -/
def distance? (device : Device ρ) (left right : Int) : Option Nat :=
  if device.contains left && device.contains right then
    device.couplings.distance? left.toNat right.toNat
  else none

/-- The error rate of a kind, by canonical name. -/
def errorRate (device : Device ρ) (name : String) : ρ :=
  (device.errorRates.get? name).getD device.fallbackRate

/-- The duration of a kind, by canonical name, or `none` if the device tells no durations. Kinds
that it does not list take no time. -/
def duration? [OfNat ρ 0] (device : Device ρ) (name : String) : Option ρ :=
  device.durations.map fun table => (table.get? name).getD 0

def text (device : Device ρ) : String :=
  "HardwareTarget" ++ Circuit.labelText device.name ++ "(" ++ toString device.numQubits ++
    " qubits, " ++ toString device.couplings.edges.length ++ " couplings)"

end Device

end Peephole
