import Peephole.Device.Document

/-!
Questions about a device whose subjects come as documents. Any number that equals the index of a
qubit means that qubit, and what is no number lies on no path. A rule also answers for numbers
between the indices of qubits.
-/

namespace Peephole

namespace Device

/-- The index that a document means, if it is a whole number in whatever form. -/
def qubitOf? (datum : Datum) : Option Int :=
  datum.number?.bind Number.toInt?

def holds (device : Device Float) (number : Number) : Bool :=
  (Number.int 0).le number && number.lt (.int device.numQubits)

/-- Whether a two-qubit gate runs on a pair of numbers. -/
def isConnectedAcross (device : Device Float) (left right : Number) : Bool :=
  match device.rule with
  | some rule => !left.same right && rule left right
  | none =>
    match left.toInt?, right.toInt? with
    | some left, some right => device.isConnected left right
    | _, _ => false

/-- Whether two qubits are connected. The second is only looked at if the first is on the
device. -/
def isConnectedAt (device : Device Float) (left right : Datum) : Except Fault Bool := do
  let left ← left.toNumber
  if !device.holds left then return false
  let right ← right.toNumber
  if !device.holds right then return false
  return device.isConnectedAcross left right

def distanceAt? (device : Device Float) (left right : Datum) : Option Nat :=
  match qubitOf? left, qubitOf? right with
  | some left, some right => device.distance? left right
  | _, _ => none

def errorRateOf (device : Device Float) (kind : Datum) : Float :=
  device.errorRate (Calibration.kindName kind)

def durationOf? (device : Device Float) (kind : Datum) : Option Float :=
  device.duration? (Calibration.kindName kind)

end Device

end Peephole
