import Peephole.Circuit.Document

/-!
Building circuits by calls: a method for every kind of gate, which takes the qubits and then the
angle, one for measurements, whose classical bit may be left out, and one that measures all
qubits.
-/

namespace Peephole

inductive Builder where
  | gate (kind : GateKind)
  | measure
  | measureAll
  deriving DecidableEq, Repr

/-- The method of a name. Gate methods go by the names of the kinds in lower case. -/
def Builder.ofName? (name : String) : Option Builder :=
  if name == "measure" then some .measure
  else if name == "measure_all" then some .measureAll
  else (GateKind.all.find? fun kind => kind.lowerName == name).map .gate

namespace Circuit

/-- Adds a gate of a kind on some qubits. Parameters that are not given are none. -/
def add (circuit : Circuit Float) (kind qubits : Datum) (params : Option Datum) :
    Circuit Float × Option Fault :=
  circuit.extend [do
    let qubits ← qubits.elements
    Gate.ofParts ⟨kind, .list qubits, params.getD (.list []), .list [], .null⟩]

/-- Calls a method. -/
def build (circuit : Circuit Float) (builder : Builder) (arguments : List Datum) :
    Circuit Float × Option Fault :=
  match builder, arguments with
  | .gate kind, arguments =>
    if arguments.length = kind.numQubits + kind.numParams then
      circuit.extend [
        Gate.ofItems kind (arguments.take kind.numQubits) (arguments.drop kind.numQubits) []
          .null]
    else (circuit, some .wrongArguments)
  | .measure, [qubit] | .measure, [qubit, .null] =>
    circuit.extend [Gate.ofItems .measure [qubit] [] [qubit] .null]
  | .measure, [qubit, clbit] =>
    circuit.extend [Gate.ofItems .measure [qubit] [] [clbit] .null]
  | .measureAll, [] => circuit.measureAll
  | .measure, _ | .measureAll, _ => (circuit, some .wrongArguments)

end Circuit

end Peephole
