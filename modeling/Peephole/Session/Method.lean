import Peephole.Circuit.Builder
import Peephole.Program.Source

/-!
Methods of circuits by name. Some add gates and give the circuit itself, others give something
else and leave the circuit as it is. What is no method but a figure of the circuit cannot be
called, and a name that means nothing is an unknown operation.
-/

namespace Peephole

/-- A question to a circuit, or the making of something else from it. -/
inductive Inquiry where
  /-- One that always has an answer. -/
  | figure
  | json
  | program
  | programText
  | inverse
  | withGates
  | ofDatum
  | ofText
  | ofFile
  /-- One that takes something that is no document. -/
  | ofCircuit

inductive Method where
  | build (builder : Builder)
  | append
  | extend
  | add
  | inquire (inquiry : Inquiry)
  | property

namespace Method

def namedInquiries : List (String × Inquiry) :=
  [("copy", .figure), ("clone", .figure), ("layers", .figure), ("gate_count", .figure),
    ("gate_counts", .figure), ("two_qubit_gate_count", .figure), ("to_dict", .figure),
    ("to_qiskit", .program), ("to_qasm", .programText), ("to_json", .json), ("inverse", .inverse),
    ("with_gates", .withGates), ("from_dict", .ofDatum), ("from_qasm", .ofText),
    ("from_json", .ofFile), ("from_qiskit", .ofCircuit), ("compose", .ofCircuit)]

def properties : List String :=
  ["num_qubits", "num_clbits", "gates", "depth", "name", "metadata"]

def ofName? (name : String) : Option Method :=
  match name with
  | "append" => some .append
  | "extend" => some .extend
  | "add" => some .add
  | name =>
    if properties.contains name then some .property
    else
      (Builder.ofName? name).map .build <|>
        (namedInquiries.find? fun entry => entry.1 == name).map fun entry => .inquire entry.2

end Method

/-- Whether a circuit has an answer to an inquiry. Files are looked for in a working directory that
holds nothing. -/
def Inquiry.check (circuit : Circuit Float) : Inquiry → List Datum → Except Fault Unit
  | .figure, [] => .ok ()
  | .json, [] | .json, [.null] => (circuit.toJson true .plain).map fun _ => ()
  | .json, [.text name] => do
    let _ ← FileTree.bare.writeNamed name (← circuit.toJson true .plain)
  | .program, [] => circuit.asProgram.map fun _ => ()
  | .programText, [] => circuit.toProgramText.map fun _ => ()
  | .inverse, [] => circuit.inverse.map fun _ => ()
  | .withGates, [gates] =>
    match (Circuit.empty circuit.registers circuit.labels).extendFrom gates with
    | (_, none) => .ok ()
    | (_, some fault) => .error fault
  | .ofDatum, [datum] => (Circuit.ofDatum datum).map fun _ => ()
  | .ofText, [source] => (Circuit.ofProgramSource .bare source).map fun _ => ()
  | .ofFile, [.text name] => do
    let _ ← Circuit.ofJson (← FileTree.bare.readNamed name)
  | .ofCircuit, [_] => .error .notAMapping
  | _, _ => .error .wrongArguments

/-- Calls a method: the circuit after it, what went wrong, and whether the method gives the
circuit itself. -/
def Circuit.call (circuit : Circuit Float) (method : Method) (arguments : List Datum) :
    (Circuit Float × Option Fault) × Bool :=
  match method, arguments with
  | .build builder, arguments => (circuit.build builder arguments, true)
  | .append, [gate] => (circuit.extend [Gate.ofDatum gate], true)
  | .extend, [gates] => (circuit.extendFrom gates, true)
  | .add, kind :: qubits => (circuit.add kind (.list qubits) none, true)
  | .inquire inquiry, arguments =>
    match inquiry.check circuit arguments with
    | .ok () => ((circuit, none), false)
    | .error fault => ((circuit, some fault), false)
  | .append, _ | .extend, _ | .add, [] | .property, _ => ((circuit, some .wrongArguments), false)

end Peephole
