import Peephole.Datum.Literal
import Peephole.Schedule

/-!
Circuits: a list of gates over two registers of fixed width. Every gate that enters a circuit
is checked against the registers by `Circuit.append`; `Circuit.extend` enters several and keeps
those before the first that will not do. The number of two-qubit gates is kept up to date with
the list.
-/

namespace Peephole

/-- The widths of the registers: qubits, and bits that hold the results of measurements. -/
structure Registers where
  qubits : Nat
  clbits : Nat
  deriving DecidableEq, Repr

/-- What a circuit is called and what is noted about it. Usually the name is a text. -/
structure Labels where
  name : Datum
  annotations : Fields

structure Circuit (α : Type) where
  registers : Registers
  labels : Labels
  /-- The gates in the order in which they act. -/
  gates : List (Gate α)
  twoQubitCount : Nat

/-! ## Registers -/

namespace Registers

/-- Registers of the given widths. There is at least one qubit. -/
def ofWidths (qubits clbits : Int) : Except Fault Registers :=
  if qubits ≤ 0 then .error (.noQubits qubits)
  else if clbits < 0 then .error (.negativeClbits clbits)
  else .ok ⟨qubits.toNat, clbits.toNat⟩

/-- Whether an index lies outside a register of the given width. -/
def outside (size : Nat) (index : Int) : Bool :=
  index < 0 || (size : Int) ≤ index

/-- What is wrong with the operands of a gate: the first qubit outside its register, or else the
first classical bit outside its own. -/
def fault? {α : Type} [Angle α] (registers : Registers) (gate : Gate α) : Option Fault :=
  match gate.qubits.find? (outside registers.qubits) with
  | some qubit => some (.qubitOutOfRange qubit registers.qubits gate.text)
  | none =>
    match gate.clbits.find? (outside registers.clbits) with
    | some clbit => some (.clbitOutOfRange clbit registers.clbits gate.text)
    | none => none

end Registers

/-! ## Building circuits -/

namespace Circuit

variable {α : Type}

def empty (registers : Registers) (labels : Labels) : Circuit α :=
  ⟨registers, labels, [], 0⟩

/-- A circuit with one more gate, which is not checked. -/
def push (circuit : Circuit α) (gate : Gate α) : Circuit α :=
  { circuit with
    gates := circuit.gates ++ [gate]
    twoQubitCount := circuit.twoQubitCount + if gate.isTwoQubit then 1 else 0 }

/-- Adds a gate whose operands lie in the registers. -/
def append [Angle α] (circuit : Circuit α) (gate : Gate α) : Except Fault (Circuit α) :=
  match circuit.registers.fault? gate with
  | some fault => .error fault
  | none => .ok (circuit.push gate)

/-- Adds gates, some of which may have turned out to be none, one after the other. If one will
not do, the circuit holds the gates before it, and the fault is told. -/
def extend [Angle α] (circuit : Circuit α) :
    List (Except Fault (Gate α)) → Circuit α × Option Fault
  | [] => (circuit, none)
  | .error fault :: _ => (circuit, some fault)
  | .ok gate :: rest =>
    match circuit.append gate with
    | .ok longer => longer.extend rest
    | .error fault => (circuit, some fault)

/-- Adds gates if all of them will do. -/
def extendAll [Angle α] (circuit : Circuit α) (gates : List (Except Fault (Gate α))) :
    Except Fault (Circuit α) :=
  match circuit.extend gates with
  | (longer, none) => .ok longer
  | (_, some fault) => .error fault

/-- The measurements of the first qubits, each into the classical bit of the same index. -/
def measurements (width : Nat) : List (Gate α) :=
  (List.range width).map fun (qubit : Nat) => ⟨.measure qubit qubit, []⟩

/-- Measures every qubit. The first measurement without a classical bit fails, so none after it
is formed. -/
def measureAll [Angle α] (circuit : Circuit α) : Circuit α × Option Fault :=
  let tried := min circuit.registers.qubits (circuit.registers.clbits + 1)
  circuit.extend ((measurements tried).map .ok)

/-! ## Circuits from circuits -/

/-- A circuit over the same registers and with the same labels, but with other gates. -/
def withGates [Angle α] (circuit : Circuit α) (gates : List (Gate α)) :
    Except Fault (Circuit α) :=
  (empty circuit.registers circuit.labels).extendAll (gates.map .ok)

def copy [Angle α] (circuit : Circuit α) : Except Fault (Circuit α) :=
  circuit.withGates circuit.gates

/-- The first circuit followed by the second, with the labels of the first. -/
def compose [Angle α] (first second : Circuit α) : Except Fault (Circuit α) :=
  if second.registers.qubits ≠ first.registers.qubits then
    .error (.widthsDiffer first.registers.qubits second.registers.qubits)
  else
    let clbits := max first.registers.clbits second.registers.clbits
    (empty ⟨first.registers.qubits, clbits⟩ first.labels).extendAll
      ((first.gates ++ second.gates).map .ok)

/-- The circuit that undoes this one. -/
def inverse [Angle α] (circuit : Circuit α) : Except Fault (Circuit α) :=
  (empty circuit.registers circuit.labels).extendAll (circuit.gates.reverse.map Gate.inverse)

/-! ## Figures -/

def gateCount (circuit : Circuit α) : Nat :=
  circuit.gates.length

def depth (circuit : Circuit α) : Nat :=
  Schedule.depth circuit.gates

/-- How many gates there are of each kind, in the order in which the kinds first occur. -/
def gateCounts (circuit : Circuit α) : List (GateKind × Nat) :=
  let kinds := circuit.gates.map Gate.kind
  kinds.eraseDups.map fun kind => (kind, kinds.count kind)

/-- Equality of registers and gates; labels are ignored. -/
def same [BEq α] (left right : Circuit α) : Bool :=
  left.registers == right.registers && left.gates.length == right.gates.length &&
    (left.gates.zip right.gates).all fun (gate, other) => gate.same other

/-! ## Text -/

/-- A name in front of a description, if the name says anything. -/
def labelText (name : Datum) : String :=
  if name.isVoid then "" else " " ++ name.literal

def text (circuit : Circuit α) : String :=
  "Circuit" ++ labelText circuit.labels.name ++ "(" ++ toString circuit.registers.qubits ++
    " qubits, " ++ toString circuit.registers.clbits ++ " clbits, " ++
    toString circuit.gateCount ++ " gates)"

end Circuit

end Peephole
