import Peephole.Circuit.Document
import Peephole.Number.Word

/-!
Programs: lists of instructions that go by names, as other tools hand circuits over and take
them. `Circuit.ofProgram` reads the instructions as gates, whatever the spelling of their names,
and skips those that do nothing; `Circuit.toProgram` writes every gate as an instruction.
-/

namespace Peephole

/-- A parameter of an instruction: a value, or a symbol that stands for one. -/
inductive Parameter where
  | value (datum : Datum)
  | symbol (name : String)

structure Instruction where
  name : String
  qubits : List Nat
  clbits : List Nat
  params : List Parameter

structure Program where
  /-- What the program is called: a text, or null. -/
  name : Datum
  numQubits : Nat
  numClbits : Nat
  instructions : List Instruction

/-! ## Names and registers -/

namespace Program

/-- A name is a text or missing. -/
def checkName : Datum → Except Fault Unit
  | .null | .text _ => .ok ()
  | _ => .error .malformedProgram

/-- The number of places from which on a register is too large. -/
def registerLimit : Int := 0x100000000

/-- The size of a register, if there is one of that size. -/
def registerSize (size : Int) : Except Fault Nat :=
  if !Word.holds size then .error .registerTooLarge
  else if size < 0 || registerLimit ≤ size then .error .malformedProgram
  else .ok size.toNat

end Program

/-! ## Parameters -/

namespace Parameter

def literal : Parameter → String
  | .value datum => datum.literal
  | .symbol name => "Parameter(" ++ name ++ ")"

def toFloat : Parameter → Except Fault Float
  | .value datum => datum.toFloat
  | .symbol _ => .error .notNumeric

end Parameter

/-! ## From programs to circuits -/

namespace Instruction

/-- Whether an instruction only shapes the timing and so does nothing to the state. -/
def isIdle (instruction : Instruction) : Bool :=
  instruction.name == "barrier" || instruction.name == "delay"

/-- The parameters as angles. Integers too large for an angle are told apart from what is no
number. -/
def angles (instruction : Instruction) : Except Fault (List Float) :=
  match instruction.params.mapM Parameter.toFloat with
  | .ok angles => .ok angles
  | .error .integerTooLarge => .error .integerTooLarge
  | .error _ =>
    let shown := "[" ++ Datum.separated (instruction.params.map Parameter.literal) ++ "]"
    .error (.unresolvedParameter instruction.name shown)

def gate (instruction : Instruction) : Except Fault (Gate Float) := do
  let kind ← GateKind.ofDatum (.text instruction.name)
  let angles ← instruction.angles
  let indices (places : List Nat) : List Int := places.map fun (place : Nat) => (place : Int)
  Gate.ofOperands kind (indices instruction.qubits) angles (indices instruction.clbits) .null

end Instruction

namespace Circuit

/-- The circuit of a program. It has at least one qubit. -/
def ofProgram (program : Program) : Except Fault (Circuit Float) := do
  let registers ← Registers.ofWidths (max program.numQubits 1 : Nat) program.numClbits
  let name := if program.name.isVoid then .text "" else program.name
  let instructions := program.instructions.filter fun instruction => !instruction.isIdle
  (empty registers ⟨name, []⟩).extendAll (instructions.map Instruction.gate)

/-! ## From circuits to programs -/

/-- The name under which a kind of gate is handed over. -/
def instructionName (kind : GateKind) : String :=
  if kind = .fixed .i then "id" else kind.lowerName

def instructionOf (gate : Gate Float) : Instruction where
  name := instructionName gate.kind
  qubits := gate.qubits.map Int.toNat
  clbits := gate.clbits.map Int.toNat
  params := gate.params.map fun angle => .value (.float angle)

def toProgram (circuit : Circuit Float) : Program where
  name := if circuit.labels.name.isVoid then .null else circuit.labels.name
  numQubits := circuit.registers.qubits
  numClbits := circuit.registers.clbits
  instructions := circuit.gates.map instructionOf

/-- The program of a circuit whose name can be one and whose registers are not too large. -/
def asProgram (circuit : Circuit Float) : Except Fault Program := do
  Program.checkName circuit.toProgram.name
  let _ ← Program.registerSize circuit.registers.qubits
  let _ ← Program.registerSize circuit.registers.clbits
  return circuit.toProgram

end Circuit

end Peephole
