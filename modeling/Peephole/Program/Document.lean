import Peephole.Datum.Path
import Peephole.Program.Basic
import Peephole.Text.Encoding

/-!
Programs as documents. Qubits and classical bits come in several registers and are counted
across them; an instruction is a list of its name, its qubits, its classical bits and its
parameters, in which a text is a symbol. A program is malformed if it names a place that does not
exist, one place twice in an instruction, or one symbol twice in all.
-/

namespace Peephole

/-! ## Writing -/

namespace Instruction

/-- The symbols among the parameters. -/
def symbols (instruction : Instruction) : List String :=
  instruction.params.filterMap fun
    | .symbol name => some name
    | .value _ => none

def toDatum (instruction : Instruction) : Datum :=
  .list [
    .text instruction.name,
    .list (instruction.qubits.map .ofNat),
    .list (instruction.clbits.map .ofNat),
    .list (instruction.params.map fun
      | .value datum => datum
      | .symbol name => .text name)]

end Instruction

namespace Program

def instructionsDatum (program : Program) : Datum :=
  .list (program.instructions.map Instruction.toDatum)

/-! ## Reading -/

/-- A parameter. The name of a symbol has to be storable. -/
def paramOf : Datum → Except Fault Parameter
  | .text name => do
    Text.checkStorable name
    return .symbol name
  | datum => .ok (.value datum)

/-- The size of a register. -/
def sizeOf : Datum → Except Fault Nat
  | .int size => registerSize size
  | .bool size => .ok (if size then 1 else 0)
  | .null => .error .malformedProgram
  | .float _ | .text _ | .list _ | .map _ => .error .wrongArguments

/-- The number of places in some registers together. -/
def width (registers : Datum) : Except Fault Nat := do
  return (← (← registers.elements).mapM sizeOf).foldr (· + ·) 0

/-- A place among so many, counted from the end if it is below zero. -/
def placeOf (width : Nat) (datum : Datum) : Except Fault Nat :=
  match datum.position width .malformedProgram with
  | .ok position => .ok position
  | .error _ => .error .malformedProgram

/-- The places that one operand means: a single one, or those of a collection. -/
def placesOf (width : Nat) (operand : Datum) : Except Fault (List Nat) :=
  match operand with
  | .list _ | .map _ | .text _ => do (← operand.elements).mapM (placeOf width)
  | _ => do return [← placeOf width operand]

/-- The places of all operands together. -/
def operandPlaces (width : Nat) (operands : List Datum) : Except Fault (List Nat) := do
  return (← operands.mapM (placesOf width)).flatten

def nameOf : Datum → Except Fault String
  | .text name => do
    Text.checkStorable name
    return name
  | _ => .error .notText

/-- An instruction of four parts. The name is looked at once the places are known, and the places
of each kind have to be distinct. -/
def readParts (numQubits numClbits : Nat) (name qubits clbits params : Datum) :
    Except Fault Instruction := do
  let qubits ← qubits.elements
  let clbits ← clbits.elements
  let params ← (← params.elements).mapM paramOf
  let qubits ← operandPlaces numQubits qubits
  let clbits ← operandPlaces numClbits clbits
  let name ← nameOf name
  if qubits.Nodup && clbits.Nodup then return ⟨name, qubits, clbits, params⟩
  else throw .malformedProgram

def readInstruction (numQubits numClbits : Nat) (datum : Datum) : Except Fault Instruction := do
  match ← datum.exactly 4 with
  | [name, qubits, clbits, params] => readParts numQubits numClbits name qubits clbits params
  | _ => throw .wrongArguments

/-- Reads instructions one after the other, beside symbols that are in use. -/
def readInstructions (numQubits numClbits : Nat) (used : List String) :
    List Datum → Except Fault (List Instruction)
  | [] => .ok []
  | datum :: rest => do
    let instruction ← readInstruction numQubits numClbits datum
    let symbols := instruction.symbols
    if symbols.Nodup && !symbols.any used.contains then
      return instruction :: (← readInstructions numQubits numClbits (symbols ++ used) rest)
    else throw .malformedProgram

def ofParts (name qubitRegisters clbitRegisters instructions : Datum) :
    Except Fault Program := do
  let numQubits ← width qubitRegisters
  let numClbits ← width clbitRegisters
  checkName name
  let instructions ← readInstructions numQubits numClbits [] (← instructions.elements)
  return ⟨name, numQubits, numClbits, instructions⟩

end Program

end Peephole
