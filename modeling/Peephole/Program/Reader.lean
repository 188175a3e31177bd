import Peephole.Program.Angle
import Peephole.Program.Basic
import Peephole.Program.Printer
import Peephole.Program.Statement

/-!
Programs read from OpenQASM 2 texts. Each statement is read and carried out before the next one is
looked at, in a scope that knows the registers and gates declared so far. An operation on whole
registers stands for one operation on each of their places in turn.
-/

namespace Peephole

namespace Program

/-! ## Values of expressions -/

/-- The value of an expression; nothing can be divided by zero. -/
def Expression.value? : Expression → Option Float
  | .number value => some value
  | .pi => some Program.pi
  | .negate operand => do return -(← operand.value?)
  | .add left right => do return (← left.value?) + (← right.value?)
  | .subtract left right => do return (← left.value?) - (← right.value?)
  | .multiply left right => do return (← left.value?) * (← right.value?)
  | .divide left right => do
    let dividend ← left.value?
    let divisor ← right.value?
    if divisor == 0.0 then none else return dividend / divisor

/-! ## Scopes -/

/-- What a gate takes, and the name of its instruction. -/
structure Declaration where
  name : String
  numParams : Nat
  numQubits : Nat
  instruction : String

/-- Gates that need no declaration. -/
def basicGates : List Declaration :=
  [⟨"U", 3, 1, "u"⟩, ⟨"CX", 0, 2, "cx"⟩]

/-- A gate whose instruction has its own name. -/
def declare (name : String) (numParams numQubits : Nat) : Declaration :=
  ⟨name, numParams, numQubits, name⟩

/-- The gates that the file of common gates declares. -/
def fileGates : List Declaration :=
  [declare "u3" 3 1, declare "u2" 2 1, declare "u1" 1 1, declare "cx" 0 2, ⟨"id", 0, 1, "u"⟩,
    declare "x" 0 1, declare "y" 0 1, declare "z" 0 1, declare "h" 0 1, declare "s" 0 1,
    declare "sdg" 0 1, declare "t" 0 1, declare "tdg" 0 1, declare "rx" 1 1, declare "ry" 1 1,
    declare "rz" 1 1, declare "cz" 0 2, declare "cy" 0 2, declare "ch" 0 2, declare "ccx" 0 3,
    declare "crz" 1 2, declare "cu1" 1 2, declare "cu3" 3 2]

/-- A register: its places are counted from `start`. -/
structure Register where
  name : String
  start : Nat
  size : Nat

structure Scope where
  qubits : List Register
  clbits : List Register
  gates : List Declaration

namespace Scope

def initial : Scope := ⟨[], [], basicGates⟩

def declares (scope : Scope) (name : String) : Bool :=
  scope.qubits.any (·.name == name) || scope.clbits.any (·.name == name) ||
    scope.gates.any (·.name == name)

def widthOf (registers : List Register) : Nat :=
  (registers.map (·.size)).foldr (· + ·) 0

/-- The registers with one more at the end. -/
def extended (registers : List Register) (name : String) (size : Nat) : List Register :=
  registers ++ [⟨name, widthOf registers, size⟩]

def gate? (scope : Scope) (name : String) : Option Declaration :=
  scope.gates.find? (·.name == name)

end Scope

/-! ## Operations -/

/-- What an operand stands for: one place, or all places of a register in turn. -/
inductive Target where
  | one (place : Nat)
  | all (start size : Nat)

def target? (registers : List Register) : Operand → Option Target
  | .place name index => do
    let register ← registers.find? (·.name == name)
    if index < register.size then return .one (register.start + index) else none
  | .whole name => do
    let register ← registers.find? (·.name == name)
    return .all register.start register.size

def Target.places : Target → List Nat
  | .one place => [place]
  | .all start size => (List.range size).map (start + ·)

def Target.placeAt (repetition : Nat) : Target → Nat
  | .one place => place
  | .all start _ => start + repetition

/-- How often an operation on the targets is repeated. Their registers are of one size, except
that empty ones may stand in front of the others. -/
def repetitions? (targets : List Target) : Option Nat :=
  let sizes := targets.filterMap fun
    | .one _ => none
    | .all _ size => some size
  match sizes, sizes.dropWhile (· == 0) with
  | [], _ => some 1
  | _, [] => some 0
  | _, size :: rest => if rest.all (· == size) then some size else none

/-- The first place of a target, and how many there are. -/
def Target.range : Target → Nat × Nat
  | .one place => (place, 1)
  | .all start size => (start, size)

/-- Whether two targets have a place in common. -/
def Target.meets (left right : Target) : Bool :=
  let (start, size) := left.range
  let (start', size') := right.range
  max start start' < min (start + size) (start' + size')

def areApart : List Target → Bool
  | [] => true
  | target :: rest => !rest.any target.meets && areApart rest

/-- The places of each repetition of an operation on targets without a common place. An empty
register stands for the places that follow it. -/
def broadcast? (targets : List Target) : Option (List (List Nat)) := do
  let count ← repetitions? targets
  if areApart targets then
    return (List.range count).map fun repetition => targets.map (Target.placeAt repetition)
  else none

/-- What is wrong with a program, unless its reading has a result. -/
def wellFormed {β : Type} (result : Option β) : Except Fault β :=
  match result with
  | some value => .ok value
  | none => .error .malformedProgram

/-- The instructions of a gate, one for each list of places. A gate that is applied at all needs
all its parameters and places that exist. -/
def Scope.apply (scope : Scope) (gate : Declaration) (params : List Float)
    (applications : List (List Nat)) : Except Fault (List Instruction) :=
  applications.mapM fun qubits =>
    if params.length < gate.numParams then .error .wrongArguments
    else if qubits.any (Scope.widthOf scope.qubits ≤ ·) then .error .missingItem
    else .ok ⟨gate.instruction, qubits, [], params.map fun value => .value (.float value)⟩

/-- The gate of an operation with its parameters and the places to apply it to. Parameters are
counted only where a list of them is given. -/
def Scope.application? (scope : Scope) (name : String) (params : Option (List Expression))
    (operands : List Operand) : Option (Declaration × List Float × List (List Nat)) := do
  let gate ← scope.gate? name
  let values ← (params.getD []).mapM Expression.value?
  let applications ← broadcast? (← operands.mapM (target? scope.qubits))
  if operands.length = gate.numQubits && (params.isNone || values.length = gate.numParams) then
    return (gate, values, applications)
  else none

/-- Pairs of a qubit and the classical bit that takes its value. -/
def Scope.measured? (scope : Scope) (source result : Operand) : Option (List (Nat × Nat)) := do
  match ← target? scope.qubits source, ← target? scope.clbits result with
  | .one qubit, .one clbit => return [(qubit, clbit)]
  | .all start size, .all start' size' =>
    if size = size' then
      return (List.range size).map fun offset => (start + offset, start' + offset)
    else none
  | _, _ => none

def Scope.effect (scope : Scope) : Effect → Except Fault (List Instruction)
  | .gate name params operands => do
    let (gate, values, applications) ← wellFormed (scope.application? name params operands)
    scope.apply gate values applications
  | .measure source result => do
    return (← wellFormed (scope.measured? source result)).map fun (qubit, clbit) =>
      ⟨"measure", [qubit], [clbit], []⟩
  | .reset operand => do
    let target ← wellFormed (target? scope.qubits operand)
    return target.places.map fun place => ⟨"reset", [place], [], []⟩

/-! ## Statements -/

/-- A scope that declares one more name, which has to be new. -/
def Scope.declare? (scope : Scope) (name : String) (declared : Scope) : Option Scope :=
  if scope.declares name then none else some declared

/-- The scope after the inclusion of a file. -/
def Scope.include? (scope : Scope) (name : String) : Option Scope :=
  if name != gateFile || fileGates.any fun gate => scope.declares gate.name then none
  else some { scope with gates := scope.gates ++ fileGates }

/-- Refuses sizes for which there is no register. -/
def checkSize (size : Nat) : Except Fault Unit :=
  if registerLimit ≤ size then .error .malformedProgram else .ok ()

/-- The scope after a statement and the instructions that it adds. -/
def Scope.carryOut (scope : Scope) : Statement → Except Fault (Scope × List Instruction)
  | .qubits name size => do
    let declared := { scope with qubits := Scope.extended scope.qubits name size }
    checkSize size
    return (← wellFormed (scope.declare? name declared), [])
  | .clbits name size => do
    let declared := { scope with clbits := Scope.extended scope.clbits name size }
    checkSize size
    return (← wellFormed (scope.declare? name declared), [])
  | .fromFile name => do return (← wellFormed (scope.include? name), [])
  | .barrier operands => do
    let targets ← wellFormed (operands.mapM (target? scope.qubits))
    return (scope, [⟨"barrier", (targets.flatMap Target.places).eraseDups, [], []⟩])
  | .run effect => do return (scope, ← scope.effect effect)
  | .conditional register _ effect => do
    if scope.clbits.any (·.name == register) then
      let instructions ← scope.effect effect
      return (scope, instructions.map fun instruction =>
        ⟨"if_else", instruction.qubits, instruction.clbits, []⟩)
    else throw .malformedProgram

/-- Reads and carries out so many statements at most. -/
def carryOutFrom (scope : Scope) : Nat → List Token → Except Fault (Scope × List Instruction)
  | 0, _ => .ok (scope, [])
  | steps + 1, tokens => do
    match ← wellFormed (Statement.next? tokens) with
    | none => return (scope, [])
    | some (statement, rest) =>
      let (scope, instructions) ← scope.carryOut statement
      let (final, more) ← carryOutFrom scope steps rest
      return (final, instructions ++ more)

/-- The program of a text, which does not name it. -/
def ofText (text : String) : Except Fault Program := do
  let tokens ← wellFormed (afterHead? (Token.ofText text))
  let (scope, instructions) ← carryOutFrom Scope.initial (tokens.length + 1) tokens
  return ⟨.null, Scope.widthOf scope.qubits, Scope.widthOf scope.clbits, instructions⟩

end Program

namespace Circuit

def ofProgramText (text : String) : Except Fault (Circuit Float) := do
  ofProgram (← Program.ofText text)

/-- The text of the program of a circuit. -/
def toProgramText (circuit : Circuit Float) : Except Fault String := do
  (← circuit.asProgram).toText

end Circuit

end Peephole
