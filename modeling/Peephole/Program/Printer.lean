import Peephole.Program.Angle
import Peephole.Program.Basic

/-!
Programs in OpenQASM 2: a head, the registers, and a statement for every instruction, each on a
line of its own. A program is written if each of its angles can be.
-/

namespace Peephole

namespace Program

/-- The file that declares the common gates. -/
def gateFile : String := "qelib1.inc"

def placeText (register : String) (place : Nat) : String :=
  register ++ "[" ++ toString place ++ "]"

def paramText : Parameter → Except Fault String
  | .value (.float angle) => angleText angle
  | .value datum => .ok datum.literal
  | .symbol name => .ok name

def paramsText (params : List Parameter) : Except Fault String := do
  if params.isEmpty then return ""
  return "(" ++ ",".intercalate (← params.mapM paramText) ++ ")"

def statementText (instruction : Instruction) : Except Fault String := do
  let qubits := ",".intercalate (instruction.qubits.map (placeText "q"))
  let results :=
    if instruction.clbits.isEmpty then ""
    else " -> " ++ ",".intercalate (instruction.clbits.map (placeText "c"))
  return instruction.name ++ (← paramsText instruction.params) ++ " " ++ qubits ++ results ++ ";"

/-- The declaration of a register, if it holds anything. -/
def registerText (keyword register : String) (size : Nat) : List String :=
  if size = 0 then [] else [keyword ++ " " ++ placeText register size ++ ";"]

def toText (program : Program) : Except Fault String := do
  let statements ← program.instructions.mapM statementText
  return "\n".intercalate <|
    ["OPENQASM 2.0;", "include \"" ++ gateFile ++ "\";"] ++
      registerText "qreg" "q" program.numQubits ++ registerText "creg" "c" program.numClbits ++
      statements

end Program

end Peephole
