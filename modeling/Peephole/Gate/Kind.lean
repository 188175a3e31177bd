import Peephole.Text.Blank
import Peephole.Text.Case

/-!
Gate kinds. Four families differ in what a gate carries: a fixed gate acts on one qubit, a
rotation also has an angle about one of three axes, a pair gate acts on two distinct qubits,
and a measurement stores one qubit in a classical bit. `GateKind.parse?` reads a name, blanks
and case aside; `GateKind.canonicalName` gives every spelling of one kind the same name.
-/

namespace Peephole

/-- Gates on one qubit without further data. -/
inductive FixedKind where
  | i | x | y | z | h | s | sdg | t | tdg | sx
  deriving DecidableEq, Repr

/-- The axis of a rotation. -/
inductive Axis where
  | x | y | z
  deriving DecidableEq, Repr

/-- Gates on two qubits. -/
inductive PairKind where
  | cx | cy | cz | swap
  deriving DecidableEq, Repr

inductive GateKind where
  | fixed (kind : FixedKind)
  | rotation (axis : Axis)
  | pair (kind : PairKind)
  | measure
  deriving DecidableEq, Repr

/-- The kind that undoes a gate on the same qubit. The square root of X has none: what undoes it
is a rotation. -/
def FixedKind.inverse? : FixedKind → Option FixedKind
  | .i => some .i
  | .x => some .x
  | .y => some .y
  | .z => some .z
  | .h => some .h
  | .s => some .sdg
  | .sdg => some .s
  | .t => some .tdg
  | .tdg => some .t
  | .sx => none

/-- Whether exchanging the two qubits leaves the gate as it is. -/
def PairKind.isSymmetric : PairKind → Bool
  | .cz | .swap => true
  | .cx | .cy => false

namespace GateKind

/-- Every kind, in the order in which kinds are listed. -/
def all : List GateKind :=
  [.fixed .i, .fixed .x, .fixed .y, .fixed .z, .fixed .h, .fixed .s, .fixed .sdg, .fixed .t,
    .fixed .tdg, .fixed .sx, .rotation .x, .rotation .y, .rotation .z, .pair .cx, .pair .cy,
    .pair .cz, .pair .swap, .measure]

theorem mem_all (kind : GateKind) : kind ∈ all := by
  rcases kind with (kind | axis | kind | _)
  · cases kind <;> decide
  · cases axis <;> decide
  · cases kind <;> decide
  · decide

def name : GateKind → String
  | .fixed .i => "I"
  | .fixed .x => "X"
  | .fixed .y => "Y"
  | .fixed .z => "Z"
  | .fixed .h => "H"
  | .fixed .s => "S"
  | .fixed .sdg => "SDG"
  | .fixed .t => "T"
  | .fixed .tdg => "TDG"
  | .fixed .sx => "SX"
  | .rotation .x => "RX"
  | .rotation .y => "RY"
  | .rotation .z => "RZ"
  | .pair .cx => "CX"
  | .pair .cy => "CY"
  | .pair .cz => "CZ"
  | .pair .swap => "SWAP"
  | .measure => "MEASURE"

/-- The name in lower case. -/
def lowerName (kind : GateKind) : String :=
  kind.name.map Char.toLower

def numQubits : GateKind → Nat
  | .pair _ => 2
  | _ => 1

def numParams : GateKind → Nat
  | .rotation _ => 1
  | _ => 0

def numClbits : GateKind → Nat
  | .measure => 1
  | _ => 0

def isRotation : GateKind → Bool
  | .rotation _ => true
  | _ => false

def isTwoQubit (kind : GateKind) : Bool :=
  kind.numQubits == 2

def isSymmetric : GateKind → Bool
  | .pair kind => kind.isSymmetric
  | _ => false

/-- The kind whose gate undoes one of this kind on the same operands. Rotations are undone by
the opposite angle and have no such kind. -/
def inverse? : GateKind → Option GateKind
  | .fixed kind => kind.inverse?.map .fixed
  | .pair kind => some (.pair kind)
  | .rotation _ | .measure => none

def ofName? (name : String) : Option GateKind :=
  all.find? fun kind => kind.name == name

theorem ofName?_name (kind : GateKind) : ofName? kind.name = some kind := by
  have named : ∀ kind ∈ all, ofName? kind.name = some kind := by decide
  exact named kind (mem_all kind)

/-- Second names of three kinds. -/
def aliasOf (name : String) : String :=
  if name == "ID" then "I" else if name == "CNOT" then "CX" else if name == "M" then "MEASURE"
  else name

/-- A name without the blanks around it and in upper case. -/
def normalized (name : String) : String :=
  String.ofList (Text.toUpper (Text.trimBlank name.toList))

/-- The kind of a name, whatever its case and the blanks around it. -/
def parse? (name : String) : Option GateKind :=
  ofName? (aliasOf (normalized name))

/-- The name under which tables hold a kind. Names of no kind are kept, normalized. -/
def canonicalName (name : String) : String :=
  match parse? name with
  | some kind => kind.name
  | none => normalized name

end GateKind

end Peephole
