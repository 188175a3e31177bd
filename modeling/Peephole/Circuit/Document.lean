import Peephole.Circuit.Basic
import Peephole.Gate.Document
import Peephole.Json.Reader
import Peephole.Json.Writer

/-!
Circuits as documents. `Circuit.toDatum` writes the widths, the gates and the labels that say
anything. `Circuit.ofDatum` reads such a map; widths that it does not give are the least that
hold the gates. `Circuit.ofParts` reads the same parts given one by one and keeps the name as it
is, whatever it is.
-/

namespace Peephole

namespace Circuit

/-! ## Writing -/

def entryUnlessVoid (name : String) (value : Datum) : List (String × Datum) :=
  if value.isVoid then [] else [(name, value)]

/-- The circuit as a map, with its labels and those of its gates if they are wanted. -/
def toDatum (withLabels : Bool) (circuit : Circuit Float) : Datum :=
  .record <|
    [("num_qubits", .ofNat circuit.registers.qubits),
      ("num_clbits", .ofNat circuit.registers.clbits),
      ("gates", .list (circuit.gates.map (Gate.toDatum withLabels)))] ++
      if withLabels then
        entryUnlessVoid "name" circuit.labels.name ++
          entryUnlessVoid "metadata" (.map circuit.labels.annotations)
      else []

def toJson (withLabels : Bool) (style : Json.Style) (circuit : Circuit Float) :
    Except Fault String :=
  Json.write style (circuit.toDatum withLabels)

/-! ## Reading -/

/-- The parts of a circuit given one by one. The gates are a collection of maps. -/
structure Parts where
  numQubits : Datum
  numClbits : Datum
  gates : Datum
  name : Datum
  annotations : Datum

/-- An empty circuit of the given widths, with annotations yet to be read. -/
def blank (numQubits numClbits name annotations : Datum) : Except Fault (Circuit Float) := do
  let qubits ← numQubits.toIndex "num_qubits"
  let clbits ← numClbits.toIndex "num_clbits"
  let registers ← Registers.ofWidths qubits clbits
  return empty registers ⟨name, ← annotations.annotations⟩

/-- Adds the gates that a collection of maps describes. -/
def extendFrom (circuit : Circuit Float) (gates : Datum) : Circuit Float × Option Fault :=
  match gates.elements with
  | .ok items => circuit.extend (items.map Gate.ofDatum)
  | .error fault => (circuit, some fault)

def ofParts (parts : Parts) : Except Fault (Circuit Float) := do
  let circuit ← blank parts.numQubits parts.numClbits parts.name parts.annotations
  match circuit.extendFrom parts.gates with
  | (full, none) => return full
  | (_, some fault) => throw fault

/-- One more than the greatest index, or `least` if there is none. -/
def widthOf (least : Int) (indices : List Int) : Int :=
  match indices.max? with
  | some greatest => greatest + 1
  | none => least

/-- The least number of qubits that the gates need. -/
def inferredQubits (gates : List (Gate Float)) : Int :=
  widthOf 1 (gates.flatMap Gate.qubits)

/-- The least number of classical bits that the gates need. -/
def inferredClbits (gates : List (Gate Float)) : Int :=
  widthOf 0 (gates.flatMap Gate.clbits)

/-- A width as given, or else the one inferred. -/
def givenWidth (given : Option Datum) (inferred : Int) : Datum :=
  match given with
  | none | some .null => .int inferred
  | some width => width

/-- A circuit from a map. All gates are read before the name and the widths are looked at. -/
def ofDatum (datum : Datum) : Except Fault (Circuit Float) := do
  let fields ← datum.fields
  match (fields.get? "gates").getD .null with
  | .null => throw .missingGates
  | items =>
    let gates ← (← items.elements).mapM Gate.ofDatum
    let name ← ((fields.get? "name").getD (.text "")).toText
    let circuit ←
      blank (givenWidth (fields.get? "num_qubits") (inferredQubits gates))
        (givenWidth (fields.get? "num_clbits") (inferredClbits gates)) (.text name)
        ((fields.get? "metadata").getD .null)
    circuit.extendAll (gates.map .ok)

def ofJson (text : String) : Except Fault (Circuit Float) := do
  ofDatum (← Json.read text)

end Circuit

end Peephole
