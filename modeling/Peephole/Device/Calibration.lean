import Peephole.Datum.Reader
import Peephole.Gate.Kind

/-!
Calibration tables: a value for each kind of gate, such as its error rate or its duration. A
table holds each kind once, under its canonical name, in the order in which the kinds were first
given; of several values for a kind the last counts.
-/

namespace Peephole

/-- The values of kinds, by canonical name. -/
abbrev Calibration (ρ : Type) := List (String × ρ)

namespace Calibration

variable {ρ : Type}

def get? (table : Calibration ρ) (name : String) : Option ρ :=
  table.lookup name

/-- Sets the value of a kind, in the kind's place if it is there already, else at the end. -/
def set : Calibration ρ → String → ρ → Calibration ρ
  | [], name, value => [(name, value)]
  | (present, old) :: rest, name, value =>
    if present == name then (present, value) :: rest else (present, old) :: set rest name value

/-! ## Tables in documents -/

/-- What a table is about and which values it admits: those from zero to a bound, the bound
excluded. -/
structure Quantity where
  name : String
  bound : Float

def errorRate : Quantity := ⟨"error rate", 1.0⟩

def duration : Quantity := ⟨"duration", Binary64.infinity false⟩

def Quantity.admits (quantity : Quantity) (value : Float) : Bool :=
  0.0 ≤ value && value < quantity.bound

/-- The name under which a document asks for a kind. What is not even a text names no kind. -/
def kindName : Datum → String
  | .text name => GateKind.canonicalName name
  | other => GateKind.normalized other.literal

/-- What an entry is for: a kind itself, or the key of a document. -/
inductive Subject where
  | kind (kind : GateKind)
  | key (key : Key)

namespace Subject

/-- The name under which tables hold what is given for a subject. -/
def name : Subject → String
  | .kind member => member.name
  | .key given => kindName given.toDatum

def literal : Subject → String
  | .kind member => "<GateKind." ++ member.name ++ ": " ++ Text.quoted member.name ++ ">"
  | .key given => given.toDatum.literal

end Subject

def readEntry (quantity : Quantity) (subject : Subject) (value : Datum) : Except Fault Float := do
  let value ← value.toFloat
  if quantity.admits value then return value
  else
    throw (.entryOutside quantity.name subject.literal (Decimal.shortest quantity.bound)
      (Decimal.shortest value))

/-- Adds entries one after the other. -/
def readEntries (quantity : Quantity) :
    List (Subject × Datum) → Calibration Float → Except Fault (Calibration Float)
  | [], table => .ok table
  | (subject, datum) :: rest, table => do
    let value ← readEntry quantity subject datum
    readEntries quantity rest (table.set subject.name value)

/-- The entries of a map. -/
def entriesOf (fields : Fields) : List (Subject × Datum) :=
  fields.map fun (key, value) => (.key key, value)

/-- A table from a map. What says nothing is an empty table. -/
def ofDatum (quantity : Quantity) (datum : Datum) : Except Fault (Calibration Float) :=
  if datum.isVoid then .ok []
  else do readEntries quantity (entriesOf (← datum.fields)) []

def toDatum (table : Calibration Float) : Datum :=
  .record (table.map fun (name, value) => (name, .float value))

end Calibration

end Peephole
