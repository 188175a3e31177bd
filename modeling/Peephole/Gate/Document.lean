import Peephole.Datum.Reader
import Peephole.Gate.Basic

/-!
Gates as documents. `Gate.toDatum` writes a map of the kind, the qubits and whatever else the
gate has; `Gate.ofDatum` reads such a map, and takes `gate` for `kind` and a map of named
parameters for a list. `Gate.ofArguments` reads the same parts given one by one, in which case
each part is checked in turn.
-/

namespace Peephole

/-- The kind that a document names. -/
def GateKind.ofDatum : Datum → Except Fault GateKind
  | .text name =>
    match GateKind.parse? name with
    | some kind => .ok kind
    | none => .error (.unknownKind (Text.quoted name))
  | other => .error (.unknownKind other.literal)

namespace Gate

/-! ## Writing -/

def indices (values : List Int) : Datum :=
  .list (values.map .int)

def entryUnlessEmpty (name : String) (items : List Datum) : List (String × Datum) :=
  if items.isEmpty then [] else [(name, .list items)]

/-- The gate as a map, with its annotations if it has some and they are wanted. -/
def toDatum (withAnnotations : Bool) (gate : Gate Float) : Datum :=
  .record <|
    [("kind", .text gate.kind.name), ("qubits", indices gate.qubits)] ++
      entryUnlessEmpty "params" (gate.params.map .float) ++
      entryUnlessEmpty "clbits" (gate.clbits.map .int) ++
      (if withAnnotations && !gate.annotations.isEmpty then
        [("metadata", .map gate.annotations)] else [])

/-! ## Reading -/

def qubitIndex (kind : GateKind) (datum : Datum) : Except Fault Int :=
  datum.toIndex (kind.name ++ " qubit index")

def clbitIndex (kind : GateKind) (datum : Datum) : Except Fault Int :=
  datum.toIndex (kind.name ++ " clbit index")

/-- The gate of a kind on operands that have been read, with the annotations to be read last. -/
def ofOperands (kind : GateKind) (qubits : List Int) (params : List Float) (clbits : List Int)
    (annotations : Datum) : Except Fault (Gate Float) := do
  let operation ← Operation.ofOperands kind qubits params clbits
  return ⟨operation, ← annotations.annotations⟩

/-- The gate of a kind on the items of the operands. -/
def ofItems (kind : GateKind) (qubits params clbits : List Datum) (annotations : Datum) :
    Except Fault (Gate Float) := do
  let qubits ← qubits.mapM (qubitIndex kind)
  let params ← params.mapM Datum.toFloat
  let clbits ← clbits.mapM (clbitIndex kind)
  ofOperands kind qubits params clbits annotations

/-- The parts of a gate given one by one. -/
structure Parts where
  kind : Datum
  qubits : Datum
  params : Datum
  clbits : Datum
  annotations : Datum

def ofParts (parts : Parts) : Except Fault (Gate Float) := do
  let kind ← GateKind.ofDatum parts.kind
  let qubits ← (← parts.qubits.elements).mapM (qubitIndex kind)
  let params ← (← parts.params.elements).mapM Datum.toFloat
  let clbits ← (← parts.clbits.elements).mapM (clbitIndex kind)
  ofOperands kind qubits params clbits parts.annotations

def argumentNames : List String :=
  ["kind", "qubits", "params", "clbits", "metadata"]

/-- A gate from named arguments, of which the kind and the qubits are needed. -/
def ofArguments (arguments : Fields) : Except Fault (Gate Float) :=
  if arguments.any fun entry => !argumentNames.any fun name => entry.1.same (.text name) then
    .error .wrongArguments
  else
    match arguments.get? "kind", arguments.get? "qubits" with
    | some kind, some qubits =>
      ofParts
        ⟨kind, qubits, (arguments.get? "params").getD (.list []),
          (arguments.get? "clbits").getD (.list []), (arguments.get? "metadata").getD .null⟩
    | _, _ => .error .wrongArguments

/-- Parameters may be named, in which case they count in the order given. -/
def paramItems : Datum → Except Fault (List Datum)
  | .map fields => .ok (Fields.values fields)
  | other => other.elements

/-- A gate from a map. The operands are taken apart before any of them is read. -/
def ofDatum (datum : Datum) : Except Fault (Gate Float) := do
  let fields ← datum.fields
  let named := (fields.get? "kind").getD ((fields.get? "gate").getD .null)
  let kind ← GateKind.ofDatum named
  let qubits ← (← fields.require "qubits").elements
  let params ← paramItems ((fields.get? "params").getD (.list []))
  let clbits ← ((fields.get? "clbits").getD (.list [])).elements
  ofItems kind qubits params clbits ((fields.get? "metadata").getD .null)

/-- A gate from a map, which either holds named arguments in an entry of its own or is read as
it is. -/
def ofSpecification (datum : Datum) : Except Fault (Gate Float) :=
  match datum with
  | .map fields =>
    match Fields.get? fields "args" with
    | some (.map arguments) => ofArguments arguments
    | some _ => .error .wrongArguments
    | none => ofDatum datum
  | _ => ofDatum datum

end Gate

end Peephole
