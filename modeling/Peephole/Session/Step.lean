import Peephole.Session.Deed

/-!
The steps of a session as maps. A step names the slot that it works on and perhaps another one,
says what is done there, and brings what that needs. A step that fails says why, and the session
goes on. What a step lacks is told only where it is needed: after the slot that it works on.
-/

namespace Peephole

namespace Session

/-- What a new circuit is made from: named arguments, or a document. -/
inductive Origin where
  | arguments (named : Fields)
  | document (datum : Datum)

inductive Action where
  | create (origin : Origin)
  | work (deed : Except Fault Deed)

structure Step where
  slot : Except Fault Key
  /-- The other slot, where a derived circuit goes. -/
  destination : Option Key
  /-- The slot that shows what the step has done: the other one, if there is one. -/
  shown : Key
  action : Except Fault Action

/-! ## Reading steps -/

/-- The slot that a required entry names. -/
def slotAt (step : Fields) (name : String) : Except Fault Key := do
  (← step.require name).toKey

def Deed.ofFields (name : Datum) (step : Fields) : Except Fault Deed := do
  match name with
  | .text "append" => return .append (← step.require "gate")
  | .text "append_raw" => return .appendMap (← step.require "gate")
  | .text "extend" => return .extend (← step.require "gates")
  | .text "add" =>
    return .add (← step.require "kind") (← step.require "qubits") (step.get? "params")
  | .text "call" =>
    return .call (← step.require "method") ((step.get? "args").getD (.list []))
  | .text "set_name" => return .rename (← step.require "value")
  | .text "set_meta" => return .annotate (← step.require "path") (step.require "value")
  | .text "copy" | .text "clone" => return .copy
  | .text "inverse" => return .inverse
  | .text "compose" => return .compose (← slotAt step "other")
  | .text "with_gates" => return .withGates (← step.require "gates")
  | .text "optimize" => return .optimize (Optimizer.Choice.ofFields step)
  | .text "equal" => return .same (← slotAt step "other")
  | .text "gates" => return .gates
  | .text "gate_counts" => return .gateCounts
  | .text "layers" => return .layers
  | .text "dict" =>
    return .document (((step.get? "include_metadata").map fun value => !value.isVoid).getD true)
  | _ => throw (.missingKey name.literal)

def creationNames : List String :=
  ["num_qubits", "num_clbits", "gates", "name", "metadata"]

def Action.ofFields (step : Fields) : Except Fault Action := do
  match ← step.require "do" with
  | .text "new" =>
    return .create (.arguments (step.filter fun entry =>
      creationNames.any fun name => entry.1.same (.text name)))
  | .text "from_dict" => return .create (.document (← step.require "data"))
  | name => return .work (Deed.ofFields name step)

/-- The slot to show has to be known for anything to be said about a step. -/
def Step.ofFields (step : Fields) : Except Fault Step := do
  let slot := ((step.get? "c").getD (.text "a")).toKey
  let destination ← (step.get? "to").mapM Datum.toKey
  let shown ← destination.elim slot .ok
  return ⟨slot, destination, shown, Action.ofFields step⟩

/-! ## Performing steps -/

/-- A circuit from named arguments, of which the number of qubits is needed. -/
def createCircuit (arguments : Fields) : Except Fault (Circuit Float) :=
  match arguments.get? "num_qubits" with
  | some numQubits =>
    Circuit.ofParts
      ⟨numQubits, (arguments.get? "num_clbits").getD (.int 0),
        (arguments.get? "gates").getD (.list []), (arguments.get? "name").getD (.text ""),
        (arguments.get? "metadata").getD .null⟩
  | none => .error .wrongArguments

def Origin.circuit : Origin → Except Fault (Circuit Float)
  | .arguments named => createCircuit named
  | .document datum => Circuit.ofDatum datum

def Step.target (step : Step) : Except Fault Key :=
  match step.destination with
  | some slot => .ok slot
  | none => .error (.missingKey (Text.quoted "to"))

def outcome (settings : Settings) (session : Session) (step : Step) : Except Fault Outcome := do
  match ← step.action with
  | .create origin =>
    let circuit ← origin.circuit
    return .store (← step.slot) circuit
  | .work deed =>
    let circuit ← session.get (← step.slot)
    (← deed).outcome settings session (← step.slot) step.target circuit

/-- Performs a step: the session after it, and its answer or what went wrong. -/
def perform (settings : Settings) (session : Session) (step : Step) :
    Session × Except Fault Datum :=
  match session.outcome settings step with
  | .ok (.store slot circuit) => (session.put slot circuit, .ok .null)
  | .ok (.edited slot circuit none answer) => (session.put slot circuit, .ok answer)
  | .ok (.edited slot circuit (some fault) _) => (session.put slot circuit, .error fault)
  | .ok (.answer datum) => (session, .ok datum)
  | .error fault => (session, .error fault)

end Session

end Peephole
