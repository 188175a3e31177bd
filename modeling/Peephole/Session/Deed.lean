import Peephole.Datum.Path
import Peephole.Optimizer.Selection
import Peephole.Schedule.Document
import Peephole.Analysis.Document
import Peephole.Session.Basic
import Peephole.Session.Method

/-!
What can be done with a circuit of a session, and what it comes to. An edit that fails keeps
what it did before the failure; anything else that fails changes nothing. Where a derived
circuit goes is looked at last.
-/

namespace Peephole

namespace Session

/-- What is done with the circuit in a slot. -/
inductive Deed where
  -- edits
  | append (specification : Datum)
  | appendMap (gate : Datum)
  | extend (gates : Datum)
  | add (kind qubits : Datum) (params : Option Datum)
  | call (method arguments : Datum)
  | rename (name : Datum)
  | annotate (path : Datum) (value : Except Fault Datum)
  -- derivations of other circuits
  | copy
  | inverse
  | compose (other : Key)
  | withGates (specifications : Datum)
  | optimize (choice : Optimizer.Choice)
  -- questions
  | same (other : Key)
  | gates
  | gateCounts
  | layers
  | document (withLabels : Bool)

/-- What a step comes to: a new circuit for a slot, an edited one with what went wrong, or an
answer. -/
inductive Outcome where
  | store (slot : Key) (circuit : Circuit Float)
  | edited (slot : Key) (circuit : Circuit Float) (fault : Option Fault) (answer : Datum)
  | answer (datum : Datum)

/-- The outcome of an edit that answers that it was carried out. -/
def edit (slot : Key) (change : Circuit Float × Option Fault) : Outcome :=
  .edited slot change.1 change.2 (.bool true)

/-- The items of a path, which has an order. -/
def pathItems : Datum → Except Fault (List Datum)
  | .list path => .ok path
  | .text path => (Datum.text path).elements
  | _ => .error .wrongArguments

/-- The last item of a path. -/
def lastPlace (path : Datum) (items : List Datum) : Except Fault Datum :=
  match items.getLast?, path with
  | some last, _ => .ok last
  | none, .text _ => .error .missingCharacter
  | none, _ => .error .missingItem

/-- The circuit with a value among its annotations. The way to it is walked before the value is
asked for. -/
def withNote (circuit : Circuit Float) (path : Datum) (value : Except Fault Datum) :
    Except Fault (Circuit Float) := do
  let annotations : Datum := .map circuit.labels.annotations
  let items ← pathItems path
  let _ ← annotations.reach items.dropLast
  let value ← value
  match ← annotations.assign items.dropLast (← lastPlace path items) value with
  | .map fields => return { circuit with labels.annotations := fields }
  | _ => throw .notAMapping

/-- The outcome of a call by name. -/
def callNamed (slot : Key) (circuit : Circuit Float) (method arguments : Datum) :
    Except Fault Outcome := do
  match method with
  | .text name =>
    match Method.ofName? name with
    | some method =>
      let ((changed, fault), isItself) := circuit.call method (← arguments.elements)
      return .edited slot changed fault (.bool isItself)
    | none => throw .unknownOperation
  | _ => throw .notText

/-- What a deed on the circuit in a slot comes to. -/
def Deed.outcome (settings : Settings) (session : Session) (slot : Key)
    (destination : Except Fault Key) (circuit : Circuit Float) (deed : Deed) :
    Except Fault Outcome := do
  let store (derived : Circuit Float) : Except Fault Outcome := do
    return .store (← destination) derived
  match deed with
  | .append specification => return edit slot (circuit.extend [Gate.ofSpecification specification])
  | .appendMap gate => return edit slot (circuit.extend [Gate.ofDatum gate])
  | .extend maps => return edit slot (circuit.extendFrom maps)
  | .add kind qubits params => return edit slot (circuit.add kind qubits params)
  | .call method arguments => callNamed slot circuit method arguments
  | .rename name => return .edited slot { circuit with labels.name := name } none .null
  | .annotate path value => return .edited slot (← withNote circuit path value) none .null
  | .copy => store (← circuit.copy)
  | .inverse => store (← circuit.inverse)
  | .compose other => store (← circuit.compose (← session.get other))
  | .withGates specifications =>
    let replacements ← (← specifications.elements).mapM Gate.ofSpecification
    store (← circuit.withGates replacements)
  | .optimize choice => store (← (← choice.optimizer settings).optimize circuit)
  | .same other => return .answer (.bool (circuit.same (← session.get other)))
  | .gates => return .answer (.list (circuit.gates.map fun gate => .text gate.text))
  | .gateCounts => return .answer (kindCountsDatum circuit.gateCounts)
  | .layers => return .answer (layersDatum circuit.gates)
  | .document withLabels => return .answer (circuit.toDatum withLabels)

end Session

end Peephole
