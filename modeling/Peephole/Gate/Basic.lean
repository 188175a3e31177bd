import Peephole.Datum.Basic
import Peephole.Fault
import Peephole.Number.Decimal

/-!
Gates. An `Operation` is what a gate does, with exactly the operands that its kind takes; a
`Gate` is an operation with annotations, which travel along and mean nothing. Operations are
over any type of angles: `Angle` names what is done with angles, and doubles are one instance.
-/

namespace Peephole

/-- What gates and passes do with angles. -/
class Angle (α : Type) extends Add α, Neg α, BEq α where
  /-- `isBelow tolerance angle`: whether the magnitude of the angle is below the tolerance. -/
  isBelow : α → α → Bool
  quarterTurn : α
  text : α → String

/-- Doubles in radians, shown to six digits. -/
instance : Angle Float where
  isBelow tolerance angle := angle.abs < tolerance
  quarterTurn := 1.5707963267948966
  text := Decimal.sixDigits

inductive Operation (α : Type) where
  | fixed (kind : FixedKind) (qubit : Int)
  | rotation (axis : Axis) (qubit : Int) (angle : α)
  | pair (kind : PairKind) (first second : Int) (distinct : first ≠ second)
  | measure (qubit clbit : Int)

structure Gate (α : Type) where
  operation : Operation α
  annotations : Fields

/-! ## Operands -/

namespace Operation

variable {α : Type}

def kind : Operation α → GateKind
  | .fixed kind _ => .fixed kind
  | .rotation axis _ _ => .rotation axis
  | .pair kind _ _ _ => .pair kind
  | .measure _ _ => .measure

def qubits : Operation α → List Int
  | .fixed _ qubit => [qubit]
  | .rotation _ qubit _ => [qubit]
  | .pair _ first second _ => [first, second]
  | .measure qubit _ => [qubit]

def params : Operation α → List α
  | .rotation _ _ angle => [angle]
  | .fixed _ _ | .pair _ _ _ _ | .measure _ _ => []

def clbits : Operation α → List Int
  | .measure _ clbit => [clbit]
  | .fixed _ _ | .rotation _ _ _ | .pair _ _ _ _ => []

@[simp]
theorem length_qubits (op : Operation α) : op.qubits.length = op.kind.numQubits := by
  cases op <;> rfl

@[simp]
theorem length_params (op : Operation α) : op.params.length = op.kind.numParams := by
  cases op <;> rfl

@[simp]
theorem length_clbits (op : Operation α) : op.clbits.length = op.kind.numClbits := by
  cases op <;> rfl

theorem nodup_qubits (op : Operation α) : op.qubits.Nodup := by
  cases op <;> simp_all [qubits]

/-- Which part of the operands does not fit a kind: the qubits are counted first, then the
parameters, then the classical bits. -/
def arityFault (kind : GateKind) (qubits params clbits : Nat) : Fault :=
  if qubits ≠ kind.numQubits then .arity kind .qubits kind.numQubits qubits
  else if params ≠ kind.numParams then .arity kind .params kind.numParams params
  else .arity kind .clbits kind.numClbits clbits

/-- The operation of a kind on the given operands, if they are as many as the kind takes and
the qubits are distinct. -/
def ofOperands (kind : GateKind) (qubits : List Int) (params : List α) (clbits : List Int) :
    Except Fault (Operation α) :=
  match kind, qubits, params, clbits with
  | .fixed kind, [qubit], [], [] => .ok (.fixed kind qubit)
  | .rotation axis, [qubit], [angle], [] => .ok (.rotation axis qubit angle)
  | .pair kind, [first, second], [], [] =>
    if distinct : first = second then .error (.arity (.pair kind) .distinctQubits 2 1)
    else .ok (.pair kind first second distinct)
  | .measure, [qubit], [], [clbit] => .ok (.measure qubit clbit)
  | kind, qubits, params, clbits =>
    .error (arityFault kind qubits.length params.length clbits.length)

theorem ofOperands_operands (op : Operation α) :
    ofOperands op.kind op.qubits op.params op.clbits = .ok op := by
  cases op <;> simp_all [ofOperands, kind, qubits, params, clbits]

/-! ## Comparison -/

/-- Equality, with angles compared as numbers. -/
def same [BEq α] : Operation α → Operation α → Bool
  | .fixed left q, .fixed right r => left == right && q == r
  | .rotation left q angle, .rotation right r other => left == right && q == r && angle == other
  | .pair left a b _, .pair right c d _ => left == right && a == c && b == d
  | .measure q c, .measure r d => q == r && c == d
  | _, _ => false

/-- Whether two operations act on a common qubit. -/
def overlaps (left right : Operation α) : Bool :=
  left.qubits.any right.qubits.contains

/-- The qubits in the order that counts for the kind: sorted if the kind is symmetric. -/
def operandKey : Operation α → List Int
  | .pair kind first second _ =>
    if kind.isSymmetric then [min first second, max first second] else [first, second]
  | other => other.qubits

/-! ## Inverse -/

/-- The operation that undoes this one. The square root of X is undone by a rotation, up to a
phase of the whole state; a measurement cannot be undone. -/
def inverse? [Angle α] : Operation α → Option (Operation α)
  | .fixed kind qubit =>
    match kind.inverse? with
    | some inverse => some (.fixed inverse qubit)
    | none => some (.rotation .x qubit (-Angle.quarterTurn))
  | .rotation axis qubit angle => some (.rotation axis qubit (-angle))
  | .pair kind first second distinct => some (.pair kind first second distinct)
  | .measure _ _ => none

theorem inverse?_eq_none_iff [Angle α] {op : Operation α} :
    op.inverse? = none ↔ op.kind = .measure := by
  cases op with
  | fixed kind _ => cases kind <;> simp [inverse?, FixedKind.inverse?, Operation.kind]
  | rotation | pair | measure => simp [inverse?, Operation.kind]

/-! ## Text -/

def indexList (indices : List Int) : String :=
  ", ".intercalate (indices.map toString)

def text [Angle α] (op : Operation α) : String :=
  let name := op.kind.name
  let operands := " [" ++ indexList op.qubits ++ "]"
  match op with
  | .rotation _ _ angle => name ++ "(" ++ Angle.text angle ++ ")" ++ operands
  | .measure _ clbit => name ++ operands ++ " -> c[" ++ toString clbit ++ "]"
  | .fixed _ _ | .pair _ _ _ _ => name ++ operands

end Operation

namespace Gate

variable {α : Type}

abbrev kind (gate : Gate α) : GateKind := gate.operation.kind

abbrev qubits (gate : Gate α) : List Int := gate.operation.qubits

abbrev params (gate : Gate α) : List α := gate.operation.params

abbrev clbits (gate : Gate α) : List Int := gate.operation.clbits

def isTwoQubit (gate : Gate α) : Bool :=
  gate.kind.isTwoQubit

/-- Equality of what two gates do; annotations are ignored. -/
def same [BEq α] (left right : Gate α) : Bool :=
  left.operation.same right.operation

def overlaps (left right : Gate α) : Bool :=
  left.operation.overlaps right.operation

def text [Angle α] (gate : Gate α) : String :=
  gate.operation.text

/-- The angle of a rotation. -/
def angle (gate : Gate α) : Except Fault α :=
  match gate.operation with
  | .rotation _ _ angle => .ok angle
  | _ => .error (.noAngle gate.kind)

/-- The gate that undoes this one, with the same annotations. -/
def inverse [Angle α] (gate : Gate α) : Except Fault (Gate α) :=
  match gate.operation.inverse? with
  | some operation => .ok ⟨operation, gate.annotations⟩
  | none => .error (.noInverse gate.kind)

end Gate

end Peephole
