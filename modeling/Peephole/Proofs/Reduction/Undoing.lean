import Peephole.Proofs.Gate.Inverse
import Peephole.Proofs.Number.Double
import Peephole.Reduction.Pass

/-!
# Gates that undo each other

Whether two gates cancel is asked of the first one: a rotation wants a rotation like it, any other
gate wants its inverse kind, and each gate puts its operands into the order that counts for its own
kind. The answer is the same when the second gate is asked (`cancelWithin_comm`), since inverse
kinds are inverse to each other and sums of angles do not depend on their order. It fits the
inverses that gates have: a gate and its inverse cancel within every tolerance above zero
(`gatesCancel_inverted`), and what cancels a gate that is no rotation has the kind of its inverse
and the same operands (`gatesCancel_iff_onSameOperands`).
-/

namespace Peephole

variable {α : Type}

/-! ## The same operands -/

/-- The square root of X is no inverse of another kind. -/
theorem GateKind.inverse?_ne_sx (kind : GateKind) : kind.inverse? ≠ some (.fixed .sx) :=
  fun inverse => nomatch GateKind.inverse?_symm inverse

theorem Operation.operandKey_of_not_symmetric {operation : Operation α}
    (ordered : operation.kind.isSymmetric = false) : operation.operandKey = operation.qubits := by
  cases operation with
  | fixed | rotation | measure => rfl
  | pair kind first second distinct => exact if_neg (Bool.eq_false_iff.mp ordered)

theorem Operation.operandKey_of_symmetric {operation : Operation α}
    (symmetric : operation.kind.isSymmetric = true) :
    ∃ first second, first ≠ second ∧ operation.qubits = [first, second] ∧
      operation.operandKey = [min first second, max first second] := by
  cases operation with
  | fixed | rotation | measure => cases symmetric
  | pair kind first second distinct => exact ⟨first, second, distinct, rfl, if_pos symmetric⟩

/-- Pairs of different indices are the same up to order if they have the same least and the same
greatest index. -/
theorem perm_pair_iff {first second first' second' : Int} (distinct : first ≠ second) :
    [first, second].Perm [first', second'] ↔
      min first second = min first' second' ∧ max first second = max first' second' := by
  constructor
  · intro perm
    have inPair : first ∈ [first', second'] := perm.subset (.head _)
    have inPair' : second ∈ [first', second'] := perm.subset (.tail _ (.head _))
    simp only [List.mem_cons, List.not_mem_nil, or_false] at inPair inPair'
    omega
  · rintro ⟨least, greatest⟩
    obtain ⟨rfl, rfl⟩ | ⟨rfl, rfl⟩ :
        first = first' ∧ second = second' ∨ first = second' ∧ second = first' := by
      omega
    · exact .refl _
    · exact .swap _ _ _

namespace Gate

/-- Two gates have the same operands, in whatever order if order does not count for the kind. -/
def OnSameOperands (left right : Gate α) : Prop :=
  if left.kind.isSymmetric then left.qubits.Perm right.qubits else left.qubits = right.qubits

theorem operandKey_eq_iff {left right : Gate α}
    (alike : right.kind.isSymmetric = left.kind.isSymmetric) :
    left.operation.operandKey = right.operation.operandKey ↔ left.OnSameOperands right := by
  unfold OnSameOperands
  cases symmetric : left.kind.isSymmetric with
  | false =>
      rw [Operation.operandKey_of_not_symmetric symmetric,
        Operation.operandKey_of_not_symmetric (alike.trans symmetric)]
      exact (iff_of_eq (if_neg Bool.false_ne_true)).symm
  | true =>
      obtain ⟨first, second, distinct, pair, key⟩ := Operation.operandKey_of_symmetric symmetric
      obtain ⟨first', second', -, pair', key'⟩ :=
        Operation.operandKey_of_symmetric (alike.trans symmetric)
      rw [key, key', if_pos rfl, Gate.qubits, Gate.qubits, pair, pair', perm_pair_iff distinct]
      simp only [List.cons.injEq, and_true]

end Gate

namespace Reduction

/-! ## Either gate may be asked -/

section Symmetric

variable [Add α] (add_comm : ∀ x y : α, x + y = y + x) {negligible : α → Bool}
  {first second : Gate α}

include add_comm

theorem gatesCancel_symm (cancels : gatesCancel negligible first second = true) :
    gatesCancel negligible second first = true := by
  rcases first.rotation_or_not with ⟨axis, qubit, angle, rotation⟩ | other
  · obtain ⟨angle', rotation', small⟩ := (gatesCancel_rotation_iff rotation).mp cancels
    rw [add_comm] at small
    exact (gatesCancel_rotation_iff rotation').mpr ⟨angle, rotation, small⟩
  · obtain ⟨kinds, keys⟩ := (gatesCancel_iff_of_not_rotation other).mp cancels
    have other' := GateKind.isRotation_of_inverse?_eq_some kinds
    exact (gatesCancel_iff_of_not_rotation other').mpr ⟨GateKind.inverse?_symm kinds, keys.symm⟩

theorem gatesCancel_comm :
    gatesCancel negligible first second = gatesCancel negligible second first := by
  rw [Bool.eq_iff_iff]
  exact ⟨gatesCancel_symm add_comm, gatesCancel_symm add_comm⟩

end Symmetric

theorem sameRotation_comm (first second : Operation α) :
    sameRotation first second = sameRotation second first := by
  cases first with
  | rotation axis qubit angle =>
      cases second with
      | rotation axis' qubit' angle' =>
          simp only [sameRotation]
          rw [Bool.beq_comm (a := axis'), Bool.beq_comm (a := qubit')]
      | fixed | pair | measure => rfl
  | fixed | pair | measure => cases second <;> rfl

/-! ## Measurements and square roots of X -/

/-- Neither a measurement nor a square root of X, which no gate undoes by its kind alone. -/
def Undoable (gate : Gate α) : Prop :=
  gate.kind ≠ .measure ∧ gate.kind ≠ .fixed .sx

theorem undoable_of_gatesCancel [Add α] {negligible : α → Bool} {first second : Gate α}
    (cancels : gatesCancel negligible first second = true) :
    Undoable first ∧ Undoable second := by
  refine ⟨⟨kind_ne_measure_of_gatesCancel cancels, fun root => ?_⟩,
    kind_ne_measure_of_gatesCancel_right cancels, fun root => ?_⟩
  · have other : first.kind.isRotation = false := by rw [root]; rfl
    have kinds := ((gatesCancel_iff_of_not_rotation other).mp cancels).1
    rw [root] at kinds
    cases kinds
  · rcases first.rotation_or_not with ⟨axis, qubit, angle, rotation⟩ | other
    · obtain ⟨angle', rotation', -⟩ := (gatesCancel_rotation_iff rotation).mp cancels
      rw [Gate.kind, rotation'] at root
      cases root
    · have kinds := ((gatesCancel_iff_of_not_rotation other).mp cancels).1
      rw [root] at kinds
      exact GateKind.inverse?_ne_sx _ kinds

/-! ## Gates and their inverses -/

/-- What cancels a gate that is no rotation is of the kind of its inverse and has the same
operands. -/
theorem gatesCancel_iff_onSameOperands [Angle α] {negligible : α → Bool} {gate other : Gate α}
    (undoable : Undoable gate) (plain : gate.kind.isRotation = false) :
    gatesCancel negligible gate other = true ↔
      other.kind = gate.inverted.kind ∧ gate.inverted.OnSameOperands other := by
  obtain ⟨kinds, keys⟩ := Gate.kind_inverted_of_not_rotation plain undoable.2 undoable.1
  rw [gatesCancel_iff_of_not_rotation plain, kinds, keys, Option.some_inj, eq_comm]
  refine and_congr_right fun same => Gate.operandKey_eq_iff ?_
  rw [same]

/-- A gate and its inverse cancel, whatever the tolerance. -/
theorem gatesCancel_inverted {gate : Gate Float} (undoable : Undoable gate)
    (finite : ∀ angle ∈ gate.params, angle.isFinite = true) {bound : Float} (positive : 0 < bound) :
    gatesCancel (Angle.isBelow bound) gate gate.inverted = true := by
  rcases gate.rotation_or_not with ⟨axis, qubit, angle, rotation⟩ | plain
  · have used : angle ∈ gate.params := by
      rw [Gate.params, rotation]
      exact .head _
    have opposite := Double.beq_self_of_isFinite (Double.isFinite_neg (finite angle used))
    exact (gatesCancel_rotation_iff rotation).mpr ⟨-angle,
      Gate.operation_inverted_of_rotation rotation,
      decide_eq_true (Double.abs_add_lt_of_beq_neg (finite angle used) opposite positive)⟩
  · exact (gatesCancel_iff_of_not_rotation plain).mpr
      (Gate.kind_inverted_of_not_rotation plain undoable.2 undoable.1)

end Reduction

namespace Pass

open Reduction

/-- It does not matter which of two gates comes first, not even for what is said of a tolerance that
is no magnitude. -/
theorem cancelWithin_comm (tolerance : Option Float) (first second : Gate Float) :
    cancelWithin tolerance first second = cancelWithin tolerance second first := by
  cases tolerance with
  | some bound => exact congrArg Except.ok (gatesCancel_comm Double.add_comm)
  | none =>
      have same : gatesCancel (fun _ => false) first second =
          gatesCancel (fun _ => false) second first :=
        gatesCancel_comm Double.add_comm
      rw [cancelWithin, cancelWithin, sameRotation_comm, same]

theorem gatesCancel_of_cancelWithin {tolerance : Option Float} {first second : Gate Float}
    (cancels : cancelWithin tolerance first second = .ok true) :
    ∃ negligible, gatesCancel negligible first second = true := by
  cases tolerance with
  | some bound => exact ⟨_, Except.ok.inj cancels⟩
  | none =>
      unfold cancelWithin at cancels
      dsimp only at cancels
      split at cancels
      · cases cancels
      · exact ⟨_, Except.ok.inj cancels⟩

/-- Of other gates than rotations no angle is tested, so every tolerance will do. -/
theorem cancelWithin_of_not_rotation (tolerance : Option Float) {first : Gate Float}
    (plain : first.kind.isRotation = false) (second : Gate Float) :
    ∃ negligible,
      cancelWithin tolerance first second = .ok (gatesCancel negligible first second) := by
  cases tolerance with
  | some bound => exact ⟨_, rfl⟩
  | none =>
      have differ : sameRotation first.operation second.operation = false := by
        obtain ⟨operation, _⟩ := first
        cases operation with
        | rotation => cases plain
        | fixed | pair | measure => rfl
      exact ⟨fun _ => false, if_neg (Bool.eq_false_iff.mp differ)⟩

/-- Cancelling is symmetric, also in what it says of a tolerance that is no magnitude, and only
gates on the same qubits that are neither measurements nor square roots of X cancel. These have an
inverse whose inverse they are themselves; if their angle is finite they cancel with it within every
tolerance above zero, and if they are no rotations they cancel just what has the kind and the
operands of the inverse, in either order if order does not count. -/
theorem cancelling_fits_inverses (gate other : Gate Float) (tolerance : Option Float) :
    cancelWithin tolerance gate other = cancelWithin tolerance other gate ∧
    (cancelWithin tolerance gate other = .ok true →
      gate.SameQubits other ∧ Undoable gate ∧ Undoable other) ∧
    (Undoable gate → ∃ inverse, gate.inverse = .ok inverse ∧
      ((∀ angle ∈ gate.params, angle.isFinite = true) →
        ∀ bound : Float, 0 < bound → cancelWithin (some bound) gate inverse = .ok true) ∧
      (gate.kind.isRotation = false →
        (cancelWithin tolerance gate other = .ok true ↔
          other.kind = inverse.kind ∧ inverse.OnSameOperands other)) ∧
      ∃ back, inverse.inverse = .ok back ∧ back = gate ∧
        ((∀ angle ∈ gate.params, (angle == angle) = true) → back.same gate = true)) := by
  refine ⟨cancelWithin_comm tolerance gate other, fun cancels => ?_, fun undoable => ?_⟩
  · obtain ⟨negligible, cancels⟩ := gatesCancel_of_cancelWithin cancels
    exact ⟨gatesCancel_onSameQubits negligible cancels, undoable_of_gatesCancel cancels⟩
  · refine ⟨gate.inverted, Gate.inverse_eq undoable.1, ?_, fun plain => ?_, gate, ?_, rfl,
      Gate.same_self⟩
    · intro finite bound positive
      exact congrArg Except.ok (gatesCancel_inverted undoable finite positive)
    · obtain ⟨negligible, same⟩ := cancelWithin_of_not_rotation tolerance plain other
      rw [same, Except.ok.injEq]
      exact gatesCancel_iff_onSameOperands undoable plain
    · rw [Gate.inverse_eq (Gate.kind_inverted_ne_measure undoable.1),
        Gate.inverted_inverted Double.neg_neg undoable.2]

/-- A controlled Z undoes itself turned round, a controlled X does not, and a turn is undone by the
turn back. -/
theorem turned_round_undoes_symmetric :
    let straight (kind : PairKind) : Gate Float := ⟨.pair kind 0 1 (by decide), []⟩
    let crossed (kind : PairKind) : Gate Float := ⟨.pair kind 1 0 (by decide), []⟩
    let turn (angle : Float) : Gate Float := ⟨.rotation .y 2 angle, []⟩
    cancelWithin none (straight .cz) (crossed .cz) = .ok true ∧
      (straight .cz).SameQubits (crossed .cz) ∧
      ¬ cancelWithin none (straight .cx) (crossed .cx) = .ok true ∧
      cancelWithin (some 1e-10) (turn 0.5) (turn (-0.5)) = .ok true := by
  intro straight crossed turn
  obtain ⟨-, sameQubits, inverses⟩ := cancelling_fits_inverses (straight .cz) (crossed .cz) none
  obtain ⟨inverse, made, -, alike, -⟩ := inverses ⟨nofun, nofun⟩
  obtain rfl : straight .cz = inverse := Except.ok.inj made
  have cancels := (alike rfl).mpr ⟨rfl, List.Perm.swap _ _ _⟩
  obtain ⟨-, -, inverses'⟩ := cancelling_fits_inverses (straight .cx) (crossed .cx) none
  obtain ⟨inverse', made', -, alike', -⟩ := inverses' ⟨nofun, nofun⟩
  obtain rfl : straight .cx = inverse' := Except.ok.inj made'
  obtain ⟨-, -, turns⟩ := cancelling_fits_inverses (turn 0.5) (turn 0.5) none
  obtain ⟨back, made'', undone, -, -⟩ := turns ⟨nofun, nofun⟩
  obtain rfl : turn (-0.5) = back := Except.ok.inj made''
  refine ⟨cancels, (sameQubits cancels).1, fun crosses => ?_, undone ?_ 1e-10 (by decide)⟩
  · have operands : (straight .cx).qubits = (crossed .cx).qubits := ((alike' rfl).mp crosses).2
    exact absurd operands (by decide)
  · intro angle used
    obtain rfl := List.mem_singleton.mp used
    decide

end Pass

end Peephole
