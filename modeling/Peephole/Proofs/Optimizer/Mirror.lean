import Peephole.Proofs.Number.Double
import Peephole.Proofs.Optimizer.Rounds
import Peephole.Proofs.Reduction.Opposites

/-!
# A circuit followed by its inverse

Cancellation alone, repeated as often as there are gates in a circuit, takes the circuit and its
inverse away altogether (`Optimizer.toFixedPoint_mirror`). A round that is not the last drops at
least two gates, so that many rounds end with a settled list (`Pass.settled_settle`). Rounds keep
the action of a list on settled lists, a circuit and its inverse act as nothing, and a settled list
that acts as nothing is empty (`Pass.settle_mirror`).

This needs angles that the tolerance tells apart (`AnglesApart`): otherwise a rotation may go
together with another one that does not quite undo it and leave one behind.
-/

namespace Peephole

variable {α : Type}

namespace Pass

variable [Angle α] {negligible : α → Bool}

theorem applyAll_cancelInverses (negligible : α → Bool) (gates : List (Gate α)) :
    applyAll negligible [.cancelInverses] gates =
      Reduction.cancelInverses (Reduction.gatesCancel negligible) gates :=
  rfl

/-- Every round but the last takes at least one pair. -/
theorem settled_settle (negligible : α → Bool) {limit : Nat} {gates : List (Gate α)}
    (enough : gates.length ≤ 2 * limit) :
    Reduction.Settled (Reduction.gatesCancel negligible)
      (settle negligible [.cancelInverses] limit gates) := by
  induction limit generalizing gates with
  | zero =>
      obtain rfl := List.eq_nil_of_length_eq_zero (Nat.le_zero.mp enough)
      exact Reduction.settled_nil
  | succ limit ih =>
      rw [settle, applyAll_cancelInverses]
      rcases Reduction.cancelInverses_eq_self_or_length_add_two_le gates with same | shorter
      · rw [same, if_pos (Nat.le_refl _)]
        exact Reduction.cancelInverses_eq_self_iff.mp same
      · rw [if_neg (by omega)]
        exact ih (by omega)

/-- Rounds of cancellation keep the action of a list. -/
theorem absorbAll_settle {cancels : Gate α → Gate α → Bool} (pairing : Reduction.Pairing cancels)
    {gates : List (Gate α)}
    (agree : Reduction.AgreeOn (Reduction.gatesCancel negligible) cancels gates) (limit : Nat) :
    Reduction.AgreeOn (Reduction.gatesCancel negligible) cancels
        (settle negligible [.cancelInverses] limit gates) ∧
      Reduction.Akin cancels (Reduction.absorbAll cancels gates [])
        (Reduction.absorbAll cancels (settle negligible [.cancelInverses] limit gates) []) := by
  refine settle_related (fun gates gates' =>
    Reduction.AgreeOn (Reduction.gatesCancel negligible) cancels gates →
      Reduction.AgreeOn (Reduction.gatesCancel negligible) cancels gates' ∧
        Reduction.Akin cancels (Reduction.absorbAll cancels gates [])
          (Reduction.absorbAll cancels gates' [])) ?_ ?_ ?_ limit gates agree
  · exact fun gates agree => ⟨agree, .refl _⟩
  · intro first second third step step' agree
    obtain ⟨agree', akin⟩ := step agree
    obtain ⟨agree'', akin'⟩ := step' agree'
    exact ⟨agree'', akin.trans akin'⟩
  · intro pass member gates agree
    obtain rfl := List.mem_singleton.mp member
    have kept := agree.sublist
      (Reduction.cancelInverses_sublist (Reduction.gatesCancel negligible) gates)
    have acts := Reduction.absorbAll_cancelInverses pairing gates Reduction.settled_nil
    rw [← Reduction.cancelInverses_congr agree] at acts
    exact ⟨kept, acts⟩

/-- Rounds of cancellation take away a list that is followed by its mirror image. -/
theorem settle_mirror {cancels : Gate α → Gate α → Bool} (pairing : Reduction.Pairing cancels)
    {gates : List (Gate α)} {inverse : Gate α → Gate α}
    (agree : Reduction.AgreeOn (Reduction.gatesCancel negligible) cancels
      (gates ++ gates.reverse.map inverse))
    (cancel : ∀ gate ∈ gates, cancels gate (inverse gate) = true) {limit : Nat}
    (enough : gates.length ≤ limit) :
    settle negligible [.cancelInverses] limit (gates ++ gates.reverse.map inverse) = [] := by
  have length : (gates ++ gates.reverse.map inverse).length ≤ 2 * limit := by
    rw [List.length_append, List.length_map, List.length_reverse]
    omega
  obtain ⟨kept, acts⟩ := absorbAll_settle pairing agree limit
  have fixed := Reduction.cancelInverses_eq_self_iff.mpr
    (settled_settle negligible length)
  rw [Reduction.cancelInverses_congr kept, Reduction.cancelInverses_eq_self_iff] at fixed
  have nothing := Reduction.absorbAll_mirror pairing cancel Reduction.settled_nil
  rw [Reduction.absorbAll_of_settled fixed] at acts
  apply List.eq_nil_of_length_eq_zero
  rw [← acts.length_eq, nothing.length_eq]
  rfl

end Pass

/-! ## Angles that a tolerance tells apart -/

/-- Some rotation about the axis is by this angle or by its opposite. -/
def TurnsBy [Neg α] (gates : List (Gate α)) (axis : Axis) (angle : α) : Prop :=
  ∃ gate ∈ gates, ∃ qubit used, gate.operation = .rotation axis qubit used ∧
    (angle = used ∨ angle = -used)

/-- Angles of rotations about one axis, their signs aside, add up to less than the tolerance only if
they are opposite. -/
def AnglesApart (tolerance : Float) (gates : List (Gate Float)) : Prop :=
  ∀ axis angle angle', TurnsBy gates axis angle → TurnsBy gates axis angle' →
    (angle + angle').abs < tolerance → (angle' == -angle) = true

/-- The inverse turns by the same angles, their signs aside. -/
theorem turnsBy_of_mem_mirror [Angle α] {gates : List (Gate α)}
    (invertible : ∀ gate ∈ gates, gate.kind ≠ .fixed .sx ∧ gate.kind ≠ .measure) {gate : Gate α}
    (member : gate ∈ gates ++ gates.reverse.map Gate.inverted) {axis : Axis} {qubit : Int}
    {angle : α} (rotation : gate.operation = .rotation axis qubit angle) :
    TurnsBy gates axis angle := by
  rcases List.mem_append.mp member with inGates | inMirror
  · exact ⟨gate, inGates, qubit, angle, rotation, Or.inl rfl⟩
  · obtain ⟨origin, inReverse, rfl⟩ := List.mem_map.mp inMirror
    have inGates := List.mem_reverse.mp inReverse
    obtain ⟨root, unitary⟩ := invertible origin inGates
    rcases origin.rotation_or_not with ⟨axis', qubit', used, original⟩ | other
    · rw [Gate.operation_inverted_of_rotation original] at rotation
      obtain ⟨rfl, rfl, rfl⟩ := Operation.rotation.inj rotation
      exact ⟨origin, inGates, qubit', used, original, Or.inr rfl⟩
    · have kinds := (Gate.kind_inverted_of_not_rotation other root unitary).1
      rw [Gate.kind, Gate.kind, rotation] at kinds
      have back := GateKind.inverse?_symm kinds
      cases back

theorem isFinite_of_turnsBy {gates : List (Gate Float)}
    (finite : ∀ gate ∈ gates, ∀ angle ∈ gate.params, angle.isFinite = true) {axis : Axis}
    {angle : Float} (turns : TurnsBy gates axis angle) : angle.isFinite = true := by
  obtain ⟨gate, member, qubit, used, rotation, signs⟩ := turns
  have real : used.isFinite = true := by
    refine finite gate member used ?_
    rw [Gate.params, rotation]
    exact .head _
  rcases signs with rfl | rfl
  · exact real
  · exact Double.isFinite_neg real

/-- On a circuit and its inverse, cancelling within such a tolerance is being opposed. -/
theorem agreeOn_mirror {tolerance : Float} (positive : 0 < tolerance) {gates : List (Gate Float)}
    (invertible : ∀ gate ∈ gates, gate.kind ≠ .fixed .sx ∧ gate.kind ≠ .measure)
    (finite : ∀ gate ∈ gates, ∀ angle ∈ gate.params, angle.isFinite = true)
    (apart : AnglesApart tolerance gates) :
    Reduction.AgreeOn (Reduction.gatesCancel (Angle.isBelow tolerance)) Reduction.opposed
      (gates ++ gates.reverse.map Gate.inverted) := by
  intro first inFirst second inSecond
  apply Reduction.gatesCancel_eq_opposed
  intro axis qubit angle angle' rotation rotation'
  have turns := turnsBy_of_mem_mirror invertible inFirst rotation
  have turns' := turnsBy_of_mem_mirror invertible inSecond rotation'
  have below : Angle.isBelow tolerance (angle + angle') = true ↔
      (angle + angle').abs < tolerance := decide_eq_true_iff
  rw [below]
  constructor
  · exact apart axis angle angle' turns turns'
  · intro opposite
    exact Double.abs_add_lt_of_beq_neg (isFinite_of_turnsBy finite turns) opposite positive

namespace Optimizer

/-- A circuit followed by its inverse is cancelled altogether in as many rounds as it has gates. -/
theorem toFixedPoint_mirror {circuit : Circuit Float} (wellFormed : circuit.WellFormed)
    (invertible : ∀ gate ∈ circuit.gates, gate.kind ≠ .fixed .sx ∧ gate.kind ≠ .measure)
    (finite : ∀ gate ∈ circuit.gates, ∀ angle ∈ gate.params, angle.isFinite = true)
    {tolerance : Float} (positive : 0 < tolerance)
    (apart : AnglesApart tolerance circuit.gates) {passes : List Pass}
    (level : Pass.ofLevel? 1 = some passes) {limit : Int}
    (enough : (circuit.gateCount : Int) ≤ limit) :
    ∃ inverse doubled settled, circuit.inverse = .ok inverse ∧
      circuit.compose inverse = .ok doubled ∧
      toFixedPoint ⟨passes, some tolerance⟩ limit doubled = .ok settled ∧
      settled.gates = [] := by
  obtain rfl := Option.some.inj level
  have unitary : ∀ gate ∈ circuit.gates, gate.kind ≠ .measure :=
    fun gate member => (invertible gate member).2
  have inverted := Circuit.inverse_eq wellFormed unitary
  have mirrored := Circuit.wellFormed_of_inverse inverted
  have composed := Circuit.compose_eq wellFormed mirrored rfl
  have doubled := Circuit.wellFormed_of_compose composed
  refine ⟨_, _, _, inverted, composed, toFixedPoint_eq doubled _ tolerance limit, ?_⟩
  have rounds : circuit.gates.length ≤ (max limit 1).toNat := by
    unfold Circuit.gateCount at enough
    omega
  have pairing := Reduction.opposed_pairing (α := Float) Double.beq_neg_comm
  have cancel : ∀ gate ∈ circuit.gates, Reduction.opposed gate gate.inverted = true := by
    intro gate member
    obtain ⟨root, unitary⟩ := invertible gate member
    refine Reduction.opposed_inverted root unitary ?_
    intro angle used
    exact Double.beq_self_of_isFinite (Double.isFinite_neg (finite gate member angle used))
  exact Pass.settle_mirror pairing (agreeOn_mirror positive invertible finite apart) cancel rounds

/-- A rotation, a pair that cancels, and gates on two qubits. -/
def entangled : Circuit Float :=
  (Circuit.empty ⟨2, 0⟩ ⟨.null, []⟩).replaceGates
    [⟨.rotation .x 0 0.5, []⟩, ⟨.fixed .h 1, []⟩, ⟨.fixed .h 1, []⟩,
      ⟨.pair .cz 0 1 (by decide), []⟩, ⟨.fixed .s 0, []⟩]

theorem entangled_angles {axis : Axis} {angle : Float}
    (turns : TurnsBy entangled.gates axis angle) : angle = 0.5 ∨ angle = -0.5 := by
  obtain ⟨gate, member, qubit, used, rotation, signs⟩ := turns
  simp only [entangled, Circuit.gates_replaceGates, List.mem_cons, List.not_mem_nil,
    or_false] at member
  rcases member with rfl | rfl | rfl | rfl | rfl
  · obtain ⟨rfl, rfl, rfl⟩ := Operation.rotation.inj rotation
    exact signs
  all_goals cases rotation

theorem entangled_cancels :
    entangled.WellFormed ∧
      (∀ gate ∈ entangled.gates, gate.kind ≠ .fixed .sx ∧ gate.kind ≠ .measure) ∧
      (∀ gate ∈ entangled.gates, ∀ angle ∈ gate.params, angle.isFinite = true) ∧
      AnglesApart 1e-10 entangled.gates ∧
      ∃ inverse doubled settled, entangled.inverse = .ok inverse ∧
        entangled.compose inverse = .ok doubled ∧
        toFixedPoint ⟨[.cancelInverses], some 1e-10⟩ 5 doubled = .ok settled ∧
        settled.gates = [] := by
  have wellFormed : entangled.WellFormed :=
    Circuit.wellFormed_of_within (by decide) (by decide)
  have apart : AnglesApart 1e-10 entangled.gates := by
    intro axis angle angle' turns turns'
    rcases entangled_angles turns with rfl | rfl
    · rcases entangled_angles turns' with rfl | rfl
      · decide
      · decide
    · rcases entangled_angles turns' with rfl | rfl
      · decide
      · decide
  have invertible : ∀ gate ∈ entangled.gates, gate.kind ≠ .fixed .sx ∧ gate.kind ≠ .measure := by
    decide
  have finite : ∀ gate ∈ entangled.gates, ∀ angle ∈ gate.params, angle.isFinite = true := by
    decide
  exact ⟨wellFormed, invertible, finite, apart,
    toFixedPoint_mirror wellFormed invertible finite (by decide) apart rfl (by decide)⟩

end Optimizer

end Peephole
