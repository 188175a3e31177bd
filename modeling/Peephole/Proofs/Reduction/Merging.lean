import Peephole.Proofs.Gate.Interleaving
import Peephole.Proofs.Gate.Thinning
import Peephole.Reduction.Merging

/-!
# Merging runs of rotations

A pass looks at the first gate that is left, makes of its run what it should become, and goes on
with the gates outside the run: `mergeRun` is that one step, for rotations and all other gates
alike (`mergeRotations_cons`). A step changes no gate that shares no qubit with the one it is about
(`mergeRotations_cons_of_apart`), and the steps of two gates without a common qubit can be taken in
either order (`mergeRun_of_apart`). Hence a pass over two interleavings of a circuit forms the same
sums and leaves two interleavings of one circuit (`mergeRotations_interleaved`).

A pass that shortens nothing changes nothing (`mergeRotations_eq_self_or_length_lt`).
-/

namespace Peephole

namespace Reduction

variable {α : Type}

/-! ## Taking a run out of a list -/

variable {axis : Axis} {qubit : Int}

/-- A gate is off the qubit of a run, belongs to the run, or ends it. -/
theorem run_cases (axis : Axis) (qubit : Int) (gate : Gate α) :
    gate.qubits.contains qubit = false ∨
      (∃ angle, gate.operation = .rotation axis qubit angle) ∨
      (gate.qubits.contains qubit = true ∧
        ∀ angle, gate.operation ≠ .rotation axis qubit angle) := by
  cases meets : gate.qubits.contains qubit with
  | false => exact Or.inl rfl
  | true =>
      by_cases member : ∃ angle, gate.operation = .rotation axis qubit angle
      · exact Or.inr (Or.inl member)
      · exact Or.inr (Or.inr ⟨rfl, fun angle shape => member ⟨angle, shape⟩⟩)

theorem contains_eq_false_of_rotation {gate : Gate α} {axis' : Axis} {qubit' : Int} {angle : α}
    (rotation : gate.operation = .rotation axis' qubit' angle) (differ : qubit ≠ qubit') :
    gate.qubits.contains qubit = false := by
  simpa [Gate.qubits, rotation, Operation.qubits] using differ

section Runs

variable [Add α]

theorem takeRun_cons_of_clear {gate : Gate α} (total : α) (rest : List (Gate α))
    (clear : gate.qubits.contains qubit = false) :
    takeRun axis qubit total (gate :: rest) =
      ((takeRun axis qubit total rest).1, gate :: (takeRun axis qubit total rest).2) := by
  simp only [takeRun, clear, Bool.false_eq_true, if_false]

theorem takeRun_cons_of_member {gate : Gate α} {angle : α} (total : α) (rest : List (Gate α))
    (member : gate.operation = .rotation axis qubit angle) :
    takeRun axis qubit total (gate :: rest) = takeRun axis qubit (total + angle) rest := by
  have meets : gate.qubits.contains qubit = true := by
    simp [Gate.qubits, member, Operation.qubits]
  simp only [takeRun, meets, if_true, member]

theorem takeRun_cons_of_stop {gate : Gate α} (total : α) (rest : List (Gate α))
    (meets : gate.qubits.contains qubit = true)
    (other : ∀ angle, gate.operation ≠ .rotation axis qubit angle) :
    takeRun axis qubit total (gate :: rest) = (total, gate :: rest) := by
  simp only [takeRun, meets, if_true]
  cases shape : gate.operation with
  | rotation axis' qubit' angle =>
      have same : qubit = qubit' := by
        simpa [Gate.qubits, shape, Operation.qubits] using meets
      subst same
      have differ : axis' ≠ axis := by
        rintro rfl
        exact other angle shape
      simp only [differ, if_false]
  | fixed | pair | measure => rfl

theorem takeRun_sublist (axis : Axis) (qubit : Int) (total : α) (gates : List (Gate α)) :
    (takeRun axis qubit total gates).2.Sublist gates := by
  induction gates generalizing total with
  | nil => simp [takeRun]
  | cons gate rest ih =>
      rcases run_cases axis qubit gate with clear | ⟨angle, member⟩ | ⟨meets, other⟩
      · rw [takeRun_cons_of_clear total rest clear]
        exact (ih total).cons_cons gate
      · rw [takeRun_cons_of_member total rest member]
        exact (ih _).cons gate
      · simp [takeRun_cons_of_stop total rest meets other]

/-- A run without members is empty. -/
theorem takeRun_of_length_eq {total : α} {gates : List (Gate α)}
    (same : (takeRun axis qubit total gates).2.length = gates.length) :
    takeRun axis qubit total gates = (total, gates) := by
  induction gates with
  | nil => rfl
  | cons gate rest ih =>
      rcases run_cases axis qubit gate with clear | ⟨angle, member⟩ | ⟨meets, other⟩
      · rw [takeRun_cons_of_clear total rest clear] at same ⊢
        rw [ih (by simpa using same)]
      · have bound := (takeRun_sublist axis qubit (total + angle) rest).length_le
        rw [takeRun_cons_of_member total rest member, List.length_cons] at same
        omega
      · exact takeRun_cons_of_stop total rest meets other

/-- A run is over if another gate on its qubit stands in front of what could belong to it. -/
theorem takeRun_eq_self (total : α) {gates : List (Gate α)}
    (ended : ∀ between second after angle, gates = between ++ second :: after →
      second.operation = .rotation axis qubit angle → ∃ gate ∈ between, qubit ∈ gate.qubits) :
    takeRun axis qubit total gates = (total, gates) := by
  induction gates with
  | nil => rfl
  | cons gate rest ih =>
      rcases run_cases axis qubit gate with clear | ⟨angle, member⟩ | ⟨meets, other⟩
      · have outside : qubit ∉ gate.qubits := by simpa using clear
        have endedRest : takeRun axis qubit total rest = (total, rest) := by
          refine ih fun between second after angle split rotation => ?_
          obtain ⟨ending, inside, on⟩ :=
            ended (gate :: between) second after angle (by rw [split]; rfl) rotation
          rcases List.mem_cons.mp inside with rfl | inside
          · exact absurd on outside
          · exact ⟨ending, inside, on⟩
        rw [takeRun_cons_of_clear total rest clear, endedRest]
      · obtain ⟨ending, inside, -⟩ := ended [] gate rest angle rfl member
        exact absurd inside List.not_mem_nil
      · exact takeRun_cons_of_stop total rest meets other

/-- A run that has no members although a gate that could belong to it follows was ended before. -/
theorem exists_mem_qubits_of_takeRun_length_eq {total angle : α} {between after : List (Gate α)}
    {second : Gate α} (rotation : second.operation = .rotation axis qubit angle)
    (same : (takeRun axis qubit total (between ++ second :: after)).2.length =
      (between ++ second :: after).length) :
    ∃ gate ∈ between, qubit ∈ gate.qubits := by
  induction between with
  | nil =>
      have bound := (takeRun_sublist axis qubit (total + angle) after).length_le
      rw [List.nil_append, takeRun_cons_of_member total after rotation, List.length_cons] at same
      omega
  | cons gate between ih =>
      cases meets : gate.qubits.contains qubit with
      | true => exact ⟨gate, .head _, by simpa using meets⟩
      | false =>
          rw [List.cons_append, takeRun_cons_of_clear total _ meets] at same
          obtain ⟨other, member, inOther⟩ := ih (by simpa using same)
          exact ⟨other, List.mem_cons_of_mem gate member, inOther⟩

theorem takeRun_here (axis : Axis) (total : α) {left right : Gate α} (after : List (Gate α))
    (clear : left.qubits.contains qubit = false) (apart : left.overlaps right = false) :
    (takeRun axis qubit total (left :: right :: after)).1 =
        (takeRun axis qubit total (right :: left :: after)).1 ∧
      Interleaved (takeRun axis qubit total (left :: right :: after)).2
        (takeRun axis qubit total (right :: left :: after)).2 := by
  rw [takeRun_cons_of_clear total _ clear]
  rcases run_cases axis qubit right with clear' | ⟨angle, member⟩ | ⟨meets, other⟩
  · rw [takeRun_cons_of_clear total _ clear', takeRun_cons_of_clear total _ clear',
      takeRun_cons_of_clear total _ clear]
    exact ⟨rfl, .single (.here _ apart)⟩
  · rw [takeRun_cons_of_member total _ member, takeRun_cons_of_member total _ member,
      takeRun_cons_of_clear _ _ clear]
    exact ⟨rfl, .refl _⟩
  · rw [takeRun_cons_of_stop total _ meets other, takeRun_cons_of_stop total _ meets other]
    exact ⟨rfl, .single (.here _ apart)⟩

/-- Exchanging neighbours without a common qubit changes neither the sum of a run nor, but for
their order, the gates outside it. -/
theorem takeRun_exchanged (axis : Axis) (qubit : Int) (total : α) {gates gates' : List (Gate α)}
    (exchanged : Exchanged gates gates') :
    (takeRun axis qubit total gates).1 = (takeRun axis qubit total gates').1 ∧
      Interleaved (takeRun axis qubit total gates).2 (takeRun axis qubit total gates').2 := by
  induction exchanged generalizing total with
  | @here left right after apart =>
      cases clear : left.qubits.contains qubit with
      | false => exact takeRun_here axis total after clear apart
      | true =>
          -- at most one of the two acts on the qubit of the run
          have clear' : right.qubits.contains qubit = false := by
            simpa using Gate.overlaps_eq_false_iff.mp apart qubit (by simpa using clear)
          have apart' : right.overlaps left = false := by rw [Gate.overlaps_comm, apart]
          obtain ⟨sums, rests⟩ := takeRun_here axis total after clear' apart'
          exact ⟨sums.symm, rests.symm⟩
  | @later gate gates gates' exchanged ih =>
      rcases run_cases axis qubit gate with clear | ⟨angle, member⟩ | ⟨meets, other⟩
      · rw [takeRun_cons_of_clear total _ clear, takeRun_cons_of_clear total _ clear]
        exact ⟨(ih total).1, (ih total).2.cons gate⟩
      · rw [takeRun_cons_of_member total _ member, takeRun_cons_of_member total _ member]
        exact ih _
      · rw [takeRun_cons_of_stop total _ meets other, takeRun_cons_of_stop total _ meets other]
        exact ⟨rfl, .single (exchanged.later gate)⟩

/-- Runs on two qubits are taken out independently of each other. -/
theorem takeRun_takeRun {axis' : Axis} {qubit' : Int} (differ : qubit ≠ qubit') (total total' : α)
    (gates : List (Gate α)) :
    takeRun axis qubit total (takeRun axis' qubit' total' gates).2 =
      ((takeRun axis qubit total gates).1,
        (takeRun axis' qubit' total' (takeRun axis qubit total gates).2).2) := by
  induction gates generalizing total total' with
  | nil => simp [takeRun]
  | cons gate rest ih =>
      rcases run_cases axis qubit gate with clear | ⟨angle, member⟩ | ⟨meets, other⟩
      · rw [takeRun_cons_of_clear total rest clear]
        rcases run_cases axis' qubit' gate with clear' | ⟨angle', member'⟩ | ⟨meets', other'⟩
        · rw [takeRun_cons_of_clear total' _ clear', takeRun_cons_of_clear total' _ clear',
            takeRun_cons_of_clear total _ clear, ih]
        · rw [takeRun_cons_of_member total' _ member', takeRun_cons_of_member total' _ member', ih]
        · rw [takeRun_cons_of_stop total' _ meets' other',
            takeRun_cons_of_stop total' _ meets' other', takeRun_cons_of_clear total _ clear]
      · have clear' := contains_eq_false_of_rotation member differ.symm
        rw [takeRun_cons_of_member total rest member, takeRun_cons_of_clear total' rest clear',
          takeRun_cons_of_member total _ member, ih]
      · rw [takeRun_cons_of_stop total rest meets other]
        rcases run_cases axis' qubit' gate with clear' | ⟨angle', member'⟩ | ⟨meets', other'⟩
        · rw [takeRun_cons_of_clear total' _ clear', takeRun_cons_of_stop total _ meets other]
        · have clear := contains_eq_false_of_rotation member' differ
          rw [meets] at clear
          cases clear
        · rw [takeRun_cons_of_stop total' _ meets' other',
            takeRun_cons_of_stop total _ meets other]

end Runs

section Merged

variable [BEq α] {negligible : α → Bool}

theorem mergedGate?_sameOperands {gate merged : Gate α} {angle total : α}
    (rotation : gate.operation = .rotation axis qubit angle)
    (kept : mergedGate? negligible gate axis qubit angle total = some merged) :
    merged.SameOperands gate := by
  unfold mergedGate? at kept
  split at kept
  · cases kept
  · split at kept
    · obtain rfl := Option.some.inj kept
      exact .refl _
    · obtain rfl := Option.some.inj kept
      constructor <;> simp [Gate.kind, Gate.qubits, Gate.clbits, rotation, Operation.kind,
        Operation.qubits, Operation.clbits]

theorem mergedGate?_self {gate merged : Gate α} {angle : α}
    (rotation : gate.operation = .rotation axis qubit angle)
    (kept : mergedGate? negligible gate axis qubit angle angle = some merged) :
    merged = gate ∧ negligible angle = false := by
  unfold mergedGate? at kept
  split at kept
  · cases kept
  · rename_i small
    refine ⟨?_, by simpa using small⟩
    split at kept
    · exact (Option.some.inj kept).symm
    · obtain rfl := Option.some.inj kept
      rw [← rotation]

theorem mergedGate?_of_active {gate : Gate α} {angle : α}
    (rotation : gate.operation = .rotation axis qubit angle) (active : negligible angle = false) :
    mergedGate? negligible gate axis qubit angle angle = some gate := by
  simp only [mergedGate?, active, Bool.false_eq_true, if_false, ← rotation, ite_self]

end Merged

/-! ## The pass step by step -/

section Passes

variable [Add α] [BEq α] {negligible : α → Bool}

/-- What becomes of a gate when its run is merged, and the gates that are left after it. A gate
that is no rotation is a run of its own. -/
def mergeRun (negligible : α → Bool) (gate : Gate α) (rest : List (Gate α)) :
    Option (Gate α) × List (Gate α) :=
  match gate.operation with
  | .rotation axis qubit angle =>
    let run := takeRun axis qubit angle rest
    (mergedGate? negligible gate axis qubit angle run.1, run.2)
  | _ => (some gate, rest)

theorem mergeRun_of_rotation {gate : Gate α} {angle : α} (rest : List (Gate α))
    (rotation : gate.operation = .rotation axis qubit angle) :
    mergeRun negligible gate rest =
      (mergedGate? negligible gate axis qubit angle (takeRun axis qubit angle rest).1,
        (takeRun axis qubit angle rest).2) := by
  simp only [mergeRun, rotation]

theorem mergeRun_of_not_rotation {gate : Gate α} (rest : List (Gate α))
    (other : gate.kind.isRotation = false) :
    mergeRun negligible gate rest = (some gate, rest) := by
  simp only [mergeRun]
  cases shape : gate.operation with
  | rotation => exact absurd shape (Gate.operation_ne_rotation other)
  | fixed | pair | measure => rfl

@[simp]
theorem mergeRotations_nil : mergeRotations negligible ([] : List (Gate α)) = [] := by
  rw [mergeRotations]

theorem mergeRotations_cons (gate : Gate α) (rest : List (Gate α)) :
    mergeRotations negligible (gate :: rest) =
      (mergeRun negligible gate rest).1.toList ++
        mergeRotations negligible (mergeRun negligible gate rest).2 := by
  rw [mergeRotations]
  rcases gate.rotation_or_not with ⟨axis, qubit, angle, rotation⟩ | other
  · rw [mergeRun_of_rotation rest rotation]
    simp only [rotation]
  · rw [mergeRun_of_not_rotation rest other]
    cases shape : gate.operation with
    | rotation => exact absurd shape (Gate.operation_ne_rotation other)
    | fixed | pair | measure => rfl

theorem mergeRun_sublist (negligible : α → Bool) (gate : Gate α) (rest : List (Gate α)) :
    (mergeRun negligible gate rest).2.Sublist rest := by
  rcases gate.rotation_or_not with ⟨axis, qubit, angle, rotation⟩ | other
  · rw [mergeRun_of_rotation rest rotation]
    exact takeRun_sublist axis qubit angle rest
  · simp [mergeRun_of_not_rotation rest other]

/-- Induction along the pass: from the gates outside the run of the first gate to all. -/
theorem mergeRotations_induction (negligible : α → Bool) {motive : List (Gate α) → Prop}
    (nil : motive [])
    (run : ∀ gate rest, motive (mergeRun negligible gate rest).2 → motive (gate :: rest))
    (gates : List (Gate α)) : motive gates := by
  induction length : gates.length using Nat.strongRecOn generalizing gates with
  | ind size ih =>
      cases gates with
      | nil => exact nil
      | cons gate rest =>
          have bound := (mergeRun_sublist negligible gate rest).length_le
          rw [List.length_cons] at length
          exact run gate rest (ih _ (by omega) _ rfl)

/-- A run is replaced by a gate on the operands of its first member. -/
theorem mergeRun_sameOperands {gate merged : Gate α} {rest : List (Gate α)}
    (kept : (mergeRun negligible gate rest).1 = some merged) : merged.SameOperands gate := by
  rcases gate.rotation_or_not with ⟨axis, qubit, angle, rotation⟩ | other
  · rw [mergeRun_of_rotation rest rotation] at kept
    exact mergedGate?_sameOperands rotation kept
  · rw [mergeRun_of_not_rotation rest other] at kept
    obtain rfl := Option.some.inj kept
    exact .refl _

/-- Merging drops all of a run but one gate, which keeps the operands of the first member. -/
theorem mergeRotations_thinned (negligible : α → Bool) (gates : List (Gate α)) :
    Thinned gates (mergeRotations negligible gates) := by
  induction gates using mergeRotations_induction negligible with
  | nil =>
      rw [mergeRotations_nil]
      exact .refl []
  | run gate rest ih =>
      have left := Thinned.of_sublist (mergeRun_sublist negligible gate rest)
      rw [mergeRotations_cons]
      cases kept : (mergeRun negligible gate rest).1 with
      | none => exact (left.trans ih).drop gate
      | some merged => exact (left.trans ih).keep (mergeRun_sameOperands kept)

/-! ## Passes that shorten nothing -/

/-- A step that takes nothing away leaves a gate and the gates after it as they are. -/
theorem mergeRun_eq_or_length_lt (negligible : α → Bool) (gate : Gate α) (rest : List (Gate α)) :
    mergeRun negligible gate rest = (some gate, rest) ∨
      (mergeRun negligible gate rest).1.toList.length +
        (mergeRun negligible gate rest).2.length < rest.length + 1 := by
  rcases gate.rotation_or_not with ⟨axis, qubit, angle, rotation⟩ | other
  · rw [mergeRun_of_rotation rest rotation]
    have bound := (takeRun_sublist axis qubit angle rest).length_le
    by_cases same : (takeRun axis qubit angle rest).2.length = rest.length
    · rw [takeRun_of_length_eq same]
      cases kept : mergedGate? negligible gate axis qubit angle angle with
      | none => exact Or.inr (by simp)
      | some merged => exact Or.inl (by rw [(mergedGate?_self rotation kept).1])
    · right
      have one : ∀ merged : Option (Gate α), merged.toList.length ≤ 1 := by
        intro merged
        cases merged <;> simp
      have first := one (mergedGate? negligible gate axis qubit angle
        (takeRun axis qubit angle rest).1)
      dsimp only
      omega
  · exact Or.inl (mergeRun_of_not_rotation rest other)

theorem mergeRotations_eq_self_or_length_lt (negligible : α → Bool) (gates : List (Gate α)) :
    mergeRotations negligible gates = gates ∨
      (mergeRotations negligible gates).length < gates.length := by
  induction gates using mergeRotations_induction negligible with
  | nil => exact Or.inl mergeRotations_nil
  | run gate rest ih =>
      rw [mergeRotations_cons]
      rcases mergeRun_eq_or_length_lt negligible gate rest with same | shorter
      · rw [same] at ih ⊢
        dsimp only at ih ⊢
        rcases ih with fixed | less
        · exact Or.inl (by rw [fixed]; rfl)
        · right
          simp only [Option.toList_some, List.cons_append, List.nil_append, List.length_cons]
          omega
      · right
        have bound :=
          (mergeRotations_thinned negligible (mergeRun negligible gate rest).2).length_le
        rw [List.length_append, List.length_cons]
        omega

/-! ## Independent runs -/

/-- The steps of two gates without a common qubit can be taken in either order. -/
theorem mergeRun_of_apart {left right : Gate α} (apart : left.overlaps right = false)
    (rest : List (Gate α)) :
    mergeRun negligible left (mergeRun negligible right rest).2 =
      ((mergeRun negligible left rest).1,
        (mergeRun negligible right (mergeRun negligible left rest).2).2) := by
  rcases left.rotation_or_not with ⟨axis, qubit, angle, shape⟩ | other
  · rcases right.rotation_or_not with ⟨axis', qubit', angle', shape'⟩ | other'
    · have differ : qubit ≠ qubit' := by
        rintro rfl
        rw [Gate.overlaps_of_rotation shape] at apart
        simp [Gate.qubits, shape', Operation.qubits] at apart
      rw [mergeRun_of_rotation _ shape', mergeRun_of_rotation _ shape,
        mergeRun_of_rotation _ shape, mergeRun_of_rotation _ shape',
        takeRun_takeRun differ angle angle' rest]
    · rw [mergeRun_of_not_rotation _ other', mergeRun_of_not_rotation _ other']
  · rw [mergeRun_of_not_rotation _ other, mergeRun_of_not_rotation _ other]

/-- The steps of two neighbours without a common qubit leave each other's gate in place. -/
theorem mergeRotations_cons_of_apart {left right : Gate α} (rest : List (Gate α))
    (apart : left.overlaps right = false) :
    mergeRotations negligible (left :: right :: rest) =
      (mergeRun negligible left rest).1.toList ++
        ((mergeRun negligible right rest).1.toList ++
          mergeRotations negligible
            (mergeRun negligible right (mergeRun negligible left rest).2).2) := by
  have apart' : right.overlaps left = false := by rw [Gate.overlaps_comm, apart]
  have first : (mergeRun negligible right rest).1 =
      (mergeRun negligible right (mergeRun negligible left rest).2).1 := by
    rw [mergeRun_of_apart apart' rest]
  rw [first, mergeRotations_cons]
  rcases left.rotation_or_not with ⟨axis, qubit, angle, shape⟩ | other
  · have clear : right.qubits.contains qubit = false := by
      rw [← Gate.overlaps_of_rotation shape, apart]
    rw [mergeRun_of_rotation _ shape, mergeRun_of_rotation _ shape,
      takeRun_cons_of_clear angle rest clear]
    rw [mergeRotations_cons]
  · rw [mergeRun_of_not_rotation _ other, mergeRun_of_not_rotation _ other]
    rw [mergeRotations_cons]

theorem mergeRun_exchanged (negligible : α → Bool) (gate : Gate α) {gates gates' : List (Gate α)}
    (exchanged : Exchanged gates gates') :
    (mergeRun negligible gate gates).1 = (mergeRun negligible gate gates').1 ∧
      Interleaved (mergeRun negligible gate gates).2 (mergeRun negligible gate gates').2 := by
  rcases gate.rotation_or_not with ⟨axis, qubit, angle, shape⟩ | other
  · obtain ⟨sums, rests⟩ := takeRun_exchanged axis qubit angle exchanged
    rw [mergeRun_of_rotation _ shape, mergeRun_of_rotation _ shape, sums]
    exact ⟨rfl, rests⟩
  · rw [mergeRun_of_not_rotation _ other, mergeRun_of_not_rotation _ other]
    exact ⟨rfl, .single exchanged⟩

/-- Two neighbours without a common qubit are merged alike whichever of them comes first. -/
theorem mergeRotations_here {left right : Gate α} (after : List (Gate α))
    (apart : left.overlaps right = false) :
    Interleaved (mergeRotations negligible (left :: right :: after))
      (mergeRotations negligible (right :: left :: after)) := by
  have apart' : right.overlaps left = false := by rw [Gate.overlaps_comm, apart]
  rw [mergeRotations_cons_of_apart after apart, mergeRotations_cons_of_apart after apart',
    mergeRun_of_apart apart after]
  cases keptLeft : (mergeRun negligible left after).1 with
  | none => exact .refl _
  | some left' =>
      cases keptRight : (mergeRun negligible right after).1 with
      | none => exact .refl _
      | some right' =>
          have sameLeft := (mergeRun_sameOperands keptLeft).sameQubits
          have sameRight := (mergeRun_sameOperands keptRight).sameQubits
          have clear : left'.overlaps right' = false := by
            rw [sameLeft.overlaps_eq, sameRight.overlaps_right_eq, apart]
          exact .single (.here _ clear)

/-- A pass over two interleavings of a circuit merges the same runs in both. The induction is on
the length, as the pass goes on with a list from which a run is gone. -/
theorem mergeRotations_exchanged (size : Nat) :
    ∀ {gates gates' : List (Gate α)}, gates.length ≤ size → Exchanged gates gates' →
      Interleaved (mergeRotations negligible gates) (mergeRotations negligible gates') := by
  induction size with
  | zero =>
      intro gates gates' small exchanged
      cases exchanged <;> simp at small
  | succ size ih =>
      intro gates gates' small exchanged
      cases exchanged with
      | here after apart => exact mergeRotations_here after apart
      | @later gate gates gates' exchanged =>
          obtain ⟨kept, rests⟩ := mergeRun_exchanged negligible gate exchanged
          have bound := (mergeRun_sublist negligible gate gates).length_le
          rw [List.length_cons] at small
          rw [mergeRotations_cons, mergeRotations_cons, ← kept]
          apply Interleaved.append_left
          exact Interleaved.image_of_exchanged ih (by omega) rests

theorem mergeRotations_interleaved {gates gates' : List (Gate α)}
    (interleaved : Interleaved gates gates') :
    Interleaved (mergeRotations negligible gates) (mergeRotations negligible gates') :=
  Interleaved.image_of_exchanged (mergeRotations_exchanged _) (Nat.le_refl _) interleaved

/-! ## Lists without runs -/

/-- Of two rotations about one axis on one qubit another gate on that qubit always stands
between. -/
def RunsMerged (gates : List (Gate α)) : Prop :=
  ∀ before first between second after axis qubit angle angle',
    gates = before ++ first :: (between ++ second :: after) →
    first.operation = .rotation axis qubit angle →
    second.operation = .rotation axis qubit angle' →
    ∃ gate ∈ between, qubit ∈ gate.qubits

theorem mergeRotations_cons_eq_self {gate : Gate α} {rest : List (Gate α)}
    (fixed : mergeRotations negligible (gate :: rest) = gate :: rest) :
    mergeRun negligible gate rest = (some gate, rest) ∧ mergeRotations negligible rest = rest := by
  rcases mergeRun_eq_or_length_lt negligible gate rest with same | shorter
  · rw [mergeRotations_cons, same] at fixed
    exact ⟨same, (List.cons.inj fixed).2⟩
  · have bound := (mergeRotations_thinned negligible (mergeRun negligible gate rest).2).length_le
    have lengths := congrArg List.length fixed
    rw [mergeRotations_cons, List.length_append, List.length_cons] at lengths
    omega

/-- What a pass leaves as it is holds no two rotations that could still be merged. -/
theorem runsMerged_of_mergeRotations_eq_self {gates : List (Gate α)}
    (fixed : mergeRotations negligible gates = gates) : RunsMerged gates := by
  induction gates with
  | nil =>
      intro before first between second after axis qubit angle angle' split
      simp at split
  | cons gate rest ih =>
      obtain ⟨step, restFixed⟩ := mergeRotations_cons_eq_self fixed
      intro before first between second after axis qubit angle angle' split firstShape secondShape
      cases before with
      | cons _ before =>
          obtain ⟨-, split⟩ := List.cons.inj split
          exact ih restFixed before first between second after axis qubit angle angle' split
            firstShape secondShape
      | nil =>
          obtain ⟨rfl, rfl⟩ := List.cons.inj split
          rw [mergeRun_of_rotation _ firstShape] at step
          have same := congrArg (fun run => run.2.length) step
          exact exists_mem_qubits_of_takeRun_length_eq secondShape same

/-- A pass leaves a list without runs as it is if all its rotations count. -/
theorem mergeRotations_eq_self_of_runsMerged {gates : List (Gate α)} (merged : RunsMerged gates)
    (active : ∀ gate ∈ gates, ∀ axis qubit angle,
      gate.operation = .rotation axis qubit angle → negligible angle = false) :
    mergeRotations negligible gates = gates := by
  induction gates with
  | nil => exact mergeRotations_nil
  | cons gate rest ih =>
      have mergedRest : RunsMerged rest := by
        intro before first between second after axis qubit angle angle' split
        exact merged (gate :: before) first between second after axis qubit angle angle'
          (congrArg (List.cons gate) split)
      rw [List.forall_mem_cons] at active
      have step : mergeRun negligible gate rest = (some gate, rest) := by
        rcases gate.rotation_or_not with ⟨axis, qubit, angle, rotation⟩ | other
        · have alone : takeRun axis qubit angle rest = (angle, rest) :=
            takeRun_eq_self angle fun between second after angle' split rotation' =>
              merged [] gate between second after axis qubit angle angle'
                (congrArg (List.cons gate) split) rotation rotation'
          rw [mergeRun_of_rotation rest rotation, alone,
            mergedGate?_of_active rotation (active.1 axis qubit angle rotation)]
        · exact mergeRun_of_not_rotation rest other
      rw [mergeRotations_cons, step, ih mergedRest active.2]
      rfl

end Passes

end Reduction

end Peephole
