import Peephole.Proofs.Gate.Overlap

/-!
# Gate lists thinned out

A gate list is thinned out when gates are dropped from it and the others keep their operands;
their angles and annotations may change. What is left is a subsequence as far as kinds, qubits and
classical bits go (`Thinned`), so everything that is told by these alone and cannot grow when gates
are dropped cannot grow here.
-/

namespace Peephole

variable {α : Type}

namespace Gate

/-- What a gate is apart from angle and annotations. -/
def operands (gate : Gate α) : GateKind × List Int × List Int :=
  (gate.kind, gate.qubits, gate.clbits)

theorem operands_eq_iff {left right : Gate α} :
    left.operands = right.operands ↔ left.SameOperands right := by
  constructor
  · intro same
    obtain ⟨kind, rest⟩ := Prod.mk.inj same
    obtain ⟨qubits, clbits⟩ := Prod.mk.inj rest
    exact ⟨kind, qubits, clbits⟩
  · rintro ⟨kind, qubits, clbits⟩
    rw [operands, operands, kind, qubits, clbits]

end Gate

/-- The second list is the first one without some of its gates, up to angles and annotations. -/
def Thinned (gates gates' : List (Gate α)) : Prop :=
  (gates'.map Gate.operands).Sublist (gates.map Gate.operands)

namespace Thinned

theorem of_sublist {gates gates' : List (Gate α)} (sublist : gates'.Sublist gates) :
    Thinned gates gates' :=
  sublist.map Gate.operands

theorem refl (gates : List (Gate α)) : Thinned gates gates :=
  of_sublist (List.Sublist.refl gates)

theorem trans {first second third : List (Gate α)} (left : Thinned first second)
    (right : Thinned second third) : Thinned first third :=
  List.Sublist.trans right left

theorem drop (gate : Gate α) {gates gates' : List (Gate α)} (thinned : Thinned gates gates') :
    Thinned (gate :: gates) gates' :=
  List.Sublist.cons gate.operands thinned

theorem keep {gate gate' : Gate α} {gates gates' : List (Gate α)}
    (same : gate'.SameOperands gate) (thinned : Thinned gates gates') :
    Thinned (gate :: gates) (gate' :: gates') := by
  unfold Thinned
  rw [List.map_cons, List.map_cons, Gate.operands_eq_iff.mpr same]
  exact List.Sublist.cons_cons _ thinned

/-- What is left of two lists is what is left of the one and of the other. -/
theorem exists_eq_append {before after gates' : List (Gate α)}
    (thinned : Thinned (before ++ after) gates') :
    ∃ before' after', gates' = before' ++ after' ∧ Thinned before before' ∧
      Thinned after after' := by
  unfold Thinned at thinned
  rw [List.map_append] at thinned
  obtain ⟨head, tail, split, inBefore, inAfter⟩ := List.sublist_append_iff.mp thinned
  obtain ⟨before', after', rfl, rfl, rfl⟩ := List.map_eq_append_iff.mp split
  exact ⟨before', after', rfl, inBefore, inAfter⟩

/-- A subsequence of what is left stands for a subsequence of all. -/
theorem exists_sublist {gates gates' part' : List (Gate α)} (thinned : Thinned gates gates')
    (sublist : part'.Sublist gates') :
    ∃ part : List (Gate α), part.Sublist gates ∧ part'.map Gate.operands = part.map Gate.operands :=
  List.sublist_map_iff.mp (thinned.trans (of_sublist sublist))

theorem exists_sameOperands {gates gates' : List (Gate α)} (thinned : Thinned gates gates') :
    ∀ gate ∈ gates', ∃ origin ∈ gates, gate.SameOperands origin := by
  intro gate member
  obtain ⟨origin, inGates, same⟩ :=
    List.mem_map.mp (thinned.subset (List.mem_map_of_mem member))
  exact ⟨origin, inGates, Gate.operands_eq_iff.mp same.symm⟩

theorem length_le {gates gates' : List (Gate α)} (thinned : Thinned gates gates') :
    gates'.length ≤ gates.length := by
  simpa using List.Sublist.length_le thinned

theorem kinds {gates gates' : List (Gate α)} (thinned : Thinned gates gates') :
    (gates'.map Gate.kind).Sublist (gates.map Gate.kind) := by
  have projected := List.Sublist.map Prod.fst thinned
  rwa [List.map_map, List.map_map] at projected

theorem qubits {gates gates' : List (Gate α)} (thinned : Thinned gates gates') :
    (gates'.map Gate.qubits).Sublist (gates.map Gate.qubits) := by
  have projected := List.Sublist.map (fun operands => operands.2.1) thinned
  rwa [List.map_map, List.map_map] at projected

theorem countP_isTwoQubit_le {gates gates' : List (Gate α)} (thinned : Thinned gates gates') :
    gates'.countP Gate.isTwoQubit ≤ gates.countP Gate.isTwoQubit := by
  have counted := thinned.kinds.countP_le (p := GateKind.isTwoQubit)
  rwa [List.countP_map, List.countP_map] at counted

end Thinned

end Peephole
