import Peephole.Cost.Basic
import Peephole.Proofs.Circuit.Figures
import Peephole.Proofs.Schedule.Composition
import Peephole.Proofs.Session.History

/-!
# Circuits one after the other

Circuits of one width can always follow each other, and what they come to together is known from
what they come to apart: gates of all sorts add up, so do the violations of a device's couplings
once the gates are counted on, depths add up except for one layer at most, and the critical path is
no shorter than either and no longer than both (`compose_figures`). In a session the circuits stay
in their slots, and the new one goes where it is sent.
-/

namespace Peephole

/-! ## Routing -/

/-- The violation of a gate that so many other gates precede. -/
def RoutingViolation.shift (offset : Nat) (violation : RoutingViolation) : RoutingViolation :=
  { violation with gateIndex := offset + violation.gateIndex }

namespace Cost

variable {α : Type} (device : Device Float)

theorem violation?_add (offset gateIndex : Nat) (gate : Gate α) :
    violation? device (offset + gateIndex) gate =
      (violation? device gateIndex gate).map (RoutingViolation.shift offset) := by
  obtain ⟨operation, _⟩ := gate
  cases operation with
  | pair kind first second distinct =>
      simp only [violation?]
      split <;> rfl
  | fixed | rotation | measure => rfl

theorem violations_of_append {first second composed : Circuit α}
    (gates : composed.gates = first.gates ++ second.gates) :
    violations device composed =
      violations device first ++
        (violations device second).map (RoutingViolation.shift first.gateCount) := by
  unfold violations Circuit.gateCount
  rw [gates, List.zipIdx_append, List.filterMap_append, List.map_filterMap]
  congr 1
  rw [Nat.zero_add, List.zipIdx_eq_map_add, List.filterMap_map]
  exact List.filterMap_congr fun entry _ => violation?_add device _ entry.2 entry.1

end Cost

/-! ## Compositions in a session -/

/-- Asking for the circuit in a slot followed by the one in another slot. -/
def Session.composing (slot other destination shown : Key) : Session.Step :=
  ⟨.ok slot, some destination, shown, .ok (.work (.ok (.compose other)))⟩

theorem Session.perform_composing (settings : Settings) {session : Session} {slot other : Key}
    {first second composed : Circuit Float} (found : session.find? slot = some first)
    (found' : session.find? other = some second) (built : first.compose second = .ok composed)
    (destination shown : Key) :
    session.perform settings (composing slot other destination shown) =
      (session.put destination composed, .ok .null) := by
  have outcome : session.outcome settings (composing slot other destination shown) =
      .ok (.store destination composed) := by
    simp only [Session.outcome, composing, get_of_find? found, get_of_find? found', Deed.outcome,
      built, Step.target, bind, Except.bind]
    rfl
  rw [perform, outcome]

/-! ## Figures of compositions -/

namespace Circuit

/-- Circuits of one width make up a circuit. It has as many layers as both, or one less if neither
is empty; its critical path is no shorter than that of either and no longer than both; its gates,
those on two qubits and those of each kind are counted together; and on every device it violates
what the first circuit violates and then what the second one does, counting on from the gates of
the first. A session in which it is asked for puts it where it is to go, and every other slot
holds what it held. One more gate opens a layer at most. -/
theorem compose_figures {first second : Circuit Float} (wellFormed : first.WellFormed)
    (wellFormed' : second.WellFormed)
    (width : second.registers.qubits = first.registers.qubits) :
    (∃ composed, first.compose second = .ok composed ∧
      (composed.depth = first.depth + second.depth ∨
        first.gates ≠ [] ∧ second.gates ≠ [] ∧
          composed.depth + 1 = first.depth + second.depth) ∧
      max (Schedule.criticalPathLength first.gates) (Schedule.criticalPathLength second.gates) ≤
        Schedule.criticalPathLength composed.gates ∧
      Schedule.criticalPathLength composed.gates ≤
        Schedule.criticalPathLength first.gates + Schedule.criticalPathLength second.gates ∧
      composed.gateCount = first.gateCount + second.gateCount ∧
      composed.twoQubitCount = first.twoQubitCount + second.twoQubitCount ∧
      (∀ kind, (composed.gateCounts.lookup kind).getD 0 =
        (first.gateCounts.lookup kind).getD 0 + (second.gateCounts.lookup kind).getD 0) ∧
      (∀ device : Device Float, Cost.violations device composed =
        Cost.violations device first ++
          (Cost.violations device second).map (RoutingViolation.shift first.gateCount)) ∧
      ∀ (settings : Settings) (session : Session) (slot other : Key),
        session.find? slot = some first → session.find? other = some second →
          ∀ destination shown,
            session.perform settings (Session.composing slot other destination shown) =
                (session.put destination composed, .ok .null) ∧
              ∀ kept, destination.same kept = false →
                (session.put destination composed).find? kept = session.find? kept) ∧
      ∀ gate longer, first.append gate = .ok longer →
        first.depth ≤ longer.depth ∧ longer.depth ≤ first.depth + 1 := by
  have built := compose_eq_of_width wellFormed wellFormed' width
  refine ⟨⟨_, built, Schedule.depth_append _ _, Schedule.max_criticalPathLength_le _ _,
    Schedule.criticalPathLength_append_le _ _, List.length_append, ?_, fun kind => ?_,
    fun device => Cost.violations_of_append device rfl,
    fun settings session slot other found found' destination shown =>
      ⟨Session.perform_composing settings found found' built destination shown,
        fun kept => Session.find?_put_of_ne session _⟩⟩, fun gate longer appended => ?_⟩
  · rw [wellFormed.counted, wellFormed'.counted, ← List.countP_append]
    rfl
  · rw [getD_lookup_gateCounts, getD_lookup_gateCounts, getD_lookup_gateCounts,
      gates_replaceGates, List.map_append, List.count_append]
  · rw [depth, depth, gates_of_append appended]
    exact Schedule.depth_append_singleton first.gates gate

/-- One layer, in which one qubit stays free. -/
def opening : Circuit Float :=
  (empty ⟨3, 0⟩ ⟨.null, []⟩).replaceGates [⟨.fixed .h 0, []⟩, ⟨.fixed .t 2, []⟩]

/-- Three layers, of which the first one acts on that qubit only. -/
def closing : Circuit Float :=
  (empty ⟨3, 1⟩ ⟨.null, []⟩).replaceGates
    [⟨.fixed .h 1, []⟩, ⟨.pair .cx 0 1 Int.zero_ne_one, []⟩, ⟨.measure 1 0, []⟩]

/-- Three qubits, of which the first and the second are coupled with the third only. -/
def detour : Device Float where
  name := .text "detour"
  couplings := ⟨3, [(0, 2), (1, 2)]⟩
  rule := none
  isAllToAll := false
  errorRates := []
  durations := none
  fallbackRate := 0.0

/-- The first layers of the two circuits become one. -/
theorem opening_then_closing :
    opening.WellFormed ∧ closing.WellFormed ∧
      ∃ composed, opening.compose closing = .ok composed ∧
        composed.depth + 1 = opening.depth + closing.depth ∧
        Schedule.criticalPathLength composed.gates = 3 ∧ composed.gateCount = 5 ∧
        composed.twoQubitCount = 1 ∧
        Cost.violations detour composed = [⟨3, .pair .cx, [0, 1], some 2⟩] ∧
        (Session.put [(.text "a", opening), (.text "b", closing)] (.text "c") composed).find?
          (.text "a") = some opening := by
  have wellFormed : opening.WellFormed := wellFormed_of_within (by decide) (by decide)
  have wellFormed' : closing.WellFormed := wellFormed_of_within (by decide) (by decide)
  obtain ⟨⟨composed, made, -, -, -, count, pairs, -, routing, performed⟩, -⟩ :=
    compose_figures wellFormed wellFormed' rfl
  have kept := (performed Settings.standard [(.text "a", opening), (.text "b", closing)]
    (.text "a") (.text "b") rfl rfl (.text "c") (.text "c")).2 (.text "a") rfl
  have known := made.symm.trans (compose_eq_of_width wellFormed wellFormed' rfl)
  obtain rfl := Except.ok.inj known
  exact ⟨wellFormed, wellFormed', _, made, by decide, by decide, count, pairs,
    (routing _).trans (by decide +kernel), kept⟩

end Circuit

end Peephole
