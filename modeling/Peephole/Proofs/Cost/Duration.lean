import Peephole.Cost.Basic
import Peephole.Proofs.Circuit.Building
import Peephole.Proofs.Device.Calibrated
import Peephole.Proofs.Schedule.Duration

/-!
# Durations added exactly

A circuit takes the sum of what its layers take. Each of these times is one that the device tells,
or zero, so it is a whole number of units of the least double and can be added without rounding
(`exactSum`). Comparing doubles is exact, so what the slowest gate of a layer takes is the span of
the layer in these units, and laws of spans are laws of durations (`exactSum_map_slowest`). Whatever
the layers are, a circuit takes no less than any chain of its gates and no more than all of them
(`duration_bounds`).
-/

namespace Peephole

variable {α : Type}

namespace Binary64

/-- A finite double that is not negative, in units of the least double. -/
def exactUnits (x : Float) : Nat :=
  ((units? x).getD 0).toNat

theorem exactUnits_eq {x : Float} {units : Nat} (read : units? x = some (units : Int)) :
    exactUnits x = units := by
  rw [exactUnits, read]
  rfl

/-- The exact sum of finite doubles that are not negative, in units of the least double. -/
def exactSum (terms : List Float) : Nat :=
  (terms.map exactUnits).sum

theorem exactSum_tail_le (terms : List Float) : exactSum terms.tail ≤ exactSum terms :=
  ((List.tail_sublist terms).map exactUnits).sum_le_sum fun _ _ => Nat.zero_le _

end Binary64

open Binary64 (exactUnits exactSum)

namespace Cost

/-- How long a kind of gate takes. -/
def timeOf {ρ : Type} [OfNat ρ 0] (table : Calibration ρ) (kind : GateKind) : ρ :=
  (table.get? kind.name).getD 0

/-- How long each layer takes. -/
def layerTimes {ρ : Type} [RateArithmetic ρ] (table : Calibration ρ) (gates : List (Gate α)) :
    List ρ :=
  (Schedule.blocks gates).map (slowest (timeOf table))

/-- How long each gate takes. -/
def gateTimes {ρ : Type} [OfNat ρ 0] (table : Calibration ρ) (gates : List (Gate α)) : List ρ :=
  gates.map fun gate => timeOf table gate.kind

theorem exactSum_gateTimes (table : Calibration Float) (gates : List (Gate α)) :
    exactSum (gateTimes table gates) =
      (gates.map fun gate => exactUnits (timeOf table gate.kind)).sum := by
  rw [exactSum, gateTimes, List.map_map]
  rfl

theorem duration?_eq {ρ : Type} [RateArithmetic ρ] {device : Device ρ} {table : Calibration ρ}
    (timed : device.durations = some table) (circuit : Circuit α) :
    duration? device circuit =
      some ((layerTimes table circuit.gates).foldl (fun total time => total + time) 0) := by
  rw [duration?, timed, Option.map_some, layerTimes, List.foldl_map]
  rfl

theorem admits_timeOf {table : Calibration Float}
    (within : Calibration.Within Calibration.duration table) (kind : GateKind) :
    Calibration.duration.admits (timeOf table kind) = true := by
  rw [timeOf]
  cases found : table.get? kind.name with
  | none => decide
  | some time => exact within kind.name time found

theorem larger_eq_or (left right : Float) :
    larger left right = left ∨ larger left right = right := by
  rw [larger]
  split
  · exact Or.inr rfl
  · exact Or.inl rfl

theorem exactUnits_larger {left right : Float}
    (admitted : Calibration.duration.admits left = true)
    (admitted' : Calibration.duration.admits right = true) :
    exactUnits (larger left right) = max (exactUnits left) (exactUnits right) := by
  obtain ⟨units, read⟩ := Calibration.exists_units_of_admits admitted
  obtain ⟨units', read'⟩ := Calibration.exists_units_of_admits admitted'
  have order : left < right ↔ units < units' :=
    (Binary64.lt_iff_units_lt read read').trans Int.ofNat_lt
  rw [Binary64.exactUnits_eq read, Binary64.exactUnits_eq read', larger]
  split
  · rename_i less
    rw [Binary64.exactUnits_eq read', Nat.max_eq_right (Nat.le_of_lt (order.mp less))]
  · rename_i notLess
    rw [Binary64.exactUnits_eq read, Nat.max_eq_left (Nat.le_of_not_lt (notLess ∘ order.mpr))]

theorem exactUnits_foldl_larger {time : GateKind → Float}
    (admitted : ∀ kind, Calibration.duration.admits (time kind) = true) (layer : List (Gate α))
    {longest : Float} (start : Calibration.duration.admits longest = true) :
    exactUnits (layer.foldl (fun longest gate => larger longest (time gate.kind)) longest) =
      layer.foldl (fun longest gate => max longest (exactUnits (time gate.kind)))
        (exactUnits longest) := by
  induction layer generalizing longest with
  | nil => rfl
  | cons gate layer ih =>
      have next : Calibration.duration.admits (larger longest (time gate.kind)) = true := by
        rcases larger_eq_or longest (time gate.kind) with same | same <;> rw [same]
        · exact start
        · exact admitted gate.kind
      rw [List.foldl_cons, List.foldl_cons, ih next, exactUnits_larger start (admitted gate.kind)]

theorem exactUnits_slowest {time : GateKind → Float}
    (admitted : ∀ kind, Calibration.duration.admits (time kind) = true) (layer : List (Gate α)) :
    exactUnits (slowest time layer) =
      Schedule.span (fun kind => exactUnits (time kind)) layer := by
  have zero : exactUnits 0 = 0 := by decide
  have start : Calibration.duration.admits 0 = true := by decide
  have folded := exactUnits_foldl_larger admitted layer start
  rw [zero] at folded
  exact folded

theorem exactSum_map_slowest {time : GateKind → Float}
    (admitted : ∀ kind, Calibration.duration.admits (time kind) = true)
    (cut : List (List (Gate α))) :
    exactSum (cut.map (slowest time)) =
      Schedule.totalSpan (fun kind => exactUnits (time kind)) cut := by
  rw [exactSum, Schedule.totalSpan, List.map_map]
  congr 1
  exact List.map_congr_left fun layer _ => exactUnits_slowest admitted layer

theorem exactSum_layerTimes {table : Calibration Float}
    (within : Calibration.Within Calibration.duration table) (gates : List (Gate α)) :
    exactSum (layerTimes table gates) =
      Schedule.totalSpan (fun kind => exactUnits (timeOf table kind)) (Schedule.blocks gates) :=
  exactSum_map_slowest (admits_timeOf within) _

/-! ## Thinned circuits -/

section Thinned

variable {table : Calibration Float} (within : Calibration.Within Calibration.duration table)
  {gates gates' : List (Gate α)} (thinned : Thinned gates gates')

include within thinned

/-- The layers of a thinned list take at most as long as the layers before, and those of them that
came after the first once more. -/
theorem exactSum_layerTimes_le_of_thinned :
    exactSum (layerTimes table gates') ≤
      exactSum (layerTimes table gates) + exactSum (layerTimes table gates).tail := by
  rw [exactSum_layerTimes within, exactSum_layerTimes within, layerTimes, ← List.map_tail,
    exactSum_map_slowest (admits_timeOf within)]
  exact Schedule.totalSpan_blocks_le_of_thinned thinned

/-- If every gate takes equally long, a thinned list takes no longer. -/
theorem exactSum_layerTimes_le_of_uniform {time : Float}
    (uniform : ∀ gate ∈ gates, timeOf table gate.kind = time) :
    exactSum (layerTimes table gates') ≤ exactSum (layerTimes table gates) := by
  rw [exactSum_layerTimes within, exactSum_layerTimes within]
  exact Schedule.totalSpan_blocks_le_of_uniform thinned
    fun gate member => congrArg exactUnits (uniform gate member)

/-- There is a cut of a thinned list that takes no longer, even if the layers do. -/
theorem exists_cut_exactSum_le :
    ∃ cut, Schedule.IsCut gates' cut ∧
      exactSum (cut.map (slowest (timeOf table))) ≤ exactSum (layerTimes table gates) := by
  obtain ⟨cut, isCut, shorter⟩ : ∃ cut, Schedule.IsCut gates' cut ∧
      Schedule.totalSpan (fun kind => exactUnits (timeOf table kind)) cut ≤
        Schedule.totalSpan (fun kind => exactUnits (timeOf table kind)) (Schedule.blocks gates) :=
    Schedule.exists_cut_totalSpan_le thinned (Schedule.isCut_blocks gates)
  refine ⟨cut, isCut, ?_⟩
  rw [exactSum_layerTimes within, exactSum_map_slowest (admits_timeOf within)]
  exact shorter

end Thinned

/-! ## Circuits and their gates -/

/-- What a circuit takes is what its layers take one after the other. Added exactly, no chain of
gates takes longer, among them all gates on a qubit, and all gates together take no less, nor do as
many of the slowest gate as there are layers. One more gate never saves time, and costs its own time
at most. -/
theorem duration_bounds {settings : Settings} {parts : Device.Parts} {device : Device Float}
    {table : Calibration Float} (made : Device.ofParts settings parts = .ok device)
    (timed : device.durations = some table) (circuit : Circuit Float) :
    duration? device circuit =
        some ((layerTimes table circuit.gates).foldl (fun total time => total + time) 0) ∧
      (∀ chain : List (Gate Float), chain.Sublist circuit.gates → Schedule.Chained chain →
        exactSum (gateTimes table chain) ≤ exactSum (layerTimes table circuit.gates)) ∧
      (∀ qubit : Int,
        exactSum (gateTimes table (circuit.gates.filter (·.qubits.contains qubit))) ≤
          exactSum (layerTimes table circuit.gates)) ∧
      exactSum (layerTimes table circuit.gates) ≤ exactSum (gateTimes table circuit.gates) ∧
      exactSum (layerTimes table circuit.gates) ≤
        circuit.depth * exactUnits (slowest (timeOf table) circuit.gates) ∧
      ∀ gate longer, circuit.append gate = .ok longer →
        exactSum (layerTimes table circuit.gates) ≤ exactSum (layerTimes table longer.gates) ∧
          exactSum (layerTimes table longer.gates) ≤
            exactSum (layerTimes table circuit.gates) + exactUnits (timeOf table gate.kind) := by
  have within := Device.within_durations_of_ofParts made timed
  have isCut := Schedule.isCut_blocks circuit.gates
  have chains : ∀ chain : List (Gate Float), chain.Sublist circuit.gates →
      Schedule.Chained chain →
        exactSum (gateTimes table chain) ≤ exactSum (layerTimes table circuit.gates) := by
    intro chain sublist chained
    rw [← isCut.flatten] at sublist
    rw [exactSum_layerTimes within, exactSum_gateTimes]
    exact chained.sum_le_totalSpan (fun kind => exactUnits (timeOf table kind)) isCut.parallel
      sublist
  refine ⟨duration?_eq timed circuit, chains, fun qubit => ?_, ?_, ?_, ?_⟩
  · exact chains _ List.filter_sublist (Schedule.chained_filter_qubit circuit.gates qubit)
  · have total := Schedule.totalSpan_le_sum (fun kind => exactUnits (timeOf table kind))
      (Schedule.blocks circuit.gates)
    rwa [isCut.flatten, ← exactSum_layerTimes within, ← exactSum_gateTimes] at total
  · have total := Schedule.totalSpan_le_length_mul (fun kind => exactUnits (timeOf table kind))
      (Schedule.blocks circuit.gates)
    rwa [isCut.flatten, ← exactSum_layerTimes within, ← Schedule.depth_eq_length_blocks,
      ← exactUnits_slowest (admits_timeOf within)] at total
  · intro gate longer appended
    rw [Circuit.gates_of_append appended, exactSum_layerTimes within, exactSum_layerTimes within]
    exact Schedule.totalSpan_blocks_append_singleton _ circuit.gates gate

/-- Three qubits on which Hadamard gates take no time. -/
def swiftParts : Device.Parts where
  numQubits := .int 3
  edges := .null
  errorRates := .null
  durations := .record [("SX", .float 35.5), ("CX", .float 300.0)]
  rule := none
  fallbackRate := .null
  name := .text "swift"

def swiftTimes : Calibration Float :=
  [("SX", 35.5), ("CX", 300.0)]

/-- A chain of three gates from the first qubit to the second. -/
def thread : List (Gate Float) :=
  [⟨.fixed .sx 0, []⟩, ⟨.pair .cx 0 1 Int.zero_ne_one, []⟩, ⟨.fixed .sx 1, []⟩]

/-- The chain, and two gates beside it. -/
def threaded : Circuit Float :=
  (Circuit.empty ⟨3, 0⟩ ⟨.null, []⟩).replaceGates
    [⟨.fixed .h 2, []⟩, ⟨.fixed .sx 0, []⟩, ⟨.pair .cx 0 1 Int.zero_ne_one, []⟩,
      ⟨.fixed .sx 2, []⟩, ⟨.fixed .sx 1, []⟩]

/-- The chain takes as long as the circuit. -/
theorem threaded_duration_bounds :
    ∃ device, Device.ofParts Settings.standard swiftParts = .ok device ∧
      device.durations = some swiftTimes ∧ duration? device threaded = some 371.0 ∧
      exactSum (gateTimes swiftTimes thread) ≤ exactSum (layerTimes swiftTimes threaded.gates) ∧
      exactSum (layerTimes swiftTimes threaded.gates) ≤
        exactSum (gateTimes swiftTimes threaded.gates) ∧
      exactSum (layerTimes swiftTimes threaded.gates) ≤
        threaded.depth * exactUnits (slowest (timeOf swiftTimes) threaded.gates) ∧
      gateTimes swiftTimes thread = [35.5, 300.0, 35.5] ∧
      layerTimes swiftTimes threaded.gates = [35.5, 300.0, 35.5] ∧
      slowest (timeOf swiftTimes) threaded.gates = 300.0 := by
  obtain ⟨device, made, timed⟩ : ∃ device,
      Device.ofParts Settings.standard swiftParts = .ok device ∧
        device.durations = some swiftTimes :=
    exists_eq_ok_of_toOption (by decide +kernel)
  have sublist : thread.Sublist threaded.gates :=
    .cons _ (.cons_cons _ (.cons_cons _ (.cons _ (.cons_cons _ .slnil))))
  have chained : Schedule.Chained thread := .cons_cons rfl (.cons_cons rfl (.singleton _))
  obtain ⟨told, chains, -, all, slow, -⟩ := duration_bounds made timed threaded
  exact ⟨device, made, timed, told.trans (by decide +kernel), chains thread sublist chained, all,
    slow, by decide +kernel, by decide +kernel, by decide +kernel⟩

end Cost

end Peephole
