import Peephole.Proofs.Analysis.Grouping
import Peephole.Proofs.Circuit.Figures
import Peephole.Proofs.Number.Quotient
import Peephole.Proofs.Schedule.Usage
import Peephole.Proofs.Session.Reachable

/-!
# The figures of an analysis agree

Uses of qubits, counts of kinds, verdicts on Clifford gates, layers and the critical path are found
by going over the gates five times. The uses can be counted one operand after the other in a table
with an entry for every qubit (`tally?`); each operand raises the sum of the table by one, and in a
circuit none lies outside. Each entry is the length of a chain of gates. Angles that are finite have
finite ratios, so every gate gets a verdict, and only measurements get none. The results are put
together in `figures_agree`.
-/

namespace Peephole

namespace Analysis

variable {α : Type}

/-! ## Uses of qubits -/

/-- Counts qubits one after the other in a table. A qubit that has no entry cannot be counted. -/
def tally? (table : List Nat) : List Int → Option (List Nat)
  | [] => some table
  | qubit :: rest =>
    if Registers.outside table.length qubit then none
    else tally? (table.modify qubit.toNat (· + 1)) rest

/-- One more use raises the sum by one. -/
theorem sum_modify_succ {table : List Nat} {place : Nat} (inside : place < table.length) :
    (table.modify place (· + 1)).sum = table.sum + 1 := by
  obtain ⟨before, entry, after, rfl, -, changed⟩ := List.exists_of_modify (· + 1) inside
  rw [changed]
  simp only [List.sum_append, List.sum_cons]
  omega

theorem sum_of_tally? {table final : List Nat} {operands : List Int}
    (counted : tally? table operands = some final) : final.sum = table.sum + operands.length := by
  induction operands generalizing table with
  | nil =>
      obtain rfl := Option.some.inj counted
      rfl
  | cons qubit operands ih =>
      rw [tally?] at counted
      split at counted
      · cases counted
      · rename_i inside
        have place := Registers.outside_eq_false_iff.mp (Bool.eq_false_iff.mpr inside)
        rw [ih counted, sum_modify_succ (by omega), List.length_cons]
        omega

/-- Where every operand has an entry, each entry grows by the number of its operands. -/
theorem tally?_eq (table : List Nat) {operands : List Int}
    (inside : ∀ qubit ∈ operands, 0 ≤ qubit ∧ qubit < table.length) :
    tally? table operands =
      some (table.mapIdx fun place count => count + operands.count (place : Int)) := by
  induction operands generalizing table with
  | nil =>
      simp only [tally?, List.count_nil, Nat.add_zero]
      rw [List.mapIdx_eq_zipIdx_map, List.zipIdx_map_fst]
  | cons qubit operands ih =>
      rw [List.forall_mem_cons] at inside
      have kept : Registers.outside table.length qubit = false :=
        Registers.outside_eq_false_iff.mpr inside.1
      have more := ih (table.modify qubit.toNat (· + 1))
        (by simpa only [List.length_modify] using inside.2)
      rw [tally?, kept, if_neg Bool.false_ne_true, more]
      congr 1
      refine List.ext_getElem (by simp) fun place below below' => ?_
      simp only [List.getElem_mapIdx, List.getElem_modify, List.count_cons]
      by_cases here : qubit.toNat = place
      · have same : qubit = (place : Int) := by omega
        simp [same]
        omega
      · have differ : qubit ≠ (place : Int) := by omega
        simp [here, differ]

namespace Usage

variable {circuit : Circuit α} (sound : circuit.Sound)

include sound

theorem within : ∀ qubit ∈ circuit.gates.flatMap Gate.qubits,
    0 ≤ qubit ∧ qubit < circuit.registers.qubits := by
  intro qubit used
  obtain ⟨gate, member, operand⟩ := List.mem_flatMap.mp used
  exact (sound.admitted gate member).1 qubit operand

/-- No operand of a circuit lies outside its register. -/
theorem tally?_eq_qubitUsage :
    tally? (List.replicate circuit.registers.qubits 0) (circuit.gates.flatMap Gate.qubits) =
      some (qubitUsage circuit) := by
  rw [tally?_eq _ (by simpa only [List.length_replicate] using within sound), qubitUsage]
  congr 1
  refine List.ext_getElem (by simp) fun place below below' => ?_
  simp

theorem sum_qubitUsage :
    (qubitUsage circuit).sum = circuit.gateCount + circuit.twoQubitCount := by
  rw [sum_of_tally? (tally?_eq_qubitUsage sound), List.sum_replicate, smul_zero, Nat.zero_add,
    Schedule.length_flatMap_qubits, ← sound.counted]
  rfl

/-- Qubits of the register are used as the table says, and no others are used. -/
theorem forall_mem_qubitUsage_iff (bound : Nat) :
    (∀ count ∈ qubitUsage circuit, count ≤ bound) ↔
      ∀ qubit, (circuit.gates.flatMap Gate.qubits).count qubit ≤ bound := by
  simp only [qubitUsage, List.forall_mem_map, List.mem_range]
  constructor
  · intro counts qubit
    by_cases used : qubit ∈ circuit.gates.flatMap Gate.qubits
    · obtain ⟨least, greatest⟩ := within sound qubit used
      have count := counts qubit.toNat (by omega)
      rwa [Int.toNat_of_nonneg least] at count
    · rw [List.count_eq_zero_of_not_mem used]
      exact Nat.zero_le bound
  · exact fun counts qubit _ => counts qubit

/-- The qubits in use are those of the layers. -/
theorem countP_qubitUsage :
    (qubitUsage circuit).countP (· != 0) =
      ((Schedule.layers circuit.gates).flatMap Layer.qubits).toFinset.card := by
  have used : ((Schedule.layers circuit.gates).flatMap Layer.qubits).toFinset =
      ((List.range circuit.registers.qubits).filter fun qubit : Nat =>
        decide ((qubit : Int) ∈ circuit.gates.flatMap Gate.qubits)).toFinset.image Nat.cast := by
    ext qubit
    rw [Schedule.flatMap_qubits_layers, List.mem_toFinset, Finset.mem_image]
    constructor
    · intro operand
      obtain ⟨least, greatest⟩ := within sound qubit operand
      refine ⟨qubit.toNat, ?_, Int.toNat_of_nonneg least⟩
      rw [List.mem_toFinset, List.mem_filter, List.mem_range, decide_eq_true_iff,
        Int.toNat_of_nonneg least]
      exact ⟨by omega, operand⟩
    · rintro ⟨place, member, rfl⟩
      exact of_decide_eq_true (List.mem_filter.mp (List.mem_toFinset.mp member)).2
  rw [used, Finset.card_image_of_injective _ Nat.cast_injective,
    List.toFinset_card_of_nodup (List.nodup_range.filter _), qubitUsage, List.countP_map,
    ← List.countP_eq_length_filter]
  refine List.countP_congr fun qubit _ => ?_
  simp [List.count_eq_zero]

end Usage

/-! ## Kinds -/

theorem sum_gateCounts_eq (circuit : Circuit α) :
    (circuit.gateCounts.map Prod.snd).sum = circuit.gateCount := by
  have kinds : (circuit.gates.map Gate.kind).eraseDups.toFinset =
      (circuit.gates.map Gate.kind).toFinset := by
    ext kind
    rw [List.mem_toFinset, List.mem_toFinset, List.mem_eraseDups]
  rw [Circuit.gateCounts, List.map_map, Circuit.gateCount, ← List.length_map Gate.kind,
    ← List.sum_toFinset_count_eq_length, ← kinds, List.sum_toFinset _ (Circuit.nodup_eraseDups _)]
  rfl

/-! ## Verdicts on Clifford gates -/

theorem view_quarterTurn : Binary64.view (Angle.quarterTurn : Float) =
    .finite ⟨false, 7074237752028440, -52⟩ := by
  decide +kernel

/-- A finite angle has a verdict. -/
theorem exists_isQuarterTurns {angle : Float} (finite : angle.isFinite = true) :
    ∃ verdict, isQuarterTurns angle = .ok verdict := by
  have ratio : Binary64.isFinite (angle / Angle.quarterTurn) = true :=
    Binary64.isFinite_div ((Binary64.isFinite_eq angle).trans finite) view_quarterTurn
      (by decide) (by decide)
  obtain ⟨parts, shape⟩ := Binary64.exists_view_of_isFinite ratio
  unfold isQuarterTurns
  dsimp only
  rw [Binary64.nearestInt?, shape]
  exact ⟨_, rfl⟩

/-- A gate whose angle has a verdict has one, unless it is a measurement. -/
theorem exists_isClifford? {ε : Type} {quarterTurns : α → Except ε Bool} {gate : Gate α}
    (decided : ∀ angle ∈ gate.params, ∃ verdict, quarterTurns angle = .ok verdict) :
    ∃ verdict, isClifford? quarterTurns gate.operation = .ok verdict ∧
      (verdict = none ↔ gate.kind = .measure) := by
  obtain ⟨operation, _⟩ := gate
  cases operation with
  | fixed | pair => exact ⟨_, rfl, iff_of_false nofun nofun⟩
  | measure => exact ⟨_, rfl, iff_of_true rfl rfl⟩
  | rotation axis qubit angle =>
      obtain ⟨verdict, tested⟩ := decided angle (.head _)
      exact ⟨some verdict, by rw [isClifford?, tested]; rfl, iff_of_false nofun nofun⟩

/-- Every verdict is for the one side or the other, or for a measurement. -/
theorem exists_verdicts {ε : Type} {quarterTurns : α → Except ε Bool} {gates : List (Gate α)}
    (decided : ∀ gate ∈ gates, ∀ angle ∈ gate.params, ∃ verdict, quarterTurns angle = .ok verdict) :
    ∃ verdicts, (gates.mapM fun gate => isClifford? quarterTurns gate.operation) = .ok verdicts ∧
      verdicts.count (some true) + verdicts.count (some false) +
        (gates.map Gate.kind).count .measure = gates.length := by
  induction gates with
  | nil => exact ⟨[], rfl, rfl⟩
  | cons gate gates ih =>
      rw [List.forall_mem_cons] at decided
      obtain ⟨verdicts, rest, total⟩ := ih decided.2
      obtain ⟨verdict, first, measured⟩ := exists_isClifford? decided.1
      refine ⟨verdict :: verdicts, by rw [List.mapM_cons, first, rest]; rfl, ?_⟩
      rw [List.map_cons, List.count_cons, List.count_cons, List.count_cons, List.length_cons,
        ← total]
      cases verdict with
      | none =>
          rw [measured.mp rfl]
          simp
          omega
      | some verdict =>
          have other : gate.kind ≠ .measure := fun isMeasure => nomatch measured.mpr isMeasure
          cases verdict <;> simp [other] <;> omega

/-- Every gate is counted on one side or the other, but for measurements. -/
theorem exists_countClifford {ε : Type} {quarterTurns : α → Except ε Bool} {gates : List (Gate α)}
    (decided : ∀ gate ∈ gates, ∀ angle ∈ gate.params, ∃ verdict, quarterTurns angle = .ok verdict) :
    ∃ counts, countClifford quarterTurns gates = .ok counts ∧
      counts.clifford + counts.nonClifford + (gates.map Gate.kind).count .measure =
        gates.length := by
  obtain ⟨verdicts, found, total⟩ := exists_verdicts decided
  exact ⟨⟨verdicts.count (some true), verdicts.count (some false)⟩,
    by rw [countClifford, found]; rfl, total⟩

/-! ## All figures -/

/-- Counting the uses of qubits stays within the register, and sums to the number of gates and of
gates on two qubits. No qubit is used more often than the critical path is long, which is at most
the depth, which is at most the number of gates; the depth is at most one exactly if no qubit is
used twice. The kinds sum to the number of gates, and the qubits in use are those of the layers. If
all angles are finite, the analysis has these figures, and its verdicts, together with the
measurements, sum to the number of gates. -/
theorem figures_agree {circuit : Circuit Float} (reachable : circuit.Reachable) :
    tally? (List.replicate circuit.registers.qubits 0) (circuit.gates.flatMap Gate.qubits) =
        some (qubitUsage circuit) ∧
      (qubitUsage circuit).sum = circuit.gateCount + circuit.twoQubitCount ∧
      (∀ count ∈ qubitUsage circuit, count ≤ Schedule.criticalPathLength circuit.gates) ∧
      Schedule.criticalPathLength circuit.gates ≤ circuit.depth ∧
      circuit.depth ≤ circuit.gateCount ∧
      (circuit.depth ≤ 1 ↔ ∀ count ∈ qubitUsage circuit, count ≤ 1) ∧
      (circuit.gateCounts.map Prod.snd).sum = circuit.gateCount ∧
      (qubitUsage circuit).countP (· != 0) =
        ((Schedule.layers circuit.gates).flatMap Layer.qubits).toFinset.card ∧
      ((∀ gate ∈ circuit.gates, ∀ angle ∈ gate.params, angle.isFinite = true) →
        ∃ analysis, ofCircuit circuit = .ok analysis ∧
          analysis.kindCounts = circuit.gateCounts ∧
          analysis.usage = qubitUsage circuit ∧
          analysis.activeQubits = (qubitUsage circuit).countP (· != 0) ∧
          analysis.depth = circuit.depth ∧
          analysis.criticalPath = Schedule.criticalPathLength circuit.gates ∧
          analysis.clifford.clifford + analysis.clifford.nonClifford +
            (circuit.gates.map Gate.kind).count .measure = circuit.gateCount) := by
  have sound := reachable.sound
  refine ⟨Usage.tally?_eq_qubitUsage sound, Usage.sum_qubitUsage sound,
    (Usage.forall_mem_qubitUsage_iff sound _).mpr (Schedule.count_le_criticalPathLength _),
    Schedule.criticalPathLength_le_depth _, Schedule.depth_le_length _, ?_,
    sum_gateCounts_eq circuit, Usage.countP_qubitUsage sound, fun finite => ?_⟩
  · rw [Usage.forall_mem_qubitUsage_iff sound]
    exact Schedule.depth_le_one_iff circuit.gates
  · obtain ⟨counts, counted, total⟩ := exists_countClifford fun gate member angle given =>
      exists_isQuarterTurns (finite gate member angle given)
    have depth : (positions 0 (Schedule.blocks circuit.gates)).length = circuit.depth := by
      rw [length_positions, Circuit.depth, Schedule.depth_eq_length_blocks]
    refine ⟨_, by rw [ofCircuit, parallelLayers?_eq, cliffordCounts, counted]; rfl,
      rfl, rfl, rfl, depth, rfl, total⟩

/-- Three qubits, of which the last is not used. -/
def unevenUse : Session.Step :=
  ⟨.ok (.text "a"), none, .text "a", .ok (.create (.document (.record [("num_qubits", .int 3),
    ("num_clbits", .int 1),
    ("gates", .list [
      .record [("kind", .text "H"), ("qubits", .list [.int 0])],
      .record [("kind", .text "CX"), ("qubits", .list [.int 1, .int 0])],
      .record [("kind", .text "RZ"), ("qubits", .list [.int 1]), ("params", .list [.float 0.5])],
      .record [("kind", .text "MEASURE"), ("qubits", .list [.int 1]),
        ("clbits", .list [.int 0])]])])))⟩

theorem figures_agree_unevenUse :
    ∃ circuit : Circuit Float, circuit.Reachable ∧ qubitUsage circuit = [2, 3, 0] ∧
      (qubitUsage circuit).sum = circuit.gateCount + circuit.twoQubitCount ∧
      ∃ analysis, ofCircuit circuit = .ok analysis ∧ analysis.depth = circuit.depth ∧
        analysis.clifford.clifford + analysis.clifford.nonClifford + 1 = 4 := by
  obtain ⟨circuit, history⟩ : ∃ circuit, Session.after Settings.standard [unevenUse] =
      [(Key.text "a", circuit)] := ⟨_, rfl⟩
  have reachable : circuit.Reachable := by
    refine ⟨Settings.standard, [], [unevenUse], .text "a", nofun, ?_⟩
    change _ ∈ Session.after Settings.standard [unevenUse]
    rw [history]
    exact .head _
  have shape : (Session.after Settings.standard [unevenUse]).map (fun entry =>
      (qubitUsage entry.2, entry.2.gates.map Gate.kind,
        entry.2.gates.all fun gate => gate.params.all Float.isFinite)) =
      [([2, 3, 0], [.fixed .h, .pair .cx, .rotation .z, .measure], true)] := by
    decide +kernel
  rw [history] at shape
  obtain ⟨usage, kinds, finite⟩ := by simpa using shape
  obtain ⟨-, sum, -, -, -, -, -, -, analyzed⟩ := figures_agree reachable
  obtain ⟨analysis, found, -, -, -, depth, -, total⟩ := analyzed finite
  have count : circuit.gateCount = 4 := by
    rw [Circuit.gateCount, ← List.length_map Gate.kind, kinds]
    rfl
  rw [kinds, count] at total
  exact ⟨circuit, reachable, usage, sum, analysis, found, depth, total⟩

end Analysis

end Peephole
