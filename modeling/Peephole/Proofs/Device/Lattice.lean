import Peephole.Proofs.Device.Document
import Peephole.Proofs.QubitGraph.Lattice

/-!
# Devices that are lattices

A grid or a line is asked for by its sides. The request works out the places along each side, and
from them the edges, which reach the device through the same readers as edges that were given one
by one; they come out as the graph they were taken from (`couplings_of_edges`). So the steps between
two places of the graph are the distance that the device tells, and one step is a connection
(`lattices_measured_by_steps`).
-/

namespace Peephole

namespace Device

variable {ρ : Type}

/-! ## Sides of a lattice -/

theorem places_of_side_int {size : Int} {places : List Datum}
    (read : side (.int size) = .ok places) :
    0 ≤ size ∧ places = (List.range size.toNat).map .ofNat := by
  simp only [side, Datum.number?] at read
  split at read
  · cases read
  · exact ⟨by omega, (Except.ok.inj read).symm⟩

theorem side_int {size : Int} (nonnegative : 0 ≤ size) :
    side (.int size) = .ok ((List.range size.toNat).map .ofNat) := by
  simp only [side, Datum.number?]
  rw [if_neg (by omega)]

theorem edges_of_gridEdges {rows columns : Int} {edges : Datum}
    (read : gridEdges (.int rows) (.int columns) = .ok edges) :
    0 ≤ rows ∧ 0 ≤ columns ∧
      edges = .list ((QubitGraph.grid rows.toNat columns.toNat).edges.map edgeDatum) := by
  obtain ⟨down, isDown, read⟩ := bind_eq_ok read
  obtain ⟨across, isAcross, read⟩ := bind_eq_ok read
  obtain ⟨-, -, read⟩ := bind_eq_ok read
  obtain ⟨nonnegative, rfl⟩ := places_of_side_int isDown
  obtain ⟨nonnegative', rfl⟩ := places_of_side_int isAcross
  split at read
  · obtain rfl := Except.ok.inj read
    rw [List.length_map, List.length_map, List.length_range, List.length_range]
    exact ⟨nonnegative, nonnegative', rfl⟩
  · cases read

theorem edges_of_lineEdges {size : Int} {edges : Datum} (read : lineEdges (.int size) = .ok edges) :
    edges = .list ((QubitGraph.line size.toNat).edges.map edgeDatum) := by
  obtain ⟨places, arePlaces, read⟩ := bind_eq_ok read
  obtain ⟨-, -, read⟩ := bind_eq_ok read
  obtain ⟨-, rfl⟩ := places_of_side_int arePlaces
  obtain rfl := Except.ok.inj read
  simp only [List.length_map, List.length_range]

theorem forM_eq_ok {ε β : Type} {check : β → Except ε Unit} {items : List β}
    (passed : ∀ item ∈ items, check item = .ok ()) : items.forM check = .ok () := by
  induction items with
  | nil => rfl
  | cons item items ih =>
      obtain ⟨first, rest⟩ := List.forall_mem_cons.mp passed
      rw [List.forM, first]
      exact ih rest

theorem gridEdges_int {rows columns : Int} (nonnegative : 0 ≤ rows) (nonnegative' : 0 ≤ columns) :
    gridEdges (.int rows) (.int columns) =
      .ok (.list ((QubitGraph.grid rows.toNat columns.toNat).edges.map edgeDatum)) := by
  have checked : checkLattice ((List.range rows.toNat).map .ofNat)
      ((List.range columns.toNat).map .ofNat) = .ok () := by
    refine forM_eq_ok fun row isRow => forM_eq_ok fun column isColumn => ?_
    obtain ⟨row, -, rfl⟩ := List.mem_map.mp isRow
    obtain ⟨column, -, rfl⟩ := List.mem_map.mp isColumn
    rfl
  have numbered (across down : Nat) : isNumbered (.int rows) (.int columns) across down = true :=
    Bool.or_true _
  simp only [gridEdges, side_int nonnegative, side_int nonnegative', checked, numbered, bind,
    Except.bind, List.length_map, List.length_range, if_true]
  rfl

theorem lineEdges_int {size : Int} (nonnegative : 0 ≤ size) :
    lineEdges (.int size) = .ok (.list ((QubitGraph.line size.toNat).edges.map edgeDatum)) := by
  have hashable : ((List.range size.toNat).map Datum.ofNat).all isHashable = true := by
    rw [List.all_map, List.all_eq_true]
    exact fun _ _ => rfl
  have checked : checkLine ((List.range size.toNat).map .ofNat) = .ok () := by
    have each : ((List.range size.toNat).map Datum.ofNat).forM checkPlace = .ok () := by
      refine forM_eq_ok fun place isPlace => ?_
      obtain ⟨place, -, rfl⟩ := List.mem_map.mp isPlace
      rfl
    simp only [checkLine, each, hashable, bind, Except.bind, Bool.not_true, Bool.and_false,
      Bool.false_eq_true, if_false]
    rfl
  simp only [lineEdges, side_int nonnegative, checked, bind, Except.bind, List.length_map,
    List.length_range]
  rfl

/-! ## Requests for lattices -/

theorem eq_of_byName {arguments : Arguments} {places required : List String} {all : Fields}
    (named : arguments.byName places required = .ok all) :
    all = ((places.take arguments.positional.length).map Key.text).zip arguments.positional ++
      arguments.named := by
  unfold Arguments.byName at named
  dsimp only at named
  split at named
  · cases named
  · split at named
    · cases named
    · split at named
      · exact (Except.ok.inj named).symm
      · cases named

theorem rule_eq_none {rules : Rules} {options : Fields} {rule : Option CouplingRule}
    (unruled : options.get? "connectivity" = none)
    (found : (options.get? "connectivity").mapM (ruleOf rules) = .ok rule) : rule = none := by
  rw [unruled] at found
  exact (Except.ok.inj found).symm

theorem exists_parts_of_grid {rules : Rules} {settings : Settings} {rows columns : Int}
    {options : Fields} {device : Device Float} (unruled : options.get? "connectivity" = none)
    (made : ofRequest rules settings .grid ⟨[.int rows, .int columns], options⟩ = .ok device) :
    ∃ parts, ofParts settings parts = .ok device ∧ parts.numQubits = .int (rows * columns) ∧
      gridEdges (.int rows) (.int columns) = .ok parts.edges ∧ parts.rule = none := by
  obtain ⟨rule, isRule, made⟩ := bind_eq_ok made
  obtain rfl := rule_eq_none unruled isRule
  obtain ⟨all, named, made⟩ := bind_eq_ok made
  obtain rfl := eq_of_byName named
  obtain ⟨size, isSize, made⟩ := bind_eq_ok made
  obtain rfl := Except.ok.inj isSize
  obtain ⟨edges, areEdges, made⟩ := bind_eq_ok made
  obtain ⟨parts, made, width, pairs, ruled⟩ := exists_parts_of_ofArguments made
  exact ⟨parts, made, width, pairs ▸ areEdges, ruled⟩

theorem exists_parts_of_line {rules : Rules} {settings : Settings} {size : Int}
    {options : Fields} {device : Device Float} (unruled : options.get? "connectivity" = none)
    (made : ofRequest rules settings .line ⟨[.int size], options⟩ = .ok device) :
    ∃ parts, ofParts settings parts = .ok device ∧ parts.numQubits = .int size ∧
      lineEdges (.int size) = .ok parts.edges ∧ parts.rule = none := by
  obtain ⟨rule, isRule, made⟩ := bind_eq_ok made
  obtain rfl := rule_eq_none unruled isRule
  obtain ⟨all, named, made⟩ := bind_eq_ok made
  obtain rfl := eq_of_byName named
  obtain ⟨edges, areEdges, made⟩ := bind_eq_ok made
  obtain ⟨parts, made, width, pairs, ruled⟩ := exists_parts_of_ofArguments made
  exact ⟨parts, made, width, pairs ▸ areEdges, ruled⟩

theorem readWidth_of_ofParts {settings : Settings} {parts : Parts} {device : Device Float}
    (made : ofParts settings parts = .ok device) :
    readWidth parts.numQubits = .ok device.numQubits := by
  obtain ⟨size, width, made⟩ := bind_eq_ok made
  obtain ⟨edges, -, made⟩ := bind_eq_ok made
  obtain ⟨errorRates, -, made⟩ := bind_eq_ok made
  obtain ⟨durations, -, made⟩ := bind_eq_ok made
  obtain ⟨fallback, -, made⟩ := bind_eq_ok made
  obtain rfl := Except.ok.inj made
  rwa [numQubits, size_couplingsOf]

theorem eq_of_readWidth_int {width : Int} {size : Nat} (read : readWidth (.int width) = .ok size) :
    0 < width ∧ size = width.toNat := by
  obtain ⟨given, same, judged⟩ := bind_eq_ok read
  obtain rfl := Except.ok.inj same
  split at judged
  · cases judged
  · exact ⟨by omega, (Except.ok.inj judged).symm⟩

/-- A device that was made of the edges of a graph has this graph. -/
theorem couplings_of_edges {settings : Settings} {parts : Parts} {device : Device Float}
    (made : ofParts settings parts = .ok device) {graph : QubitGraph} (tidy : graph.Tidy)
    (ordered : graph.Ordered) (width : device.numQubits = graph.size)
    (edges : parts.edges = .list (graph.edges.map edgeDatum)) : device.couplings = graph := by
  obtain ⟨pairs, read, -, coupled⟩ := exists_couplings_of_ofParts made
  rw [edges, width, readEdges_edges tidy] at read
  obtain rfl := Except.ok.inj read
  rw [coupled, width]
  exact QubitGraph.ofPairs_edges tidy ordered

/-! ## Steps on a lattice -/

/-- Qubits are as far apart as a number of steps says, and connected just if this is one. -/
def MeasuredBy (device : Device ρ) (steps : Int → Int → Nat) : Prop :=
  ∀ left right : Int, device.contains left = true → device.contains right = true →
    device.distance? left right = some (steps left right) ∧
      (device.isConnected left right = true ↔ steps left right = 1)

theorem stepsApart_toNat {left right : Int} (first : 0 ≤ left) (second : 0 ≤ right)
    (columns : Nat) :
    QubitGraph.stepsApart columns left.toNat right.toNat =
      (left / columns - right / columns).natAbs + (left % columns - right % columns).natAbs := by
  rw [QubitGraph.stepsApart, Int.natCast_ediv, Int.natCast_ediv, Int.natCast_emod,
    Int.natCast_emod, Int.toNat_of_nonneg first, Int.toNat_of_nonneg second]

theorem measuredBy_of_couplings {device : Device ρ} {rows columns : Nat}
    (coupled : device.couplings = .grid rows columns) (unruled : device.rule = none) :
    device.MeasuredBy fun left right =>
      (left / columns - right / columns).natAbs + (left % columns - right % columns).natAbs := by
  intro left right first second
  have size : device.numQubits = rows * columns := by
    rw [numQubits, coupled]
    rfl
  have least := contains_iff.mp first
  have greatest := contains_iff.mp second
  rw [size] at least greatest
  have inside : left.toNat < rows * columns := by omega
  have inside' : right.toNat < rows * columns := by omega
  dsimp only
  rw [← stepsApart_toNat least.1 greatest.1]
  constructor
  · rw [distance?_eq first second, coupled]
    exact QubitGraph.distance?_grid inside inside'
  · by_cases same : left = right
    · rw [isConnected_eq_false (by tauto), same, QubitGraph.stepsApart_eq_zero_iff.mpr rfl]
      exact ⟨fun refused => absurd refused Bool.false_ne_true, fun zero => absurd zero (by decide)⟩
    · rw [isConnected_eq first second same, unruled, coupled]
      exact QubitGraph.hasEdge_grid inside inside'

theorem measuredBy_of_grid {rules : Rules} {settings : Settings} {rows columns : Int}
    {options : Fields} {device : Device Float} (unruled : options.get? "connectivity" = none)
    (made : ofRequest rules settings .grid ⟨[.int rows, .int columns], options⟩ = .ok device) :
    (device.numQubits : Int) = rows * columns ∧ device.MeasuredBy fun left right =>
      (left / columns - right / columns).natAbs + (left % columns - right % columns).natAbs := by
  obtain ⟨parts, assembled, width, pairs, noRule⟩ := exists_parts_of_grid unruled made
  obtain ⟨nonnegative, nonnegative', edges⟩ := edges_of_gridEdges pairs
  have size := readWidth_of_ofParts assembled
  rw [width] at size
  obtain ⟨positive, size⟩ := eq_of_readWidth_int size
  obtain ⟨rows, rfl⟩ := Int.eq_ofNat_of_zero_le nonnegative
  obtain ⟨columns, rfl⟩ := Int.eq_ofNat_of_zero_le nonnegative'
  have coupled := couplings_of_edges assembled (QubitGraph.tidy_grid rows columns)
    (QubitGraph.ordered_grid rows columns) size edges
  obtain ⟨-, -, ruled, -⟩ := exists_couplings_of_ofParts assembled
  refine ⟨?_, measuredBy_of_couplings coupled (ruled.trans noRule)⟩
  rw [size, Int.toNat_of_nonneg positive.le]

/-- The only row of a line does not count. -/
theorem measuredBy_of_line {rules : Rules} {settings : Settings} {size : Int} {options : Fields}
    {device : Device Float} (unruled : options.get? "connectivity" = none)
    (made : ofRequest rules settings .line ⟨[.int size], options⟩ = .ok device) :
    (device.numQubits : Int) = size ∧
      device.MeasuredBy fun left right => (left - right).natAbs := by
  obtain ⟨parts, assembled, width, pairs, noRule⟩ := exists_parts_of_line unruled made
  have qubits := readWidth_of_ofParts assembled
  rw [width] at qubits
  obtain ⟨positive, qubits⟩ := eq_of_readWidth_int qubits
  obtain ⟨size, rfl⟩ := Int.eq_ofNat_of_zero_le positive.le
  have edges := edges_of_lineEdges pairs
  rw [Int.toNat_natCast] at qubits edges
  rw [QubitGraph.line_eq_grid] at edges
  have coupled := couplings_of_edges assembled (QubitGraph.tidy_grid 1 size)
    (QubitGraph.ordered_grid 1 size) (qubits.trans (Nat.one_mul size).symm) edges
  obtain ⟨-, -, ruled, -⟩ := exists_couplings_of_ofParts assembled
  refine ⟨congrArg Nat.cast qubits, fun left right first second => ?_⟩
  have measured := measuredBy_of_couplings coupled (ruled.trans noRule) left right first second
  rw [contains_iff, qubits] at first second
  dsimp only at measured
  rwa [Int.ediv_eq_zero_of_lt first.1 first.2, Int.ediv_eq_zero_of_lt second.1 second.2,
    Int.emod_eq_of_lt first.1 first.2, Int.emod_eq_of_lt second.1 second.2, Int.sub_self,
    Int.natAbs_zero, Nat.zero_add] at measured

/-! ## Lattices that are made -/

theorem readWidth_int {width : Int} (positive : 0 < width) :
    readWidth (.int width) = .ok width.toNat := by
  simp only [readWidth, Datum.toIndex, bind, Except.bind]
  rw [if_neg (by omega)]
  rfl

theorem ofParts_edges {settings : Settings} {rate : Float}
    (fallback : readFallback settings.fallbackErrorRate = .ok rate) {width : Int}
    (positive : 0 < width) {graph : QubitGraph} (tidy : graph.Tidy)
    (size : graph.size = width.toNat) (name : Datum) :
    ∃ device, ofParts settings ⟨.int width, .list (graph.edges.map edgeDatum), .null, .null, none,
      .null, name⟩ = .ok device :=
  ⟨_, ofParts_eq (readWidth_int positive) (size ▸ readEdges_edges tidy) rfl rfl fallback⟩

theorem ofRequest_grid (rules : Rules) (settings : Settings) {rows columns : Int} {edges : Datum}
    (found : gridEdges (.int rows) (.int columns) = .ok edges) :
    ofRequest rules settings .grid ⟨[.int rows, .int columns], []⟩ =
      ofParts settings ⟨.int (rows * columns), edges, .null, .null, none, .null, .text ""⟩ := by
  change (gridEdges (.int rows) (.int columns) >>= _) = _
  rw [found]
  rfl

theorem ofRequest_line (rules : Rules) (settings : Settings) {size : Int} {edges : Datum}
    (found : lineEdges (.int size) = .ok edges) :
    ofRequest rules settings .line ⟨[.int size], []⟩ =
      ofParts settings ⟨.int size, edges, .null, .null, none, .null, .text ""⟩ := by
  change (lineEdges (.int size) >>= _) = _
  rw [found]
  rfl

/-- On a lattice that is asked for without a rule, qubits are as far apart as the rows and columns
between them, counted row by row, and connected just if this is one row or one column; on a line
they are as far apart as their numbers. Such devices are made unless the setting for the fallback
rate is none. -/
theorem lattices_measured_by_steps (rules : Rules) (settings : Settings) :
    (∀ (rows columns : Int) (options : Fields) (device : Device Float),
      options.get? "connectivity" = none →
      ofRequest rules settings .grid ⟨[.int rows, .int columns], options⟩ = .ok device →
        (device.numQubits : Int) = rows * columns ∧ device.MeasuredBy fun left right =>
          (left / columns - right / columns).natAbs +
            (left % columns - right % columns).natAbs) ∧
      (∀ (size : Int) (options : Fields) (device : Device Float),
        options.get? "connectivity" = none →
        ofRequest rules settings .line ⟨[.int size], options⟩ = .ok device →
          (device.numQubits : Int) = size ∧
            device.MeasuredBy fun left right => (left - right).natAbs) ∧
      ∀ rate, readFallback settings.fallbackErrorRate = .ok rate →
        (∀ rows columns : Int, 1 ≤ rows → 1 ≤ columns → ∃ device,
          ofRequest rules settings .grid ⟨[.int rows, .int columns], []⟩ = .ok device) ∧
        ∀ size : Int, 1 ≤ size → ∃ device,
          ofRequest rules settings .line ⟨[.int size], []⟩ = .ok device := by
  refine ⟨fun _ _ _ _ => measuredBy_of_grid, fun _ _ _ => measuredBy_of_line,
    fun rate fallback => ⟨?_, ?_⟩⟩
  · intro rows columns tall wide
    have edges := gridEdges_int (show 0 ≤ rows by omega) (show 0 ≤ columns by omega)
    have width : rows.toNat * columns.toNat = (rows * columns).toNat :=
      (Int.toNat_mul (by omega) (by omega)).symm
    rw [ofRequest_grid rules settings edges]
    exact ofParts_edges fallback (Int.mul_pos tall wide) (QubitGraph.tidy_grid _ _) width _
  · intro size long
    rw [ofRequest_line rules settings (lineEdges_int (by omega)), QubitGraph.line_eq_grid]
    exact ofParts_edges fallback long (QubitGraph.tidy_grid _ _) (Nat.one_mul _) _

/-- Two rows of three qubits. The end of the first row is not next to the start of the second. -/
theorem rows_do_not_wrap :
    ∃ device, ofRequest CouplingRule.ofName? Settings.standard .grid ⟨[.int 2, .int 3], []⟩ =
        .ok device ∧
      device.distance? 2 3 = some 3 ∧ device.isConnected 2 3 = false ∧
      device.distance? 1 4 = some 1 ∧ device.isConnected 1 4 = true := by
  obtain ⟨grids, -, made⟩ := lattices_measured_by_steps CouplingRule.ofName? Settings.standard
  obtain ⟨device, isDevice⟩ := (made 0.01 (readFallback_float (by decide))).1 2 3 (by decide)
    (by decide)
  obtain ⟨size, measured⟩ := grids 2 3 [] device rfl isDevice
  have inside : ∀ qubit : Int, 0 ≤ qubit → qubit < 6 → device.contains qubit = true := by
    intro qubit least greatest
    rw [contains_iff, size]
    exact ⟨least, greatest⟩
  obtain ⟨apart, unconnected⟩ := measured 2 3 (inside 2 (by decide) (by decide))
    (inside 3 (by decide) (by decide))
  obtain ⟨close, connected⟩ := measured 1 4 (inside 1 (by decide) (by decide))
    (inside 4 (by decide) (by decide))
  refine ⟨device, isDevice, apart, ?_, close, connected.mpr (by decide)⟩
  exact Bool.eq_false_of_not_eq_true fun linked => absurd (unconnected.mp linked) (by decide)

end Device
end Peephole
