import Peephole.Device.Query
import Peephole.Proofs.Device.Coupling
import Peephole.Proofs.Gate.Kind

/-!
# Devices through documents

Whatever a device is made of, it keeps its parts in one form only: couplings as edges in order, each
once and with its lower end first, and tables with every kind once, under its canonical name
(`orderly_of_ofParts`). A document holds the parts in this form, and reading them changes nothing
more, so the device that is read is the one that was written, but for the rule (`ofDatum_toDatum`).
The edges tell what the rule did, unless the rule was given beside other edges
(`written_device_reads_back`).
-/

namespace Peephole

/-! ## Tables -/

namespace Calibration

/-- A table as it is read: every kind once, under its canonical name, with a value that is
admitted. -/
structure Canonical (quantity : Quantity) (table : Calibration Float) : Prop where
  distinct : (table.map Prod.fst).Nodup
  named : ∀ entry ∈ table, GateKind.canonicalName entry.1 = entry.1
  admitted : ∀ entry ∈ table, quantity.admits entry.2 = true

theorem canonical_nil (quantity : Quantity) : Canonical quantity [] :=
  ⟨List.nodup_nil, fun _ member => absurd member List.not_mem_nil,
    fun _ member => absurd member List.not_mem_nil⟩

theorem set_of_not_mem {ρ : Type} {table : Calibration ρ} {name : String}
    (new : name ∉ table.map Prod.fst) (value : ρ) :
    table.set name value = table ++ [(name, value)] := by
  induction table with
  | nil => rfl
  | cons entry table ih =>
      obtain ⟨present, old⟩ := entry
      rw [List.map_cons, List.mem_cons, not_or] at new
      rw [set, beq_false_of_ne (Ne.symm new.1), if_neg Bool.false_ne_true, ih new.2,
        List.cons_append]

theorem map_fst_set_of_mem {ρ : Type} {table : Calibration ρ} {name : String}
    (present : name ∈ table.map Prod.fst) (value : ρ) :
    (table.set name value).map Prod.fst = table.map Prod.fst := by
  induction table with
  | nil => cases present
  | cons entry table ih =>
      obtain ⟨first, old⟩ := entry
      rw [List.map_cons, List.mem_cons] at present
      rw [set]
      split
      · rfl
      · rename_i differ
        have later : name ∈ table.map Prod.fst :=
          present.resolve_left fun same => differ (beq_iff_eq.mpr same.symm)
        rw [List.map_cons, ih later, List.map_cons]

theorem mem_set {ρ : Type} {table : Calibration ρ} {name : String} {value : ρ}
    {entry : String × ρ} (member : entry ∈ table.set name value) :
    entry ∈ table ∨ entry = (name, value) := by
  induction table with
  | nil => exact .inr (List.mem_singleton.mp member)
  | cons first table ih =>
      obtain ⟨present, old⟩ := first
      rw [set] at member
      split at member
      · rename_i same
        rcases List.mem_cons.mp member with rfl | later
        · exact .inr (by rw [eq_of_beq same])
        · exact .inl (.tail _ later)
      · rcases List.mem_cons.mp member with rfl | later
        · exact .inl (.head _)
        · exact (ih later).imp_left (.tail _)

theorem Canonical.set {quantity : Quantity} {table : Calibration Float}
    (canonical : Canonical quantity table) {name : String} {value : Float}
    (named : GateKind.canonicalName name = name) (admitted : quantity.admits value = true) :
    Canonical quantity (table.set name value) := by
  refine ⟨?_, fun entry member => ?_, fun entry member => ?_⟩
  · by_cases present : name ∈ table.map Prod.fst
    · rw [map_fst_set_of_mem present]
      exact canonical.distinct
    · rw [set_of_not_mem present, List.map_append, List.nodup_append_comm]
      exact List.nodup_cons.mpr ⟨present, canonical.distinct⟩
  · rcases mem_set member with old | rfl
    · exact canonical.named entry old
    · exact named
  · rcases mem_set member with old | rfl
    · exact canonical.admitted entry old
    · exact admitted

theorem canonical_readEntries {quantity : Quantity} {entries : List (Subject × Datum)}
    {table : Calibration Float} (read : readEntries quantity entries [] = .ok table) :
    Canonical quantity table :=
  induction_of_readEntries
    (fun _ subject _ canonical admitted =>
      canonical.set (GateKind.canonicalName_subject subject) admitted) (canonical_nil quantity) read

theorem canonical_of_ofDatum {quantity : Quantity} {datum : Datum} {table : Calibration Float}
    (read : ofDatum quantity datum = .ok table) : Canonical quantity table := by
  obtain ⟨entries, read⟩ := exists_entries_of_ofDatum read
  exact canonical_readEntries read

/-- The entries of a table as they are written. -/
def fields (table : Calibration Float) : Fields :=
  table.map fun entry => (.text entry.1, .float entry.2)

theorem toDatum_eq (table : Calibration Float) : table.toDatum = .map table.fields := by
  rw [toDatum, Datum.record, List.map_map]
  rfl

/-- Reading the rest of a table adds it to what has been read. -/
theorem readEntries_fields {quantity : Quantity} {known rest : Calibration Float}
    (canonical : Canonical quantity (known ++ rest)) :
    readEntries quantity (entriesOf (fields rest)) known = .ok (known ++ rest) := by
  induction rest generalizing known with
  | nil =>
      rw [List.append_nil]
      rfl
  | cons entry rest ih =>
      obtain ⟨name, value⟩ := entry
      have listed : (name, value) ∈ known ++ (name, value) :: rest := by simp
      have read : readEntry quantity (.key (.text name)) (.float value) = .ok value :=
        readEntry_eq_ok_iff.mpr ⟨rfl, canonical.admitted (name, value) listed⟩
      have named : (Subject.key (.text name)).name = name := canonical.named (name, value) listed
      have new : name ∉ known.map Prod.fst := by
        have distinct := canonical.distinct
        rw [List.map_append, List.map_cons, List.nodup_append] at distinct
        exact fun old => distinct.2.2 name old name (.head _) rfl
      have step : readEntries quantity (entriesOf (fields ((name, value) :: rest))) known =
          readEntries quantity (entriesOf (fields rest))
            (known.set (Subject.key (.text name)).name value) := by
        change (readEntry quantity (.key (.text name)) (.float value) >>= _) = _
        rw [read]
        rfl
      have next : known ++ (name, value) :: rest = (known ++ [(name, value)]) ++ rest :=
        List.append_cons known _ rest
      rw [next] at canonical
      rw [step, named, set_of_not_mem new, ih canonical, next]

/-- A table is read as it was written. -/
theorem ofDatum_toDatum {quantity : Quantity} {table : Calibration Float}
    (canonical : Canonical quantity table) : ofDatum quantity table.toDatum = .ok table := by
  rw [toDatum_eq, ofDatum]
  cases table with
  | nil => rfl
  | cons entry table =>
      rw [if_neg (by exact Bool.false_ne_true)]
      exact readEntries_fields (List.nil_append _ ▸ canonical)

end Calibration

/-! ## Parts of devices -/

namespace Device

/-- What is known of a device that was made of parts: they are in the form in which documents hold
them. -/
structure Orderly (device : Device Float) : Prop where
  hasQubit : 0 < device.numQubits
  tidy : device.couplings.Tidy
  ordered : device.couplings.Ordered
  complete : device.isAllToAll = true → device.couplings = .complete device.numQubits
  errorRates : Calibration.Canonical Calibration.errorRate device.errorRates
  durations : ∀ table ∈ device.durations, Calibration.Canonical Calibration.duration table
  fallback : Calibration.errorRate.admits device.fallbackRate = true

theorem ordered_couplingsOf (size : Nat) (edges : Option (List (Nat × Nat)))
    (rule : Option CouplingRule) : (couplingsOf size edges rule).Ordered := by
  cases edges with
  | some pairs => exact QubitGraph.ordered_ofPairs size pairs
  | none => cases rule <;> exact QubitGraph.ordered_ofRelation _ _

theorem pos_of_readWidth {width : Datum} {size : Nat} (read : readWidth width = .ok size) :
    0 < size := by
  obtain ⟨given, -, judged⟩ := bind_eq_ok read
  split at judged
  · cases judged
  · obtain rfl := Except.ok.inj judged
    omega

theorem name_of_ofParts {settings : Settings} {parts : Parts} {device : Device Float}
    (made : ofParts settings parts = .ok device) : device.name = parts.name := by
  obtain ⟨size, -, made⟩ := bind_eq_ok made
  obtain ⟨edges, -, made⟩ := bind_eq_ok made
  obtain ⟨errorRates, -, made⟩ := bind_eq_ok made
  obtain ⟨durations, -, made⟩ := bind_eq_ok made
  obtain ⟨fallback, -, made⟩ := bind_eq_ok made
  obtain rfl := Except.ok.inj made
  rfl

theorem orderly_of_ofParts {settings : Settings} {parts : Parts} {device : Device Float}
    (made : ofParts settings parts = .ok device) : device.Orderly := by
  have tidy := tidy_of_ofParts made
  have calibrated := calibrated_of_ofParts made
  obtain ⟨size, width, made⟩ := bind_eq_ok made
  obtain ⟨edges, -, made⟩ := bind_eq_ok made
  obtain ⟨errorRates, rates, made⟩ := bind_eq_ok made
  obtain ⟨durations, times, made⟩ := bind_eq_ok made
  obtain ⟨fallback, rate, made⟩ := bind_eq_ok made
  obtain rfl := Except.ok.inj made
  refine ⟨?_, tidy, ordered_couplingsOf _ _ _, ?_, Calibration.canonical_of_ofDatum rates, ?_,
    admits_of_readFallback rate⟩
  · rw [numQubits, size_couplingsOf]
    exact pos_of_readWidth width
  · intro all
    obtain ⟨noEdges, noRule⟩ := Bool.and_eq_true_iff.mp all
    obtain rfl := Option.isNone_iff_eq_none.mp noEdges
    rw [numQubits, size_couplingsOf]
    dsimp only
    rw [Option.isNone_iff_eq_none.mp noRule]
    rfl
  · rintro table ⟨⟩
    exact Calibration.canonical_of_ofDatum (ofDatum_of_readDurations times)

/-! ## Reading what is written -/

/-- The device without the rule, which documents do not hold. -/
def withoutRule (device : Device Float) : Device Float :=
  { device with rule := none }

theorem readEdge_edgeDatum {size : Nat} {edge : Nat × Nat} (lower : edge.1 < edge.2)
    (inside : edge.2 < size) : readEdge size (edgeDatum edge) = .ok edge := by
  obtain ⟨low, high⟩ := edge
  have first : Registers.outside size low = false :=
    Registers.outside_eq_false_iff.mpr (by dsimp only at *; omega)
  have second : Registers.outside size high = false :=
    Registers.outside_eq_false_iff.mpr (by dsimp only at *; omega)
  change (if (Registers.outside size low || Registers.outside size high) = true then
    throw (Fault.edgeOutside low high size) else pure (low, high)) = _
  rw [first, second]
  rfl

/-- Edges are read as they are written. -/
theorem readEdges_edges {graph : QubitGraph} (tidy : graph.Tidy) :
    readEdges graph.size (.list (graph.edges.map edgeDatum)) = .ok (some graph.edges) := by
  have read : (graph.edges.map edgeDatum).mapM (readEdge graph.size) = .ok graph.edges := by
    rw [mapM_eq_ok_iff, List.forall₂_map_left_iff, List.forall₂_same]
    exact fun edge listed => readEdge_edgeDatum (tidy edge listed).1 (tidy edge listed).2
  simp only [readEdges, Datum.elements, bind, Except.bind, read]
  rfl

/-- The entries of a device. -/
def entries (device : Device Float) : List (String × Datum) :=
  [("name", device.name), ("num_qubits", .ofNat device.numQubits),
      ("error_rates", device.errorRates.toDatum),
      ("fallback_error_rate", .float device.fallbackRate),
      if device.isAllToAll then ("all_to_all", .bool true)
      else ("edges", edgesDatum device)] ++
    match device.durations with
    | some table => [("gate_durations", table.toDatum)]
    | none => []

theorem toDatum_eq (device : Device Float) : device.toDatum = .record device.entries :=
  rfl

theorem lookup_edges (device : Device Float) :
    device.entries.lookup "edges" = if device.isAllToAll then none else some device.edgesDatum := by
  unfold entries
  cases device.durations <;> cases device.isAllToAll <;> rfl

theorem lookup_allToAll (device : Device Float) :
    device.entries.lookup "all_to_all" = if device.isAllToAll then some (.bool true) else none := by
  unfold entries
  cases device.durations <;> cases device.isAllToAll <;> rfl

theorem lookup_durations (device : Device Float) :
    (device.entries.lookup "gate_durations").getD .null =
      (device.durations.map Calibration.toDatum).getD .null := by
  unfold entries
  cases device.durations <;> cases device.isAllToAll <;> rfl

/-- Every edge is taken apart and put together again. -/
theorem mapM_elements_edgeDatum (edges : List (Nat × Nat)) :
    (edges.map edgeDatum).mapM (fun edge => do return Datum.list (← edge.elements)) =
      (.ok (edges.map edgeDatum) : Except Fault (List Datum)) := by
  rw [mapM_eq_ok_iff, List.forall₂_same]
  intro edge listed
  obtain ⟨pair, -, rfl⟩ := List.mem_map.mp listed
  rfl

theorem edgesOf_entries (device : Device Float) :
    edgesOf (device.entries.map fun entry => (.text entry.1, entry.2)) =
      .ok (if device.isAllToAll then .null else device.edgesDatum) := by
  simp only [edgesOf, Fields.get?_record, lookup_edges, lookup_allToAll]
  cases device.isAllToAll with
  | true => rfl
  | false =>
      simp only [Bool.false_eq_true, if_false, Option.getD_some, Option.getD_none, edgesDatum,
        Datum.isVoid, if_true, Datum.elements, bind, Except.bind]
      exact congrArg (fun read => read >>= fun edges => .ok (Datum.list edges))
        (mapM_elements_edgeDatum device.couplings.edges)

theorem readEdges_entries {device : Device Float} (orderly : device.Orderly) :
    ∃ edges, readEdges device.numQubits
        (if device.isAllToAll then .null else device.edgesDatum) = .ok edges ∧
      couplingsOf device.numQubits edges none = device.couplings ∧
      edges.isNone = device.isAllToAll := by
  cases all : device.isAllToAll with
  | true => exact ⟨none, rfl, (orderly.complete all).symm, rfl⟩
  | false =>
      exact ⟨_, readEdges_edges orderly.tidy,
        QubitGraph.ofPairs_edges orderly.tidy orderly.ordered, rfl⟩

theorem readDurations_entries {device : Device Float} (orderly : device.Orderly) :
    readDurations ((device.entries.lookup "gate_durations").getD .null) = .ok device.durations := by
  rw [lookup_durations]
  cases told : device.durations with
  | none => rfl
  | some table =>
      have read := Calibration.ofDatum_toDatum (orderly.durations table told)
      rw [Option.map_some, Option.getD_some, Calibration.toDatum_eq]
      rw [Calibration.toDatum_eq] at read
      simp only [readDurations, read, bind, Except.bind]
      rfl

/-- A device that is named by a text is read as it was written, but for the rule. -/
theorem ofDatum_toDatum {device : Device Float} (orderly : device.Orderly) {name : String}
    (named : device.name = .text name) (settings : Settings) :
    ofDatum settings device.toDatum = .ok device.withoutRule := by
  obtain ⟨edges, read, coupled, complete⟩ := readEdges_entries orderly
  have width : device.entries.lookup "num_qubits" = some (.ofNat device.numQubits) := rfl
  have rates : device.entries.lookup "error_rates" = some device.errorRates.toDatum := rfl
  have fallback : device.entries.lookup "fallback_error_rate" =
      some (.float device.fallbackRate) := rfl
  have label : device.entries.lookup "name" = some (.text name) := by
    rw [← named]
    rfl
  have made : ofParts settings
      ⟨.ofNat device.numQubits, if device.isAllToAll then .null else device.edgesDatum,
        device.errorRates.toDatum, (device.entries.lookup "gate_durations").getD .null, none,
        .float device.fallbackRate, .text name⟩ =
      .ok ⟨.text name, couplingsOf device.numQubits edges none, none, edges.isNone && true,
        device.errorRates, device.durations, device.fallbackRate⟩ :=
    ofParts_eq (readWidth_ofNat orderly.hasQubit) read
      (Calibration.ofDatum_toDatum orderly.errorRates) (readDurations_entries orderly)
      (readFallback_float orderly.fallback)
  rw [coupled, complete, Bool.and_true] at made
  have same : (⟨.text name, device.couplings, none, device.isAllToAll, device.errorRates,
      device.durations, device.fallbackRate⟩ : Device Float) = device.withoutRule := by
    rw [← named]
    rfl
  rw [toDatum_eq]
  simp only [ofDatum, Datum.record, mentionsWidth, Datum.fields, Fields.get?_record, width, rates,
    fallback, label, edgesOf_entries, bind, Except.bind, Option.isSome_some, if_true,
    Option.getD_some, Datum.toText_text]
  exact made.trans (congrArg _ same)

/-! ## The device that is read -/

/-- An unambiguous device connects the same qubits without its rule. -/
theorem isConnected_withoutRule {device : Device Float} (unambiguous : device.Unambiguous)
    (left right : Int) :
    device.withoutRule.isConnected left right = device.isConnected left right := by
  by_cases usable : device.contains left = true ∧ device.contains right = true ∧ left ≠ right
  · obtain ⟨first, second, distinct⟩ := usable
    have linked : device.withoutRule.isConnected left right =
        device.couplings.hasEdge left.toNat right.toNat := isConnected_eq first second distinct
    rw [linked, unambiguous_iff.mp unambiguous left right first second distinct]
  · rw [isConnected_eq_false usable, isConnected_eq_false (by exact usable)]

/-- A device that was made of edges, of a symmetric rule or of neither is read from its document,
and cannot be told from the one that is read. The document says the same of both. -/
theorem written_device_reads_back {settings : Settings} {parts : Parts} {device : Device Float}
    (made : ofParts settings parts = .ok device) {name : String} (named : parts.name = .text name)
    (single : parts.edges = .null ∨ parts.rule = none) (symmetric : device.Symmetric)
    (reader : Settings) :
    ∃ again, ofDatum reader device.toDatum = .ok again ∧
      again.numQubits = device.numQubits ∧ again.name = device.name ∧
      again.isAllToAll = device.isAllToAll ∧ again.fallbackRate = device.fallbackRate ∧
      (∀ left right : Int, again.isConnected left right = device.isConnected left right ∧
        again.distance? left right = device.distance? left right) ∧
      (∀ kind : Datum, again.errorRateOf kind = device.errorRateOf kind ∧
        again.durationOf? kind = device.durationOf? kind) ∧
      again.toDatum = device.toDatum := by
  have unambiguous := unambiguous_of_ofParts made symmetric single
  have label : device.name = .text name := by
    rw [← named]
    exact name_of_ofParts made
  exact ⟨device.withoutRule, ofDatum_toDatum (orderly_of_ofParts made) label reader, rfl, rfl, rfl,
    rfl, fun left right => ⟨isConnected_withoutRule unambiguous left right, rfl⟩,
    fun _ => ⟨rfl, rfl⟩, rfl⟩

/-- A rule that couples the first of three qubits with the others, the rate of a kind under another
name of it, and durations that say nothing. -/
def starredParts : Parts where
  numQubits := .ofNat 3
  edges := .null
  errorRates := .map [(.text "cnot", .float 0.5)]
  durations := .map []
  rule := some CouplingRule.star
  fallbackRate := .float 0.25
  name := .text "star"

def starred : Device Float where
  name := .text "star"
  couplings := couplingsOf 3 none (some CouplingRule.star)
  rule := some CouplingRule.star
  isAllToAll := false
  errorRates := [("CX", 0.5)]
  durations := some []
  fallbackRate := 0.25

theorem ofParts_starredParts : ofParts Settings.standard starredParts = .ok starred := by
  have rates : Calibration.ofDatum Calibration.errorRate starredParts.errorRates =
      .ok starred.errorRates := by
    have read : Calibration.readEntry Calibration.errorRate (.key (.text "cnot")) (.float 0.5) =
        .ok 0.5 := Calibration.readEntry_eq_ok_iff.mpr ⟨rfl, by decide⟩
    have named : (Calibration.Subject.key (.text "cnot")).name = "CX" := by decide +kernel
    rw [starredParts, Calibration.ofDatum, if_neg (by decide)]
    change (Calibration.readEntry Calibration.errorRate (.key (.text "cnot")) (.float 0.5) >>=
      fun value => .ok [((Calibration.Subject.key (.text "cnot")).name, value)]) = _
    rw [read, named]
    rfl
  exact ofParts_eq (readWidth_ofNat (by decide)) rfl rates rfl (readFallback_float (by decide))

theorem starred_reads_back :
    ofParts Settings.standard starredParts = .ok starred ∧ starred.Symmetric ∧
      ∃ again, ofDatum Settings.standard starred.toDatum = .ok again ∧
        again.isConnected 2 0 = true ∧ again.distance? 1 2 = starred.distance? 1 2 ∧
        again.errorRateOf (.text "cnot") = starred.errorRateOf (.text "cnot") ∧
        again.durationOf? (.text "h") = some 0 ∧ again.toDatum = starred.toDatum := by
  have symmetric : starred.Symmetric := by
    rintro _ ⟨⟩ left right - -
    exact Bool.or_comm _ _
  obtain ⟨again, read, -, -, -, -, connected, kinds, written⟩ := written_device_reads_back
    ofParts_starredParts rfl (.inl rfl) symmetric Settings.standard
  have linked : starred.isConnected 2 0 = true := by decide +kernel
  exact ⟨ofParts_starredParts, symmetric, again, read, (connected 2 0).1.trans linked,
    (connected 1 2).2, (kinds (.text "cnot")).1, (kinds (.text "h")).2.trans rfl, written⟩

end Device

end Peephole
