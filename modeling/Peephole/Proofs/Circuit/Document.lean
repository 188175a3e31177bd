import Peephole.Proofs.Circuit.Soundness
import Peephole.Proofs.Gate.Document
import Peephole.Proofs.Number.Double

/-!
# Circuits through documents

A sound circuit with a text for its name is written as a document that is read as the same circuit
(`ofDatum_toDatum`). What is not written are empty parts, and a reader that misses them
takes them as empty; the widths are written, so none is inferred. Without labels the circuit that
is read is the same up to labels (`ofDatum_toDatum_bare`). A circuit that has been read from
whatever document is sound and named by a text, so its document is a normal form.

A JSON text adds nothing to this as long as it holds the document that was written
(`Json.Restores`).
-/

namespace Peephole

namespace Circuit

/-! ## Labels -/

theorem lookup_entryUnlessVoid_of_ne {name other : String} (differ : other ≠ name)
    (value : Datum) : (entryUnlessVoid name value).lookup other = none := by
  unfold entryUnlessVoid
  split
  · rfl
  · simpa using differ

theorem toText_lookup (text : String) :
    (((entryUnlessVoid "name" (.text text)).lookup "name").getD (.text "")).toText = .ok text := by
  unfold entryUnlessVoid
  split
  · rename_i void
    rw [String.isEmpty_iff.mp void]
    rfl
  · rfl

theorem annotations_lookup (annotations : Fields) :
    (((entryUnlessVoid "metadata" (.map annotations)).lookup "metadata").getD .null).annotations =
      .ok annotations := by
  unfold entryUnlessVoid
  split
  · rename_i void
    rw [List.isEmpty_iff.mp void]
    rfl
  · exact Datum.annotations_map annotations

/-! ## Reading what was written -/

theorem blank_eq {registers : Registers} (hasQubit : 1 ≤ registers.qubits) (name : Datum)
    {annotations : Datum} {fields : Fields} (read : annotations.annotations = .ok fields) :
    blank (.ofNat registers.qubits) (.ofNat registers.clbits) name annotations =
      .ok (empty registers ⟨name, fields⟩) := by
  have widths : Registers.ofWidths registers.qubits registers.clbits = .ok registers := by
    unfold Registers.ofWidths
    rw [if_neg (by omega), if_neg (by omega)]
    rfl
  simp only [blank, Datum.ofNat, Datum.toIndex, widths, read, bind, Except.bind]
  rfl

/-- A record of widths, of gates that the registers admit and of labels is read as the circuit of
these. -/
theorem ofDatum_record {entries : List (String × Datum)} {registers : Registers}
    {items : List Datum} {gates : List (Gate Float)} {name : String} {annotations : Fields}
    (qubits : entries.lookup "num_qubits" = some (.ofNat registers.qubits))
    (clbits : entries.lookup "num_clbits" = some (.ofNat registers.clbits))
    (listed : entries.lookup "gates" = some (.list items))
    (named : ((entries.lookup "name").getD (.text "")).toText = .ok name)
    (noted : ((entries.lookup "metadata").getD .null).annotations = .ok annotations)
    (read : items.mapM Gate.ofDatum = .ok gates) (hasQubit : 1 ≤ registers.qubits)
    (admitted : ∀ gate ∈ gates, registers.fault? gate = none) :
    ofDatum (.record entries) =
      .ok ((empty registers ⟨.text name, annotations⟩).replaceGates gates) := by
  have made := blank_eq hasQubit (.text name) noted
  have widthIn (given : Nat) (inferred : Int) :
      givenWidth (some (.ofNat given)) inferred = .ofNat given := rfl
  simp only [ofDatum, Datum.record, Datum.fields, Fields.get?_record, qubits, clbits, listed, named,
    Datum.elements, read, widthIn, made, bind, Except.bind, Option.getD_some]
  exact extendAll_empty_eq ⟨.text name, annotations⟩ admitted

theorem mapM_ofDatum_toDatum (gates : List (Gate Float)) (withAnnotations : Bool) :
    (gates.map (Gate.toDatum withAnnotations)).mapM Gate.ofDatum =
      .ok (gates.map fun gate =>
        ⟨gate.operation, if withAnnotations then gate.annotations else []⟩) := by
  rw [mapM_eq_ok_iff, List.forall₂_map_left_iff, List.forall₂_map_right_iff, List.forall₂_same]
  exact fun gate _ => Gate.ofDatum_toDatum gate withAnnotations

/-- The entries that every circuit has. -/
def bareEntries (withLabels : Bool) (circuit : Circuit Float) : List (String × Datum) :=
  [("num_qubits", .ofNat circuit.registers.qubits),
    ("num_clbits", .ofNat circuit.registers.clbits),
    ("gates", .list (circuit.gates.map (Gate.toDatum withLabels)))]

theorem toDatum_true (circuit : Circuit Float) :
    circuit.toDatum true = .record (bareEntries true circuit ++
      (entryUnlessVoid "name" circuit.labels.name ++
        entryUnlessVoid "metadata" (.map circuit.labels.annotations))) :=
  rfl

/-- A circuit named by a text is read as it was written. -/
theorem ofDatum_toDatum {circuit : Circuit Float} (sound : circuit.Sound) {name : String}
    (named : circuit.labels.name = .text name) :
    ofDatum (circuit.toDatum true) = .ok circuit := by
  obtain ⟨hasQubit, wellFormed⟩ := sound_iff.mp sound
  have read := mapM_ofDatum_toDatum circuit.gates true
  simp only [if_true, List.map_id'] at read
  have whole : (empty circuit.registers ⟨.text name, circuit.labels.annotations⟩).replaceGates
      circuit.gates = circuit := by
    rw [← named]
    exact wellFormed.replaceGates_self
  rw [toDatum_true]
  refine (ofDatum_record rfl rfl rfl ?_ ?_ read hasQubit wellFormed.admitted).trans
    (congrArg Except.ok whole)
  · rw [List.lookup_append, List.lookup_append, named,
      lookup_entryUnlessVoid_of_ne (by decide) (.map circuit.labels.annotations), Option.or_none]
    exact toText_lookup name
  · rw [List.lookup_append, List.lookup_append, lookup_entryUnlessVoid_of_ne (by decide)]
    exact annotations_lookup circuit.labels.annotations

/-- The circuit without a name and without annotations. -/
def unlabelled (circuit : Circuit Float) : Circuit Float :=
  (empty circuit.registers ⟨.text "", []⟩).replaceGates
    (circuit.gates.map fun gate => ⟨gate.operation, []⟩)

/-- Without labels, the circuit is read without labels. -/
theorem ofDatum_toDatum_bare {circuit : Circuit Float} (sound : circuit.Sound) :
    ofDatum (circuit.toDatum false) = .ok circuit.unlabelled := by
  obtain ⟨hasQubit, wellFormed⟩ := sound_iff.mp sound
  have read := mapM_ofDatum_toDatum circuit.gates false
  refine ofDatum_record rfl rfl rfl rfl rfl read hasQubit ?_
  intro gate member
  obtain ⟨origin, listed, rfl⟩ := List.mem_map.mp member
  exact wellFormed.admitted origin listed

theorem same_unlabelled {circuit : Circuit Float}
    (numbers : ∀ gate ∈ circuit.gates, ∀ angle ∈ gate.params, angle ≠ Float.nan) :
    circuit.same circuit.unlabelled = true := by
  have itself := same_self fun gate member angle used =>
    Float.beq_self_iff.mpr (numbers gate member angle used)
  rw [← itself]
  simp only [same, unlabelled, empty, gates_replaceGates, List.length_map, List.zip_map_right,
    List.all_map]
  rfl

/-! ## Texts -/

end Circuit

/-- A text that is written for a document and read as the same document. -/
structure Json.Restores (style : Style) (datum : Datum) (text : String) : Prop where
  written : write style datum = .ok text
  read : read text = .ok datum

namespace Circuit

theorem ofJson_of_restores {style : Json.Style} {datum : Datum} {text : String}
    (restores : Json.Restores style datum text) : ofJson text = ofDatum datum := by
  rw [ofJson, restores.read]
  rfl

/-! ## What documents keep -/

/-- A circuit is read from its document as it is, and without labels as an equal one, unless an
angle equals nothing. The same goes for texts that hold these documents. -/
structure KeptByDocuments (circuit : Circuit Float) : Prop where
  whole : ofDatum (circuit.toDatum true) = .ok circuit
  bare : (∀ gate ∈ circuit.gates, ∀ angle ∈ gate.params, angle ≠ Float.nan) →
    ∃ read, ofDatum (circuit.toDatum false) = .ok read ∧ circuit.same read = true
  wholeText : ∀ style text, Json.Restores style (circuit.toDatum true) text →
    circuit.toJson true style = .ok text ∧ ofJson text = .ok circuit
  bareText : ∀ style text, Json.Restores style (circuit.toDatum false) text →
    (∀ gate ∈ circuit.gates, ∀ angle ∈ gate.params, angle ≠ Float.nan) →
      circuit.toJson false style = .ok text ∧
        ∃ read, ofJson text = .ok read ∧ circuit.same read = true

theorem Sound.keptByDocuments {circuit : Circuit Float} (sound : circuit.Sound) {name : String}
    (named : circuit.labels.name = .text name) : circuit.KeptByDocuments := by
  have whole := ofDatum_toDatum sound named
  have bare := ofDatum_toDatum_bare sound
  refine ⟨whole, fun numbers => ⟨_, bare, same_unlabelled numbers⟩, ?_, ?_⟩
  · intro style text restores
    exact ⟨restores.written, (ofJson_of_restores restores).trans whole⟩
  · intro style text restores numbers
    exact ⟨restores.written, _, (ofJson_of_restores restores).trans bare, same_unlabelled numbers⟩

/-- A circuit that has been read is named by a text, whatever the name was in the document. -/
theorem exists_name_of_ofDatum {datum : Datum} {circuit : Circuit Float}
    (made : ofDatum datum = .ok circuit) : ∃ name, circuit.labels.name = .text name := by
  obtain ⟨fields, -, made⟩ := bind_eq_ok made
  split at made
  · cases made
  · obtain ⟨items, -, made⟩ := bind_eq_ok made
    obtain ⟨gates, -, made⟩ := bind_eq_ok made
    obtain ⟨name, -, made⟩ := bind_eq_ok made
    obtain ⟨start, blank, made⟩ := bind_eq_ok made
    obtain ⟨qubits, -, blank⟩ := bind_eq_ok blank
    obtain ⟨clbits, -, blank⟩ := bind_eq_ok blank
    obtain ⟨registers, -, blank⟩ := bind_eq_ok blank
    obtain ⟨notes, -, blank⟩ := bind_eq_ok blank
    obtain rfl := Except.ok.inj blank
    rw [labels_of_extendAll made]
    exact ⟨name, rfl⟩

end Circuit

end Peephole
