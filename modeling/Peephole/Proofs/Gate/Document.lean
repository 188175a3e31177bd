import Peephole.Gate.Document
import Peephole.Proofs.Datum.Reading
import Peephole.Proofs.Gate.Kind

/-!
# Gates through documents

A gate that is written and read again is the same gate, with its annotations if they were written
(`ofDatum_toDatum`). Parts that are empty are not written, and a reader that misses them takes them
as empty.
-/

namespace Peephole

/-! ## Kinds -/

namespace GateKind

theorem ofDatum_name (kind : GateKind) : ofDatum (.text kind.name) = .ok kind := by
  rw [ofDatum, parse?_name]

end GateKind

namespace Gate

/-! ## Entries -/

theorem lookup_entryUnlessEmpty (name : String) (items : List Datum) :
    ((entryUnlessEmpty name items).lookup name).getD (.list []) = .list items := by
  cases items with
  | nil => rfl
  | cons item items => simp [entryUnlessEmpty]

theorem lookup_entryUnlessEmpty_of_ne {name other : String} (differ : other ≠ name)
    (items : List Datum) : (entryUnlessEmpty name items).lookup other = none := by
  cases items with
  | nil => rfl
  | cons item items => simpa [entryUnlessEmpty] using differ

/-- The entry of the annotations, if there is one. -/
def annotationEntry (withAnnotations : Bool) (annotations : Fields) : List (String × Datum) :=
  if withAnnotations && !annotations.isEmpty then [("metadata", .map annotations)] else []

theorem lookup_annotationEntry_of_ne {other : String} (differ : other ≠ "metadata")
    (withAnnotations : Bool) (annotations : Fields) :
    (annotationEntry withAnnotations annotations).lookup other = none := by
  unfold annotationEntry
  split
  · simpa using differ
  · rfl

theorem annotations_annotationEntry (annotations : Fields) (withAnnotations : Bool) :
    (((annotationEntry withAnnotations annotations).lookup "metadata").getD .null).annotations =
      .ok (if withAnnotations then annotations else []) := by
  unfold annotationEntry
  cases withAnnotations with
  | false => rfl
  | true =>
      cases annotations with
      | nil => rfl
      | cons entry entries => exact Datum.annotations_map _

/-! ## Gates -/

theorem mapM_toIndex (what : String) (values : List Int) :
    (values.map Datum.int).mapM (Datum.toIndex what) = .ok values := by
  rw [mapM_eq_ok_iff, List.forall₂_map_left_iff, List.forall₂_same]
  exact fun _ _ => rfl

theorem mapM_toFloat (values : List Float) :
    (values.map Datum.float).mapM Datum.toFloat = .ok values := by
  rw [mapM_eq_ok_iff, List.forall₂_map_left_iff, List.forall₂_same]
  exact fun _ _ => rfl

/-- The operands of an operation make it up again. -/
theorem ofItems_operands (operation : Operation Float) {annotations : Datum} {fields : Fields}
    (read : annotations.annotations = .ok fields) :
    ofItems operation.kind (operation.qubits.map .int) (operation.params.map .float)
      (operation.clbits.map .int) annotations = .ok ⟨operation, fields⟩ := by
  have qubits : (operation.qubits.map .int).mapM (qubitIndex operation.kind) =
      .ok operation.qubits := mapM_toIndex _ _
  have clbits : (operation.clbits.map .int).mapM (clbitIndex operation.kind) =
      .ok operation.clbits := mapM_toIndex _ _
  simp only [ofItems, qubits, clbits, mapM_toFloat, ofOperands, Operation.ofOperands_operands,
    read, bind, Except.bind]
  rfl

theorem toDatum_eq (withAnnotations : Bool) (gate : Gate Float) :
    gate.toDatum withAnnotations = .record ([("kind", .text gate.kind.name),
        ("qubits", indices gate.qubits)] ++ entryUnlessEmpty "params" (gate.params.map .float) ++
      entryUnlessEmpty "clbits" (gate.clbits.map .int) ++
      annotationEntry withAnnotations gate.annotations) :=
  rfl

/-- A gate that is written and read is the same gate, without its annotations if they were not
written. -/
theorem ofDatum_toDatum (gate : Gate Float) (withAnnotations : Bool) :
    ofDatum (gate.toDatum withAnnotations) =
      .ok ⟨gate.operation, if withAnnotations then gate.annotations else []⟩ := by
  rw [toDatum_eq]
  generalize isEntries : [("kind", Datum.text gate.kind.name), ("qubits", indices gate.qubits)] ++
      entryUnlessEmpty "params" (gate.params.map .float) ++
      entryUnlessEmpty "clbits" (gate.clbits.map .int) ++
      annotationEntry withAnnotations gate.annotations = entries
  have kind : entries.lookup "kind" = some (.text gate.kind.name) := by
    rw [← isEntries]
    rfl
  have qubits : entries.lookup "qubits" = some (indices gate.qubits) := by
    rw [← isEntries]
    rfl
  have params : (entries.lookup "params").getD (.list []) = .list (gate.params.map .float) := by
    rw [← isEntries, List.lookup_append, List.lookup_append, List.lookup_append,
      lookup_annotationEntry_of_ne (by decide), Option.or_none,
      lookup_entryUnlessEmpty_of_ne (by decide) (gate.clbits.map .int), Option.or_none]
    exact lookup_entryUnlessEmpty "params" _
  have clbits : (entries.lookup "clbits").getD (.list []) = .list (gate.clbits.map .int) := by
    rw [← isEntries, List.lookup_append, List.lookup_append, List.lookup_append,
      lookup_annotationEntry_of_ne (by decide), Option.or_none,
      lookup_entryUnlessEmpty_of_ne (by decide) (gate.params.map .float), Option.or_none]
    exact lookup_entryUnlessEmpty "clbits" _
  have annotations : entries.lookup "metadata" =
      (annotationEntry withAnnotations gate.annotations).lookup "metadata" := by
    rw [← isEntries, List.lookup_append, List.lookup_append, List.lookup_append,
      lookup_entryUnlessEmpty_of_ne (by decide), lookup_entryUnlessEmpty_of_ne (by decide)]
    rfl
  have operands := ofItems_operands gate.operation
    (annotations_annotationEntry gate.annotations withAnnotations)
  simp only [ofDatum, Datum.record, Datum.fields, Fields.get?_record, Fields.require, kind, qubits,
    params, clbits, annotations, GateKind.ofDatum_name, bind, Except.bind, Option.getD_some,
    paramItems, Datum.elements, indices, operands]

end Gate

end Peephole
