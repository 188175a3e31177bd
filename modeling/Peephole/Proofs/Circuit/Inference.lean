import Peephole.Proofs.Circuit.Document

/-!
# Widths that are inferred

A circuit of given gates is made exactly if the registers hold the operands of all of them
(`exists_ofParts_iff`). A document that leaves the widths out is read with one more than the
greatest index of each register. These are the least widths that hold the gates (`fits_iff`), so
they hold them exactly if no index is negative (`fits_inferred_iff`), and a document is read as the
circuit of its parts in any case (`ofDatum_eq_ofParts`). Its name has to be shown as a text first,
which is refused to integers of too many digits.
-/

namespace Peephole

namespace Circuit

/-! ## Widths that hold gates -/

/-- Registers of these widths can be made, and all gates lie in them. -/
structure Fits (qubits clbits : Int) (gates : List (Gate Float)) : Prop where
  hasQubit : 0 < qubits
  clbits_nonneg : 0 ≤ clbits
  inside : ∀ gate ∈ gates, ∀ qubit ∈ gate.qubits, 0 ≤ qubit ∧ qubit < qubits
  inside' : ∀ gate ∈ gates, ∀ clbit ∈ gate.clbits, 0 ≤ clbit ∧ clbit < clbits

/-- No operand of a gate is negative. -/
def Nonnegative (gates : List (Gate Float)) : Prop :=
  ∀ gate ∈ gates, (∀ qubit ∈ gate.qubits, 0 ≤ qubit) ∧ ∀ clbit ∈ gate.clbits, 0 ≤ clbit

theorem Fits.nonnegative {qubits clbits : Int} {gates : List (Gate Float)}
    (fits : Fits qubits clbits gates) : Nonnegative gates := fun gate listed =>
  ⟨fun qubit used => (fits.inside gate listed qubit used).1,
    fun clbit used => (fits.inside' gate listed clbit used).1⟩

/-- One more than the greatest index is the least width that holds all indices. -/
theorem widthOf_le_iff {least width : Int} (small : least ≤ 1) {indices : List Int}
    (nonnegative : ∀ index ∈ indices, 0 ≤ index) :
    widthOf least indices ≤ width ↔ least ≤ width ∧ ∀ index ∈ indices, index < width := by
  unfold widthOf
  cases greatest : indices.max? with
  | none =>
      obtain rfl := List.max?_eq_none_iff.mp greatest
      exact ⟨fun wide => ⟨wide, fun _ member => absurd member List.not_mem_nil⟩, And.left⟩
  | some index =>
      have bounded := List.max?_le_iff greatest (x := width - 1)
      have positive := nonnegative index (List.max?_mem greatest)
      dsimp only
      constructor
      · intro wide
        refine ⟨by omega, fun other member => ?_⟩
        have below := bounded.mp (by omega) other member
        omega
      · rintro ⟨-, inside⟩
        have below := inside index (List.max?_mem greatest)
        omega

/-- The widths that hold gates are those from the inferred ones on. -/
theorem fits_iff {gates : List (Gate Float)} (nonnegative : Nonnegative gates)
    (qubits clbits : Int) :
    Fits qubits clbits gates ↔ inferredQubits gates ≤ qubits ∧ inferredClbits gates ≤ clbits := by
  have used : ∀ qubit ∈ gates.flatMap Gate.qubits, 0 ≤ qubit := by
    intro qubit member
    obtain ⟨gate, listed, operand⟩ := List.mem_flatMap.mp member
    exact (nonnegative gate listed).1 qubit operand
  have used' : ∀ clbit ∈ gates.flatMap Gate.clbits, 0 ≤ clbit := by
    intro clbit member
    obtain ⟨gate, listed, operand⟩ := List.mem_flatMap.mp member
    exact (nonnegative gate listed).2 clbit operand
  rw [inferredQubits, inferredClbits, widthOf_le_iff (Int.le_refl 1) used,
    widthOf_le_iff Int.one_nonneg used']
  simp only [List.mem_flatMap, forall_exists_index, and_imp]
  constructor
  · intro fits
    exact ⟨⟨fits.hasQubit, fun qubit gate listed operand =>
        (fits.inside gate listed qubit operand).2⟩,
      fits.clbits_nonneg, fun clbit gate listed operand =>
        (fits.inside' gate listed clbit operand).2⟩
  · rintro ⟨⟨hasQubit, inside⟩, nonneg, inside'⟩
    exact ⟨hasQubit, nonneg, fun gate listed qubit operand =>
        ⟨(nonnegative gate listed).1 qubit operand, inside qubit gate listed operand⟩,
      fun gate listed clbit operand =>
        ⟨(nonnegative gate listed).2 clbit operand, inside' clbit gate listed operand⟩⟩

theorem fits_inferred_iff (gates : List (Gate Float)) :
    Fits (inferredQubits gates) (inferredClbits gates) gates ↔ Nonnegative gates :=
  ⟨Fits.nonnegative, fun nonnegative =>
    (fits_iff nonnegative _ _).mpr ⟨Int.le_refl _, Int.le_refl _⟩⟩

theorem Fits.admitted {registers : Registers} {gates : List (Gate Float)}
    (fits : Fits registers.qubits registers.clbits gates) :
    ∀ gate ∈ gates, registers.fault? gate = none := fun gate listed =>
  Registers.fault?_eq_none_iff.mpr ⟨fits.inside gate listed, fits.inside' gate listed⟩

/-! ## Circuits of parts -/

section Parts

variable {items name notes : Datum} {elements : List Datum} {gates : List (Gate Float)}
  (collected : items.elements = .ok elements) (parsed : elements.mapM Gate.ofDatum = .ok gates)

include collected parsed

/-- Gates that can be read are added all at once. -/
theorem ofParts_eq_bind (numQubits numClbits : Datum) :
    ofParts ⟨numQubits, numClbits, items, name, notes⟩ =
      blank numQubits numClbits name notes >>= fun circuit =>
        circuit.extendAll (gates.map .ok) := by
  simp only [ofParts, extendFrom, collected, map_eq_of_mapM parsed]
  refine congrArg (blank numQubits numClbits name notes >>= ·) (funext fun circuit => ?_)
  unfold extendAll
  rcases circuit.extend (gates.map .ok) with ⟨longer, _ | fault⟩ <;> rfl

theorem ofParts_eq {registers : Registers} {fields : Fields}
    (fits : Fits registers.qubits registers.clbits gates)
    (noted : notes.annotations = .ok fields) :
    ofParts ⟨.ofNat registers.qubits, .ofNat registers.clbits, items, name, notes⟩ =
      .ok ((empty registers ⟨name, fields⟩).replaceGates gates) := by
  have hasQubit := fits.hasQubit
  rw [ofParts_eq_bind collected parsed, blank_eq (by omega) name noted]
  exact extendAll_empty_eq ⟨name, fields⟩ fits.admitted

/-- What is known of a circuit that has been made of parts. -/
theorem fits_of_ofParts {numQubits numClbits : Datum} {circuit : Circuit Float}
    (made : ofParts ⟨numQubits, numClbits, items, name, notes⟩ = .ok circuit) :
    numQubits = .ofNat circuit.registers.qubits ∧ numClbits = .ofNat circuit.registers.clbits ∧
      Fits circuit.registers.qubits circuit.registers.clbits gates ∧ circuit.gates = gates ∧
        ∃ fields, notes.annotations = .ok fields := by
  rw [ofParts_eq_bind collected parsed] at made
  obtain ⟨start, blank, extended⟩ := bind_eq_ok made
  obtain ⟨qubits, isQubits, blank⟩ := bind_eq_ok blank
  obtain ⟨clbits, isClbits, blank⟩ := bind_eq_ok blank
  obtain ⟨registers, widths, blank⟩ := bind_eq_ok blank
  obtain ⟨fields, noted, blank⟩ := bind_eq_ok blank
  obtain rfl := Except.ok.inj blank
  obtain rfl := Datum.toIndex_eq_ok_iff.mp isQubits
  obtain rfl := Datum.toIndex_eq_ok_iff.mp isClbits
  obtain ⟨hasQubit, rfl, rfl⟩ := Registers.eq_of_ofWidths widths
  have same : circuit.registers = registers := registers_of_extendAll extended
  have listed : circuit.gates = gates := gates_of_extend (extend_of_extendAll extended)
  have admitted := (wellFormed_of_extendAll (wellFormed_empty _ _) extended).admitted
  rw [same, listed] at admitted
  rw [same]
  exact ⟨rfl, rfl, ⟨Int.natCast_pos.mpr hasQubit, Int.natCast_nonneg _,
    fun gate member => (Registers.fault?_eq_none_iff.mp (admitted gate member)).1,
    fun gate member => (Registers.fault?_eq_none_iff.mp (admitted gate member)).2⟩, listed,
    fields, noted⟩

/-- A circuit is made exactly if the widths hold the gates and the annotations can be read. -/
theorem exists_ofParts_iff {qubits clbits : Int} :
    (∃ circuit, ofParts ⟨.int qubits, .int clbits, items, name, notes⟩ = .ok circuit) ↔
      Fits qubits clbits gates ∧ ∃ fields, notes.annotations = .ok fields := by
  constructor
  · rintro ⟨circuit, made⟩
    obtain ⟨isQubits, isClbits, fits, -, noted⟩ := fits_of_ofParts collected parsed made
    rw [Datum.int.inj isQubits, Datum.int.inj isClbits]
    exact ⟨fits, noted⟩
  · rintro ⟨fits, fields, noted⟩
    obtain ⟨qubits, rfl⟩ := Int.eq_ofNat_of_zero_le fits.hasQubit.le
    obtain ⟨clbits, rfl⟩ := Int.eq_ofNat_of_zero_le fits.clbits_nonneg
    have fits : Fits (⟨qubits, clbits⟩ : Registers).qubits
      (⟨qubits, clbits⟩ : Registers).clbits gates := fits
    exact ⟨_, ofParts_eq collected parsed fits noted⟩

/-- A document is read as the circuit of its parts, widths that it leaves out being inferred. -/
theorem ofDatum_eq_ofParts {fields : Fields} (listed : fields.get? "gates" = some items) :
    ofDatum (.map fields) =
      ((fields.get? "name").getD (.text "")).toText >>= fun name =>
        ofParts ⟨givenWidth (fields.get? "num_qubits") (inferredQubits gates),
          givenWidth (fields.get? "num_clbits") (inferredClbits gates), items, .text name,
          (fields.get? "metadata").getD .null⟩ := by
  simp only [ofParts_eq_bind collected parsed]
  cases items with
  | null => cases collected
  | bool | int | float | text | list | map =>
      simp only [ofDatum, Datum.fields, listed, Option.getD_some, collected, parsed, bind,
        Except.bind]

end Parts

/-! ## Documents without widths -/

/-- Annotations are missing, or a map. -/
def Noted (fields : Fields) : Prop :=
  (fields.get? "metadata").getD .null = .null ∨ ∃ notes, fields.get? "metadata" = some (.map notes)

theorem Noted.exists_annotations {fields : Fields} (noted : Noted fields) :
    ∃ notes, ((fields.get? "metadata").getD .null).annotations = .ok notes := by
  rcases noted with nothing | ⟨notes, found⟩
  · rw [nothing]
    exact ⟨[], rfl⟩
  · rw [found, Option.getD_some]
    exact ⟨notes, Datum.annotations_map notes⟩

/-- The name can be shown, if there is one. -/
def Nameable (fields : Fields) : Prop :=
  ∀ name, fields.get? "name" = some name → name.isShowable = true

theorem nameable_iff {fields : Fields} :
    Nameable fields ↔ ∃ text, ((fields.get? "name").getD (.text "")).toText = .ok text := by
  unfold Nameable
  cases fields.get? "name" with
  | none => exact iff_of_true nofun ⟨"", rfl⟩
  | some name =>
      rw [Option.getD_some, Datum.exists_toText_iff]
      exact ⟨fun showable => showable name rfl, fun showable _ same =>
        Option.some.inj same ▸ showable⟩

theorem givenWidth_null {given : Option Datum} (nothing : given.getD .null = .null)
    (inferred : Int) : givenWidth given inferred = .int inferred := by
  cases given with
  | none => rfl
  | some width =>
      obtain rfl : width = .null := nothing
      rfl

theorem givenWidth_some {width : Datum} (given : width ≠ .null) (inferred : Int) :
    givenWidth (some width) inferred = width := by
  cases width with
  | null => exact absurd rfl given
  | bool | int | float | text | list | map => rfl

/-- A document that leaves out the widths is read exactly if no index of its gates is negative and
its name can be shown, and then with the least widths. Widths that it gives are those of the
circuit, which is that of its parts. -/
theorem inferred_widths_are_least {fields : Fields} {items : Datum} {elements : List Datum}
    {gates : List (Gate Float)} (listed : fields.get? "gates" = some items)
    (collected : items.elements = .ok elements) (parsed : elements.mapM Gate.ofDatum = .ok gates) :
    (Noted fields → (fields.get? "num_qubits").getD .null = .null →
      (fields.get? "num_clbits").getD .null = .null →
        ((∃ circuit, ofDatum (.map fields) = .ok circuit) ↔
          Nonnegative gates ∧ Nameable fields) ∧
        ∀ circuit, ofDatum (.map fields) = .ok circuit →
          circuit.gates = gates ∧ (gates = [] → circuit.registers = ⟨1, 0⟩) ∧
            ∀ qubits clbits : Int,
              (∃ other, ofParts ⟨.int qubits, .int clbits, items, .text "", .null⟩ = .ok other) ↔
                circuit.registers.qubits ≤ qubits ∧ circuit.registers.clbits ≤ clbits) ∧
    ofDatum (.map fields) =
      (((fields.get? "name").getD (.text "")).toText >>= fun name =>
        ofParts ⟨givenWidth (fields.get? "num_qubits") (inferredQubits gates),
          givenWidth (fields.get? "num_clbits") (inferredClbits gates), items, .text name,
          (fields.get? "metadata").getD .null⟩) ∧
    ∀ circuit, ofDatum (.map fields) = .ok circuit → ∀ width, width ≠ .null →
      (fields.get? "num_qubits" = some width → width = .ofNat circuit.registers.qubits) ∧
        (fields.get? "num_clbits" = some width → width = .ofNat circuit.registers.clbits) := by
  have read := ofDatum_eq_ofParts collected parsed listed
  refine ⟨fun noted noQubits noClbits => ⟨?_, fun circuit made => ?_⟩, read,
    fun circuit made width given => ?_⟩
  · rw [read, givenWidth_null noQubits, givenWidth_null noClbits, nameable_iff,
      ← fits_inferred_iff]
    constructor
    · rintro ⟨circuit, made⟩
      obtain ⟨name, shown, made⟩ := bind_eq_ok made
      exact ⟨((exists_ofParts_iff collected parsed).mp ⟨circuit, made⟩).1, name, shown⟩
    · rintro ⟨fits, name, shown⟩
      rw [shown]
      exact (exists_ofParts_iff collected parsed).mpr ⟨fits, noted.exists_annotations⟩
  · rw [read, givenWidth_null noQubits, givenWidth_null noClbits] at made
    obtain ⟨name, -, made⟩ := bind_eq_ok made
    obtain ⟨isQubits, isClbits, fits, sameGates, -⟩ := fits_of_ofParts collected parsed made
    refine ⟨sameGates, fun none => ?_, fun qubits clbits => ?_⟩
    · obtain rfl := none
      have one : (1 : Int) = circuit.registers.qubits := Datum.int.inj isQubits
      have zero : (0 : Int) = circuit.registers.clbits := Datum.int.inj isClbits
      have qubits : circuit.registers.qubits = 1 := by omega
      have clbits : circuit.registers.clbits = 0 := by omega
      rw [← qubits, ← clbits]
    · rw [exists_ofParts_iff collected parsed, fits_iff fits.nonnegative, ← Datum.int.inj isQubits,
        ← Datum.int.inj isClbits]
      exact ⟨And.left, fun wide => ⟨wide, [], rfl⟩⟩
  · rw [read] at made
    obtain ⟨name, -, made⟩ := bind_eq_ok made
    obtain ⟨isQubits, isClbits, -⟩ := fits_of_ofParts collected parsed made
    constructor
    · intro found
      rwa [found, givenWidth_some given] at isQubits
    · intro found
      rwa [found, givenWidth_some given] at isClbits

/-- A gate on two qubits out of three, and the third measured. -/
def pairAndMeasurement : List Datum :=
  [.record [("kind", .text "CX"), ("qubits", .list [.int 2, .int 0])],
    .record [("kind", .text "MEASURE"), ("qubits", .list [.int 1]), ("clbits", .list [.int 3])]]

theorem pair_and_measurement_need :
    ∃ circuit, ofDatum (.record [("gates", .list pairAndMeasurement)]) = .ok circuit ∧
      circuit.registers = ⟨3, 4⟩ ∧ ∀ qubits clbits : Int,
        (∃ other, ofParts ⟨.int qubits, .int clbits, .list pairAndMeasurement, .text "", .null⟩ =
          .ok other) ↔ 3 ≤ qubits ∧ 4 ≤ clbits := by
  obtain ⟨circuit, made, registers⟩ : ∃ circuit,
      ofDatum (.record [("gates", .list pairAndMeasurement)]) = .ok circuit ∧
        circuit.registers = ⟨3, 4⟩ := exists_eq_ok_of_toOption (by decide +kernel)
  have parsed : pairAndMeasurement.mapM Gate.ofDatum =
      .ok [⟨.pair .cx 2 0 (by decide), []⟩, ⟨.measure 1 3, []⟩] := by rfl
  obtain ⟨inferred, -⟩ := inferred_widths_are_least
    (rfl : Fields.get? [(.text "gates", .list pairAndMeasurement)] "gates" = _) rfl parsed
  obtain ⟨-, least⟩ := inferred (.inl rfl) rfl rfl
  obtain ⟨-, -, wide⟩ := least circuit made
  rw [registers] at wide
  exact ⟨circuit, made, registers, wide⟩

/-- No gates, under a number for a name that has more digits than are written. -/
def numbered : Fields :=
  [(.text "gates", .list []), (.text "name", .int (10 ^ 5000))]

/-- Without gates no index is negative, but the name cannot be shown. -/
theorem unwritable_name_is_refused :
    numbered.get? "gates" = some (.list []) ∧ Nonnegative [] ∧ Noted numbered ∧
      numbered.get? "num_qubits" = none ∧ numbered.get? "num_clbits" = none ∧
      ofDatum (.map numbered) = .error .integerUnwritable := by
  have unwritable : (Datum.int (10 ^ 5000)).isShowable = false := by decide +kernel
  have refused : (Datum.int (10 ^ 5000)).toText = .error .integerUnwritable := by
    rw [Datum.toText, unwritable]
    rfl
  have listed : numbered.get? "gates" = some (.list []) := rfl
  refine ⟨listed, fun _ member => absurd member List.not_mem_nil, .inl rfl, rfl, rfl, ?_⟩
  rw [ofDatum_eq_ofParts (rfl : Datum.elements (.list []) = .ok []) rfl listed]
  change Datum.toText (.int (10 ^ 5000)) >>= _ = _
  rw [refused]
  rfl

end Circuit

end Peephole
