import Peephole.Device.Calibration
import Peephole.Proofs.Number.Numeral
import Peephole.Proofs.Text.Case

/-!
# Names of kinds

A canonical name is its own canonical name (`canonicalName_canonicalName`), whether it is that of a
kind or that of nothing known. Tables may be given entries for other things than names, which go by
how they are written; no number is written like a second name of a kind, so these names are
canonical too (`canonicalName_kindName`).
-/

namespace Peephole

namespace GateKind

theorem parse?_name (kind : GateKind) : parse? kind.name = some kind := by
  have named : ∀ kind ∈ all, parse? kind.name = some kind := by decide
  exact named kind (mem_all kind)

theorem canonicalName_name (kind : GateKind) : canonicalName kind.name = kind.name := by
  rw [canonicalName, parse?_name]

theorem name_of_ofName? {name : String} {kind : GateKind} (named : ofName? name = some kind) :
    kind.name = name := by
  unfold ofName? at named
  have found := List.find?_some named
  exact eq_of_beq found

theorem normalized_normalized (name : String) : normalized (normalized name) = normalized name := by
  rw [normalized, normalized, String.toList_ofList, Text.toUpper_trimBlank_toUpper_trimBlank]

theorem parse?_normalized (name : String) : parse? (normalized name) = parse? name := by
  rw [parse?, parse?, normalized_normalized]

theorem canonicalName_canonicalName (name : String) :
    canonicalName (canonicalName name) = canonicalName name := by
  cases known : parse? name with
  | some kind =>
      have named : canonicalName name = kind.name := by rw [canonicalName, known]
      rw [named, canonicalName_name]
  | none =>
      have kept : canonicalName name = normalized name := by rw [canonicalName, known]
      rw [kept, canonicalName, parse?_normalized, known]
      exact normalized_normalized name

/-- A name that is no second name of a kind is canonical once it is normalized. -/
theorem canonicalName_normalized {name : String}
    (single : aliasOf (normalized name) = normalized name) :
    canonicalName (normalized name) = normalized name := by
  rw [canonicalName, parse?, normalized_normalized, single]
  cases known : ofName? (normalized name) with
  | some kind => exact name_of_ofName? known
  | none => rfl

/-! ## Other things than names -/

theorem upperForm_of_isNumeral {c form : Char} (numeral : isNumeral c = true)
    (member : form ∈ Text.upperForm c) : form ∉ ['I', 'M', 'N'] := by
  have forms : ("0123456789abcdef*.+-".toList.all fun c => (Text.upperForm c).all fun form =>
      (['I', 'M', 'N'].contains form).not) = true := by
    decide +kernel
  intro lettered
  have free := List.all_eq_true.mp
    (List.all_eq_true.mp forms c (List.contains_iff_mem.mp numeral)) form member
  rw [List.contains_iff_mem.mpr lettered] at free
  cases free

/-- A number is no second name of a kind. -/
theorem aliasOf_normalized_of_numeral {text : String} (numeral : Decimal.Numeral text) :
    aliasOf (normalized text) = normalized text := by
  have free : ∀ form ∈ (normalized text).toList, form ∉ ['I', 'M', 'N'] := by
    intro form member
    rw [normalized, String.toList_ofList] at member
    obtain ⟨c, inTrimmed, isForm⟩ := List.mem_flatMap.mp member
    exact upperForm_of_isNumeral (numeral c (Text.trimBlank_subset _ inTrimmed)) isForm
  have differs : ∀ name : String, (∃ form ∈ name.toList, form ∈ ['I', 'M', 'N']) →
      normalized text ≠ name := by
    rintro name ⟨form, member, lettered⟩ rfl
    exact free form member lettered
  have notId := differs "ID" ⟨'I', by decide, by decide⟩
  have notCnot := differs "CNOT" ⟨'N', by decide, by decide⟩
  have notM := differs "M" ⟨'M', by decide, by decide⟩
  rw [aliasOf, beq_false_of_ne notId, beq_false_of_ne notCnot, beq_false_of_ne notM]
  rfl

theorem aliasOf_normalized_shortest (x : Float) :
    aliasOf (normalized (Decimal.shortest x)) = normalized (Decimal.shortest x) := by
  rcases Decimal.numeral_shortest_or x with numeral | nan | infinite | infinite
  · exact aliasOf_normalized_of_numeral numeral
  · rw [nan]
    decide +kernel
  · rw [infinite]
    decide +kernel
  · rw [infinite]
    decide +kernel

/-- Whatever an entry of a table is for, the name that it goes by is canonical. -/
theorem canonicalName_kindName (key : Key) :
    canonicalName (Calibration.kindName key.toDatum) = Calibration.kindName key.toDatum := by
  cases key with
  | text name => exact canonicalName_canonicalName name
  | null => decide +kernel
  | bool value => cases value <;> decide +kernel
  | int value =>
      exact canonicalName_normalized (aliasOf_normalized_of_numeral (Decimal.numeral_intText value))
  | float value => exact canonicalName_normalized (aliasOf_normalized_shortest value)

theorem canonicalName_subject (subject : Calibration.Subject) :
    canonicalName subject.name = subject.name := by
  cases subject with
  | kind member => exact canonicalName_name member
  | key given => exact canonicalName_kindName given

end GateKind

end Peephole
