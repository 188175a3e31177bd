import Peephole.Proofs.Device.Document
import Peephole.Proofs.Number.Quotient

/-!
# Tables answer by kind

A table may be given a kind several times, under any of its names or as the kind itself. Reading
takes one entry after the other: the first value that is not admitted ends it
(`readEntries_eq_error`), and an entry that is read settles what its kind has been given so far
(`get?_readEntries_last`), while the kind keeps its place (`map_fst_readEntries`). Questions go by
the same name as entries, so a device answers with the last value for the kind
(`tables_answer_by_kind`).
-/

namespace Peephole

namespace GateKind

theorem aliasOf_eq_or (name : String) :
    aliasOf name = name ∨ ∃ kind, ofName? (aliasOf name) = some kind := by
  unfold aliasOf
  split
  · exact .inr ⟨.fixed .i, rfl⟩
  · split
    · exact .inr ⟨.pair .cx, rfl⟩
    · split
      · exact .inr ⟨.measure, rfl⟩
      · exact .inl rfl

/-- The name of an entry is what is left of it without blanks, case and second names. -/
theorem canonicalName_eq_aliasOf (name : String) :
    canonicalName name = aliasOf (normalized name) := by
  rw [canonicalName, parse?]
  cases known : ofName? (aliasOf (normalized name)) with
  | some kind => exact name_of_ofName? known
  | none =>
      rcases aliasOf_eq_or (normalized name) with single | ⟨kind, found⟩
      · exact single.symm
      · cases known.symm.trans found

end GateKind

/-! ## Reading one entry after the other -/

namespace Calibration

variable {quantity : Quantity} {table result : Calibration Float}

/-- A document stands for a double in a range. -/
def Gives (range : Float → Prop) (given : Datum) : Prop :=
  ∃ value, given.toFloat = .ok value ∧ range value

def Quantity.Admissible (quantity : Quantity) (given : Datum) : Prop :=
  Gives (fun value => quantity.admits value = true) given

/-- Error rates are probabilities, and never certainty. -/
theorem errorRate_range :
    (fun value => errorRate.admits value = true) = fun value => 0.0 ≤ value ∧ value < 1.0 := by
  funext value
  rw [Quantity.admits, Bool.and_eq_true, decide_eq_true_iff, decide_eq_true_iff]
  rfl

theorem duration_range :
    (fun value => duration.admits value = true) =
      fun value => 0.0 ≤ value ∧ value.isFinite = true := by
  funext value
  rw [Quantity.admits, Bool.and_eq_true, decide_eq_true_iff, decide_eq_true_iff,
    ← Binary64.isFinite_eq]
  refine propext ⟨?_, ?_⟩
  · rintro ⟨above, below⟩
    exact ⟨above, Binary64.isFinite_of_le_of_lt (by decide) above below⟩
  · rintro ⟨above, finite⟩
    exact ⟨above, Binary64.lt_infinity finite⟩

theorem readEntries_cons {subject : Subject} {given : Datum} {entries : List (Subject × Datum)} :
    readEntries quantity ((subject, given) :: entries) table =
      readEntry quantity subject given >>= fun value =>
        readEntries quantity entries (table.set subject.name value) :=
  rfl

theorem readEntries_append (before after : List (Subject × Datum)) (table : Calibration Float) :
    readEntries quantity (before ++ after) table =
      readEntries quantity before table >>= readEntries quantity after := by
  induction before generalizing table with
  | nil => rfl
  | cons entry before ih =>
      obtain ⟨subject, given⟩ := entry
      rw [List.cons_append, readEntries_cons, readEntries_cons, bind_assoc]
      exact congrArg (readEntry quantity subject given >>= ·) (funext fun value => ih _)

theorem readEntries_isOk_iff {entries : List (Subject × Datum)} :
    (∃ result, readEntries quantity entries table = .ok result) ↔
      ∀ entry ∈ entries, quantity.Admissible entry.2 := by
  induction entries generalizing table with
  | nil => exact ⟨fun _ _ member => absurd member List.not_mem_nil, fun _ => ⟨table, rfl⟩⟩
  | cons entry entries ih =>
      obtain ⟨subject, given⟩ := entry
      rw [List.forall_mem_cons, readEntries_cons]
      constructor
      · rintro ⟨result, read⟩
        obtain ⟨value, first, rest⟩ := bind_eq_ok read
        exact ⟨⟨value, readEntry_eq_ok_iff.mp first⟩, ih.mp ⟨result, rest⟩⟩
      · rintro ⟨⟨value, first⟩, rest⟩
        rw [readEntry_eq_ok_iff.mpr first]
        exact ih.mpr rest

theorem readEntries_isError_iff {entries : List (Subject × Datum)} :
    (∃ fault, readEntries quantity entries table = .error fault) ↔
      ∃ entry ∈ entries, ¬ quantity.Admissible entry.2 := by
  have passes : (∃ result, readEntries quantity entries table = .ok result) ↔ _ :=
    readEntries_isOk_iff
  cases read : readEntries quantity entries table with
  | error fault =>
      rw [read] at passes
      refine iff_of_true ⟨fault, rfl⟩ ?_
      by_contra all
      push Not at all
      obtain ⟨result, impossible⟩ := passes.mpr all
      cases impossible
  | ok result =>
      have all := passes.mp ⟨result, read⟩
      refine iff_of_false (fun ⟨fault, impossible⟩ => ?_) fun ⟨entry, member, refused⟩ => ?_
      · cases impossible
      · exact refused (all entry member)

/-- Entries after the first that is not read do not count. -/
theorem readEntries_eq_error {before : List (Subject × Datum)}
    (passed : ∀ entry ∈ before, quantity.Admissible entry.2) {subject : Subject} {given : Datum}
    {fault : Fault} (failed : readEntry quantity subject given = .error fault)
    (after : List (Subject × Datum)) :
    readEntries quantity (before ++ (subject, given) :: after) table = .error fault := by
  obtain ⟨result, read⟩ : ∃ result, readEntries quantity before table = .ok result :=
    readEntries_isOk_iff.mpr passed
  rw [readEntries_append, read]
  change (readEntry quantity subject given >>= _) = _
  rw [failed]
  rfl

theorem get?_readEntries_of_not_mem {entries : List (Subject × Datum)}
    (read : readEntries quantity entries table = .ok result) {name : String}
    (others : ∀ entry ∈ entries, entry.1.name ≠ name) : result.get? name = table.get? name := by
  induction entries generalizing table with
  | nil => rw [← Except.ok.inj read]
  | cons entry entries ih =>
      obtain ⟨subject, given⟩ := entry
      obtain ⟨value, -, rest⟩ := bind_eq_ok read
      obtain ⟨other, others⟩ := List.forall_mem_cons.mp others
      rw [ih rest others, get?_set, if_neg (Ne.symm other)]

/-- What is given last for a name is what the table holds. -/
theorem get?_readEntries_last {before after : List (Subject × Datum)} {subject : Subject}
    {given : Datum} {value : Float}
    (read : readEntries quantity (before ++ (subject, given) :: after) table = .ok result)
    (isValue : given.toFloat = .ok value)
    (last : ∀ entry ∈ after, entry.1.name ≠ subject.name) :
    result.get? subject.name = some value := by
  rw [readEntries_append] at read
  obtain ⟨known, -, read⟩ := bind_eq_ok read
  obtain ⟨number, entered, rest⟩ := bind_eq_ok read
  have same := (readEntry_eq_ok_iff.mp entered).1
  obtain rfl : number = value := Except.ok.inj (same.symm.trans isValue)
  rw [get?_readEntries_of_not_mem rest last, get?_set, if_pos rfl]

theorem eraseDups_append_singleton (names : List String) (name : String) :
    (names ++ [name]).eraseDups =
      if name ∈ names.eraseDups then names.eraseDups else names.eraseDups ++ [name] := by
  rw [List.eraseDups_append, List.removeAll, List.filter_singleton]
  by_cases listed : name ∈ names
  · simp [listed]
  · simp [listed, List.eraseDups_cons]

/-- Every name has the place at which it is told first. -/
theorem map_fst_readEntries {entries : List (Subject × Datum)} (told : List String)
    (known : table.map Prod.fst = told.eraseDups)
    (read : readEntries quantity entries table = .ok result) :
    result.map Prod.fst = (told ++ entries.map fun entry => entry.1.name).eraseDups := by
  -- `told` are the names given so far, with repeats: they, not the table, grow by one each time.
  induction entries generalizing table told with
  | nil => rw [← Except.ok.inj read, known, List.map_nil, List.append_nil]
  | cons entry entries ih =>
      obtain ⟨subject, given⟩ := entry
      obtain ⟨value, -, rest⟩ := bind_eq_ok read
      have next : (table.set subject.name value).map Prod.fst =
          (told ++ [subject.name]).eraseDups := by
        rw [eraseDups_append_singleton, ← known]
        split
        · rename_i present
          exact map_fst_set_of_mem present value
        · rename_i new
          rw [set_of_not_mem new, List.map_append, List.map_singleton]
      rw [ih _ next rest, List.append_assoc, List.map_cons, List.singleton_append]

theorem ofDatum_map (quantity : Quantity) (fields : Fields) :
    ofDatum quantity (.map fields) = readEntries quantity (entriesOf fields) [] := by
  cases fields with
  | nil => rfl
  | cons entry fields => rfl

/-! ## Questions -/

/-- What is answered about subjects, by a table that has been made of entries: what was given last
under the name of the subject, or else the default. -/
structure Answers (range : Float → Prop) (entries : List (Subject × Datum)) (default : Float)
    (table : Calibration Float) (answer : Subject → Option Float) : Prop where
  places : table.map Prod.fst = (entries.map fun entry => entry.1.name).eraseDups
  distinct : (table.map Prod.fst).Nodup
  last : ∀ before subject given after value asked,
    entries = before ++ (subject, given) :: after → given.toFloat = .ok value →
      subject.name = asked.name → (∀ entry ∈ after, entry.1.name ≠ asked.name) →
        answer asked = some value
  unlisted : ∀ asked, (∀ entry ∈ entries, entry.1.name ≠ asked.name) → answer asked = some default
  admitted : ∀ asked, ∃ value, answer asked = some value ∧ range value
  spelled : ∀ text kind, GateKind.parse? text = some kind →
    answer (.key (.text text)) = answer (.kind kind)

theorem answers_readEntries {entries : List (Subject × Datum)}
    (read : readEntries quantity entries [] = .ok table) {default : Float}
    (fallback : quantity.admits default = true) :
    Answers (fun value => quantity.admits value = true) entries default table
      fun asked => some ((table.get? asked.name).getD default) where
  places := map_fst_readEntries [] rfl read
  distinct := (canonical_readEntries read).distinct
  last := by
    rintro before subject given after value asked rfl isValue same last
    rw [← same] at last ⊢
    rw [get?_readEntries_last read isValue last, Option.getD_some]
  unlisted asked others := by
    rw [get?_readEntries_of_not_mem read others]
    rfl
  admitted asked := by
    refine ⟨_, rfl, ?_⟩
    cases found : table.get? asked.name with
    | none => exact fallback
    | some value => exact within_readEntries read _ value found
  spelled text kind known := by
    have same : (Subject.key (.text text)).name = (Subject.kind kind).name := by
      change GateKind.canonicalName text = kind.name
      rw [GateKind.canonicalName, known]
    rw [same]

end Calibration

/-! ## Devices of tables -/

namespace Device

open Calibration

/-- Making devices of entries: it fails exactly if some value is not in the range, with the first
such entry, and otherwise the device holds a table of the entries and answers with it. -/
structure AnswersByKind (quantity : Quantity) (range : Float → Prop) (default : Float)
    (make : List (Subject × Datum) → Except Fault (Device Float))
    (table? : Device Float → Option (Calibration Float))
    (answer : Device Float → Subject → Option Float) : Prop where
  fails_iff : ∀ entries, (∃ fault, make entries = .error fault) ↔
    ∃ entry ∈ entries, ¬ Gives range entry.2
  outside : ∀ before subject given after value,
    (∀ entry ∈ before, Gives range entry.2) → given.toFloat = .ok value → ¬ range value →
        make (before ++ (subject, given) :: after) =
          .error (.entryOutside quantity.name subject.literal (Decimal.shortest quantity.bound)
            (Decimal.shortest value))
  unread : ∀ before subject given after fault,
    (∀ entry ∈ before, Gives range entry.2) → given.toFloat = .error fault →
      make (before ++ (subject, given) :: after) = .error fault
  answers : ∀ entries device, make entries = .ok device →
    ∃ table, table? device = some table ∧ Answers range entries default table (answer device)

/-- Devices answer by kind if they are built around the table that is read. -/
theorem answersByKind_of_build {quantity : Quantity} {default : Float}
    (fallback : quantity.admits default = true) (build : Calibration Float → Device Float)
    {make : List (Subject × Datum) → Except Fault (Device Float)}
    {table? : Device Float → Option (Calibration Float)}
    {answer : Device Float → Subject → Option Float}
    (made : ∀ entries, make entries = (readEntries quantity entries []).map build)
    (held : ∀ table, table? (build table) = some table)
    (asked : ∀ table, answer (build table) =
      fun asked => some ((table.get? asked.name).getD default)) :
    AnswersByKind quantity (fun value => quantity.admits value = true) default make table?
      answer where
  fails_iff entries := by
    have fails : (∃ fault, readEntries quantity entries [] = .error fault) ↔ _ :=
      readEntries_isError_iff
    rw [made]
    refine Iff.trans ?_ fails
    cases readEntries quantity entries [] with
    | error fault => exact iff_of_true ⟨fault, rfl⟩ ⟨fault, rfl⟩
    | ok table =>
        constructor
        · rintro ⟨fault, impossible⟩
          cases impossible
        · rintro ⟨fault, impossible⟩
          cases impossible
  outside before subject given after value passed read refused := by
    have failed := readEntry_of_toFloat quantity subject read
    rw [if_neg refused] at failed
    rw [made, readEntries_eq_error passed failed]
    rfl
  unread before subject given after fault passed failed := by
    have failed' : readEntry quantity subject given = .error fault := by
      simp only [readEntry, failed, bind, Except.bind]
    rw [made, readEntries_eq_error passed failed']
    rfl
  answers entries device isDevice := by
    rw [made] at isDevice
    cases read : readEntries quantity entries [] with
    | error fault =>
        rw [read] at isDevice
        cases isDevice
    | ok table =>
        rw [read] at isDevice
        obtain rfl := Except.ok.inj isDevice
        refine ⟨table, held table, ?_⟩
        rw [asked]
        exact answers_readEntries read fallback

/-- A device that is otherwise as it should be answers by kind, from the table of error rates as
well as from that of durations. Tables in documents are read as their entries are, and all that
counts of a name is what is left without blanks, case and second names. -/
theorem tables_answer_by_kind (settings : Settings) (parts : Parts) {size : Nat}
    {edges : Option (List (Nat × Nat))} {fallback : Float}
    (width : readWidth parts.numQubits = .ok size) (pairs : readEdges size parts.edges = .ok edges)
    (rate : readFallback (Settings.orElse parts.fallbackRate settings.fallbackErrorRate) =
      .ok fallback) :
    (∀ durations, AnswersByKind Calibration.errorRate
      (fun value => 0.0 ≤ value ∧ value < 1.0) fallback
      (fun entries =>
        assemble settings parts (readEntries Calibration.errorRate entries []) (.ok durations))
      (fun device => some device.errorRates)
      (fun device asked => some (device.errorRate asked.name))) ∧
    (∀ errorRates, AnswersByKind Calibration.duration
      (fun value => 0.0 ≤ value ∧ value.isFinite = true) 0
      (fun entries =>
        assemble settings parts (.ok errorRates)
          ((readEntries Calibration.duration entries []).map some))
      (fun device => device.durations)
      (fun device asked => device.duration? asked.name)) ∧
    (∀ fields, parts.errorRates = .map fields →
      ofParts settings parts = assemble settings parts
        (readEntries Calibration.errorRate (entriesOf fields) []) (readDurations parts.durations)) ∧
    (∀ fields, parts.durations = .map fields →
      ofParts settings parts = assemble settings parts
        (Calibration.ofDatum Calibration.errorRate parts.errorRates)
        ((readEntries Calibration.duration (entriesOf fields) []).map some)) ∧
    ∀ text kind, (Subject.kind kind).name = kind.name ∧
      (Subject.key (.text text)).name = GateKind.aliasOf (GateKind.normalized text) := by
  refine ⟨fun durations => ?_, fun errorRates => ?_, ?_, ?_, fun text kind => ⟨rfl, ?_⟩⟩
  · rw [← errorRate_range]
    refine answersByKind_of_build (admits_of_readFallback rate)
      (fun table => ⟨parts.name, couplingsOf size edges parts.rule, parts.rule,
        edges.isNone && parts.rule.isNone, table, durations, fallback⟩)
      (fun entries => ?_) (fun table => rfl) (fun table => rfl)
    cases read : readEntries Calibration.errorRate entries [] with
    | error fault => simp only [assemble, width, pairs, bind, Except.bind, Except.map]
    | ok table => exact assemble_eq width pairs rate table durations
  · rw [← duration_range]
    refine answersByKind_of_build (by decide)
      (fun table => ⟨parts.name, couplingsOf size edges parts.rule, parts.rule,
        edges.isNone && parts.rule.isNone, errorRates, some table, fallback⟩)
      (fun entries => ?_) (fun table => rfl) (fun table => rfl)
    cases read : readEntries Calibration.duration entries [] with
    | error fault => simp only [assemble, width, pairs, bind, Except.bind, Except.map]
    | ok table => exact assemble_eq width pairs rate errorRates (some table)
  · intro fields given
    rw [ofParts, given, ofDatum_map]
  · intro fields given
    have read : readDurations (.map fields) =
        (readEntries Calibration.duration (entriesOf fields) []).map some := by
      rw [← ofDatum_map]
      rfl
    rw [ofParts, given, read]
  · exact GateKind.canonicalName_eq_aliasOf text

/-- Rates for one kind under two of its names, and another between them. -/
def twiceNamed : List (Subject × Datum) :=
  [(.key (.text " cnot "), .float 0.125), (.key (.text "Foo"), .int 0),
    (.kind (.pair .cx), .float 0.25)]

theorem last_name_counts :
    ∃ device, assemble Settings.standard ⟨.int 2, .null, .null, .null, none, .null, .text ""⟩
        (readEntries Calibration.errorRate twiceNamed []) (.ok none) = .ok device ∧
      device.errorRates.map Prod.fst = ["CX", "FOO"] ∧
      device.errorRate (Subject.key (.text "Cx")).name = 0.25 ∧
      device.errorRate (Subject.kind .measure).name = 0.01 := by
  have rate : readFallback (Settings.orElse .null Settings.standard.fallbackErrorRate) =
      .ok 0.01 := readFallback_float (by decide)
  obtain ⟨rates, -⟩ := tables_answer_by_kind Settings.standard
    ⟨.int 2, .null, .null, .null, none, .null, .text ""⟩ rfl rfl rate
  have admissible : ∀ entry ∈ twiceNamed,
      Gives (fun value => 0.0 ≤ value ∧ value < 1.0) entry.2 := by
    simp only [twiceNamed, List.forall_mem_cons]
    exact ⟨⟨0.125, rfl, by decide⟩, ⟨0.0, by decide, by decide⟩, ⟨0.25, rfl, by decide⟩,
      fun _ member => absurd member List.not_mem_nil⟩
  cases made : assemble Settings.standard ⟨.int 2, .null, .null, .null, none, .null, .text ""⟩
      (readEntries Calibration.errorRate twiceNamed []) (.ok none) with
  | error fault =>
      obtain ⟨entry, member, refused⟩ := ((rates none).fails_iff twiceNamed).mp ⟨fault, made⟩
      exact absurd (admissible entry member) refused
  | ok device =>
      obtain ⟨table, same, answers⟩ := (rates none).answers twiceNamed device made
      obtain rfl := Option.some.inj same
      refine ⟨device, rfl, ?_, ?_, ?_⟩
      · rw [answers.places]
        decide
      · exact Option.some.inj (answers.last [(.key (.text " cnot "), .float 0.125),
          (.key (.text "Foo"), .int 0)] (.kind (.pair .cx)) (.float 0.25) [] 0.25 _ rfl rfl
          (by decide) (by decide))
      · exact Option.some.inj (answers.unlisted (.kind .measure) (by decide))

end Device

end Peephole
