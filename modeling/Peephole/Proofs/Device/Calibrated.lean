import Peephole.Device.Request
import Peephole.Proofs.Number.Position

/-!
# Devices with error rates below one

An error rate is a probability from zero to one, one excluded, and a duration is finite and not
negative. Tables are read entry by entry and the fallback rate by itself, and each is judged before
it is taken over, so every rate that a device tells for any kind is such a probability
(`calibrated_of_ofParts`), and so are the durations as they should be
(`within_durations_of_ofParts`). There is no way around the parts: lines, grids, descriptors and
presets are all made of them (`exists_parts_of_ofRequest`).
-/

namespace Peephole

/-! ## Tables -/

namespace Calibration

theorem get?_cons {ρ : Type} (present : String) (old : ρ) (table : Calibration ρ)
    (other : String) :
    get? ((present, old) :: table) other =
      if other = present then some old else table.get? other := by
  unfold get?
  rw [List.lookup_cons]
  by_cases same : other = present
  · rw [if_pos same, same, beq_self_eq_true]
  · rw [if_neg same, beq_false_of_ne same]

theorem get?_set {ρ : Type} (table : Calibration ρ) (name : String) (value : ρ) (other : String) :
    (table.set name value).get? other = if other = name then some value else table.get? other := by
  induction table with
  | nil => rw [set, get?_cons]
  | cons entry table ih =>
      obtain ⟨present, old⟩ := entry
      rw [set]
      by_cases replaced : present = name
      · rw [replaced, beq_self_eq_true, if_pos rfl, get?_cons, get?_cons]
        split <;> rfl
      · rw [beq_false_of_ne replaced, if_neg Bool.false_ne_true, get?_cons, get?_cons, ih]
        by_cases same : other = present
        · rw [if_pos same, if_pos same, same, if_neg replaced]
        · rw [if_neg same, if_neg same]

/-- A table holds nothing but values that are admitted. -/
def Within (quantity : Quantity) (table : Calibration Float) : Prop :=
  ∀ name value, table.get? name = some value → quantity.admits value = true

theorem within_nil (quantity : Quantity) : Within quantity [] := by
  intro name value found
  cases found

theorem Within.set {quantity : Quantity} {table : Calibration Float}
    (within : Within quantity table) (name : String) {value : Float}
    (admitted : quantity.admits value = true) : Within quantity (table.set name value) := by
  intro other told found
  rw [get?_set] at found
  split at found
  · obtain rfl := Option.some.inj found
    exact admitted
  · exact within other told found

/-- What is admitted has an exact value, and that is not negative. -/
theorem exists_units_of_admits {quantity : Quantity} {value : Float}
    (admitted : quantity.admits value = true) :
    ∃ units : Nat, Binary64.units? value = some (units : Int) := by
  obtain ⟨above, below⟩ := Bool.and_eq_true_iff.mp admitted
  have nonnegative : 0.0 ≤ value := of_decide_eq_true above
  have zero : Binary64.units? 0.0 = some 0 := by decide
  obtain ⟨units, read⟩ := Binary64.exists_units_of_isFinite
    (Binary64.isFinite_of_le_of_lt (by decide) nonnegative (of_decide_eq_true below))
  obtain ⟨units, rfl⟩ := Int.eq_ofNat_of_zero_le
    ((Binary64.le_iff_units_le zero read).mp nonnegative)
  exact ⟨units, read⟩

theorem readEntry_of_toFloat (quantity : Quantity) (subject : Subject) {given : Datum}
    {value : Float} (read : given.toFloat = .ok value) :
    readEntry quantity subject given =
      if quantity.admits value then .ok value
      else .error (.entryOutside quantity.name subject.literal (Decimal.shortest quantity.bound)
        (Decimal.shortest value)) := by
  simp only [readEntry, read, bind, Except.bind]
  rfl

theorem readEntry_eq_ok_iff {quantity : Quantity} {subject : Subject} {given : Datum}
    {value : Float} :
    readEntry quantity subject given = .ok value ↔
      given.toFloat = .ok value ∧ quantity.admits value = true := by
  constructor
  · intro passed
    obtain ⟨number, read, -⟩ := bind_eq_ok passed
    rw [readEntry_of_toFloat quantity subject read] at passed
    split at passed
    · rename_i admitted
      obtain rfl := Except.ok.inj passed
      exact ⟨read, admitted⟩
    · cases passed
  · rintro ⟨read, admitted⟩
    rw [readEntry_of_toFloat quantity subject read, if_pos admitted]

/-- What holds of a table, and after every entry, holds of every table that is read from it on. -/
theorem induction_of_readEntries {quantity : Quantity} {motive : Calibration Float → Prop}
    (entered : ∀ table (subject : Subject) value, motive table → quantity.admits value = true →
      motive (table.set subject.name value))
    {entries : List (Subject × Datum)} {table result : Calibration Float} (holds : motive table)
    (read : readEntries quantity entries table = .ok result) : motive result := by
  induction entries generalizing table with
  | nil =>
      obtain rfl := Except.ok.inj read
      exact holds
  | cons entry entries ih =>
      obtain ⟨subject, datum⟩ := entry
      obtain ⟨value, judged, rest⟩ := bind_eq_ok read
      exact ih (entered table subject value holds (readEntry_eq_ok_iff.mp judged).2) rest

theorem within_readEntries {quantity : Quantity} {entries : List (Subject × Datum)}
    {table : Calibration Float} (read : readEntries quantity entries [] = .ok table) :
    Within quantity table :=
  induction_of_readEntries (fun _ _ _ within admitted => within.set _ admitted)
    (within_nil quantity) read

/-- Every table that is read from a document is one of entries. -/
theorem exists_entries_of_ofDatum {quantity : Quantity} {datum : Datum} {table : Calibration Float}
    (read : ofDatum quantity datum = .ok table) :
    ∃ entries, readEntries quantity entries [] = .ok table := by
  rw [ofDatum] at read
  split at read
  · exact ⟨[], read⟩
  · obtain ⟨fields, -, read⟩ := bind_eq_ok read
    exact ⟨entriesOf fields, read⟩

theorem within_of_ofDatum {quantity : Quantity} {datum : Datum} {table : Calibration Float}
    (read : ofDatum quantity datum = .ok table) : Within quantity table := by
  obtain ⟨entries, read⟩ := exists_entries_of_ofDatum read
  exact within_readEntries read

end Calibration

/-! ## The fallback rate -/

/-- A number from zero to one, one excluded, is an error rate once it is a double. -/
theorem admits_of_unit_interval {number : Number} {value : Float}
    (nonnegative : (Number.int 0).le number = true) (below : number.lt (.int 1) = true)
    (near : number.toFloat? = some value) : Calibration.errorRate.admits value = true := by
  cases number with
  | int whole =>
      have least := Number.le_int_iff.mp nonnegative
      have greatest := Number.lt_int_iff.mp below
      obtain rfl : whole = 0 := by omega
      obtain rfl : 0.0 = value := Option.some.inj near
      decide
  | float x =>
      obtain rfl := Option.some.inj near
      exact Bool.and_eq_true_iff.mpr ⟨decide_eq_true (Number.zero_le_float_iff.mp nonnegative),
        decide_eq_true (Number.float_lt_one_iff.mp below)⟩

theorem Datum.toFloat?_of_toNumber {datum : Datum} {number : Number} {value : Float}
    (numeric : datum.toNumber = .ok number) (read : datum.toFloat = .ok value) :
    number.toFloat? = some value := by
  rw [toNumber] at numeric
  cases datum with
  | float x =>
      obtain rfl := Except.ok.inj numeric
      exact congrArg some (Except.ok.inj read)
  | bool truth | int whole =>
      obtain rfl := Except.ok.inj numeric
      simp only [toFloat, number?] at read
      split at read
      · rename_i near
        rw [near, Except.ok.inj read]
      · cases read
  | null | text | list | map => cases numeric

/-! ## Devices -/

namespace Device

/-- Every error rate is a probability below one. -/
def Calibrated (device : Device Float) : Prop :=
  ∀ name, Calibration.errorRate.admits (device.errorRate name) = true

theorem calibrated_of_within {device : Device Float}
    (table : Calibration.Within Calibration.errorRate device.errorRates)
    (fallback : Calibration.errorRate.admits device.fallbackRate = true) : device.Calibrated := by
  intro name
  rw [errorRate]
  cases found : device.errorRates.get? name with
  | none => exact fallback
  | some rate => exact table name rate found

theorem admits_of_readFallback {rate : Datum} {value : Float}
    (read : readFallback rate = .ok value) : Calibration.errorRate.admits value = true := by
  obtain ⟨number, numeric, judged⟩ := bind_eq_ok read
  split at judged
  · rename_i inside
    obtain ⟨nonnegative, below⟩ := Bool.and_eq_true_iff.mp inside
    exact admits_of_unit_interval nonnegative below (Datum.toFloat?_of_toNumber numeric judged)
  · cases judged

/-- An error rate is a fallback rate as it stands. -/
theorem readFallback_float {rate : Float} (admitted : Calibration.errorRate.admits rate = true) :
    readFallback (.float rate) = .ok rate := by
  obtain ⟨above, below⟩ := Bool.and_eq_true_iff.mp admitted
  have inside : ((Number.int 0).le (.float rate) && (Number.float rate).lt (.int 1)) = true :=
    Bool.and_eq_true_iff.mpr ⟨Number.zero_le_float_iff.mpr (of_decide_eq_true above),
      Number.float_lt_one_iff.mpr (of_decide_eq_true below)⟩
  simp only [readFallback, Datum.toNumber, Datum.number?, bind, Except.bind, inside, if_true]
  rfl

/-- The device of parts and tables that are as they should be. -/
theorem assemble_eq {settings : Settings} {parts : Parts} {size : Nat}
    {edges : Option (List (Nat × Nat))} {fallback : Float}
    (width : readWidth parts.numQubits = .ok size) (pairs : readEdges size parts.edges = .ok edges)
    (rate : readFallback (Settings.orElse parts.fallbackRate settings.fallbackErrorRate) =
      .ok fallback) (errorRates : Calibration Float) (durations : Option (Calibration Float)) :
    assemble settings parts (.ok errorRates) (.ok durations) =
      .ok ⟨parts.name, couplingsOf size edges parts.rule, parts.rule,
        edges.isNone && parts.rule.isNone, errorRates, durations, fallback⟩ := by
  simp only [assemble, width, pairs, rate, bind, Except.bind]
  rfl

/-- The device of parts that are as they should be. -/
theorem ofParts_eq {settings : Settings} {parts : Parts} {size : Nat}
    {edges : Option (List (Nat × Nat))} {errorRates : Calibration Float}
    {durations : Option (Calibration Float)} {fallback : Float}
    (width : readWidth parts.numQubits = .ok size) (pairs : readEdges size parts.edges = .ok edges)
    (rates : Calibration.ofDatum Calibration.errorRate parts.errorRates = .ok errorRates)
    (times : readDurations parts.durations = .ok durations)
    (rate : readFallback (Settings.orElse parts.fallbackRate settings.fallbackErrorRate) =
      .ok fallback) :
    ofParts settings parts =
      .ok ⟨parts.name, couplingsOf size edges parts.rule, parts.rule,
        edges.isNone && parts.rule.isNone, errorRates, durations, fallback⟩ := by
  rw [ofParts, rates, times, assemble_eq width pairs rate]

/-- Whatever parts a device is made of, it is calibrated. -/
theorem calibrated_of_ofParts {settings : Settings} {parts : Parts} {device : Device Float}
    (made : ofParts settings parts = .ok device) : device.Calibrated := by
  obtain ⟨size, -, made⟩ := bind_eq_ok made
  obtain ⟨edges, -, made⟩ := bind_eq_ok made
  obtain ⟨errorRates, table, made⟩ := bind_eq_ok made
  obtain ⟨durations, -, made⟩ := bind_eq_ok made
  obtain ⟨fallback, rate, made⟩ := bind_eq_ok made
  obtain rfl := Except.ok.inj made
  exact calibrated_of_within (Calibration.within_of_ofDatum table) (admits_of_readFallback rate)

theorem ofDatum_of_readDurations {datum : Datum} {table : Calibration Float}
    (read : readDurations datum = .ok (some table)) :
    Calibration.ofDatum Calibration.duration datum = .ok table := by
  cases datum with
  | null => cases read
  | bool | int | float | text | list | map =>
      obtain ⟨told, entries, same⟩ := bind_eq_ok read
      obtain rfl := Option.some.inj (Except.ok.inj same)
      exact entries

theorem within_durations_of_ofParts {settings : Settings} {parts : Parts} {device : Device Float}
    (made : ofParts settings parts = .ok device) {table : Calibration Float}
    (timed : device.durations = some table) : Calibration.Within Calibration.duration table := by
  obtain ⟨size, -, made⟩ := bind_eq_ok made
  obtain ⟨edges, -, made⟩ := bind_eq_ok made
  obtain ⟨errorRates, -, made⟩ := bind_eq_ok made
  obtain ⟨durations, told, made⟩ := bind_eq_ok made
  obtain ⟨fallback, -, made⟩ := bind_eq_ok made
  obtain rfl := Except.ok.inj made
  obtain rfl : durations = some table := timed
  exact Calibration.within_of_ofDatum (ofDatum_of_readDurations told)

/-! ## Devices that are asked for -/

theorem exists_parts_of_ofDatum {settings : Settings} {datum : Datum} {device : Device Float}
    (made : ofDatum settings datum = .ok device) :
    ∃ parts, ofParts settings parts = .ok device := by
  obtain ⟨described, -, made⟩ := bind_eq_ok made
  split at made
  · obtain ⟨fields, -, made⟩ := bind_eq_ok made
    obtain ⟨edges, -, made⟩ := bind_eq_ok made
    obtain ⟨name, -, made⟩ := bind_eq_ok made
    exact ⟨_, made⟩
  · cases made

theorem exists_parts_of_ofPreset {settings : Settings} {name : Datum} {device : Device Float}
    (made : ofPreset settings name = .ok device) :
    ∃ parts, ofParts settings parts = .ok device := by
  obtain ⟨key, -, made⟩ := bind_eq_ok made
  split at made
  · obtain ⟨rates, -, made⟩ := bind_eq_ok made
    exact ⟨_, made⟩
  · cases made

theorem exists_parts_of_ofArguments {rule : Option CouplingRule} {settings : Settings}
    {shape : List String} {numQubits edges : Datum} {arguments : Fields} {device : Device Float}
    (made : ofArguments rule settings shape numQubits edges arguments = .ok device) :
    ∃ parts, ofParts settings parts = .ok device ∧ parts.numQubits = numQubits ∧
      parts.edges = edges ∧ parts.rule = rule := by
  unfold ofArguments at made
  dsimp only at made
  split at made
  · exact ⟨_, made, rfl, rfl, rfl⟩
  · cases made

/-- In whatever way a device is asked for, it is made of parts. -/
theorem exists_parts_of_ofRequest {rules : Rules} {settings : Settings} {maker : Maker}
    {arguments : Arguments} {device : Device Float}
    (made : ofRequest rules settings maker arguments = .ok device) :
    ∃ parts, ofParts settings parts = .ok device := by
  obtain ⟨rule, -, made⟩ := bind_eq_ok made
  obtain ⟨placed, -, made⟩ := bind_eq_ok made
  cases maker with
  | parts | complete =>
      obtain ⟨parts, made, -⟩ := exists_parts_of_ofArguments made
      exact ⟨parts, made⟩
  | edges | line =>
      obtain ⟨edges, -, made⟩ := bind_eq_ok made
      obtain ⟨parts, made, -⟩ := exists_parts_of_ofArguments made
      exact ⟨parts, made⟩
  | grid =>
      obtain ⟨size, -, made⟩ := bind_eq_ok made
      obtain ⟨edges, -, made⟩ := bind_eq_ok made
      obtain ⟨parts, made, -⟩ := exists_parts_of_ofArguments made
      exact ⟨parts, made⟩
  | descriptor =>
      dsimp only at made
      split at made
      · exact exists_parts_of_ofDatum made
      · cases made
  | preset =>
      dsimp only at made
      split at made
      · exact exists_parts_of_ofPreset made
      · cases made

theorem calibrated_of_ofRequest {rules : Rules} {settings : Settings} {maker : Maker}
    {arguments : Arguments} {device : Device Float}
    (made : ofRequest rules settings maker arguments = .ok device) : device.Calibrated := by
  obtain ⟨parts, made⟩ := exists_parts_of_ofRequest made
  exact calibrated_of_ofParts made

theorem within_durations_of_ofRequest {rules : Rules} {settings : Settings} {maker : Maker}
    {arguments : Arguments} {device : Device Float}
    (made : ofRequest rules settings maker arguments = .ok device) {table : Calibration Float}
    (timed : device.durations = some table) : Calibration.Within Calibration.duration table := by
  obtain ⟨parts, made⟩ := exists_parts_of_ofRequest made
  exact within_durations_of_ofParts made timed

end Device

end Peephole
