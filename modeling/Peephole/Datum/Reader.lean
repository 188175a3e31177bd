import Peephole.Datum.Literal
import Peephole.Fault
import Peephole.Number.Reading

/-!
Reading documents. Each reader takes what it can use of a document and otherwise says what is
wrong with it. Collections are read generously: a text is the list of its code points and a map
the list of its keys. Integers are read strictly: neither truth values nor doubles will do.
-/

namespace Peephole

/-- Chains of checks are opened one check at a time. -/
theorem bind_eq_ok {ε β γ : Type} {first : Except ε β} {next : β → Except ε γ} {result : γ}
    (passed : (first >>= next) = .ok result) :
    ∃ value, first = .ok value ∧ next value = .ok result := by
  cases first with
  | error fault => cases passed
  | ok value => exact ⟨value, rfl, passed⟩

/-- What a check passes is known by what is told of it. -/
theorem exists_eq_ok_of_toOption {ε β γ : Type} {checked : Except ε β} {tell : β → γ} {told : γ}
    (known : checked.toOption.map tell = some told) :
    ∃ value, checked = .ok value ∧ tell value = told := by
  cases checked with
  | error fault => cases known
  | ok value => exact ⟨value, rfl, Option.some.inj known⟩

def Key.isShowable : Key → Bool
  | .int value => Reading.isWritable value
  | .null | .bool _ | .float _ | .text _ => true

namespace Datum

/-- An index, or a width: an integer in the strict sense. -/
def toIndex (what : String) : Datum → Except Fault Int
  | .int value => .ok value
  | other => .error (.notAnIndex what other.literal)

theorem toIndex_eq_ok_iff {what : String} {datum : Datum} {i : Int} :
    datum.toIndex what = .ok i ↔ datum = .int i := by
  cases datum <;> simp [toIndex]

/-- A double, from a number, a truth value or the text of a number. -/
def toFloat : Datum → Except Fault Float
  | .float value => .ok value
  | .text value =>
    match Reading.float? value with
    | some x => .ok x
    | none => .error (.notANumber (Text.quoted value))
  | other =>
    match other.number? with
    | some number =>
      match number.toFloat? with
      | some x => .ok x
      | none => .error .integerTooLarge
    | none => .error .notNumeric

/-- The number that a document is, truth values being zero and one. -/
def toNumber (datum : Datum) : Except Fault Number :=
  match datum.number? with
  | some number => .ok number
  | none => .error .unordered

/-- The items of a collection. -/
def elements : Datum → Except Fault (List Datum)
  | .list items => .ok items
  | .text value => .ok ((Text.singles value).map .text)
  | .map fields => .ok (fields.map fun entry => entry.1.toDatum)
  | _ => .error .notIterable

/-- The items of a collection of so many. -/
def exactly (count : Nat) (datum : Datum) : Except Fault (List Datum) := do
  let items ← datum.elements
  if items.length < count then throw (.tooFewItems count items.length)
  else if count < items.length then throw (.tooManyItems count)
  else return items

/-- The items of a collection of two. -/
def pair (datum : Datum) : Except Fault (Datum × Datum) := do
  match ← datum.exactly 2 with
  | [left, right] => return (left, right)
  | items => throw (.tooFewItems 2 items.length)

mutual

/-- Whether a document can be shown: integers of too many digits are not written, whatever they
stand in. -/
def isShowable : Datum → Bool
  | .int value => Reading.isWritable value
  | .list items => areShowable items
  | .map fields => areShowableFields fields
  | .null | .bool _ | .float _ | .text _ => true

def areShowable : List Datum → Bool
  | [] => true
  | item :: rest => item.isShowable && areShowable rest

def areShowableFields : List (Key × Datum) → Bool
  | [] => true
  | (key, value) :: rest => key.isShowable && value.isShowable && areShowableFields rest

end

/-- The text that stands for a document. -/
def toText (datum : Datum) : Except Fault String :=
  if datum.isShowable then .ok datum.plain else .error .integerUnwritable

@[simp]
theorem toText_text (text : String) : toText (.text text) = .ok text :=
  rfl

theorem exists_toText_iff {datum : Datum} :
    (∃ text, datum.toText = .ok text) ↔ datum.isShowable = true := by
  unfold toText
  split
  · rename_i showable
    exact iff_of_true ⟨_, rfl⟩ showable
  · rename_i hidden
    exact iff_of_false nofun hidden

/-- The entries of a map, and of nothing else. -/
def fields : Datum → Except Fault Fields
  | .map fields => .ok fields
  | _ => .error .notAMapping

def toKey (datum : Datum) : Except Fault Key :=
  match datum.key? with
  | some key => .ok key
  | none => .error .unhashable

/-- The entries that a sequence of pairs lists, the pairs counted from `position`. -/
def pairs (position : Nat) : List Datum → Except Fault (List (Key × Datum))
  | [] => .ok []
  | pair :: rest => do
    match ← pair.elements with
    | [key, value] =>
      let key ← key.toKey
      return (key, value) :: (← pairs (position + 1) rest)
    | items => .error (.pairLength position items.length)

/-- Annotations: a map, or a sequence of pairs that lists one. What says nothing is the empty
map. -/
def annotations (datum : Datum) : Except Fault Fields := do
  if datum.isVoid then return []
  match datum with
  | .map fields => return fields
  | other => return Fields.ofEntries (← pairs 0 (← other.elements))

end Datum

/-- The value of a required entry. -/
def Fields.require (fields : Fields) (name : String) : Except Fault Datum :=
  match fields.get? name with
  | some value => .ok value
  | none => .error (.missingKey (Text.quoted name))

end Peephole
