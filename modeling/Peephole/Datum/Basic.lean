import Peephole.Number.Exact

/-!
Documents: the values that circuits, targets and settings are read from and written to, and
that names and annotations hold. A map keeps its entries in order and holds each key once.
Keys are scalars; a number is the same key whatever its form, and truth values count as the
numbers zero and one.
-/

namespace Peephole

inductive Key where
  | null
  | bool (value : Bool)
  | int (value : Int)
  | float (value : Float)
  | text (value : String)

inductive Datum where
  | null
  | bool (value : Bool)
  | int (value : Int)
  | float (value : Float)
  | text (value : String)
  | list (items : List Datum)
  | map (fields : List (Key × Datum))

/-- The entries of a map, in order. -/
abbrev Fields := List (Key × Datum)

instance : Inhabited Datum := ⟨.null⟩

/-! ## Keys -/

namespace Key

def number? : Key → Option Number
  | .bool value => some (.int (if value then 1 else 0))
  | .int value => some (.int value)
  | .float value => some (.float value)
  | .null | .text _ => none

def same (left right : Key) : Bool :=
  match left, right with
  | .null, .null => true
  | .text left, .text right => left == right
  | left, right =>
    match left.number?, right.number? with
    | some left, some right => left.same right
    | _, _ => false

def toDatum : Key → Datum
  | .null => .null
  | .bool value => .bool value
  | .int value => .int value
  | .float value => .float value
  | .text value => .text value

end Key

/-! ## Maps -/

namespace Fields

def find? (fields : Fields) (key : Key) : Option Datum :=
  (List.find? (fun entry => entry.1.same key) fields).map (·.2)

def get? (fields : Fields) (name : String) : Option Datum :=
  fields.find? (.text name)

/-- Sets the value of a key, in the key's place if it is there already, else at the end. -/
def set : Fields → Key → Datum → Fields
  | [], key, value => [(key, value)]
  | (present, old) :: rest, key, value =>
    if present.same key then (present, value) :: rest else (present, old) :: set rest key value

/-- The map of a sequence of entries, in which a later value of a key replaces an earlier
one. -/
def ofEntries (entries : List (Key × Datum)) : Fields :=
  entries.foldl (fun fields entry => set fields entry.1 entry.2) []

def values (fields : Fields) : List Datum :=
  List.map (·.2) fields

end Fields

namespace Datum

/-- A map from names to values. -/
def record (fields : List (String × Datum)) : Datum :=
  .map (fields.map fun field => (.text field.1, field.2))

def ofNat (n : Nat) : Datum :=
  .int n

/-- The scalar as a key; collections cannot be keys. -/
def key? : Datum → Option Key
  | .null => some .null
  | .bool value => some (.bool value)
  | .int value => some (.int value)
  | .float value => some (.float value)
  | .text value => some (.text value)
  | .list _ | .map _ => none

/-- The value of a number or truth value. -/
def number? : Datum → Option Number
  | .bool value => some (.int (if value then 1 else 0))
  | .int value => some (.int value)
  | .float value => some (.float value)
  | .null | .text _ | .list _ | .map _ => none

/-- Whether a value says nothing: null, false, zero, or an empty text, list or map. -/
def isVoid : Datum → Bool
  | .null => true
  | .bool value => !value
  | .int value => value == 0
  | .float value => value == 0.0
  | .text value => value.isEmpty
  | .list items => items.isEmpty
  | .map fields => fields.isEmpty

/-! ## Equality of documents -/

mutual

/-- Equality by value: numbers and truth values as numbers, lists item by item, maps as sets of
entries whatever their order. -/
def same : Datum → Datum → Bool
  | .null, .null => true
  | .text left, .text right => left == right
  | .list left, .list right => sameItems left right
  | .map left, .map right => left.length == right.length && sameFields left right
  | .bool left, right => right.number?.any (Number.same (.int (if left then 1 else 0)))
  | .int left, right => right.number?.any (Number.same (.int left))
  | .float left, right => right.number?.any (Number.same (.float left))
  | _, _ => false

def sameItems : List Datum → List Datum → Bool
  | [], [] => true
  | left :: lefts, right :: rights => left.same right && sameItems lefts rights
  | _, _ => false

/-- Whether every entry of the first map is in the second. -/
def sameFields : List (Key × Datum) → List (Key × Datum) → Bool
  | [], _ => true
  | (key, value) :: rest, fields =>
    (match Fields.find? fields key with
      | some other => value.same other
      | none => false) && sameFields rest fields

end

end Datum

end Peephole
