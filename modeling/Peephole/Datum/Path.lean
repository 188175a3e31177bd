import Peephole.Datum.Reader
import Peephole.Number.Word

/-!
Places inside documents. A path leads from a map, list or text to a part of it, from there to a
part of that, and so on; items of a list and code points of a text are counted from either end.
-/

namespace Peephole

namespace Datum

/-- The position in a collection of so many items that a document means. Below zero it counts
from the end. -/
def position (length : Nat) (place : Datum) (beyond : Fault) : Except Fault Nat :=
  let place? : Option Int :=
    match place with
    | .int index => some index
    | .bool value => some (if value then 1 else 0)
    | _ => none
  match place? with
  | none => .error .wrongArguments
  | some index =>
    let position := if index < 0 then index + length else index
    if !Word.holds index then .error .placeTooFar
    else if 0 ≤ position && position < length then .ok position.toNat
    else .error beyond

/-- The part of a document at a place: an entry of a map, an item of a list, or a text of one
code point. -/
def part (datum place : Datum) : Except Fault Datum :=
  match datum with
  | .map fields => do
    match Fields.find? fields (← place.toKey) with
    | some inner => return inner
    | none => throw (.missingKey place.literal)
  | .list items => do
    return items.getD (← position items.length place .missingItem) .null
  | .text value => do
    let singles := Text.singles value
    return .text (singles.getD (← position singles.length place .missingCharacter) "")
  | _ => .error .wrongArguments

/-- The document with another part at a place, which only a map need not have already. -/
def withPart (datum place value : Datum) : Except Fault Datum :=
  match datum with
  | .map fields => do return .map (Fields.set fields (← place.toKey) value)
  | .list items => do
    return .list (items.set (← position items.length place .missingPlace) value)
  | _ => .error .wrongArguments

/-- The end of a path. -/
def reach (datum : Datum) (path : List Datum) : Except Fault Datum :=
  path.foldlM part datum

/-- Sets the value at a place to which a path leads. All places on the path have to be there. -/
def assign (datum : Datum) : List Datum → Datum → Datum → Except Fault Datum
  | [], last, value => datum.withPart last value
  | place :: rest, last, value => do
    let inner ← datum.part place
    datum.withPart place (← inner.assign rest last value)

end Datum

end Peephole
