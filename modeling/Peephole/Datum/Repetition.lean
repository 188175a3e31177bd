import Peephole.Datum.Basic
import Peephole.Fault
import Peephole.Number.Word
import Peephole.Text.CodePoint

/-!
Repeating texts and lists. A count has to be one that a machine word holds, and so does the
length of a text that comes out.
-/

namespace Peephole

namespace Repetition

/-- How often to repeat: a count below zero is as good as zero. -/
def timesOf (count : Int) : Except Fault Nat :=
  if Word.holds count then .ok count.toNat else .error .countTooLarge

def repeatText (text : String) (count : Int) : Except Fault String := do
  let times ← timesOf count
  let length := (Text.points text.toList).length * times
  if length = 0 then return ""
  if Word.bound ≤ length then throw .textTooLong
  return String.join (List.replicate times text)

def repeatItems (items : List Datum) (count : Int) : Except Fault (List Datum) := do
  return (List.replicate (← timesOf count) items).flatten

end Repetition

end Peephole
