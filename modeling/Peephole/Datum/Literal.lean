import Peephole.Datum.Basic
import Peephole.Number.Decimal
import Peephole.Text.Quoted

/-!
The text in which a document is shown in messages and names: texts quoted, numbers in their
shortest form, lists in brackets, maps in braces.
-/

namespace Peephole

def boolLiteral (value : Bool) : String :=
  if value then "True" else "False"

def nullLiteral : String := "None"

def Key.literal : Key → String
  | .null => nullLiteral
  | .bool value => boolLiteral value
  | .int value => toString value
  | .float value => Decimal.shortest value
  | .text value => Text.quoted value

namespace Datum

def separated (parts : List String) : String :=
  ", ".intercalate parts

mutual

def literal : Datum → String
  | .null => nullLiteral
  | .bool value => boolLiteral value
  | .int value => toString value
  | .float value => Decimal.shortest value
  | .text value => Text.quoted value
  | .list items => "[" ++ separated (literals items) ++ "]"
  | .map fields => "\x7b" ++ separated (fieldLiterals fields) ++ "\x7d"

def literals : List Datum → List String
  | [] => []
  | item :: rest => item.literal :: literals rest

def fieldLiterals : List (Key × Datum) → List String
  | [] => []
  | (key, value) :: rest => (key.literal ++ ": " ++ value.literal) :: fieldLiterals rest

end

/-- A text as it is, any other document as its literal. -/
def plain : Datum → String
  | .text value => value
  | other => other.literal

end Datum

end Peephole
