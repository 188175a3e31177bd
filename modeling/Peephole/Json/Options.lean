import Peephole.Datum.Reader
import Peephole.Datum.Repetition
import Peephole.Json.Writer

/-!
Styles of JSON texts chosen by named options. An indentation spreads a text over lines, which
then do not end in spaces.
-/

namespace Peephole

namespace Json

/-- The options that there are; the last four have no effect on documents. -/
def optionNames : List String :=
  ["indent", "sort_keys", "ensure_ascii", "separators", "allow_nan", "skipkeys",
    "check_circular", "default", "cls"]

/-- What every level is indented by: a text, or so many spaces. -/
def indentOf : Datum → Except Fault (Option String)
  | .null => .ok none
  | .text unit => .ok (some unit)
  | .int width => do return some (← Repetition.repeatText " " width)
  | .bool value => .ok (some (if value then " " else ""))
  | .float _ | .list _ | .map _ => .error .wrongArguments

/-- The separators after items and after keys, if they are given. -/
def separatorsOf : Option Datum → Except Fault (Option (Datum × Datum))
  | none => .ok none
  | some datum => do
    let (item, key) ← datum.pair
    return some (item, key)

/-- Texts that separate, with a space after them unless lines do the same. Over several lines
what separates keys is not needed before the end. -/
def separatorTexts (isIndented : Bool) :
    Option (Datum × Datum) → Except Fault (String × Option String)
  | none => .ok (if isIndented then "," else ", ", some ": ")
  | some (.text item, .text key) => .ok (item, some key)
  | some (.text item, _) => if isIndented then .ok (item, none) else .error .notText
  | some _ => .error .notText

/-- The style of the given options. -/
def Style.ofOptions (options : Fields) : Except Fault Style := do
  if !options.all fun entry => optionNames.any fun name => entry.1.same (.text name) then
    throw .wrongArguments
  if !((options.get? "cls").getD .null matches .null) then throw .wrongArguments
  let given ← separatorsOf (options.get? "separators")
  let indent ← indentOf ((options.get? "indent").getD .null)
  let separators ← separatorTexts indent.isSome given
  let holds (name : String) (default : Bool) : Bool :=
    ((options.get? name).map fun value => !value.isVoid).getD default
  return {
    indent := indent
    itemSeparator := separators.1
    keySeparator := separators.2
    sortsKeys := holds "sort_keys" false
    asciiOnly := holds "ensure_ascii" true
    finiteOnly := !holds "allow_nan" true }

end Json

end Peephole
