import Peephole.Datum.Literal
import Peephole.Fault
import Peephole.Number.Reading

/-!
Writing JSON texts. A `Style` says how a document is laid out: on one line or over several, with
which separators, in which order of keys, and which characters and numbers may appear. Keys that
are not texts are written as the text of their value. Entries are written in the order in which
they appear, and the first of them that cannot be written is told.
-/

namespace Peephole

namespace Json

structure Style where
  /-- What each level of nesting is indented by, if the text goes over several lines. -/
  indent : Option String
  itemSeparator : String
  /-- What stands between a key and its value. If nothing does, no text can be made of the
  parts. -/
  keySeparator : Option String
  sortsKeys : Bool
  asciiOnly : Bool
  /-- Whether infinities and what is no number are refused. -/
  finiteOnly : Bool

/-- On one line, with a space after every separator, in ASCII. -/
def Style.plain : Style := ⟨none, ", ", some ": ", false, true, false⟩

/-- Over several lines, indented by spaces, in ASCII. -/
def Style.indented (width : Nat) : Style :=
  ⟨some ("".pushn ' ' width), ",", some ": ", false, true, false⟩

/-! ## Scalars -/

def unitEscape (unit : Nat) : String :=
  "\\u" ++ Text.hexadecimal 4 unit

/-- A code point by its number, one beyond the first plane as two halves. -/
def numericEscape (point : Nat) : String :=
  if point < 0x10000 then unitEscape point
  else
    let offset := point - 0x10000
    unitEscape (0xd800 + offset / 0x400) ++ unitEscape (0xdc00 + offset % 0x400)

def escaped (asciiOnly : Bool) (point : Nat) : String :=
  match Char.ofNat point with
  | '"' => "\\\""
  | '\\' => "\\\\"
  | '\n' => "\\n"
  | '\r' => "\\r"
  | '\t' => "\\t"
  | '\x0c' => "\\f"
  | '\x08' => "\\b"
  | _ =>
    if point < 0x20 || (asciiOnly && 0x7f ≤ point) then numericEscape point
    else String.ofList (Text.spellPoint point)

def writeText (style : Style) (text : String) : String :=
  "\"" ++ String.join ((Text.points text.toList).map (escaped style.asciiOnly)) ++ "\""

def writeInt (value : Int) : Except Fault String :=
  if Reading.isWritable value then .ok (toString value) else .error .integerUnwritable

def floatText (x : Float) : String :=
  Decimal.Form.json.write Decimal.shortestDigits x

/-- Where the text goes over several lines, the number that is refused is told. -/
def writeFloat (style : Style) (x : Float) : Except Fault String :=
  if style.finiteOnly && !Binary64.isFinite x then
    .error (.nonFiniteNumber (style.indent.map fun _ => Decimal.shortest x))
  else .ok (floatText x)

def writeBool (value : Bool) : String :=
  if value then "true" else "false"

def writeKey (style : Style) : Key → Except Fault String
  | .text value => .ok (writeText style value)
  | .null => .ok (writeText style "null")
  | .bool value => .ok (writeText style (writeBool value))
  | .int value => return writeText style (← writeInt value)
  | .float value => return writeText style (← writeFloat style value)

/-! ## Order of keys -/

/-- Texts are ordered by their code points and numbers by value; no other two keys have an
order. -/
def keyLe? (left right : Key) : Option Bool :=
  match left, right with
  | .text left, .text right => some (Text.le left right)
  | left, right =>
    match left.number?, right.number? with
    | some left, some right => some (left.le right)
    | _, _ => none

/-- Whether every two neighbours, and so all keys, are texts or are numbers. -/
def haveOrder : List Key → Bool
  | left :: right :: rest => (keyLe? left right).isSome && haveOrder (right :: rest)
  | _ => true

/-- Entries in the order in which they appear. -/
def arrange {β : Type} (style : Style) (entries : List (Key × β)) : List (Key × β) :=
  if style.sortsKeys then
    entries.mergeSort fun left right => (keyLe? left.1 right.1).getD true
  else entries

/-! ## Documents -/

/-- What goes before a part on the given level. -/
def lineBreak (style : Style) (level : Nat) : String :=
  match style.indent with
  | some unit => "\n" ++ String.join (List.replicate level unit)
  | none => ""

/-- The parts between an opening and a closing mark, each on a line of its own if the text goes
over several lines. -/
def enclose (style : Style) (level : Nat) (opening closing : String) (parts : List String) :
    String :=
  if parts.isEmpty then opening ++ closing
  else
    opening ++ lineBreak style (level + 1) ++
      (style.itemSeparator ++ lineBreak style (level + 1)).intercalate parts ++
      lineBreak style level ++ closing

mutual

def writeAt (style : Style) (level : Nat) : Datum → Except Fault String
  | .null => .ok "null"
  | .bool value => .ok (writeBool value)
  | .int value => writeInt value
  | .float value => writeFloat style value
  | .text value => .ok (writeText style value)
  | .list items => return enclose style level "[" "]" (← writeItems style (level + 1) items)
  | .map fields =>
    if style.sortsKeys && !haveOrder (fields.map (·.1)) then .error .unordered
    else do
      let parts ← (arrange style (writeFields style (level + 1) fields)).mapM (·.2)
      return enclose style level "\x7b" "\x7d" parts

def writeItems (style : Style) (level : Nat) : List Datum → Except Fault (List String)
  | [] => .ok []
  | item :: rest => return (← writeAt style level item) :: (← writeItems style level rest)

/-- What becomes of each entry. -/
def writeFields (style : Style) (level : Nat) :
    List (Key × Datum) → List (Key × Except Fault String)
  | [] => []
  | (key, value) :: rest =>
    let written : Except Fault String := do
      let name ← writeKey style key
      return name ++ style.keySeparator.getD "" ++ (← writeAt style level value)
    (key, written) :: writeFields style level rest

end

/-- The text of a document. The parts are written before they are put together. -/
def write (style : Style) (datum : Datum) : Except Fault String := do
  let text ← writeAt style 0 datum
  if style.keySeparator.isNone then throw .notText else return text

end Json

end Peephole
