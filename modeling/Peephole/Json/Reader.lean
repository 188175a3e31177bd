import Peephole.Datum.Basic
import Peephole.Fault
import Peephole.Number.Scan
import Peephole.Text.CodePoint
import Peephole.Text.Scan

/-!
Reading JSON texts. A number with a fraction or an exponent is a double, any other an integer.
Of entries with one name the last counts, in the place of the first. Beside the standard
literals, `NaN`, `Infinity` and `-Infinity` are read. Every reader returns the rest of the text;
the readers are bounded by a count of steps, of which there are at most two for every character.
-/

namespace Peephole

namespace Json

open Scan

open Text (skipSpace dropWord?)

/-! ## Numbers -/

/-- A fraction: a point and at least one digit. -/
def fraction? : List Char → Option (List Nat × List Char)
  | '.' :: rest =>
    match digits rest with
    | ([], _) => none
    | found => some found
  | _ => none

/-- An unsigned number. A leading zero stands alone. -/
def unsigned (negative : Bool) (input : List Char) : Except Fault (Datum × List Char) :=
  let (whole, rest) :=
    match input with
    | '0' :: rest => ([0], rest)
    | input => digits input
  if whole.isEmpty then .error .malformedJson
  else
    match fraction? rest, exponent? rest with
    | some (fraction, rest), _ =>
      let (exponent, rest) := (exponent? rest).getD (0, rest)
      .ok (.float (Reading.ofDecimal negative (whole ++ fraction) (exponent - fraction.length)),
        rest)
    | none, some (exponent, rest) => .ok (.float (Reading.ofDecimal negative whole exponent), rest)
    | none, none =>
      if Reading.digitLimit < whole.length then .error (.integerTooLong whole.length)
      else
        let value : Int := Reading.digitsValue whole
        .ok (.int (if negative then -value else value), rest)

def number : List Char → Except Fault (Datum × List Char)
  | '-' :: rest =>
    match dropWord? "Infinity".toList rest with
    | some rest => .ok (.float (Binary64.infinity true), rest)
    | none => unsigned true rest
  | input => unsigned false input

/-! ## Texts -/

def hexValue? (c : Char) : Option Nat :=
  if c.isDigit then some (c.toNat - '0'.toNat)
  else if 'a' ≤ c && c ≤ 'f' then some (c.toNat - 'a'.toNat + 10)
  else if 'A' ≤ c && c ≤ 'F' then some (c.toNat - 'A'.toNat + 10)
  else none

/-- The code unit of four hexadecimal digits. -/
def codeUnit? : List Char → Option (Nat × List Char)
  | a :: b :: c :: d :: rest => do
    let a ← hexValue? a
    let b ← hexValue? b
    let c ← hexValue? c
    let d ← hexValue? d
    return (((a * 16 + b) * 16 + c) * 16 + d, rest)
  | _ => none

def simpleEscape? : Char → Option Char
  | '"' => some '"'
  | '\\' => some '\\'
  | '/' => some '/'
  | 'b' => some '\x08'
  | 'f' => some '\x0c'
  | 'n' => some '\n'
  | 'r' => some '\r'
  | 't' => some '\t'
  | _ => none

/-- The code point of a high and a low half, if the two numbers are such halves. -/
def joinHalves? (high low : Nat) : Option Nat :=
  if 0xd800 ≤ high && high < 0xdc00 && 0xdc00 ≤ low && low < 0xe000 then
    some (0x10000 + (high - 0xd800) * 0x400 + (low - 0xdc00))
  else none

/-- The rest of a text after its opening quote, up to and without the closing one, in at most so
many steps. -/
def textBody : Nat → List Char → Option (List Char × List Char)
  | 0, _ => none
  | _ + 1, [] => none
  | _ + 1, '"' :: rest => some ([], rest)
  | fuel + 1, '\\' :: 'u' :: rest => do
    let (high, rest) ← codeUnit? rest
    let joined : Option (Nat × List Char) :=
      match rest with
      | '\\' :: 'u' :: more => do
        let (low, more) ← codeUnit? more
        return (← joinHalves? high low, more)
      | _ => none
    let (point, rest) := joined.getD (high, rest)
    let (body, rest) ← textBody fuel rest
    return (Text.spellPoint point ++ body, rest)
  | fuel + 1, '\\' :: mark :: rest => do
    let c ← simpleEscape? mark
    let (body, rest) ← textBody fuel rest
    return (c :: body, rest)
  | fuel + 1, c :: rest => do
    if c == '\\' || c.toNat < 0x20 then none
    else
      let (body, rest) ← textBody fuel rest
      return (c :: body, rest)

def textAfterQuote (steps : Nat) (input : List Char) : Except Fault (String × List Char) :=
  match textBody steps input with
  | some (body, rest) => .ok (String.ofList body, rest)
  | none => .error .malformedJson

/-! ## Values -/

def literals : List (List Char × Datum) :=
  [("null".toList, .null), ("true".toList, .bool true), ("false".toList, .bool false),
    ("NaN".toList, .float (0.0 / 0.0)), ("Infinity".toList, .float (Binary64.infinity false))]

def literal? (input : List Char) : Option (Datum × List Char) :=
  literals.findSome? fun (word, value) => (dropWord? word input).map (value, ·)

/-- The rest after an expected character. -/
def dropChar (c : Char) : List Char → Except Fault (List Char)
  | d :: rest => if c == d then .ok rest else .error .malformedJson
  | [] => .error .malformedJson

mutual

/-- The value at the front of a text. -/
def value : Nat → List Char → Except Fault (Datum × List Char)
  | 0, _ => .error .malformedJson
  | fuel + 1, input =>
    match input with
    | '"' :: rest => do
      let (text, rest) ← textAfterQuote fuel rest
      return (.text text, rest)
    | '[' :: rest =>
      match skipSpace rest with
      | ']' :: rest => .ok (.list [], rest)
      | rest => do
        let (items, rest) ← items fuel rest
        return (.list items, rest)
    | '\x7b' :: rest =>
      match skipSpace rest with
      | '\x7d' :: rest => .ok (.map [], rest)
      | rest => do
        let (entries, rest) ← entries fuel rest
        return (.map (Fields.ofEntries entries), rest)
    | input =>
      match literal? input with
      | some found => .ok found
      | none => number input

/-- The items of a list, of which there is at least one, and its closing bracket. -/
def items : Nat → List Char → Except Fault (List Datum × List Char)
  | 0, _ => .error .malformedJson
  | fuel + 1, input => do
    let (item, rest) ← value fuel input
    match skipSpace rest with
    | ']' :: rest => return ([item], rest)
    | ',' :: rest =>
      let (more, rest) ← items fuel (skipSpace rest)
      return (item :: more, rest)
    | _ => .error .malformedJson

/-- The entries of a map, of which there is at least one, and its closing brace. -/
def entries : Nat → List Char → Except Fault (List (Key × Datum) × List Char)
  | 0, _ => .error .malformedJson
  | fuel + 1, input => do
    let (name, rest) ← textAfterQuote fuel (← dropChar '"' input)
    let rest ← dropChar ':' (skipSpace rest)
    let (entry, rest) ← value fuel (skipSpace rest)
    match skipSpace rest with
    | '\x7d' :: rest => return ([(.text name, entry)], rest)
    | ',' :: rest =>
      let (more, rest) ← entries fuel (skipSpace rest)
      return ((.text name, entry) :: more, rest)
    | _ => .error .malformedJson

end

/-- The document that a text holds, and nothing but space around it. -/
def read (text : String) : Except Fault Datum := do
  let input := text.toList
  let (datum, rest) ← value (2 * input.length + 2) (skipSpace input)
  if (skipSpace rest).isEmpty then return datum else .error .malformedJson

end Json

end Peephole
