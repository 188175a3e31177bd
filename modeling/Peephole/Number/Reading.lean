import Peephole.Number.Binary64
import Peephole.Text.Blank
import Peephole.Text.Digit

/-!
Numbers written as text. Blanks around a number are ignored, digits may come from any script,
and a single underscore may stand between two digits. Decimals are rounded once, to the double
nearest to what is written.
-/

namespace Peephole

namespace Reading

/-- Integers of more digits than this are neither read nor written. -/
def digitLimit : Nat := 4300

def isWritable (value : Int) : Bool :=
  value.natAbs < tenTo digitLimit

def digitsValue (digits : List Nat) : Nat :=
  digits.foldl (fun value digit => 10 * value + digit) 0

/-- The double nearest to `digits * 10 ^ exponent`. Far outside the range of doubles the result
is known from the number of digits alone, and no power of ten is formed. -/
def ofDecimal (negative : Bool) (digits : List Nat) (exponent : Int) : Float :=
  let significant := digits.dropWhile (· == 0)
  let size := significant.length + exponent
  if significant.isEmpty || size < -400 then Binary64.nearest negative 0 1
  else if 400 < size then Binary64.infinity negative
  else
    Binary64.nearest negative (digitsValue significant * tenTo exponent.toNat)
      (tenTo (-exponent).toNat)

def asciiDigit? (c : Char) : Option Nat :=
  if c.isDigit then some (c.toNat - '0'.toNat) else none

/-- The digits at the front of a text and the rest. An underscore is skipped where it follows a
digit, which `afterDigit` tells, and stands before one. -/
def digitsFrom (afterDigit : Bool) : List Char → List Nat × List Char
  | [] => ([], [])
  | c :: rest =>
    match asciiDigit? c with
    | some digit =>
      let (digits, remaining) := digitsFrom true rest
      (digit :: digits, remaining)
    | none =>
      if c == '_' && afterDigit && rest.head?.any Char.isDigit then digitsFrom false rest
      else ([], c :: rest)

def digitRun (text : List Char) : List Nat × List Char :=
  digitsFrom false text

/-- A sign at the front of a text, and the rest. -/
def signOf : List Char → Bool × List Char
  | '-' :: rest => (true, rest)
  | '+' :: rest => (false, rest)
  | rest => (false, rest)

/-- The blanks that may surround a number: all but the four separator controls. -/
def isMargin (c : Char) : Bool :=
  Text.isBlank c && !(0x1c ≤ c.toNat && c.toNat ≤ 0x1f)

/-- The text of a number without the blanks around it and in digits `0` to `9`. -/
def plain (text : String) : List Char :=
  (Text.trimWhile isMargin text.toList).map fun c =>
    match Text.digitValue? c with
    | some digit => digit.digitChar
    | none => c

/-- The integer that a text denotes. -/
def int? (text : String) : Option Int :=
  let (negative, unsigned) := signOf (plain text)
  match digitRun unsigned with
  | (digits@(_ :: _), []) =>
    if digitLimit < digits.length then none
    else some (if negative then -(digitsValue digits : Int) else digitsValue digits)
  | _ => none

/-- The exponent part of a decimal, which may be missing: `e`, a sign, digits. -/
def exponent? : List Char → Option Int
  | [] => some 0
  | mark :: rest =>
    if mark == 'e' || mark == 'E' then
      let (negative, unsigned) := signOf rest
      match digitRun unsigned with
      | (digits@(_ :: _), []) =>
        some (if negative then -(digitsValue digits : Int) else digitsValue digits)
      | _ => none
    else none

/-- The double that a text denotes: a decimal, an infinity, or what is no number. -/
def float? (text : String) : Option Float :=
  let (negative, unsigned) := signOf (plain text)
  let word := String.ofList (unsigned.map Char.toLower)
  if word == "inf" || word == "infinity" then some (Binary64.infinity negative)
  else if word == "nan" then some (0.0 / 0.0)
  else
    let (whole, rest) := digitRun unsigned
    let (fraction, rest) :=
      match rest with
      | '.' :: rest => digitRun rest
      | rest => ([], rest)
    if whole.isEmpty && fraction.isEmpty then none
    else (exponent? rest).map fun exponent =>
      ofDecimal negative (whole ++ fraction) (exponent - fraction.length)

end Reading

end Peephole
