import Peephole.Number.Binary64

/-!
Decimal texts of doubles. `shortestDigits` finds the fewest digits that read back to the same
double and, among those, the ones nearest to it; `significantDigits` rounds to a given number
of digits. Both work on the exact value. A `Form` says how digits are then laid out, and
the forms in use are records of it: `Form.shortest`, in which numbers are written
everywhere, and `Form.sixDigits`, in which angles are shown in gate texts.
-/

namespace Peephole

namespace Decimal

/-- The number `0.d₁d₂… * 10 ^ (order + 1)`: decimal digits, the first one standing for
`10 ^ order`. -/
structure Digits where
  digits : List Nat
  order : Int
  deriving DecidableEq, Repr

/-- Whether `significand * 2 ^ exponent` reaches `10 ^ order`. -/
def reaches (significand : Nat) (exponent order : Int) : Bool :=
  tenTo order.toNat * twoTo (-exponent).toNat ≤
    significand * twoTo exponent.toNat * tenTo (-order).toNat

/-- The greatest `e` with `10 ^ e ≤ significand * 2 ^ exponent`. The first guess multiplies the
binary order by the logarithm of two, and is off by one at most. -/
def decimalOrder (significand : Nat) (exponent : Int) : Int :=
  let guess := ((significand.log2 : Int) + exponent) * 30103 / 100000
  if reaches significand exponent (guess + 1) then guess + 1
  else if reaches significand exponent guess then guess
  else guess - 1

/-- The digits of a number, most significant first, without the zeros at the end. -/
def ofCount (count : Nat) (unitOrder : Int) : Digits :=
  let digits := (Nat.toDigits 10 count).map fun c => c.toNat - '0'.toNat
  ⟨(digits.reverse.dropWhile (· == 0)).reverse, unitOrder + digits.length - 1⟩

/-- `2 ^ exponent` as a multiple of `10 ^ unitOrder`, numerator and denominator. -/
def gridRatio (exponent unitOrder : Int) : Nat × Nat :=
  (twoTo exponent.toNat * tenTo (-unitOrder).toNat,
    tenTo unitOrder.toNat * twoTo (-exponent).toNat)

/-- The value rounded to so many significant digits, an exact half going to the even digit. -/
def significantDigits (places significand : Nat) (exponent : Int) : Digits :=
  let unitOrder := decimalOrder significand exponent + 1 - places
  let (up, down) := gridRatio exponent unitOrder
  ofCount (roundQuotient (significand * up) down) unitOrder

/-- The point of the decimal grid of `10 ^ unitOrder` nearest to the value among those that
read back to it. Quarters of the last binary place tell the value (`4 * significand`) from the
borders of the interval that rounds to it; below a power of two that interval is narrower. The
borders belong to it when the significand is even. -/
def gridPoint? (significand : Nat) (exponent unitOrder : Int) : Option Nat :=
  let (up, down) := gridRatio (exponent - 2) unitOrder
  let value := 4 * significand * up
  let lowest :=
    (if significand == twoTo 52 && Binary64.leastExponent < exponent then 4 * significand - 1
      else 4 * significand - 2) * up
  let highest := (4 * significand + 2) * up
  let inside (count : Nat) : Bool :=
    if significand % 2 == 0 then lowest ≤ count * down && count * down ≤ highest
    else lowest < count * down && count * down < highest
  let below := value / down
  let above := below + 1
  match 0 < below && inside below, inside above with
  | true, true =>
    if 2 * value < (below + above) * down then some below
    else if (below + above) * down < 2 * value then some above
    else some (if below % 2 == 0 then below else above)
  | true, false => some below
  | false, true => some above
  | false, false => none

/-- The fewest digits that read back to the value. Seventeen always do. -/
def shortestDigits (significand : Nat) (exponent : Int) : Digits :=
  let order := decimalOrder significand exponent
  let found := (List.range 17).findSome? fun (more : Nat) =>
    let unitOrder := order - more
    (gridPoint? significand exponent unitOrder).map (ofCount · unitOrder)
  found.getD (significantDigits 17 significand exponent)

/-- How a number is laid out in text. -/
structure Form where
  /-- Orders from here up are written without an exponent. -/
  positionalFrom : Int
  /-- Orders from here up are written with an exponent. -/
  positionalBelow : Int
  /-- Whether a whole number written without exponent ends in a point and a zero. -/
  keepsPoint : Bool
  nan : String
  infinity : String

/-- Positional from `0.0001` up to below `10 ^ 16`, whole numbers with `.0`. -/
def Form.shortest : Form := ⟨-4, 16, true, "nan", "inf"⟩

/-- As `shortest`, with the spellings that JSON texts use for what is no finite number. -/
def Form.json : Form := ⟨-4, 16, true, "NaN", "Infinity"⟩

/-- Positional from `0.0001` up to below `10 ^ 6`, no trailing zeros. -/
def Form.sixDigits : Form := ⟨-4, 6, false, "nan", "inf"⟩

def digitText (digits : List Nat) : String :=
  String.ofList (digits.map Nat.digitChar)

/-- The exponent with its sign and at least two digits. -/
def exponentText (order : Int) : String :=
  let digits := toString order.natAbs
  (if order < 0 then "e-" else "e+") ++ (if digits.length < 2 then "0" else "") ++ digits

def Form.layOut (form : Form) (number : Digits) : String :=
  let ⟨digits, order⟩ := number
  if form.positionalFrom ≤ order && order < form.positionalBelow then
    if order < 0 then
      "0." ++ digitText (List.replicate (-order - 1).toNat 0 ++ digits)
    else
      let whole := digits.take (order + 1).toNat
      let padded := whole ++ List.replicate ((order + 1).toNat - whole.length) 0
      match digits.drop (order + 1).toNat with
      | [] => digitText padded ++ (if form.keepsPoint then ".0" else "")
      | fraction => digitText padded ++ "." ++ digitText fraction
  else
    match digits with
    | first :: rest@(_ :: _) => digitText [first] ++ "." ++ digitText rest ++ exponentText order
    | _ => digitText digits ++ exponentText order

/-- The text of a double whose digits are chosen by `pick`. Zero has the one digit zero. -/
def Form.write (form : Form) (pick : Nat → Int → Digits) (x : Float) : String :=
  match Binary64.view x with
  | .nan => form.nan
  | .infinite negative => (if negative then "-" else "") ++ form.infinity
  | .finite ⟨negative, significand, exponent⟩ =>
    (if negative then "-" else "") ++
      form.layOut (if significand == 0 then ⟨[0], 0⟩ else pick significand exponent)

/-- The shortest text that reads back to the same double. -/
def shortest (x : Float) : String :=
  Form.shortest.write shortestDigits x

/-- The number to six significant digits. -/
def sixDigits (x : Float) : String :=
  Form.sixDigits.write (significantDigits 6) x

/-- The double nearest to the value rounded to so many significant digits. -/
def roundSignificant (places : Nat) (x : Float) : Float :=
  match Binary64.view x with
  | .finite ⟨negative, significand, exponent⟩ =>
    if significand == 0 then x
    else
      let unitOrder := decimalOrder significand exponent + 1 - places
      let (up, down) := gridRatio exponent unitOrder
      let count := roundQuotient (significand * up) down
      Binary64.nearest negative (count * tenTo unitOrder.toNat) (tenTo (-unitOrder).toNat)
  | _ => x

/-- The double nearest to the value rounded to so many places after the point. -/
def roundPlaces (places : Nat) (x : Float) : Float :=
  match Binary64.view x with
  | .finite ⟨negative, significand, exponent⟩ =>
    let (up, down) := gridRatio exponent (-places)
    Binary64.nearest negative (roundQuotient (significand * up) down) (tenTo places)
  | _ => x

end Decimal

end Peephole
