import Peephole.Fault
import Peephole.Number.Decimal

/-!
Angles in programs. An angle that is a small fraction of pi, or of its reciprocal, is written as
one; any other is written as a decimal. What the angle is to pi is looked at before what it is to
the reciprocal, and each of the two ratios has to be finite when it is looked at.
-/

namespace Peephole

namespace Program

def pi : Float := 3.141592653589793

/-- Below this difference two ratios are the same. -/
def ratioMargin : Float := 1e-12

/-- The greatest numerator and the greatest denominator of a fraction of pi. -/
def fractionLimit : Nat := 99

/-- The fraction of a denominator that a ratio is, up to the margin. -/
def fractionOver? (ratio : Float) (denominator : Nat) : Option (Nat × Nat) :=
  let parts := Float.ofNat denominator
  match Binary64.nearestInt? (ratio * parts) with
  | some nearest =>
    let numerator := nearest.toNat
    let fraction := Float.ofNat numerator / parts
    if numerator ≤ fractionLimit && (ratio - fraction).abs < ratioMargin then
      some (numerator, denominator)
    else none
  | none => none

/-- The fraction that a ratio is, up to the margin, if it is a small one. It is reduced, since the
least denominator is taken. Only finite numbers are ratios. -/
def fractionNear? (ratio : Float) : Except Fault (Option (Nat × Nat)) :=
  if ratio.isNaN then .error .ratioOfNaN
  else if ratio.isInf then .error .ratioOfInfinity
  else .ok ((List.range' 1 fractionLimit).findSome? (fractionOver? ratio))

def fractionOfPiText (numerator denominator : Nat) : String :=
  (if numerator = 1 then "pi" else toString numerator ++ "*pi") ++
    (if denominator = 1 then "" else "/" ++ toString denominator)

/-- The decimal of an angle. A decimal with an exponent has a point in front of it. -/
def decimalText (angle : Float) : String :=
  let text := (Decimal.shortest angle).toList
  let mantissa := text.takeWhile (· != 'e')
  let exponent := text.dropWhile (· != 'e')
  let point := if exponent.isEmpty || mantissa.contains '.' then [] else ['.']
  String.ofList (mantissa ++ point ++ exponent)

/-- The text of an angle: a fraction of pi, a fraction of its reciprocal, or a decimal. -/
def angleText (angle : Float) : Except Fault String := do
  let sign := if angle < 0.0 then "-" else ""
  match ← fractionNear? (angle.abs / pi) with
  | some (0, _) => return "0"
  | some (numerator, denominator) => return sign ++ fractionOfPiText numerator denominator
  | none =>
    match ← fractionNear? (angle.abs * pi) with
    | some (numerator, denominator) =>
      return sign ++ toString numerator ++ "/(" ++ toString denominator ++ "*pi)"
    | none => return decimalText angle

end Program

end Peephole
