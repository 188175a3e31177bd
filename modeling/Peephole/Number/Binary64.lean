import Peephole.Number.Power

/-!
Exact views of binary64 numbers. A finite double is read as a signed integer significand
times a power of two, and a quotient of natural numbers is rounded back to the nearest
double, a half going to the even significand. Everything that has to be exact about
numbers (reading and writing decimals, sums rounded once, rounding to integers) goes
through these two directions and ordinary integer arithmetic in between.
-/

namespace Peephole

/-- The quotient rounded to the nearest natural number, a half going to the even one. -/
def roundQuotient (numerator denominator : Nat) : Nat :=
  let quotient := numerator / denominator
  let twice := 2 * (numerator % denominator)
  if twice < denominator then quotient
  else if denominator < twice then quotient + 1
  else quotient + quotient % 2

namespace Binary64

/-- A finite double as `± significand * 2 ^ exponent`. -/
structure Parts where
  negative : Bool
  significand : Nat
  exponent : Int
  deriving DecidableEq, Repr

inductive View where
  | nan
  | infinite (negative : Bool)
  | finite (parts : Parts)
  deriving DecidableEq, Repr

/-- The least exponent of a double; every finite double is a multiple of `2 ^ leastExponent`. -/
def leastExponent : Int := -1074

def view (x : Float) : View :=
  let bits := x.toBits.toNat
  let negative := bits / twoTo 63 == 1
  let biased : Nat := bits / twoTo 52 % twoTo 11
  let fraction := bits % twoTo 52
  if biased == 2047 then
    if fraction == 0 then .infinite negative else .nan
  else if biased == 0 then .finite ⟨negative, fraction, leastExponent⟩
  else .finite ⟨negative, twoTo 52 + fraction, (biased : Int) - 1075⟩

def isFinite (x : Float) : Bool :=
  match view x with
  | .finite _ => true
  | _ => false

def ofFields (negative : Bool) (magnitude : Nat) : Float :=
  Float.ofBits (UInt64.ofNat ((if negative then twoTo 63 else 0) + magnitude))

def infinity (negative : Bool) : Float :=
  ofFields negative (2047 * twoTo 52)

/-- The greatest `e` with `2 ^ e ≤ numerator / denominator`, for positive arguments. -/
def binaryOrder (numerator denominator : Nat) : Int :=
  let guess : Int := numerator.log2 - denominator.log2
  let reached :=
    if 0 ≤ guess then denominator * twoTo guess.toNat ≤ numerator
    else denominator ≤ numerator * twoTo (-guess).toNat
  if reached then guess else guess - 1

/-- The double nearest to `numerator / denominator`, a half going to the even significand.
The fields of a double count consecutively, so a significand that rounds up to `2 ^ 53`
carries into the exponent by itself, and past the last exponent lies infinity. -/
def nearest (negative : Bool) (numerator denominator : Nat) : Float :=
  if numerator == 0 then ofFields negative 0
  else
    let exponent := max (binaryOrder numerator denominator - 52) leastExponent
    let significand :=
      if 0 ≤ exponent then roundQuotient numerator (denominator * twoTo exponent.toNat)
      else roundQuotient (numerator * twoTo (-exponent).toNat) denominator
    let magnitude := (exponent - leastExponent).toNat * twoTo 52 + significand
    if 2047 * twoTo 52 ≤ magnitude then infinity negative else ofFields negative magnitude

/-- The double nearest to an integer, or `none` when the integer lies beyond all doubles. -/
def ofInt? (i : Int) : Option Float :=
  let x := nearest (i < 0) i.natAbs 1
  if isFinite x then some x else none

/-- The value of a finite double in units of `2 ^ leastExponent`. -/
def Parts.units (p : Parts) : Int :=
  let magnitude : Int := p.significand * twoTo (p.exponent - leastExponent).toNat
  if p.negative then -magnitude else magnitude

/-- The double nearest to so many units of `2 ^ leastExponent`. -/
def ofUnits (units : Int) : Float :=
  nearest (units < 0) units.natAbs (twoTo (-leastExponent).toNat)

/-- A finite double in units of `2 ^ leastExponent`. -/
def units? (x : Float) : Option Int :=
  match view x with
  | .finite parts => some parts.units
  | _ => none

/-- The sum of the terms, rounded once: the exact sum is formed in integers first, so neither
order nor grouping shows. An infinite term decides the sum unless its opposite is there too. -/
def sum (terms : List Float) : Float :=
  match terms.mapM units? with
  | some units => ofUnits (units.foldr (· + ·) 0)
  | none =>
    let views := terms.map view
    let rises := views.contains (.infinite false)
    let falls := views.contains (.infinite true)
    if views.contains .nan || (rises && falls) then 0.0 / 0.0 else infinity falls

/-- The nearest integer, a half going to the even one; `none` for infinities and for what is
no number. -/
def nearestInt? (x : Float) : Option Int :=
  match view x with
  | .finite parts =>
    let magnitude :=
      if 0 ≤ parts.exponent then parts.significand * twoTo parts.exponent.toNat
      else roundQuotient parts.significand (twoTo (-parts.exponent).toNat)
    some (if parts.negative then -(magnitude : Int) else magnitude)
  | _ => none

/-- The integer that equals the double, if there is one. -/
def toInt? (x : Float) : Option Int :=
  match view x with
  | .finite parts =>
    let signed (magnitude : Nat) : Int := if parts.negative then -magnitude else magnitude
    if 0 ≤ parts.exponent then some (signed (parts.significand * twoTo parts.exponent.toNat))
    else
      let unit := twoTo (-parts.exponent).toNat
      if parts.significand % unit == 0 then some (signed (parts.significand / unit)) else none
  | _ => none

end Binary64

end Peephole
