import Peephole.Number.Binary64

/-!
Numbers as documents hold them: integers of any size and doubles. They are compared by value
without rounding, so an integer and a double are equal only when they are the same number.
-/

namespace Peephole

inductive Number where
  | int (value : Int)
  | float (value : Float)

namespace Number

/-- A number on the extended line, in units of the least double. -/
inductive Position where
  | undefined
  | below
  | at (units : Int)
  | above
  deriving DecidableEq, Repr

def position : Number → Position
  | .int value => .at (value * twoTo (-Binary64.leastExponent).toNat)
  | .float value =>
    match Binary64.view value with
    | .nan => .undefined
    | .infinite true => .below
    | .infinite false => .above
    | .finite parts => .at parts.units

def Position.lt : Position → Position → Bool
  | .undefined, _ | _, .undefined => false
  | .below, .below | .above, _ | _, .below => false
  | .below, _ | _, .above => true
  | .at left, .at right => left < right

def lt (left right : Number) : Bool :=
  left.position.lt right.position

def same (left right : Number) : Bool :=
  left.position == right.position && left.position != .undefined

def le (left right : Number) : Bool :=
  left.lt right || left.same right

/-- The nearest double, or `none` for an integer beyond all doubles. -/
def toFloat? : Number → Option Float
  | .int value => Binary64.ofInt? value
  | .float value => some value

/-- The least double that is not below a number, so that the doubles below either are the same.
Below zero the nearest double will do. -/
def ceiling (number : Number) : Float :=
  match number with
  | .float value => value
  | .int value =>
    let near := Binary64.nearest (value < 0) value.natAbs 1
    if 0 < value && (Number.float near).lt number then Float.ofBits (near.toBits + 1) else near

/-- Integers are combined exactly. With a double, an integer is taken for the nearest double. -/
def combine (exact : Int → Int → Int) (rounded : Float → Float → Float) (left right : Number) :
    Number :=
  let near (number : Number) : Float := number.toFloat?.getD (Binary64.infinity false)
  match left, right with
  | .int left, .int right => .int (exact left right)
  | left, right => .float (rounded (near left) (near right))

def add : Number → Number → Number := combine (· + ·) (· + ·)

def sub : Number → Number → Number := combine (· - ·) (· - ·)

def mul : Number → Number → Number := combine (· * ·) (· * ·)

/-- The integer that a number equals, if there is one. -/
def toInt? : Number → Option Int
  | .int value => some value
  | .float value => Binary64.toInt? value

end Number

end Peephole
