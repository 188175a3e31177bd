import Peephole.Device.Basic

/-!
Common rules on pairs of qubits, by name. They are stated for all numbers, so that they also
answer for places between qubits.
-/

namespace Peephole

namespace CouplingRule

/-- Holds of numbers with an odd sum. -/
def oddSum : CouplingRule := fun left right =>
  (left.add right).toInt?.any fun sum => sum % 2 == 1

/-- Holds of numbers that are at most two apart. -/
def withinTwo : CouplingRule := fun left right =>
  let difference := left.sub right
  (Number.int (-2)).le difference && difference.le (.int 2)

/-- Holds if one of the numbers is zero. -/
def star : CouplingRule := fun left right =>
  left.same (.int 0) || right.same (.int 0)

def never : CouplingRule := fun _ _ => false

def always : CouplingRule := fun _ _ => true

def ascending : CouplingRule := Number.lt

/-- Holds of numbers whose product is not zero. -/
def product : CouplingRule := fun left right =>
  !(left.mul right).same (.int 0)

def ofName? (name : String) : Option CouplingRule :=
  match name with
  | "odd_sum" => some oddSum
  | "within_two" => some withinTwo
  | "star" => some star
  | "never" => some never
  | "always" => some always
  | "ascending" => some ascending
  | "product" => some product
  | _ => none

end CouplingRule

end Peephole
