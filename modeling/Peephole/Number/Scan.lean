import Peephole.Number.Reading

/-!
Scanning numbers at the front of a text. Only the digits `0` to `9` count, and nothing stands
between them.
-/

namespace Peephole

namespace Scan

/-- The decimal digits at the front of a text, and the rest. -/
def digits (input : List Char) : List Nat × List Char :=
  ((input.takeWhile Char.isDigit).map fun c => c.toNat - '0'.toNat, input.dropWhile Char.isDigit)

def isExponentMark (c : Char) : Bool :=
  c == 'e' || c == 'E'

/-- An exponent: `e`, a sign that may be missing, and at least one digit. -/
def exponent? : List Char → Option (Int × List Char)
  | c :: rest =>
    if isExponentMark c then
      let (negative, unsigned) := Reading.signOf rest
      match digits unsigned with
      | ([], _) => none
      | (found, rest) =>
        let size : Int := Reading.digitsValue found
        some (if negative then -size else size, rest)
    else none
  | [] => none

end Scan

end Peephole
