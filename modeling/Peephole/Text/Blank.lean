/-!
Blank characters: those that count as space around names and numbers.
-/

namespace Peephole

namespace Text

/-- The blank characters by code point, as closed ranges. -/
def blankRanges : List (Nat × Nat) :=
  [(0x09, 0x0d), (0x1c, 0x20), (0x85, 0x85), (0xa0, 0xa0), (0x1680, 0x1680), (0x2000, 0x200a),
    (0x2028, 0x2029), (0x202f, 0x202f), (0x205f, 0x205f), (0x3000, 0x3000)]

def isBlank (c : Char) : Bool :=
  blankRanges.any fun range => range.1 ≤ c.toNat && c.toNat ≤ range.2

/-- The characters without those at either end that satisfy `drop`. -/
def trimWhile (drop : Char → Bool) (text : List Char) : List Char :=
  ((text.dropWhile drop).reverse.dropWhile drop).reverse

/-- The characters without the blanks at either end. -/
def trimBlank (text : List Char) : List Char :=
  trimWhile isBlank text

end Text

end Peephole
