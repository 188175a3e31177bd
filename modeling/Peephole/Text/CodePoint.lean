/-!
Texts as sequences of code points. A code point is a character, or half of a pair that would
stand for one. A half that has lost its partner is no character, so a text spells it with two:
an escape mark and a character that stands for the half. The mark itself is spelled by two
marks.
-/

namespace Peephole

namespace Text

/-- The mark in front of what stands for a half. It is of no use in itself. -/
def halfMark : Char := Char.ofNat 0x10d800

/-- Whether a code point is half of a pair. -/
def isHalf (point : Nat) : Bool :=
  0xd800 ≤ point && point < 0xe000

/-- Characters stand for the halves in order. -/
def halfOffset : Nat := 0x800

def spellPoint (point : Nat) : List Char :=
  if isHalf point then [halfMark, Char.ofNat (point + halfOffset)]
  else if point = halfMark.toNat then [halfMark, halfMark]
  else [Char.ofNat point]

/-- The characters that spell some code points. -/
def spell (points : List Nat) : List Char :=
  points.flatMap spellPoint

/-- The code points that some characters spell. -/
def points : List Char → List Nat
  | [] => []
  | [c] => [c.toNat]
  | c :: d :: rest =>
    if c = halfMark then
      (if d = halfMark then halfMark.toNat else d.toNat - halfOffset) :: points rest
    else c.toNat :: points (d :: rest)

/-- The spelling of characters none of which is part of a spelling yet. -/
def spelled (text : String) : String :=
  String.ofList (spell (text.toList.map Char.toNat))

/-- The characters of a text. A half that is alone is replaced. -/
def characters (text : String) : String :=
  String.ofList ((points text.toList).map fun point =>
    if isHalf point then Char.ofNat 0xfffd else Char.ofNat point)

/-- The texts of the single code points of a text. -/
def singles (text : String) : List String :=
  (points text.toList).map fun point => String.ofList (spellPoint point)

/-- Texts are ordered by their code points. -/
def pointsLe : List Nat → List Nat → Bool
  | [], _ => true
  | _ :: _, [] => false
  | left :: lefts, right :: rights => left < right || (left == right && pointsLe lefts rights)

def le (left right : String) : Bool :=
  pointsLe (points left.toList) (points right.toList)

end Text

end Peephole
