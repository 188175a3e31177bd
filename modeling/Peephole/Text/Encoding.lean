import Peephole.Fault
import Peephole.Text.Quoted

/-!
What of a text can be stored outside: every character can, but no half of a pair, except that
names in the surroundings may hold halves that stand for bytes. The first halves in a row that
cannot be stored are told, by their places in the text. `joined` is what a name comes back as:
halves that stand for the bytes of a character have become the character, and by
`joinBytes_eq_self` nothing else has changed.
-/

namespace Peephole

namespace Text

/-- Whether a half of a pair stands for a byte. -/
def isByteHalf (point : Nat) : Bool :=
  0xdc80 ≤ point && point < 0xdd00

/-- Whether a byte goes on with a character. -/
def isTail (byte : Nat) : Bool :=
  0x80 ≤ byte && byte < 0xc0

/-- The code point that bytes begin with, if they begin with one of several bytes, and how many
bytes follow the first one. No code point is given more bytes than it needs. -/
def leadingPoint? : List Nat → Option (Nat × Nat)
  | a :: b :: rest =>
    if !isTail b then none
    else if 0xc2 ≤ a && a < 0xe0 then some ((a - 0xc0) * 0x40 + (b - 0x80), 1)
    else
      match rest with
      | c :: rest =>
        let three := ((a - 0xe0) * 0x40 + (b - 0x80)) * 0x40 + (c - 0x80)
        if !isTail c then none
        else if 0xe0 ≤ a && a < 0xf0 && 0x800 ≤ three && !isHalf three then some (three, 2)
        else
          match rest with
          | d :: _ =>
            let four :=
              (((a - 0xf0) * 0x40 + (b - 0x80)) * 0x40 + (c - 0x80)) * 0x40 + (d - 0x80)
            if isTail d && 0xf0 ≤ a && 0x10000 ≤ four && four < 0x110000 then some (four, 3)
            else none
          | [] => none
      | [] => none
  | _ => none

/-- The bytes that the first few halves stand for. -/
def leadingBytes (points : List Nat) : List Nat :=
  ((points.take 4).takeWhile isByteHalf).map (· - 0xdc00)

/-- Code points with the bytes of a character replaced by the character. So many of the first ones
belong to a character already. -/
def joinBytes (covered : Nat) : List Nat → List Nat
  | [] => []
  | point :: rest =>
    match covered with
    | more + 1 => joinBytes more rest
    | 0 =>
      match leadingPoint? (leadingBytes (point :: rest)) with
      | some (character, more) => character :: joinBytes more rest
      | none => point :: joinBytes 0 rest

/-- Where no half stands for a byte nothing changes. -/
theorem joinBytes_eq_self {points : List Nat}
    (whole : ∀ point ∈ points, isByteHalf point = false) : joinBytes 0 points = points := by
  induction points with
  | nil => rfl
  | cons point rest ih =>
    have first : isByteHalf point = false := whole point (by simp)
    have others : joinBytes 0 rest = rest := ih fun other member => whole other (by simp [member])
    simp [joinBytes, leadingBytes, first, leadingPoint?, others]

/-- A name as the surroundings give it back. -/
def joined (text : String) : String :=
  String.ofList (spell (joinBytes 0 (points text.toList)))

/-- The number of bytes that a name takes. -/
def storedSize (text : String) : Nat :=
  ((points text.toList).map fun point =>
    if isByteHalf point then 1 else (Char.ofNat point).utf8Size).foldr (· + ·) 0

/-- The place of the first half that cannot be stored and how many halves stand there in a row,
with the half itself. -/
def firstHalves? (admitted : Nat → Bool) (place : Nat) : List Nat → Option (Nat × Nat × Nat)
  | [] => none
  | point :: rest =>
    if isHalf point && !admitted point then
      some (place, (rest.takeWhile isHalf).length + 1, point)
    else firstHalves? admitted (place + 1) rest

/-- Whether a text can be stored, beside the halves admitted. -/
def checkUnits (admitted : Nat → Bool) (text : String) : Except Fault Unit :=
  match firstHalves? admitted 0 (points text.toList) with
  | none => .ok ()
  | some (place, count, half) => .error (.unencodable place count (numbered half))

/-- Whether a text can be stored in a file. -/
def checkStorable (text : String) : Except Fault Unit :=
  checkUnits (fun _ => false) text

/-- A text as it is read from a file, in which every line ends in the same way. -/
def unifyLines (text : String) : String :=
  String.ofList (unify text.toList)
where
  unify : List Char → List Char
    | '\r' :: '\n' :: rest => '\n' :: unify rest
    | '\r' :: rest => '\n' :: unify rest
    | c :: rest => c :: unify rest
    | [] => []

end Text

end Peephole
