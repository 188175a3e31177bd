/-!
Scanning texts from the front: blanks between the parts of a text, and expected words.
-/

namespace Peephole

namespace Text

/-- The blanks that separate the parts of a structured text. -/
def isSpace (c : Char) : Bool :=
  c == ' ' || c == '\t' || c == '\n' || c == '\r'

def skipSpace (input : List Char) : List Char :=
  input.dropWhile isSpace

/-- The rest after an expected word. -/
def dropWord? : List Char → List Char → Option (List Char)
  | [], input => some input
  | _ :: _, [] => none
  | c :: word, d :: input => if c == d then dropWord? word input else none

end Text

end Peephole
