import Peephole.Text.CodePoint
import Peephole.Text.Printable

/-!
Quoted text, as names and values are shown in messages. The quote is a single one unless the
text holds single quotes and no double ones. The quote and the backslash are escaped by a
backslash, and so are the code points that do not print.
-/

namespace Peephole

namespace Text

/-- The lower-case hexadecimal digits of a number, filled up to a width with zeros. -/
def hexadecimal (width n : Nat) : String :=
  let digits := Nat.toDigits 16 n
  String.ofList (List.replicate (width - digits.length) '0' ++ digits)

def quoteMark (text : List Char) : Char :=
  if text.contains '\'' && !text.contains '"' then '"' else '\''

/-- A code point by its number. -/
def numbered (point : Nat) : String :=
  if point < 0x100 then "\\x" ++ hexadecimal 2 point
  else if point < 0x10000 then "\\u" ++ hexadecimal 4 point
  else "\\U" ++ hexadecimal 8 point

def escaped (mark c : Char) : String :=
  if c == mark || c == '\\' then String.ofList ['\\', c]
  else if c == '\n' then "\\n"
  else if c == '\r' then "\\r"
  else if c == '\t' then "\\t"
  else if isPrintable c then c.toString
  else numbered c.toNat

def quoted (text : String) : String :=
  let mark := quoteMark text.toList
  let parts := (points text.toList).map fun point =>
    if isHalf point then numbered point else escaped mark (Char.ofNat point)
  mark.toString ++ String.join parts ++ mark.toString

end Text

end Peephole
