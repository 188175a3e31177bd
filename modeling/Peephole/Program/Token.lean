import Peephole.Number.Scan
import Peephole.Text.Scan

/-!
Tokens of OpenQASM 2 texts: words, numbers, quoted texts and marks. Blanks and comments stand
between tokens and are dropped. The tokens of a text end with it, or in front of what forms no
token.
-/

namespace Peephole

namespace Program

/-- A number with a point or an exponent, as it is spelled: the digits before and after the
point, and the exponent. -/
structure Numeral where
  whole : List Nat
  fraction : List Nat
  exponent : Option Int

def Numeral.value (numeral : Numeral) : Float :=
  Reading.ofDecimal false (numeral.whole ++ numeral.fraction)
    (numeral.exponent.getD 0 - numeral.fraction.length)

inductive Token where
  | word (name : String)
  | integer (value : Nat)
  | real (numeral : Numeral)
  | text (value : String)
  | mark (symbol : String)
  /-- What forms no token. -/
  | stray

namespace Token

def isWordChar (c : Char) : Bool :=
  c.isAlphanum || c == '_'

/-- Words start with a small letter, but for the head of a text and two gates. -/
def isWord (name : String) : Bool :=
  match name.toList with
  | c :: _ => c.isLower || name == "OPENQASM" || name == "U" || name == "CX"
  | [] => false

/-- Marks of two characters are tried first. -/
def marks : List String :=
  ["->", "==", "+", "-", "*", "/", ";", ",", "(", ")", "[", "]"]

def mark? (input : List Char) : Option (Token × List Char) :=
  marks.findSome? fun symbol =>
    (Text.dropWord? symbol.toList input).map fun rest => (.mark symbol, rest)

/-- A decimal with the given digits before what follows, which may be an exponent. -/
def real? (whole fraction : List Nat) (input : List Char) : Option (Token × List Char) :=
  if input.head?.any Scan.isExponentMark then
    (Scan.exponent? input).map fun (exponent, rest) => (.real ⟨whole, fraction, exponent⟩, rest)
  else some (.real ⟨whole, fraction, none⟩, input)

/-- A number at the front of a text. An integer has no zeros in front. -/
def number? (input : List Char) : Option (Token × List Char) :=
  let (whole, rest) := Scan.digits input
  match rest with
  | '.' :: rest =>
    let (fraction, rest) := Scan.digits rest
    if whole.isEmpty && fraction.isEmpty then none else real? whole fraction rest
  | rest =>
    if rest.head?.any Scan.isExponentMark then real? whole [] rest
    else if 1 < whole.length && whole.head? == some 0 then none
    else some (.integer (Reading.digitsValue whole), rest)

/-- The text up to a closing quotation mark. -/
def quoted? (closing : Char) (input : List Char) : Option (Token × List Char) :=
  let isPlain (c : Char) : Bool := c != closing && c != '\n'
  match input.dropWhile isPlain with
  | c :: rest =>
    if c == closing then some (.text (String.ofList (input.takeWhile isPlain)), rest) else none
  | [] => none

/-- The token at the front of a text. -/
def first? (input : List Char) : Option (Token × List Char) :=
  match input with
  | [] => none
  | c :: rest =>
    if c.isDigit || c == '.' then number? input
    else if c == '"' || c == '\'' then quoted? c rest
    else if isWordChar c then
      let name := String.ofList (input.takeWhile isWordChar)
      if isWord name then some (.word name, input.dropWhile isWordChar) else none
    else mark? input

/-- Reads on, at most so many steps; every step takes at least one character. -/
def readFrom : Nat → List Char → List Token
  | _, [] => []
  | 0, _ :: _ => [.stray]
  | steps + 1, input@(c :: rest) =>
    if Text.isSpace c then readFrom steps rest
    else if (Text.dropWord? ['/', '/'] input).isSome then
      readFrom steps (input.dropWhile (· != '\n'))
    else
      match first? input with
      | some (token, rest) => token :: readFrom steps rest
      | none => [.stray]

/-- The tokens of a text, up to the first place that forms none. -/
def ofText (text : String) : List Token :=
  readFrom text.length text.toList

end Token

end Program

end Peephole
