import Peephole.Program.Token

/-!
Statements of OpenQASM 2 texts. `afterHead?` skips the optional head, and `Statement.next?` reads
the statement after it: a declaration of a register, the inclusion of a file, a barrier, or an
operation, which may hang on the value of a register. A statement may be empty, and a comma may
close a list.
-/

namespace Peephole

namespace Program

inductive Expression where
  | number (value : Float)
  | pi
  | negate (operand : Expression)
  | add (left right : Expression)
  | subtract (left right : Expression)
  | multiply (left right : Expression)
  | divide (left right : Expression)

/-- A place of a register, or all of it. -/
inductive Operand where
  | place (register : String) (index : Nat)
  | whole (register : String)

/-- What is done to qubits. A gate may have no list of parameters, which is not an empty one. -/
inductive Effect where
  | gate (name : String) (params : Option (List Expression)) (operands : List Operand)
  | measure (source result : Operand)
  | reset (operand : Operand)

inductive Statement where
  | qubits (register : String) (size : Nat)
  | clbits (register : String) (size : Nat)
  | fromFile (name : String)
  | barrier (operands : List Operand)
  | run (effect : Effect)
  | conditional (register : String) (value : Nat) (effect : Effect)

/-! ## Single tokens -/

/-- Words that name nothing. -/
def reserved : List String :=
  ["OPENQASM", "barrier", "cos", "creg", "exp", "gate", "if", "include", "ln", "measure",
    "opaque", "pi", "qreg", "reset", "sin", "sqrt", "tan"]

/-- The tokens behind a mark. -/
def dropMark? (symbol : String) : List Token → Option (List Token)
  | .mark found :: rest => if found == symbol then some rest else none
  | _ => none

def name? : List Token → Option (String × List Token)
  | .word name :: rest => if reserved.contains name then none else some (name, rest)
  | _ => none

def integer? : List Token → Option (Nat × List Token)
  | .integer value :: rest => some (value, rest)
  | _ => none

/-! ## Expressions -/

namespace Expression

mutual

/-- A sum, reading at most so many steps deep. -/
def sum? : Nat → List Token → Option (Expression × List Token)
  | 0, _ => none
  | steps + 1, tokens => do
    let (first, rest) ← product? steps tokens
    sumFrom? steps first rest

/-- Goes on with a sum. -/
def sumFrom? : Nat → Expression → List Token → Option (Expression × List Token)
  | 0, _, _ => none
  | steps + 1, left, .mark "+" :: rest => do
    let (right, rest) ← product? steps rest
    sumFrom? steps (.add left right) rest
  | steps + 1, left, .mark "-" :: rest => do
    let (right, rest) ← product? steps rest
    sumFrom? steps (.subtract left right) rest
  | _ + 1, left, tokens => some (left, tokens)

def product? : Nat → List Token → Option (Expression × List Token)
  | 0, _ => none
  | steps + 1, tokens => do
    let (first, rest) ← factor? steps tokens
    productFrom? steps first rest

/-- Goes on with a product. -/
def productFrom? : Nat → Expression → List Token → Option (Expression × List Token)
  | 0, _, _ => none
  | steps + 1, left, .mark "*" :: rest => do
    let (right, rest) ← factor? steps rest
    productFrom? steps (.multiply left right) rest
  | steps + 1, left, .mark "/" :: rest => do
    let (right, rest) ← factor? steps rest
    productFrom? steps (.divide left right) rest
  | _ + 1, left, tokens => some (left, tokens)

/-- A number, pi, an expression in parentheses, or one of these with signs in front. -/
def factor? : Nat → List Token → Option (Expression × List Token)
  | 0, _ => none
  | steps + 1, .mark "-" :: rest => do
    let (operand, rest) ← factor? steps rest
    return (.negate operand, rest)
  | steps + 1, .mark "+" :: rest => factor? steps rest
  | steps + 1, .mark "(" :: rest => do
    let (inner, rest) ← sum? steps rest
    return (inner, ← dropMark? ")" rest)
  | _ + 1, .integer value :: rest => some (.number (Binary64.nearest false value 1), rest)
  | _ + 1, .real numeral :: rest => some (.number numeral.value, rest)
  | _ + 1, .word "pi" :: rest => some (.pi, rest)
  | _ + 1, _ => none

end

/-- An expression at the front of some tokens. A token is at most four steps deeper than the one
before it. -/
def parse? (tokens : List Token) : Option (Expression × List Token) :=
  sum? (4 * tokens.length + 4) tokens

end Expression

/-! ## Lists -/

/-- Items separated by commas, at most so many, up to a closing mark; a comma may stand before
it. -/
def itemsUntil? {β : Type} (item? : List Token → Option (β × List Token)) (closing : String) :
    Nat → List Token → Option (List β × List Token)
  | 0, _ => none
  | steps + 1, tokens =>
    match dropMark? closing tokens with
    | some rest => some ([], rest)
    | none => do
      let (item, rest) ← item? tokens
      match dropMark? closing rest with
      | some rest => return ([item], rest)
      | none =>
        let (items, rest) ← itemsUntil? item? closing steps (← dropMark? "," rest)
        return (item :: items, rest)

def list? {β : Type} (item? : List Token → Option (β × List Token)) (closing : String)
    (tokens : List Token) : Option (List β × List Token) :=
  itemsUntil? item? closing (tokens.length + 1) tokens

/-! ## Statements -/

def operand? (tokens : List Token) : Option (Operand × List Token) := do
  let (register, rest) ← name? tokens
  match dropMark? "[" rest with
  | some rest =>
    let (index, rest) ← integer? rest
    return (.place register index, ← dropMark? "]" rest)
  | none => return (.whole register, rest)

/-- The operands of a gate, of which there is at least one, up to the end of the statement. -/
def operands? (tokens : List Token) : Option (List Operand × List Token) := do
  let (operands, rest) ← list? operand? ";" tokens
  if operands.isEmpty then none else return (operands, rest)

def effect? : List Token → Option (Effect × List Token)
  | .word "measure" :: rest => do
    let (source, rest) ← operand? rest
    let (result, rest) ← operand? (← dropMark? "->" rest)
    return (.measure source result, ← dropMark? ";" rest)
  | .word "reset" :: rest => do
    let (operand, rest) ← operand? rest
    return (.reset operand, ← dropMark? ";" rest)
  | tokens => do
    let (name, rest) ← name? tokens
    let (params, rest) ←
      match dropMark? "(" rest with
      | some rest =>
        (list? Expression.parse? ")" rest).map fun (params, rest) => (some params, rest)
      | none => some (none, rest)
    let (operands, rest) ← operands? rest
    return (.gate name params operands, rest)

/-- The name and size of a register, up to the end of the declaration. -/
def register? (tokens : List Token) : Option ((String × Nat) × List Token) := do
  let (name, rest) ← name? tokens
  let (size, rest) ← integer? (← dropMark? "[" rest)
  return ((name, size), ← dropMark? ";" (← dropMark? "]" rest))

namespace Statement

/-- The statement at the front of some tokens. -/
def first? : List Token → Option (Statement × List Token)
  | .word "qreg" :: rest => do
    let ((name, size), rest) ← register? rest
    return (.qubits name size, rest)
  | .word "creg" :: rest => do
    let ((name, size), rest) ← register? rest
    return (.clbits name size, rest)
  | .word "include" :: .text name :: rest => do
    return (.fromFile name, ← dropMark? ";" rest)
  | .word "barrier" :: rest => do
    let (operands, rest) ← list? operand? ";" rest
    return (.barrier operands, rest)
  | .word "if" :: rest => do
    let (register, rest) ← name? (← dropMark? "(" rest)
    let (value, rest) ← integer? (← dropMark? "==" rest)
    let (effect, rest) ← effect? (← dropMark? ")" rest)
    return (.conditional register value effect, rest)
  | tokens => do
    let (effect, rest) ← effect? tokens
    return (.run effect, rest)

/-- The tokens without the empty statements in front. -/
def dropEmpty : List Token → List Token
  | .mark ";" :: rest => dropEmpty rest
  | tokens => tokens

def isEnd : Token → Bool
  | .mark symbol => symbol == ";"
  | _ => false

/-- The next statement that is not empty, unless the tokens end. It goes up to the first mark
that ends one. -/
def next? (tokens : List Token) : Option (Option (Statement × List Token)) :=
  match dropEmpty tokens with
  | [] => some none
  | tokens => do
    let rest := tokens.dropWhile fun token => !isEnd token
    let own := tokens.takeWhile (fun token => !isEnd token) ++ rest.take 1
    let (statement, left) ← first? own
    if left.isEmpty then return some (statement, rest.drop 1) else none

end Statement

/-- Whether a version is the second: the integer two, or two and a fraction of zeros. -/
def isSecondVersion : Token → Bool
  | .integer version => version == 2
  | .real ⟨whole, fraction, none⟩ =>
    !fraction.isEmpty && Reading.digitsValue whole == 2 && Reading.digitsValue fraction == 0
  | _ => false

/-- The tokens behind the head. The head tells the version, as often as it likes, between
statements that do nothing: empty ones and barriers around nothing. -/
def afterHead? : List Token → Option (List Token)
  | .mark ";" :: rest => afterHead? rest
  | .word "barrier" :: .mark ";" :: rest => afterHead? rest
  | .word "OPENQASM" :: version :: .mark ";" :: rest =>
    if isSecondVersion version then afterHead? rest else none
  | .word "OPENQASM" :: _ => none
  | tokens => some tokens

end Program

end Peephole
