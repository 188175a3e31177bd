import Peephole.Gate.Kind

/-!
What can go wrong, as a cause with its data. `Fault.message` words the causes. Values appear in
a cause as the text in which they are shown, since only the wording needs them.
-/

namespace Peephole

/-- The part of a gate whose size does not fit its kind. -/
inductive OperandPart where
  | qubits
  | params
  | clbits
  | distinctQubits
  deriving DecidableEq, Repr

def OperandPart.name : OperandPart → String
  | .qubits => "qubits"
  | .params => "params"
  | .clbits => "clbits"
  | .distinctQubits => "distinct qubits"

inductive Fault where
  -- gates and circuits
  | unknownKind (shown : String)
  | arity (kind : GateKind) (part : OperandPart) (expected actual : Nat)
  | qubitOutOfRange (index : Int) (size : Nat) (gate : String)
  | clbitOutOfRange (index : Int) (size : Nat) (gate : String)
  | notAnIndex (what shown : String)
  | unresolvedParameter (operation shown : String)
  | noQubits (given : Int)
  | negativeClbits (given : Int)
  | noInverse (kind : GateKind)
  | noAngle (kind : GateKind)
  | widthsDiffer (left right : Nat)
  | missingGates
  -- optimizer and pipeline
  | unsupportedLevel (shown : String)
  | noWorkers
  -- devices
  | missingWidth
  | edgeOutside (left right : Int) (size : Nat)
  | entryOutside (table key bound value : String)
  | fallbackOutside (shown : String)
  | unknownDevice (shown known : String)
  | negativeLattice
  | nothingAsPlace
  -- numbers
  | notANumber (shown : String)
  | integerTooLarge
  | integerTooLong (digits : Nat)
  | integerUnwritable
  | countTooLarge
  | registerTooLarge
  | textTooLong
  | roundedInfinity
  | roundedNaN
  | ratioOfInfinity
  | ratioOfNaN
  -- documents
  | missingKey (shown : String)
  | missingItem
  | missingPlace
  | missingCharacter
  | placeTooFar
  | tooFewItems (expected found : Nat)
  | tooManyItems (expected : Nat)
  | pairLength (position length : Nat)
  | nonFiniteNumber (shown : Option String)
  | malformedJson
  | notAMapping
  | notIterable
  | notNumeric
  | notText
  | unhashable
  | unordered
  | wrongArguments
  | unknownOperation
  -- files, programs and command lines
  | noSuchFile
  | isADirectory
  | notADirectory
  | fileExists
  | nameTooLong
  | inaccessible
  | embeddedZero
  | handleTooLarge
  | handleTooSmall
  | unencodable (place count : Nat) (shown : String)
  | illegalVariable
  | emptyVariable
  | malformedProgram
  | usage
  | helpShown
  deriving DecidableEq, Repr

/-- The range of the indices into so many places. -/
private def rangeText (size : Nat) : String :=
  "[0, " ++ toString size ++ ")"

def Fault.message : Fault → String
  | .unknownKind shown => "unknown gate kind: " ++ shown
  | .arity kind part expected actual =>
    kind.name ++ " expects " ++ toString expected ++ " " ++ part.name ++ ", got " ++
      toString actual
  | .qubitOutOfRange index size gate =>
    "qubit index " ++ toString index ++ " out of range " ++ rangeText size ++ " in " ++ gate
  | .clbitOutOfRange index size gate =>
    "classical bit index " ++ toString index ++ " out of range " ++ rangeText size ++ " in " ++
      gate
  | .notAnIndex what shown => what ++ " must be an integer, got " ++ shown
  | .unresolvedParameter operation shown =>
    operation ++ " has a non-numeric parameter in " ++ shown
  | .noQubits given => "num_qubits must be positive, got " ++ toString given
  | .negativeClbits given => "num_clbits must be non-negative, got " ++ toString given
  | .noInverse kind => kind.name ++ " has no inverse"
  | .noAngle kind => kind.name ++ " gate has no angle"
  | .widthsDiffer left right =>
    "Cannot compose circuits with different numbers of qubits: " ++ toString left ++ " != " ++
      toString right
  | .missingGates => "Circuit dictionary must contain a 'gates' entry"
  | .unsupportedLevel shown =>
    "unsupported optimization level " ++ shown ++ "; choose from [0, 1, 2]"
  | .noWorkers => "max_workers must be greater than 0"
  | .missingWidth => "Hardware descriptor must contain 'num_qubits'"
  | .edgeOutside left right size =>
    "edge (" ++ toString left ++ ", " ++ toString right ++ ") outside device with " ++
      toString size ++ " qubits"
  | .entryOutside table key bound value =>
    table ++ " for " ++ key ++ " must lie in [0, " ++ bound ++ "), got " ++ value
  | .fallbackOutside shown => "fallback error rate must lie in [0, 1), got " ++ shown
  | .unknownDevice shown known => "Unknown device: " ++ shown ++ "; choose from " ++ known
  | .negativeLattice => "lattice size must not be negative"
  | .nothingAsPlace => "None cannot be a node"
  | .notANumber shown => "could not convert string to float: " ++ shown
  | .integerTooLarge => "int too large to convert to float"
  | .integerTooLong digits =>
    "Exceeds the limit (4300 digits) for integer string conversion: value has " ++
      toString digits ++ " digits; use sys.set_int_max_str_digits() to increase the limit"
  | .integerUnwritable =>
    "Exceeds the limit (4300 digits) for integer string conversion; " ++
      "use sys.set_int_max_str_digits() to increase the limit"
  | .countTooLarge | .placeTooFar => "cannot fit 'int' into an index-sized integer"
  | .registerTooLarge => "a register is too large"
  | .textTooLong => "repeated string is too long"
  | .roundedInfinity => "cannot convert float infinity to integer"
  | .roundedNaN => "cannot convert float NaN to integer"
  | .ratioOfInfinity => "cannot convert Infinity to integer ratio"
  | .ratioOfNaN => "cannot convert NaN to integer ratio"
  | .missingKey shown => shown
  | .missingItem => "list index out of range"
  | .missingPlace => "list assignment index out of range"
  | .missingCharacter => "string index out of range"
  | .tooFewItems expected found =>
    "not enough values to unpack (expected " ++ toString expected ++ ", got " ++ toString found ++
      ")"
  | .tooManyItems expected =>
    "too many values to unpack (expected " ++ toString expected ++ ")"
  | .pairLength position length =>
    "dictionary update sequence element #" ++ toString position ++ " has length " ++
      toString length ++ "; 2 is required"
  | .nonFiniteNumber none => "Out of range float values are not JSON compliant"
  | .nonFiniteNumber (some shown) =>
    "Out of range float values are not JSON compliant: " ++ shown
  | .malformedJson => "malformed JSON text"
  | .notAMapping => "a mapping is needed"
  | .notIterable => "a collection is needed"
  | .notNumeric => "a number is needed"
  | .notText => "a text is needed"
  | .unhashable => "a collection cannot be a key"
  | .unordered => "the values have no order"
  | .wrongArguments => "the arguments do not fit the operation"
  | .unknownOperation => "the operation does not exist"
  | .noSuchFile => "no such file or directory"
  | .isADirectory => "is a directory"
  | .notADirectory => "not a directory"
  | .fileExists => "file exists"
  | .nameTooLong => "file name too long"
  | .inaccessible => "the file cannot be read or written"
  | .embeddedZero => "embedded null byte"
  | .handleTooLarge => "fd is greater than maximum"
  | .handleTooSmall => "fd is less than minimum"
  | .unencodable place 1 shown =>
    "'utf-8' codec can't encode character '" ++ shown ++ "' in position " ++ toString place ++
      ": surrogates not allowed"
  | .unencodable place count _ =>
    "'utf-8' codec can't encode characters in position " ++ toString place ++ "-" ++
      toString (place + count - 1) ++ ": surrogates not allowed"
  | .illegalVariable => "illegal environment variable name"
  | .emptyVariable => "an environment variable has no name"
  | .malformedProgram => "malformed program"
  | .usage => "2"
  | .helpShown => "0"

end Peephole
