import Peephole.Datum.Reader
import Peephole.Settings.Basic
import Peephole.Text.Encoding

/-!
Settings from environment variables. A variable that is not set, or does not hold what is
wanted, leaves the default in force. `storedValue` says what can be a variable at all, and what
its value is read as.
-/

namespace Peephole

namespace Settings

/-- The value of a variable as it is read, if there can be a variable of the name with the value.
Both are free of zeros, and the name holds no equals sign and is not empty. -/
def storedValue (name value : String) : Except Fault String := do
  Text.checkUnits Text.isByteHalf name
  Text.checkUnits Text.isByteHalf value
  if name.contains '\x00' || value.contains '\x00' then throw .embeddedZero
  if name.contains '=' then throw .illegalVariable
  if name.isEmpty then throw .emptyVariable
  return Text.joined value

def lowerCase (text : String) : String :=
  text.map Char.toLower

/-- Whether a text is empty but for blanks. -/
def saysNothing (text : String) : Bool :=
  text.toList.all Text.isBlank

/-- An integer, or the word that stands for no value. -/
def readInteger (value? : Option String) (default : Datum) : Datum :=
  match value? with
  | none => default
  | some text =>
    if lowerCase text == "none" then .null
    else
      match Reading.int? text with
      | some value => .int value
      | none => default

def readDecimal (value? : Option String) (default : Datum) : Datum :=
  match value? with
  | none => default
  | some text =>
    if saysNothing text then default
    else
      match Reading.float? text with
      | some value => .float value
      | none => default

def readTruth (value? : Option String) (default : Datum) : Datum :=
  match value? with
  | none => default
  | some text =>
    let word := lowerCase (String.ofList (Text.trimBlank text.toList))
    if ["1", "true", "yes", "on"].contains word then .bool true
    else if ["0", "false", "no", "off"].contains word then .bool false
    else default

/-- An integer that is at least one. The default has to be a number too. -/
def readPositive (value? : Option String) (default : Datum) : Except Fault Datum :=
  match readInteger value? default with
  | .null => .ok default
  | value => do
    let number ← value.toNumber
    return if number.lt (.int 1) then default else value

/-- A number from zero to one, one excluded. The default has to be a number too. -/
def readRate (value? : Option String) (default : Datum) : Except Fault Datum := do
  let value := readDecimal value? default
  let number ← value.toNumber
  return if (Number.int 0).le number && number.lt (.int 1) then value else default

/-- The variables that hold settings. -/
def variableNames : List String :=
  ["QOPT_FALLBACK_ERROR_RATE", "QOPT_CANCELLATION_TOLERANCE", "QOPT_OPTIMIZATION_LEVEL",
    "QOPT_MAX_FIXED_POINT_ITERATIONS", "QOPT_BATCH_WORKERS", "QOPT_LOG_PASSES"]

/-- The settings of an environment. -/
def ofEnvironment (value? : String → Option String) : Except Fault Settings := do
  return {
    fallbackErrorRate :=
      ← readRate (value? "QOPT_FALLBACK_ERROR_RATE") standard.fallbackErrorRate
    cancellationTolerance :=
      readDecimal (value? "QOPT_CANCELLATION_TOLERANCE") standard.cancellationTolerance
    optimizationLevel :=
      readInteger (value? "QOPT_OPTIMIZATION_LEVEL") standard.optimizationLevel
    maxFixedPointIterations :=
      ← readPositive (value? "QOPT_MAX_FIXED_POINT_ITERATIONS")
        standard.maxFixedPointIterations
    batchWorkers := readInteger (value? "QOPT_BATCH_WORKERS") standard.batchWorkers
    logPasses := readTruth (value? "QOPT_LOG_PASSES") standard.logPasses }

end Settings

end Peephole
