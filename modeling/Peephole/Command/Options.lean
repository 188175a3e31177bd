import Peephole.Device.Preset
import Peephole.Files.Path

/-!
Options of the command line. Long options may be abbreviated as long as only one of them starts
so, and take a value behind an equals sign or as the next argument; short options may be run
together, the last of them with its value. Arguments that look like negative numbers are no
options, and behind two dashes nothing is. Two dashes as a value attached to an option are taken
away, so that the option is given nothing. The circuits stand together in one place.

Arguments are classified first, all of them. Then they become steps, and the steps are taken in
order, so that the first of them that ends the reading decides how it ends.
-/

namespace Peephole

namespace Command

inductive Flag where
  | help
  | device
  | target
  | level
  | fixedPoint
  | workers
  | outputDirectory
  | verbose
  deriving DecidableEq, Repr

def Flag.takesValue : Flag → Bool
  | .device | .target | .level | .workers | .outputDirectory => true
  | .help | .fixedPoint | .verbose => false

def longFlags : List (String × Flag) :=
  [("--help", .help), ("--device", .device), ("--target", .target),
    ("--optimization-level", .level), ("--fixed-point", .fixedPoint), ("--workers", .workers),
    ("--output-dir", .outputDirectory), ("--verbose", .verbose)]

def shortFlags : List (Char × Flag) :=
  [('h', .help), ('O', .level), ('v', .verbose)]

/-- What an option is given: a value, or nothing in place of one. -/
inductive Given (β : Type) where
  | value (given : β)
  | nothing

structure Options where
  circuits : List Path
  device : Option (Given String)
  target : Option (Given Path)
  level : Option (Given Int)
  fixedPoint : Bool
  workers : Option (Given Int)
  outputDirectory : Option (Given Path)
  verbosity : Nat

def Options.initial : Options := ⟨[], none, none, none, false, none, none, 0⟩

/-! ## Kinds of arguments -/

inductive Argument where
  | plain (text : String)
  /-- Two dashes, behind which every argument is plain. -/
  | separator
  /-- A long option, perhaps with a value behind an equals sign. -/
  | long (flag : Flag) (value : Option String)
  /-- A short option and what is attached to it, if anything is. -/
  | short (flag : Flag) (attached : Option (List Char))
  | unknown

/-- Characters without the end of a line behind them. -/
def withoutLineEnd (characters : List Char) : List Char :=
  if characters.getLast? == some '\n' then characters.dropLast else characters

/-- Whether a text is a minus sign and a number, perhaps at the end of a line. -/
def isNegativeNumber (text : String) : Bool :=
  let isDigit (c : Char) : Bool := (Text.digitValue? c).isSome
  match withoutLineEnd text.toList with
  | '-' :: rest =>
    match rest.dropWhile isDigit with
    | [] => !rest.isEmpty
    | '.' :: fraction => !fraction.isEmpty && fraction.all isDigit
    | _ => false
  | _ => false

/-- The parts of a text before and behind its first equals sign. -/
def splitValue (text : String) : String × Option String :=
  let isName (c : Char) : Bool := c != '='
  let name := String.ofList (text.toList.takeWhile isName)
  match text.toList.dropWhile isName with
  | _ :: value => (name, some (String.ofList value))
  | [] => (name, none)

/-- The long options that a name or its beginning may stand for. -/
def candidates (name : String) : List Flag :=
  match longFlags.lookup name with
  | some flag => [flag]
  | none =>
    longFlags.filterMap fun (full, flag) => if full.startsWith name then some flag else none

/-- An argument that names no option. Negative numbers and what has a space in it are plain. -/
def unnamed (text : String) : Argument :=
  if isNegativeNumber text || text.contains ' ' then .plain text else .unknown

/-- The kind of an argument before the separator. -/
def classify (text : String) : Except Fault Argument :=
  match text.toList with
  | '-' :: '-' :: _ =>
    let (name, value) := splitValue text
    match candidates name with
    | [flag] => .ok (.long flag value)
    | [] => .ok (unnamed text)
    | _ => .error .usage
  | '-' :: letter :: attached =>
    match shortFlags.lookup letter, attached with
    | some flag, [] => .ok (.short flag none)
    | some flag, '=' :: value => .ok (.short flag (some value))
    | some flag, attached => .ok (.short flag (some attached))
    | none, _ => .ok (unnamed text)
  | _ => .ok (.plain text)

def classifyAll : List String → Except Fault (List Argument)
  | [] => .ok []
  | "--" :: rest => .ok (.separator :: rest.map .plain)
  | text :: rest => do
    let argument ← classify text
    return argument :: (← classifyAll rest)

/-! ## Steps -/

/-- What arguments ask for, one thing after the other. -/
inductive Step where
  | circuit (text : String)
  | switch (flag : Flag)
  | give (flag : Flag) (value : String)
  /-- An argument that nothing asks for. The steps behind it still count. -/
  | surplus
  | reject

/-- Whether the circuits are still to come, being listed, or complete. -/
inductive Stage where
  | before
  | within
  | after
  deriving DecidableEq, Repr

def Stage.leave : Stage → Stage
  | .before => .before
  | .within | .after => .after

/-- What an option asks for that has nothing attached: its steps, and the option itself if it
waits for a value. -/
def expandAlone (flag : Flag) : List Step × Option Flag :=
  if flag.takesValue then ([], some flag) else ([.switch flag], none)

/-- What a long option asks for. -/
def expandLong (flag : Flag) : Option String → Option (List Step × Option Flag)
  | none => some (expandAlone flag)
  | some value => if flag.takesValue then some ([.give flag value], none) else none

/-- What a short option asks for with something attached to it: its value, or, if it takes none,
further short options. -/
def expandShort (flag : Flag) : List Char → Option (List Step × Option Flag)
  | [] => if flag.takesValue then some ([.give flag ""], none) else none
  | letter :: rest =>
    if flag.takesValue then some ([.give flag (String.ofList (letter :: rest))], none)
    else
      match shortFlags.lookup letter, rest with
      | none, _ => none
      | some next, [] =>
        let (steps, waiting) := expandAlone next
        some (.switch flag :: steps, waiting)
      | some next, rest =>
        (expandShort next rest).map fun (steps, waiting) => (.switch flag :: steps, waiting)

/-- The steps of arguments. A value in an argument of its own has to be a plain one. -/
def stepsOf (stage : Stage) : List Argument → List Step
  | [] => []
  | .plain text :: rest =>
    if stage = .after then .surplus :: stepsOf stage rest
    else .circuit text :: stepsOf .within rest
  | .separator :: rest =>
    if stage = .after then .surplus :: stepsOf stage rest else stepsOf stage rest
  | .unknown :: rest => .surplus :: stepsOf stage.leave rest
  | .long flag value :: rest => ofOption (expandLong flag value) stage.leave rest
  | .short flag none :: rest => ofOption (some (expandAlone flag)) stage.leave rest
  | .short flag (some attached) :: rest => ofOption (expandShort flag attached) stage.leave rest
where
  /-- The steps of an option and of the arguments behind it. -/
  ofOption (expanded : Option (List Step × Option Flag)) (stage : Stage) :
      List Argument → List Step
    | .plain value :: rest =>
      match expanded with
      | none => [.reject]
      | some (steps, none) => steps ++ stepsOf stage (.plain value :: rest)
      | some (steps, some waiting) => steps ++ .give waiting value :: stepsOf stage rest
    | rest =>
      match expanded with
      | none => [.reject]
      | some (steps, none) => steps ++ stepsOf stage rest
      | some (_, some _) => [.reject]

/-! ## Options from steps -/

def switchOn (options : Options) : Flag → Except Fault Options
  | .help => .error .helpShown
  | .fixedPoint => .ok { options with fixedPoint := true }
  | .verbose => .ok { options with verbosity := options.verbosity + 1 }
  | .device | .target | .level | .workers | .outputDirectory => .error .usage

/-- What a text gives, read as a value unless it is two dashes. -/
def givenBy {β : Type} (read? : String → Option β) (text : String) : Except Fault (Given β) :=
  if text == "--" then .ok .nothing
  else
    match read? text with
    | some value => .ok (.value value)
    | none => .error .usage

def deviceName? (text : String) : Option String :=
  if Preset.names.contains text then some text else none

def path? (text : String) : Option Path :=
  some (Path.ofText text)

/-- Gives an option its value. A device is named or described, not both. -/
def give (options : Options) (flag : Flag) (text : String) : Except Fault Options := do
  match flag with
  | .device =>
    let device ← givenBy deviceName? text
    if options.target.isSome then throw .usage
    else return { options with device := some device }
  | .target =>
    let target ← givenBy path? text
    if options.device.isSome then throw .usage
    else return { options with target := some target }
  | .level => return { options with level := some (← givenBy Reading.int? text) }
  | .workers => return { options with workers := some (← givenBy Reading.int? text) }
  | .outputDirectory => return { options with outputDirectory := some (← givenBy path? text) }
  | .help | .fixedPoint | .verbose => throw .usage

/-- Takes steps. Surplus arguments are a fault at the end, unless something else ends the
reading before. -/
def takeSteps (options : Options) (surplus : Bool) : List Step → Except Fault Options
  | [] => if surplus || options.circuits.isEmpty then .error .usage else .ok options
  | .circuit text :: rest =>
    takeSteps { options with circuits := options.circuits ++ [Path.ofText text] } surplus rest
  | .switch flag :: rest => do takeSteps (← switchOn options flag) surplus rest
  | .give flag value :: rest => do takeSteps (← give options flag value) surplus rest
  | .surplus :: rest => takeSteps options true rest
  | .reject :: _ => .error .usage

/-- The options that a command line gives. -/
def Options.read (arguments : List String) : Except Fault Options := do
  takeSteps .initial false (stepsOf .before (← classifyAll arguments))

end Command

end Peephole
