import Peephole.Datum.Repetition
import Peephole.Device.Preset

/-!
Requests for devices. A request names a way of making a device and gives its arguments by
position and by name. A rule is looked up before anything else; then the arguments that describe
the shape are worked out, and the others are passed on with it to `Device.ofParts`.
-/

namespace Peephole

/-- The ways of making a device. -/
inductive Maker where
  | parts
  | edges
  | complete
  | line
  | grid
  | descriptor
  | preset
  deriving DecidableEq, Repr

namespace Maker

def name : Maker → String
  | .parts => "init"
  | .edges => "from_edges"
  | .complete => "all_to_all"
  | .line => "linear"
  | .grid => "grid"
  | .descriptor => "from_dict"
  | .preset => "preset"

def all : List Maker :=
  [.parts, .edges, .complete, .line, .grid, .descriptor, .preset]

def ofName? (name : String) : Option Maker :=
  all.find? fun maker => maker.name == name

/-- The arguments that may be given by position. -/
def places : Maker → List String
  | .parts => ["num_qubits", "edges", "error_rates"]
  | .edges => ["num_qubits", "edges"]
  | .complete | .line => ["num_qubits"]
  | .grid => ["rows", "cols"]
  | .descriptor => ["data"]
  | .preset => ["name"]

/-- The arguments that have to be given. -/
def required : Maker → List String
  | .parts => ["num_qubits"]
  | maker => maker.places

end Maker

/-- Arguments, by position and by name. -/
structure Arguments where
  positional : List Datum
  named : Fields

namespace Arguments

def hasName (name : String) (entry : Key × Datum) : Bool :=
  entry.1.same (.text name)

/-- All arguments by name, if every one has a place, none is given twice and all the required
ones are there. -/
def byName (arguments : Arguments) (places required : List String) : Except Fault Fields :=
  let taken := places.take arguments.positional.length
  let placed : Fields := (taken.map Key.text).zip arguments.positional
  if places.length < arguments.positional.length then .error .wrongArguments
  else if taken.any fun name => arguments.named.any (hasName name) then .error .wrongArguments
  else
    let all := placed ++ arguments.named
    if required.all fun name => all.any (hasName name) then .ok all else .error .wrongArguments

end Arguments

namespace Device

/-- The rules that requests may name. -/
abbrev Rules := String → Option CouplingRule

/-- The optional parts of a device. -/
def options : List String :=
  ["error_rates", "gate_durations", "connectivity", "fallback_error_rate", "name"]

/-- The rule of a name. -/
def ruleOf (rules : Rules) (name : Datum) : Except Fault CouplingRule := do
  match ← name.toKey with
  | .text text =>
    match rules text with
    | some rule => return rule
    | none => throw (.missingKey name.literal)
  | _ => throw (.missingKey name.literal)

/-- The device of a given shape, with the rest of its parts among the arguments. Nothing but
`shape` and the optional parts may be there. -/
def ofArguments (rule : Option CouplingRule) (settings : Settings) (shape : List String)
    (numQubits edges : Datum) (arguments : Fields) : Except Fault (Device Float) := do
  let known := shape ++ options
  if arguments.all fun entry => known.any fun name => Arguments.hasName name entry then
    let entry (name : String) : Datum := (arguments.get? name).getD .null
    ofParts settings
      ⟨numQubits, edges, entry "error_rates", entry "gate_durations", rule,
        entry "fallback_error_rate", (arguments.get? "name").getD (.text "")⟩
  else throw .wrongArguments

/-! ## Lines and grids -/

/-- The places along one side of a lattice: the first so many numbers, or the items of a
collection. -/
def side (datum : Datum) : Except Fault (List Datum) :=
  match datum.number? with
  | some (.int size) =>
    if size < 0 then .error .negativeLattice else .ok ((List.range size.toNat).map .ofNat)
  | _ => datum.elements

def isHashable (datum : Datum) : Bool :=
  datum.key?.isSome

/-- A place that comes with what is noted about it. Nothing is no place. -/
def checkNoted (place notes : Datum) : Except Fault Unit := do
  let _ ← place.toKey
  match notes with
  | .map _ => pure ()
  | notes => let _ ← Datum.pairs 0 (← notes.elements)
  if place matches .null then throw .nothingAsPlace

/-- A place on a line. A collection is a place with notes. -/
def checkPlace (place : Datum) : Except Fault Unit := do
  if isHashable place then
    if place matches .null then throw .nothingAsPlace
  else
    let (place, notes) ← place.pair
    checkNoted place notes

/-- The places of a line. Neighbours on it cannot be collections. -/
def checkLine (places : List Datum) : Except Fault Unit := do
  places.forM checkPlace
  if 2 ≤ places.length && !places.all isHashable then throw .unhashable

/-- The places of a lattice, row by row. If one of the two coordinates is a collection, it is taken
for the notes on the other. -/
def checkLattice (down across : List Datum) : Except Fault Unit :=
  down.forM fun row => across.forM fun column =>
    if isHashable row && isHashable column then .ok () else checkNoted row column

/-- The number of places on a lattice. A collection is repeated as often as the other side is
long, and so gives no number. -/
def area (rows columns : Datum) : Except Fault Datum :=
  let repeated (collection : Datum) (count : Int) : Except Fault Datum :=
    match collection with
    | .text text => do return .text (← Repetition.repeatText text count)
    | .list items => do return .list (← Repetition.repeatItems items count)
    | _ => .error .notNumeric
  match rows.number?, columns.number? with
  | some (.int rows), some (.int columns) => .ok (.int (rows * columns))
  | some _, some _ => .ok (.float 0.0)
  | some (.int count), none => repeated columns count
  | none, some (.int count) => repeated rows count
  | _, _ => .error .notNumeric

/-- Whether the places of a lattice can be numbered row by row. -/
def isNumbered (rows columns : Datum) (across down : Nat) : Bool :=
  let hasEdges := (2 ≤ down && 1 ≤ across) || (1 ≤ down && 2 ≤ across)
  let isLength (side : Datum) : Bool := side.number?.isSome
  !hasEdges ||
    match rows, columns with
    | rows, .text _ => isLength rows
    | .list items, columns => isLength columns && items.all isLength
    | rows, columns => isLength rows && isLength columns

def lineEdges (numQubits : Datum) : Except Fault Datum := do
  let places ← side numQubits
  checkLine places
  return .list ((QubitGraph.line places.length).edges.map edgeDatum)

def gridEdges (rows columns : Datum) : Except Fault Datum := do
  let down ← side rows
  let across ← side columns
  checkLattice down across
  if isNumbered rows columns across.length down.length then
    return .list ((QubitGraph.grid down.length across.length).edges.map edgeDatum)
  else throw .notNumeric

/-! ## Answering requests -/

/-- The device that a request asks for. -/
def ofRequest (rules : Rules) (settings : Settings) (maker : Maker) (arguments : Arguments) :
    Except Fault (Device Float) := do
  let rule ← (arguments.named.get? "connectivity").mapM (ruleOf rules)
  let arguments ← arguments.byName maker.places maker.required
  let entry (name : String) : Datum := (arguments.get? name).getD .null
  match maker with
  | .parts =>
    ofArguments rule settings ["num_qubits", "edges"] (entry "num_qubits") (entry "edges")
      arguments
  | .edges =>
    let edges ← (entry "edges").elements
    ofArguments rule settings ["num_qubits", "edges"] (entry "num_qubits") (.list edges)
      arguments
  | .complete =>
    ofArguments rule settings ["num_qubits"] (entry "num_qubits") .null arguments
  | .line =>
    let edges ← lineEdges (entry "num_qubits")
    ofArguments rule settings ["num_qubits"] (entry "num_qubits") edges arguments
  | .grid =>
    let size ← area (entry "rows") (entry "cols")
    let edges ← gridEdges (entry "rows") (entry "cols")
    ofArguments rule settings ["rows", "cols"] size edges arguments
  | .descriptor =>
    if arguments.length == 1 then ofDatum settings (entry "data") else throw .wrongArguments
  | .preset =>
    if arguments.length == 1 then ofPreset settings (entry "name") else throw .wrongArguments

end Device

end Peephole
