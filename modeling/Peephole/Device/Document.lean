import Peephole.Device.Basic
import Peephole.Settings.Basic

/-!
Devices as documents. `Device.ofParts` judges the parts of a device in order: the width, the
edges, the two tables and the fallback rate. `Device.ofDatum` takes the parts from a map, and
`Device.toDatum` writes such a map.
-/

namespace Peephole

namespace Device

/-- The parts of a device. Edges, durations and the fallback rate are not given if they are
null. -/
structure Parts where
  numQubits : Datum
  edges : Datum
  errorRates : Datum
  durations : Datum
  rule : Option CouplingRule
  fallbackRate : Datum
  name : Datum

/-! ## Reading -/

def readWidth (width : Datum) : Except Fault Nat := do
  let width ← width.toIndex "num_qubits"
  if width ≤ 0 then throw (.noQubits width) else return width.toNat

def readEdge (size : Nat) (edge : Datum) : Except Fault (Nat × Nat) := do
  let (left, right) ← edge.pair
  let left ← left.toIndex "edge endpoint"
  let right ← right.toIndex "edge endpoint"
  if Registers.outside size left || Registers.outside size right then
    throw (.edgeOutside left right size)
  else return (left.toNat, right.toNat)

def readEdges (size : Nat) : Datum → Except Fault (Option (List (Nat × Nat)))
  | .null => .ok none
  | edges => do return some (← (← edges.elements).mapM (readEdge size))

def readFallback (rate : Datum) : Except Fault Float := do
  let number ← rate.toNumber
  if (Number.int 0).le number && number.lt (.int 1) then rate.toFloat
  else throw (.fallbackOutside rate.literal)

/-- Durations are told by any table, even an empty one. -/
def readDurations : Datum → Except Fault (Option (Calibration Float))
  | .null => .ok none
  | table => do return some (← Calibration.ofDatum Calibration.duration table)

/-- The device of parts, whose tables are read apart and judged in their turn. -/
def assemble (settings : Settings) (parts : Parts) (errorRates : Except Fault (Calibration Float))
    (durations : Except Fault (Option (Calibration Float))) : Except Fault (Device Float) := do
  let size ← readWidth parts.numQubits
  let edges ← readEdges size parts.edges
  let errorRates ← errorRates
  let durations ← durations
  let fallback ← readFallback (Settings.orElse parts.fallbackRate settings.fallbackErrorRate)
  return {
    name := parts.name
    couplings := couplingsOf size edges parts.rule
    rule := parts.rule
    isAllToAll := edges.isNone && parts.rule.isNone
    errorRates := errorRates
    durations := durations
    fallbackRate := fallback }

def ofParts (settings : Settings) (parts : Parts) : Except Fault (Device Float) :=
  assemble settings parts (Calibration.ofDatum Calibration.errorRate parts.errorRates)
    (readDurations parts.durations)

/-- A device on which all qubits are coupled and every gate has the same error rate. -/
def ideal (settings : Settings) (width : Nat) (fallbackRate : Datum) :
    Except Fault (Device Float) :=
  ofParts settings ⟨.ofNat width, .null, .null, .null, none, fallbackRate, .text "ideal"⟩

/-- Whether something that may hold an entry holds the width. Beside maps, lists and texts may
hold the word, but no width. -/
def mentionsWidth : Datum → Except Fault Bool
  | .map fields => .ok (Fields.get? fields "num_qubits").isSome
  | .list items => .ok (items.any (Datum.same (.text "num_qubits")))
  | .text text => .ok ((text.splitOn "num_qubits").length != 1)
  | _ => .error .notIterable

/-- The edges that a map tells, unless it says that all qubits are coupled. Each is taken apart
before the width is judged. -/
def edgesOf (fields : Fields) : Except Fault Datum :=
  match (fields.get? "edges").getD .null with
  | .null => .ok .null
  | edges =>
    if ((fields.get? "all_to_all").getD .null).isVoid then do
      return .list (← (← edges.elements).mapM fun edge => do return .list (← edge.elements))
    else .ok .null

def ofDatum (settings : Settings) (datum : Datum) : Except Fault (Device Float) := do
  if ← mentionsWidth datum then
    let fields ← datum.fields
    let entry (name : String) : Datum := (fields.get? name).getD .null
    let edges ← edgesOf fields
    let name ← ((fields.get? "name").getD (.text "")).toText
    ofParts settings
      ⟨entry "num_qubits", edges, entry "error_rates", entry "gate_durations", none,
        entry "fallback_error_rate", .text name⟩
  else throw .missingWidth

/-! ## Writing -/

def edgeDatum (edge : Nat × Nat) : Datum :=
  .list [.ofNat edge.1, .ofNat edge.2]

def edgesDatum (device : Device Float) : Datum :=
  .list (device.couplings.edges.map edgeDatum)

def toDatum (device : Device Float) : Datum :=
  .record <|
    [("name", device.name), ("num_qubits", .ofNat device.numQubits),
      ("error_rates", device.errorRates.toDatum),
      ("fallback_error_rate", .float device.fallbackRate),
      if device.isAllToAll then ("all_to_all", .bool true)
      else ("edges", edgesDatum device)] ++
      match device.durations with
      | some table => [("gate_durations", table.toDatum)]
      | none => []

end Device

end Peephole
