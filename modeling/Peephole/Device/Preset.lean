import Peephole.Device.Document

/-!
Models of devices that go by a name. Each has a shape, one error rate from which those of the
kinds are scaled, and a table of durations.
-/

namespace Peephole

/-! ## Scaled error rates -/

/-- A number times a factor that is not whole. -/
def scaleByPart (base : Datum) (factor : Float) : Except Fault Datum :=
  match base.number? with
  | some number =>
    match number.toFloat? with
    | some x => .ok (.float (x * factor))
    | none => .error .integerTooLarge
  | none => .error .notNumeric

/-- A number times a whole factor; integers stay integers. -/
def scaleByWhole (base : Datum) (factor : Nat) : Except Fault Datum :=
  match base.number? with
  | some (.int value) => .ok (.int (value * factor))
  | some (.float value) => .ok (.float (value * Float.ofNat factor))
  | none => .error .notNumeric

/-- Error rates for the common kinds, scaled from one rate. -/
def scaledRates (base : Datum) : Except Fault (List (String × Datum)) := do
  return [
    ("X", base),
    ("Y", base),
    ("Z", ← scaleByPart base 0.1),
    ("H", ← scaleByPart base 1.2),
    ("CX", ← scaleByWhole base 10),
    ("CZ", ← scaleByWhole base 8)]

/-! ## The presets -/

inductive Shape where
  | complete
  /-- The least square grid that holds the qubits, cut to their number. -/
  | square
  deriving DecidableEq, Repr

structure Preset where
  name : String
  numQubits : Nat
  shape : Shape
  baseRate : Float
  durations : List (String × Float)

namespace Preset

def superconducting : List (String × Float) :=
  [("X", 35.0), ("Y", 35.0), ("Z", 0.0), ("RZ", 0.0), ("SX", 35.0), ("CX", 400.0),
    ("CZ", 300.0), ("MEASURE", 5000.0)]

def trappedIon : List (String × Float) :=
  [("X", 10000.0), ("Y", 10000.0), ("H", 10000.0), ("CX", 50000.0), ("MEASURE", 100000.0)]

/-- The presets by name, in order. -/
def all : List Preset :=
  [⟨"google_sycamore", 70, .square, 0.002, superconducting⟩,
    ⟨"ibm_washington", 127, .square, 0.001, superconducting⟩,
    ⟨"ionq_aria", 25, .complete, 0.0005, trappedIon⟩,
    ⟨"rigetti_aspen", 32, .square, 0.015, superconducting⟩]

def names : List String :=
  all.map (·.name)

/-- The least number whose square is not below `size`. -/
def side (size : Nat) : Nat :=
  ((List.range (size + 1)).find? fun side => size ≤ side * side).getD size

def edges (preset : Preset) : Datum :=
  match preset.shape with
  | .complete => .null
  | .square =>
    let side := side preset.numQubits
    .list (((QubitGraph.grid side side).restrict preset.numQubits).edges.map Device.edgeDatum)

def device (settings : Settings) (preset : Preset) : Except Fault (Device Float) := do
  let rates ← scaledRates (.float preset.baseRate)
  Device.ofParts settings
    ⟨.ofNat preset.numQubits, preset.edges, .record rates,
      .record (preset.durations.map fun (kind, time) => (kind, .float time)), none,
      .float preset.baseRate, .text preset.name⟩

end Preset

/-- The device of a preset, by its name. -/
def Device.ofPreset (settings : Settings) (name : Datum) : Except Fault (Device Float) := do
  let key ← name.toKey
  match Preset.all.find? fun preset => key.same (.text preset.name) with
  | some preset => preset.device settings
  | none =>
    throw (.unknownDevice name.literal (Datum.list (Preset.names.map .text)).literal)

end Peephole
