import Peephole.Datum.Basic
import Peephole.Schedule

/-!
Layers as documents: their numbers, the texts of their gates and their qubits in order.
-/

namespace Peephole

def Layer.toDatum (layer : Layer Float) : Datum :=
  .record [
    ("index", .ofNat layer.index),
    ("gates", .list (layer.gates.map fun gate => .text gate.text)),
    ("qubits", .list ((layer.qubits.mergeSort fun left right => left ≤ right).map .int)),
    ("len", .ofNat layer.gates.length)]

def layersDatum (gates : List (Gate Float)) : Datum :=
  .list ((Schedule.layers gates).map Layer.toDatum)

end Peephole
