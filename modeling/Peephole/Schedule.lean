import Peephole.Gate.Basic

/-!
Layers of gates that run at the same time. `blocks` cuts a gate list into consecutive blocks:
a gate joins the block under construction unless it shares a qubit with one of its gates, in
which case it starts the next block. Gates are never moved, so the number of layers, the depth,
depends on how independent gates are interleaved; `criticalPathLength` counts dependencies
alone and does not.
-/

namespace Peephole

/-- Gates that run together, no two of them on a common qubit. -/
structure Layer (α : Type) where
  index : Nat
  gates : List (Gate α)
  /-- The qubits of the gates, gate by gate. -/
  qubits : List Int

namespace Schedule

variable {α : Type}

/-- Goes on cutting with a block that holds some gates already. -/
def blocksFrom (block : List (Gate α)) : List (Gate α) → List (List (Gate α))
  | [] => [block]
  | gate :: rest =>
    if block.any gate.overlaps then block :: blocksFrom [gate] rest
    else blocksFrom (block ++ [gate]) rest

def blocks : List (Gate α) → List (List (Gate α))
  | [] => []
  | gate :: rest => blocksFrom [gate] rest

/-- The blocks with their numbers and their qubits. -/
def layers (gates : List (Gate α)) : List (Layer α) :=
  (blocks gates).zipIdx.map fun (block, index) => ⟨index, block, block.flatMap Gate.qubits⟩

def depth (gates : List (Gate α)) : Nat :=
  (layers gates).length

/-- The number of each gate's layer, in the order of the gates. -/
def layerIndices (gates : List (Gate α)) : List Nat :=
  (layers gates).flatMap fun layer => layer.gates.map fun _ => layer.index

/-! ## Critical path -/

/-- The level up to which each qubit is busy. Qubits not listed are at level zero. -/
abbrev Levels := List (Int × Nat)

def Levels.get (levels : Levels) (qubit : Int) : Nat :=
  (levels.lookup qubit).getD 0

def Levels.set (levels : Levels) (qubit : Int) (level : Nat) : Levels :=
  (qubit, level) :: levels.filter (·.1 != qubit)

/-- The level of a gate: one more than the highest level of its qubits. -/
def gateLevel (levels : Levels) (gate : Gate α) : Nat :=
  gate.qubits.foldl (fun highest qubit => max highest (levels.get qubit)) 0 + 1

/-- The levels after a gate. -/
def raise (levels : Levels) (gate : Gate α) : Levels :=
  gate.qubits.foldl (fun raised qubit => raised.set qubit (gateLevel levels gate)) levels

/-- The highest level that a gate reaches, or `highest` if none reaches more. -/
def highestLevel (levels : Levels) (highest : Nat) : List (Gate α) → Nat
  | [] => highest
  | gate :: rest => highestLevel (raise levels gate) (max highest (gateLevel levels gate)) rest

/-- The depth when every gate runs as soon as the earlier gates on its qubits have run. -/
def criticalPathLength (gates : List (Gate α)) : Nat :=
  highestLevel [] 0 gates

end Schedule

end Peephole
