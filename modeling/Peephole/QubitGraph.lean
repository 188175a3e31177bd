/-!
Undirected graphs on the qubits from zero up. Edges are kept in order, each once and with its
lower end first. `QubitGraph.distance?` counts the edges on a shortest path by going out from
one end, one edge at a time; `QubitGraph.components` joins blocks of qubits edge by edge.
-/

namespace Peephole

structure QubitGraph where
  size : Nat
  edges : List (Nat × Nat)
  deriving DecidableEq, Repr

namespace QubitGraph

/-! ## Graphs of given shapes -/

def orient (edge : Nat × Nat) : Nat × Nat :=
  (min edge.1 edge.2, max edge.1 edge.2)

def edgeLe (left right : Nat × Nat) : Bool :=
  left.1 < right.1 || (left.1 == right.1 && left.2 ≤ right.2)

/-- Items without those that equal the item before them. -/
def dropRepeats {β : Type} [BEq β] : List β → List β
  | first :: second :: rest =>
    if first == second then dropRepeats (second :: rest) else first :: dropRepeats (second :: rest)
  | items => items

/-- The graph of the given pairs. Order and repetition do not count, and a qubit paired with
itself makes no edge. -/
def ofPairs (size : Nat) (pairs : List (Nat × Nat)) : QubitGraph :=
  let oriented := (pairs.filter fun pair => pair.1 != pair.2).map orient
  ⟨size, dropRepeats (oriented.mergeSort edgeLe)⟩

/-- All pairs of qubits that a relation holds of, the lower qubit first. -/
def pairsWhere (size : Nat) (related : Nat → Nat → Bool) : List (Nat × Nat) :=
  (List.range size).flatMap fun low =>
    ((List.range' (low + 1) (size - (low + 1))).filter (related low)).map fun high => (low, high)

def ofRelation (size : Nat) (related : Nat → Nat → Bool) : QubitGraph :=
  ⟨size, pairsWhere size related⟩

/-- An edge between every two qubits. -/
def complete (size : Nat) : QubitGraph :=
  ofRelation size fun _ _ => true

/-- An edge from every qubit to the next. -/
def line (size : Nat) : QubitGraph :=
  ⟨size, (List.range (size - 1)).map fun qubit => (qubit, qubit + 1)⟩

/-- The places of a lattice, row by row. -/
def places (rows columns : Nat) : List (Nat × Nat) :=
  (List.range rows).flatMap fun row => (List.range columns).map fun column => (row, column)

/-- The places that come next to a place, in its row and in its column. -/
def nextPlaces (rows columns : Nat) (place : Nat × Nat) : List (Nat × Nat) :=
  (if place.2 + 1 < columns then [(place.1, place.2 + 1)] else []) ++
    if place.1 + 1 < rows then [(place.1 + 1, place.2)] else []

def latticeEdges (rows columns : Nat) : List ((Nat × Nat) × (Nat × Nat)) :=
  (places rows columns).flatMap fun place =>
    (nextPlaces rows columns place).map fun next => (place, next)

/-- The qubit at a place of a lattice, counted row by row. -/
def qubitAt (columns : Nat) (place : Nat × Nat) : Nat :=
  place.1 * columns + place.2

def grid (rows columns : Nat) : QubitGraph :=
  ⟨rows * columns,
    (latticeEdges rows columns).map (Prod.map (qubitAt columns) (qubitAt columns))⟩

/-- The graph on the first qubits only. -/
def restrict (graph : QubitGraph) (size : Nat) : QubitGraph :=
  ⟨size, graph.edges.filter fun edge => edge.1 < size && edge.2 < size⟩

/-! ## Neighbours and distances -/

def hasEdge (graph : QubitGraph) (left right : Nat) : Bool :=
  graph.edges.contains (orient (left, right))

def neighbors (graph : QubitGraph) (qubit : Nat) : List Nat :=
  graph.edges.filterMap fun edge =>
    if edge.1 = qubit then some edge.2 else if edge.2 = qubit then some edge.1 else none

/-- The neighbours of every qubit, by its index. -/
def adjacency (graph : QubitGraph) : Array (List Nat) :=
  graph.edges.foldl
    (fun table edge => (table.modify edge.1 (edge.2 :: ·)).modify edge.2 (edge.1 :: ·))
    (Array.replicate graph.size [])

/-- What is known while a search goes out from a qubit: which qubits have been seen, and those
that were seen last. -/
structure Search where
  seen : Array Bool
  frontier : List Nat

/-- Adds a qubit to those seen last, unless it has been seen already. -/
def Search.visit (search : Search) (qubit : Nat) : Search :=
  if search.seen.getD qubit true then search
  else ⟨search.seen.set! qubit true, qubit :: search.frontier⟩

/-- The search one edge further out. -/
def Search.advance (table : Array (List Nat)) (search : Search) : Search :=
  (search.frontier.flatMap fun qubit => table.getD qubit []).foldl Search.visit ⟨search.seen, []⟩

/-- Goes out from the frontier, which lies `hops` away, until it holds the target. -/
def Search.hopsTo (table : Array (List Nat)) (target : Nat) :
    Nat → Search → Nat → Option Nat
  | 0, _, _ => none
  | steps + 1, search, hops =>
    if search.frontier.contains target then some hops
    else if search.frontier.isEmpty then none
    else Search.hopsTo table target steps (search.advance table) (hops + 1)

/-- The number of edges on a shortest path between two qubits, if there is a path. No shortest
path has as many edges as there are qubits. -/
def distance? (graph : QubitGraph) (left right : Nat) : Option Nat :=
  if left < graph.size && right < graph.size then
    let start : Search := ⟨Array.replicate graph.size false, []⟩
    Search.hopsTo graph.adjacency right graph.size (start.visit left) 0
  else none

/-! ## Components -/

/-- Joins the blocks that hold an end of an edge. -/
def joinBlocks (blocks : List (List Nat)) (edge : Nat × Nat) : List (List Nat) :=
  let (touched, apart) := blocks.partition fun block =>
    block.contains edge.1 || block.contains edge.2
  if touched.isEmpty then apart else touched.flatten :: apart

/-- The blocks of qubits that are linked by edges. A qubit without edges is a block of its
own. -/
def components (graph : QubitGraph) : List (List Nat) :=
  graph.edges.foldl joinBlocks ((List.range graph.size).map fun qubit => [qubit])

end QubitGraph

end Peephole
