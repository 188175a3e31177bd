import Peephole.Analysis.Interaction
import Peephole.Proofs.Circuit.Batch
import Peephole.Proofs.Optimizer.Rounds
import Peephole.Proofs.QubitGraph.Components

/-!
# Interactions counted

The edges of the interaction graph are collected gate by gate, each raising the weight of its edge
or adding it. In the end the weight of a pair is the number of gates on it, in either order of the
operands (`weight_eq_countP`), and the edges are the pairs with a weight. Each edge takes a gate and
each join of components takes an edge, which bounds the metrics (`interactions_counted`). When a
circuit is thinned out its interactions are a subsequence of those before, so no edge is added and
no weight raised.
-/

namespace Peephole

variable {α : Type}

/-- Whether a gate is one on two given qubits, in whatever order. -/
def Gate.links (left right : Nat) (gate : Gate α) : Bool :=
  gate.isTwoQubit &&
    (gate.qubits == [(left : Int), (right : Int)] || gate.qubits == [(right : Int), (left : Int)])

theorem Gate.links_pair_iff {kind : PairKind} {first second : Int} {distinct : first ≠ second}
    {annotations : Fields} {left right : Nat} :
    Gate.links left right (⟨.pair kind first second distinct, annotations⟩ : Gate α) = true ↔
      (first = left ∧ second = right) ∨ (first = right ∧ second = left) := by
  change (true && ([first, second] == [(left : Int), (right : Int)] ||
    [first, second] == [(right : Int), (left : Int)])) = true ↔ _
  simp

namespace QubitGraph

theorem orient_orient (pair : Nat × Nat) : orient (orient pair) = orient pair := by
  simp only [orient, min_le_max, min_eq_left, max_eq_right]

theorem orient_eq_orient_iff {first second left right : Nat} :
    orient (first, second) = orient (left, right) ↔
      (first = left ∧ second = right) ∨ (first = right ∧ second = left) := by
  simp only [orient, Prod.mk.injEq]
  omega

end QubitGraph

namespace Analysis

open QubitGraph (orient orient_orient orient_eq_orient_iff)

/-! ## Edges and their weights -/

theorem lookup_cons_eq_ite (entry : (Nat × Nat) × Nat) (edges : List ((Nat × Nat) × Nat))
    (edge : Nat × Nat) :
    (entry :: edges).lookup edge = if entry.1 = edge then some entry.2 else edges.lookup edge := by
  rw [List.lookup_cons]
  by_cases same : entry.1 = edge
  · rw [← same, beq_self_eq_true, if_pos rfl]
  · rw [beq_false_of_ne (Ne.symm same), if_neg same]

theorem lookup_raiseWeight (edge other : Nat × Nat) (edges : List ((Nat × Nat) × Nat)) :
    (raiseWeight edge edges).lookup other =
      if edge = other then some ((edges.lookup edge).getD 0 + 1) else edges.lookup other := by
  induction edges with
  | nil => rw [raiseWeight, lookup_cons_eq_ite]; rfl
  | cons entry edges ih =>
      rw [raiseWeight]
      by_cases here : entry.1 = edge
      · rw [if_pos here, lookup_cons_eq_ite, lookup_cons_eq_ite, lookup_cons_eq_ite, here,
          if_pos rfl]
        split <;> rfl
      · rw [if_neg here, lookup_cons_eq_ite, ih, lookup_cons_eq_ite, if_neg here,
          lookup_cons_eq_ite]
        by_cases same : edge = other
        · rw [← same, if_neg here, if_pos rfl, if_pos rfl]
        · rw [if_neg same, if_neg same]

theorem mem_map_fst_raiseWeight {edge other : Nat × Nat} {edges : List ((Nat × Nat) × Nat)} :
    other ∈ (raiseWeight edge edges).map Prod.fst ↔ other = edge ∨ other ∈ edges.map Prod.fst := by
  induction edges with
  | nil => simp [raiseWeight]
  | cons entry edges ih =>
      rw [raiseWeight]
      split
      · rename_i here
        simp [here]
      · rw [List.map_cons, List.mem_cons, ih, List.map_cons, List.mem_cons, or_left_comm]

/-- What the gates so far have made of the weights. -/
theorem lookup_foldl_raiseWeight (pairs : List (Nat × Nat)) (edges : List ((Nat × Nat) × Nat))
    (edge : Nat × Nat) :
    ((pairs.foldl (fun edges pair => raiseWeight (orient pair) edges) edges).lookup edge).getD 0 =
      (edges.lookup edge).getD 0 + (pairs.map orient).count edge := by
  induction pairs generalizing edges with
  | nil => rfl
  | cons pair pairs ih =>
      rw [List.foldl_cons, ih, lookup_raiseWeight, List.map_cons, List.count_cons]
      by_cases same : orient pair = edge
      · simp [same]
        omega
      · simp [same]

theorem mem_foldl_raiseWeight {pairs : List (Nat × Nat)} {edges : List ((Nat × Nat) × Nat)}
    {edge : Nat × Nat} :
    edge ∈ (pairs.foldl (fun edges pair => raiseWeight (orient pair) edges) edges).map Prod.fst ↔
      edge ∈ edges.map Prod.fst ∨ edge ∈ pairs.map orient := by
  induction pairs generalizing edges with
  | nil => simp
  | cons pair pairs ih =>
      rw [List.foldl_cons, ih, mem_map_fst_raiseWeight, List.map_cons, List.mem_cons, or_assoc,
        or_left_comm]

theorem weight_eq_count (circuit : Circuit α) (edge : Nat × Nat) :
    weight circuit edge = ((interactions circuit.gates).map orient).count (orient edge) := by
  rw [weight, weightedEdges, lookup_foldl_raiseWeight]
  exact Nat.zero_add _

theorem mem_edges_interactionGraph {circuit : Circuit α} {edge : Nat × Nat} :
    edge ∈ (interactionGraph circuit).edges ↔
      edge.1 ≠ edge.2 ∧ edge ∈ (interactions circuit.gates).map orient := by
  rw [interactionGraph, QubitGraph.mem_edges_ofPairs]
  simp only [weightedEdges, mem_foldl_raiseWeight, List.map_nil, List.not_mem_nil, false_or]
  constructor
  · rintro ⟨pair, listed, differ, rfl⟩
    obtain ⟨operands, given, rfl⟩ := List.mem_map.mp listed
    rw [orient_orient]
    exact ⟨differ, listed⟩
  · rintro ⟨differ, listed⟩
    refine ⟨edge, listed, differ, ?_⟩
    obtain ⟨operands, given, rfl⟩ := List.mem_map.mp listed
    exact orient_orient operands

theorem nodup_edges_interactionGraph (circuit : Circuit α) :
    (interactionGraph circuit).edges.Nodup := by
  refine (QubitGraph.ordered_ofPairs _ _).imp fun {left right} before same => ?_
  unfold QubitGraph.Before at before
  rw [same] at before
  omega

/-! ## Gates on a pair -/

theorem orient_toNat_eq_iff {first second : Int} (first_nonneg : 0 ≤ first)
    (second_nonneg : 0 ≤ second) {left right : Nat} :
    orient (first.toNat, second.toNat) = orient (left, right) ↔
      (first = left ∧ second = right) ∨ (first = right ∧ second = left) := by
  rw [orient_eq_orient_iff]
  omega

/-- Each gate on two qubits is counted for its pair. -/
theorem count_interactions {gates : List (Gate α)}
    (within : ∀ gate ∈ gates, ∀ qubit ∈ gate.qubits, 0 ≤ qubit) (left right : Nat) :
    ((interactions gates).map orient).count (orient (left, right)) =
      gates.countP (Gate.links left right) := by
  induction gates with
  | nil => rfl
  | cons gate gates ih =>
      rw [List.forall_mem_cons] at within
      rw [List.countP_cons, ← ih within.2]
      obtain ⟨operation, annotations⟩ := gate
      cases operation with
      | fixed | rotation | measure => rfl
      | pair kind first second distinct =>
          have linked : Gate.links left right
              (⟨.pair kind first second distinct, annotations⟩ : Gate α) = true ↔
                orient (first.toNat, second.toNat) = orient (left, right) :=
            Gate.links_pair_iff.trans (orient_toNat_eq_iff (within.1 first (.head _))
              (within.1 second (.tail _ (.head _)))).symm
          change List.count _ (orient (first.toNat, second.toNat) ::
            (interactions gates).map orient) = _
          rw [List.count_cons]
          simp only [linked, beq_iff_eq]

/-- The interactions are told by the operands alone. -/
theorem interactions_eq_filterMap (gates : List (Gate α)) :
    interactions gates = (gates.map Gate.operands).filterMap fun operands =>
      match operands.2.1 with
      | [first, second] => some (first.toNat, second.toNat)
      | _ => none := by
  rw [List.filterMap_map, interactions]
  refine List.filterMap_congr fun gate _ => ?_
  obtain ⟨operation, annotations⟩ := gate
  cases operation <;> rfl

theorem length_interactions (gates : List (Gate α)) :
    (interactions gates).length = gates.countP Gate.isTwoQubit := by
  induction gates with
  | nil => rfl
  | cons gate gates ih =>
      obtain ⟨operation, annotations⟩ := gate
      cases operation with
      | fixed | rotation | measure => exact ih
      | pair => exact (congrArg (· + 1) ih).trans (List.countP_cons_of_pos rfl).symm

section Sound

variable {circuit : Circuit α} (sound : circuit.Sound)

include sound

/-- The weight of a pair is the number of gates on it. -/
theorem weight_eq_countP (left right : Nat) :
    weight circuit (left, right) = circuit.gates.countP (Gate.links left right) := by
  rw [weight_eq_count]
  exact count_interactions (fun gate member qubit used =>
    ((sound.admitted gate member).1 qubit used).1) left right

theorem ends_of_mem_interactions {edge : Nat × Nat} (given : edge ∈ interactions circuit.gates) :
    edge.1 ≠ edge.2 ∧ edge.1 < circuit.registers.qubits ∧ edge.2 < circuit.registers.qubits := by
  obtain ⟨⟨operation, annotations⟩, member, acts⟩ := List.mem_filterMap.mp given
  cases operation with
  | fixed | rotation | measure => cases acts
  | pair kind first second distinct =>
      obtain rfl := Option.some.inj acts
      have inside := (sound.admitted _ member).1
      have first_inside := inside first (.head _)
      have second_inside := inside second (.tail _ (.head _))
      dsimp only
      omega

theorem mem_edges_iff {edge : Nat × Nat} :
    edge ∈ (interactionGraph circuit).edges ↔ edge ∈ (interactions circuit.gates).map orient := by
  rw [mem_edges_interactionGraph]
  refine and_iff_right_of_imp fun listed => ?_
  obtain ⟨operands, given, rfl⟩ := List.mem_map.mp listed
  exact (min_lt_max.mpr (ends_of_mem_interactions sound given).1).ne

theorem tidy_interactionGraph : (interactionGraph circuit).Tidy := by
  intro edge listed
  obtain ⟨operands, given, rfl⟩ := List.mem_map.mp ((mem_edges_iff sound).mp listed)
  obtain ⟨differ, first, second⟩ := ends_of_mem_interactions sound given
  exact ⟨min_lt_max.mpr differ, max_lt first second⟩

/-- There is an edge where there is a gate. -/
theorem hasEdge_interactionGraph_iff {left right : Nat} :
    (interactionGraph circuit).hasEdge left right = true ↔
      ∃ gate ∈ circuit.gates, gate.links left right = true := by
  rw [QubitGraph.hasEdge_iff, mem_edges_iff sound, ← List.count_pos_iff, ← weight_eq_count,
    weight_eq_countP sound, List.countP_pos_iff]

theorem toFinset_edges_interactionGraph :
    (interactionGraph circuit).edges.toFinset =
      ((interactions circuit.gates).map orient).toFinset := by
  ext edge
  rw [List.mem_toFinset, List.mem_toFinset, mem_edges_iff sound]

/-- All weights together are the gates on two qubits. -/
theorem sum_weights :
    ((interactionGraph circuit).edges.map (weight circuit)).sum = circuit.twoQubitCount := by
  have counts : (interactionGraph circuit).edges.map (weight circuit) =
      (interactionGraph circuit).edges.map ((interactions circuit.gates).map orient).count :=
    List.map_congr_left fun edge listed => by
      rw [weight_eq_count, QubitGraph.orient_of_lt (tidy_interactionGraph sound edge listed).1]
  rw [counts, ← List.sum_toFinset _ (nodup_edges_interactionGraph circuit),
    toFinset_edges_interactionGraph sound]
  convert List.sum_toFinset_count_eq_length ((interactions circuit.gates).map orient) using 1
  · congr!
  · rw [List.length_map, length_interactions, sound.counted]

/-- Each pair takes a gate. -/
theorem length_edges_le : (interactionGraph circuit).edges.length ≤ circuit.twoQubitCount := by
  calc (interactionGraph circuit).edges.length
      = ((interactions circuit.gates).map orient).toFinset.card := by
        rw [← toFinset_edges_interactionGraph sound,
          List.toFinset_card_of_nodup (nodup_edges_interactionGraph circuit)]
    _ ≤ ((interactions circuit.gates).map orient).length := List.toFinset_card_le _
    _ = circuit.twoQubitCount := by rw [List.length_map, length_interactions, sound.counted]

end Sound

/-! ## Metrics -/

/-- There is a qubit, and so a component of it. -/
theorem isGreatest_largestComponent {circuit : Circuit α} (sound : circuit.Sound) :
    IsGreatest {size | ∃ block ∈ (interactionGraph circuit).components, block.length = size}
      (interactionMetrics circuit).largestComponent := by
  have sizes : ∀ size, size ∈ (interactionGraph circuit).components.map List.length ↔
      ∃ block ∈ (interactionGraph circuit).components, block.length = size :=
    fun size => List.mem_map
  have greatest : (0 :: (interactionGraph circuit).components.map List.length).max? =
      some (interactionMetrics circuit).largestComponent := List.max?_cons'
  obtain ⟨reached, bound⟩ := List.max?_eq_some_iff.mp greatest
  refine ⟨(sizes _).mp ?_, fun size member => bound size (.tail _ ((sizes size).mpr member))⟩
  rcases List.mem_cons.mp reached with none | found
  · have total := (tidy_interactionGraph sound).sum_length_components
    have empty : ((interactionGraph circuit).components.map List.length).sum = 0 := by
      refine List.sum_eq_zero fun size member => Nat.le_zero.mp ?_
      rw [← none]
      exact bound size (.tail _ member)
    have hasQubit := sound.hasQubit
    rw [empty] at total
    exact absurd total (Nat.ne_of_lt hasQubit)
  · exact found

theorem largestComponent_le {circuit : Circuit α} (sound : circuit.Sound) :
    (interactionMetrics circuit).largestComponent ≤ (interactionMetrics circuit).pairCount + 1 := by
  obtain ⟨⟨block, listed, largest⟩, -⟩ := isGreatest_largestComponent sound
  rw [← largest]
  exact (tidy_interactionGraph sound).length_le_of_mem_components listed

theorem le_componentCount {circuit : Circuit α} (sound : circuit.Sound) :
    circuit.registers.qubits ≤
      (interactionMetrics circuit).componentCount + (interactionMetrics circuit).pairCount := by
  have bound := (tidy_interactionGraph sound).size_le_components
  rwa [← List.length_map List.length] at bound

/-! ## Fewer gates -/

/-- The qubits of the second circuit interact at most as those of the first. -/
structure InteractsWithin (circuit circuit' : Circuit α) : Prop where
  edges : ∀ left right, (interactionGraph circuit').hasEdge left right = true →
    (interactionGraph circuit).hasEdge left right = true
  weights : ∀ edge, weight circuit' edge ≤ weight circuit edge

theorem interactsWithin_of_thinned {circuit circuit' : Circuit α}
    (thinned : Thinned circuit.gates circuit'.gates) : InteractsWithin circuit circuit' := by
  have sublist : ((interactions circuit'.gates).map orient).Sublist
      ((interactions circuit.gates).map orient) := by
    rw [interactions_eq_filterMap, interactions_eq_filterMap]
    exact (List.Sublist.filterMap _ thinned).map orient
  constructor
  · intro left right linked
    rw [QubitGraph.hasEdge_iff, mem_edges_interactionGraph] at linked ⊢
    exact linked.imp_right fun listed => sublist.subset listed
  · intro edge
    rw [weight_eq_count, weight_eq_count]
    exact sublist.count_le _

/-- The interaction graph has all qubits, an edge where there is a gate on two qubits, and as its
weight the number of such gates, which sum to the number of gates on two qubits. The components are
what can be reached from each of their qubits, and share out all qubits; each pair joins at most two
of them, and takes a gate. The metrics are the numbers of these. One round of passes and the fixed
point add no edge and raise no weight. -/
theorem interactions_counted [Angle α] {circuit : Circuit α} (sound : circuit.Sound) :
    (interactionGraph circuit).size = circuit.registers.qubits ∧
      (∀ left right, (interactionGraph circuit).hasEdge left right = true ↔
        ∃ gate ∈ circuit.gates, gate.links left right = true) ∧
      (∀ left right,
        weight circuit (left, right) = circuit.gates.countP (Gate.links left right)) ∧
      ((interactionGraph circuit).edges.map (weight circuit)).sum = circuit.twoQubitCount ∧
      (∀ block ∈ (interactionGraph circuit).components, ∀ left ∈ block, ∀ right,
        right ∈ block ↔ (interactionGraph circuit).adjacent.Reachable left right) ∧
      (interactionGraph circuit).components.flatten.Perm (List.range circuit.registers.qubits) ∧
      ((interactionGraph circuit).components.map List.length).sum = circuit.registers.qubits ∧
      (interactionMetrics circuit).componentCount = (interactionGraph circuit).components.length ∧
      (interactionMetrics circuit).pairCount = (interactionGraph circuit).edges.length ∧
      (interactionMetrics circuit).twoQubitCount = circuit.twoQubitCount ∧
      IsGreatest {size | ∃ block ∈ (interactionGraph circuit).components, block.length = size}
        (interactionMetrics circuit).largestComponent ∧
      circuit.registers.qubits ≤
        (interactionMetrics circuit).componentCount + (interactionMetrics circuit).pairCount ∧
      (interactionMetrics circuit).largestComponent ≤
        (interactionMetrics circuit).pairCount + 1 ∧
      (interactionMetrics circuit).pairCount ≤ (interactionMetrics circuit).twoQubitCount ∧
      ∀ passes tolerance,
        (∃ result, Optimizer.run ⟨passes, some tolerance⟩ circuit = .ok result ∧
          InteractsWithin circuit result.circuit) ∧
        ∀ limit, ∃ settled,
          Optimizer.toFixedPoint ⟨passes, some tolerance⟩ limit circuit = .ok settled ∧
            InteractsWithin circuit settled := by
  have tidy := tidy_interactionGraph sound
  have wellFormed := (Circuit.sound_iff.mp sound).2
  refine ⟨rfl, fun left right => hasEdge_interactionGraph_iff sound, weight_eq_countP sound,
    sum_weights sound, fun block listed left inside right => tidy.mem_iff_reachable listed inside,
    tidy.perm_components, tidy.sum_length_components, List.length_map _, rfl, rfl,
    isGreatest_largestComponent sound, le_componentCount sound, largestComponent_le sound,
    length_edges_le sound, fun passes tolerance => ⟨?_, fun limit => ?_⟩⟩
  · exact ⟨_, Optimizer.run_eq wellFormed passes tolerance,
      interactsWithin_of_thinned (Pass.applyAll_thinned _ passes circuit.gates)⟩
  · exact ⟨_, Optimizer.toFixedPoint_eq wellFormed passes tolerance limit,
      interactsWithin_of_thinned (Pass.settle_thinned _ passes _ circuit.gates)⟩

/-- Two pairs of qubits with two gates each, and a qubit apart. Two of the gates cancel. -/
def pairedOff : Circuit Float :=
  (Circuit.empty ⟨5, 0⟩ ⟨.null, []⟩).replaceGates
    [⟨.pair .cx 1 2 (by decide), []⟩, ⟨.pair .cz 2 1 (by decide), []⟩,
      ⟨.pair .cx 4 3 (by decide), []⟩, ⟨.pair .cx 4 3 (by decide), []⟩, ⟨.fixed .h 0, []⟩]

theorem pairedOff_interactions :
    pairedOff.Sound ∧ weight pairedOff (2, 1) = 2 ∧
      (interactionGraph pairedOff).hasEdge 3 4 = true ∧
      (interactionMetrics pairedOff).twoQubitCount = 4 ∧
      IsGreatest {size | ∃ block ∈ (interactionGraph pairedOff).components, block.length = size}
        (interactionMetrics pairedOff).largestComponent ∧
      5 ≤ (interactionMetrics pairedOff).componentCount +
        (interactionMetrics pairedOff).pairCount ∧
      ∃ result, Optimizer.run ⟨[.cancelInverses], some 1e-10⟩ pairedOff = .ok result ∧
        InteractsWithin pairedOff result.circuit := by
  have sound : pairedOff.Sound :=
    Circuit.sound_iff.mpr ⟨by decide, Circuit.wellFormed_of_within (by decide) (by decide)⟩
  obtain ⟨-, edges, weights, -, -, -, -, -, -, gates, largest, many, -, -, passes⟩ :=
    interactions_counted sound
  exact ⟨sound, (weights 2 1).trans (by decide), (edges 3 4).mpr (by decide),
    gates.trans (by decide), largest, many, (passes [.cancelInverses] 1e-10).1⟩

end Analysis

end Peephole
