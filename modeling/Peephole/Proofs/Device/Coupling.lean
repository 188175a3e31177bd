import Peephole.Cost.Basic
import Peephole.Device.Rule
import Peephole.Proofs.Circuit.Building
import Peephole.Proofs.Datum.Reading
import Peephole.Proofs.Device.Calibrated
import Peephole.Proofs.QubitGraph.Distance

/-!
# Connected qubits and the graph of a device

Whether a gate runs on two qubits is told by the rule of a device, if there is one. How far apart
they are is told by its graph, and that is made of the edges, if there are any. Edges alone, a
symmetric rule alone and neither of them leave one relation only, and then qubits are connected just
if they are one apart. With both, the rule is not in the graph: qubits may be refused that have an
edge, and are reported as one apart (`couplings_agree_if_unambiguous`, `refused_although_coupled`).
-/

namespace Peephole

namespace Device

variable {ρ α : Type}

/-! ## Graphs of devices -/

theorem contains_iff {device : Device ρ} {qubit : Int} :
    device.contains qubit = true ↔ 0 ≤ qubit ∧ qubit < device.numQubits := by
  rw [contains, Bool.not_eq_true', Registers.outside_eq_false_iff]

theorem size_couplingsOf (size : Nat) (edges : Option (List (Nat × Nat)))
    (rule : Option CouplingRule) : (couplingsOf size edges rule).size = size := by
  cases edges <;> cases rule <;> rfl

theorem tidy_couplingsOf {size : Nat} {edges : Option (List (Nat × Nat))}
    (inside : ∀ pairs ∈ edges, ∀ pair ∈ pairs, pair.1 < size ∧ pair.2 < size)
    (rule : Option CouplingRule) : (couplingsOf size edges rule).Tidy := by
  cases edges with
  | some pairs => exact QubitGraph.tidy_ofPairs (inside pairs rfl)
  | none => cases rule <;> exact QubitGraph.tidy_ofRelation _ _

theorem inside_of_readEdge {size : Nat} {edge : Datum} {pair : Nat × Nat}
    (read : readEdge size edge = .ok pair) : pair.1 < size ∧ pair.2 < size := by
  obtain ⟨ends, -, read⟩ := bind_eq_ok read
  obtain ⟨left, -, read⟩ := bind_eq_ok read
  obtain ⟨right, -, read⟩ := bind_eq_ok read
  split at read
  · cases read
  · rename_i inside
    obtain rfl := Except.ok.inj read
    rw [Bool.not_eq_true, Bool.or_eq_false_iff, Registers.outside_eq_false_iff,
      Registers.outside_eq_false_iff] at inside
    dsimp only
    omega

theorem inside_of_readEdges {size : Nat} {datum : Datum} {edges : Option (List (Nat × Nat))}
    (read : readEdges size datum = .ok edges) :
    ∀ pairs ∈ edges, ∀ pair ∈ pairs, pair.1 < size ∧ pair.2 < size := by
  unfold readEdges at read
  split at read
  · obtain rfl := Except.ok.inj read
    exact fun _ none => absurd none (Option.not_mem_none _)
  · obtain ⟨items, -, read⟩ := bind_eq_ok read
    obtain ⟨pairs, each, read⟩ := bind_eq_ok read
    obtain rfl := Except.ok.inj read
    rintro _ ⟨⟩ pair listed
    obtain ⟨edge, -, isPair⟩ := exists_mem_of_mapM_eq_ok each listed
    exact inside_of_readEdge isPair

/-- How the relation between the qubits of a device is made. -/
theorem exists_couplings_of_ofParts {settings : Settings} {parts : Parts} {device : Device Float}
    (made : ofParts settings parts = .ok device) :
    ∃ edges, readEdges device.numQubits parts.edges = .ok edges ∧ device.rule = parts.rule ∧
      device.couplings = couplingsOf device.numQubits edges parts.rule := by
  obtain ⟨size, -, made⟩ := bind_eq_ok made
  obtain ⟨edges, read, made⟩ := bind_eq_ok made
  obtain ⟨errorRates, -, made⟩ := bind_eq_ok made
  obtain ⟨durations, -, made⟩ := bind_eq_ok made
  obtain ⟨fallback, -, made⟩ := bind_eq_ok made
  obtain rfl := Except.ok.inj made
  refine ⟨edges, ?_, rfl, ?_⟩
  · rwa [numQubits, size_couplingsOf]
  · rw [numQubits, size_couplingsOf]

theorem tidy_of_ofParts {settings : Settings} {parts : Parts} {device : Device Float}
    (made : ofParts settings parts = .ok device) : device.couplings.Tidy := by
  obtain ⟨edges, read, -, coupled⟩ := exists_couplings_of_ofParts made
  rw [coupled]
  exact tidy_couplingsOf (inside_of_readEdges read) parts.rule

theorem distance?_eq {device : Device ρ} {left right : Int}
    (first : device.contains left = true) (second : device.contains right = true) :
    device.distance? left right = device.couplings.distance? left.toNat right.toNat := by
  rw [distance?, first, second]
  rfl

theorem distance?_eq_one_iff {device : Device ρ} (tidy : device.couplings.Tidy) {left right : Int}
    (first : device.contains left = true) (second : device.contains right = true) :
    device.distance? left right = some 1 ↔
      device.couplings.hasEdge left.toNat right.toNat = true := by
  rw [distance?_eq first second]
  rw [contains_iff, numQubits] at first second
  exact tidy.distance?_eq_one_iff (by omega) (by omega)

theorem distance?_ne_zero {device : Device ρ} (tidy : device.couplings.Tidy) {left right : Int}
    (first : device.contains left = true) (second : device.contains right = true)
    (distinct : left ≠ right) : device.distance? left right ≠ some 0 := by
  rw [distance?_eq first second]
  rw [contains_iff, numQubits] at first second
  rw [ne_eq, tidy.distance?_eq_some_iff (by omega) (by omega), Nat.cast_zero,
    SimpleGraph.edist_eq_zero_iff]
  omega

/-! ## Rules -/

/-- The rule, if there is one, answers the same in both orders. -/
def Symmetric (device : Device ρ) : Prop :=
  ∀ rule ∈ device.rule, ∀ left right : Nat, left < device.numQubits → right < device.numQubits →
    rule (.int left) (.int right) = rule (.int right) (.int left)

/-- The rule, if there is one, holds of the qubits that have an edge and of no others. -/
def Unambiguous (device : Device ρ) : Prop :=
  ∀ rule ∈ device.rule, ∀ left right : Nat, left < device.numQubits → right < device.numQubits →
    left ≠ right → rule (.int left) (.int right) = device.couplings.hasEdge left right

theorem isConnected_eq {device : Device ρ} {left right : Int}
    (first : device.contains left = true) (second : device.contains right = true)
    (distinct : left ≠ right) :
    device.isConnected left right =
      match device.rule with
      | some rule => rule (.int left) (.int right)
      | none => device.couplings.hasEdge left.toNat right.toNat := by
  rw [isConnected, first, second, bne_iff_ne.mpr distinct]
  rfl

theorem isConnected_eq_false {device : Device ρ} {left right : Int}
    (unusable : ¬ (device.contains left = true ∧ device.contains right = true ∧ left ≠ right)) :
    device.isConnected left right = false := by
  grind [isConnected]

theorem isConnected_comm {device : Device ρ} (symmetric : device.Symmetric) (left right : Int) :
    device.isConnected left right = device.isConnected right left := by
  by_cases usable : device.contains left = true ∧ device.contains right = true ∧ left ≠ right
  · obtain ⟨first, second, distinct⟩ := usable
    rw [isConnected_eq first second distinct, isConnected_eq second first distinct.symm]
    rw [contains_iff] at first second
    split
    · rename_i rule given
      have same := symmetric rule given left.toNat right.toNat (by omega) (by omega)
      rwa [Int.toNat_of_nonneg first.1, Int.toNat_of_nonneg second.1] at same
    · exact device.couplings.hasEdge_comm _ _
  · rw [isConnected_eq_false usable, isConnected_eq_false (by tauto)]

/-- A device is unambiguous just if it connects the qubits that have an edge. -/
theorem unambiguous_iff {device : Device ρ} :
    device.Unambiguous ↔ ∀ left right : Int, device.contains left = true →
      device.contains right = true → left ≠ right →
        device.isConnected left right = device.couplings.hasEdge left.toNat right.toNat := by
  constructor
  · intro unambiguous left right first second distinct
    rw [isConnected_eq first second distinct]
    rw [contains_iff] at first second
    split
    · rename_i rule given
      have same := unambiguous rule given left.toNat right.toNat (by omega) (by omega) (by omega)
      rwa [Int.toNat_of_nonneg first.1, Int.toNat_of_nonneg second.1] at same
    · rfl
  · intro same rule given left right first second distinct
    have inside : device.contains left = true ∧ device.contains right = true := by
      rw [contains_iff, contains_iff]
      omega
    have apart : (left : Int) ≠ right := by omega
    have connected := same left right inside.1 inside.2 apart
    rwa [isConnected_eq inside.1 inside.2 apart, given] at connected

/-- Edges or a rule leave no doubt, and neither do both missing. -/
theorem unambiguous_of_ofParts {settings : Settings} {parts : Parts} {device : Device Float}
    (made : ofParts settings parts = .ok device) (symmetric : device.Symmetric)
    (single : parts.edges = .null ∨ parts.rule = none) : device.Unambiguous := by
  obtain ⟨edges, read, ruled, coupled⟩ := exists_couplings_of_ofParts made
  intro rule given left right first second distinct
  have alone : parts.edges = .null := by
    rcases single with alone | unruled
    · exact alone
    · rw [ruled, unruled] at given
      cases given
  rw [alone] at read
  obtain rfl := Except.ok.inj read
  rw [← ruled, Option.mem_def.mp given] at coupled
  have same : device.couplings.hasEdge left right = true ↔
      left ≠ right ∧ rule (.int left) (.int right) = true := by
    rw [coupled]
    exact QubitGraph.hasEdge_ofRelation first second (symmetric rule given left right first second)
  rw [Bool.eq_iff_iff]
  exact ⟨fun holds => same.mpr ⟨distinct, holds⟩, fun linked => (same.mp linked).2⟩

end Device

/-! ## Violations -/

namespace Cost

variable {ρ α : Type}

theorem exists_of_mem_violations {device : Device ρ} {circuit : Circuit α}
    {violation : RoutingViolation} (reported : violation ∈ violations device circuit) :
    ∃ first second : Int, first ≠ second ∧ device.isConnected first second = false ∧
      violation.distance = device.distance? first second := by
  obtain ⟨⟨gate, index⟩, -, isViolation⟩ := List.mem_filterMap.mp reported
  unfold violation? at isViolation
  dsimp only at isViolation
  split at isViolation
  · rename_i kind first second distinct _
    split at isViolation
    · cases isViolation
    · rename_i refused
      obtain rfl := Option.some.inj isViolation
      exact ⟨first, second, distinct, Bool.eq_false_of_not_eq_true refused, rfl⟩
  · cases isViolation

/-- An unambiguous device only refuses qubits that are further apart than one edge, if at all there
is a way between them. -/
theorem two_le_distance_of_mem_violations {device : Device ρ} (tidy : device.couplings.Tidy)
    (unambiguous : device.Unambiguous) {circuit : Circuit α} {violation : RoutingViolation}
    (reported : violation ∈ violations device circuit) {hops : Nat}
    (far : violation.distance = some hops) : 2 ≤ hops := by
  obtain ⟨left, right, distinct, refused, distant⟩ := exists_of_mem_violations reported
  rw [far] at distant
  by_cases inside : device.contains left = true ∧ device.contains right = true
  · obtain ⟨first, second⟩ := inside
    rw [Device.unambiguous_iff.mp unambiguous left right first second distinct] at refused
    have notZero := Device.distance?_ne_zero tidy first second distinct
    have notOne : ¬ device.distance? left right = some 1 := by
      rw [Device.distance?_eq_one_iff tidy first second, refused]
      exact Bool.false_ne_true
    rw [← distant] at notZero notOne
    have : hops ≠ 0 := fun zero => notZero (congrArg some zero)
    have : hops ≠ 1 := fun one => notOne (congrArg some one)
    omega
  · rw [Device.distance?, if_neg (by rwa [Bool.and_eq_true])] at distant
    cases distant

end Cost

/-! ## Both relations -/

namespace Device

variable {α : Type}

/-- Qubits have an edge just if they are one apart, and are connected in both orders or in none. A
device connects just those that have an edge if and only if it is unambiguous, as it is unless it
was given both edges and a rule, and then no violation is reported of qubits that are one apart. -/
theorem couplings_agree_if_unambiguous {settings : Settings} {parts : Parts}
    {device : Device Float} (made : ofParts settings parts = .ok device)
    (symmetric : device.Symmetric) :
    (∀ left right : Int, device.contains left = true → device.contains right = true →
      left ≠ right →
        (device.couplings.hasEdge left.toNat right.toNat = true ↔
          device.distance? left right = some 1) ∧
        device.isConnected left right = device.isConnected right left) ∧
      (device.Unambiguous ↔ ∀ left right : Int, device.contains left = true →
        device.contains right = true → left ≠ right →
          device.isConnected left right = device.couplings.hasEdge left.toNat right.toNat) ∧
      (parts.edges = .null ∨ parts.rule = none → device.Unambiguous) ∧
      (device.Unambiguous → ∀ circuit : Circuit α, ∀ violation ∈ Cost.violations device circuit,
        ∀ hops, violation.distance = some hops → 2 ≤ hops) := by
  have tidy := tidy_of_ofParts made
  refine ⟨fun left right first second _ => ⟨?_, isConnected_comm symmetric left right⟩,
    unambiguous_iff, unambiguous_of_ofParts made symmetric, ?_⟩
  · exact (distance?_eq_one_iff tidy first second).symm
  · intro unambiguous circuit violation reported hops far
    exact Cost.two_le_distance_of_mem_violations tidy unambiguous reported far

/-! ## Devices with nothing but couplings -/

/-- A device of which only the couplings are known. Every gate succeeds on it. -/
def bare (size : Nat) (edges : Option (List (Nat × Nat))) (rule : Option CouplingRule) :
    Device Float where
  name := .null
  couplings := couplingsOf size edges rule
  rule := rule
  isAllToAll := edges.isNone && rule.isNone
  errorRates := []
  durations := none
  fallbackRate := 0.0

theorem readWidth_ofNat {size : Nat} (positive : 0 < size) :
    readWidth (.ofNat size) = .ok size := by
  simp only [readWidth, Datum.ofNat, Datum.toIndex, bind, Except.bind]
  rw [if_neg (by omega)]
  rfl

theorem readFallback_zero : readFallback (.int 0) = .ok 0.0 := by
  have inside : ((Number.int 0).le (.int 0) && (Number.int 0).lt (.int 1)) = true :=
    Bool.and_eq_true_iff.mpr
      ⟨Number.le_int_iff.mpr (Int.le_refl 0), Number.lt_int_iff.mpr Int.zero_lt_one⟩
  simp only [readFallback, Datum.toNumber, Datum.number?, bind, Except.bind, inside, if_true]
  rfl

theorem ofParts_bare (settings : Settings) {size : Nat} (positive : 0 < size) {datum : Datum}
    {edges : Option (List (Nat × Nat))} (read : readEdges size datum = .ok edges)
    (rule : Option CouplingRule) :
    ofParts settings ⟨.ofNat size, datum, .null, .null, rule, .int 0, .null⟩ =
      .ok (bare size edges rule) :=
  ofParts_eq (readWidth_ofNat positive) read rfl rfl readFallback_zero

/-- Three qubits, of which the first is coupled with the others by a rule. -/
theorem starred_agrees :
    ∃ device, ofParts Settings.standard
        ⟨.ofNat 3, .null, .null, .null, some CouplingRule.star, .int 0, .null⟩ = .ok device ∧
      device.Symmetric ∧ device.Unambiguous ∧ device.distance? 0 2 = some 1 ∧
      ∀ circuit : Circuit Float, ∀ violation ∈ Cost.violations device circuit,
        ∀ hops, violation.distance = some hops → 2 ≤ hops := by
  have read : readEdges 3 .null = .ok none := rfl
  have made := ofParts_bare Settings.standard (by decide) read (some CouplingRule.star)
  have symmetric : (bare 3 none (some CouplingRule.star)).Symmetric := by
    rintro _ ⟨⟩ left right - -
    exact Bool.or_comm _ _
  obtain ⟨adjacent, -, single, far⟩ := couplings_agree_if_unambiguous made symmetric
  have unambiguous := single (.inl rfl)
  have linked : (bare 3 none (some CouplingRule.star)).couplings.hasEdge 0 2 = true := by
    decide +kernel
  exact ⟨_, made, symmetric, unambiguous, (adjacent 0 2 rfl rfl (by decide)).1.mp linked,
    far unambiguous⟩

/-- Three qubits, of which two are coupled by an edge and none by the rule. -/
theorem refused_although_coupled :
    ∃ device, ofParts Settings.standard
        ⟨.ofNat 3, .list [.list [.int 0, .int 1]], .null, .null, some CouplingRule.never, .int 0,
          .null⟩ = .ok device ∧
      device.Symmetric ∧ device.isConnected 0 1 = false ∧
      device.couplings.hasEdge 0 1 = true ∧ device.distance? 0 1 = some 1 ∧
      Cost.violations device ((Circuit.empty ⟨3, 0⟩ ⟨.null, []⟩ : Circuit Float).push
        ⟨.pair .cx 0 1 (by decide), []⟩) = [⟨0, .pair .cx, [0, 1], some 1⟩] := by
  have read : readEdges 3 (.list [.list [.int 0, .int 1]]) = .ok (some [(0, 1)]) := rfl
  have made := ofParts_bare Settings.standard (by decide) read (some CouplingRule.never)
  have linked : (bare 3 (some [(0, 1)]) (some CouplingRule.never)).couplings.hasEdge 0 1 = true :=
    QubitGraph.hasEdge_ofPairs.mpr (by decide)
  have distant : (bare 3 (some [(0, 1)]) (some CouplingRule.never)).distance? 0 1 = some 1 :=
    (distance?_eq_one_iff (tidy_of_ofParts made) rfl rfl).mpr linked
  refine ⟨_, made, ?_, rfl, linked, distant, ?_⟩
  · rintro _ ⟨⟩ left right - -
    rfl
  · rw [← distant]
    rfl

end Device

end Peephole
