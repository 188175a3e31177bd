import Peephole.Circuit.Basic
import Peephole.Proofs.Schedule.Thinning

/-!
# Gate counts

`gateCounts` has one entry for each kind that occurs, with the number of its gates
(`lookup_gateCounts`). The entries stand in the order in which the kinds first occur, and nothing
else depends on the order of the gates (`perm_gateCounts`). When a circuit is thinned out no kind
becomes more frequent, and none occurs that did not occur before.
-/

namespace Peephole

variable {α : Type}

/-- Entries that are changed by key and value stand where they stood. -/
theorem lookup_map {κ ρ σ : Type} [BEq κ] [LawfulBEq κ] (valueOf : κ → ρ → σ)
    (entries : List (κ × ρ)) (key : κ) :
    (entries.map fun entry => (entry.1, valueOf entry.1 entry.2)).lookup key =
      (entries.lookup key).map (valueOf key) := by
  induction entries with
  | nil => rfl
  | cons entry entries ih =>
      rw [List.map_cons, List.lookup_cons, List.lookup_cons, ih]
      by_cases same : key = entry.1
      · rw [same, beq_self_eq_true]
        rfl
      · rw [beq_false_of_ne same]

namespace Circuit

theorem lookup_map_self {β : Type} (valueOf : GateKind → β) (kinds : List GateKind)
    (kind : GateKind) :
    (kinds.map fun other => (other, valueOf other)).lookup kind =
      if kind ∈ kinds then some (valueOf kind) else none := by
  induction kinds with
  | nil => rfl
  | cons first kinds ih =>
      rw [List.map_cons, List.lookup_cons, ih]
      by_cases same : kind = first
      · simp [same]
      · have differ : (kind == first) = false := by simpa using same
        simp [differ, same]

/-- The entry of a kind that occurs is the number of its gates. -/
theorem lookup_gateCounts (circuit : Circuit α) (kind : GateKind) :
    circuit.gateCounts.lookup kind =
      if kind ∈ circuit.gates.map Gate.kind then
        some ((circuit.gates.map Gate.kind).count kind)
      else none := by
  unfold gateCounts
  rw [lookup_map_self fun kind => (circuit.gates.map Gate.kind).count kind]
  simp only [List.mem_eraseDups]

theorem getD_lookup_gateCounts (circuit : Circuit α) (kind : GateKind) :
    (circuit.gateCounts.lookup kind).getD 0 = (circuit.gates.map Gate.kind).count kind := by
  rw [lookup_gateCounts]
  split
  · rfl
  · rename_i absent
    exact (List.count_eq_zero_of_not_mem absent).symm

/-! ## Gates in another order -/

theorem nodup_eraseDups {β : Type} [BEq β] [LawfulBEq β] (items : List β) :
    items.eraseDups.Nodup := by
  cases items with
  | nil => exact List.nodup_nil
  | cons first items =>
      rw [List.eraseDups_cons, List.nodup_cons, List.mem_eraseDups]
      exact ⟨by simp, nodup_eraseDups (items.filter fun other => !other == first)⟩
termination_by items.length
decreasing_by exact Nat.lt_succ_of_le (List.length_filter_le _ _)

section Permuted

variable {circuit circuit' : Circuit α}
  (perm : (circuit.gates.map Gate.kind).Perm (circuit'.gates.map Gate.kind))

include perm

/-- The entries are the same in some order. -/
theorem perm_gateCounts : circuit.gateCounts.Perm circuit'.gateCounts := by
  have kinds : (circuit.gates.map Gate.kind).eraseDups.Perm
      (circuit'.gates.map Gate.kind).eraseDups := by
    refine (List.perm_ext_iff_of_nodup (nodup_eraseDups _) (nodup_eraseDups _)).mpr fun kind => ?_
    rw [List.mem_eraseDups, List.mem_eraseDups, perm.mem_iff]
  unfold gateCounts
  simp only [perm.count_eq]
  exact kinds.map _

theorem lookup_gateCounts_of_perm (kind : GateKind) :
    circuit.gateCounts.lookup kind = circuit'.gateCounts.lookup kind := by
  rw [lookup_gateCounts, lookup_gateCounts, perm.count_eq]
  simp only [perm.mem_iff]

end Permuted

/-! ## Thinned circuits -/

theorem count_le_gateCount (circuit : Circuit α) (kind : GateKind) :
    (circuit.gates.map Gate.kind).count kind ≤ circuit.gateCount := by
  rw [gateCount, ← List.length_map Gate.kind]
  exact List.count_le_length

/-- A kind that is left has been there before, with no fewer gates. -/
theorem exists_lookup_gateCounts_of_thinned {circuit circuit' : Circuit α}
    (thinned : Thinned circuit.gates circuit'.gates) {kind : GateKind} {count : Nat}
    (found : circuit'.gateCounts.lookup kind = some count) :
    ∃ count', circuit.gateCounts.lookup kind = some count' ∧ count ≤ count' ∧
      count' ≤ circuit.gateCount := by
  rw [lookup_gateCounts] at found
  split at found
  · rename_i occurs
    obtain rfl := Option.some.inj found
    refine ⟨_, ?_, thinned.kinds.count_le kind, circuit.count_le_gateCount kind⟩
    rw [lookup_gateCounts, if_pos (thinned.kinds.subset occurs)]
  · cases found

theorem lookup_gateCounts_le_of_thinned {circuit circuit' : Circuit α}
    (thinned : Thinned circuit.gates circuit'.gates) (kind : GateKind) :
    (circuit'.gateCounts.lookup kind).getD 0 ≤ (circuit.gateCounts.lookup kind).getD 0 := by
  cases found : circuit'.gateCounts.lookup kind with
  | none => exact Nat.zero_le _
  | some count =>
      obtain ⟨count', found', le, -⟩ := exists_lookup_gateCounts_of_thinned thinned found
      rw [found']
      exact le

end Circuit

end Peephole
