import Peephole.Datum.Basic

/-!
# Identity of documents

Documents are equal by value more often than they are the same: numbers do not tell their form, and
maps not the order of their entries. Whether two documents are the same is decided by going through
both at once (`identical_iff`).
-/

namespace Peephole

deriving instance DecidableEq for Key

namespace Datum

mutual

def identical : Datum → Datum → Bool
  | .null, .null => true
  | .bool left, .bool right => left == right
  | .int left, .int right => left == right
  | .float left, .float right => decide (left = right)
  | .text left, .text right => left == right
  | .list left, .list right => identicalItems left right
  | .map left, .map right => identicalFields left right
  | _, _ => false

def identicalItems : List Datum → List Datum → Bool
  | [], [] => true
  | left :: lefts, right :: rights => left.identical right && identicalItems lefts rights
  | _, _ => false

def identicalFields : List (Key × Datum) → List (Key × Datum) → Bool
  | [], [] => true
  | (key, left) :: lefts, (key', right) :: rights =>
    decide (key = key') && left.identical right && identicalFields lefts rights
  | _, _ => false

end

mutual

theorem identical_iff (left right : Datum) : left.identical right = true ↔ left = right := by
  cases left with
  | list lefts =>
      cases right with
      | list rights => rw [identical, identicalItems_iff lefts rights, list.injEq]
      | null | bool | int | float | text | map => simp [identical]
  | map lefts =>
      cases right with
      | map rights => rw [identical, identicalFields_iff lefts rights, map.injEq]
      | null | bool | int | float | text | list => simp [identical]
  | null | bool | int | float | text => cases right <;> simp [identical]

theorem identicalItems_iff (lefts rights : List Datum) :
    identicalItems lefts rights = true ↔ lefts = rights := by
  cases lefts with
  | nil => cases rights <;> simp [identicalItems]
  | cons left lefts =>
      cases rights with
      | nil => simp [identicalItems]
      | cons right rights =>
          rw [identicalItems, Bool.and_eq_true, identical_iff left right,
            identicalItems_iff lefts rights, List.cons.injEq]

theorem identicalFields_iff (lefts rights : List (Key × Datum)) :
    identicalFields lefts rights = true ↔ lefts = rights := by
  cases lefts with
  | nil => cases rights <;> simp [identicalFields]
  | cons entry lefts =>
      obtain ⟨key, left⟩ := entry
      cases rights with
      | nil => simp [identicalFields]
      | cons entry rights =>
          obtain ⟨key', right⟩ := entry
          rw [identicalFields, Bool.and_eq_true, Bool.and_eq_true, decide_eq_true_iff,
            identical_iff left right, identicalFields_iff lefts rights, List.cons.injEq,
            Prod.mk.injEq]

end

instance : DecidableEq Datum := fun left right =>
  decidable_of_iff _ (identical_iff left right)

end Datum

end Peephole
