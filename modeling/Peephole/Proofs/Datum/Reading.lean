import Mathlib.Data.List.Forall2
import Peephole.Datum.Reader

/-!
# Reading lists and annotations

A list is read if each of its items is (`mapM_eq_ok_iff`), a record by the names of its entries
(`Fields.get?_record`). Annotations that have been read are a map, and reading the map gives it
again (`Datum.annotations_map`).
-/

namespace Peephole

/-! ## Lists -/

theorem mapM_eq_ok_iff {ε β γ : Type} {read : β → Except ε γ} {items : List β}
    {results : List γ} :
    items.mapM read = .ok results ↔
      List.Forall₂ (fun item result => read item = .ok result) items results := by
  induction items generalizing results with
  | nil =>
      rw [List.mapM_nil, List.forall₂_nil_left_iff]
      exact ⟨fun same => (Except.ok.inj same).symm, fun same => same ▸ rfl⟩
  | cons item items ih =>
      rw [List.mapM_cons]
      constructor
      · intro passed
        obtain ⟨first, isFirst, passed⟩ := bind_eq_ok passed
        obtain ⟨rest, areRest, passed⟩ := bind_eq_ok passed
        obtain rfl := Except.ok.inj passed
        exact .cons isFirst (ih.mp areRest)
      · intro read
        cases read with
        | cons isFirst areRest =>
            rw [isFirst, ih.mpr areRest]
            rfl

theorem map_eq_of_mapM {ε β γ : Type} {read : β → Except ε γ} {items : List β}
    {results : List γ} (passed : items.mapM read = .ok results) :
    items.map read = results.map .ok := by
  induction mapM_eq_ok_iff.mp passed with
  | nil => rfl
  | cons isFirst areRest ih =>
      rw [List.map_cons, List.map_cons, isFirst, ih (mapM_eq_ok_iff.mpr areRest)]

/-- Reading what has been read is reading in two steps. -/
theorem mapM_bind_eq_ok {ε β γ δ : Type} {read : β → Except ε γ} {next : γ → Except ε δ}
    {items : List β} {between : List γ} {results : List δ} (first : items.mapM read = .ok between)
    (second : between.mapM next = .ok results) :
    items.mapM (fun item => read item >>= next) = .ok results := by
  rw [mapM_eq_ok_iff] at first second ⊢
  induction first generalizing results with
  | nil =>
      cases second
      exact .nil
  | cons isRead _ ih =>
      cases second with
      | cons isNext others =>
          refine .cons ?_ (ih others)
          rw [isRead]
          exact isNext

/-- Every result is that of an item. -/
theorem exists_mem_of_mapM_eq_ok {ε β γ : Type} {read : β → Except ε γ} {items : List β}
    {results : List γ} (passed : items.mapM read = .ok results) {result : γ}
    (member : result ∈ results) : ∃ item ∈ items, read item = .ok result := by
  induction mapM_eq_ok_iff.mp passed with
  | nil => cases member
  | cons isFirst areRest ih =>
      rcases List.mem_cons.mp member with rfl | member
      · exact ⟨_, .head _, isFirst⟩
      · obtain ⟨item, listed, isResult⟩ := ih (mapM_eq_ok_iff.mpr areRest) member
        exact ⟨item, .tail _ listed, isResult⟩

/-! ## Records -/

/-- The entries of a record are found by name. -/
theorem Fields.get?_record (entries : List (String × Datum)) (name : String) :
    Fields.get? (entries.map fun entry => (Key.text entry.1, entry.2)) name =
      entries.lookup name := by
  induction entries with
  | nil => rfl
  | cons entry entries ih =>
      obtain ⟨present, value⟩ := entry
      have compared : (Key.text present).same (.text name) = (name == present) := BEq.comm
      unfold get? find? at ih ⊢
      rw [List.map_cons, List.find?_cons, List.lookup_cons, ← ih]
      dsimp only
      rw [compared]
      cases name == present <;> rfl

/-! ## Annotations -/

/-- Reading a map as annotations gives the map. -/
theorem Datum.annotations_map (fields : Fields) : (map fields).annotations = .ok fields := by
  unfold annotations
  split
  · rename_i void
    rw [List.isEmpty_iff.mp void]
    rfl
  · rfl

end Peephole
