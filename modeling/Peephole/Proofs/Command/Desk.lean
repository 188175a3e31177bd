import Peephole.Command.Run

/-!
# Actions on a tree of files

What an action on a tree of files comes to is told by what its parts come to (`ends_bind_iff`). An
action that only looks at the files leaves everything as it is, and so do all actions that are made
of such (`Looks`).
-/

namespace Peephole

namespace Command

variable {β γ : Type}

/-! ## Actions that end well -/

/-- An action ends with a value and leaves a tree of files and lines behind. -/
def Ends (action : DeskM β) (before : Desk) (value : β) (after : Desk) : Prop :=
  action.run.run before = (.ok value, after)

theorem ends_pure_iff {value result : β} {before after : Desk} :
    Ends (pure value) before result after ↔ result = value ∧ after = before := by
  change ((Except.ok value, before) : Except Fault β × Desk) = (.ok result, after) ↔ _
  grind

theorem ends_bind_iff {first : DeskM β} {next : β → DeskM γ} {before after : Desk} {result : γ} :
    Ends (first >>= next) before result after ↔
      ∃ value between, Ends first before value between ∧
        Ends (next value) between result after := by
  unfold Ends
  rw [ExceptT.run_bind, StateT.run_bind]
  rcases first.run.run before with ⟨outcome, between⟩
  cases outcome with
  | error fault =>
      constructor
      · intro ended
        cases ended
      · rintro ⟨_, _, ended, -⟩
        cases ended
  | ok value =>
      constructor
      · intro ended
        exact ⟨value, between, rfl, ended⟩
      · rintro ⟨_, _, ⟨⟩, ended⟩
        exact ended

theorem ends_orThrow_iff {read : Except Fault β} {before after : Desk} {result : β} :
    Ends (orThrow read) before result after ↔ read = .ok result ∧ after = before := by
  cases read with
  | ok value =>
      change Ends (pure value) before result after ↔ _
      rw [ends_pure_iff, Except.ok.injEq, eq_comm]
  | error fault =>
      constructor
      · intro ended
        cases ended
      · rintro ⟨read, -⟩
        cases read

theorem ends_of_ends_orThrow_bind {read : Except Fault β} {next : β → DeskM γ}
    {before after : Desk} {result : γ} (ended : Ends (orThrow read >>= next) before result after) :
    ∃ value, read = .ok value ∧ Ends (next value) before result after := by
  obtain ⟨value, between, first, rest⟩ := ends_bind_iff.mp ended
  obtain ⟨isRead, rfl⟩ := ends_orThrow_iff.mp first
  exact ⟨value, isRead, rest⟩

theorem ends_printLine_iff {line : String} {before after : Desk} {result : Unit} :
    Ends (Surroundings.printLine line) before result after ↔
      after = { before with lines := before.lines ++ [line] } := by
  change ((Except.ok (), _) : Except Fault Unit × Desk) = _ ↔ _
  grind

theorem run_get (desk : Desk) : (get : DeskM Desk).run.run desk = pure (.ok desk, desk) :=
  rfl

theorem ends_get_iff {before after desk : Desk} :
    Ends get before desk after ↔ desk = before ∧ after = before := by
  rw [Ends, run_get]
  change ((Except.ok before, before) : Except Fault Desk × Desk) = _ ↔ _
  grind

theorem ends_changeTree_iff {change : FileTree → Except Fault FileTree} {before after : Desk}
    {result : Unit} :
    Ends (changeTree change) before result after ↔
      ∃ tree, change before.tree = .ok tree ∧ after = { before with tree := tree } := by
  constructor
  · intro ended
    obtain ⟨desk, between, looked, changed⟩ := ends_bind_iff.mp ended
    obtain ⟨rfl, rfl⟩ := ends_get_iff.mp looked
    split at changed
    · rename_i tree same
      cases changed
      exact ⟨tree, same, rfl⟩
    · cases changed
  · rintro ⟨tree, same, rfl⟩
    refine ends_bind_iff.mpr ⟨before, before, ends_get_iff.mpr ⟨rfl, rfl⟩, ?_⟩
    rw [same]
    rfl

/-! ## Actions that only look -/

/-- How an action ends on a tree of files. -/
def outcomeOn (tree : FileTree) (action : DeskM β) : Except Fault β :=
  (action.run.run ⟨tree, []⟩).1

/-- An action leaves everything as it is and takes no notice of what was printed. -/
def Looks (action : DeskM β) : Prop :=
  ∀ desk, action.run.run desk = (outcomeOn desk.tree action, desk)

theorem Looks.ends_iff {action : DeskM β} (looks : Looks action) {before after : Desk} {value : β} :
    Ends action before value after ↔
      outcomeOn before.tree action = .ok value ∧ after = before := by
  rw [Ends, looks before, Prod.mk.injEq, eq_comm (a := before)]

theorem Looks.ends_of_ends_bind {first : DeskM β} {next : β → DeskM γ} (looks : Looks first)
    {before after : Desk} {result : γ} (ended : Ends (first >>= next) before result after) :
    ∃ value, outcomeOn before.tree first = .ok value ∧ Ends (next value) before result after := by
  obtain ⟨value, between, saw, rest⟩ := ends_bind_iff.mp ended
  obtain ⟨outcome, rfl⟩ := looks.ends_iff.mp saw
  exact ⟨value, outcome, rest⟩

theorem looks_pure (value : β) : Looks (pure value) :=
  fun _ => rfl

theorem looks_throw (fault : Fault) : Looks (throw fault : DeskM β) :=
  fun _ => rfl

theorem looks_orThrow (read : Except Fault β) : Looks (orThrow read) := by
  cases read with
  | ok value => exact looks_pure value
  | error fault => exact looks_throw fault

theorem Looks.bind {first : DeskM β} {next : β → DeskM γ} (looks : Looks first)
    (later : ∀ value, Looks (next value)) : Looks (first >>= next) := by
  intro desk
  unfold outcomeOn
  rw [ExceptT.run_bind, StateT.run_bind, StateT.run_bind, looks desk, looks ⟨desk.tree, []⟩]
  cases outcomeOn desk.tree first with
  | error fault => rfl
  | ok value => exact later value desk

theorem run_readText (path : Path) (desk : Desk) :
    (Surroundings.readText path : DeskM String).run.run desk =
      (desk.tree.readText path, desk) := by
  simp only [Surroundings.readText]
  rw [ExceptT.run_bind, StateT.run_bind, run_get, pure_bind]
  cases read : desk.tree.readText path with
  | ok text =>
      simp only [read]
      rfl
  | error fault =>
      simp only [read]
      rfl

theorem looks_readText (path : Path) : Looks (Surroundings.readText path) := by
  intro desk
  rw [outcomeOn, run_readText, run_readText]

end Command

end Peephole
