import Peephole.Datum.Reader
import Peephole.Files.Tree

/-!
# Files that are written

A file that has been written holds the text that was written last, and no other file is touched
(`file?_put`). Paths lead through directories and writing makes none, so they lead where they led
before (`locate_of_directories`). Different names in one directory lead to different places
(`exists_above_of_follow`).
-/

namespace Peephole

namespace FileTree

/-! ## Files -/

/-- The tree with a file put at a place. -/
def put (tree : FileTree) (place : Place) (text : String) : FileTree :=
  { tree with files := setFile tree.files place text }

theorem lookup_setFile (files : List (Place × String)) (place other : Place) (text : String) :
    (setFile files place text).lookup other =
      if other = place then some text else files.lookup other := by
  induction files with
  | nil => grind [setFile]
  | cons entry files ih =>
      obtain ⟨present, old⟩ := entry
      by_cases replaced : present = place
      · subst replaced
        grind [setFile]
      · grind [setFile]

theorem file?_put (tree : FileTree) (place other : Place) (text : String) :
    (tree.put place text).file? other = if other = place then some text else tree.file? other := by
  rw [file?, file?, put, List.lookup_append, List.lookup_append, lookup_setFile]
  split <;> rfl

theorem writeText_eq_ok_iff {tree written : FileTree} {path : Path} {text : String} :
    tree.writeText path text = .ok written ↔
      ∃ place, tree.locate path = .ok place ∧ tree.isDirectory place = false ∧
        Text.checkStorable text = .ok () ∧ written = tree.put place text := by
  constructor
  · intro wrote
    obtain ⟨place, leads, wrote⟩ := bind_eq_ok wrote
    split at wrote
    · cases wrote
    · rename_i isFile
      obtain ⟨⟨⟩, storable, wrote⟩ := bind_eq_ok wrote
      exact ⟨place, leads, eq_false_of_ne_true isFile, storable,
        (Except.ok.inj wrote).symm⟩
  · rintro ⟨place, leads, isFile, storable, rfl⟩
    simp only [writeText, leads, isFile, storable, bind, Except.bind]
    rfl

theorem readText_congr {tree : FileTree} {path other : Path}
    (same : tree.locate path = tree.locate other) : tree.readText path = tree.readText other := by
  rw [readText, readText, same]

theorem readText_eq_of_file? {tree : FileTree} {path : Path} {place : Place} {text : String}
    (leads : tree.locate path = .ok place) (found : tree.file? place = some text) :
    tree.readText path = .ok text := by
  simp only [readText, leads, found, bind, Except.bind]
  rfl

/-! ## Places -/

theorem follow_name {tree : FileTree} {place found : Place} {name : String} {rest : List String}
    (notPoint : name ≠ ".") (notUp : name ≠ "..") :
    tree.follow place (name :: rest) = .ok found ↔
      Text.storedSize name < nameLimit ∧
        (rest = [] ∨ tree.isDirectory (place ++ [name]) = true) ∧
          tree.follow (place ++ [name]) rest = .ok found := by
  have opened : tree.follow place (name :: rest) =
      if nameLimit ≤ Text.storedSize name then .error .nameTooLong
      else if rest.isEmpty || tree.isDirectory (place ++ [name]) then
        tree.follow (place ++ [name]) rest
      else .error (if (tree.file? (place ++ [name])).isSome then .notADirectory
        else .noSuchFile) := by
    rw [follow.eq_def]
    split
    · contradiction
    · rename_i same
      exact absurd (List.cons.inj same).1 notPoint
    · rename_i same
      exact absurd (List.cons.inj same).1 notUp
    · rename_i same
      obtain ⟨rfl, rfl⟩ := List.cons.inj same
      rfl
  rw [opened]
  split
  · grind
  · split <;> grind

/-- Paths lead through directories only, whatever the files. -/
theorem follow_of_directories {tree changed : FileTree}
    (same : changed.directories = tree.directories) {place found : Place} {names : List String}
    (leads : tree.follow place names = .ok found) : changed.follow place names = .ok found := by
  induction names generalizing place with
  | nil => exact leads
  | cons name names ih =>
      by_cases point : name = "."
      · subst point
        exact ih leads
      by_cases up : name = ".."
      · subst up
        exact ih leads
      obtain ⟨short, inside, leads⟩ := (follow_name point up).mp leads
      rw [isDirectory, ← same] at inside
      exact (follow_name point up).mpr ⟨short, inside, ih leads⟩

theorem locate_of_directories {tree changed : FileTree}
    (same : changed.directories = tree.directories) {path : Path} {found : Place}
    (leads : tree.locate path = .ok found) : changed.locate path = .ok found := by
  obtain ⟨⟨⟩, possible, leads⟩ := bind_eq_ok leads
  change (checkPath path >>= fun _ => _) = _
  rw [possible]
  exact follow_of_directories same leads

/-- The ways of all names in a directory go through one place. -/
theorem exists_above_of_follow {tree : FileTree} {place found : Place} {names : List String}
    {last : String} (leads : tree.follow place (names ++ [last]) = .ok found)
    (notPoint : last ≠ ".") (notUp : last ≠ "..") :
    ∃ above, found = above ++ [last] ∧ ∀ other elsewhere, other ≠ "." → other ≠ ".." →
      tree.follow place (names ++ [other]) = .ok elsewhere → elsewhere = above ++ [other] := by
  induction names generalizing place with
  | nil =>
      have alone (name : String) (reached : Place) (point : name ≠ ".") (up : name ≠ "..")
          (way : tree.follow place [name] = .ok reached) : reached = place ++ [name] :=
        (Except.ok.inj ((follow_name point up).mp way).2.2).symm
      exact ⟨place, alone last found notPoint notUp leads, alone⟩
  | cons name names ih =>
      by_cases point : name = "."
      · subst point
        exact ih leads
      by_cases up : name = ".."
      · subst up
        exact ih leads
      rw [List.cons_append, follow_name point up] at leads
      obtain ⟨above, same, others⟩ := ih leads.2.2
      refine ⟨above, same, fun other elsewhere otherPoint otherUp way => ?_⟩
      rw [List.cons_append, follow_name point up] at way
      exact others other elsewhere otherPoint otherUp way.2.2

end FileTree

end Peephole
