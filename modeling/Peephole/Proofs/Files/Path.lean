import Peephole.Files.Path

/-!
# Names on paths

A path from a text has names without slashes, and so has what is made of their stems. A text without
a slash is one name, unless it says nothing (`names_ofText`).
-/

namespace Peephole

namespace Path

/-- No name has a slash in it. -/
def Plain (path : Path) : Prop :=
  ∀ name ∈ path.names, '/' ∉ name.toList

theorem not_mem_of_mem_splitOn {separator : Char} {characters part : List Char}
    (member : part ∈ characters.splitOn separator) : separator ∉ part := by
  induction characters generalizing part with
  | nil =>
      rw [List.splitOn_nil, List.mem_singleton] at member
      rw [member]
      exact List.not_mem_nil
  | cons c characters ih =>
      rw [List.splitOn_cons_eq_if_modifyHead] at member
      split at member
      · rcases List.mem_cons.mp member with rfl | later
        · exact List.not_mem_nil
        · exact ih later
      · rename_i differ
        cases parts : characters.splitOn separator with
        | nil => exact absurd parts (List.splitOn_ne_nil separator characters)
        | cons first rest =>
            rw [parts, List.modifyHead_cons] at member
            rcases List.mem_cons.mp member with rfl | later
            · rw [List.mem_cons, not_or]
              refine ⟨fun same => differ (beq_iff_eq.mpr same.symm), ih ?_⟩
              rw [parts]
              exact .head _
            · refine ih ?_
              rw [parts]
              exact .tail _ later

theorem plain_ofText (text : String) : (ofText text).Plain := by
  intro name member
  obtain ⟨part, isPart, rfl⟩ := List.mem_map.mp (List.mem_filter.mp member).1
  rw [String.toList_ofList]
  exact not_mem_of_mem_splitOn isPart

/-- A text without a slash is one name. -/
theorem names_ofText {text : String} (plain : '/' ∉ text.toList) (isName : text ≠ "")
    (leads : text ≠ ".") : (ofText text).names = [text] := by
  have whole : (text.toList.splitOn '/').map String.ofList = [text] := by
    rw [List.splitOn_eq_singleton plain, List.map_singleton, String.ofList_toList]
  rw [ofText, whole]
  refine List.filter_eq_self.mpr fun name member => ?_
  obtain rfl := List.mem_singleton.mp member
  exact Bool.and_eq_true_iff.mpr ⟨bne_iff_ne.mpr isName, bne_iff_ne.mpr leads⟩

/-- A stem is made of what the name is made of. -/
theorem mem_of_mem_stemOf {name : String} {c : Char} (member : c ∈ (stemOf name).toList) :
    c ∈ name.toList := by
  unfold stemOf at member
  dsimp only at member
  split at member
  · rename_i first rest found
    split at member
    · exact member
    · rw [String.toList_ofList, List.mem_reverse] at member
      have suffix : first :: rest <:+ name.toList.reverse := found ▸ List.dropWhile_suffix _
      exact List.mem_reverse.mp (suffix.subset (.tail _ member))
  · exact member

theorem Plain.stem {path : Path} (plain : path.Plain) : '/' ∉ path.stem.toList := by
  intro member
  have inName : '/' ∈ path.name.toList := mem_of_mem_stemOf member
  cases named : path.names.getLast? with
  | none =>
      rw [name, List.getLastD_eq_getLast?, named] at inName
      cases inName
  | some last =>
      rw [name, List.getLastD_eq_getLast?, named] at inName
      exact plain last (List.mem_of_getLast? named) inName

end Path

end Peephole
