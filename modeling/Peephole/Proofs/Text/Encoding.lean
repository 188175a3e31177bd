import Peephole.Text.Encoding

/-!
# Names as they come back

A name may be spelled with halves that stand for bytes, and then it comes back with the characters
that the bytes make. Nothing happens to a name of whole characters (`joined_eq_self`), and what
stands behind the halves stays where it is, at the end of the name (`exists_joined_append`).
-/

namespace Peephole

namespace Text

/-! ## Code points of characters -/

theorem isHalf_toNat (c : Char) : isHalf c.toNat = false := by
  have valid : c.toNat.isValidChar := c.valid
  rw [Nat.isValidChar] at valid
  rw [isHalf, Bool.and_eq_false_iff, decide_eq_false_iff_not, decide_eq_false_iff_not]
  omega

theorem isByteHalf_toNat (c : Char) : isByteHalf c.toNat = false := by
  have valid : c.toNat.isValidChar := c.valid
  rw [Nat.isValidChar] at valid
  rw [isByteHalf, Bool.and_eq_false_iff, decide_eq_false_iff_not, decide_eq_false_iff_not]
  omega

theorem points_cons_of_ne {c : Char} (unmarked : c ≠ halfMark) (rest : List Char) :
    points (c :: rest) = c.toNat :: points rest := by
  cases rest <;> simp [points, unmarked]

theorem points_of_unmarked {characters : List Char} (unmarked : halfMark ∉ characters) :
    points characters = characters.map Char.toNat := by
  induction characters with
  | nil => rfl
  | cons c rest ih =>
      rw [List.mem_cons, not_or] at unmarked
      rw [points_cons_of_ne (Ne.symm unmarked.1), ih unmarked.2, List.map_cons]

theorem spellPoint_toNat {c : Char} (unmarked : c ≠ halfMark) : spellPoint c.toNat = [c] := by
  have different : c.toNat ≠ halfMark.toNat := fun same => unmarked (Char.toNat_inj.mp same)
  rw [spellPoint, isHalf_toNat, if_neg Bool.false_ne_true, if_neg different, Char.ofNat_toNat]

theorem spell_map_toNat {characters : List Char} (unmarked : halfMark ∉ characters) :
    spell (characters.map Char.toNat) = characters := by
  induction characters with
  | nil => rfl
  | cons c rest ih =>
      rw [List.mem_cons, not_or] at unmarked
      rw [List.map_cons, spell, List.flatMap_cons, spellPoint_toNat (Ne.symm unmarked.1)]
      exact congrArg (c :: ·) (ih unmarked.2)

/-- A name of whole characters comes back as it is. -/
theorem joined_eq_self {text : String} (unmarked : halfMark ∉ text.toList) :
    joined text = text := by
  have whole : ∀ point ∈ text.toList.map Char.toNat, isByteHalf point = false := by
    intro point member
    obtain ⟨c, -, rfl⟩ := List.mem_map.mp member
    exact isByteHalf_toNat c
  rw [joined, points_of_unmarked unmarked, joinBytes_eq_self whole, spell_map_toNat unmarked,
    String.ofList_toList]

/-! ## The end of a name -/

/-- Behind a whole character, which a lone mark before it may swallow, the points are those of the
rest. -/
theorem exists_points_append (characters : List Char) {c : Char} (unmarked : c ≠ halfMark)
    (rest : List Char) :
    ∃ front, points (characters ++ c :: rest) = front ++ points rest := by
  fun_induction points characters with
  | case1 => exact ⟨[c.toNat], points_cons_of_ne unmarked rest⟩
  | case2 d =>
      by_cases mark : d = halfMark
      · refine ⟨[c.toNat - halfOffset], ?_⟩
        rw [List.singleton_append, points, if_pos mark, if_neg unmarked, List.singleton_append]
      · refine ⟨[d.toNat, c.toNat], ?_⟩
        rw [List.singleton_append, points_cons_of_ne mark, points_cons_of_ne unmarked]
        rfl
  | case3 d later ih =>
      obtain ⟨front, same⟩ := ih
      refine ⟨(if d = halfMark then halfMark.toNat else d.toNat - halfOffset) :: front, ?_⟩
      rw [List.cons_append, List.cons_append, points, if_pos rfl, same, List.cons_append]
  | case4 d e later plain ih =>
      obtain ⟨front, same⟩ := ih
      refine ⟨d.toNat :: front, ?_⟩
      rw [List.cons_append, points_cons_of_ne plain, same, List.cons_append]

theorem length_leadingBytes_le {earlier later : List Nat}
    (whole : ∀ point ∈ later, isByteHalf point = false) :
    (leadingBytes (earlier ++ later)).length ≤ earlier.length := by
  have stops (count : Nat) :
      (((earlier ++ later).take count).takeWhile isByteHalf).length ≤ earlier.length := by
    induction earlier generalizing count with
    | nil =>
        cases count with
        | zero => exact Nat.le_refl _
        | succ count =>
            cases later with
            | nil => exact Nat.le_refl _
            | cons point rest =>
                rw [List.nil_append, List.take_succ_cons, List.takeWhile_cons,
                  whole point (.head _)]
                exact Nat.le_refl _
    | cons point earlier ih =>
        cases count with
        | zero => exact Nat.zero_le _
        | succ count =>
            rw [List.cons_append, List.take_succ_cons, List.takeWhile_cons]
            split
            · exact Nat.succ_le_succ (ih count)
            · exact Nat.zero_le _
  rw [leadingBytes, List.length_map]
  exact stops 4

/-- No more bytes follow than there are. -/
theorem lt_length_of_leadingPoint? {bytes : List Nat} {point more : Nat}
    (leads : leadingPoint? bytes = some (point, more)) : more < bytes.length := by
  unfold leadingPoint? at leads
  grind

/-- What follows the halves is left alone. -/
theorem exists_joinBytes_append {covered : Nat} {earlier later : List Nat}
    (within : covered ≤ earlier.length) (whole : ∀ point ∈ later, isByteHalf point = false) :
    ∃ front, joinBytes covered (earlier ++ later) = front ++ later := by
  induction earlier generalizing covered with
  | nil =>
      obtain rfl := Nat.le_zero.mp within
      exact ⟨[], joinBytes_eq_self whole⟩
  | cons point earlier ih =>
      cases covered with
      | succ more => exact ih (Nat.le_of_succ_le_succ within)
      | zero =>
          rw [List.cons_append, joinBytes]
          split
          · rename_i character more leads
            have few := lt_length_of_leadingPoint? leads
            have most : (leadingBytes (point :: earlier ++ later)).length ≤ earlier.length + 1 :=
              length_leadingBytes_le whole
            have covers : more ≤ earlier.length := Nat.le_of_lt_succ (Nat.lt_of_lt_of_le few most)
            obtain ⟨front, same⟩ := ih covers
            exact ⟨character :: front, by rw [same, List.cons_append]⟩
          · obtain ⟨front, same⟩ := ih (Nat.zero_le _)
            exact ⟨point :: front, by rw [same, List.cons_append]⟩

/-- Whatever a name begins with, it comes back with the end that it has, but perhaps for one
character. -/
theorem exists_joined_append (text : String) {c : Char} {rest : List Char}
    (unmarked : halfMark ∉ c :: rest) :
    ∃ front, (joined (text ++ String.ofList (c :: rest))).toList = front ++ rest := by
  rw [List.mem_cons, not_or] at unmarked
  obtain ⟨earlier, split⟩ := exists_points_append text.toList (Ne.symm unmarked.1) rest
  have whole : ∀ point ∈ rest.map Char.toNat, isByteHalf point = false := by
    intro point member
    obtain ⟨c, -, rfl⟩ := List.mem_map.mp member
    exact isByteHalf_toNat c
  obtain ⟨front, same⟩ := exists_joinBytes_append (Nat.zero_le earlier.length) whole
  refine ⟨spell front, ?_⟩
  rw [joined, String.toList_ofList, String.toList_append, String.toList_ofList, split,
    points_of_unmarked unmarked.2, same, spell, List.flatMap_append]
  exact congrArg (spell front ++ ·) (spell_map_toNat unmarked.2)

end Text

end Peephole
