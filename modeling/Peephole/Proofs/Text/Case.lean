import Mathlib.Data.List.Basic
import Peephole.Text.Blank
import Peephole.Text.Case

/-!
# Upper case once and for all

The tables of upper-case forms say of no form that it has another form itself, so nothing changes
when a text in upper case is put in upper case again (`toUpper_toUpper`). No form is empty or holds
a blank, unless it is that of a blank, so a text without blanks at its ends has none when it is put
in upper case (`Trimmed.toUpper`).

Most of the forms come in runs, and a run of forms is compared with the runs of the tables by their
ends. Where characters alternate with their forms, both runs go in steps of two.
-/

namespace Peephole

namespace Text

/-! ## What the tables say -/

/-- Whether two closed ranges have no number in common. -/
def areApart (low high low' high' : Nat) : Bool :=
  Nat.blt high low' || Nat.blt high' low

theorem not_mem_of_areApart {low high low' high' point : Nat}
    (apart : areApart low high low' high' = true) (above : low ≤ point) (below : point ≤ high) :
    ¬ (low' ≤ point ∧ point ≤ high') := by
  rw [areApart, Bool.or_eq_true, Nat.blt_eq, Nat.blt_eq] at apart
  omega

/-- Whether a run of the table holds a code point. -/
def inRun (point : Nat) (run : Nat × Nat × Nat × Nat) : Bool :=
  run.1 ≤ point && point ≤ run.2.1 && (point - run.1) % run.2.2.1 == 0

/-- Whether a code point has no other form, as far as the tables go. -/
def isUnlisted (point : Nat) : Bool :=
  upperLong.toList.all (fun entry => entry.1 != point) &&
    upperRuns.toList.all fun run => !inRun point run

/-- Whether a character has no other form and is no blank. -/
def isSettled (c : Char) : Bool :=
  (if c.toNat < 0x80 then c.toUpper == c else isUnlisted c.toNat) && !isBlank c

/-- Whether the forms of a run lie apart from blanks and from everything that has another form. -/
def hasFormsApart (run : Nat × Nat × Nat × Nat) : Bool :=
  let (first, last, step, form) := run
  let top := form + (last - first)
  0x80 ≤ form && (top < 0xd800 || (0xe000 ≤ form && top < 0x110000)) &&
    blankRanges.all (fun range => areApart form top range.1 range.2) &&
    upperLong.toList.all (fun entry => areApart form top entry.1 entry.1) &&
    upperRuns.toList.all fun other =>
      areApart form top other.1 other.2.1 ||
        (Nat.beq step 2 && (Nat.beq other.2.2.1 2 && Nat.beq ((form + other.1) % 2) 1))

theorem hasFormsApart_or_single : upperRuns.toList.all (fun run =>
    hasFormsApart run || (run.1 == run.2.1 && isSettled (Char.ofNat run.2.2.2))) = true := by
  decide +kernel

theorem isSettled_long : upperLong.toList.all (fun entry =>
    !entry.2.isEmpty && entry.2.all fun point => isSettled (Char.ofNat point)) = true := by
  decide +kernel

theorem isSettled_toUpper_ascii : ∀ point < 0x80,
    (Char.ofNat point).toUpper = Char.ofNat point ∨
      isSettled (Char.ofNat point).toUpper = true := by
  decide +kernel

/-! ## Forms of characters -/

theorem upperForm_eq (c : Char) :
    upperForm c =
      if c.toNat < 0x80 then [c.toUpper]
      else
        match upperLong.toList.find? fun entry => entry.1 == c.toNat with
        | some entry => entry.2.map Char.ofNat
        | none =>
          match upperRuns.toList.find? (inRun c.toNat) with
          | some run => [Char.ofNat (run.2.2.2 + (c.toNat - run.1))]
          | none => [c] := by
  unfold upperForm
  rw [Array.find?_toList, Array.find?_toList]
  -- As long as the tables are spelled out, comparing the two sides evaluates the searches.
  generalize upperLong = long, upperRuns = runs
  cases long.find? fun entry => entry.1 == c.toNat with
  | some entry => rfl
  | none =>
      dsimp only
      split
      · rfl
      · split
        · rename_i searched
          have found : runs.find? (inRun c.toNat) = some _ := searched
          rw [found]
        · rename_i searched
          have found : runs.find? (inRun c.toNat) = none := searched
          rw [found]

theorem upperForm_of_isSettled {c : Char} (settled : isSettled c = true) : upperForm c = [c] := by
  rw [isSettled, Bool.and_eq_true] at settled
  obtain ⟨settled, -⟩ := settled
  rw [upperForm_eq]
  split at settled
  · rename_i ascii
    rw [if_pos ascii, eq_of_beq settled]
  · rename_i beyond
    obtain ⟨long, runs⟩ := Bool.and_eq_true_iff.mp settled
    have noEntry : upperLong.toList.find? (fun entry => entry.1 == c.toNat) = none := by
      rw [List.find?_eq_none]
      intro entry listed
      simpa using List.all_eq_true.mp long entry listed
    have noRun : upperRuns.toList.find? (inRun c.toNat) = none := by
      rw [List.find?_eq_none]
      intro run listed
      simpa using List.all_eq_true.mp runs run listed
    rw [if_neg beyond, noEntry, noRun]

theorem toNat_ofNat {point : Nat}
    (valid : point < 0xd800 ∨ (0xe000 ≤ point ∧ point < 0x110000)) :
    (Char.ofNat point).toNat = point := by
  have isValid : point.isValidChar := by
    rcases valid with low | high
    · exact .inl low
    · exact .inr ⟨by omega, high.2⟩
  rw [Char.ofNat, dif_pos isValid]
  rfl

theorem inRun_iff {point first last step form : Nat} :
    inRun point (first, last, step, form) = true ↔
      first ≤ point ∧ point ≤ last ∧ (point - first) % step = 0 := by
  simp only [inRun, Bool.and_eq_true, decide_eq_true_eq, beq_iff_eq, and_assoc]

/-- A code point that lies apart from everything with another form has none itself. -/
theorem isUnlisted_of_apart {point : Nat}
    (long : ∀ entry ∈ upperLong.toList, point ≠ entry.1)
    (runs : ∀ run ∈ upperRuns.toList, inRun point run = false) : isUnlisted point = true := by
  rw [isUnlisted, Bool.and_eq_true, List.all_eq_true, List.all_eq_true]
  refine ⟨fun entry listed => ?_, fun run listed => ?_⟩
  · exact bne_iff_ne.mpr (long entry listed).symm
  · rw [runs run listed, Bool.not_false]

/-- Forms that lie apart have no other form. -/
theorem isSettled_of_hasFormsApart {run : Nat × Nat × Nat × Nat}
    (apart : hasFormsApart run = true) {point : Nat} (holds : inRun point run = true) :
    isSettled (Char.ofNat (run.2.2.2 + (point - run.1))) = true := by
  obtain ⟨first, last, step, form⟩ := run
  simp only [hasFormsApart, Bool.and_eq_true, Bool.or_eq_true, decide_eq_true_eq,
    List.all_eq_true, Nat.beq_eq] at apart
  obtain ⟨⟨⟨⟨beyond, valid⟩, blanks⟩, long⟩, runs⟩ := apart
  obtain ⟨above, below, aligned⟩ := inRun_iff.mp holds
  dsimp only
  generalize isForm : form + (point - first) = image
  have low : form ≤ image := by omega
  have high : image ≤ form + (last - first) := by omega
  have same : (Char.ofNat image).toNat = image := toNat_ofNat (by omega)
  have unlisted : isUnlisted image = true := by
    refine isUnlisted_of_apart (fun entry listed => ?_) fun other listed => ?_
    · have outside := not_mem_of_areApart (long entry listed) low high
      omega
    · refine eq_false_of_ne_true fun held => ?_
      obtain ⟨above', below', aligned'⟩ := inRun_iff.mp held
      rcases runs other listed with apart | ⟨two, two', odd⟩
      · exact not_mem_of_areApart apart low high ⟨above', below'⟩
      · rw [two] at aligned
        rw [two'] at aligned'
        omega
  have visible : isBlank (Char.ofNat image) = false := by
    rw [isBlank, List.any_eq_false]
    intro range listed
    have outside := not_mem_of_areApart (blanks range listed) low high
    rw [same]
    simpa using outside
  rw [isSettled, same, if_neg (by omega), unlisted, visible]
  rfl

/-- A character in upper case is what it was before or has no other form. -/
theorem eq_or_isSettled_of_mem_upperForm {c form : Char} (member : form ∈ upperForm c) :
    (upperForm c = [c] ∧ form = c) ∨ isSettled form = true := by
  have unfolded := upperForm_eq c
  split at unfolded
  · rename_i ascii
    rw [unfolded] at member ⊢
    obtain rfl := List.mem_singleton.mp member
    have known := isSettled_toUpper_ascii c.toNat ascii
    rw [Char.ofNat_toNat] at known
    rcases known with same | settled
    · exact .inl ⟨by rw [same], same⟩
    · exact .inr settled
  · split at unfolded
    · rename_i entry found
      rw [unfolded] at member
      obtain ⟨point, listed, rfl⟩ := List.mem_map.mp member
      have checked := List.all_eq_true.mp isSettled_long entry (List.mem_of_find?_eq_some found)
      exact .inr (List.all_eq_true.mp (Bool.and_eq_true_iff.mp checked).2 point listed)
    · split at unfolded
      · rename_i run found
        rw [unfolded] at member
        obtain rfl := List.mem_singleton.mp member
        have holds := List.find?_some found
        have checked := List.all_eq_true.mp hasFormsApart_or_single run
          (List.mem_of_find?_eq_some found)
        rcases Bool.or_eq_true_iff.mp checked with apart | single
        · exact .inr (isSettled_of_hasFormsApart apart holds)
        · obtain ⟨single, settled⟩ := Bool.and_eq_true_iff.mp single
          have alone : run.1 = run.2.1 := eq_of_beq single
          simp only [inRun, Bool.and_eq_true, decide_eq_true_eq] at holds
          have start : c.toNat - run.1 = 0 := by omega
          rw [start, Nat.add_zero]
          exact .inr settled
      · rw [unfolded] at member
        exact .inl ⟨unfolded, List.mem_singleton.mp member⟩

theorem upperForm_of_mem_upperForm {c form : Char} (member : form ∈ upperForm c) :
    upperForm form = [form] := by
  rcases eq_or_isSettled_of_mem_upperForm member with ⟨same, rfl⟩ | settled
  · exact same
  · exact upperForm_of_isSettled settled

/-- Only a blank has a blank for a form. -/
theorem isBlank_eq_false_of_mem_upperForm {c form : Char} (visible : isBlank c = false)
    (member : form ∈ upperForm c) : isBlank form = false := by
  rcases eq_or_isSettled_of_mem_upperForm member with ⟨-, rfl⟩ | settled
  · exact visible
  · rw [isSettled, Bool.and_eq_true, Bool.not_eq_true'] at settled
    exact settled.2

theorem upperForm_ne_nil (c : Char) : upperForm c ≠ [] := by
  rw [upperForm_eq]
  split
  · exact List.cons_ne_nil _ _
  · split
    · rename_i entry found
      have checked := List.all_eq_true.mp isSettled_long entry (List.mem_of_find?_eq_some found)
      have some := (Bool.and_eq_true_iff.mp checked).1
      rw [Bool.not_eq_true', List.isEmpty_eq_false_iff] at some
      rwa [ne_eq, List.map_eq_nil_iff]
    · split <;> exact List.cons_ne_nil _ _

/-! ## Texts -/

theorem toUpper_toUpper (text : List Char) : toUpper (toUpper text) = toUpper text := by
  have own : ∀ c ∈ toUpper text, upperForm c = [c] := by
    intro c member
    obtain ⟨origin, -, isForm⟩ := List.mem_flatMap.mp member
    exact upperForm_of_mem_upperForm isForm
  calc toUpper (toUpper text)
    _ = (toUpper text).flatMap fun c => [c] := List.flatMap_congr own
    _ = toUpper text := List.flatMap_singleton' _

/-- A text without blanks at either end. -/
structure Trimmed (text : List Char) : Prop where
  first : ∀ c ∈ text.head?, isBlank c = false
  last : ∀ c ∈ text.getLast?, isBlank c = false

theorem head?_dropWhile {drop : Char → Bool} (text : List Char) :
    ∀ c ∈ (text.dropWhile drop).head?, drop c = false := by
  induction text with
  | nil => exact fun _ none => absurd none (Option.not_mem_none _)
  | cons first text ih =>
      rw [List.dropWhile_cons]
      split
      · exact ih
      · rename_i kept
        rintro c ⟨⟩
        exact eq_false_of_ne_true kept

theorem dropWhile_eq_self {drop : Char → Bool} {text : List Char}
    (kept : ∀ c ∈ text.head?, drop c = false) : text.dropWhile drop = text := by
  cases text with
  | nil => rfl
  | cons first text => rw [List.dropWhile_cons, kept first rfl, if_neg Bool.false_ne_true]

theorem trimBlank_prefix_dropWhile (text : List Char) :
    trimBlank text <+: text.dropWhile isBlank := by
  unfold trimBlank trimWhile
  rw [← List.reverse_suffix, List.reverse_reverse]
  exact List.dropWhile_suffix isBlank

theorem trimBlank_subset (text : List Char) : trimBlank text ⊆ text :=
  fun _ member => (List.dropWhile_suffix isBlank).subset
    ((trimBlank_prefix_dropWhile text).subset member)

theorem trimmed_trimBlank (text : List Char) : Trimmed (trimBlank text) := by
  refine ⟨fun c first => ?_, fun c last => ?_⟩
  · obtain ⟨rest, whole⟩ := trimBlank_prefix_dropWhile text
    refine head?_dropWhile text c ?_
    rw [← whole, List.head?_append, Option.mem_def.mp first]
    rfl
  · rw [trimBlank, trimWhile, List.getLast?_reverse] at last
    exact head?_dropWhile _ c last

theorem Trimmed.trimBlank_eq {text : List Char} (trimmed : Trimmed text) :
    trimBlank text = text := by
  unfold trimBlank trimWhile
  have last : ∀ c ∈ text.reverse.head?, isBlank c = false := by
    rw [List.head?_reverse]
    exact trimmed.last
  rw [dropWhile_eq_self trimmed.first, dropWhile_eq_self last, List.reverse_reverse]

theorem Trimmed.toUpper {text : List Char} (trimmed : Trimmed text) : Trimmed (toUpper text) := by
  refine ⟨fun c first => ?_, fun c last => ?_⟩
  · cases text with
    | nil => exact absurd first (Option.not_mem_none _)
    | cons origin text =>
        rw [Text.toUpper, List.flatMap_cons,
          List.head?_append_of_ne_nil _ (upperForm_ne_nil origin)] at first
        exact isBlank_eq_false_of_mem_upperForm (trimmed.first origin rfl)
          (List.mem_of_mem_head? first)
  · rcases List.eq_nil_or_concat text with rfl | ⟨text, origin, rfl⟩
    · exact absurd last (Option.not_mem_none _)
    · have visible := trimmed.last origin (by simp)
      rw [Text.toUpper, List.concat_eq_append, List.flatMap_append, List.flatMap_singleton,
        List.getLast?_append_of_ne_nil _ (upperForm_ne_nil origin)] at last
      exact isBlank_eq_false_of_mem_upperForm visible (List.mem_of_getLast? last)

/-- Trimming and putting in upper case is done once and for all. -/
theorem toUpper_trimBlank_toUpper_trimBlank (text : List Char) :
    toUpper (trimBlank (toUpper (trimBlank text))) = toUpper (trimBlank text) := by
  rw [(trimmed_trimBlank text).toUpper.trimBlank_eq, toUpper_toUpper]

end Text

end Peephole
