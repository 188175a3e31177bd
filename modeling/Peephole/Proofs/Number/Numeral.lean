import Peephole.Number.Decimal

/-!
# Characters of numerals

A number is written with digits, a point, signs and the mark of an exponent, and with nothing else
(`numeral_intText`), if it is one and not infinite (`numeral_shortest_or`).
-/

namespace Peephole

/-- The characters of numerals. Digits may be those of any base. -/
def isNumeral (c : Char) : Bool :=
  "0123456789abcdef*.+-".toList.contains c

namespace Decimal

theorem isNumeral_digitChar (digit : Nat) : isNumeral digit.digitChar = true := by
  have small : ∀ digit < 16, isNumeral (Nat.digitChar digit) = true := by decide
  rcases Nat.lt_or_ge digit 16 with below | above
  · exact small digit below
  · unfold Nat.digitChar
    iterate 16 rw [if_neg (by omega)]
    rfl

theorem isNumeral_of_isDigit {c : Char} (digit : c.isDigit = true) : isNumeral c = true := by
  have digits : ∀ point < 0x80, (Char.ofNat point).isDigit = true →
      isNumeral (Char.ofNat point) = true := by
    decide +kernel
  have ascii : c.toNat < 0x80 := by
    simp only [Char.isDigit, Bool.and_eq_true, decide_eq_true_eq, UInt32.le_iff_toNat_le] at digit
    have below := digit.2
    exact Nat.lt_of_le_of_lt below (by decide)
  have checked := digits c.toNat ascii
  rw [Char.ofNat_toNat] at checked
  exact checked digit

/-- A text of nothing but characters of numerals. -/
def Numeral (text : String) : Prop :=
  ∀ c ∈ text.toList, isNumeral c = true

theorem Numeral.append {left right : String} (first : Numeral left) (second : Numeral right) :
    Numeral (left ++ right) := by
  intro c member
  rw [String.toList_append, List.mem_append] at member
  exact member.elim (first c) (second c)

theorem numeral_of_all {text : String} (all : text.toList.all isNumeral = true) : Numeral text :=
  List.all_eq_true.mp all

theorem numeral_empty : Numeral "" :=
  numeral_of_all rfl

theorem numeral_minus : Numeral "-" :=
  numeral_of_all rfl

theorem numeral_natText (number : Nat) : Numeral (toString number) := by
  intro c member
  have digits : (toString number).toList = Nat.toDigits 10 number := by
    change (Nat.repr number).toList = _
    rw [Nat.repr, String.toList_ofList]
  rw [digits] at member
  exact isNumeral_of_isDigit (Nat.isDigit_of_mem_toDigits (by decide) (by decide) member)

theorem numeral_intText (number : Int) : Numeral (toString number) := by
  cases number with
  | ofNat number => exact numeral_natText number
  | negSucc number =>
      exact numeral_minus.append (numeral_natText (number + 1))

theorem numeral_digitText (digits : List Nat) : Numeral (digitText digits) := by
  intro c member
  rw [digitText, String.toList_ofList] at member
  obtain ⟨digit, -, rfl⟩ := List.mem_map.mp member
  exact isNumeral_digitChar digit

theorem numeral_exponentText (order : Int) : Numeral (exponentText order) := by
  have sign : Numeral (if order < 0 then "e-" else "e+") := by
    split <;> exact numeral_of_all rfl
  have padding : Numeral (if (toString order.natAbs).length < 2 then "0" else "") := by
    split <;> exact numeral_of_all rfl
  exact (sign.append padding).append (numeral_natText order.natAbs)

theorem Form.numeral_layOut (form : Form) (number : Digits) : Numeral (form.layOut number) := by
  obtain ⟨digits, order⟩ := number
  have point : Numeral "." := numeral_of_all rfl
  unfold layOut
  dsimp only
  split
  · split
    · exact (numeral_of_all rfl).append (numeral_digitText _)
    · split
      · refine (numeral_digitText _).append ?_
        split <;> exact numeral_of_all rfl
      · exact ((numeral_digitText _).append point).append (numeral_digitText _)
  · split
    · exact (((numeral_digitText _).append point).append (numeral_digitText _)).append
        (numeral_exponentText order)
    · exact (numeral_digitText _).append (numeral_exponentText order)

/-- The text of a finite double. -/
theorem numeral_shortest_or (x : Float) :
    Numeral (shortest x) ∨ shortest x = "nan" ∨ shortest x = "inf" ∨ shortest x = "-inf" := by
  unfold shortest Form.write
  split
  · exact .inr (.inl rfl)
  · rename_i negative _
    cases negative
    · exact .inr (.inr (.inl rfl))
    · exact .inr (.inr (.inr rfl))
  · refine .inl (Numeral.append ?_ (Form.numeral_layOut _ _))
    split
    · exact numeral_minus
    · exact numeral_empty

end Decimal

end Peephole
