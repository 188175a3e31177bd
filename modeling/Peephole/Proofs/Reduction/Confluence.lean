import Peephole.Proofs.Reduction.Cancellation

/-!
# What cancellation leaves does not depend on its order

The scan is greedy and never looks back, so which pairs it takes depends on how a list is written.
What finally remains does not, up to interleaving and up to the choice between gates that cancel the
same gates (`Akin`). The reason is an action of gate lists on settled lists: a gate is written in
front of a settled list and goes together with its neighbour when the two cancel (`absorb`,
`absorbAll`). A gate and its inverse act as nothing (`absorb_absorb_of_cancels`), and gates without
a common qubit act in either order (`absorb_comm`). So a pass, whatever pairs it takes, keeps the
action of its list (`absorbAll_cancelInverses`), and a list followed by its mirror image acts as
nothing (`absorbAll_mirror`).
-/

namespace Peephole

namespace Reduction

variable {α : Type} {cancels : Gate α → Gate α → Bool}

/-- Inverses are mutual, and gates that cancel a common one cancel the same gates. -/
structure Pairing (cancels : Gate α → Gate α → Bool) : Prop where
  onSameQubits : OnSameQubits cancels
  symm : ∀ {first second : Gate α}, cancels first second = true → cancels second first = true
  shared : ∀ {first first' second other : Gate α}, cancels first second = true →
    cancels first' second = true → cancels first other = true → cancels first' other = true

theorem Pairing.comm (pairing : Pairing cancels) (left right : Gate α) :
    cancels left right = cancels right left := by
  rw [Bool.eq_iff_iff]
  exact ⟨pairing.symm, pairing.symm⟩

/-! ## Lists that differ in gates of one effect -/

/-- Gates on the same qubits that cancel the same gates. -/
structure Twins (cancels : Gate α → Gate α → Bool) (left right : Gate α) : Prop where
  sameQubits : left.SameQubits right
  cancels_eq : ∀ other, cancels left other = cancels right other

/-- Two gates that cancel a common one are twins. -/
theorem Pairing.twins (pairing : Pairing cancels) {left right common : Gate α}
    (first : cancels left common = true) (second : cancels right common = true) :
    Twins cancels left right := by
  refine ⟨fun qubit => ?_, fun other => ?_⟩
  · rw [pairing.onSameQubits first qubit, pairing.onSameQubits second qubit]
  · rw [Bool.eq_iff_iff]
    exact ⟨pairing.shared first second, pairing.shared second first⟩

/-- One exchange of neighbours without a common qubit, or one gate replaced by a twin. -/
inductive Varied (cancels : Gate α → Gate α → Bool) : List (Gate α) → List (Gate α) → Prop
  | exchange {gates gates' : List (Gate α)} (exchanged : Exchanged gates gates') :
    Varied cancels gates gates'
  | twin {left right : Gate α} (after : List (Gate α)) (twins : Twins cancels left right) :
    Varied cancels (left :: after) (right :: after)
  | later (gate : Gate α) {gates gates' : List (Gate α)} (varied : Varied cancels gates gates') :
    Varied cancels (gate :: gates) (gate :: gates')

theorem Varied.length_eq {gates gates' : List (Gate α)} (varied : Varied cancels gates gates') :
    gates.length = gates'.length := by
  induction varied with
  | exchange exchanged => exact exchanged.perm.length_eq
  | twin after _ => rfl
  | later gate _ ih => rw [List.length_cons, List.length_cons, ih]

/-- Interleavings in which gates may be replaced by twins. -/
def Akin (cancels : Gate α → Gate α → Bool) : List (Gate α) → List (Gate α) → Prop :=
  Relation.ReflTransGen (Varied cancels)

namespace Akin

theorem refl (gates : List (Gate α)) : Akin cancels gates gates :=
  Relation.ReflTransGen.refl

theorem single {gates gates' : List (Gate α)} (varied : Varied cancels gates gates') :
    Akin cancels gates gates' :=
  Relation.ReflTransGen.single varied

theorem trans {gates gates' gates'' : List (Gate α)} (first : Akin cancels gates gates')
    (second : Akin cancels gates' gates'') : Akin cancels gates gates'' :=
  Relation.ReflTransGen.trans first second

theorem of_interleaved {gates gates' : List (Gate α)} (interleaved : Interleaved gates gates') :
    Akin cancels gates gates' := by
  induction interleaved with
  | refl => exact refl _
  | tail _ exchanged ih => exact ih.trans (single (.exchange exchanged))

theorem length_eq {gates gates' : List (Gate α)} (akin : Akin cancels gates gates') :
    gates.length = gates'.length := by
  induction akin with
  | refl => rfl
  | tail _ varied ih => exact ih.trans varied.length_eq

theorem cons (gate : Gate α) {gates gates' : List (Gate α)} (akin : Akin cancels gates gates') :
    Akin cancels (gate :: gates) (gate :: gates') := by
  induction akin with
  | refl => exact refl _
  | tail _ varied ih => exact ih.trans (single (varied.later gate))

end Akin

/-- Akin lists offer a gate the same partner, or none. -/
theorem removePartner?_varied (pairing : Pairing cancels) (gate : Gate α)
    {gates gates' : List (Gate α)} (varied : Varied cancels gates gates') :
    Option.Rel (Akin cancels) (removePartner? cancels gate gates)
      (removePartner? cancels gate gates') := by
  induction varied with
  | exchange exchanged =>
      rcases optionRel_cases (removePartner?_exchanged pairing.onSameQubits gate exchanged) with
        ⟨stay, stay'⟩ | ⟨rest, rest', found, found', interleaved⟩
      · rw [stay, stay']
        exact .none
      · rw [found, found']
        exact .some (.of_interleaved interleaved)
  | @twin left right after twins =>
      have effects : cancels gate left = cancels gate right := by
        rw [pairing.comm gate left, pairing.comm gate right, twins.cancels_eq]
      refine removePartner?_cons_related (twins.sameQubits.overlaps_right_eq gate) effects
        (.refl after) ?_ ?_
      · intro rest rest' akin
        exact (akin.cons left).trans (.single (.twin rest' twins))
      · cases removePartner? cancels gate after with
        | none => exact .none
        | some rest => exact .some (.refl rest)
  | later candidate varied ih =>
      exact removePartner?_cons_related rfl rfl (.single varied) (fun rest => rest.cons candidate)
        ih

/-! ## Writing gates in front of a list -/

/-- The list with a gate in front, or without the neighbour of the gate if the two cancel. -/
def absorb (cancels : Gate α → Gate α → Bool) (gate : Gate α) (gates : List (Gate α)) :
    List (Gate α) :=
  (removePartner? cancels gate gates).getD (gate :: gates)

/-- Gates are written in front of a list, the last one first. -/
def absorbAll (cancels : Gate α → Gate α → Bool) (gates onto : List (Gate α)) : List (Gate α) :=
  gates.foldr (absorb cancels) onto

theorem absorb_of_some {gate : Gate α} {gates rest : List (Gate α)}
    (found : removePartner? cancels gate gates = some rest) : absorb cancels gate gates = rest := by
  rw [absorb, found, Option.getD_some]

theorem absorb_of_none {gate : Gate α} {gates : List (Gate α)}
    (missing : removePartner? cancels gate gates = none) :
    absorb cancels gate gates = gate :: gates := by
  rw [absorb, missing, Option.getD_none]

theorem absorb_akin (pairing : Pairing cancels) (gate : Gate α) {gates gates' : List (Gate α)}
    (akin : Akin cancels gates gates') :
    Akin cancels (absorb cancels gate gates) (absorb cancels gate gates') := by
  induction akin with
  | refl => exact .refl _
  | tail _ varied ih =>
      refine ih.trans ?_
      rcases optionRel_cases (removePartner?_varied pairing gate varied) with
        ⟨stay, stay'⟩ | ⟨rest, rest', found, found', related⟩
      · rw [absorb_of_none stay, absorb_of_none stay']
        exact .single (varied.later gate)
      · rw [absorb_of_some found, absorb_of_some found']
        exact related

/-- Gates without a common qubit are written in front of a list in either order. -/
theorem absorb_comm (pairing : Pairing cancels) {left right : Gate α}
    (apart : left.overlaps right = false) (gates : List (Gate α)) :
    Akin cancels (absorb cancels left (absorb cancels right gates))
      (absorb cancels right (absorb cancels left gates)) := by
  have apart' : right.overlaps left = false := by rw [Gate.overlaps_comm, apart]
  have partnerLeft : removePartner? cancels left (right :: gates) =
      (removePartner? cancels left gates).map (right :: ·) :=
    removePartner?_cons_of_apart gates apart
  have partnerRight : removePartner? cancels right (left :: gates) =
      (removePartner? cancels right gates).map (left :: ·) :=
    removePartner?_cons_of_apart gates apart'
  rcases removePartner?_cases_of_apart pairing.onSameQubits apart gates with
    ⟨stayLeft, stayRight⟩ | ⟨gatesLeft, goneLeft, stayRight, later⟩ |
    ⟨gatesRight, stayLeft, goneRight, later⟩ |
    ⟨gatesLeft, gatesRight, rest, goneLeft, goneRight, laterLeft, laterRight⟩
  · rw [stayLeft] at partnerLeft
    rw [stayRight] at partnerRight
    rw [absorb_of_none stayLeft, absorb_of_none stayRight, absorb_of_none partnerLeft,
      absorb_of_none partnerRight]
    exact .single (.exchange (.here gates apart))
  · rw [goneLeft] at partnerLeft
    rw [absorb_of_some goneLeft, absorb_of_none stayRight, absorb_of_some partnerLeft,
      absorb_of_none later]
    exact .refl _
  · rw [goneRight] at partnerRight
    rw [absorb_of_none stayLeft, absorb_of_some goneRight, absorb_of_some partnerRight,
      absorb_of_none later]
    exact .refl _
  · rw [absorb_of_some goneLeft, absorb_of_some goneRight, absorb_of_some laterLeft,
      absorb_of_some laterRight]
    exact .refl _

/-! ## Settled lists -/

theorem settled_of_removePartner? (pairing : Pairing cancels) {gate : Gate α}
    {gates rest : List (Gate α)} (settled : Settled cancels gates)
    (found : removePartner? cancels gate gates = some rest) : Settled cancels rest := by
  induction found using removePartner?_induction with
  | here partner after meet cancel => exact (settled_cons_iff.mp settled).2
  | later candidate gates rest apart found ih =>
      obtain ⟨alone, settledAfter⟩ := settled_cons_iff.mp settled
      refine settled_cons_iff.mpr ⟨?_, ih settledAfter⟩
      -- The candidate shares no qubit with the gate, so none with what the gate takes out.
      rcases optionRel_cases (removePartner?_of_apart pairing.onSameQubits apart found) with
        ⟨-, stay⟩ | ⟨_, _, absurd, -⟩
      · exact stay
      · rw [alone] at absurd
        cases absurd

theorem settled_absorb (pairing : Pairing cancels) (gate : Gate α) {gates : List (Gate α)}
    (settled : Settled cancels gates) : Settled cancels (absorb cancels gate gates) := by
  cases found : removePartner? cancels gate gates with
  | none =>
      rw [absorb_of_none found]
      exact settled_cons_iff.mpr ⟨found, settled⟩
  | some rest =>
      rw [absorb_of_some found]
      exact settled_of_removePartner? pairing settled found

theorem settled_absorbAll (pairing : Pairing cancels) (gates : List (Gate α))
    {onto : List (Gate α)} (settled : Settled cancels onto) :
    Settled cancels (absorbAll cancels gates onto) := by
  induction gates with
  | nil => exact settled
  | cons gate gates ih => exact settled_absorb pairing gate ih

/-- A settled list is written down as it is. -/
theorem absorbAll_of_settled {gates : List (Gate α)} (settled : Settled cancels gates) :
    absorbAll cancels gates [] = gates := by
  induction gates with
  | nil => rfl
  | cons gate gates ih =>
      obtain ⟨alone, settledAfter⟩ := settled_cons_iff.mp settled
      have unfolded : absorbAll cancels (gate :: gates) [] =
          absorb cancels gate (absorbAll cancels gates []) := rfl
      rw [unfolded, ih settledAfter, absorb_of_none alone]

/-- Where the second gate finds a partner in a settled list, the first one takes the place of that
partner; it is a twin of it, as both cancel the second gate. -/
theorem cons_akin_of_removePartner? (pairing : Pairing cancels) {first second : Gate α}
    (cancel : cancels first second = true) {gates rest : List (Gate α)}
    (settled : Settled cancels gates) (found : removePartner? cancels second gates = some rest) :
    removePartner? cancels first rest = none ∧ Akin cancels (first :: rest) gates := by
  have same := pairing.onSameQubits cancel
  induction found using removePartner?_induction with
  | here partner after meet cancelPartner =>
      have twins := pairing.twins cancel (pairing.symm cancelPartner)
      refine ⟨?_, .single (.twin after twins)⟩
      have alone := (settled_cons_iff.mp settled).1
      rw [removePartner?_eq_none_iff] at alone ⊢
      intro neighbour next
      rw [twins.cancels_eq]
      refine alone neighbour (Eq.trans ?_ next)
      congr 1
      funext other
      exact (twins.sameQubits.overlaps_eq other).symm
  | later candidate gates rest apart found ih =>
      obtain ⟨missing, akin⟩ := ih (settled_cons_iff.mp settled).2
      have clear : first.overlaps candidate = false := by rw [same.overlaps_eq, apart]
      refine ⟨?_, (Akin.single (.exchange (.here rest clear))).trans (akin.cons candidate)⟩
      rw [removePartner?_cons_of_apart rest clear, missing]
      rfl

/-- A gate and its inverse act as nothing. -/
theorem absorb_absorb_of_cancels (pairing : Pairing cancels) {first second : Gate α}
    (cancel : cancels first second = true) {gates : List (Gate α)}
    (settled : Settled cancels gates) :
    Akin cancels (absorb cancels first (absorb cancels second gates)) gates := by
  cases found : removePartner? cancels second gates with
  | none =>
      have meet := (pairing.onSameQubits cancel).overlaps
      rw [absorb_of_none found,
        absorb_of_some (removePartner?_cons_of_cancels gates meet cancel)]
      exact .refl gates
  | some rest =>
      obtain ⟨missing, akin⟩ := cons_akin_of_removePartner? pairing cancel settled found
      rw [absorb_of_some found, absorb_of_none missing]
      exact akin

/-! ## The action of a list -/

/-- A gate and the partner that the scan finds for it act as nothing, whatever stands between
them. -/
theorem absorbAll_pair (pairing : Pairing cancels) {gate : Gate α} {gates rest : List (Gate α)}
    (found : removePartner? cancels gate gates = some rest) {onto : List (Gate α)}
    (settled : Settled cancels onto) :
    Akin cancels (absorbAll cancels (gate :: gates) onto) (absorbAll cancels rest onto) := by
  induction found using removePartner?_induction with
  | here partner after _ cancel =>
      exact absorb_absorb_of_cancels pairing cancel (settled_absorbAll pairing after settled)
  | later candidate gates rest apart found ih =>
      have commuted := absorb_comm pairing apart (absorbAll cancels gates onto)
      exact commuted.trans (absorb_akin pairing candidate ih)

/-- A pass keeps the action of its list. -/
theorem absorbAll_cancelInverses (pairing : Pairing cancels) (gates : List (Gate α))
    {onto : List (Gate α)} (settled : Settled cancels onto) :
    Akin cancels (absorbAll cancels gates onto)
      (absorbAll cancels (cancelInverses cancels gates) onto) := by
  induction gates using cancelInverses_induction cancels with
  | nil =>
      rw [cancelInverses_nil]
      exact .refl _
  | pair gate rest remaining found ih =>
      rw [cancelInverses_cons_of_some found]
      exact (absorbAll_pair pairing found settled).trans ih
  | keep gate rest missing ih =>
      rw [cancelInverses_cons_of_none missing]
      exact absorb_akin pairing gate ih

/-- A list followed by the inverses of its gates in reverse order acts as nothing. -/
theorem absorbAll_mirror (pairing : Pairing cancels) {inverse : Gate α → Gate α}
    {gates : List (Gate α)} (cancel : ∀ gate ∈ gates, cancels gate (inverse gate) = true)
    {onto : List (Gate α)} (settled : Settled cancels onto) :
    Akin cancels (absorbAll cancels (gates ++ gates.reverse.map inverse) onto) onto := by
  induction gates generalizing onto with
  | nil => exact .refl onto
  | cons gate gates ih =>
      rw [List.forall_mem_cons] at cancel
      have inner := settled_absorb pairing (inverse gate) settled
      have nested : absorbAll cancels (gate :: gates ++ (gate :: gates).reverse.map inverse) onto =
          absorb cancels gate (absorbAll cancels (gates ++ gates.reverse.map inverse)
            (absorb cancels (inverse gate) onto)) := by
        simp [absorbAll]
      rw [nested]
      exact (absorb_akin pairing gate (ih cancel.2 inner)).trans
        (absorb_absorb_of_cancels pairing cancel.1 settled)

end Reduction

end Peephole
