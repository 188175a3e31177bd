import Peephole.Proofs.Gate.Interleaving

/-!
# The scan for cancelling neighbours

`removePartner?` is opened here once: it takes out the first later gate on a common qubit if that
gate cancels, and nothing else (`removePartner?_eq_some_iff`, `removePartner?_eq_none_iff`). A
pass drops whole pairs, so a pass that drops nothing met no neighbours that cancel
(`cancelInverses_eq_self_or_length_add_two_le`), and on a list without such neighbours it drops
nothing (`cancelInverses_eq_self_iff`).

The partners of two gates without a common qubit are taken out independently of each other
(`removePartner?_of_apart`, `removePartner?_cases_of_apart`). Hence one pass over two interleavings
of a circuit leaves two interleavings of one circuit (`cancelInverses_interleaved`).
-/

namespace Peephole

namespace Reduction

variable {α : Type} {cancels : Gate α → Gate α → Bool}

/-- Two results that are related stay so when each is mapped on. -/
theorem optionRel_map {β γ : Type} {related : β → β → Prop} {related' : γ → γ → Prop}
    {f g : β → γ} {left right : Option β} (rel : Option.Rel related left right)
    (step : ∀ {a b}, related a b → related' (f a) (g b)) :
    Option.Rel related' (left.map f) (right.map g) := by
  cases rel with
  | none => exact .none
  | some pair => exact .some (step pair)

theorem optionRel_cases {β γ : Type} {related : β → γ → Prop} {left : Option β}
    {right : Option γ} (rel : Option.Rel related left right) :
    (left = none ∧ right = none) ∨ ∃ a b, left = some a ∧ right = some b ∧ related a b := by
  cases rel with
  | none => exact Or.inl ⟨rfl, rfl⟩
  | some pair => exact Or.inr ⟨_, _, rfl, rfl, pair⟩

theorem optionRel_symm {β : Type} {related related' : β → β → Prop} {left right : Option β}
    (flip : ∀ {a b}, related a b → related' b a) (rel : Option.Rel related left right) :
    Option.Rel related' right left := by
  cases rel with
  | none => exact .none
  | some pair => exact .some (flip pair)

/-! ## Finding the partner -/

theorem removePartner?_cons_of_apart {gate candidate : Gate α} (rest : List (Gate α))
    (apart : gate.overlaps candidate = false) :
    removePartner? cancels gate (candidate :: rest) =
      (removePartner? cancels gate rest).map (candidate :: ·) := by
  simp [removePartner?, apart]

theorem removePartner?_cons_of_cancels {gate candidate : Gate α} (rest : List (Gate α))
    (meet : gate.overlaps candidate = true) (cancel : cancels gate candidate = true) :
    removePartner? cancels gate (candidate :: rest) = some rest := by
  simp [removePartner?, meet, cancel]

theorem removePartner?_cons_of_not_cancels {gate candidate : Gate α} (rest : List (Gate α))
    (meet : gate.overlaps candidate = true) (stay : cancels gate candidate = false) :
    removePartner? cancels gate (candidate :: rest) = none := by
  simp [removePartner?, meet, stay]

/-- Induction along the search: the partner stands first, or behind a gate without a common
qubit. -/
theorem removePartner?_induction {gate : Gate α}
    {motive : ∀ gates rest : List (Gate α), removePartner? cancels gate gates = some rest → Prop}
    (here : ∀ partner after (meet : gate.overlaps partner = true)
      (cancel : cancels gate partner = true),
      motive (partner :: after) after (removePartner?_cons_of_cancels after meet cancel))
    (later : ∀ candidate gates rest (apart : gate.overlaps candidate = false)
      (found : removePartner? cancels gate gates = some rest), motive gates rest found →
      motive (candidate :: gates) (candidate :: rest)
        (by rw [removePartner?_cons_of_apart gates apart, found, Option.map_some]))
    {gates rest : List (Gate α)} (found : removePartner? cancels gate gates = some rest) :
    motive gates rest found := by
  induction gates generalizing rest with
  | nil => simp [removePartner?] at found
  | cons candidate gates ih =>
      cases meet : gate.overlaps candidate with
      | false =>
          have inner := found
          rw [removePartner?_cons_of_apart gates meet, Option.map_eq_some_iff] at inner
          obtain ⟨remaining, innerFound, rfl⟩ := inner
          exact later candidate gates remaining meet innerFound (ih innerFound)
      | true =>
          cases cancel : cancels gate candidate with
          | false => simp [removePartner?_cons_of_not_cancels gates meet cancel] at found
          | true =>
              obtain rfl : gates = rest := by
                rw [removePartner?_cons_of_cancels gates meet cancel] at found
                exact Option.some.inj found
              exact here candidate gates meet cancel

theorem removePartner?_eq_some_iff {gate : Gate α} {gates rest : List (Gate α)} :
    removePartner? cancels gate gates = some rest ↔
      ∃ before partner after, gates = before ++ partner :: after ∧ rest = before ++ after ∧
        (∀ other ∈ before, gate.overlaps other = false) ∧
        gate.overlaps partner = true ∧ cancels gate partner = true := by
  constructor
  · intro found
    induction found using removePartner?_induction with
    | here partner after meet cancel =>
        exact ⟨[], partner, after, rfl, rfl, by simp, meet, cancel⟩
    | later candidate gates rest apart _ ih =>
        obtain ⟨before, partner, after, rfl, rfl, apartBefore, meet, cancel⟩ := ih
        refine ⟨candidate :: before, partner, after, rfl, rfl, ?_, meet, cancel⟩
        exact List.forall_mem_cons.mpr ⟨apart, apartBefore⟩
  · rintro ⟨before, partner, after, rfl, rfl, apart, meet, cancel⟩
    induction before with
    | nil => exact removePartner?_cons_of_cancels after meet cancel
    | cons other before ih =>
        rw [List.forall_mem_cons] at apart
        rw [List.cons_append, removePartner?_cons_of_apart _ apart.1, ih apart.2]
        rfl

/-- A gate has no partner exactly if its neighbour, when it has one, does not cancel it. -/
theorem removePartner?_eq_none_iff {gate : Gate α} {gates : List (Gate α)} :
    removePartner? cancels gate gates = none ↔
      ∀ neighbour, gates.find? gate.overlaps = some neighbour →
        cancels gate neighbour = false := by
  induction gates with
  | nil => simp [removePartner?]
  | cons candidate gates ih =>
      cases meet : gate.overlaps candidate with
      | false =>
          rw [removePartner?_cons_of_apart gates meet, Option.map_eq_none_iff, ih]
          simp [meet]
      | true => simp [removePartner?, meet]

theorem sublist_of_removePartner? {gate : Gate α} {gates rest : List (Gate α)}
    (found : removePartner? cancels gate gates = some rest) : rest.Sublist gates := by
  obtain ⟨before, partner, after, rfl, rfl, -⟩ := removePartner?_eq_some_iff.mp found
  exact (List.Sublist.refl before).append (List.sublist_cons_self partner after)

/-! ## The scan step by step -/

@[simp]
theorem cancelInverses_nil : cancelInverses cancels [] = [] := by
  rw [cancelInverses]

theorem cancelInverses_cons_of_some {gate : Gate α} {rest remaining : List (Gate α)}
    (found : removePartner? cancels gate rest = some remaining) :
    cancelInverses cancels (gate :: rest) = cancelInverses cancels remaining := by
  rw [cancelInverses]
  split
  · rename_i other otherFound
    rw [found] at otherFound
    rw [Option.some.inj otherFound]
  · rename_i missing
    rw [found] at missing
    cases missing

theorem cancelInverses_cons_of_none {gate : Gate α} {rest : List (Gate α)}
    (missing : removePartner? cancels gate rest = none) :
    cancelInverses cancels (gate :: rest) = gate :: cancelInverses cancels rest := by
  rw [cancelInverses]
  split
  · rename_i other found
    rw [missing] at found
    cases found
  · rfl

/-- Induction along the scan: a gate either goes together with its partner or stays. -/
theorem cancelInverses_induction (cancels : Gate α → Gate α → Bool)
    {motive : List (Gate α) → Prop} (nil : motive [])
    (pair : ∀ gate rest remaining, removePartner? cancels gate rest = some remaining →
      motive remaining → motive (gate :: rest))
    (keep : ∀ gate rest, removePartner? cancels gate rest = none →
      motive rest → motive (gate :: rest)) (gates : List (Gate α)) : motive gates := by
  induction gates using cancelInverses.induct cancels with
  | case1 => exact nil
  | case2 gate rest remaining found ih => exact pair gate rest remaining found ih
  | case3 gate rest missing ih => exact keep gate rest missing ih

theorem cancelInverses_sublist (cancels : Gate α → Gate α → Bool) (gates : List (Gate α)) :
    (cancelInverses cancels gates).Sublist gates := by
  induction gates using cancelInverses_induction cancels with
  | nil => simp
  | pair gate rest remaining found ih =>
      rw [cancelInverses_cons_of_some found]
      exact (ih.trans (sublist_of_removePartner? found)).trans (List.sublist_cons_self _ _)
  | keep gate rest missing ih =>
      rw [cancelInverses_cons_of_none missing]
      exact ih.cons_cons gate

/-- Gates go in pairs. -/
theorem cancelInverses_eq_self_or_length_add_two_le (gates : List (Gate α)) :
    cancelInverses cancels gates = gates ∨
      (cancelInverses cancels gates).length + 2 ≤ gates.length := by
  induction gates using cancelInverses_induction cancels with
  | nil => exact Or.inl cancelInverses_nil
  | pair gate rest remaining found _ =>
      right
      have shorter := length_of_removePartner? found
      have bound := (cancelInverses_sublist cancels remaining).length_le
      rw [cancelInverses_cons_of_some found, List.length_cons]
      omega
  | keep gate rest missing ih =>
      rw [cancelInverses_cons_of_none missing]
      rcases ih with same | shorter
      · exact Or.inl (by rw [same])
      · right
        simp only [List.length_cons]
        omega

/-! ## Lists without cancelling neighbours -/

/-- No gate is cancelled by its neighbour, the first later gate on a common qubit. -/
def Settled (cancels : Gate α → Gate α → Bool) (gates : List (Gate α)) : Prop :=
  ∀ before gate after neighbour, gates = before ++ gate :: after →
    after.find? gate.overlaps = some neighbour → cancels gate neighbour = false

theorem settled_nil : Settled cancels ([] : List (Gate α)) := by
  intro before gate after neighbour split
  simp at split

theorem settled_cons_iff {gate : Gate α} {gates : List (Gate α)} :
    Settled cancels (gate :: gates) ↔
      removePartner? cancels gate gates = none ∧ Settled cancels gates := by
  rw [removePartner?_eq_none_iff]
  constructor
  · intro settled
    refine ⟨fun neighbour next => settled [] gate gates neighbour rfl next, ?_⟩
    intro before other after neighbour split next
    exact settled (gate :: before) other after neighbour (by rw [split]; rfl) next
  · rintro ⟨first, settled⟩ before other after neighbour split next
    cases before with
    | nil =>
        obtain ⟨rfl, rfl⟩ := List.cons.inj split
        exact first neighbour next
    | cons _ before =>
        obtain ⟨-, split⟩ := List.cons.inj split
        exact settled before other after neighbour split next

/-- A pass leaves a list as it is exactly if no neighbours in it cancel. -/
theorem cancelInverses_eq_self_iff {gates : List (Gate α)} :
    cancelInverses cancels gates = gates ↔ Settled cancels gates := by
  induction gates with
  | nil => simp [settled_nil]
  | cons gate rest ih =>
      rw [settled_cons_iff]
      cases partner : removePartner? cancels gate rest with
      | none => simp [cancelInverses_cons_of_none partner, ih]
      | some remaining =>
          have shorter := length_of_removePartner? partner
          have bound := (cancelInverses_sublist cancels remaining).length_le
          simp only [reduceCtorEq, false_and, iff_false]
          intro same
          have lengths := congrArg List.length same
          rw [cancelInverses_cons_of_some partner, List.length_cons] at lengths
          omega

/-! ## Relations that agree -/

/-- Two relations agree on the gates of a list. -/
def AgreeOn (cancels cancels' : Gate α → Gate α → Bool) (gates : List (Gate α)) : Prop :=
  ∀ first ∈ gates, ∀ second ∈ gates, cancels first second = cancels' first second

theorem AgreeOn.sublist {cancels' : Gate α → Gate α → Bool} {gates rest : List (Gate α)}
    (agree : AgreeOn cancels cancels' gates) (sublist : rest.Sublist gates) :
    AgreeOn cancels cancels' rest :=
  fun first inFirst second inSecond =>
    agree first (sublist.subset inFirst) second (sublist.subset inSecond)

theorem removePartner?_congr {cancels' : Gate α → Gate α → Bool} {gate : Gate α}
    {gates : List (Gate α)} (agree : ∀ other ∈ gates, cancels gate other = cancels' gate other) :
    removePartner? cancels gate gates = removePartner? cancels' gate gates := by
  induction gates with
  | nil => rfl
  | cons candidate gates ih =>
      rw [List.forall_mem_cons] at agree
      simp only [removePartner?]
      rw [agree.1, ih agree.2]

/-- A scan asks about the gates of its list alone. -/
theorem cancelInverses_congr {cancels' : Gate α → Gate α → Bool} {gates : List (Gate α)}
    (agree : AgreeOn cancels cancels' gates) :
    cancelInverses cancels gates = cancelInverses cancels' gates := by
  induction gates using cancelInverses_induction cancels with
  | nil => rw [cancelInverses_nil, cancelInverses_nil]
  | pair gate rest remaining found ih =>
      have same := removePartner?_congr fun other inRest =>
        agree gate (.head rest) other (.tail gate inRest)
      have later := (sublist_of_removePartner? found).trans (List.sublist_cons_self gate rest)
      rw [cancelInverses_cons_of_some found, cancelInverses_cons_of_some (same.symm.trans found),
        ih (agree.sublist later)]
  | keep gate rest missing ih =>
      have same := removePartner?_congr fun other inRest =>
        agree gate (.head rest) other (.tail gate inRest)
      rw [cancelInverses_cons_of_none missing,
        cancelInverses_cons_of_none (same.symm.trans missing),
        ih (agree.sublist (List.sublist_cons_self gate rest))]

/-! ## Gates without a common qubit -/

/-- Taking out the partner of one gate neither hides nor reveals the partner of a gate that
shares no qubit with it, and the order of the two removals does not show. -/
theorem removePartner?_of_apart (same : OnSameQubits cancels) {left right : Gate α}
    (apart : left.overlaps right = false) {gates gatesLeft : List (Gate α)}
    (found : removePartner? cancels left gates = some gatesLeft) :
    Option.Rel (fun gatesRight rest => removePartner? cancels left gatesRight = some rest)
      (removePartner? cancels right gates) (removePartner? cancels right gatesLeft) := by
  induction found using removePartner?_induction with
  | here partner after meet cancel =>
      have clear : right.overlaps partner = false := by
        rw [Gate.overlaps_comm, ← (same cancel).overlaps_eq, apart]
      rw [removePartner?_cons_of_apart after clear]
      cases removePartner? cancels right after with
      | none => exact .none
      | some rest => exact .some (removePartner?_cons_of_cancels rest meet cancel)
  | later candidate gates gatesLeft apartLeft found ih =>
      cases meetRight : right.overlaps candidate with
      | true =>
          cases cancel : cancels right candidate with
          | false =>
              rw [removePartner?_cons_of_not_cancels gates meetRight cancel,
                removePartner?_cons_of_not_cancels gatesLeft meetRight cancel]
              exact .none
          | true =>
              rw [removePartner?_cons_of_cancels gates meetRight cancel,
                removePartner?_cons_of_cancels gatesLeft meetRight cancel]
              exact .some found
      | false =>
          rw [removePartner?_cons_of_apart gates meetRight,
            removePartner?_cons_of_apart gatesLeft meetRight]
          refine optionRel_map ih fun {gatesRight rest} removed => ?_
          rw [removePartner?_cons_of_apart gatesRight apartLeft, removed]
          rfl

/-- Two gates without a common qubit find their partners in a list independently of each other:
neither has one, one of them has, or both have, and then in either order. -/
theorem removePartner?_cases_of_apart (same : OnSameQubits cancels) {left right : Gate α}
    (apart : left.overlaps right = false) (gates : List (Gate α)) :
    (removePartner? cancels left gates = none ∧ removePartner? cancels right gates = none) ∨
    (∃ gatesLeft, removePartner? cancels left gates = some gatesLeft ∧
      removePartner? cancels right gates = none ∧
      removePartner? cancels right gatesLeft = none) ∨
    (∃ gatesRight, removePartner? cancels left gates = none ∧
      removePartner? cancels right gates = some gatesRight ∧
      removePartner? cancels left gatesRight = none) ∨
    (∃ gatesLeft gatesRight rest, removePartner? cancels left gates = some gatesLeft ∧
      removePartner? cancels right gates = some gatesRight ∧
      removePartner? cancels left gatesRight = some rest ∧
      removePartner? cancels right gatesLeft = some rest) := by
  have apart' : right.overlaps left = false := by rw [Gate.overlaps_comm, apart]
  cases foundLeft : removePartner? cancels left gates with
  | none =>
      cases foundRight : removePartner? cancels right gates with
      | none => exact Or.inl ⟨rfl, rfl⟩
      | some gatesRight =>
          have both := removePartner?_of_apart same apart' foundRight
          rw [foundLeft] at both
          rcases optionRel_cases both with ⟨-, stay⟩ | ⟨_, _, absurd, -⟩
          · exact Or.inr (Or.inr (Or.inl ⟨gatesRight, rfl, rfl, stay⟩))
          · cases absurd
  | some gatesLeft =>
      rcases optionRel_cases (removePartner?_of_apart same apart foundLeft) with
        ⟨foundRight, stay⟩ | ⟨gatesRight, rest, foundRight, gone, removed⟩
      · exact Or.inr (Or.inl ⟨gatesLeft, rfl, foundRight, stay⟩)
      · exact Or.inr (Or.inr (Or.inr ⟨gatesLeft, gatesRight, rest, rfl, foundRight, removed, gone⟩))

/-- Lists with related tails offer a gate related remainders, if their first gates look the same to
it. -/
theorem removePartner?_cons_related {related : List (Gate α) → List (Gate α) → Prop}
    {gate left right : Gate α} {gates gates' : List (Gate α)}
    (meets : gate.overlaps left = gate.overlaps right)
    (effects : cancels gate left = cancels gate right) (rests : related gates gates')
    (cons : ∀ {rest rest'}, related rest rest' → related (left :: rest) (right :: rest'))
    (inner : Option.Rel related (removePartner? cancels gate gates)
      (removePartner? cancels gate gates')) :
    Option.Rel related (removePartner? cancels gate (left :: gates))
      (removePartner? cancels gate (right :: gates')) := by
  cases meet : gate.overlaps left with
  | false =>
      rw [removePartner?_cons_of_apart gates meet,
        removePartner?_cons_of_apart gates' (meets.symm.trans meet)]
      exact optionRel_map inner cons
  | true =>
      cases cancel : cancels gate left with
      | false =>
          rw [removePartner?_cons_of_not_cancels gates meet cancel,
            removePartner?_cons_of_not_cancels gates' (meets.symm.trans meet)
              (effects.symm.trans cancel)]
          exact .none
      | true =>
          rw [removePartner?_cons_of_cancels gates meet cancel,
            removePartner?_cons_of_cancels gates' (meets.symm.trans meet)
              (effects.symm.trans cancel)]
          exact .some rests

/-- A gate that shares no qubit with the first of two neighbours deals with the second one alone,
wherever that stands. -/
theorem removePartner?_pass (gate : Gate α) {left right : Gate α} (after : List (Gate α))
    (apart : left.overlaps right = false) (clear : gate.overlaps left = false) :
    Option.Rel Interleaved (removePartner? cancels gate (left :: right :: after))
      (removePartner? cancels gate (right :: left :: after)) := by
  rw [removePartner?_cons_of_apart _ clear]
  cases meet : gate.overlaps right with
  | false =>
      rw [removePartner?_cons_of_apart _ meet, removePartner?_cons_of_apart _ meet,
        removePartner?_cons_of_apart _ clear]
      cases removePartner? cancels gate after with
      | none => exact .none
      | some rest => exact .some (.single (.here rest apart))
  | true =>
      cases cancel : cancels gate right with
      | false =>
          rw [removePartner?_cons_of_not_cancels _ meet cancel,
            removePartner?_cons_of_not_cancels _ meet cancel]
          exact .none
      | true =>
          rw [removePartner?_cons_of_cancels _ meet cancel,
            removePartner?_cons_of_cancels _ meet cancel]
          exact .some (.refl _)

/-- A gate that cancels another one shares no qubit with a gate apart from that one. -/
theorem not_cancels_of_overlaps (same : OnSameQubits cancels) {gate left right : Gate α}
    (apart : left.overlaps right = false) (meet : gate.overlaps right = true) :
    cancels gate left = false := by
  cases cancel : cancels gate left with
  | false => rfl
  | true =>
      rw [(same cancel).overlaps_eq, apart] at meet
      cases meet

theorem removePartner?_here (same : OnSameQubits cancels) (gate : Gate α) {left right : Gate α}
    (after : List (Gate α)) (apart : left.overlaps right = false) :
    Option.Rel Interleaved (removePartner? cancels gate (left :: right :: after))
      (removePartner? cancels gate (right :: left :: after)) := by
  have apart' : right.overlaps left = false := by rw [Gate.overlaps_comm, apart]
  cases meetLeft : gate.overlaps left with
  | false => exact removePartner?_pass gate after apart meetLeft
  | true =>
      cases meetRight : gate.overlaps right with
      | false => exact optionRel_symm .symm (removePartner?_pass gate after apart' meetRight)
      | true =>
          -- the gate meets both, so it acts on the qubits of neither alone
          have stayLeft := not_cancels_of_overlaps same apart meetRight
          have stayRight := not_cancels_of_overlaps same apart' meetLeft
          rw [removePartner?_cons_of_not_cancels _ meetLeft stayLeft,
            removePartner?_cons_of_not_cancels _ meetRight stayRight]
          exact .none

/-- The neighbour of a gate that could cancel it is the same one in every interleaving. -/
theorem removePartner?_exchanged (same : OnSameQubits cancels) (gate : Gate α)
    {gates gates' : List (Gate α)} (exchanged : Exchanged gates gates') :
    Option.Rel Interleaved (removePartner? cancels gate gates)
      (removePartner? cancels gate gates') := by
  induction exchanged with
  | here after apart => exact removePartner?_here same gate after apart
  | later other exchanged ih =>
      exact removePartner?_cons_related rfl rfl (.single exchanged) (fun rest => rest.cons other) ih

/-- Two neighbours without a common qubit go or stay whichever of them is looked at first. -/
theorem cancelInverses_here (same : OnSameQubits cancels) {left right : Gate α}
    (after : List (Gate α)) (apart : left.overlaps right = false) :
    Interleaved (cancelInverses cancels (left :: right :: after))
      (cancelInverses cancels (right :: left :: after)) := by
  have apart' : right.overlaps left = false := by rw [Gate.overlaps_comm, apart]
  have partnerLeft : removePartner? cancels left (right :: after) =
      (removePartner? cancels left after).map (right :: ·) :=
    removePartner?_cons_of_apart after apart
  have partnerRight : removePartner? cancels right (left :: after) =
      (removePartner? cancels right after).map (left :: ·) :=
    removePartner?_cons_of_apart after apart'
  rcases removePartner?_cases_of_apart same apart after with ⟨stayLeft, stayRight⟩ |
    ⟨afterLeft, goneLeft, stayRight, later⟩ | ⟨afterRight, stayLeft, goneRight, later⟩ |
    ⟨afterLeft, afterRight, rest, goneLeft, goneRight, laterLeft, laterRight⟩
  · rw [stayLeft] at partnerLeft
    rw [stayRight] at partnerRight
    rw [cancelInverses_cons_of_none partnerLeft, cancelInverses_cons_of_none stayRight,
      cancelInverses_cons_of_none partnerRight, cancelInverses_cons_of_none stayLeft]
    exact .single (.here _ apart)
  · rw [goneLeft] at partnerLeft
    rw [stayRight] at partnerRight
    rw [cancelInverses_cons_of_some partnerLeft, cancelInverses_cons_of_none later,
      cancelInverses_cons_of_none partnerRight, cancelInverses_cons_of_some goneLeft]
    exact .refl _
  · rw [stayLeft] at partnerLeft
    rw [goneRight] at partnerRight
    rw [cancelInverses_cons_of_none partnerLeft, cancelInverses_cons_of_some goneRight,
      cancelInverses_cons_of_some partnerRight, cancelInverses_cons_of_none later]
    exact .refl _
  · rw [goneLeft] at partnerLeft
    rw [goneRight] at partnerRight
    rw [cancelInverses_cons_of_some partnerLeft, cancelInverses_cons_of_some laterRight,
      cancelInverses_cons_of_some partnerRight, cancelInverses_cons_of_some laterLeft]
    exact .refl _

/-- A pass over two interleavings of a circuit takes the same pairs out of both. The induction is
on the length, as the scan goes on with a list from which a later gate is gone. -/
theorem cancelInverses_exchanged (same : OnSameQubits cancels) (size : Nat) :
    ∀ {gates gates' : List (Gate α)}, gates.length ≤ size → Exchanged gates gates' →
      Interleaved (cancelInverses cancels gates) (cancelInverses cancels gates') := by
  induction size with
  | zero =>
      intro gates gates' small exchanged
      cases exchanged <;> simp at small
  | succ size ih =>
      intro gates gates' small exchanged
      cases exchanged with
      | here after apart => exact cancelInverses_here same after apart
      | @later gate gates gates' exchanged =>
          rw [List.length_cons] at small
          rcases optionRel_cases (removePartner?_exchanged same gate exchanged) with
            ⟨stay, stay'⟩ | ⟨rest, rest', found, found', interleaved⟩
          · rw [cancelInverses_cons_of_none stay, cancelInverses_cons_of_none stay']
            exact (ih (by omega) exchanged).cons gate
          · have shorter := length_of_removePartner? found
            rw [cancelInverses_cons_of_some found, cancelInverses_cons_of_some found']
            exact Interleaved.image_of_exchanged ih (by omega) interleaved

theorem cancelInverses_interleaved (same : OnSameQubits cancels) {gates gates' : List (Gate α)}
    (interleaved : Interleaved gates gates') :
    Interleaved (cancelInverses cancels gates) (cancelInverses cancels gates') :=
  Interleaved.image_of_exchanged (cancelInverses_exchanged same _) (Nat.le_refl _) interleaved

end Reduction

end Peephole
