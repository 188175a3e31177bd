import Mathlib.Algebra.BigOperators.Group.List.Basic
import Peephole.Proofs.Reduction.Passes

/-!
# Passes as local rewritings

`Rewrites` lists what may be done to a gate list at one place: exchange two neighbours that share
no qubit and are not both measurements, drop two neighbours that cancel, drop a gate that does
nothing, and add up two neighbouring rotations. Every pass is a chain of such rewritings
(`Pass.apply_rewritten`), so it moves no gate past another one on a common qubit and relies on no
order of two measurements but the given one.

An `Interpretation` gives every gate a value in a monoid such that each of these rewritings keeps
the product. That the passes keep it then needs no further look at them
(`Interpretation.product_eq_of_rewritten`).
-/

namespace Peephole

universe u

namespace Reduction

variable {α : Type}

/-- One rewriting at one place of a gate list. -/
inductive Rewrites [Add α] [BEq α] (negligible : α → Bool) :
    List (Gate α) → List (Gate α) → Prop
  | exchange {left right : Gate α} (after : List (Gate α))
    (apart : left.overlaps right = false)
    (free : left.kind ≠ .measure ∨ right.kind ≠ .measure) :
    Rewrites negligible (left :: right :: after) (right :: left :: after)
  | cancel {first second : Gate α} (after : List (Gate α))
    (cancels : gatesCancel negligible first second = true) :
    Rewrites negligible (first :: second :: after) after
  | drop {gate : Gate α} (after : List (Gate α))
    (identity : isIdentity negligible gate.operation = true) :
    Rewrites negligible (gate :: after) after
  | add (axis : Axis) (qubit : Int) (angle angle' : α) (annotations annotations' : Fields)
    (after : List (Gate α)) :
    Rewrites negligible
      (⟨.rotation axis qubit angle, annotations⟩ ::
        ⟨.rotation axis qubit angle', annotations'⟩ :: after)
      (⟨.rotation axis qubit (angle + angle'), annotations⟩ :: after)
  | revise {gate gate' : Gate α} (after : List (Gate α)) (same : gate.same gate' = true) :
    Rewrites negligible (gate :: after) (gate' :: after)
  | later (gate : Gate α) {gates gates' : List (Gate α)}
    (rewrites : Rewrites negligible gates gates') :
    Rewrites negligible (gate :: gates) (gate :: gates')

variable [Add α] [BEq α] {negligible : α → Bool}

/-- Any number of rewritings. -/
def Rewritten (negligible : α → Bool) : List (Gate α) → List (Gate α) → Prop :=
  Relation.ReflTransGen (Rewrites negligible)

namespace Rewritten

theorem refl (gates : List (Gate α)) : Rewritten negligible gates gates :=
  Relation.ReflTransGen.refl

theorem single {gates gates' : List (Gate α)} (rewrites : Rewrites negligible gates gates') :
    Rewritten negligible gates gates' :=
  Relation.ReflTransGen.single rewrites

theorem trans {gates gates' gates'' : List (Gate α)}
    (first : Rewritten negligible gates gates') (second : Rewritten negligible gates' gates'') :
    Rewritten negligible gates gates'' :=
  Relation.ReflTransGen.trans first second

theorem cons (gate : Gate α) {gates gates' : List (Gate α)}
    (rewritten : Rewritten negligible gates gates') :
    Rewritten negligible (gate :: gates) (gate :: gates') := by
  induction rewritten with
  | refl => exact refl _
  | tail _ rewrites ih => exact ih.trans (single (rewrites.later gate))

theorem append_left (before : List (Gate α)) {gates gates' : List (Gate α)}
    (rewritten : Rewritten negligible gates gates') :
    Rewritten negligible (before ++ gates) (before ++ gates') := by
  induction before with
  | nil => exact rewritten
  | cons gate before ih => exact ih.cons gate

/-- A gate that is no measurement may pass by gates that it shares no qubit with. -/
theorem pass_by {gate : Gate α} (unitary : gate.kind ≠ .measure) {before : List (Gate α)}
    (after : List (Gate α)) (apart : ∀ other ∈ before, gate.overlaps other = false) :
    Rewritten negligible (gate :: (before ++ after)) (before ++ gate :: after) := by
  induction before with
  | nil => exact refl _
  | cons other before ih =>
      rw [List.forall_mem_cons] at apart
      have exchanged : Rewrites negligible (gate :: other :: (before ++ after))
          (other :: gate :: (before ++ after)) :=
        .exchange _ apart.1 (Or.inl unitary)
      exact (single exchanged).trans ((ih apart.2).cons other)

end Rewritten

/-! ## The three passes -/

theorem cancelInverses_rewritten (gates : List (Gate α)) :
    Rewritten negligible gates (cancelInverses (gatesCancel negligible) gates) := by
  induction gates using cancelInverses_induction (gatesCancel negligible) with
  | nil => rw [cancelInverses_nil]; exact .refl _
  | keep gate rest missing ih =>
      rw [cancelInverses_cons_of_none missing]
      exact ih.cons gate
  | pair gate rest remaining found ih =>
      rw [cancelInverses_cons_of_some found]
      obtain ⟨before, partner, after, rfl, rfl, apart, -, cancels⟩ :=
        removePartner?_eq_some_iff.mp found
      have moved : Rewritten negligible (gate :: (before ++ partner :: after))
          (before ++ gate :: partner :: after) :=
        .pass_by (kind_ne_measure_of_gatesCancel cancels) _ apart
      have cancelled : Rewritten negligible (before ++ gate :: partner :: after)
          (before ++ after) :=
        .append_left before (.single (.cancel after cancels))
      exact (moved.trans cancelled).trans ih

theorem dropIdentities_rewritten (gates : List (Gate α)) :
    Rewritten negligible gates (dropIdentities negligible gates) := by
  induction gates with
  | nil => exact .refl _
  | cons gate rest ih =>
      unfold dropIdentities at ih ⊢
      rw [List.filter_cons]
      split
      · exact ih.cons gate
      · rename_i identity
        have dropped : Rewrites negligible (gate :: rest) rest :=
          .drop rest (by simpa using identity)
        exact (Rewritten.single dropped).trans ih

/-- A rotation takes up the run that follows it, member by member. -/
theorem takeRun_rewritten (axis : Axis) (qubit : Int) (angle : α) (annotations : Fields)
    (gates : List (Gate α)) :
    Rewritten negligible (⟨.rotation axis qubit angle, annotations⟩ :: gates)
      (⟨.rotation axis qubit (takeRun axis qubit angle gates).1, annotations⟩ ::
        (takeRun axis qubit angle gates).2) := by
  induction gates generalizing angle with
  | nil => exact .refl _
  | cons gate rest ih =>
      rcases run_cases axis qubit gate with clear | ⟨angle', member⟩ | ⟨meets, other⟩
      · -- the rotation passes by the gate, takes up the run, and comes back with the sum
        have apart : ∀ total : α,
            Gate.overlaps ⟨.rotation axis qubit total, annotations⟩ gate = false := by
          intro total
          rw [Gate.overlaps_of_rotation rfl, clear]
        rw [takeRun_cons_of_clear angle rest clear]
        have away : Rewrites negligible (⟨.rotation axis qubit angle, annotations⟩ :: gate :: rest)
            (gate :: ⟨.rotation axis qubit angle, annotations⟩ :: rest) :=
          .exchange rest (apart angle) (Or.inl (by simp [Gate.kind, Operation.kind]))
        have back : Rewrites negligible
            (gate :: ⟨.rotation axis qubit (takeRun axis qubit angle rest).1, annotations⟩ ::
              (takeRun axis qubit angle rest).2)
            (⟨.rotation axis qubit (takeRun axis qubit angle rest).1, annotations⟩ :: gate ::
              (takeRun axis qubit angle rest).2) := by
          refine .exchange _ ?_ (Or.inr (by simp [Gate.kind, Operation.kind]))
          rw [Gate.overlaps_comm, apart]
        exact ((Rewritten.single away).trans ((ih angle).cons gate)).trans (.single back)
      · rw [takeRun_cons_of_member angle rest member]
        obtain ⟨operation, annotations'⟩ := gate
        cases member
        exact (Rewritten.single (.add _ _ _ _ _ _ rest)).trans (ih _)
      · rw [takeRun_cons_of_stop angle rest meets other]
        exact .refl _

theorem mergeRotations_rewritten (gates : List (Gate α)) :
    Rewritten negligible gates (mergeRotations negligible gates) := by
  induction gates using mergeRotations_induction negligible with
  | nil => rw [mergeRotations_nil]; exact .refl _
  | run gate rest ih =>
      rw [mergeRotations_cons]
      rcases gate.rotation_or_not with ⟨axis, qubit, angle, rotation⟩ | other
      · rw [mergeRun_of_rotation rest rotation] at ih ⊢
        obtain ⟨operation, annotations⟩ := gate
        cases rotation
        refine (takeRun_rewritten axis qubit angle annotations rest).trans ?_
        unfold mergedGate?
        dsimp only at ih ⊢
        split
        · rename_i small
          have nothing : ∀ total : α, negligible total = true →
              isIdentity negligible (.rotation axis qubit total) = true :=
            fun _ small => small
          exact (Rewritten.single (.drop _ (nothing _ small))).trans ih
        · split
          · rename_i equal
            refine Rewritten.trans (.single (.revise _ ?_)) (ih.cons _)
            simpa [Gate.same, Operation.same] using equal
          · exact ih.cons _
      · rw [mergeRun_of_not_rotation rest other] at ih ⊢
        exact ih.cons gate

end Reduction

namespace Pass

variable {α : Type} [Add α] [BEq α] {negligible : α → Bool}

theorem apply_rewritten (pass : Pass) (gates : List (Gate α)) :
    Reduction.Rewritten negligible gates (pass.apply negligible gates) := by
  cases pass with
  | cancelInverses => exact Reduction.cancelInverses_rewritten gates
  | dropIdentities => exact Reduction.dropIdentities_rewritten gates
  | mergeRotations => exact Reduction.mergeRotations_rewritten gates

end Pass

/-! ## Meanings that rewritings keep -/

/-- Values of gates in a monoid that every rewriting keeps. They do not depend on annotations, nor
on how an angle is written; gates without a common qubit commute unless both are measurements. -/
structure Interpretation {α : Type} [Add α] [BEq α] (negligible : α → Bool) (M : Type u)
    [Monoid M] where
  value : Gate α → M
  same : ∀ {gate gate' : Gate α}, gate.same gate' = true → value gate = value gate'
  apart : ∀ {left right : Gate α}, left.overlaps right = false →
    left.kind ≠ .measure ∨ right.kind ≠ .measure → value left * value right =
      value right * value left
  cancel : ∀ {first second : Gate α}, Reduction.gatesCancel negligible first second = true →
    value first * value second = 1
  identity : ∀ {gate : Gate α}, Reduction.isIdentity negligible gate.operation = true →
    value gate = 1
  sum : ∀ (axis : Axis) (qubit : Int) (angle angle' : α) (annotations annotations' : Fields),
    value ⟨.rotation axis qubit angle, annotations⟩ *
        value ⟨.rotation axis qubit angle', annotations'⟩ =
      value ⟨.rotation axis qubit (angle + angle'), annotations⟩

namespace Interpretation

variable {α : Type} [Add α] [BEq α] {negligible : α → Bool} {M : Type u} [Monoid M]

/-- The value of a gate list, the first gate as the leftmost factor. -/
def product (interpretation : Interpretation negligible M) (gates : List (Gate α)) : M :=
  (gates.map interpretation.value).prod

@[simp]
theorem product_cons (interpretation : Interpretation negligible M) (gate : Gate α)
    (gates : List (Gate α)) :
    interpretation.product (gate :: gates) =
      interpretation.value gate * interpretation.product gates := by
  simp [product]

theorem product_eq_of_rewrites (interpretation : Interpretation negligible M)
    {gates gates' : List (Gate α)} (rewrites : Reduction.Rewrites negligible gates gates') :
    interpretation.product gates' = interpretation.product gates := by
  induction rewrites with
  | exchange after apart free =>
      simp only [product_cons, ← mul_assoc, interpretation.apart apart free]
  | cancel after cancels =>
      rw [product_cons, product_cons, ← mul_assoc, interpretation.cancel cancels, one_mul]
  | drop after identity => rw [product_cons, interpretation.identity identity, one_mul]
  | add axis qubit angle angle' annotations annotations' after =>
      simp only [product_cons, ← mul_assoc, interpretation.sum]
  | revise after same => rw [product_cons, product_cons, interpretation.same same]
  | later gate _ ih => rw [product_cons, product_cons, ih]

theorem product_eq_of_rewritten (interpretation : Interpretation negligible M)
    {gates gates' : List (Gate α)} (rewritten : Reduction.Rewritten negligible gates gates') :
    interpretation.product gates' = interpretation.product gates := by
  induction rewritten with
  | refl => rfl
  | tail _ rewrites ih => rw [interpretation.product_eq_of_rewrites rewrites, ih]

end Interpretation

end Peephole
