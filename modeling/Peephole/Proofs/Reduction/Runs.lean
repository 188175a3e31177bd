import Mathlib.Logic.Function.Basic
import Peephole.Optimizer.Basic
import Peephole.Proofs.Gate.Neighbours
import Peephole.Proofs.Number.Double
import Peephole.Proofs.Reduction.Links
import Peephole.Proofs.Reduction.Merging

/-!
# What becomes of a run of rotations

A rotation is continued by its neighbour if that is a rotation about the same axis on the same
qubit; a run is a maximal chain of such links in the list that is given. A pass takes whole runs out
(`exists_step`), so what it has left is intact and holds whole runs (`Whole.filter`), and the runs
that it finds later are runs of the given list too. Hence the result is the list in which each first
member of a run has become the merged rotation and the other members nothing (`exists_images`).

If no run vanishes, then what keeps two rotations about one axis on one qubit apart is still there
afterwards (`exists_between_runs`): the neighbour of the last member of the first run.
-/

namespace Peephole

namespace Reduction

variable {α ι : Type} [LinearOrder ι] {gateAt : ι → Gate α}

/-- The gates at two positions are neighbours and rotations about one axis on one qubit. -/
structure Continues (gateAt : ι → Gate α) (first second : ι) : Prop where
  neighbours : Neighbours gateAt first second
  alike : ∃ axis qubit angle angle', (gateAt first).operation = .rotation axis qubit angle ∧
    (gateAt second).operation = .rotation axis qubit angle'

namespace Continues

theorem sameQubits {first second : ι} (continues : Continues gateAt first second) :
    (gateAt first).SameQubits (gateAt second) := by
  obtain ⟨axis, qubit, angle, angle', rotation, rotation'⟩ := continues.alike
  intro other
  rw [Gate.qubits, Gate.qubits, rotation, rotation']
  rfl

theorem rotation_of_first {first second : ι} {axis : Axis} {qubit : Int} {angle : α}
    (continues : Continues gateAt first second)
    (rotation : (gateAt first).operation = .rotation axis qubit angle) :
    ∃ angle', (gateAt second).operation = .rotation axis qubit angle' := by
  obtain ⟨axis', qubit', angle', later, rotation', laterRotation⟩ := continues.alike
  obtain ⟨rfl, rfl, rfl⟩ := Operation.rotation.inj (rotation.symm.trans rotation')
  exact ⟨later, laterRotation⟩

/-- Nothing but a rotation continues or is continued. -/
theorem isRotation {first second : ι} (continues : Continues gateAt first second) :
    (gateAt first).kind.isRotation = true ∧ (gateAt second).kind.isRotation = true := by
  obtain ⟨axis, qubit, angle, angle', rotation, rotation'⟩ := continues.alike
  rw [Gate.kind, Gate.kind, rotation, rotation']
  exact ⟨rfl, rfl⟩

end Continues

/-- At most one rotation continues a rotation, and each continues at most one. -/
theorem continues_biUnique : Relator.BiUnique (Continues gateAt) := by
  constructor
  · intro first first' second left right
    exact right.neighbours.eq_of_sameQubits right.sameQubits left.neighbours
  · intro first second second' left right
    exact left.neighbours.unique right.neighbours

/-- The angle of the first member of a run and those of the others, added one after the other. -/
def runSum [Add α] (gateAt : ι → Gate α) (angle : α) (others : List ι) : α :=
  (others.flatMap fun position => (gateAt position).params).foldl (· + ·) angle

omit [LinearOrder ι] in
theorem runSum_cons [Add α] {position : ι} {axis : Axis} {qubit : Int} {angle : α} (total : α)
    (others : List ι) (rotation : (gateAt position).operation = .rotation axis qubit angle) :
    runSum gateAt total (position :: others) = runSum gateAt (total + angle) others := by
  simp [runSum, Gate.params, rotation, Operation.params]

/-! ## Taking a run out of what is left -/

section Steps

variable {first : ι} {rest : List ι}

theorem filter_notMem_cons_of_sublist {run : List ι} (ordered : (first :: rest).Pairwise (· < ·))
    (sublist : run.Sublist rest) :
    (first :: rest).filter (· ∉ run) = first :: rest.filter (· ∉ run) ∧
      (first :: rest).filter (· ∉ first :: run) = rest.filter (· ∉ run) := by
  have behind := (List.pairwise_cons.mp ordered).1
  have outside : first ∉ run := fun member =>
    lt_irrefl first (behind first (sublist.subset member))
  refine ⟨List.filter_cons_of_pos (decide_eq_true outside), ?_⟩
  rw [List.filter_cons_of_neg (by simp)]
  refine List.filter_congr fun other member => ?_
  have differ : other ≠ first := (behind other member).ne'
  simp [differ]

variable [WellFoundedLT ι]

/-- The gates that belong to a run are found by going along what is left behind its first gate. -/
theorem exists_takeRun [Add α] {last : ι} {entries : List ι} {axis : Axis} {qubit : Int}
    {angle : α} (total : α) (intact : Intact gateAt (last :: entries))
    (rotation : (gateAt last).operation = .rotation axis qubit angle) :
    ∃ run, run.Sublist entries ∧ (last :: run).IsChain (Continues gateAt) ∧
      (∀ final ∈ (last :: run).getLast?, ∀ after, ¬ Continues gateAt final after) ∧
      takeRun axis qubit total (entries.map gateAt) =
        (runSum gateAt total run, (entries.filter (· ∉ run)).map gateAt) := by
  induction entries generalizing last total angle with
  | nil =>
      refine ⟨[], .slnil, .singleton last, ?_, rfl⟩
      rintro _ ⟨⟩ after continues
      exact List.not_mem_nil (intact.mem_of_neighbours continues.neighbours)
  | cons entry entries ih =>
      have meets := Gate.overlaps_of_rotation rotation (gateAt entry)
      rcases run_cases axis qubit (gateAt entry) with clear | ⟨angle', member⟩ | ⟨on, other⟩
      · obtain ⟨run, sublist, linked, stop, taken⟩ :=
          ih total (intact.skip (meets.trans clear)) rotation
        refine ⟨run, sublist.cons entry, linked, stop, ?_⟩
        rw [List.map_cons, takeRun_cons_of_clear total _ clear, taken,
          (filter_notMem_cons_of_sublist intact.tail.ordered sublist).1, List.map_cons]
      · have next := intact.neighbours_of_next (Gate.overlaps_of_rotations rotation member)
        obtain ⟨run, sublist, linked, stop, taken⟩ := ih (total + angle') intact.tail member
        refine ⟨entry :: run, sublist.cons_cons entry, List.isChain_cons_cons.mpr
          ⟨⟨next, axis, qubit, angle, angle', rotation, member⟩, linked⟩, ?_, ?_⟩
        · rwa [List.getLast?_cons_cons]
        · rw [List.map_cons, takeRun_cons_of_member total _ member, taken,
            runSum_cons total run member,
            (filter_notMem_cons_of_sublist intact.tail.ordered sublist).2]
      · have next := intact.neighbours_of_next (meets.trans on)
        refine ⟨[], List.nil_sublist _, .singleton last, ?_, ?_⟩
        · rintro _ ⟨⟩ after continues
          obtain rfl := continues.neighbours.unique next
          obtain ⟨angle', member⟩ := continues.rotation_of_first rotation
          exact other angle' member
        · rw [List.map_cons, takeRun_cons_of_stop total _ on other, filter_notMem_nil]
          rfl

end Steps

/-! ## What stands between runs -/

/-- Between two runs about one axis on one qubit stands a gate on that qubit to which nothing leads:
the neighbour of the last member of the first run. -/
theorem exists_between_runs [WellFoundedLT ι] {first second : ι} {others : List ι} {axis : Axis}
    {qubit : Int} {angle angle' : α} (linked : (first :: others).IsChain (Continues gateAt))
    (stop : ∀ last ∈ (first :: others).getLast?, ∀ after, ¬ Continues gateAt last after)
    (start : ∀ before, ¬ Continues gateAt before second) (behind : first < second)
    (rotation : (gateAt first).operation = .rotation axis qubit angle)
    (rotation' : (gateAt second).operation = .rotation axis qubit angle') :
    ∃ between, first < between ∧ between < second ∧ qubit ∈ (gateAt between).qubits ∧
      ∀ before, ¬ Continues gateAt before between := by
  have meet := Gate.overlaps_of_rotations rotation rotation'
  induction others generalizing first angle with
  | nil =>
      obtain ⟨next, bound, neighbours⟩ := exists_neighbours behind meet
      have differ : next ≠ second := by
        rintro rfl
        exact start first ⟨neighbours, axis, qubit, angle, angle', rotation, rotation'⟩
      refine ⟨next, neighbours.later, lt_of_le_of_ne bound differ, ?_, fun before continues => ?_⟩
      · have meets := neighbours.meet
        rw [Gate.overlaps_of_rotation rotation] at meets
        simpa using meets
      · obtain rfl := continues.neighbours.eq_of_sameQubits continues.sameQubits neighbours
        exact stop _ rfl next continues
  | cons next others ih =>
      obtain ⟨step, rest⟩ := List.isChain_cons_cons.mp linked
      rw [List.getLast?_cons_cons] at stop
      obtain ⟨angle', member⟩ := step.rotation_of_first rotation
      have ahead : next < second := by
        refine lt_of_le_of_ne (step.neighbours.le_of_meet behind meet) ?_
        rintro rfl
        exact start first step
      obtain ⟨between, after, before, inside, unled⟩ :=
        ih rest stop ahead member (Gate.overlaps_of_rotations member rotation')
      exact ⟨between, step.neighbours.later.trans after, before, inside, unled⟩

omit [LinearOrder ι] in
/-- Two members of a result stem from two positions, and what is between them from positions
between those. -/
theorem exists_split_of_filterMap {β : Type} {image : ι → Option β} {positions : List ι}
    {before between after : List β} {first second : β}
    (split : positions.filterMap image = before ++ first :: (between ++ second :: after)) :
    ∃ front left middle right back, positions = front ++ left :: (middle ++ right :: back) ∧
      image left = some first ∧ image right = some second ∧ middle.filterMap image = between := by
  obtain ⟨front, rest, rfl, -, atFirst⟩ := List.filterMap_eq_append_iff.mp split
  obtain ⟨skipped, left, rest, rfl, -, imageLeft, inside⟩ := List.filterMap_eq_cons_iff.mp atFirst
  obtain ⟨middle, rest, rfl, imageMiddle, atSecond⟩ := List.filterMap_eq_append_iff.mp inside
  obtain ⟨skipped', right, back, rfl, missing, imageRight, -⟩ :=
    List.filterMap_eq_cons_iff.mp atSecond
  refine ⟨front ++ skipped, left, middle ++ skipped', right, back, by simp, imageLeft,
    imageRight, ?_⟩
  rw [List.filterMap_append, imageMiddle, List.filterMap_eq_nil_iff.mpr missing, List.append_nil]

theorem mem_of_pairwise_of_between {front middle back : List ι} {left right between : ι}
    (ordered : (front ++ left :: (middle ++ right :: back)).Pairwise (· < ·))
    (member : between ∈ front ++ left :: (middle ++ right :: back)) (behind : left < between)
    (ahead : between < right) : between ∈ middle := by
  obtain ⟨-, ordered, fronts⟩ := List.pairwise_append.mp ordered
  obtain ⟨-, ordered, -⟩ := List.pairwise_append.mp (List.pairwise_cons.mp ordered).2
  rcases List.mem_append.mp member with inFront | later
  · exact absurd (fronts between inFront left (.head _)) (lt_asymm behind)
  · rcases List.mem_cons.mp later with rfl | later
    · exact absurd behind (lt_irrefl _)
    · rcases List.mem_append.mp later with inside | later
      · exact inside
      · rcases List.mem_cons.mp later with rfl | inBack
        · exact absurd ahead (lt_irrefl _)
        · exact absurd ((List.pairwise_cons.mp ordered).1 between inBack) (lt_asymm ahead)

/-! ## The whole pass -/

/-- What is left is intact and holds whole runs. -/
structure Whole (gateAt : ι → Gate α) (positions : List ι) : Prop where
  intact : Intact gateAt positions
  started : ∀ second ∈ positions, ∀ first, Continues gateAt first second → first ∈ positions

namespace Whole

variable {first : ι} {rest : List ι}

theorem not_continues (whole : Whole gateAt (first :: rest)) :
    ∀ before, ¬ Continues gateAt before first := by
  intro before continues
  exact whole.intact.notMem_of_neighbours continues.neighbours
    (whole.started first (.head _) before continues)

/-- The run of the first gate goes, and the other runs stay whole. -/
theorem filter {others : List ι} (whole : Whole gateAt (first :: rest))
    (run : MaximalChain (Continues gateAt) (first :: others)) :
    Whole gateAt (rest.filter (· ∉ others)) where
  intact := by
    refine whole.intact.filter fun second goes => ?_
    obtain ⟨origin, inRun, continues⟩ := exists_link_of_mem run.linked second goes
    exact ⟨origin, inRun, continues.neighbours, continues.sameQubits⟩
  started := by
    intro second member origin continues
    obtain ⟨inRest, stays⟩ := List.mem_filter.mp member
    have outside : origin ∉ first :: others := fun inRun =>
      of_decide_eq_true stays (mem_of_link continues_biUnique.2 run.linked run.stop inRun continues)
    rw [List.mem_cons, not_or] at outside
    have left := whole.started second (.tail _ inRest) origin continues
    exact List.mem_filter.mpr
      ⟨(List.mem_cons.mp left).resolve_left outside.1, decide_eq_true outside.2⟩

end Whole

section Passes

variable [Add α] [BEq α] {negligible : α → Bool}

/-- What stands in the result for the gate at a position. -/
inductive Becomes (negligible : α → Bool) (gateAt : ι → Gate α) : ι → Option (Gate α) → Prop
  | same {position : ι} (other : (gateAt position).kind.isRotation = false) :
      Becomes negligible gateAt position (some (gateAt position))
  | nothing {before position : ι} (continues : Continues gateAt before position) :
      Becomes negligible gateAt position none
  | merged {position : ι} {others : List ι} {axis : Axis} {qubit : Int} {angle : α}
      (run : MaximalChain (Continues gateAt) (position :: others))
      (rotation : (gateAt position).operation = .rotation axis qubit angle) :
      Becomes negligible gateAt position
        (mergedGate? negligible (gateAt position) axis qubit angle (runSum gateAt angle others))

/-- One step of the pass takes the run of the first gate out. -/
theorem Whole.exists_step [WellFoundedLT ι] (negligible : α → Bool) {first : ι} {rest : List ι}
    (whole : Whole gateAt (first :: rest)) :
    ∃ others image, MaximalChain (Continues gateAt) (first :: others) ∧
      Becomes negligible gateAt first image ∧
      mergeRun negligible (gateAt first) (rest.map gateAt) =
        (image, (rest.filter (· ∉ others)).map gateAt) := by
  have start : ∀ {others : List ι}, ∀ head ∈ (first :: others).head?, ∀ before,
      ¬ Continues gateAt before head := by
    rintro others _ ⟨⟩
    exact whole.not_continues
  rcases (gateAt first).rotation_or_not with ⟨axis, qubit, angle, rotation⟩ | other
  · obtain ⟨others, -, linked, stop, taken⟩ := exists_takeRun angle whole.intact rotation
    have run : MaximalChain (Continues gateAt) (first :: others) := ⟨linked, start, stop⟩
    refine ⟨others, _, run, .merged run rotation, ?_⟩
    rw [mergeRun_of_rotation _ rotation, taken]
  · have stop : ∀ last ∈ [first].getLast?, ∀ after, ¬ Continues gateAt last after := by
      rintro _ ⟨⟩ after continues
      exact Bool.false_ne_true (other.symm.trans continues.isRotation.1)
    refine ⟨[], _, ⟨.singleton first, start, stop⟩, .same other, ?_⟩
    rw [mergeRun_of_not_rotation _ other, filter_notMem_nil]

/-- The pass over what is left makes of each gate what becomes of it, and each gate is in a run. -/
structure Merged (negligible : α → Bool) (gateAt : ι → Gate α) (positions : List ι)
    (image : ι → Option (Gate α)) : Prop where
  pass : mergeRotations negligible (positions.map gateAt) = positions.filterMap image
  becomes : ∀ position ∈ positions, Becomes negligible gateAt position (image position)
  inRun : ∀ position ∈ positions, ∃ run, MaximalChain (Continues gateAt) run ∧ position ∈ run

/-- The run of the first gate is merged, and then the others. -/
theorem Merged.cons {first : ι} {rest others : List ι} {merged : Option (Gate α)}
    {image : ι → Option (Gate α)} (ordered : (first :: rest).Pairwise (· < ·))
    (run : MaximalChain (Continues gateAt) (first :: others))
    (becomes : Becomes negligible gateAt first merged)
    (step : mergeRun negligible (gateAt first) (rest.map gateAt) =
      (merged, (rest.filter (· ∉ others)).map gateAt))
    (later : Merged negligible gateAt (rest.filter (· ∉ others)) image) :
    Merged negligible gateAt (first :: rest) fun position =>
      if position = first then merged else if position ∈ others then none else image position := by
  have differ : ∀ position ∈ rest, position ≠ first := fun position member =>
    ((List.pairwise_cons.mp ordered).1 position member).ne'
  refine ⟨?_, List.forall_mem_cons.mpr ⟨?_, fun position member => ?_⟩,
    List.forall_mem_cons.mpr ⟨⟨_, run, .head _⟩, fun position member => ?_⟩⟩
  · have others : (rest.filter (· ∉ others)).filterMap image = rest.filterMap fun position =>
        if position = first then merged else if position ∈ others then none
        else image position := by
      rw [List.filterMap_filter]
      refine List.filterMap_congr fun position member => ?_
      by_cases goes : position ∈ others <;> simp [goes, differ position member]
    rw [List.map_cons, mergeRotations_cons, step, later.pass, others, List.filterMap_cons]
    cases merged <;> simp
  · rwa [if_pos rfl]
  · rw [if_neg (differ position member)]
    split
    · rename_i goes
      obtain ⟨origin, -, continues⟩ := exists_link_of_mem run.linked position goes
      exact .nothing continues
    · rename_i stays
      exact later.becomes position (List.mem_filter.mpr ⟨member, decide_eq_true stays⟩)
  · by_cases goes : position ∈ others
    · exact ⟨_, run, .tail _ goes⟩
    · exact later.inRun position (List.mem_filter.mpr ⟨member, decide_eq_true goes⟩)

theorem exists_images [WellFoundedLT ι] (negligible : α → Bool) {positions : List ι}
    (whole : Whole gateAt positions) : ∃ image, Merged negligible gateAt positions image := by
  induction positions using sublist_induction with
  | nil => exact ⟨fun _ => none, by simp, by simp, by simp⟩
  | cons first rest ih =>
      obtain ⟨others, merged, run, becomes, step⟩ := whole.exists_step negligible
      obtain ⟨image, later⟩ := ih _ List.filter_sublist (whole.filter run)
      exact ⟨_, .cons whole.intact.ordered run becomes step later⟩

namespace Becomes

variable {position : ι} {image : Option (Gate α)}

theorem eq_some_of_not_rotation (becomes : Becomes negligible gateAt position image)
    (other : (gateAt position).kind.isRotation = false) : image = some (gateAt position) := by
  cases becomes with
  | same => rfl
  | nothing continues => exact absurd continues.isRotation.2 (Bool.eq_false_iff.mp other)
  | merged run rotation => exact absurd rotation (Gate.operation_ne_rotation other)

theorem eq_none_of_continues {before : ι} (becomes : Becomes negligible gateAt position image)
    (continues : Continues gateAt before position) : image = none := by
  cases becomes with
  | same other => exact absurd continues.isRotation.2 (Bool.eq_false_iff.mp other)
  | nothing => rfl
  | merged run => exact absurd continues (run.start position rfl before)

theorem eq_mergedGate? {others : List ι} {axis : Axis} {qubit : Int} {angle : α}
    (becomes : Becomes negligible gateAt position image)
    (run : MaximalChain (Continues gateAt) (position :: others))
    (rotation : (gateAt position).operation = .rotation axis qubit angle) :
    image = mergedGate? negligible (gateAt position) axis qubit angle
      (runSum gateAt angle others) := by
  cases becomes with
  | same other => exact absurd rotation (Gate.operation_ne_rotation other)
  | nothing continues => exact absurd continues (run.start position rfl _)
  | merged run' rotation' =>
      obtain ⟨rfl, rfl, rfl⟩ := Operation.rotation.inj (rotation.symm.trans rotation')
      rw [eq_of_isChain continues_biUnique.2 run.linked run.stop run'.linked run'.stop]

/-- Where nothing leads to, something stands unless a run vanishes. -/
theorem exists_some (becomes : Becomes negligible gateAt position image)
    (unled : ∀ before, ¬ Continues gateAt before position)
    (remains : ∀ others, MaximalChain (Continues gateAt) (position :: others) → image ≠ none) :
    ∃ gate, image = some gate := by
  refine Option.ne_none_iff_exists'.mp ?_
  cases becomes with
  | same => exact Option.some_ne_none _
  | nothing continues => exact absurd continues (unled _)
  | merged run => exact remains _ run

theorem sameOperands {gate : Gate α} (becomes : Becomes negligible gateAt position image)
    (kept : image = some gate) : gate.SameOperands (gateAt position) := by
  cases becomes with
  | same =>
      obtain rfl := Option.some.inj kept
      exact .refl _
  | nothing => cases kept
  | merged run rotation => exact mergedGate?_sameOperands rotation kept

theorem exists_run {gate : Gate α} {axis : Axis} {qubit : Int} {angle : α}
    (becomes : Becomes negligible gateAt position image) (kept : image = some gate)
    (rotation : gate.operation = .rotation axis qubit angle) :
    ∃ others angle', MaximalChain (Continues gateAt) (position :: others) ∧
      (gateAt position).operation = .rotation axis qubit angle' := by
  obtain ⟨angle', origin⟩ := (becomes.sameOperands kept).exists_rotation rotation
  cases becomes with
  | same other => exact absurd origin (Gate.operation_ne_rotation other)
  | nothing => cases kept
  | merged run => exact ⟨_, angle', run, origin⟩

/-- A rotation in the result counts, as its angle is as a number the sum that was tested. -/
theorem active {gate : Gate α} {axis : Axis} {qubit : Int} {angle : α}
    (alike : ∀ left right : α, (left == right) = true → negligible left = negligible right)
    (becomes : Becomes negligible gateAt position image) (kept : image = some gate)
    (rotation : gate.operation = .rotation axis qubit angle) : negligible angle = false := by
  cases becomes with
  | same other =>
      obtain rfl := Option.some.inj kept
      exact absurd rotation (Gate.operation_ne_rotation other)
  | nothing => cases kept
  | merged run first =>
      unfold mergedGate? at kept
      split at kept
      · cases kept
      · rename_i counts
        rw [Bool.not_eq_true] at counts
        split at kept
        · rename_i equal
          obtain rfl := Option.some.inj kept
          obtain ⟨rfl, rfl, rfl⟩ := Operation.rotation.inj (rotation.symm.trans first)
          rw [← alike _ _ equal, counts]
        · obtain rfl := Option.some.inj kept
          obtain ⟨rfl, rfl, rfl⟩ := Operation.rotation.inj rotation
          exact counts

end Becomes

/-! ## If no run vanishes -/

/-- No two rotations of a result could still be merged if no run has vanished. -/
theorem Merged.runsMerged [WellFoundedLT ι] {positions : List ι} {image : ι → Option (Gate α)}
    (merged : Merged negligible gateAt positions image) (ordered : positions.Pairwise (· < ·))
    (all : ∀ position, position ∈ positions)
    (remains : ∀ first others, MaximalChain (Continues gateAt) (first :: others) →
      image first ≠ none) : RunsMerged (positions.filterMap image) := by
  intro before first between second after axis qubit angle angle' split shape shape'
  obtain ⟨front, left, middle, right, back, rfl, imageLeft, imageRight, rfl⟩ :=
    exists_split_of_filterMap split
  have becomes := fun position => merged.becomes position (all position)
  obtain ⟨others, _, run, rotation⟩ := (becomes left).exists_run imageLeft shape
  obtain ⟨others', _, run', rotation'⟩ := (becomes right).exists_run imageRight shape'
  have behind : left < right :=
    (List.pairwise_cons.mp (List.pairwise_append.mp ordered).2.1).1 right (by simp)
  obtain ⟨between, after, ahead, on, unled⟩ := exists_between_runs run.linked run.stop
    (run'.start right rfl) behind rotation rotation'
  obtain ⟨gate, kept⟩ := (becomes between).exists_some unled (remains between)
  refine ⟨gate, List.mem_filterMap.mpr ⟨between, ?_, kept⟩, ?_⟩
  · exact mem_of_pairwise_of_between ordered (all between) after ahead
  · rwa [((becomes between).sameOperands kept).qubits]

end Passes

end Reduction

namespace Optimizer

open Reduction

/-- Every gate is in one run; a gate that is no rotation is a run of its own. A merging pass puts at
the place of the first member of a run of rotations one rotation by the sum of the angles, taken in
order, with the annotations of the first member; the first member itself if the sum equals its
angle; and nothing if the sum is below the tolerance. The other members go, and all other gates stay
as they are. If no run vanishes, then no two rotations in the result could still be merged, and
another pass leaves it as it is. -/
theorem merging_replaces_runs (tolerance : Float) (gates : List (Gate Float)) :
    Relator.BiUnique (Continues gates.get) ∧
      (∀ position, ∃! run, MaximalChain (Continues gates.get) run ∧ position ∈ run) ∧
      ∃ image : Fin gates.length → Option (Gate Float),
        applyPass (some tolerance) .mergeRotations gates =
            .ok ((List.finRange gates.length).filterMap image) ∧
          (∀ position, (gates.get position).kind.isRotation = false →
            image position = some (gates.get position)) ∧
          (∀ first second, Continues gates.get first second → image second = none) ∧
          (∀ first others axis qubit angle,
            MaximalChain (Continues gates.get) (first :: others) →
            (gates.get first).operation = .rotation axis qubit angle →
            image first =
              if Angle.isBelow tolerance (runSum gates.get angle others) then none
              else if runSum gates.get angle others == angle then some (gates.get first)
              else some ⟨.rotation axis qubit (runSum gates.get angle others),
                (gates.get first).annotations⟩) ∧
          ((∀ first others, MaximalChain (Continues gates.get) (first :: others) →
              image first ≠ none) →
            RunsMerged ((List.finRange gates.length).filterMap image) ∧
              applyPass (some tolerance) .mergeRotations
                  ((List.finRange gates.length).filterMap image) =
                .ok ((List.finRange gates.length).filterMap image)) := by
  have whole : Whole gates.get (List.finRange gates.length) :=
    ⟨intact_finRange gates.get, fun _ _ first _ => List.mem_finRange first⟩
  have alike : ∀ left right : Float, (left == right) = true →
      Angle.isBelow tolerance left = Angle.isBelow tolerance right := by
    intro left right equal
    change decide (left.abs < tolerance) = decide (right.abs < tolerance)
    rw [Double.abs_eq_of_beq equal]
  obtain ⟨image, merged⟩ := exists_images (Angle.isBelow tolerance) whole
  have becomes := fun position => merged.becomes position (List.mem_finRange position)
  have pass := merged.pass
  rw [List.map_get_finRange] at pass
  have oneRun : ∀ position, ∃! run, MaximalChain (Continues gates.get) run ∧ position ∈ run := by
    intro position
    obtain ⟨run, maximal, member⟩ := merged.inRun position (List.mem_finRange position)
    exact ⟨run, ⟨maximal, member⟩, fun _ other =>
      other.1.eq_of_mem continues_biUnique maximal other.2 member⟩
  refine ⟨continues_biUnique, oneRun, image, congrArg Except.ok pass,
    fun position => (becomes position).eq_some_of_not_rotation,
    fun first second => (becomes second).eq_none_of_continues,
    fun first others axis qubit angle => (becomes first).eq_mergedGate?, fun remains => ?_⟩
  have runsMerged := merged.runsMerged (List.pairwise_lt_finRange _) List.mem_finRange remains
  refine ⟨runsMerged, congrArg Except.ok (mergeRotations_eq_self_of_runsMerged runsMerged ?_)⟩
  intro gate member axis qubit angle rotation
  obtain ⟨position, -, kept⟩ := List.mem_filterMap.mp member
  exact (becomes position).active alike kept rotation

end Optimizer

end Peephole
