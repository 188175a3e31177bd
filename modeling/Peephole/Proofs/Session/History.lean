import Peephole.Proofs.Circuit.Soundness
import Peephole.Session.Step

/-!
# Circuits over the history of a session

Every way into a circuit checks what it adds, so all circuits of a session are sound after any
steps, those that fail included (`sound_after`). A step that fails changes nothing, unless it
adds gates in a batch, to one circuit: then the batch has been added as far as it would do.
`circuits_stay_sound` says both of every history.
-/

namespace Peephole

/-! ## Calls -/

namespace Circuit

theorem Sound.call {circuit : Circuit Float} (sound : circuit.Sound) (method : Method)
    (arguments : List Datum) : (circuit.call method arguments).1.1.Sound := by
  unfold Circuit.call
  split
  · exact sound.build _ _
  · exact sound.extend _
  · exact sound.extendFrom _
  · exact sound.add _ _ _
  · split <;> exact sound
  all_goals exact sound

end Circuit

/-! ## Slots -/

/-- What a key is compared by. -/
inductive Key.Place where
  | null
  | text (value : String)
  | number (position : Number.Position)
  deriving DecidableEq

def Key.place : Key → Place
  | .null => .null
  | .text value => .text value
  | .bool value => .number (Number.int (if value then 1 else 0)).position
  | .int value => .number (Number.int value).position
  | .float value => .number (Number.float value).position

theorem Key.same_iff {left right : Key} :
    left.same right = true ↔ left.place = right.place ∧ left.place ≠ .number .undefined := by
  cases left <;> cases right <;> simp [same, place, number?, Number.same]

namespace Session

/-- All circuits of a session are sound. -/
def Sound (session : Session) : Prop :=
  ∀ entry ∈ session, entry.2.Sound

theorem Sound.of_find? {session : Session} (sound : session.Sound) {slot : Key}
    {circuit : Circuit Float} (found : session.find? slot = some circuit) : circuit.Sound := by
  obtain ⟨entry, first, rfl⟩ := Option.map_eq_some_iff.mp found
  exact sound entry (List.mem_of_find?_eq_some first)

theorem find?_of_get {session : Session} {slot : Key} {circuit : Circuit Float}
    (found : session.get slot = .ok circuit) : session.find? slot = some circuit := by
  unfold get at found
  split at found
  · rename_i present
    rw [present, Except.ok.inj found]
  · cases found

theorem get_of_find? {session : Session} {slot : Key} {circuit : Circuit Float}
    (found : session.find? slot = some circuit) : session.get slot = .ok circuit := by
  rw [get, found]

theorem Sound.put {session : Session} (sound : session.Sound) (slot : Key)
    {circuit : Circuit Float} (new : circuit.Sound) : (session.put slot circuit).Sound := by
  induction session with
  | nil => exact List.forall_mem_singleton.mpr new
  | cons entry session ih =>
      obtain ⟨present, old⟩ := entry
      obtain ⟨first, rest⟩ := List.forall_mem_cons.mp sound
      unfold Session.put
      split
      · exact List.forall_mem_cons.mpr ⟨new, rest⟩
      · exact List.forall_mem_cons.mpr ⟨first, ih rest⟩

/-- Putting back what is in a slot changes nothing. -/
theorem put_of_find? {session : Session} {slot : Key} {circuit : Circuit Float}
    (found : session.find? slot = some circuit) : session.put slot circuit = session := by
  induction session with
  | nil => cases found
  | cons entry session ih =>
      obtain ⟨present, old⟩ := entry
      unfold put
      unfold find? at found ih
      rw [List.find?_cons] at found
      split
      · rename_i same
        rw [same] at found
        obtain rfl : old = circuit := Option.some.inj found
        rfl
      · rename_i differ
        rw [Bool.not_eq_true] at differ
        rw [differ] at found
        rw [ih found]

/-- A circuit that is put into a slot leaves the other slots as they are. -/
theorem find?_put_of_ne (session : Session) {slot kept : Key} (circuit : Circuit Float)
    (differ : slot.same kept = false) :
    (session.put slot circuit).find? kept = session.find? kept := by
  unfold find?
  congr 1
  induction session with
  | nil => rw [put, List.find?_singleton, differ, List.find?_nil, if_neg Bool.false_ne_true]
  | cons entry session ih =>
      obtain ⟨present, old⟩ := entry
      unfold put
      split
      · rename_i isSlot
        have elsewhere : present.same kept = false := by
          have place : present.place = slot.place := (Key.same_iff.mp isSlot).1
          rwa [← Bool.not_eq_true, Key.same_iff, ← place, ← Key.same_iff, Bool.not_eq_true]
            at differ
        rw [List.find?_cons, List.find?_cons, elsewhere]
      · rw [List.find?_cons, List.find?_cons, ih]

/-! ## Outcomes -/

/-- The circuit that a step leaves somewhere is sound. -/
def Outcome.Sound : Outcome → Prop
  | .store _ circuit | .edited _ circuit _ _ => circuit.Sound
  | .answer _ => True

/-- A circuit keeps its gates when a value is put among its annotations. -/
theorem sound_of_withNote {circuit noted : Circuit Float} (sound : circuit.Sound) {path : Datum}
    {value : Except Fault Datum} (made : withNote circuit path value = .ok noted) :
    noted.Sound := by
  obtain ⟨items, -, made⟩ := bind_eq_ok made
  obtain ⟨reached, -, made⟩ := bind_eq_ok made
  obtain ⟨value, -, made⟩ := bind_eq_ok made
  obtain ⟨last, -, made⟩ := bind_eq_ok made
  obtain ⟨assigned, -, made⟩ := bind_eq_ok made
  split at made
  · obtain rfl := Except.ok.inj made
    exact sound.relabelled _
  · cases made

/-- A derived circuit is sound wherever it goes. -/
theorem sound_of_store {destination : Except Fault Key} {derived : Circuit Float}
    {outcome : Outcome} (sound : derived.Sound)
    (stored : (do return .store (← destination) derived) = Except.ok outcome) :
    outcome.Sound := by
  obtain ⟨slot, -, stored⟩ := bind_eq_ok stored
  obtain rfl := Except.ok.inj stored
  exact sound

/-- What is called by name is a method, and the outcome is that of its call. -/
theorem exists_of_callNamed {slot : Key} {circuit : Circuit Float} {method arguments : Datum}
    {outcome : Outcome} (made : callNamed slot circuit method arguments = .ok outcome) :
    ∃ name named items, method = .text name ∧ Method.ofName? name = some named ∧
      arguments.elements = .ok items ∧
      outcome = .edited slot (circuit.call named items).1.1 (circuit.call named items).1.2
        (.bool (circuit.call named items).2) := by
  cases method with
  | text name =>
      unfold callNamed at made
      dsimp only at made
      split at made
      · rename_i named meant
        obtain ⟨items, listed, made⟩ := bind_eq_ok made
        exact ⟨name, named, items, rfl, meant, listed, (Except.ok.inj made).symm⟩
      · cases made
  | null | bool | int | float | list | map => cases made

theorem Deed.sound_of_outcome {settings : Settings} {session : Session} {slot : Key}
    {destination : Except Fault Key} {circuit : Circuit Float} {deed : Deed} {outcome : Outcome}
    (sound : circuit.Sound)
    (made : deed.outcome settings session slot destination circuit = .ok outcome) :
    outcome.Sound := by
  cases deed with
  | append | appendMap =>
      obtain rfl := Except.ok.inj made
      exact sound.extend _
  | add =>
      obtain rfl := Except.ok.inj made
      exact sound.add _ _ _
  | extend =>
      obtain rfl := Except.ok.inj made
      exact sound.extendFrom _
  | call =>
      obtain ⟨name, named, items, -, -, -, rfl⟩ := exists_of_callNamed made
      exact sound.call named items
  | rename =>
      obtain rfl := Except.ok.inj made
      exact sound.relabelled _
  | annotate =>
      obtain ⟨noted, written, made⟩ := bind_eq_ok made
      obtain rfl := Except.ok.inj made
      exact sound_of_withNote sound written
  | copy =>
      obtain ⟨derived, built, made⟩ := bind_eq_ok made
      exact sound_of_store (sound.of_withGates built) made
  | inverse =>
      obtain ⟨derived, built, made⟩ := bind_eq_ok made
      exact sound_of_store (sound.of_inverse built) made
  | compose =>
      obtain ⟨second, -, made⟩ := bind_eq_ok made
      obtain ⟨derived, built, made⟩ := bind_eq_ok made
      exact sound_of_store (sound.of_compose built) made
  | withGates =>
      obtain ⟨items, -, made⟩ := bind_eq_ok made
      obtain ⟨gates, -, made⟩ := bind_eq_ok made
      obtain ⟨derived, built, made⟩ := bind_eq_ok made
      exact sound_of_store (sound.of_withGates built) made
  | optimize =>
      obtain ⟨optimizer, -, made⟩ := bind_eq_ok made
      obtain ⟨derived, built, made⟩ := bind_eq_ok made
      exact sound_of_store (sound.of_optimize built) made
  | same =>
      obtain ⟨other, -, made⟩ := bind_eq_ok made
      obtain rfl := Except.ok.inj made
      trivial
  | gates | gateCounts | layers | document =>
      obtain rfl := Except.ok.inj made
      trivial

/-! ## Batches -/

/-- The gates that a collection of maps describes; none if it is no collection. -/
def gatesIn (maps : Datum) : List (Except Fault (Gate Float)) :=
  match maps.elements with
  | .ok items => items.map Gate.ofDatum
  | .error _ => []

/-- The gates that a deed adds to a circuit one after the other, if it adds a batch. -/
def Deed.batch? (circuit : Circuit Float) : Deed → Option (List (Except Fault (Gate Float)))
  | .extend maps => some (gatesIn maps)
  | .call (.text name) arguments =>
    match Method.ofName? name, arguments.elements with
    | some .extend, .ok [maps] => some (gatesIn maps)
    | some (.build .measureAll), .ok [] =>
      some ((Circuit.measurements circuit.registers.qubits).map .ok)
    | _, _ => none
  | _ => none

/-- A batch of gates for the circuit in a slot. -/
structure Batch where
  slot : Key
  circuit : Circuit Float
  given : List (Except Fault (Gate Float))

/-- The batch that a step adds to a circuit of a session, if it adds one. -/
def Step.batch? (session : Session) (step : Step) : Option Batch :=
  match step.slot, step.action with
  | .ok slot, .ok (.work (.ok deed)) =>
    (session.find? slot).bind fun circuit =>
      (deed.batch? circuit).map fun given => ⟨slot, circuit, given⟩
  | _, _ => none

theorem fst_extendFrom (circuit : Circuit Float) (maps : Datum) :
    (circuit.extendFrom maps).1 = (circuit.extend (gatesIn maps)).1 := by
  unfold Circuit.extendFrom gatesIn
  cases maps.elements <;> rfl

/-- A batch is added as far as it will do, and nothing else happens. -/
theorem Deed.outcome_of_batch? (settings : Settings) (session : Session) (slot : Key)
    (destination : Except Fault Key) {circuit : Circuit Float} {deed : Deed}
    {given : List (Except Fault (Gate Float))} (batch : deed.batch? circuit = some given) :
    ∃ fault answer, deed.outcome settings session slot destination circuit =
      .ok (.edited slot (circuit.extend given).1 fault answer) := by
  cases deed with
  | extend maps =>
      obtain rfl := Option.some.inj batch
      rw [← fst_extendFrom]
      exact ⟨_, _, rfl⟩
  | call method arguments =>
      cases method with
      | text name =>
          rw [batch?] at batch
          split at batch
          · rename_i maps named listed
            obtain rfl := Option.some.inj batch
            rw [← fst_extendFrom]
            simp only [outcome, callNamed, named, listed, Circuit.call, bind, Except.bind]
            exact ⟨_, _, rfl⟩
          · rename_i named listed
            obtain rfl := Option.some.inj batch
            rw [← Circuit.measureAll_eq]
            simp only [outcome, callNamed, named, listed, Circuit.call, bind, Except.bind]
            exact ⟨_, _, rfl⟩
          · cases batch
      | null | bool | int | float | list | map => cases batch
  | append | appendMap | add | rename | annotate | copy | inverse | compose | withGates | optimize
  | same | gates | gateCounts | layers | document => cases batch

/-! ## Failures -/

theorem allOrNothing_build (circuit : Circuit Float) {builder : Builder} {items : List Datum}
    (single : builder = .measureAll → items ≠ []) :
    circuit.AllOrNothing (circuit.build builder items) := by
  unfold Circuit.build
  split
  · split
    · exact Circuit.allOrNothing_extend_singleton circuit _
    · exact Circuit.allOrNothing_unchanged circuit _
  · exact Circuit.allOrNothing_extend_singleton circuit _
  · exact Circuit.allOrNothing_extend_singleton circuit _
  · exact Circuit.allOrNothing_extend_singleton circuit _
  · exact absurd rfl (single rfl)
  · exact Circuit.allOrNothing_unchanged circuit _
  · exact Circuit.allOrNothing_unchanged circuit _

theorem allOrNothing_call (circuit : Circuit Float) {method : Method} {items : List Datum}
    (single : ∀ maps, method = .extend → items ≠ [maps])
    (alone : method = .build .measureAll → items ≠ []) :
    circuit.AllOrNothing (circuit.call method items).1 := by
  unfold Circuit.call
  split
  · exact allOrNothing_build circuit fun isMeasureAll => alone (congrArg _ isMeasureAll)
  · exact Circuit.allOrNothing_extend_singleton circuit _
  · exact absurd rfl (single _ rfl)
  · exact Circuit.allOrNothing_extend_singleton circuit _
  · split <;> exact Circuit.allOrNothing_unchanged circuit _
  all_goals exact Circuit.allOrNothing_unchanged circuit _

/-- An edit is an edit of the circuit in the slot, and unless it adds a batch it fails without
having changed anything. -/
def Outcome.Edits (slot : Key) (circuit : Circuit Float) : Outcome → Prop
  | .edited place changed fault _ => place = slot ∧ circuit.AllOrNothing (changed, fault)
  | .store _ _ | .answer _ => True

theorem edits_of_store {slot : Key} {circuit : Circuit Float} {destination : Except Fault Key}
    {derived : Circuit Float} {outcome : Outcome}
    (stored : (do return .store (← destination) derived) = Except.ok outcome) :
    outcome.Edits slot circuit := by
  obtain ⟨place, -, stored⟩ := bind_eq_ok stored
  obtain rfl := Except.ok.inj stored
  trivial

theorem Deed.edits_of_outcome {settings : Settings} {session : Session} {slot : Key}
    {destination : Except Fault Key} {circuit : Circuit Float} {deed : Deed} {outcome : Outcome}
    (single : deed.batch? circuit = none)
    (made : deed.outcome settings session slot destination circuit = .ok outcome) :
    outcome.Edits slot circuit := by
  cases deed with
  | append | appendMap | add =>
      obtain rfl := Except.ok.inj made
      exact ⟨rfl, Circuit.allOrNothing_extend_singleton circuit _⟩
  | extend => cases single
  | call =>
      obtain ⟨name, method, items, rfl, named, listed, rfl⟩ := exists_of_callNamed made
      rw [batch?, named, listed] at single
      refine ⟨rfl, allOrNothing_call circuit ?_ ?_⟩
      · rintro maps rfl rfl
        cases single
      · rintro rfl rfl
        cases single
  | rename =>
      obtain rfl := Except.ok.inj made
      exact ⟨rfl, fun failed => absurd rfl failed⟩
  | annotate =>
      obtain ⟨noted, -, made⟩ := bind_eq_ok made
      obtain rfl := Except.ok.inj made
      exact ⟨rfl, fun failed => absurd rfl failed⟩
  | copy | inverse =>
      obtain ⟨derived, -, made⟩ := bind_eq_ok made
      exact edits_of_store made
  | compose | optimize =>
      obtain ⟨needed, -, made⟩ := bind_eq_ok made
      obtain ⟨derived, -, made⟩ := bind_eq_ok made
      exact edits_of_store made
  | withGates =>
      obtain ⟨items, -, made⟩ := bind_eq_ok made
      obtain ⟨gates, -, made⟩ := bind_eq_ok made
      obtain ⟨derived, -, made⟩ := bind_eq_ok made
      exact edits_of_store made
  | same =>
      obtain ⟨other, -, made⟩ := bind_eq_ok made
      obtain rfl := Except.ok.inj made
      trivial
  | gates | gateCounts | layers | document =>
      obtain rfl := Except.ok.inj made
      trivial

/-! ## Steps -/

theorem Origin.sound_of_circuit {origin : Origin} {circuit : Circuit Float}
    (made : origin.circuit = .ok circuit) : circuit.Sound := by
  cases origin with
  | arguments named =>
      change createCircuit named = .ok circuit at made
      unfold createCircuit at made
      split at made
      · exact Circuit.sound_of_ofParts made
      · cases made
  | document datum => exact Circuit.sound_of_ofDatum made

theorem sound_of_outcome {settings : Settings} {session : Session} {step : Step}
    {outcome : Outcome} (sound : session.Sound)
    (made : session.outcome settings step = .ok outcome) : outcome.Sound := by
  obtain ⟨action, -, made⟩ := bind_eq_ok made
  cases action with
  | create origin =>
      obtain ⟨circuit, built, made⟩ := bind_eq_ok made
      exact sound_of_store (Origin.sound_of_circuit built) made
  | work deed =>
      obtain ⟨slot, -, made⟩ := bind_eq_ok made
      obtain ⟨circuit, found, made⟩ := bind_eq_ok made
      obtain ⟨deed, -, made⟩ := bind_eq_ok made
      obtain ⟨place, -, made⟩ := bind_eq_ok made
      exact Deed.sound_of_outcome (sound.of_find? (find?_of_get found)) made

theorem Sound.perform {session : Session} (sound : session.Sound) (settings : Settings)
    (step : Step) : (session.perform settings step).1.Sound := by
  unfold Session.perform
  split
  · rename_i made
    exact sound.put _ (sound_of_outcome sound made)
  · rename_i made
    exact sound.put _ (sound_of_outcome sound made)
  · rename_i made
    exact sound.put _ (sound_of_outcome sound made)
  · exact sound
  · exact sound

/-- A step that adds no batch edits the circuit that is in its slot, if it edits one at all. -/
theorem exists_edits_of_outcome {settings : Settings} {session : Session} {step : Step}
    {outcome : Outcome} (single : step.batch? session = none)
    (made : session.outcome settings step = .ok outcome) :
    (∃ slot circuit, outcome = .store slot circuit) ∨
      ∃ slot circuit, session.find? slot = some circuit ∧ outcome.Edits slot circuit := by
  obtain ⟨action, isAction, made⟩ := bind_eq_ok made
  cases action with
  | create origin =>
      obtain ⟨circuit, -, made⟩ := bind_eq_ok made
      obtain ⟨slot, -, made⟩ := bind_eq_ok made
      exact .inl ⟨slot, circuit, (Except.ok.inj made).symm⟩
  | work deed =>
      obtain ⟨slot, isSlot, made⟩ := bind_eq_ok made
      obtain ⟨circuit, found, made⟩ := bind_eq_ok made
      obtain ⟨deed, isDeed, made⟩ := bind_eq_ok made
      obtain ⟨place, isPlace, made⟩ := bind_eq_ok made
      obtain rfl := Except.ok.inj (isSlot.symm.trans isPlace)
      have present := find?_of_get found
      rw [Step.batch?, isSlot, isAction, isDeed] at single
      simp only [present, Option.bind_some, Option.map_eq_none_iff] at single
      exact .inr ⟨slot, circuit, present, Deed.edits_of_outcome single made⟩

/-- A step that adds no batch and fails changes nothing. -/
theorem perform_of_fault {settings : Settings} {session : Session} {step : Step} {fault : Fault}
    (single : step.batch? session = none)
    (failed : (session.perform settings step).2 = .error fault) :
    (session.perform settings step).1 = session := by
  unfold perform at failed ⊢
  split
  · rename_i made
    rw [made] at failed
    cases failed
  · rename_i made
    rw [made] at failed
    cases failed
  · rename_i slot changed told _ made
    rcases exists_edits_of_outcome single made with ⟨_, _, isStore⟩ | ⟨place, circuit, found, edits⟩
    · cases isStore
    · obtain ⟨rfl, kept⟩ := edits
      obtain rfl := kept (Option.some_ne_none told)
      exact put_of_find? found
  · rfl
  · rfl

/-- A step that adds a batch does nothing else. -/
theorem perform_of_batch? (settings : Settings) {session : Session} {step : Step} {batch : Batch}
    (adds : step.batch? session = some batch) :
    session.find? batch.slot = some batch.circuit ∧
      (session.perform settings step).1 =
        session.put batch.slot (batch.circuit.extend batch.given).1 := by
  unfold Step.batch? at adds
  split at adds
  · rename_i slot deed isSlot isAction
    obtain ⟨circuit, found, adds⟩ := Option.bind_eq_some_iff.mp adds
    obtain ⟨given, gives, rfl⟩ := Option.map_eq_some_iff.mp adds
    obtain ⟨told, answer, edited⟩ :=
      Deed.outcome_of_batch? settings session slot step.target gives
    have made : session.outcome settings step = .ok (.edited slot (circuit.extend given).1 told
        answer) := by
      simp only [Session.outcome, isAction, isSlot, get_of_find? found, bind, Except.bind, edited]
    refine ⟨found, ?_⟩
    unfold perform
    rw [made]
    cases told <;> rfl
  · cases adds

/-! ## Histories -/

/-- What an empty session has become after some steps. -/
def after (settings : Settings) (steps : List Step) : Session :=
  steps.foldl (fun session step => (session.perform settings step).1) []

theorem Sound.performAll {session : Session} (sound : session.Sound) (settings : Settings)
    (steps : List Step) :
    Sound (steps.foldl (fun session step => (session.perform settings step).1) session) := by
  induction steps generalizing session with
  | nil => exact sound
  | cons step steps ih => exact ih (sound.perform settings step)

theorem sound_after (settings : Settings) (steps : List Step) : (after settings steps).Sound := by
  have empty : Sound [] := fun _ member => absurd member List.not_mem_nil
  exact empty.performAll settings steps

/-- After any steps, failing ones included, every circuit is sound. If the next step fails, it has
changed nothing, unless it adds a batch of gates: then the circuit in its slot has its old gates and
after them the longest prefix of the batch in which every gate is acceptable. -/
theorem circuits_stay_sound (settings : Settings) (steps : List Step) :
    (∀ entry ∈ after settings steps, entry.2.Sound) ∧
      ∀ step fault, ((after settings steps).perform settings step).2 = .error fault →
        match step.batch? (after settings steps) with
        | none => ((after settings steps).perform settings step).1 = after settings steps
        | some batch =>
          (after settings steps).find? batch.slot = some batch.circuit ∧
            ∃ kept, batch.circuit.registers.LongestPrefix batch.given kept ∧
              ((after settings steps).perform settings step).1 =
                (after settings steps).put batch.slot
                  (batch.circuit.replaceGates (batch.circuit.gates ++ kept)) := by
  have sound := sound_after settings steps
  refine ⟨sound, fun step fault failed => ?_⟩
  cases adds : step.batch? (after settings steps) with
  | none => exact perform_of_fault adds failed
  | some batch =>
      obtain ⟨found, performed⟩ := perform_of_batch? settings adds
      obtain ⟨-, wellFormed⟩ := Circuit.sound_iff.mp (sound.of_find? found)
      obtain ⟨kept, longest, extended⟩ :=
        Circuit.extend_longestPrefix wellFormed batch.given
      exact ⟨found, kept, longest, by rw [performed, extended]⟩

/-- Two qubits and one classical bit, and the second qubit measured. -/
def prepared : List Step :=
  [⟨.ok (.text "a"), none, .text "a",
      .ok (.create (.arguments [(.text "num_qubits", .int 2), (.text "num_clbits", .int 1)]))⟩,
    ⟨.ok (.text "a"), none, .text "a",
      .ok (.work (.ok (.call (.text "measure") (.list [.int 1, .int 0]))))⟩]

def measuringAll : Step :=
  ⟨.ok (.text "a"), none, .text "a", .ok (.work (.ok (.call (.text "measure_all") (.list []))))⟩

/-- The first of the two measurements is kept: only the second has no classical bit. -/
theorem measured_halfway :
    ((after Settings.standard prepared).perform Settings.standard measuringAll).2 =
        .error (.clbitOutOfRange 1 1 "MEASURE [1] -> c[1]") ∧
      ∃ kept : List (Gate Float),
        Registers.LongestPrefix ⟨2, 1⟩ [.ok ⟨.measure 0 0, []⟩, .ok ⟨.measure 1 1, []⟩] kept ∧
          ((after Settings.standard prepared).perform Settings.standard measuringAll).1.map
            (fun entry => entry.2.gates) = [⟨.measure 1 0, []⟩ :: kept] := by
  have failed : ((after Settings.standard prepared).perform Settings.standard measuringAll).2 =
      .error (.clbitOutOfRange 1 1 "MEASURE [1] -> c[1]") := rfl
  obtain ⟨-, kept, longest, performed⟩ :=
    (circuits_stay_sound Settings.standard prepared).2 measuringAll _ failed
  exact ⟨failed, kept, longest, by rw [performed]; rfl⟩

end Session

end Peephole
