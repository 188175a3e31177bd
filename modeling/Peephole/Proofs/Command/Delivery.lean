import Mathlib.Data.List.Nodup
import Peephole.Proofs.Command.Desk
import Peephole.Proofs.Datum.Reading
import Peephole.Proofs.Files.Path
import Peephole.Proofs.Files.Tree
import Peephole.Proofs.Text.Encoding

/-!
# What the command leaves behind

The command prints a line for every circuit, in order, and writes every optimized circuit to a file
of the directory. The file is named after the stem of the path, and of the directories that the
path goes through there is nothing in the name, so circuits from different directories may share a
file. The last of them stays (`every_circuit_is_kept_iff`, `namesake_is_lost`).
-/

namespace Peephole

namespace Command

/-! ## The circuits that are asked for -/

theorem circuits_of_switchOn {options switched : Options} {flag : Flag}
    (made : switchOn options flag = .ok switched) : switched.circuits = options.circuits := by
  cases flag <;> cases made <;> rfl

theorem circuits_of_give {options given : Options} {flag : Flag} {text : String}
    (made : give options flag text = .ok given) : given.circuits = options.circuits := by
  cases flag with
  | device | target =>
      obtain ⟨value, -, made⟩ := bind_eq_ok made
      split at made <;> cases made
      rfl
  | level | workers | outputDirectory =>
      obtain ⟨value, -, made⟩ := bind_eq_ok made
      cases made
      rfl
  | help | fixedPoint | verbose => cases made

theorem plain_of_takeSteps {steps : List Step} {options taken : Options} {surplus : Bool}
    (plain : ∀ path ∈ options.circuits, path.Plain)
    (made : takeSteps options surplus steps = .ok taken) : ∀ path ∈ taken.circuits, path.Plain := by
  induction steps generalizing options surplus with
  | nil =>
      rw [takeSteps] at made
      split at made
      · cases made
      · obtain rfl := Except.ok.inj made
        exact plain
  | cons step steps ih =>
      cases step with
      | circuit text =>
          refine ih (fun path member => ?_) made
          rcases List.mem_append.mp member with earlier | same
          · exact plain path earlier
          · obtain rfl := List.mem_singleton.mp same
            exact Path.plain_ofText text
      | switch flag =>
          obtain ⟨switched, isSwitched, made⟩ := bind_eq_ok made
          rw [← circuits_of_switchOn isSwitched] at plain
          exact ih plain made
      | give flag value =>
          obtain ⟨given, isGiven, made⟩ := bind_eq_ok made
          rw [← circuits_of_give isGiven] at plain
          exact ih plain made
      | surplus => exact ih plain made
      | reject => cases made

/-- The paths of the circuits are made of names without slashes. -/
theorem plain_of_read {arguments : List String} {options : Options}
    (read : Options.read arguments = .ok options) : ∀ path ∈ options.circuits, path.Plain := by
  obtain ⟨classified, -, taken⟩ := bind_eq_ok read
  exact plain_of_takeSteps (fun _ member => absurd member List.not_mem_nil) taken

/-! ## Where circuits are written -/

/-- The name of the file for the optimized circuit of a file, as it is stored. -/
def storedName (path : Path) : String :=
  Text.joined (path.stem ++ ".optimized.json")

theorem storedNames_outputPath (directory : Path) {path : Path} (plain : path.Plain) :
    FileTree.storedNames (outputPath directory path) =
      FileTree.storedNames directory ++ [storedName path] := by
  have named : '/' ∉ (path.stem ++ ".optimized.json").toList := by
    rw [String.toList_append, List.mem_append, not_or]
    exact ⟨plain.stem, by decide⟩
  have long : 15 ≤ (path.stem ++ ".optimized.json").length := by
    rw [String.length_append]
    exact Nat.le_add_left _ _
  have isName : path.stem ++ ".optimized.json" ≠ "" := fun same => by
    rw [same] at long
    exact absurd long (by decide)
  have leads : path.stem ++ ".optimized.json" ≠ "." := fun same => by
    rw [same] at long
    exact absurd long (by decide)
  rw [FileTree.storedNames, outputPath, Path.child, Path.names_ofText named isName leads,
    List.map_append, List.map_singleton]
  rfl

theorem start_outputPath (directory path : Path) :
    FileTree.start (outputPath directory path) = FileTree.start directory :=
  rfl

/-- The names under which circuits are stored do not lead to directories. -/
theorem storedName_ne (path : Path) : storedName path ≠ "." ∧ storedName path ≠ ".." := by
  -- A lone mark at the end of the stem swallows the point. What is left is too long all the same.
  have unmarked : Text.halfMark ∉ '.' :: "optimized.json".toList := by decide
  obtain ⟨front, same⟩ := Text.exists_joined_append path.stem unmarked
  have long : 14 ≤ (storedName path).toList.length := by
    have grown := congrArg List.length same
    rw [List.length_append] at grown
    exact Nat.le_trans (Nat.le_add_left _ _) (Nat.le_of_eq grown.symm)
  refine ⟨fun short => ?_, fun short => ?_⟩ <;>
  · rw [short] at long
    exact absurd long (by decide)

/-- The stems of whole characters are told by the names of the files. -/
theorem stem_eq_of_storedName_eq {path other : Path} (whole : Text.halfMark ∉ path.stem.toList)
    (otherWhole : Text.halfMark ∉ other.stem.toList) (same : storedName path = storedName other) :
    path.stem = other.stem := by
  have stored {path : Path} (whole : Text.halfMark ∉ path.stem.toList) :
      storedName path = path.stem ++ ".optimized.json" := by
    refine Text.joined_eq_self ?_
    rw [String.toList_append, List.mem_append, not_or]
    exact ⟨whole, by decide⟩
  rw [stored whole, stored otherWhole] at same
  exact String.append_left_inj _ |>.mp same

/-- Two circuits are written to one place just if their files have one name. -/
theorem locate_outputPath_eq_iff {tree : FileTree} {directory path other : Path}
    {place elsewhere : Place} (plain : path.Plain) (otherPlain : other.Plain)
    (leads : tree.locate (outputPath directory path) = .ok place)
    (otherLeads : tree.locate (outputPath directory other) = .ok elsewhere) :
    place = elsewhere ↔ storedName path = storedName other := by
  obtain ⟨⟨⟩, -, leads⟩ := bind_eq_ok leads
  obtain ⟨⟨⟩, -, otherLeads⟩ := bind_eq_ok otherLeads
  rw [start_outputPath, storedNames_outputPath directory plain] at leads
  rw [start_outputPath, storedNames_outputPath directory otherPlain] at otherLeads
  obtain ⟨notPoint, notUp⟩ := storedName_ne path
  obtain ⟨otherPoint, otherUp⟩ := storedName_ne other
  obtain ⟨above, rfl, others⟩ := FileTree.exists_above_of_follow leads notPoint notUp
  rw [others _ _ otherPoint otherUp otherLeads, List.append_right_inj, List.cons.injEq]
  exact and_iff_left rfl

/-! ## One circuit after the other -/

section Deliveries

variable {directory : Path} {before after : Desk}

theorem exists_put_of_ends_deliver {path : Path} {compilation : Compilation Float Float}
    (ended : Ends (deliver (some directory) path compilation) before () after) :
    ∃ line text place, Json.write .plain (reportDatum compilation) = .ok line ∧
      compilation.optimized.toJson true (.indented 2) = .ok text ∧
      before.tree.locate (outputPath directory path) = .ok place ∧
      after = ⟨before.tree.put place text, before.lines ++ [line]⟩ := by
  obtain ⟨line, reported, rest⟩ := ends_of_ends_orThrow_bind ended
  obtain ⟨⟨⟩, _, printed, rest⟩ := ends_bind_iff.mp rest
  obtain rfl := ends_printLine_iff.mp printed
  obtain ⟨text, spelled, last⟩ := ends_of_ends_orThrow_bind rest
  obtain ⟨tree, wrote, rfl⟩ := ends_changeTree_iff.mp last
  obtain ⟨place, leads, -, -, rfl⟩ := FileTree.writeText_eq_ok_iff.mp wrote
  exact ⟨line, text, place, reported, spelled, leads, rfl⟩

variable {items earlier later : List (Path × Compilation Float Float)}

theorem directories_of_ends_deliverAll
    (ended : Ends (deliverAll (some directory) items) before () after) :
    after.tree.directories = before.tree.directories := by
  induction items generalizing before with
  | nil =>
      obtain ⟨-, rfl⟩ := ends_pure_iff.mp ended
      rfl
  | cons item items ih =>
      obtain ⟨⟨⟩, between, first, ended⟩ := ends_bind_iff.mp ended
      obtain ⟨line, text, place, -, -, -, rfl⟩ := exists_put_of_ends_deliver first
      rw [ih ended]
      rfl

/-- A line is printed for every circuit. -/
theorem lines_of_ends_deliverAll
    (ended : Ends (deliverAll (some directory) items) before () after)
    {report : Path → Except Fault String}
    (told : ∀ item ∈ items, report item.1 = Json.write .plain (reportDatum item.2)) :
    ∃ lines, (items.map Prod.fst).mapM report = .ok lines ∧
      after.lines = before.lines ++ lines := by
  induction items generalizing before with
  | nil =>
      obtain ⟨-, rfl⟩ := ends_pure_iff.mp ended
      exact ⟨[], rfl, (List.append_nil _).symm⟩
  | cons item items ih =>
      rw [List.forall_mem_cons] at told
      obtain ⟨⟨⟩, between, first, ended⟩ := ends_bind_iff.mp ended
      obtain ⟨line, text, place, reported, -, -, rfl⟩ := exists_put_of_ends_deliver first
      obtain ⟨lines, rest, same⟩ := ih ended told.2
      refine ⟨line :: lines, ?_, by rw [same, List.append_assoc, List.singleton_append]⟩
      rw [List.map_cons, List.mapM_cons, told.1, reported, rest]
      rfl

/-- What is written elsewhere leaves a file alone. -/
theorem file?_of_ends_deliverAll
    (ended : Ends (deliverAll (some directory) items) before () after) {place : Place}
    (apart : ∀ item ∈ items, after.tree.locate (outputPath directory item.1) ≠ .ok place) :
    after.tree.file? place = before.tree.file? place := by
  induction items generalizing before with
  | nil =>
      obtain ⟨-, rfl⟩ := ends_pure_iff.mp ended
      rfl
  | cons item items ih =>
      -- Places are compared in the tree at the end, which has the directories of all trees between.
      have same := directories_of_ends_deliverAll ended
      rw [List.forall_mem_cons] at apart
      obtain ⟨⟨⟩, between, first, ended⟩ := ends_bind_iff.mp ended
      obtain ⟨line, text, written, -, -, leads, rfl⟩ := exists_put_of_ends_deliver first
      have elsewhere : place ≠ written := by
        rintro rfl
        exact apart.1 (FileTree.locate_of_directories same leads)
      rw [ih ended apart.2, FileTree.file?_put, if_neg elsewhere]

theorem exists_between_of_ends_deliverAll
    (ended : Ends (deliverAll (some directory) (earlier ++ later)) before () after) :
    ∃ between, Ends (deliverAll (some directory) earlier) before () between ∧
      Ends (deliverAll (some directory) later) between () after := by
  induction earlier generalizing before with
  | nil => exact ⟨before, ends_pure_iff.mpr ⟨rfl, rfl⟩, ended⟩
  | cons item earlier ih =>
      obtain ⟨⟨⟩, next, first, ended⟩ := ends_bind_iff.mp ended
      obtain ⟨between, middle, ended⟩ := ih ended
      exact ⟨between, ends_bind_iff.mpr ⟨(), next, first, middle⟩, ended⟩

/-- A circuit stays where it was written if nothing is written there later. -/
theorem readText_of_ends_deliverAll {path : Path} {compilation : Compilation Float Float}
    (ended : Ends (deliverAll (some directory) (earlier ++ (path, compilation) :: later)) before ()
      after) :
    ∃ text place, compilation.optimized.toJson true (.indented 2) = .ok text ∧
      after.tree.locate (outputPath directory path) = .ok place ∧
      ((∀ item ∈ later, after.tree.locate (outputPath directory item.1) ≠ .ok place) →
        after.tree.readText (outputPath directory path) = .ok text) := by
  obtain ⟨between, -, ended⟩ := exists_between_of_ends_deliverAll ended
  have same := directories_of_ends_deliverAll ended
  obtain ⟨⟨⟩, written, first, ended⟩ := ends_bind_iff.mp ended
  obtain ⟨line, text, place, -, spelled, leads, rfl⟩ := exists_put_of_ends_deliver first
  have located := FileTree.locate_of_directories same leads
  refine ⟨text, place, spelled, located, fun apart => ?_⟩
  refine FileTree.readText_eq_of_file? located ?_
  rw [file?_of_ends_deliverAll ended apart, FileTree.file?_put, if_pos rfl]

end Deliveries

/-! ## What is asked for -/

theorem looks_loadDevice (settings : Settings) (options : Options) :
    Looks (loadDevice settings options) := by
  unfold loadDevice
  split
  · exact (looks_readText _).bind fun _ => (looks_orThrow _).bind fun _ => looks_pure _
  · exact looks_throw _
  · exact (looks_orThrow _).bind fun _ => looks_pure _
  · exact looks_pure _

theorem looks_loadCircuit (path : Path) : Looks (loadCircuit path) := by
  refine (looks_readText path).bind fun _ => (looks_orThrow _).bind fun circuit => ?_
  split
  · exact looks_pure _
  · exact looks_pure _

theorem looks_loadCircuits (paths : List Path) : Looks (loadCircuits paths) := by
  induction paths with
  | nil => exact looks_pure _
  | cons path paths ih =>
      exact (looks_loadCircuit path).bind fun _ => ih.bind fun _ => looks_pure _

/-- The circuits come in the order of the paths. -/
theorem mapM_of_ends_loadCircuits {paths : List Path} {before after : Desk}
    {circuits : List (Circuit Float)} (ended : Ends (loadCircuits paths) before circuits after) :
    paths.mapM (fun path => outcomeOn before.tree (loadCircuit path)) = .ok circuits := by
  induction paths generalizing circuits with
  | nil =>
      obtain ⟨rfl, -⟩ := ends_pure_iff.mp ended
      rfl
  | cons path paths ih =>
      obtain ⟨circuit, read, rest⟩ := (looks_loadCircuit path).ends_of_ends_bind ended
      obtain ⟨others, between, readRest, last⟩ := ends_bind_iff.mp rest
      obtain ⟨rfl, rfl⟩ := ends_pure_iff.mp last
      rw [List.mapM_cons, read, ih readRest]
      rfl

/-- What the options ask for comes to for a circuit of a tree of files. -/
def compilationOn (settings : Settings) (options : Options) (tree : FileTree) (path : Path) :
    Except Fault (Compilation Float Float) := do
  let device ← outcomeOn tree (loadDevice settings options)
  let circuit ← outcomeOn tree (loadCircuit path)
  let optimizer ← Optimizer.ofLevel settings (givenDatum .int options.level)
  Compiler.compile settings ⟨optimizer, options.fixedPoint, .null⟩ device circuit

/-- The report on a circuit. -/
def reportOn (settings : Settings) (options : Options) (tree : FileTree) (path : Path) :
    Except Fault String := do
  Json.write .plain (reportDatum (← compilationOn settings options tree path))

/-- The optimized circuit as it is to be written. -/
def optimizedOn (settings : Settings) (options : Options) (tree : FileTree) (path : Path) :
    Except Fault String := do
  (← compilationOn settings options tree path).optimized.toJson true (.indented 2)

/-- Every circuit is compiled by itself before anything is delivered. -/
theorem exists_items_of_ends_perform {settings : Settings} {options : Options} {directory : Path}
    {before after : Desk} (wanted : options.outputDirectory = some (.value directory))
    (ended : Ends (perform settings options) before () after) :
    ∃ items between, items.map Prod.fst = options.circuits ∧
      (∀ item ∈ items, compilationOn settings options before.tree item.1 = .ok item.2) ∧
      between.lines = before.lines ∧
      Ends (deliverAll (some directory) items) between () after := by
  obtain ⟨device, available, rest⟩ := (looks_loadDevice settings options).ends_of_ends_bind ended
  have looks := looks_loadCircuits options.circuits
  obtain ⟨circuits, loading, rest⟩ := looks.ends_of_ends_bind rest
  have loaded := mapM_of_ends_loadCircuits (looks.ends_iff.mpr ⟨loading, rfl⟩)
  obtain ⟨optimizer, selected, rest⟩ := ends_of_ends_orThrow_bind rest
  obtain ⟨compilations, batch, rest⟩ := ends_of_ends_orThrow_bind rest
  obtain ⟨⟨⟩, -, compiled⟩ := bind_eq_ok batch
  obtain ⟨opened, between, opening, delivered⟩ := ends_bind_iff.mp rest
  rw [wanted] at opening
  obtain ⟨⟨⟩, _, making, last⟩ := ends_bind_iff.mp opening
  obtain ⟨tree, -, rfl⟩ := ends_changeTree_iff.mp making
  obtain ⟨rfl, rfl⟩ := ends_pure_iff.mp last
  have each := mapM_eq_ok_iff.mp (mapM_bind_eq_ok loaded compiled)
  refine ⟨options.circuits.zip compilations, ⟨tree, before.lines⟩,
    List.map_fst_zip (Nat.le_of_eq each.length_eq), ?_, rfl, delivered⟩
  intro item member
  have outcome := (List.forall₂_iff_zip.mp each).2 member
  rw [compilationOn, available, selected]
  exact outcome

/-! ## What is left -/

/-- Among the paths with the name of a path there is a last one. -/
theorem exists_last_namesake {paths : List Path} {path : Path} (member : path ∈ paths) :
    ∃ earlier last later, paths = earlier ++ last :: later ∧ storedName last = storedName path ∧
      ∀ other ∈ later, storedName other ≠ storedName last := by
  induction paths generalizing path with
  | nil => cases member
  | cons first paths ih =>
      by_cases again : ∃ other ∈ paths, storedName other = storedName path
      · obtain ⟨other, listed, same⟩ := again
        obtain ⟨earlier, last, later, rfl, named, unique⟩ := ih listed
        exact ⟨first :: earlier, last, later, rfl, named.trans same, unique⟩
      · rcases List.mem_cons.mp member with rfl | listed
        · exact ⟨[], path, paths, rfl, rfl, fun other listed same => again ⟨other, listed, same⟩⟩
        · exact absurd ⟨path, listed, rfl⟩ again

section Outcome

variable {settings : Settings} {arguments : List String} {tree : FileTree} {options : Options}
  {directory : Path} {desk : Desk} {path other : Path}

/-- Arguments that are understood are followed. -/
theorem runOn_eq_perform (read : Options.read arguments = .ok options) :
    runOn settings arguments tree = (perform settings options : DeskM Unit).run.run ⟨tree, []⟩ := by
  have understood : (readOptions arguments : DeskM Options) = pure options := by
    rw [readOptions, read]
  rw [runOn, run, understood]
  rfl

variable (read : Options.read arguments = .ok options)
  (wanted : options.outputDirectory = some (.value directory))
  (ended : runOn settings arguments tree = (.ok (), desk))

include read wanted ended

/-- There is one report for every circuit, in order. -/
theorem reports_of_runOn :
    options.circuits.mapM (reportOn settings options tree) = .ok desk.lines := by
  rw [runOn_eq_perform read] at ended
  obtain ⟨items, between, paths, compiled, clean, delivered⟩ :=
    exists_items_of_ends_perform wanted ended
  have each : ∀ item ∈ items, reportOn settings options tree item.1 =
      Json.write .plain (reportDatum item.2) := by
    intro item member
    rw [reportOn, compiled item member]
    rfl
  obtain ⟨lines, told, same⟩ := lines_of_ends_deliverAll delivered each
  rw [paths] at told
  rw [told, same, clean, List.nil_append]

/-- Every optimized circuit goes to a place, and stays there if no later one has the name of its
file. -/
theorem exists_place_of_runOn {earlier later : List Path}
    (listed : options.circuits = earlier ++ path :: later) :
    ∃ text place, optimizedOn settings options tree path = .ok text ∧
      desk.tree.locate (outputPath directory path) = .ok place ∧
      ((∀ other ∈ later, storedName other ≠ storedName path) →
        desk.tree.readText (outputPath directory path) = .ok text) := by
  have plain := plain_of_read read
  rw [runOn_eq_perform read] at ended
  obtain ⟨items, between, paths, compiled, -, delivered⟩ :=
    exists_items_of_ends_perform wanted ended
  rw [listed] at paths plain
  obtain ⟨before, rest, rfl, -, paths⟩ := List.map_eq_append_iff.mp paths
  obtain ⟨item, after, rfl, rfl, rfl⟩ := List.map_eq_cons_iff.mp paths
  obtain ⟨text, place, spelled, leads, kept⟩ := readText_of_ends_deliverAll delivered
  refine ⟨text, place, ?_, leads, fun last => kept fun other member otherLeads => ?_⟩
  · have outcome : compilationOn settings options tree item.1 = .ok item.2 :=
      compiled item (by simp)
    simp only [optimizedOn, outcome, bind, Except.bind, spelled]
  · have inLater : other.1 ∈ after.map Prod.fst := List.mem_map_of_mem member
    have same := (locate_outputPath_eq_iff (plain other.1 (by simp [inLater]))
      (plain item.1 (by simp)) otherLeads leads).mp rfl
    exact last other.1 inLater same

theorem exists_optimizedOn (member : path ∈ options.circuits) :
    ∃ text, optimizedOn settings options tree path = .ok text := by
  obtain ⟨earlier, later, listed⟩ := List.append_of_mem member
  obtain ⟨text, -, spelled, -⟩ := exists_place_of_runOn read wanted ended listed
  exact ⟨text, spelled⟩

theorem kept_of_last {earlier later : List Path}
    (listed : options.circuits = earlier ++ path :: later)
    (last : ∀ other ∈ later, storedName other ≠ storedName path) :
    desk.tree.readText (outputPath directory path) = optimizedOn settings options tree path := by
  obtain ⟨text, -, spelled, -, kept⟩ := exists_place_of_runOn read wanted ended listed
  rw [kept last, spelled]

/-- Circuits whose files have one name share a file. -/
theorem readText_eq_of_storedName_eq (member : path ∈ options.circuits)
    (otherMember : other ∈ options.circuits) (same : storedName path = storedName other) :
    desk.tree.readText (outputPath directory path) =
      desk.tree.readText (outputPath directory other) := by
  have plain := plain_of_read read
  obtain ⟨earlier, later, listed⟩ := List.append_of_mem member
  obtain ⟨otherEarlier, otherLater, otherListed⟩ := List.append_of_mem otherMember
  obtain ⟨-, place, -, leads, -⟩ := exists_place_of_runOn read wanted ended listed
  obtain ⟨-, elsewhere, -, otherLeads, -⟩ := exists_place_of_runOn read wanted ended otherListed
  obtain rfl := (locate_outputPath_eq_iff (plain path member) (plain other otherMember) leads
    otherLeads).mpr same
  exact FileTree.readText_congr (leads.trans otherLeads.symm)

/-- The last of the circuits that share a file stays, and it is as good as the others if they have
one text. -/
theorem kept_of_texts_agree
    (agree : ∀ path ∈ options.circuits, ∀ other ∈ options.circuits,
      storedName path = storedName other →
        optimizedOn settings options tree path = optimizedOn settings options tree other)
    (member : path ∈ options.circuits) :
    desk.tree.readText (outputPath directory path) = optimizedOn settings options tree path := by
  obtain ⟨earlier, last, later, listed, named, unique⟩ := exists_last_namesake member
  have lastMember : last ∈ options.circuits := by simp [listed]
  rw [← readText_eq_of_storedName_eq read wanted ended lastMember member named,
    kept_of_last read wanted ended listed unique, agree last lastMember path member named]

/-- The command prints one report for every circuit, in order, and every optimized circuit is
written to the directory. It is still there at the end if no later circuit has a file of the same
name. So all are there just if the circuits whose files have one name have one text, and certainly
if the stems are different and of whole characters. -/
theorem every_circuit_is_kept_iff :
    options.circuits.mapM (reportOn settings options tree) = .ok desk.lines ∧
      (∀ path ∈ options.circuits, ∃ text, optimizedOn settings options tree path = .ok text) ∧
      (∀ earlier path later, options.circuits = earlier ++ path :: later →
        (∀ other ∈ later, storedName other ≠ storedName path) →
        desk.tree.readText (outputPath directory path) = optimizedOn settings options tree path) ∧
      ((∀ path ∈ options.circuits,
          desk.tree.readText (outputPath directory path) = optimizedOn settings options tree path) ↔
        ∀ path ∈ options.circuits, ∀ other ∈ options.circuits,
          storedName path = storedName other →
            optimizedOn settings options tree path = optimizedOn settings options tree other) ∧
      ((options.circuits.map Path.stem).Nodup →
        (∀ path ∈ options.circuits, Text.halfMark ∉ path.stem.toList) →
        ∀ path ∈ options.circuits,
          desk.tree.readText (outputPath directory path) =
            optimizedOn settings options tree path) := by
  refine ⟨reports_of_runOn read wanted ended,
    fun path member => exists_optimizedOn read wanted ended member,
    fun earlier path later listed last => kept_of_last read wanted ended listed last,
    ⟨fun kept path member other otherMember same => ?_,
      fun agree path member => kept_of_texts_agree read wanted ended agree member⟩,
    fun distinct whole path member => kept_of_texts_agree read wanted ended ?_ member⟩
  · rw [← kept path member, ← kept other otherMember]
    exact readText_eq_of_storedName_eq read wanted ended member otherMember same
  · intro path member other otherMember same
    have stems := stem_eq_of_storedName_eq (whole path member) (whole other otherMember) same
    rw [List.inj_on_of_nodup_map distinct member otherMember stems]

end Outcome

/-! ## Circuits in two directories -/

/-- Two circuits without gates, of one qubit and of two. -/
def twoCircuits (left right : String) : FileTree where
  directories := [["a"], ["b"]]
  files := [(["a", left], "\x7b\"num_qubits\": 1, \"num_clbits\": 0, \"gates\": []\x7d"),
    (["b", right], "\x7b\"num_qubits\": 2, \"num_clbits\": 0, \"gates\": []\x7d")]

/-- What is asked for: to optimize both of them into a third directory. -/
def twoOptions (left right : String) : Options :=
  { Options.initial with
    circuits := [⟨false, ["a", left]⟩, ⟨false, ["b", right]⟩]
    outputDirectory := some (.value ⟨false, ["out"]⟩) }

/-- Two plain arguments and a directory. -/
theorem read_two {left right : String} (first : classify left = .ok (.plain left))
    (second : classify right = .ok (.plain right)) (leftNamed : left ≠ "--")
    (rightNamed : right ≠ "--") :
    Options.read [left, right, "--output-dir", "out"] =
      .ok { Options.initial with
        circuits := [Path.ofText left, Path.ofText right]
        outputDirectory := some (.value (Path.ofText "out")) } := by
  have classified : classifyAll [left, right, "--output-dir", "out"] =
      .ok [.plain left, .plain right, .long .outputDirectory none, .plain "out"] := by
    simp only [classifyAll, first, second, bind, Except.bind]
    rfl
  have steps : stepsOf .before
      [.plain left, .plain right, .long .outputDirectory none, .plain "out"] =
      [.circuit left, .circuit right, .give .outputDirectory "out"] := by
    simp [stepsOf, stepsOf.ofOption, expandLong, expandAlone, Stage.leave, Flag.takesValue]
  rw [Options.read, classified]
  change takeSteps .initial false (stepsOf .before _) = _
  rw [steps]
  rfl

/-- How it ends, and what it leaves behind. -/
def twoOutcome (left right : String) : Except Fault Unit × Desk :=
  (perform Settings.standard (twoOptions left right) : DeskM Unit).run.run
    ⟨twoCircuits left right, []⟩

theorem runOn_two {arguments : List String} {left right : String}
    (read : Options.read arguments = .ok (twoOptions left right)) :
    runOn Settings.standard arguments (twoCircuits left right) = twoOutcome left right :=
  runOn_eq_perform read

theorem two_stems_are_kept :
    runOn Settings.standard ["a/c.json", "b/d.json", "--output-dir", "out"]
        (twoCircuits "c.json" "d.json") = (.ok (), (twoOutcome "c.json" "d.json").2) ∧
      ∀ path ∈ (twoOptions "c.json" "d.json").circuits,
        (twoOutcome "c.json" "d.json").2.tree.readText (outputPath ⟨false, ["out"]⟩ path) =
          optimizedOn Settings.standard (twoOptions "c.json" "d.json")
            (twoCircuits "c.json" "d.json") path := by
  have read : Options.read ["a/c.json", "b/d.json", "--output-dir", "out"] =
      .ok (twoOptions "c.json" "d.json") := read_two rfl rfl (by decide) (by decide)
  have outcome : (twoOutcome "c.json" "d.json").1 = .ok () := by decide +kernel
  have ended : runOn Settings.standard ["a/c.json", "b/d.json", "--output-dir", "out"]
      (twoCircuits "c.json" "d.json") = (.ok (), (twoOutcome "c.json" "d.json").2) := by
    rw [runOn_two read, ← outcome]
  have stems : ((twoOptions "c.json" "d.json").circuits.map Path.stem).Nodup := by decide +kernel
  have whole : ∀ path ∈ (twoOptions "c.json" "d.json").circuits,
      Text.halfMark ∉ path.stem.toList := by
    decide +kernel
  exact ⟨ended, (every_circuit_is_kept_iff read rfl ended).2.2.2.2 stems whole⟩

/-- The first circuit as it is to be written, under the name that it gets from its file. -/
def firstText : String :=
  "\x7b\n  \"num_qubits\": 1,\n  \"num_clbits\": 0,\n  \"gates\": [],\n  \"name\": \"c\"\n\x7d"

/-- Of two files with one stem, the optimized circuit of the first is nowhere to be found. -/
theorem namesake_is_lost :
    runOn Settings.standard ["a/c.json", "b/c.json", "--output-dir", "out"]
        (twoCircuits "c.json" "c.json") = (.ok (), (twoOutcome "c.json" "c.json").2) ∧
      (twoOptions "c.json" "c.json").circuits.Nodup ∧
      optimizedOn Settings.standard (twoOptions "c.json" "c.json")
          (twoCircuits "c.json" "c.json") ⟨false, ["a", "c.json"]⟩ = .ok firstText ∧
      (∀ entry ∈ (twoOutcome "c.json" "c.json").2.tree.files, entry.2 ≠ firstText) ∧
      (twoOutcome "c.json" "c.json").2.tree.readText
          (outputPath ⟨false, ["out"]⟩ ⟨false, ["a", "c.json"]⟩) =
        optimizedOn Settings.standard (twoOptions "c.json" "c.json")
          (twoCircuits "c.json" "c.json") ⟨false, ["b", "c.json"]⟩ := by
  have read : Options.read ["a/c.json", "b/c.json", "--output-dir", "out"] =
      .ok (twoOptions "c.json" "c.json") := read_two rfl rfl (by decide) (by decide)
  have left : (twoOutcome "c.json" "c.json").1 = .ok () ∧
      optimizedOn Settings.standard (twoOptions "c.json" "c.json")
          (twoCircuits "c.json" "c.json") ⟨false, ["a", "c.json"]⟩ = .ok firstText ∧
      (∀ entry ∈ (twoOutcome "c.json" "c.json").2.tree.files, entry.2 ≠ firstText) ∧
      (twoOutcome "c.json" "c.json").2.tree.readText
          (outputPath ⟨false, ["out"]⟩ ⟨false, ["a", "c.json"]⟩) =
        optimizedOn Settings.standard (twoOptions "c.json" "c.json")
          (twoCircuits "c.json" "c.json") ⟨false, ["b", "c.json"]⟩ := by
    decide +kernel
  obtain ⟨outcome, own, lost, other⟩ := left
  refine ⟨?_, by decide, own, lost, other⟩
  rw [runOn_two read, ← outcome]

end Command

end Peephole
