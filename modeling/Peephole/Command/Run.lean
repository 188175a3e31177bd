import Peephole.Circuit.Document
import Peephole.Command.Options
import Peephole.Compilation
import Peephole.Files.Tree

/-!
The command: it compiles circuits from files for a device and prints, for each, a line with the
costs before and after; if a directory is named it leaves the optimized circuits there. All
circuits are compiled before anything is printed or written. The command is stated for any
surroundings that can read and write files and print lines; a tree of files is one.
-/

namespace Peephole

namespace Command

/-- Surroundings in which the command can run. -/
class Surroundings (m : Type → Type) extends Monad m, MonadExceptOf Fault m where
  readText : Path → m String
  makeDirectory : Path → m Unit
  writeText : Path → String → m Unit
  printLine : String → m Unit

section

variable {m : Type → Type} [Surroundings m]

def orThrow {β : Type} : Except Fault β → m β
  | .ok value => pure value
  | .error fault => throw fault

/-! ## What is read -/

/-- What an option is given, as a document. Nothing in place of a value is an empty list. -/
def givenDatum {β : Type} (ofValue : β → Datum) : Option (Given β) → Datum
  | none => .null
  | some (.value value) => ofValue value
  | some .nothing => .list []

/-- The device that the options name or describe, if they do. -/
def loadDevice (settings : Settings) (options : Options) : m (Option (Device Float)) :=
  match options.target, options.device with
  | some (.value path), _ => do
    let text ← Surroundings.readText path
    let device ← orThrow do Device.ofDatum settings (← Json.read text)
    return some device
  | some .nothing, _ => throw .notText
  | none, some name => do
    let device ← orThrow (Device.ofPreset settings (givenDatum .text (some name)))
    return some device
  | none, none => return none

/-- A circuit from a file, after which it is named if it has no name. -/
def loadCircuit (path : Path) : m (Circuit Float) := do
  let text ← Surroundings.readText path
  let circuit ← orThrow (Circuit.ofJson text)
  if circuit.labels.name.isVoid then
    return { circuit with labels.name := .text path.stem }
  else return circuit

def loadCircuits : List Path → m (List (Circuit Float))
  | [] => return []
  | path :: rest => do
    let circuit ← loadCircuit path
    return circuit :: (← loadCircuits rest)

/-! ## What is printed and written -/

def reportDatum (compilation : Compilation Float Float) : Datum :=
  .record [
    ("circuit", compilation.input.labels.name),
    ("before", compilation.before.toDatum),
    ("after", compilation.after.toDatum)]

/-- The file for the optimized circuit of a file. -/
def outputPath (directory path : Path) : Path :=
  directory.child (path.stem ++ ".optimized.json")

/-- Prints the report on a circuit and writes the optimized circuit. -/
def deliver (directory : Option Path) (path : Path) (compilation : Compilation Float Float) :
    m Unit := do
  Surroundings.printLine (← orThrow (Json.write .plain (reportDatum compilation)))
  match directory with
  | some directory =>
    let text ← orThrow (compilation.optimized.toJson true (.indented 2))
    Surroundings.writeText (outputPath directory path) text
  | none => return

def deliverAll (directory : Option Path) :
    List (Path × Compilation Float Float) → m Unit
  | [] => return
  | (path, compilation) :: rest => do
    deliver directory path compilation
    deliverAll directory rest

/-! ## The command -/

/-- Makes the directory for what is written, if there is to be one. -/
def openDirectory : Option (Given Path) → m (Option Path)
  | none => return none
  | some (.value directory) => do
    Surroundings.makeDirectory directory
    return some directory
  | some .nothing => throw .unknownOperation

def perform (settings : Settings) (options : Options) : m Unit := do
  let device ← loadDevice settings options
  let circuits ← loadCircuits options.circuits
  let optimizer ← orThrow (Optimizer.ofLevel settings (givenDatum .int options.level))
  let compiler : Compiler := ⟨optimizer, options.fixedPoint, .null⟩
  let compilations ←
    orThrow (compiler.compileAll settings device (givenDatum .int options.workers) circuits)
  let directory ← openDirectory options.outputDirectory
  deliverAll directory (options.circuits.zip compilations)

def usageLine : String :=
  "usage: [-h] [--device NAME | --target FILE] [-O LEVEL] [--fixed-point] [--workers COUNT] " ++
    "[--output-dir DIRECTORY] [-v] CIRCUIT ..."

/-- The options that the arguments give. Help is printed where it is asked for. -/
def readOptions (arguments : List String) : m Options :=
  match Options.read arguments with
  | .ok options => return options
  | .error .helpShown => do
    Surroundings.printLine usageLine
    throw .helpShown
  | .error fault => throw fault

/-- Runs the command with the given arguments. -/
def run (settings : Settings) (arguments : List String) : m Unit := do
  perform settings (← readOptions arguments)

end

/-! ## Running on a tree of files -/

/-- A tree of files, and the lines printed so far. -/
structure Desk where
  tree : FileTree
  lines : List String

abbrev DeskM := ExceptT Fault (StateM Desk)

def changeTree (change : FileTree → Except Fault FileTree) : DeskM Unit := do
  let desk ← get
  match change desk.tree with
  | .ok tree => set { desk with tree := tree }
  | .error fault => throw fault

instance : Surroundings DeskM where
  readText path := do
    match (← get).tree.readText path with
    | .ok text => return text
    | .error fault => throw fault
  makeDirectory path := changeTree (FileTree.makeDirectory · path)
  writeText path text := changeTree (FileTree.writeText · path text)
  printLine line := modify fun desk => { desk with lines := desk.lines ++ [line] }

/-- Runs the command on a tree of files: how it ends, and what it leaves behind. -/
def runOn (settings : Settings) (arguments : List String) (tree : FileTree) :
    Except Fault Unit × Desk :=
  (run (m := DeskM) settings arguments).run.run ⟨tree, []⟩

end Command

end Peephole
