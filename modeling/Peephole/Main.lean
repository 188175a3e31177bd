import Peephole.Command.Run
import Peephole.Settings.Environment

/-!
The command line. The command runs on the files of the system, with the settings that the
environment gives.
-/

namespace Peephole

namespace CommandLine

abbrev SystemM := ExceptT Fault IO

def faultOf : IO.Error → Fault
  | .noFileOrDirectory .. | .noSuchThing .. => .noSuchFile
  | .alreadyExists .. => .fileExists
  | .inappropriateType .. => .notADirectory
  | _ => .inaccessible

/-- Runs an action on files. -/
def onFiles {β : Type} (action : IO β) : SystemM β :=
  ExceptT.mk do
    try
      return .ok (← action)
    catch cause =>
      return .error (faultOf cause)

instance : Command.Surroundings SystemM where
  readText path := onFiles do return Text.spelled (← IO.FS.readFile (Text.characters path.text))
  makeDirectory path := onFiles (IO.FS.createDirAll (Text.characters path.text))
  writeText path text := onFiles (IO.FS.writeFile (Text.characters path.text) text)
  printLine line := ExceptT.lift (IO.println line)

/-- The settings that the environment gives. -/
def environment : SystemM Settings := do
  let values ← Settings.variableNames.mapM fun name => do
    return (name, ← ExceptT.lift (IO.getEnv name))
  Command.orThrow (Settings.ofEnvironment fun name => (values.lookup name).join)

/-- Runs the command with the given arguments. -/
def perform (arguments : List String) : SystemM Unit := do
  Command.run (← environment) (arguments.map Text.spelled)

end CommandLine

end Peephole

open Peephole in
/-- Ends with 2 for arguments that do not fit, with 1 for other faults. -/
def main (arguments : List String) : IO UInt32 := do
  match ← CommandLine.perform arguments with
  | .ok _ => return 0
  | .error .helpShown => return 0
  | .error .usage =>
    IO.eprintln Command.usageLine
    return 2
  | .error fault =>
    IO.eprintln fault.message
    return 1
