import Peephole.Files.Tree
import Peephole.Program.Reader

/-!
Where programs come from. A source is the text of a program or names a file that holds one; it
names a file if there is one of that name. A number may name an open file by its handle, which is
no source; any other number is the text of itself.
-/

namespace Peephole

namespace Program

/-- The magnitude from which on a number is no handle. -/
def handleLimit : Int := 0x80000000

/-- The text that a number is, unless it is the handle of one of the three files that are always
open. -/
def numberSource (handle : Int) : Except Fault String :=
  if handleLimit ≤ handle then .error .handleTooLarge
  else if handle < -handleLimit then .error .handleTooSmall
  else if 0 ≤ handle && handle < 3 then .error .notText
  else .ok (toString handle)

/-- The text that a source holds. -/
def sourceText (tree : FileTree) : Datum → Except Fault String
  | .text source =>
    match tree.readNamed source with
    | .ok text => .ok text
    | .error .isADirectory => .error .isADirectory
    | .error _ => .ok source
  | .int handle => numberSource handle
  | _ => .error .notText

end Program

namespace Circuit

/-- The circuit of a program text, all of which has to be storable. -/
def ofStorableText (text : String) : Except Fault (Circuit Float) := do
  Text.checkStorable text
  ofProgramText text

def ofProgramSource (tree : FileTree) (source : Datum) : Except Fault (Circuit Float) := do
  ofStorableText (← Program.sourceText tree source)

end Circuit

end Peephole
