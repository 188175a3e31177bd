import Peephole.Circuit.Document

/-!
Sessions: circuits in named slots. A slot that holds nothing is missing, and putting a circuit
into one slot changes no other.
-/

namespace Peephole

/-- The circuits of a session by the names of their slots. -/
abbrev Session := List (Key × Circuit Float)

namespace Session

def find? (session : Session) (slot : Key) : Option (Circuit Float) :=
  (List.find? (fun entry => entry.1.same slot) session).map (·.2)

def get (session : Session) (slot : Key) : Except Fault (Circuit Float) :=
  match session.find? slot with
  | some circuit => .ok circuit
  | none => .error (.missingKey slot.literal)

def put : Session → Key → Circuit Float → Session
  | [], slot, circuit => [(slot, circuit)]
  | (present, old) :: rest, slot, circuit =>
    if present.same slot then (present, circuit) :: rest
    else (present, old) :: put rest slot circuit

end Session

end Peephole
