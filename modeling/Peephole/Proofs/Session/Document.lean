import Peephole.Proofs.Circuit.Document
import Peephole.Proofs.Datum.Identity
import Peephole.Proofs.Session.Reachable

/-!
# Circuits of all origins through documents

Circuits come about in the steps of a session, out of programs and of documents, and all that are
named by a text go through documents unharmed (`documents_keep_circuits`), whatever their notes.
-/

namespace Peephole

namespace Session

/-- Every circuit that is named by a text is kept by documents, and what is written of a circuit
that has been read is read and written the same again. -/
theorem documents_keep_circuits :
    (∀ circuit : Circuit Float, circuit.Reachable → ∀ name, circuit.labels.name = .text name →
      circuit.KeptByDocuments) ∧
      ∀ datum circuit, Circuit.ofDatum datum = .ok circuit →
        (∃ again, Circuit.ofDatum (circuit.toDatum true) = .ok again ∧
          again.toDatum true = circuit.toDatum true) ∧
        ∀ style text, Json.Restores style (circuit.toDatum true) text →
          ∃ again, Circuit.ofJson text = .ok again ∧ again.toJson true style = .ok text := by
  refine ⟨fun circuit reachable name named => reachable.sound.keptByDocuments named, ?_⟩
  intro datum circuit made
  obtain ⟨name, named⟩ := Circuit.exists_name_of_ofDatum made
  have kept := (Circuit.sound_of_ofDatum made).keptByDocuments named
  refine ⟨⟨circuit, kept.whole, rfl⟩, fun style text restores => ?_⟩
  obtain ⟨written, read⟩ := kept.wholeText style text restores
  exact ⟨circuit, read, written⟩

/-- One qubit turned and measured, with notes on the circuit and on the turn. -/
def coinTossed : List Step :=
  [⟨.ok (.text "a"), none, .text "a",
      .ok (.create (.arguments [(.text "num_qubits", .int 1), (.text "num_clbits", .int 1),
        (.text "name", .text "coin"), (.text "metadata", .map [(.text "side", .null)])]))⟩,
    ⟨.ok (.text "a"), none, .text "a",
      .ok (.work (.ok (.append (.map [(.text "kind", .text "RX"),
        (.text "qubits", .list [.int 0]), (.text "params", .list [.float 0.5]),
        (.text "metadata", .map [(.text "tries", .list [.int 1, .bool true])])]))))⟩,
    ⟨.ok (.text "a"), none, .text "a",
      .ok (.work (.ok (.call (.text "measure") (.list [.int 0]))))⟩]

/-- The circuit that these steps come to. -/
def coin : Circuit Float :=
  (Circuit.empty ⟨1, 1⟩ ⟨.text "coin", [(.text "side", .null)]⟩).replaceGates
    [⟨.rotation .x 0 0.5, [(.text "tries", .list [.int 1, .bool true])]⟩, ⟨.measure 0 0, []⟩]

def coinText : String :=
  "\x7b\"num_qubits\": 1, \"num_clbits\": 1, \"gates\": [" ++
    "\x7b\"kind\": \"RX\", \"qubits\": [0], \"params\": [0.5], " ++
    "\"metadata\": \x7b\"tries\": [1, true]\x7d\x7d, " ++
    "\x7b\"kind\": \"MEASURE\", \"qubits\": [0], \"clbits\": [0]\x7d], " ++
    "\"name\": \"coin\", \"metadata\": \x7b\"side\": null\x7d\x7d"

theorem coinText_restores : Json.Restores .plain (coin.toDatum true) coinText where
  written := by decide +kernel
  read := by decide +kernel

theorem coin_kept :
    after Settings.standard coinTossed = [(.text "a", coin)] ∧ coin.KeptByDocuments ∧
      coin.toJson true .plain = .ok coinText ∧ Circuit.ofJson coinText = .ok coin ∧
      ∃ again, Circuit.ofJson coinText = .ok again ∧ again.toJson true .plain = .ok coinText := by
  obtain ⟨kept, normal⟩ := documents_keep_circuits
  have tossed : after Settings.standard coinTossed = [(.text "a", coin)] := rfl
  have reachable : coin.Reachable := by
    refine ⟨Settings.standard, [], coinTossed, .text "a", nofun, ?_⟩
    change _ ∈ after Settings.standard coinTossed
    rw [tossed]
    exact .head _
  have kept := kept coin reachable "coin" rfl
  obtain ⟨written, read⟩ := kept.wholeText .plain coinText coinText_restores
  exact ⟨tossed, kept, written, read, (normal _ _ kept.whole).2 .plain coinText coinText_restores⟩

end Session

end Peephole
