/-
Agents around one lobby.

Whatever an agent posts is merged into the lobby before anyone moves again.
-/
import Ruletka.Contract.Agent
import Ruletka.Lib.Machine

namespace Ruletka.Contract

/-- A lobby and the agents that share it. -/
structure Hall (ι : Type) where
  lobby : LobbyState
  agents : ι → Agent

inductive HallEvent (ι : Type) where
  | spin (i : ι) (nowMs : Nat) (seed : Bytes32)
  | tick (i : ι) (nowMs : Nat)
  | next (i : ι) (nowMs : Nat)

namespace Hall

variable {ι : Type} [DecidableEq ι] (ed : Ed25519) (h : Hall ι)

/-- An agent moves, and its delta is applied. -/
def move (i : ι) (moved : Agent × LobbyDelta) : Hall ι :=
  ⟨h.lobby.applyDelta moved.2, Function.update h.agents i moved.1⟩

def step : HallEvent ι → Hall ι
  | .spin i nowMs seed => h.move i ((h.agents i).spin nowMs seed)
  | .tick i nowMs => h.move i ((h.agents i).tick ed h.lobby.view nowMs)
  | .next i nowMs => h.move i ((h.agents i).next nowMs)

/-- Ticks, one after the other. -/
def ticks (l : List (ι × Nat)) : Hall ι := l.foldl (fun h t => h.step ed (.tick t.1 t.2)) h

end Hall

/-- Agents of different peers, all idle, before an empty lobby. -/
def hallMachine (ι : Type) [DecidableEq ι] (ed : Ed25519) (config : LobbyConfig) :
    Machine (Hall ι) (HallEvent ι) where
  start h := h.lobby = .new config ∧ (∀ i, (h.agents i).phase = .idle)
    ∧ Function.Injective fun i => (h.agents i).peerId
  step h e h' := h' = h.step ed e

end Ruletka.Contract
