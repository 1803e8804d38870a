/-
Agents that read whatever the network has merged for them.

A tick may read any lobby put together from deltas that were posted, in any
order, some of them missing. Every delta is kept with the number of spins
each agent had made when it was posted; the numbers decide nothing.
-/
import Ruletka.Contract.Agent
import Ruletka.Lib.Machine

namespace Ruletka.Contract

/-- Lobbies put together from deltas. -/
inductive Gathered (posted : LobbyDelta → Prop) : LobbyState → Prop where
  | new (config : LobbyConfig) : Gathered posted (.new config)
  | apply {s : LobbyState} {delta : LobbyDelta} :
      Gathered posted s → posted delta → Gathered posted (s.applyDelta delta)
  | merge {s t : LobbyState} : Gathered posted s → Gathered posted t → Gathered posted (s.merge t)
  | cleanup {s : LobbyState} : Gathered posted s → Gathered posted s.cleanup

/-- The agents, how often each has spun, and what was posted, with these
numbers at that time. -/
structure Swarm (ι : Type) where
  agents : ι → Agent
  spins : ι → Nat
  posted : List (LobbyDelta × (ι → Nat))

inductive SwarmEvent (ι : Type) where
  | spin (i : ι) (nowMs : Nat) (seed : Bytes32)
  | tick (i : ι) (nowMs : Nat) (lobby : LobbyState)
  | next (i : ι) (nowMs : Nat)

namespace Swarm

variable {ι : Type} [DecidableEq ι] (ed : Ed25519) (w : Swarm ι)

/-- A delta that somebody posted. -/
def Posted (delta : LobbyDelta) : Prop := ∃ p ∈ w.posted, p.1 = delta

/-- An agent moves and posts a delta. -/
def move (i : ι) (spins : ι → Nat) (moved : Agent × LobbyDelta) : Swarm ι :=
  ⟨Function.update w.agents i moved.1, spins, w.posted ++ [(moved.2, spins)]⟩

def step : SwarmEvent ι → Swarm ι
  | .spin i nowMs seed =>
      w.move i (Function.update w.spins i (w.spins i + 1)) ((w.agents i).spin nowMs seed)
  | .tick i nowMs lobby => w.move i w.spins ((w.agents i).tick ed lobby.view nowMs)
  | .next i nowMs => w.move i w.spins ((w.agents i).next nowMs)

/-- What a tick reads was posted. -/
def Readable : SwarmEvent ι → Prop
  | .tick _ _ lobby => Gathered w.Posted lobby
  | _ => True

end Swarm

/-- Agents of different peers that have not posted anything. -/
def swarmMachine (ι : Type) [DecidableEq ι] (ed : Ed25519) : Machine (Swarm ι) (SwarmEvent ι) where
  start w := w.posted = [] ∧ Function.Injective fun i => (w.agents i).peerId
  step w e w' := w.Readable e ∧ w' = w.step ed e

end Ruletka.Contract
