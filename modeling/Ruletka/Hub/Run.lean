/-
Runs of the hub: which events may come, and in which order.

The hub takes one event at a time, under its lock. What the socket loop and
the clock promise is the admissibility of an event: time does not run
backwards, a connect brings a fresh v4 uuid that nobody has used as a name,
and a connection whose socket has closed sends no more frames and is not
closed again. Everything else may come in any order at any time.
-/
import Ruletka.Hub.Step
import Ruletka.Lib.Machine

namespace Ruletka

/-- One event and what it sees of the outside. -/
structure Input where
  env : Env
  event : Event

/-- The hub with what the outside remembers: the last clock reading, the
connections that ever were, and those whose sockets have closed. -/
structure World where
  hub : SimpleHub
  now : Instant
  used : Finset ConnId
  closed : Finset ConnId

namespace World

/-- Before the first connection. -/
def start (sys : Sys) : World := ⟨.empty sys, 0, ∅, ∅⟩

/-- A connection id nobody has, had or took for a name. -/
def Fresh (w : World) (id : ConnId) : Prop :=
  id ∉ w.used ∧ w.hub.byUser.get? (w.hub.sys.uuidText id) = none
    ∧ ∀ x ∈ w.hub.clients.keys, w.hub.userOf x ≠ w.hub.sys.uuidText id

instance (w : World) (id : ConnId) : Decidable (w.Fresh id) :=
  inferInstanceAs (Decidable (_ ∧ _ ∧ _))

/-- The socket of a connection is open. -/
def Open (w : World) (id : ConnId) : Prop := id ∈ w.used ∧ id ∉ w.closed

instance (w : World) (id : ConnId) : Decidable (w.Open id) :=
  inferInstanceAs (Decidable (_ ∧ _))

/-- What the sender of an event promises. -/
def Promised (w : World) : Event → Prop
  | .connect id _ => w.Fresh id
  | .frame id _ => w.Open id
  | .close id => w.Open id
  | _ => True

instance (w : World) : (e : Event) → Decidable (w.Promised e)
  | .connect id _ => inferInstanceAs (Decidable (w.Fresh id))
  | .frame id _ => inferInstanceAs (Decidable (w.Open id))
  | .close id => inferInstanceAs (Decidable (w.Open id))
  | .geo .. | .adminBan .. | .adminUnban .. | .adminUnbanIp .. | .claim .. | .applyClaim .. =>
      .isTrue trivial

/-- The event may come now. -/
def Admits (w : World) (i : Input) : Prop := w.now ≤ i.env.now ∧ w.Promised i.event

instance (w : World) (i : Input) : Decidable (w.Admits i) :=
  inferInstanceAs (Decidable (_ ∧ _))

/-- The world after an event that left this hub. -/
def after (w : World) (i : Input) (hub : SimpleHub) : World where
  hub := hub
  now := i.env.now
  used := match i.event with
    | .connect id _ => insert id w.used
    | _ => w.used
  closed := match i.event with
    | .close id => insert id w.closed
    | _ => w.closed

/-- One event with a given fuel, computed. -/
def advance (fuel : Nat) (w : World) (i : Input) : Option World :=
  if w.Admits i then (w.hub.step i.env fuel i.event).map (w.after i) else none

end World

/-- The hub as a machine. -/
def hubMachine (sys : Sys) : Machine World Input where
  start w := w = World.start sys
  step w i w' := w.Admits i ∧ ∃ fuel hub, w.hub.step i.env fuel i.event = some hub
    ∧ w' = w.after i hub

theorem advance_step {sys : Sys} {fuel : Nat} (w : World) (i : Input) (w' : World)
    (h : w.advance fuel i = some w') : (hubMachine sys).step w i w' := by
  unfold World.advance at h
  split at h
  · next ha =>
    obtain ⟨hub, hh, rfl⟩ := Option.map_eq_some_iff.mp h
    exact ⟨ha, fuel, hub, hh, rfl⟩
  · cases h

/-- Follow a list of events from the empty hub. -/
def replay (sys : Sys) (fuel : Nat) (is : List Input) : Option World :=
  Machine.follow (World.advance fuel) (World.start sys) is

/-- A replayed run that ends where a test passes reaches such a world. -/
theorem reach_of_replay {sys : Sys} {fuel : Nat} {is : List Input} {p : World → Bool}
    (h : (replay sys fuel is).any p = true) :
    ∃ w, (hubMachine sys).Reach w ∧ p w = true :=
  Machine.exists_reach (advance_step) rfl h

/-- The same for a machine that records a history. -/
theorem reach_of_watched_replay {G : Type} {sys : Sys} {fuel : Nat} {is : List Input} {g₀ : G}
    {update : G → World → Input → World → G} {p : World × G → Bool}
    (h : (Machine.follow (Machine.watchNext (World.advance fuel) update)
      (World.start sys, g₀) is).any p = true) :
    ∃ q, ((hubMachine sys).watch g₀ update).Reach q ∧ p q = true := by
  refine Machine.exists_reach (Machine.watchNext_step advance_step) ?_ h
  exact ⟨rfl, rfl⟩

-- =============================================================== concrete runs

/-- A hub whose texts are the shortest there are, for concrete runs. -/
def plainSys : Sys where
  limits := ⟨100, 10000, 100, 10000, 100⟩
  faceGateMode := .off
  friendCodeFor := fun u => "C" ++ u
  sessionHash := fun parts _ => String.join parts
  uuidText := fun id => "u" ++ toString id
  peerIdHex := fun id => "p" ++ toString id

/-- A moment at which the books outside the hub have nothing to say. -/
def plainEnv (now : Instant) : Env where
  now := now
  unix := now / 1000
  unixMs := now
  peerOrder := fun _ => .increasing
  mapOrder := .increasing
  fedSession := ("fed", "key")
  socialHealth := fun _ => 0
  noSkipSecsLeft := fun _ => 0
  reportVerdict := fun _ _ _ => none
  hitReject := none
  genitalRecord := fun _ _ _ => .counted ""

/-- Events at their times, with nothing said from outside. -/
def script (l : List (Instant × Event)) : List Input :=
  l.map fun (t, e) => ⟨plainEnv t, e⟩

end Ruletka
