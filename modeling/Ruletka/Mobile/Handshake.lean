/-
What two parties have to agree on.

One party invites and the other accepts; the first then hosts and the second
joins as soon as it hears so, whatever it is doing. The two take turns: whoever
moves the turn tells the other, except a joined party that drifts ahead of a
silent host. Messages arrive in order. What each move does is all that is said
here; who makes it and when is left open.
-/
import Mathlib.Data.Finset.Basic

namespace Ruletka.Handshake

/-- Where a party stands. -/
inductive Stage (D : Type) where
  | idle
  | inviting (d : D)
  | invited (d : D)
  | hosting (d : D)
  | joined (d : D)

/-- The party takes part in something. -/
def Stage.Active {D : Type} : Stage D → Prop
  | .hosting _ | .joined _ => True
  | _ => False

structure Party (D : Type) where
  stage : Stage D
  turn : Nat
  /-- drifted ahead of the last turn it heard -/
  ahead : Bool
  /-- what it has agreed to and not taken back -/
  agreed : Finset D

inductive Note (D : Type) where
  | invite (d : D)
  | accept (d : D)
  | decline
  | cancel
  | start (d : D)
  | turn (d : D) (k : Nat)
  | over

namespace Note

variable {D : Type}

/-- Neither a start nor a turn. -/
def Still : Note D → Prop
  | .start _ | .turn _ _ => False
  | _ => True

/-- No start, and no turn of another. -/
def Of (d : D) : Note D → Prop
  | .start _ => False
  | .turn d' _ => d' = d
  | _ => True

/-- A word that closes something. -/
def Closing : Note D → Prop
  | .decline | .cancel | .over => True
  | _ => False

end Note

variable {D : Type} [DecidableEq D]

/-- What a party can do with a message, if it takes one, and what it sends. The
ids it may call its own are `own`, and a new invite is `fresh`. -/
inductive Move (own fresh : D → Prop) :
    Party D → Option (Note D) → Party D → List (Note D) → Prop where
  /-- it takes no notice, or says it is busy -/
  | keep {p : Party D} {n : Option (Note D)} {sent : List (Note D)} :
      (∀ d, n ≠ some (.start d)) → (∀ d k, n = some (.turn d k) → p.stage.Active → k < p.turn) →
      (∀ m ∈ sent, m = .decline) → Move own fresh p n p sent
  /-- it leaves what it is in -/
  | leave {p p' : Party D} {n : Option (Note D)} {sent : List (Note D)} :
      p'.stage = .idle → p'.agreed ⊆ p.agreed → (∀ m, n = some m → m.Still) →
      (∀ m ∈ sent, m.Closing) → Move own fresh p n p' sent
  | invite {p : Party D} {d : D} : p.stage = .idle → fresh d → own d →
      Move own fresh p none { p with stage := .inviting d, agreed := insert d p.agreed }
        [.invite d]
  | receive {p : Party D} {d : D} : p.stage = .idle →
      Move own fresh p (some (.invite d)) { p with stage := .invited d } []
  | accept {p : Party D} {d : D} : p.stage = .invited d →
      Move own fresh p none { p with agreed := insert d p.agreed } [.accept d]
  | open {p : Party D} {d : D} : p.stage = .inviting d →
      Move own fresh p (some (.accept d)) { p with stage := .hosting d, turn := 0 } [.start d]
  | join {p : Party D} {d : D} : Move own fresh p (some (.start d))
      { p with stage := .joined d, turn := 0, ahead := false } []
  /-- it moves the turn and says so: the host, or a joined party in its turn -/
  | announce {p : Party D} {d : D} :
      (p.stage = .hosting d ∨ p.stage = .joined d ∧ p.turn % 2 = 1) →
      Move own fresh p none { p with turn := p.turn + 1 } [.turn d (p.turn + 1)]
  | drift {p : Party D} {d : D} : p.stage = .joined d →
      Move own fresh p none { p with turn := p.turn + 1, ahead := true } []
  | hear {p : Party D} {d : D} {k : Nat} : p.stage.Active → p.turn ≤ k →
      Move own fresh p (some (.turn d k)) { p with turn := k, ahead := false } []

end Ruletka.Handshake
