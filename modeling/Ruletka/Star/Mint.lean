/-
The daily cap on mints over a run of the hub.

`ledger_mint` reads the clock three times: for the budget, for the event it
writes and for the row it keeps. A run is any sequence of its calls and of
whatever else the hub does; only the calls touch the rows of the day. The
clock never goes back.
-/
import Ruletka.Star.Cache
import Mathlib.Algebra.Ring.Nat

namespace Ruletka

namespace CountedHub

variable (sha256 : String → List UInt8) (codec : Ledger.LineCodec) (s : CountedHub)

/-- `ledger_mint` with the clock read anew when the mint is recorded. -/
def ledgerMintAt (check record : Env) (w : Ledger.Write) (stamp : Ledger.Stamp)
    («from» user : UserId) (n : UInt64) (reason session : String) : UInt64 × CountedHub :=
  let amount := s.mintable check user n.toNat reason
  if amount = 0 then (s.store.ledger.balance user, s)
  else match s.store.tryMintFrom sha256 codec w «from» user (UInt64.ofNat amount) reason
      session stamp with
    | (.ok (ev, bal), store) =>
        let s := ({ s with store := store, journal := s.journal ++ [ev] }).keepCount user bal
        (bal, if TalkHub.bypassesCap reason then s
          else { s with toTalkHub := s.recordMintDay record user amount })
    | (.error _, store) => (s.store.ledger.balance user, { s with store := store })

theorem ledgerMint_eq (env : ReportEnv) («from» user : UserId) (n : UInt64)
    (reason session : String) : s.ledgerMint sha256 codec env «from» user n reason session
      = s.ledgerMintAt sha256 codec env.toEnv env.toEnv env.write env.stamp «from» user n reason
          session := rfl

end CountedHub

/-- What happens to the rows of the day. -/
inductive MintEvent where
  | mint (check record : Env) (w : Ledger.Write) (stamp : Ledger.Stamp) («from» user : UserId)
      (n : UInt64) (reason session : String)
  /-- anything else -/
  | other

/-- A hub and the clock as it was last read. -/
structure ClockedHub where
  hub : CountedHub
  clock : Nat

/-- The UTC day of a second. -/
def utcDay (unix : Nat) : Nat := unix / 86400

/-- One process of the hub: nobody has minted at its start. -/
def mintMachine (sha256 : String → List UInt8) (codec : Ledger.LineCodec) :
    Machine ClockedHub MintEvent where
  start s := s.hub.mintDay = ∅
  step s e s' := match e with
    | .mint check record w stamp «from» user n reason session =>
        s.clock ≤ check.unix ∧ check.unix ≤ stamp.ts.toNat ∧ stamp.ts.toNat ≤ record.unix
          ∧ s' = ⟨(s.hub.ledgerMintAt sha256 codec check record w stamp «from» user n reason
            session).2, record.unix⟩
    | .other => s'.hub.mintDay = s.hub.mintDay ∧ s.clock ≤ s'.clock

/-- The events of capped mints, in order. -/
def noteMint (log : List Ledger.StarEvent) (s : ClockedHub) (e : MintEvent) (s' : ClockedHub) :
    List Ledger.StarEvent :=
  match e with
  | .mint _ _ _ _ _ _ _ reason _ =>
      if TalkHub.bypassesCap reason then log
      else log ++ s'.hub.journal.drop s.hub.journal.length
  | .other => log

/-- The process with the events of its capped mints. -/
def mintRun (sha256 : String → List UInt8) (codec : Ledger.LineCodec) :
    Machine (ClockedHub × List Ledger.StarEvent) MintEvent :=
  (mintMachine sha256 codec).watch [] noteMint

/-- What some events mint to a user on a day. -/
def mintedOn (log : List Ledger.StarEvent) (user : UserId) (day : Nat) : Nat :=
  ((log.filter fun ev => ev.to = user && utcDay ev.ts.toNat = day).map (·.amount.toNat)).sum

end Ruletka
