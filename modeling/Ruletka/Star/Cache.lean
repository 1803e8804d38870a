/-
The star counts the hub keeps beside the ledger, and the four calls that
move them.

The ledger is the authority for balances; `star_counts` is a copy that the
friends file is written from. It is taken whole from the ledger at start, and
from then on each call puts in the balance the ledger returned. Rewards and
the gifts of a rating reach the ledger through `ledger_mint` and nothing
else. Which texts `Uuid::parse_str` takes and how an I/O error reads are
parameters.
-/
import Ruletka.Lib.Machine
import Ruletka.Report.Handle
import Ruletka.Star.Talk

namespace Ruletka

open Text

/-- The hub with its star counts. -/
structure CountedHub extends TalkHub where
  starCounts : Table UserId UInt64

namespace CountedHub

variable (sha256 : String → List UInt8) (codec : Ledger.LineCodec) (isUuid : String → Bool)
variable (s : CountedHub)

/-- The star count of a user as it is read. -/
def count (user : UserId) : UInt64 := (s.starCounts.get? user).getD 0

/-- Put in a balance; no row stands for zero. -/
def keepCount (user : UserId) (bal : UInt64) : CountedHub :=
  { s with starCounts :=
      if bal = 0 then s.starCounts.del user else s.starCounts.set user bal }

-- ========================================================================= calls

/-- `ledger_mint`. -/
def ledgerMint (env : ReportEnv) («from» user : UserId) (n : UInt64) (reason session : String) :
    UInt64 × CountedHub :=
  let amount := s.mintable env.toEnv user n.toNat reason
  if amount = 0 then (s.store.ledger.balance user, s)
  else match s.store.tryMintFrom sha256 codec env.write «from» user (UInt64.ofNat amount) reason
      session env.stamp with
    | (.ok (ev, bal), store) =>
        let s := ({ s with store := store, journal := s.journal ++ [ev] }).keepCount user bal
        (bal, if TalkHub.bypassesCap reason then s
          else { s with toTalkHub := s.recordMintDay env.toEnv user amount })
    | (.error _, store) => (s.store.ledger.balance user, { s with store := store })

/-- `ledger_spend`. A spend that was applied before refreshes the count. -/
def ledgerSpend (env : ReportEnv) («from» «to» : UserId) (amount : UInt64)
    (reason opId session : String) : Except String UInt64 × CountedHub :=
  match s.store.trySpend sha256 codec env.write «from» «to» amount reason opId session
      env.stamp with
  | (.ok (ev, bal), store) =>
      (.ok bal, ({ s with store := store, journal := s.journal ++ [ev] }).keepCount «from» bal)
  | (.error (.alreadyApplied bal), store) =>
      (.error (StarHub.debitError (.alreadyApplied bal)),
        ({ s with store := store }).keepCount «from» bal)
  | (.error e, store) => (.error (StarHub.debitError e), { s with store := store })

/-- The reason a ban burns under. -/
def clawbackReason (banReason : String) : String :=
  let r := takeChars 32 (String.ofList (banReason.toList.filter fun c =>
    c.isAlphanum || c = '_' || c = '-'))
  "clawback:ban:" ++ (if r = "" then "report" else r)

/-- The operation id a ban burns under. -/
def clawbackOp (env : Env) (user : UserId) (banReason : String) : String :=
  "claw|" ++ user ++ "|" ++ toString env.unix ++ "|" ++ takeChars 24 (clawbackReason banReason)

/-- `clawback_on_ban`: the ledger trims the user id, the counts do not. -/
def clawbackOnBan (env : ReportEnv) (user : UserId) (banReason : String) : CountedHub :=
  let bal := s.starsFor user
  let trust := s.trustFor user
  let burnBal := ReportHub.burnOf bal 25 100
  let burnTrust := ReportHub.burnOf trust 35 80
  if user = "" ∨ (bal = 0 ∧ trust = 0) ∨ (burnBal = 0 ∧ burnTrust = 0) then s
  else match s.store.tryClawback sha256 codec env.write user (UInt64.ofNat burnBal)
      (UInt64.ofNat burnTrust) (clawbackReason banReason) (clawbackOp env.toEnv user banReason)
      env.stamp with
    | (.ok (ev, newBal), store) =>
        ({ s with store := store, journal := s.journal ++ [ev] }).keepCount user newBal
    | (.error _, store) => { s with store := store }

def isHexdigit (c : Char) : Bool :=
  '0' ≤ c && c ≤ '9' || 'a' ≤ c && c ≤ 'f' || 'A' ≤ c && c ≤ 'F'

/-- `resolve_admin_user_id`: a uuid, or a friend code. -/
def resolveAdminUserId (raw : String) : Except String UserId :=
  let t := trim raw
  let code := upper t
  if t = "" then .error "user_id required"
  else if isUuid t then .ok t
  else if code.utf8ByteSize = 8 ∧ code.toList.all isHexdigit then
    match s.hub.codeIndex.get? code with
    | some uid => .ok uid
    | none => .error ("unknown friend code " ++ code)
  else .error "use a user UUID or 8-character friend code"

/-- The reason a grant is recorded under. -/
def grantReason (raw : String) : String :=
  let r := trim raw
  if r = "" then "admin:grant"
  else if hasPrefix r "admin:" then takeChars 80 r
  else "admin:" ++ takeChars 64 r

/-- `admin_grant_stars`. -/
def adminGrantStars (env : ReportEnv) (raw : String) (amount : UInt64) (reason ioText : String) :
    Except String (UserId × UInt64) × CountedHub :=
  match s.resolveAdminUserId isUuid raw with
  | .error e => (.error e, s)
  | .ok uid =>
      if amount = 0 ∨ 10000 < amount then (.error "amount must be 1..=10000", s)
      else match s.store.tryAdjust sha256 codec env.write uid amount (grantReason reason)
          env.stamp with
        | (.ok (ev, bal), store) =>
            let journal := if uid = "" then s.journal else s.journal ++ [ev]
            let s := ({ s with store := store, journal := journal }).keepCount uid bal
            (.ok (uid, bal), { s with
              toTalkHub := { s.toTalkHub with
                talkOut := s.talkOut ++ ((s.hub.byUser.get? uid).toList.filter s.hub.has).map
                  fun id => (id, .rateResult true uid true amount.toNat bal.toNat (s.trustFor uid)
                    ("admin grant · ★" ++ toString amount ++ " (balance ★" ++ toString bal ++ ")")
                    "") } })
        | (.error _, store) => (.error ("ledger: " ++ ioText), { s with store := store })

-- ===================================================================== the machine

/-- The ledger at start; one that cannot be loaded is begun empty. -/
def openLedger (file : Ledger.LedgerFile) (legacyCounts : Table String UInt64)
    (ids : Nat → String) (ts : UInt64) : Ledger.Store :=
  match Ledger.Store.loadOrMigrate sha256 codec file legacyCounts ids ts with
  | .ok store => store
  | .error _ => ⟨.empty, file⟩

end CountedHub

/-- What happens to the counts or the ledger. -/
inductive CountEvent where
  | mint (env : ReportEnv) («from» user : UserId) (n : UInt64) (reason session : String)
  | spend (env : ReportEnv) («from» «to» : UserId) (amount : UInt64)
      (reason opId session : String)
  | clawback (env : ReportEnv) (user : UserId) (banReason : String)
  | grant (env : ReportEnv) (raw : String) (amount : UInt64) (reason ioText : String)
  /-- whatever else the hub does: its other fields are anything after it -/
  | other (rest : TalkHub)

namespace CountedHub

variable (sha256 : String → List UInt8) (codec : Ledger.LineCodec) (isUuid : String → Bool)

def step (s : CountedHub) : CountEvent → CountedHub
  | .mint env «from» user n reason session =>
      (s.ledgerMint sha256 codec env «from» user n reason session).2
  | .spend env «from» «to» amount reason opId session =>
      (s.ledgerSpend sha256 codec env «from» «to» amount reason opId session).2
  | .clawback env user banReason => s.clawbackOnBan sha256 codec env user banReason
  | .grant env raw amount reason ioText =>
      (s.adminGrantStars sha256 codec isUuid env raw amount reason ioText).2
  | .other rest => { s with toTalkHub := { rest with store := s.store } }

end CountedHub

/-- The hub from a start on any ledger file. -/
def countMachine (sha256 : String → List UInt8) (codec : Ledger.LineCodec)
    (isUuid : String → Bool) : Machine CountedHub CountEvent where
  start s := ∃ file legacyCounts ids ts,
    s.store = CountedHub.openLedger sha256 codec file legacyCounts ids ts
      ∧ s.starCounts = s.store.ledger.balances
  step s e s' := s' = s.step sha256 codec isUuid e

end Ruletka
