/-
The ladder over a run of calls.

A log holds the calls of `record`, the latest first, each with its answer,
between which an operator may overturn offenses and old ones may be dropped.
The detector's ledger keeps hits without the guards they came with; the log
keeps both, and `onFile` says which of its entries are still on file.
-/
import Ruletka.Report.Genital
import Ruletka.Lib.Window

namespace Ruletka

namespace GenitalLedger

/-- `with_book`: only the offenses outlive a restart. -/
def withBook (book : Table UserId (List Offense)) : GenitalLedger :=
  { empty with offenses := book }

end GenitalLedger

/-- A call of `record` and its answer. -/
structure LadderCall where
  target : UserId
  hit : Hit
  guards : Guards
  nowMs : Nat
  /-- the offenses a new one would add to -/
  prior : List Offense
  answer : Decision
  deriving DecidableEq

namespace LadderCall

/-- The hit was not over the reporter's rate. -/
def accepted (c : LadderCall) : Bool :=
  match c.answer with
  | .reject _ => false
  | _ => true

/-- The call ended in a ban by this path. -/
def bannedBy (c : LadderCall) (path : String) : Bool :=
  match c.answer with
  | .ban b => b.path = path
  | _ => false

/-- The clusters behind a ban and the target's standing offenses. -/
def allClusters (c : LadderCall) (b : Ban) : Finset String :=
  c.prior.foldl (fun s o => s ∪ o.reporterClusters) b.reporterClusters

/-- The call ended in a ban for which this offense was booked. -/
def Books (c : LadderCall) (t : UserId) (o : Offense) : Prop :=
  c.target = t ∧ ∃ b : Ban, c.answer = .ban b ∧ o.at = c.nowMs / 1000 ∧ o.level = b.level
    ∧ o.path = b.path ∧ o.reporterClusters = b.reporterClusters

end LadderCall

namespace GenitalLedger

/-- The call on this ledger. -/
def callOf (g : GenitalLedger) (target : UserId) (hit : Hit) (guards : Guards) (nowMs : Nat) :
    LadderCall :=
  ⟨target, hit, guards, nowMs, g.priorOffenses target (nowMs / 1000),
    (g.record target hit guards nowMs).2⟩

end GenitalLedger

/-- The ledger that starts with a book and the calls of `record` it took so
far, at times that do not decrease. -/
inductive LadderLog (book : Table UserId (List Offense)) :
    GenitalLedger → List LadderCall → Prop where
  | start : LadderLog book (.withBook book) []
  | record {g : GenitalLedger} {log : List LadderCall} (target : UserId) (hit : Hit)
      (guards : Guards) (nowMs : Nat) : LadderLog book g log → (∀ c ∈ log, c.nowMs ≤ nowMs) →
      LadderLog book (g.record target hit guards nowMs).1
        (g.callOf target hit guards nowMs :: log)
  | overturn {g : GenitalLedger} {log : List LadderCall} (target : UserId) (nowSecs : Nat) :
      LadderLog book g log → LadderLog book (g.overturnRecent target nowSecs) log
  | gc {g : GenitalLedger} {log : List LadderCall} (nowSecs : Nat) :
      LadderLog book g log → LadderLog book (g.gc nowSecs) log

/-- The hits on a target that are fresh at a time. -/
def freshCalls (calls : List LadderCall) (nowMs : Nat) : List LadderCall :=
  calls.filter fun c => nowMs - c.hit.atMs < GenitalLedger.hitTtlMs

/-- The calls whose hits are on file against a target, the oldest first: a
ban spends them all. -/
def onFile (target : UserId) : List LadderCall → List LadderCall
  | [] => []
  | c :: log =>
    if c.target = target then
      match c.answer with
      | .reject _ => onFile target log
      | .counted _ => freshCalls (onFile target log) c.nowMs ++ [c]
      | .ban _ => []
    else onFile target log

end Ruletka
