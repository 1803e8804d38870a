/-
The star ledger: the tip in memory, the file on disk, replay and append.

# The file

`star_ledger.jsonl` is its complete lines and whatever follows the last
newline. A line is a list of characters, with `none` for a byte that is not
part of UTF-8 text: the reader fails on such a line, and only when it gets
there. A file that does not exist reads like an empty one. File offsets have
63 bits, so a file has fewer than `2 ^ 63` lines and a write beyond that
fails.

# What is outside

`serde_json` is a `LineCodec`: it prints an event as one JSON object on one
line and parses what it printed; and, a JSON text being one value, an object
that follows anything but white space is not an event. SHA-256 is any
function. A write that does not fail has written its whole line. The fresh
uuid and the clock of an append are its `Stamp`.
-/
import Ruletka.Ledger.Event
import Ruletka.Lib.Scan
import Mathlib.Data.Finset.Sort

namespace Ruletka.Ledger

open Text

/-- The events' line format. -/
structure LineCodec where
  print : StarEvent → String
  parse : String → Option StarEvent
  parse_print : ∀ ev, parse (print ev) = some ev
  braced : ∀ ev, ∃ body, print ev = "\x7b" ++ body ++ "\x7d"
  alone : ∀ ev t, trim t ≠ "" → parse (trim (t ++ print ev)) = none

/-- The characters of a line; `none` is a byte outside of UTF-8 text. -/
abbrev RawLine : Type := List (Option Char)

/-- A text as the characters of a line. -/
def rawOf (s : String) : RawLine := s.toList.map some

/-- The ledger file. -/
structure LedgerFile where
  /-- the lines that end in a newline -/
  lines : List RawLine
  /-- what follows the last newline -/
  tail : RawLine
  fits : lines.length < 2 ^ 63
  deriving DecidableEq

namespace LedgerFile

def empty : LedgerFile := ⟨[], [], by decide⟩

/-- The lines a reader sees. -/
def all (f : LedgerFile) : List RawLine := f.lines ++ [f.tail]

/-- Append a text and a newline. -/
def append (f : LedgerFile) (s : String) : Option LedgerFile :=
  if h : f.lines.length + 1 < 2 ^ 63 then
    some ⟨f.lines ++ [f.tail ++ rawOf s], [], by rwa [List.length_append]⟩
  else none

end LedgerFile

/-- The tip and the indexes in memory. -/
structure StarLedger where
  seq : UInt64
  tipHash : String
  spentOps : Finset String
  balances : Table String UInt64
  trust : Trust

namespace StarLedger

variable (sha256 : String → List UInt8) (codec : LineCodec)

def empty : StarLedger := ⟨0, "", ∅, ∅, ⟨∅, ∅, ∅⟩⟩

def balance (l : StarLedger) (user : String) : UInt64 :=
  if user = "" then 0 else (l.balances.get? user).getD 0

-- ===================================================================== one event

/-- Spends and clawbacks with an operation id are remembered. -/
def indexOp (ops : Finset String) (ev : StarEvent) : Finset String :=
  if (ev.kind = kindSpend ∨ ev.kind = kindClawback) ∧ ev.opId ≠ "" then insert ev.opId ops
  else ops

/-- The ledger after an event: the same updates stand in replay and in append. -/
def record (l : StarLedger) (ev : StarEvent) : StarLedger where
  seq := ev.seq
  tipHash := ev.hash
  spentOps := indexOp l.spentOps ev
  balances := applyEventToBalances l.balances ev
  trust := applyEventToTrust l.trust ev

-- ======================================================================== replay

/-- What `replay_file` makes of a line. -/
inductive Reading where
  /-- not UTF-8 -/
  | unreadable
  | blank
  | corrupt
  | event (ev : StarEvent)
  deriving DecidableEq

/-- Decode, trim and parse one line. -/
def readLine (raw : RawLine) : Reading :=
  if raw.any Option.isNone then .unreadable
  else
    let line := trim (String.ofList (raw.filterMap id))
    if line = "" then .blank
    else match codec.parse line with
      | some ev => .event ev
      | none => .corrupt

/-- One turn of the replay loop. The source's expected number and previous
hash are those of the last event taken: one more than `seq`, and `tip_hash`. -/
def replayLine (l : StarLedger) (raw : RawLine) : Verdict StarLedger :=
  match readLine codec raw with
  | .unreadable => .abort
  | .blank => .go l
  | .corrupt => .halt
  | .event ev =>
      if ev.seq ≠ l.seq + 1 then .halt
      else if ev.prevHash ≠ l.tipHash then .halt
      else if ev.recomputed sha256 ≠ ev.hash then .halt
      else .go (l.record ev)

/-- `replay_file`, and whether it read the file to its end. -/
def replayFile (f : LedgerFile) : Option (StarLedger × Bool) :=
  scan (replayLine sha256 codec) .empty f.all

end StarLedger

/-- The uuid and the time of an append. -/
structure Stamp where
  id : String
  ts : UInt64

/-- The ledger with its file. -/
structure Store where
  ledger : StarLedger
  file : LedgerFile

/-- `SpendError`. -/
inductive SpendError where
  | insufficient («have» need : UInt64)
  /-- the operation was applied before -/
  | alreadyApplied (fromBalance : UInt64)
  | io
  | empty
  deriving DecidableEq, Repr

namespace Store

variable (sha256 : String → List UInt8) (codec : LineCodec)

-- ======================================================================== append

/-- The event the next append writes. -/
def nextEvent (s : Store) (kind «from» «to» : String) (amount : UInt64)
    (reason session opId : String) (stamp : Stamp) : StarEvent :=
  let seq := satAdd s.ledger.seq 1
  { seq := seq, id := stamp.id, kind := kind, «from» := «from», «to» := «to»
    amount := amount, reason := reason, session := session, opId := opId, ts := stamp.ts
    prevHash := s.ledger.tipHash
    hash := eventHash sha256 seq stamp.id kind «from» «to» amount reason session opId stamp.ts
      s.ledger.tipHash }

/-- Write an event's line and take the event into memory. -/
def push (s : Store) (ev : StarEvent) : Option Store :=
  (s.file.append (codec.print ev)).map (⟨s.ledger.record ev, ·⟩)

/-- `append_event`. -/
def appendEvent (s : Store) (kind «from» «to» : String) (amount : UInt64)
    (reason session opId : String) (stamp : Stamp) : Except SpendError (StarEvent × Store) :=
  let ev := s.nextEvent sha256 kind «from» «to» amount reason session opId stamp
  match s.push codec ev with
  | some s => .ok (ev, s)
  | none => .error .io

-- ========================================================================== load

/-- The genesis entries: the users with stars, by name. -/
def genesisEntries (legacyCounts : Table String UInt64) : List (String × UInt64) :=
  ((legacyCounts.keys.filter fun u => u ≠ "" ∧ 0 < (legacyCounts.get? u).getD 0).sort
    (· ≤ ·)).map fun u => (u, (legacyCounts.get? u).getD 0)

/-- Seed an empty ledger from the old star counts, one event a user; `ids` are
the uuids of the appends. -/
def seed (ts : UInt64) (s : Store) : List (String × UInt64) → (ids : Nat → String) →
    Except SpendError Store
  | [], _ => .ok s
  | (uid, amt) :: entries, ids => do
      let (_, s) ← s.appendEvent sha256 codec kindAdjust "" uid amt "genesis_snapshot" "" ""
        ⟨ids 0, ts⟩
      seed ts s entries fun n => ids (n + 1)

/-- `load_or_migrate`. -/
def loadOrMigrate (file : LedgerFile) (legacyCounts : Table String UInt64)
    (ids : Nat → String) (ts : UInt64) : Except SpendError Store :=
  match StarLedger.replayFile sha256 codec file with
  | none => .error .io
  | some (ledger, _) =>
      if ledger.seq = 0 then
        seed sha256 codec ts ⟨ledger, file⟩ (genesisEntries legacyCounts) ids
      else .ok ⟨ledger, file⟩

-- ========================================================================= calls

/-- `mint_from`. -/
def mintFrom (s : Store) («from» «to» : String) (amount : UInt64) (reason session : String)
    (stamp : Stamp) : Except SpendError ((StarEvent × UInt64) × Store) :=
  if «to» = "" ∨ amount = 0 then
    .ok (({ seq := s.ledger.seq, id := "", kind := kindMint, «from» := «from», «to» := «to»
            amount := 0, reason := reason, session := session, opId := "", ts := stamp.ts
            prevHash := s.ledger.tipHash, hash := s.ledger.tipHash },
          s.ledger.balance «to»), s)
  else do
    let (ev, s) ← s.appendEvent sha256 codec kindMint «from» «to» amount reason session ""
      stamp
    return ((ev, s.ledger.balance «to»), s)

/-- `mint`. -/
def mint (s : Store) («to» : String) (amount : UInt64) (reason session : String)
    (stamp : Stamp) : Except SpendError ((StarEvent × UInt64) × Store) :=
  s.mintFrom sha256 codec "" «to» amount reason session stamp

/-- `adjust`. -/
def adjust (s : Store) («to» : String) (amount : UInt64) (reason : String) (stamp : Stamp) :
    Except SpendError ((StarEvent × UInt64) × Store) :=
  if «to» = "" ∨ amount = 0 then s.mint sha256 codec «to» 0 reason "" stamp
  else do
    let (ev, s) ← s.appendEvent sha256 codec kindAdjust "" «to» amount reason "" "" stamp
    return ((ev, s.ledger.balance «to»), s)

/-- `spend`. -/
def spend (s : Store) («from» «to» : String) (amount : UInt64)
    (reason opId session : String) (stamp : Stamp) :
    Except SpendError ((StarEvent × UInt64) × Store) :=
  let op := trim opId
  let balance := s.ledger.balance «from»
  if «from» = "" ∨ amount = 0 then .error .empty
  else if op ≠ "" ∧ op ∈ s.ledger.spentOps then .error (.alreadyApplied balance)
  else if balance < amount then .error (.insufficient balance amount)
  else do
    let (ev, s) ← s.appendEvent sha256 codec kindSpend «from» «to» amount reason session op
      stamp
    return ((ev, s.ledger.balance «from»), s)

/-- `clawback`. -/
def clawback (s : Store) (userId : String) (balanceBurn trustBurn : UInt64)
    (reason opId : String) (stamp : Stamp) :
    Except SpendError ((StarEvent × UInt64) × Store) :=
  let uid := trim userId
  let op := trim opId
  if uid = "" then .error .empty
  else if balanceBurn = 0 ∧ trustBurn = 0 then .error .empty
  else if op ≠ "" ∧ op ∈ s.ledger.spentOps then .error (.alreadyApplied (s.ledger.balance uid))
  else do
    let bal := min balanceBurn (s.ledger.balance uid)
    let session := "trust:" ++ toString trustBurn
    let note := if reason = "" then "clawback" else takeChars 96 reason
    let (ev, s) ← s.appendEvent sha256 codec kindClawback uid "" bal note session op stamp
    return ((ev, s.ledger.balance uid), s)

end Store

/-- A call on the ledger, with the stamp it gets. -/
inductive Call where
  | mintFrom («from» «to» : String) (amount : UInt64) (reason session : String) (stamp : Stamp)
  | adjust («to» : String) (amount : UInt64) (reason : String) (stamp : Stamp)
  | spend («from» «to» : String) (amount : UInt64) (reason opId session : String)
      (stamp : Stamp)
  | clawback (userId : String) (balanceBurn trustBurn : UInt64) (reason opId : String)
      (stamp : Stamp)

namespace Call

variable (sha256 : String → List UInt8) (codec : LineCodec)

/-- Make the call. -/
def apply (s : Store) : Call → Except SpendError ((StarEvent × UInt64) × Store)
  | .mintFrom «from» «to» amount reason session stamp =>
      s.mintFrom sha256 codec «from» «to» amount reason session stamp
  | .adjust «to» amount reason stamp => s.adjust sha256 codec «to» amount reason stamp
  | .spend «from» «to» amount reason opId session stamp =>
      s.spend sha256 codec «from» «to» amount reason opId session stamp
  | .clawback userId balanceBurn trustBurn reason opId stamp =>
      s.clawback sha256 codec userId balanceBurn trustBurn reason opId stamp

/-- A sequence of successful calls. -/
def runAll : Store → List Call → Except SpendError Store
  | s, [] => .ok s
  | s, c :: calls => do
      let (_, s) ← c.apply sha256 codec s
      runAll s calls

/-- A mint or adjust of nothing or to nobody. -/
def Idle : Call → Prop
  | .mintFrom _ «to» amount .. => «to» = "" ∨ amount = 0
  | .adjust «to» amount .. => «to» = "" ∨ amount = 0
  | .spend .. => False
  | .clawback .. => False

instance : DecidablePred Idle
  | .mintFrom .. => inferInstanceAs (Decidable (_ ∨ _))
  | .adjust .. => inferInstanceAs (Decidable (_ ∨ _))
  | .spend .. => .isFalse id
  | .clawback .. => .isFalse id

end Call

end Ruletka.Ledger
