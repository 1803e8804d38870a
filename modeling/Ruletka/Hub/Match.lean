/-
`try_match`: sweep expired holds, then pop, scan and pair queue slots
under a step budget.

The scan keeps three candidates: the best soft match by trust rank, the
first compatible slot, and the first slot that would rematch a pair that
just parted. Popped slots without a candidate rotate to the back.
-/
import Ruletka.Hub.Holds

namespace Ruletka

namespace SimpleHub

-- ============================================================ compatibility

/-- No member of one slot is banned, blocks, or is blocked by a member of
the other, and the shapes fit. -/
def entriesCompatible (h : SimpleHub) (env : Env) (left right : QueueEntry) :
    Bool :=
  queueShapeOk left right
    && (queueEntryIds left).all fun a =>
      !h.isMatchBannedConn env a && (queueEntryIds right).all fun b =>
        !h.isMatchBannedConn env b && !h.isBlockedPairConn a b

def lastPartnerOf (h : SimpleHub) (id : ConnId) : Option ConnId :=
  (h.get id).bind (·.lastPartner)

/-- The pair (or party and third) that just parted. -/
def isLastPartnerRematch (h : SimpleHub) : QueueEntry → QueueEntry → Bool
  | .solo a, .solo b => h.lastPartnerOf a = some b || h.lastPartnerOf b = some a
  | .solo s, .party a b | .party a b, .solo s =>
      h.lastPartnerOf s = some a || h.lastPartnerOf s = some b
        || h.lastPartnerOf a = some s || h.lastPartnerOf b = some s
  | _, _ => false

def prefsAccept (a b : Client) : Bool :=
  lookingAccepts a.looking b.gender && lookingAccepts b.looking a.gender
    && tagsSoftOk a.tags b.tags

/-- The soft preferences of a solo against every member of a party. -/
def soloPrefsSoftOk (h : SimpleHub) (s : ConnId) (party : List ConnId) : Bool :=
  match h.get s with
  | none => false
  | some cs => party.all fun pid => (h.get pid).any (prefsAccept cs)

/-- Soft gender and tag preferences; never a hard filter. -/
def entriesPrefsSoftOk (h : SimpleHub) : QueueEntry → QueueEntry → Bool
  | .solo a, .solo b => h.soloPrefsSoftOk a [b]
  | .solo s, .party a b | .party a b, .solo s => h.soloPrefsSoftOk s [a, b]
  | .solo s, .party3 a b c | .party3 a b c, .solo s =>
      h.soloPrefsSoftOk s [a, b, c]
  | _, _ => true

/-- Social health of a slot: the best of its members. -/
def entryTrust (h : SimpleHub) (env : Env) (e : QueueEntry) : Nat :=
  ((queueEntryIds e).map fun id =>
    ((h.get id).map fun c => env.socialHealth c.userId).getD 0).foldl max 0

def seniorReporterStars : Nat := 250
def trustedReporterStars : Nat := 100

/-- Soft ranking among preference-compatible slots. -/
def pairTrustRank (h : SimpleHub) (env : Env) (left right : QueueEntry) : Int :=
  let ta := h.entryTrust env left
  let tb := h.entryTrust env right
  let newcomers : Int :=
    if ta = 0 ∧ tb = 0 then -50
    else if (ta = 0) ≠ (tb = 0) then 25
    else 8
  let busy : Int :=
    if 3 ≤ h.waitingSoloCount then
      if seniorReporterStars ≤ ta ∨ seniorReporterStars ≤ tb then 12
      else if trustedReporterStars ≤ ta ∨ trustedReporterStars ≤ tb then 6
      else 0
    else 0
  newcomers + busy + ((min (min ta tb) 50 / 10 : Nat) : Int)

def rematchCooldownSecs : Nat := 12

/-- Somebody in the two slots was unmatched moments ago. -/
def recentlyUnmatched (h : SimpleHub) (env : Env) (left right : QueueEntry) :
    Bool :=
  (queueEntryIds left ++ queueEntryIds right).any fun id =>
    ((h.get id).bind (·.lastUnmatchAt)).any fun t =>
      env.elapsed t < secs rematchCooldownSecs

-- =================================================================== the scan

/-- The three candidates of one scan, by queue index. -/
structure Candidates where
  bestSoft : Option (Nat × Int)
  fallback : Option Nat
  rematch : Option Nat

namespace Candidates

def none : Candidates := ⟨.none, .none, .none⟩

/-- A better-ranked soft match replaces the best so far. -/
def offerSoft (c : Candidates) (i : Nat) (rank : Int) : Candidates :=
  match c.bestSoft with
  | some (_, best) =>
      if rank ≤ best then c else { c with bestSoft := some (i, rank) }
  | .none => { c with bestSoft := some (i, rank) }

def found (c : Candidates) : Option Nat :=
  (c.bestSoft.map (·.1)).or (c.fallback.or c.rematch)

end Candidates

/-- Redundant with `queueShapeOk`: a leftover shape on either side. -/
def strangerPartyBlocks2v2 (left right : QueueEntry) : Bool :=
  (left matches .party3 ..) || (right matches .party3 ..)

/-- The hard conditions on a second slot. -/
def isCandidate (h : SimpleHub) (env : Env) (first e : QueueEntry) : Bool :=
  h.queueEntryRoom e = h.queueEntryRoom first && h.queueEntryWaitingOk e
    && h.queueEntryFresh env e && h.queueEntryFaceOk env e
    && h.entriesCompatible env first e && !strangerPartyBlocks2v2 first e

/-- One slot of the scan. -/
def scanEntry (h : SimpleHub) (env : Env) (first : QueueEntry)
    (acc : Candidates) (e : QueueEntry) (i : Nat) : Candidates :=
  if !h.isCandidate env first e then acc
  else if h.isLastPartnerRematch first e then
    if h.recentlyUnmatched env first e then acc
    else { acc with rematch := acc.rematch.or (some i) }
  else if h.entriesPrefsSoftOk first e then
    acc.offerSoft i (h.pairTrustRank env first e)
  else { acc with fallback := acc.fallback.or (some i) }

/-- The index of the slot to pair with `first`, if any. -/
def findSecond (h : SimpleHub) (env : Env) (first : QueueEntry) : Option Nat :=
  (h.queue.zipIdx.foldl (fun acc (e, i) => h.scanEntry env first acc e i)
    Candidates.none).found

-- ================================================================ the pairing

/-- This pair already has a live third. -/
def partyAlreadyIn1v2 (h : SimpleHub) (a b : ConnId) : Bool :=
  [a, b].any fun id => (h.get id).any fun c =>
    c.phase = .matched && decide (∃ p ∈ c.sessionPeers, p ≠ a ∧ p ≠ b)

/-- Start the session of two slots that were taken out of the queue. A
pair holding a leftover shape never gets here: `queueShapeOk` refuses it. -/
def pairEntries (h : SimpleHub) (env : Env) : QueueEntry → QueueEntry → SimpleHub
  | .solo a, .solo b =>
      if h.phaseOf a = some .waiting && h.phaseOf b = some .waiting then
        ((h.takeWaitStarted a).takeWaitStarted b).startSoloMatch env a b
      else
        -- do not drop slots: put the waiters back
        [a, b].foldl (fun h id =>
          if h.phaseOf id = some .waiting then h.enqueueSolo id else h) h
  | .solo s, .party a b | .party a b, .solo s =>
      if h.partyAlreadyIn1v2 a b then
        if h.phaseOf s = some .waiting then h.enqueueSolo s else h
      else
        (((h.takeWaitStarted s).takeWaitStarted a).takeWaitStarted b).startPartyVsSolo
          env s a b
  | .party a1 a2, .party b1 b2 =>
      ((((h.takeWaitStarted a1).takeWaitStarted a2).takeWaitStarted
        b1).takeWaitStarted b2).startPartyVsParty env a1 a2 b1 b2
  | _, _ => h

/-- One turn of the loop on the popped slot; `false` is the early break. -/
def matchTurn (h : SimpleHub) (env : Env) (steps : Nat) (first : QueueEntry) :
    SimpleHub × Bool :=
  let rotate : SimpleHub × Bool :=
    let h := h.setQueue (h.queue ++ [first])
    (h, h.queue.length ≤ steps)
  match first with
  | .party3 _ _ _ => (h, true)
  | first =>
    if !h.queueEntryWaitingOk first then (h, true)
    else if !h.queueEntryFresh env first then rotate
    else if !h.queueEntryFaceOk env first then rotate
    else match h.findSecond env first with
      | none => rotate
      | some i =>
        match h.queue[i]? with
        | none => (h, true)
        | some second =>
            ((h.setQueue (h.queue.eraseIdx i)).pairEntries env first second,
              true)

/-- The pairing loop under its step budget. -/
def matchLoop (env : Env) : Nat → SimpleHub → SimpleHub
  | 0, h => h
  | steps + 1, h =>
    match h.queue with
    | [] => h
    | first :: rest =>
      match (h.setQueue rest).matchTurn env steps first with
      | (h, true) => matchLoop env steps h
      | (h, false) => h

/-- The pairing loop with the budget `try_match` gives it. -/
def rematch (h : SimpleHub) (env : Env) : SimpleHub :=
  matchLoop env (max (h.queue.length * 4) 8) h

/-- `try_match`, with the number of re-entries it may nest. -/
def tryMatch (env : Env) : Nat → SimpleHub → Option SimpleHub
  | 0, _ => none
  | fuel + 1, h => do
    let h ← h.expireWsHolds env (tryMatch env fuel)
    some (h.rematch env)

end SimpleHub

end Ruletka
