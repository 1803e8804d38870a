/-
The lobby: who sits with whom, and who waits.

This is what the session code is for, without messages, clocks, rooms and
session ids: every connection has a `Seat` (its phase and its four kinds of
pointers), and there is one queue. Each session operation of the hub is an
operation of the lobby, named after what it does to the seats; that the hub
computes it is `Hub/Proofs/Lobby.lean`.
-/
import Ruletka.Hub.Step

namespace Ruletka

/-- The session fields of one connection. -/
structure Seat where
  phase : Phase
  partner : Option ConnId
  peers : Finset ConnId
  friendCall : Option ConnId
  partyWith : Option ConnId
  deriving DecidableEq

namespace Seat

/-- Nobody around. -/
def free : Seat := ⟨.idle, none, ∅, none, none⟩

/-- Enter a session with these peers, the first of them the partner. -/
def join (s : Seat) (others : List ConnId) (party : Option ConnId) : Seat :=
  { s with
    phase := .matched
    peers := others.toFinset
    partner := others.head?
    partyWith := party }

/-- Alone with one peer in a match. -/
def pairWith (s : Seat) (them : ConnId) : Seat :=
  { s with phase := .matched, partner := some them, peers := {them} }

/-- One half of a party in the queue. -/
def huntWith (s : Seat) (mate : ConnId) : Seat :=
  { s with
    phase := .waiting
    partner := some mate
    peers := {mate}
    partyWith := some mate }

/-- One half of a friend call. -/
def callWith (s : Seat) (friend : ConnId) : Seat :=
  { s with
    phase := .friendCall
    partner := some friend
    peers := {friend}
    friendCall := some friend
    partyWith := none }

/-- Out of the session, still on the side of a party mate or a friend. -/
def unmatch (s : Seat) : Seat :=
  { s with
    phase := if s.partyWith.isSome then .waiting
      else if s.friendCall.isSome then .friendCall
      else .idle
    partner := none
    peers := ∅ }

/-- Forget a leaver. -/
def prune (s : Seat) (o : IterOrder ConnId) (leaving : ConnId) : Seat :=
  let rest := s.peers.erase leaving
  { s with
    peers := rest
    friendCall := if s.friendCall = some leaving then none else s.friendCall
    partner := if s.partner = some leaving then (o.run rest).head? else s.partner }

/-- Alone in the queue. -/
def alone (s : Seat) : Seat :=
  { s with phase := .waiting, partner := none, peers := ∅, partyWith := none }

end Seat

/-- The session fields of a record. -/
def Client.seat (c : Client) : Seat :=
  ⟨c.phase, c.partner, c.sessionPeers, c.friendCall, c.partyWith⟩

/-- The seats of all connections, and the queue. -/
structure Lobby where
  seat : ConnId → Option Seat
  queue : List QueueEntry

/-- The lobby of a hub. -/
def SimpleHub.lobby (h : SimpleHub) : Lobby where
  seat := fun x => (h.get x).map Client.seat
  queue := h.queue

namespace Lobby

variable (L : Lobby)

-- ============================================================= primitive steps

/-- Rewrite one seat. -/
def alter (x : ConnId) (f : Seat → Seat) : Lobby :=
  { L with seat := fun y => if y = x then (L.seat y).map f else L.seat y }

/-- Drop the slots of a connection. -/
def drop (x : ConnId) : Lobby :=
  { L with queue := L.queue.filter fun e => x ∉ queueEntryIds e }

/-- Append a slot. -/
def push (e : QueueEntry) : Lobby := { L with queue := L.queue ++ [e] }

/-- Remove a seat. -/
def leave (x : ConnId) : Lobby :=
  { L with seat := fun y => if y = x then none else L.seat y }

def has (x : ConnId) : Bool := (L.seat x).isSome

def phaseOf (x : ConnId) : Option Phase := (L.seat x).map (·.phase)

def peersOf (x : ConnId) : Finset ConnId := ((L.seat x).map (·.peers)).getD ∅

def partnerOf (x : ConnId) : Option ConnId := (L.seat x).bind (·.partner)

def friendCallOf (x : ConnId) : Option ConnId := (L.seat x).bind (·.friendCall)

def partyWithOf (x : ConnId) : Option ConnId := (L.seat x).bind (·.partyWith)

-- ================================================================= operations

/-- `enqueue_solo` of a connection without a slot. -/
def enqueueSolo (x : ConnId) : Lobby := (L.drop x).push (.solo x)

/-- `enqueue_party`. -/
def enqueueParty (a b : ConnId) : Lobby :=
  ((((L.drop a).drop b).push (if a < b then .party a b else .party b a)).alter a
    (·.huntWith b)).alter b (·.huntWith a)

/-- `start_solo_match`. -/
def pair (a b : ConnId) : Lobby :=
  if L.phaseOf a = some .waiting ∧ L.phaseOf b = some .waiting then
    (((L.drop a).drop b).alter a (·.pairWith b)).alter b (·.pairWith a)
  else L

/-- `start_friend_session`. -/
def call (a b : ConnId) : Lobby := (L.alter a (·.callWith b)).alter b (·.callWith a)

/-- `start_party_vs_solo`. -/
def trio (s a b : ConnId) : Lobby :=
  (((((L.drop s).drop a).drop b).alter s (·.join [a, b] none)).alter a
    (·.join [s, b] (some b))).alter b (·.join [s, a] (some a))

/-- `start_party_vs_party`. -/
def duo (a1 a2 b1 b2 : ConnId) : Lobby :=
  (((L.alter a1 (·.join [b1, b2, a2] (some a2))).alter a2
    (·.join [b1, b2, a1] (some a1))).alter b1
      (·.join [a1, a2, b2] (some b2))).alter b2 (·.join [a1, a2, b1] (some b1))

/-- `start_three_person_join`. -/
def join3 (a b c : ConnId) : Lobby :=
  let side := fun (me : ConnId) (others : List ConnId) (party : Option ConnId)
      (L : Lobby) => L.alter me fun s =>
    { s.join others party with friendCall := if me = c then none else s.friendCall }
  side c [a, b] none (side b [a, c] (some a) (side a [b, c] (some b) L))

/-- `start_four_person_join`. -/
def join4 (a b c d : ConnId) : Lobby :=
  let side := fun (me : ConnId) (others : List ConnId) (party : Option ConnId)
      (L : Lobby) => L.alter me fun s =>
    { s.join others party with friendCall := if me = d then none else s.friendCall }
  if L.has a ∧ L.has b ∧ L.has c ∧ L.has d then
    side d [a, b, c] none (side c [a, b, d] (some a)
      (side b [a, c, d] (some a) (side a [b, c, d] (some b) L)))
  else L

/-- `unmatch_one`. -/
def unmatchOne (x : ConnId) : Lobby :=
  let L' := (L.drop x).alter x Seat.unmatch
  match L.partyWithOf x with
  | some p => if L.has x ∧ L.has p then L'.enqueueParty x p else L'
  | none => L'

/-- `force_session_idle`. -/
def forceIdle (x : ConnId) : Lobby := (L.drop x).alter x fun _ => .free

/-- `collapse_to_solo_1v1`. -/
def collapse (a b : ConnId) : Lobby :=
  let reset := fun (_ : Seat) => { Seat.free with phase := .waiting }
  ((((L.drop a).drop b).alter a reset).alter b reset).pair a b

/-- One side of `end_friend_call`. -/
def hangUp (x : ConnId) : Lobby := (L.alter x fun _ => .free).drop x

/-- `end_friend_call`. -/
def endFriendCall (x : ConnId) : Lobby :=
  match L.friendCallOf x with
  | some f => (L.hangUp x).hangUp f
  | none => L.hangUp x

/-- The leaver's mate forgets that the leaver was its mate. -/
def unmate (mate leaving : ConnId) : Lobby :=
  L.alter mate fun s =>
    { s with
      partyWith := if s.partyWith = some leaving then none else s.partyWith
      friendCall := if s.friendCall = some leaving then none else s.friendCall }

def partyLinked (a b : ConnId) : Bool :=
  L.partyWithOf a = some b || L.partyWithOf b = some a

/-- The strangers a leaver leaves to its mate. -/
def strangers (o : IterOrder ConnId) (mate : ConnId) (peers : Finset ConnId) :
    List ConnId :=
  (o.run peers).filter fun p => p ≠ mate && L.has p

def pruneAll (o : ConnId → IterOrder ConnId) (leaving : ConnId) (l : List ConnId) :
    Lobby :=
  l.foldl (fun L p => L.alter p (·.prune (o p) leaving)) L

/-- The mate of a leaver with the strangers of their session. -/
def keepStrangers (mate : ConnId) : List ConnId → Lobby
  | [] => (L.alter mate fun s => { Seat.free with friendCall := s.friendCall }).drop mate
  | [s] => L.collapse mate s
  | o0 :: o1 :: extra =>
      if L.partyLinked o0 o1 ∧ L.has o0 ∧ L.has o1 ∧ L.has mate then
        (extra.foldl forceIdle L).trio mate o0 o1
      else ((o1 :: extra).foldl forceIdle L).collapse mate o0

/-- `leave_keep_remaining_pair`, Case A. -/
def leaveMate (o : ConnId → IterOrder ConnId) (leaving mate : ConnId)
    (peers : Finset ConnId) : Lobby :=
  let strangers := L.strangers (o leaving) mate peers
  ((L.pruneAll o leaving (strangers ++ [mate])).unmate mate leaving).keepStrangers mate
    strangers

/-- `leave_keep_remaining_pair`, Case B with a linked pair. -/
def huntAgain (leaving a b : ConnId) : Lobby :=
  let search := fun (s : Seat) =>
    { s with peers := s.peers.erase leaving, partner := s.partyWith, phase := .waiting }
  ((L.alter a search).alter b search).enqueueParty a b

/-- `leave_keep_remaining_pair` up to its call of `try_match`; the flag
tells whether the others were seen to. -/
def leaveKeep (o : ConnId → IterOrder ConnId) (x : ConnId) : Lobby × Bool :=
  match L.seat x with
  | none => (L, false)
  | some s =>
    match s.partyWith with
    | some mate => if L.has mate then (L.leaveMate o x mate s.peers, true) else (L, false)
    | none =>
      if s.peers.card = 2 ∧ s.phase = .matched then
        match (o x).run s.peers with
        | [a, b] =>
            if L.partyLinked a b ∧ L.has a ∧ L.has b then (L.huntAgain x a b, true)
            else if L.has a ∧ L.has b ∧ a ≠ x ∧ b ≠ x then (L.collapse a b, true)
            else (L, false)
        | _ => (L, false)
      else (L, false)

/-- The end of a leaver's party. -/
def dissolve (leaving mate : ConnId) : Lobby :=
  (L.alter mate fun s =>
    { s with
      partyWith := none
      friendCall := if s.friendCall = some leaving then none else s.friendCall
      phase := if s.phase = .waiting then .idle else s.phase }).drop mate

/-- What `remove_client` does to the others when no trio leave applied. -/
def releaseOthers (o : IterOrder ConnId) (x : ConnId) (s : Seat) : Lobby :=
  let L := onSome s.friendCall L endFriendCall
  let L := onSome s.partyWith L (·.dissolve x ·)
  let L := (o.run s.peers).foldl unmatchOne L
  onSome s.partner L fun L p => if p ∈ L.peersOf x then L else L.unmatchOne p

/-- `remove_client` of a connection whose hold does not keep it, up to its
calls of `try_match`. -/
def expel (o : ConnId → IterOrder ConnId) (x : ConnId) : Lobby :=
  match L.seat x with
  | none => L.drop x
  | some s =>
      let r := (L.drop x).leaveKeep o x
      (if r.2 then r.1 else r.1.releaseOthers (o x) x s).leave x

/-- `place_in_solo_queue`. -/
def placeAlone (x : ConnId) : Lobby := ((L.drop x).alter x Seat.alone).enqueueSolo x

/-- What one former peer of a leaver gets. -/
def releasePeer (x p : ConnId) : Lobby :=
  if L.friendCallOf x = some p ∨ L.partyWithOf x = some p then L
  else
    let L := L.unmatchOne p
    if (L.seat p).any fun s =>
        s.friendCall.isNone && s.partyWith.isNone && s.phase = .idle
    then L.placeAlone p else L

/-- `clear_match_state_with_partner_msg`. -/
def clearMatch (o : IterOrder ConnId) (x : ConnId) : Lobby :=
  ((o.run (L.peersOf x)).foldl (fun L p => L.releasePeer x p)
    ((L.drop x).alter x fun s =>
      { s with
        partner := none
        peers := ∅
        phase := if s.phase = .matched ∨ s.phase = .waiting then .idle else s.phase }))

/-- One side of `party_requeue`. -/
def requeueSide (o : IterOrder ConnId) (x : ConnId) : Lobby :=
  let strangers := match L.seat x with
    | some s => (o.run s.peers).filter fun p =>
        some p ≠ s.partyWith && some p ≠ s.friendCall
    | none => []
  (strangers.foldl placeAlone L).alter x fun s =>
    { s with
      peers := match s.friendCall with
        | some f => {f}
        | none => s.peers
      partner := match s.friendCall with
        | some f => some f
        | none => s.partner }

/-- Move a held seat to a new connection. -/
def adopt (old new partner : ConnId) (held : Seat) : Lobby :=
  ((L.alter partner fun p =>
    { p with
      partner := if p.partner = some old then some new else p.partner
      peers := if old ∈ p.peers then insert new (p.peers.erase old) else p.peers
      friendCall := if p.friendCall = some old then some new else p.friendCall }).alter
    new fun n =>
      { n with
        phase := .matched
        partner := some partner
        peers := held.peers.erase new
        friendCall := held.friendCall }).alter old fun _ => .free

/-- A federated match: matched, with nobody of this hub. -/
def federate (x : ConnId) : Lobby :=
  (L.drop x).alter x fun s =>
    { s with phase := .matched, partner := none, peers := ∅, partyWith := none,
             friendCall := none }

end Lobby

end Ruletka
