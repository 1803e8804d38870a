/-
Leaving a session: the one-sided unmatch, the end of a friend call, and
the trio leave that keeps the other two.

`try_match` is re-entered from the trio leave, and `try_match` itself
expires held sockets, which removes clients, which leaves trios. The
re-entry is the argument `tm`; `tryMatch` (Hub/Match.lean) closes the
loop. A hub function that may re-enter returns `none` exactly when that
recursion never comes back.
-/
import Ruletka.Hub.Session

namespace Ruletka

namespace Client

/-- What the end of a friend call leaves of one side. -/
def hangUp (c : Client) : Client :=
  { c with
    friendCall := none
    partyWith := none
    partner := none
    sessionPeers := ∅
    matchStarted := none
    phase := .idle }

/-- Forget the leaver: a partner pointer to it moves to whichever peer the
set yields first. -/
def prune (c : Client) (o : IterOrder ConnId) (leaving : ConnId) :
    Client :=
  let rest := c.sessionPeers.erase leaving
  { c with
    sessionPeers := rest
    friendCall := if c.friendCall = some leaving then none else c.friendCall
    partner := if c.partner = some leaving then (o.run rest).head? else c.partner }

end Client

namespace SimpleHub

def clearFedForClient (h : SimpleHub) (id : ConnId) : SimpleHub :=
  match h.fedByClient.get? id with
  | none => h
  | some sid => { h with
      fedByClient := h.fedByClient.del id
      fedSessions := h.fedSessions.del sid }

/-- Take one client out of its match. Its party, if it has one, searches
again; the peers it was matched with are not told. -/
def unmatchOne (h : SimpleHub) (env : Env) (id : ConnId) (detail : String) :
    SimpleHub :=
  let h := (h.dequeueClient id).clearFedForClient id
  let party := h.partyWithOf id
  let h := h.modify id fun c =>
    { c with
      partner := none
      sessionPeers := ∅
      sessionId := none
      matchStarted := none
      lastUnmatchAt := some env.now
      phase :=
        if c.partyWith.isSome then .waiting
        else if c.friendCall.isSome then .friendCall
        else .idle }
  let h := h.status id detail
  match party with
  | some pid => if h.has id && h.has pid then h.enqueueParty env id pid else h
  | none => h

/-- Force a client out of its match (orphaned by a multi leave). -/
def forceSessionIdle (h : SimpleHub) (id : ConnId) (detail : String) :
    SimpleHub :=
  let h := h.dequeueClient id
  let h := h.modify id fun c =>
    { c with
      phase := .idle
      partner := none
      sessionPeers := ∅
      sessionId := none
      partyWith := none
      strangerParty := false
      friendCall := none
      matchStarted := none }
  h.status id detail

/-- Convert two clients into a plain solo match. -/
def collapseToSolo1v1 (h : SimpleHub) (env : Env) (a b : ConnId)
    (detail : String) : SimpleHub :=
  let h := (h.dequeueClient a).dequeueClient b
  let reset := fun (c : Client) =>
    { c with
      partyWith := none
      strangerParty := false
      friendCall := none
      -- `start_solo_match` pairs waiting clients only
      phase := .waiting
      partner := none
      sessionPeers := ∅
      sessionId := none }
  let h := (h.modify a reset).modify b reset
  let h := h.startSoloMatch env a b
  (h.status a detail).status b detail

/-- Re-send the teammate-only `Matched` while a party hunts. -/
def notifyPartyBrowseSearching (h : SimpleHub) (a b : ConnId) : SimpleHub :=
  h.emit <| [(a, b), (b, a)].filterMap fun (me, them) =>
    if h.has me && h.has them then
      let peers := h.matchPeers me [(them, h.mateRole me them)]
      some (me, .matched
        { sessionId := "party-search-" ++ h.sys.uuidText me
          sessionKey := "party:" ++ h.sys.uuidText me ++ ":" ++ h.sys.uuidText them
          isOfferer := peers.any (·.isOfferer)
          room := h.roomOf me, mode := "party_browse", yourRole := "party"
          peers := peers, forceRelay := false })
    else none

/-- End the call of `id` and of whoever it is in a friend call with. -/
def endFriendCall (h : SimpleHub) (id : ConnId) (reason : String) : SimpleHub :=
  let other := h.friendCallOf id
  let hangUp := fun (x : ConnId) (h : SimpleHub) =>
    (((h.modify x Client.hangUp).dequeueClient x).send x (.callEnded reason)).status
      x reason
  let h := hangUp id h
  match other with
  | some oid => hangUp oid h
  | none => h

-- ========================================================== the trio leave

/-- One of the two names the other as its party member. -/
def partyLinked (h : SimpleHub) (a b : ConnId) : Bool :=
  h.partyWithOf a = some b || h.partyWithOf b = some a

/-- The leaver's mate forgets that the leaver was its mate. -/
def unmate (h : SimpleHub) (mate leaving : ConnId) : SimpleHub :=
  h.modify mate fun c =>
    { c with
      partyWith := if c.partyWith = some leaving then none else c.partyWith
      strangerParty := if c.partyWith = some leaving then false else c.strangerParty
      friendCall := if c.friendCall = some leaving then none else c.friendCall }

def pruneAll (h : SimpleHub) (env : Env) (leaving : ConnId) (l : List ConnId) :
    SimpleHub :=
  l.foldl (fun h p => h.modify p fun c => c.prune (env.peerOrder p) leaving) h

/-- The mate of a leaver with the strangers of their session: none leaves it
idle, one makes a solo pair, a linked pair makes a 1v2. -/
def keepStrangers (h : SimpleHub) (env : Env) (mate : ConnId) (detail : String) :
    List ConnId → SimpleHub
  | [] =>
      -- still searching as a party: the mate goes idle
      let h := h.modify mate fun c =>
        { c with
          partyWith := none
          strangerParty := false
          partner := none
          sessionPeers := ∅
          sessionId := none
          phase := .idle }
      (h.dequeueClient mate).status mate "party partner left"
  | [s] => h.collapseToSolo1v1 env mate s detail
  | o0 :: o1 :: extra =>
      if h.partyLinked o0 o1 && h.has o0 && h.has o1 && h.has mate then
        -- 2v2: the mate alone faces the remaining pair
        let h := extra.foldl (fun h x => h.forceSessionIdle x "partner left") h
        let h := h.startPartyVsSolo env mate o0 o1
        let h := h.status mate "partner left — still connected"
        let h := h.status o0 "partner left — still connected"
        h.status o1 "partner left — still connected"
      else
        let h := (o1 :: extra).foldl
          (fun h x => h.forceSessionIdle x "partner left") h
        h.collapseToSolo1v1 env mate o0 detail

/-- Case A: the leaver has a party member, and the strangers of its session
stay with that member. -/
def leaveMate (h : SimpleHub) (env : Env) (leaving mate : ConnId)
    (sessionPeers : Finset ConnId) (detail : String) : SimpleHub :=
  let strangers := ((env.peerOrder leaving).run sessionPeers).filter fun p =>
    p ≠ mate && h.has p
  ((h.pruneAll env leaving (strangers ++ [mate])).unmate mate leaving).keepStrangers
    env mate detail strangers

/-- The pair of a trio whose third left: both search again as a party. -/
def huntAgain (h : SimpleHub) (env : Env) (leaving a b : ConnId) : SimpleHub :=
  let search := fun (p : ConnId) (h : SimpleHub) => h.modify p fun c =>
    { c with
      sessionPeers := c.sessionPeers.erase leaving
      partner := c.partyWith
      phase := .waiting }
  let h := search b (search a h)
  let h := h.enqueueParty env a b
  let h := h.notifyPartyBrowseSearching a b
  let h := h.status a "stranger left — looking for a 3rd again"
  let h := h.status b "stranger left — looking for a 3rd again"
  h.broadcastLobbyInfo env

/-- Case B: the leaver is the solo third of a trio. A linked pair hunts for
another third; two unlinked peers stay together as a solo pair. The flag
tells whether the remaining peers were reconfigured. -/
def leaveThird (h : SimpleHub) (env : Env) (tm : SimpleHub → Option SimpleHub)
    (leaving : ConnId) (sessionPeers : Finset ConnId) (detail : String) :
    Option (SimpleHub × Bool) :=
  match (env.peerOrder leaving).run sessionPeers with
  | [a, b] =>
      if h.partyLinked a b && h.has a && h.has b then do
        let h ← tm (h.huntAgain env leaving a b)
        some (h, true)
      else if h.has a && h.has b && a ≠ leaving && b ≠ leaving then
        some (h.collapseToSolo1v1 env a b detail, true)
      else some (h, false)
  | _ => some (h, false)

/-- `leave_keep_remaining_pair`: true when the remaining peers were
reconfigured and the caller only has to clear the leaver. -/
def leaveKeepRemainingPair (h : SimpleHub) (env : Env)
    (tm : SimpleHub → Option SimpleHub) (leaving : ConnId) (detail : String) :
    Option (SimpleHub × Bool) :=
  match h.get leaving with
  | none => some (h, false)
  | some c =>
    match c.partyWith with
    | some mate =>
        if h.has mate then
          some (h.leaveMate env leaving mate c.sessionPeers detail, true)
        else some (h, false)
    | none =>
        if c.sessionPeers.card = 2 && c.phase = .matched then
          h.leaveThird env tm leaving c.sessionPeers detail
        else some (h, false)

end SimpleHub

end Ruletka
