/-
The queue operations and the session starts.

Every start has the same two halves: it rewrites the session fields of
its members, then tells each member whom it now faces. The messages only
read fields the rewrite leaves alone, so they are computed from the state
after it. The source unwraps the members' records; a start is only ever
called on connections that are there, and a missing one is skipped here.
-/
import Ruletka.Hub.Basic

namespace Ruletka

namespace Client

/-- Forget the SDP debounce of the last match. -/
def clearSdp (c : Client) : Client :=
  { c with lastOfferAt := ∅, lastAnswerAt := ∅ }

/-- Enter a session with these peers, the first of them the partner. -/
def setMatched (c : Client) (env : Env) (sid : SessionId)
    (peers : List ConnId) (party : Option ConnId) : Client :=
  { c with
    phase := .matched
    sessionId := some sid
    sessionPeers := peers.toFinset
    partner := peers.head?
    partyWith := party
    matchStarted := some env.now }

/-- Enter a 1v2; a re-link of the same three keeps the SDP debounce. -/
def joinTrio (c : Client) (env : Env) (sid : SessionId) (same : Bool)
    (peers : List ConnId) (party : Option ConnId) (last : ConnId) : Client :=
  let c := { c.setMatched env sid peers party with lastPartner := some last }
  if same then c else c.clearSdp

/-- `if wait_started.is_none() { wait_started = Some(now) }`. -/
def startWait (c : Client) (env : Env) : Client :=
  { c with waitStarted := c.waitStarted.or (some env.now) }

end Client

namespace SimpleHub

-- =============================================================== the queue

/-- Drop every queue slot the connection is in. -/
def dequeueClient (h : SimpleHub) (id : ConnId) : SimpleHub :=
  h.setQueue (h.queue.filter fun e => id ∉ queueEntryIds e)

def enqueueSolo (h : SimpleHub) (id : ConnId) : SimpleHub :=
  let h := h.dequeueClient id
  if .solo id ∈ h.queue then h
  else h.setQueue (h.queue ++ [.solo id])

/-- Queue two clients as one party; the media link between them stays. -/
def enqueueParty (h : SimpleHub) (env : Env) (a b : ConnId) : SimpleHub :=
  let h := (h.modify a (·.startWait env)).modify b (·.startWait env)
  let h := (h.dequeueClient a).dequeueClient b
  -- canonical order for the slot
  let slot := if a < b then QueueEntry.party a b else .party b a
  let h := h.setQueue (h.queue ++ [slot])
  let side := fun (me mate : ConnId) (h : SimpleHub) => h.modify me fun c =>
    { c with
      phase := .waiting
      partyWith := some mate
      sessionPeers := {mate}
      partner := some mate }
  side b a (side a b h)

/-- `take_wait_started`; the duration only feeds a metric. -/
def takeWaitStarted (h : SimpleHub) (id : ConnId) : SimpleHub :=
  h.modify id fun c => { c with waitStarted := none }

-- ================================================================= the roles

def strangerPartyOf (h : SimpleHub) (id : ConnId) : Bool :=
  (h.get id).any (·.strangerParty)

/-- How party members see each other. -/
def mateRole (h : SimpleHub) (x y : ConnId) : String :=
  if h.strangerPartyOf x || h.strangerPartyOf y then "teammate" else "friend"

/-- 1v2: the pair always offers to the third, the third always answers. -/
def lock1v2OffererRole (peers : List MatchPeer) : List MatchPeer :=
  peers.map fun p => { p with isOfferer := p.role = "stranger" }

-- ================================================================ solo match

/-- The link half of `start_solo_match`. -/
def linkSolo (h : SimpleHub) (env : Env) (sid : SessionId) (a b : ConnId) :
    SimpleHub :=
  let side := fun (me them : ConnId) (h : SimpleHub) => h.modify me fun c =>
    { c with
      phase := .matched
      partner := some them
      sessionPeers := {them}
      sessionId := some sid
      lastPartner := some them
      matchStarted := some env.now
      lastOfferAt := ∅
      lastAnswerAt := ∅ }
  side b a (side a b h)

def soloMatchedMsgs (h : SimpleHub) (sid : SessionId × String) (room : String)
    (force : Bool) (a b : ConnId) : List (ConnId × ServerMsg) :=
  [(a, b), (b, a)].map fun (me, them) =>
    let peers := h.matchPeers me [(them, "stranger")]
    (me, .matched
      { sessionId := sid.1, sessionKey := sid.2
        isOfferer := peers.any (·.isOfferer)
        room := room, mode := "solo", yourRole := "solo"
        peers := peers, forceRelay := force })

/-- One `PartnerGeo` about `about` for `target`. -/
def partnerGeoMsg (h : SimpleHub) (about target : ConnId) :
    List (ConnId × ServerMsg) :=
  match h.get about with
  | some c => if h.has target then
      [(target, .partnerGeo c.peerId c.userId (publicLocation c))] else []
  | none => []

/-- Pair two waiting clients; anything else is refused. -/
def startSoloMatch (h : SimpleHub) (env : Env) (a b : ConnId) : SimpleHub :=
  -- already 1:1 with each other: never re-send Matched
  if h.phaseOf a = some .matched && h.partnerOf a = some b
      && h.phaseOf b = some .matched && h.partnerOf b = some a then h
  else if h.phaseOf a ≠ some .waiting || h.phaseOf b ≠ some .waiting then h
  else
    let h := (h.dequeueClient a).dequeueClient b
    let room := h.roomOf a
    let force := h.pairForceRelay a b
    let sid := h.makeSessionId env [h.peerIdOf a, h.peerIdOf b]
    let h := h.linkSolo env sid.1 a b
    let h := h.emit (h.soloMatchedMsgs sid room force a b)
    let h := h.emit (h.partnerGeoMsg a b ++ h.partnerGeoMsg b a)
    h.broadcastLobbyInfo env

-- =============================================================== friend call

/-- The link half of `start_friend_session`. -/
def linkFriends (h : SimpleHub) (env : Env) (sid : SessionId) (a b : ConnId) :
    SimpleHub :=
  let side := fun (me them : ConnId) (h : SimpleHub) => h.modify me fun c =>
    { c with
      phase := .friendCall
      friendCall := some them
      partner := some them
      sessionPeers := {them}
      sessionId := some sid
      partyWith := none
      matchStarted := some env.now
      lastOfferAt := ∅
      lastAnswerAt := ∅ }
  side b a (side a b h)

def startFriendSession (h : SimpleHub) (env : Env) (a b : ConnId) : SimpleHub :=
  let force := h.pairForceRelay a b
  let sid := h.makeSessionId env [h.peerIdOf a, h.peerIdOf b]
  let h := h.linkFriends env sid.1 a b
  h.emit <| [(a, b), (b, a)].map fun (me, them) =>
    let peers := h.matchPeers me [(them, "friend")]
    (me, .matched
      { sessionId := sid.1, sessionKey := sid.2
        isOfferer := peers.any (·.isOfferer)
        room := h.roomOf me, mode := "friend", yourRole := "friend"
        peers := peers, forceRelay := force })

-- ======================================================================= 1v2

/-- The pair is meshed with this third already: a re-link, not a match. -/
def sameTrio (h : SimpleHub) (solo a b : ConnId) : Bool :=
  (h.get a).any (fun c => solo ∈ c.sessionPeers && b ∈ c.sessionPeers)
    && (h.get b).any (fun c => solo ∈ c.sessionPeers)

/-- The link half of `start_party_vs_solo`. -/
def linkPartyVsSolo (h : SimpleHub) (env : Env) (sid : SessionId)
    (solo a b : ConnId) : SimpleHub :=
  let same := h.sameTrio solo a b
  let side := fun (me : ConnId) (peers : List ConnId) (party : Option ConnId)
      (last : ConnId) (h : SimpleHub) => h.modify me fun c =>
    c.joinTrio env sid same peers party last
  side b [solo, a] (some a) solo
    (side a [solo, b] (some b) solo
      (side solo [a, b] none a h))

def startPartyVsSolo (h : SimpleHub) (env : Env) (solo a b : ConnId) :
    SimpleHub :=
  let room := h.roomOf solo
  let sid := h.makeSessionId env
    [h.peerIdOf solo, h.peerIdOf a, h.peerIdOf b, "party"]
  let mate := h.mateRole a b
  let h := ((h.dequeueClient solo).dequeueClient a).dequeueClient b
  let h := h.linkPartyVsSolo env sid.1 solo a b
  let force := h.pairForceRelay solo a || h.pairForceRelay solo b
    || h.pairForceRelay a b
  let matched := fun (me : ConnId) (role : String)
      (others : List (ConnId × String)) =>
    let peers := lock1v2OffererRole (h.matchPeers me others)
    (me, ServerMsg.matched
      { sessionId := sid.1, sessionKey := sid.2
        isOfferer := peers.any (·.isOfferer)
        room := room, mode := "party_browse", yourRole := role
        peers := peers, forceRelay := force })
  let h := h.emit
    [matched solo "solo" [(a, "party"), (b, "party")],
     matched a "party" [(solo, "stranger"), (b, mate)],
     matched b "party" [(solo, "stranger"), (a, mate)]]
  h.broadcastLobbyInfo env

-- ======================================================================= 2v2

/-- The link half of `start_party_vs_party`. -/
def linkPartyVsParty (h : SimpleHub) (env : Env) (sid : SessionId)
    (a1 a2 b1 b2 : ConnId) : SimpleHub :=
  let side := fun (me : ConnId) (peers : List ConnId) (mate : ConnId)
      (h : SimpleHub) => h.modify me fun c =>
    (c.setMatched env sid peers (some mate)).clearSdp
  side b2 [a1, a2, b1] b1
    (side b1 [a1, a2, b2] b2
      (side a2 [b1, b2, a1] a1
        (side a1 [b1, b2, a2] a2 h)))

def startPartyVsParty (h : SimpleHub) (env : Env) (a1 a2 b1 b2 : ConnId) :
    SimpleHub :=
  let room := h.roomOf a1
  let sid := h.makeSessionId env
    [h.peerIdOf a1, h.peerIdOf a2, h.peerIdOf b1, h.peerIdOf b2, "2v2"]
  let h := h.linkPartyVsParty env sid.1 a1 a2 b1 b2
  let force := h.pairForceRelay a1 a2 || h.pairForceRelay b1 b2
    || h.pairForceRelay a1 b1 || h.pairForceRelay a1 b2
    || h.pairForceRelay a2 b1 || h.pairForceRelay a2 b2
  let matched := fun (me mate o1 o2 : ConnId) =>
    let peers := h.matchPeers me
      [(o1, "stranger"), (o2, "stranger"), (mate, h.mateRole me mate)]
    (me, ServerMsg.matched
      { sessionId := sid.1, sessionKey := sid.2
        isOfferer := peers.any fun p => p.isOfferer && p.role = "stranger"
        room := room, mode := "party_browse", yourRole := "party"
        peers := peers, forceRelay := force })
  let h := h.emit [matched a1 a2 b1 b2, matched a2 a1 b1 b2,
    matched b1 b2 a1 a2, matched b2 b1 a1 a2]
  h.broadcastLobbyInfo env

-- =================================================================== joins

/-- The link half of `start_three_person_join`: `c` joins the pair. -/
def linkThree (h : SimpleHub) (env : Env) (sid : SessionId) (a b c : ConnId) :
    SimpleHub :=
  let side := fun (me : ConnId) (peers : List ConnId) (party : Option ConnId)
      (h : SimpleHub) => h.modify me fun cl =>
    { (cl.setMatched env sid peers party).clearSdp with
      strangerParty := false
      friendCall := if me = c then none else cl.friendCall }
  side c [a, b] none (side b [a, c] (some a) (side a [b, c] (some b) h))

def startThreePersonJoin (h : SimpleHub) (env : Env) (a b c : ConnId) :
    SimpleHub :=
  let sid := h.makeSessionId env
    [h.peerIdOf a, h.peerIdOf b, h.peerIdOf c, "join3"]
  let abRole := if h.friendCallOf a = some b || h.friendCallOf b = some a
    then "friend" else "teammate"
  let force := h.pairForceRelay a b || h.pairForceRelay a c
    || h.pairForceRelay b c
  let h := h.linkThree env sid.1 a b c
  let matched := fun (me : ConnId) (role : String)
      (others : List (ConnId × String)) =>
    let peers := h.matchPeers me others
    (me, ServerMsg.matched
      { sessionId := sid.1, sessionKey := sid.2
        isOfferer := peers.any fun p =>
          p.isOfferer && (role = "solo" || p.userId = h.userOf c)
        room := h.roomOf me, mode := "party_browse", yourRole := role
        peers := peers, forceRelay := force })
  let h := h.emit
    [matched a "party" [(b, abRole), (c, "party")],
     matched b "party" [(a, abRole), (c, "party")],
     matched c "solo" [(a, "party"), (b, "party")]]
  let h := h.status a "friend joined your call"
  let h := h.status b "friend joined the call"
  let h := h.status c "you joined their call"
  h.broadcastLobbyInfo env

/-- The link half of `start_four_person_join`: `d` joins the trio. -/
def linkFour (h : SimpleHub) (env : Env) (sid : SessionId)
    (a b c d : ConnId) : SimpleHub :=
  let side := fun (me : ConnId) (peers : List ConnId) (party : Option ConnId)
      (h : SimpleHub) => h.modify me fun cl =>
    { (cl.setMatched env sid peers party).clearSdp with
      friendCall := if me = d then none else cl.friendCall }
  side d [a, b, c] none
    (side c [a, b, d] (some a)
      (side b [a, c, d] (some a)
        (side a [b, c, d] (some b) h)))

def startFourPersonJoin (h : SimpleHub) (env : Env) (a b c d : ConnId) :
    SimpleHub :=
  if !(h.has a && h.has b && h.has c && h.has d) then h
  else
    let sid := h.makeSessionId env
      [h.peerIdOf a, h.peerIdOf b, h.peerIdOf c, h.peerIdOf d, "join4"]
    let force := h.pairForceRelay a d || h.pairForceRelay b d
      || h.pairForceRelay c d || h.pairForceRelay a b
      || h.pairForceRelay a c || h.pairForceRelay b c
    let h := h.linkFour env sid.1 a b c d
    let matched := fun (me : ConnId) (role : String)
        (others : List (ConnId × String)) =>
      let peers := h.matchPeers me others
      (me, ServerMsg.matched
        { sessionId := sid.1, sessionKey := sid.2
          isOfferer := peers.any fun p =>
            p.isOfferer && (role = "solo" || p.role = "stranger")
          room := h.roomOf me, mode := "party_browse", yourRole := role
          peers := peers, forceRelay := force })
    let h := h.emit
      [matched a "party" [(b, "teammate"), (c, "teammate"), (d, "party")],
       matched b "party" [(a, "teammate"), (c, "teammate"), (d, "party")],
       matched c "party" [(a, "teammate"), (b, "teammate"), (d, "party")],
       matched d "solo" [(a, "party"), (b, "party"), (c, "party")]]
    let h := h.status a "friend joined your party"
    let h := h.status b "friend joined the party"
    let h := h.status c "friend joined the party"
    let h := h.status d "you joined their party"
    h.broadcastLobbyInfo env

end SimpleHub

end Ruletka
