/-
Who a connection is: connect, hello, the adoption of a held match, the
friend graph, blocks and preferences.
-/
import Ruletka.Hub.Invite

namespace Ruletka

open Text

namespace SimpleHub

-- ================================================================== connect

/-- The record of a fresh connection: its user is its own uuid until a
`Hello` names one. -/
def freshClient (sys : Sys) (env : Env) (id : ConnId) (ip : String) : Client where
  shortId := takeChars 8 (sys.peerIdHex id)
  peerId := sys.peerIdHex id
  userId := sys.uuidText id
  friendCode := sys.friendCodeFor (sys.uuidText id)
  phase := .idle
  partner := none
  sessionPeers := ∅
  sessionId := none
  lastPartner := none
  lastUnmatchAt := none
  room := ""
  friendCall := none
  partyWith := none
  strangerParty := false
  gender := ""
  looking := "any"
  flag := ""
  hideIp := false
  geoCode := ""
  geoCountry := ""
  geoCity := ""
  clientIp := ip
  platform := ""
  tags := []
  limiter := ⟨[], []⟩
  reportTimes := []
  matchStarted := none
  lastOfferAt := ∅
  lastAnswerAt := ∅
  waitStarted := none
  wsHoldUntil := none
  lastRx := env.now
  lastActiveRx := none
  face := none

/-- `try_add_client` with the `notify_join` that follows it; a full hub
takes nobody. -/
def tryAddClient (h : SimpleHub) (env : Env) (tm : SimpleHub → Option SimpleHub)
    (id : ConnId) (ip : String) : Option SimpleHub := do
  let h ← h.expireWsHolds env tm
  if h.sys.limits.maxClients ≤ h.clients.keys.card then some h
  else
    let c := freshClient h.sys env id ip
    let h := { h with
      clients := h.clients.set id c
      byUser := h.byUser.set c.userId id }
    let h := h.send id (.helloOk c.shortId c.peerId c.userId c.friendCode)
    some (h.broadcastLobbyInfo env)

/-- `set_client_geo`: the lookup of a connection's place came back. -/
def setClientGeo (h : SimpleHub) (id : ConnId) (code country city : String) :
    SimpleHub :=
  let code := normalizeFlag code
  let country := takeChars 64 country
  let city := takeChars 64 city
  let h := h.modify id fun c =>
    { c with geoCode := code, geoCountry := country, geoCity := city }
  match h.get id with
  | none => h
  | some c =>
      let h := h.send id (.geo country city code)
      let mates := ((c.sessionPeers ∪ c.partner.toFinset).erase id).filter (h.has ·)
      h.emit ((IterOrder.increasing.run mates).map fun mate =>
        (mate, .partnerGeo c.peerId c.userId (publicLocation c)))

-- ==================================================================== hello

/-- The held match can move: the hold runs, it is a plain 1v1, and the
partner is there. -/
def adoptable (h : SimpleHub) (env : Env) (c : Client) (new : ConnId) :
    Option ConnId :=
  if c.wsHoldUntil.any (env.now < ·) && c.phase = .matched && c.partyWith.isNone
      && c.sessionPeers.card ≤ 1 then
    c.partner.filter fun p => p ≠ new && h.has p
  else none

/-- The partner of an adoption points at the new socket. -/
def repoint (old new : ConnId) (p : Client) : Client :=
  { p with
    partner := if p.partner = some old then some new else p.partner
    sessionPeers := if old ∈ p.sessionPeers then
      insert new (p.sessionPeers.erase old) else p.sessionPeers
    friendCall := if p.friendCall = some old then some new else p.friendCall }

/-- The new socket takes over the match and the peer id. -/
def takeOver (env : Env) (new partner : ConnId) (oldc n : Client) : Client :=
  { n with
    phase := .matched
    partner := some partner
    peerId := oldc.peerId
    shortId := oldc.shortId
    matchStarted := some env.now
    sessionId := oldc.sessionId
    friendCall := oldc.friendCall
    lastOfferAt := oldc.lastOfferAt
    lastAnswerAt := oldc.lastAnswerAt
    sessionPeers := oldc.sessionPeers.erase new
    wsHoldUntil := none }

/-- The old record of an adoption, so that its removal unmatches nobody. -/
def blank (c : Client) : Client :=
  { c with
    partner := none
    sessionPeers := ∅
    phase := .idle
    wsHoldUntil := none
    friendCall := none
    partyWith := none
    peerId := ""
    shortId := "" }

/-- The writes of an adoption. -/
def moveSeat (h : SimpleHub) (env : Env) (old new partner : ConnId) (oldc : Client) :
    SimpleHub :=
  ((h.modify partner (repoint old new)).modify new
    (takeOver env new partner oldc)).modify old blank

/-- Move a parked 1v1 onto the new socket. The old peer id moves too, so the
partner's signals still route. The flag tells whether anything moved. -/
def adoptWsHold (h : SimpleHub) (env : Env) (tm : SimpleHub → Option SimpleHub)
    (old new : ConnId) : Option (SimpleHub × Bool) :=
  if old = new then some (h, false)
  else match h.get old with
    | none => some (h, false)
    | some oldc =>
      match h.adoptable env oldc new with
      | none => some (h, false)
      | some partner => do
        let h := h.moveSeat env old new partner oldc
        let h ← h.removeClient env tm old
        some ((h.status new "still chatting").status partner "still chatting", true)

/-- What a `Hello` says about its sender. -/
structure HelloIn where
  userId : String
  gender : String
  looking : String
  flag : String
  tags : List String
  hideIp : Bool
  platform : String
  deriving DecidableEq, Repr

def maxUserIdChars : Nat := 64

/-- The identity a `Hello` installs. -/
def helloUserId (h : SimpleHub) (id : ConnId) (raw : String) : UserId :=
  if trim raw = "" then h.sys.uuidText id else takeChars maxUserIdChars (trim raw)

/-- One live tab per identity: adopt the old connection's held match, or
disconnect it. -/
def kickPrevious (h : SimpleHub) (env : Env) (tm : SimpleHub → Option SimpleHub)
    (id : ConnId) (user : UserId) : Option SimpleHub :=
  match h.byUser.get? user with
  | none => some h
  | some old =>
    if old = id then some h
    else do
      let (h, adopted) ← h.adoptWsHold env tm old id
      if adopted then some h
      else
        let h := h.sendError old
          "session opened in another tab or browser — this tab was disconnected. Use only one live window per identity."
        let h := h.status old "disconnected — opened elsewhere"
        h.removeClient env tm old

def rememberClientIp (h : SimpleHub) (user : UserId) (raw : String) : SimpleHub :=
  let ip := trim raw
  if user = "" || ip = "" || hasPrefix ip "10." || hasPrefix ip "192.168."
      || hasPrefix ip "127." || ip = "::1" then h
  else { h with userLastIp := h.userLastIp.set user ip }

/-- The friend codes that survive a `Hello`: none of the ephemeral user the
connection began as, and none of a former user. -/
def keepCodes (ephemeral user : UserId) (former : Option UserId)
    (codes : Table String UserId) : Table String UserId :=
  let codes := codes.retain fun _ u => u ≠ ephemeral
  onSome (former.filter (· ≠ user)) codes fun codes ou => codes.retain fun _ u => u ≠ ou

/-- The index updates of a `Hello`: the connection's former user loses its
index entry, the new one points here. -/
def reindex (h : SimpleHub) (id : ConnId) (user : UserId) : SimpleHub :=
  let former := (h.get id).map (·.userId)
  let byUser := onSome (former.filter (· ≠ user)) h.byUser Table.del
  let codes := keepCodes (h.sys.uuidText id) user former h.codeIndex
  { h with
    byUser := byUser.set user id
    codeIndex := codes.set (h.sys.friendCodeFor user) user }

/-- The record of a connection after its `Hello`. -/
def introduce (user : UserId) (code : String) (msg : HelloIn) (c : Client) : Client :=
  let platform := takeChars 16 (lower (trim msg.platform))
  { c with
    userId := user
    friendCode := code
    gender := normalizeGender msg.gender
    looking := normalizeLooking msg.looking
    flag := normalizeFlag msg.flag
    hideIp := msg.hideIp
    tags := normalizeTags msg.tags
    platform := if platform = "" then c.platform else platform }

/-- The part of a `Hello` behind the one-tab rule: index, record, replies. -/
def identify (h : SimpleHub) (env : Env) (id : ConnId) (user : UserId) (msg : HelloIn) :
    SimpleHub :=
  let code := h.sys.friendCodeFor user
  let h := (h.reindex id user).modify id (introduce user code msg)
  let h := onSome (h.get id) h fun h c => h.rememberClientIp user c.clientIp
  let h := if h.isMatchBanned env user
      || (h.get id).any (fun c => h.isIpBanned env c.clientIp)
    then h.status id "restricted — cannot match right now" else h
  let h := onSome (h.get id) h fun h c => h.send id (.helloOk c.shortId c.peerId user code)
  h.broadcastLobbyInfo env

/-- `Hello`. -/
def handleHello (h : SimpleHub) (env : Env) (tm : SimpleHub → Option SimpleHub)
    (id : ConnId) (msg : HelloIn) : Option SimpleHub := do
  let user := h.helloUserId id msg.userId
  let h ← h.kickPrevious env tm id user
  some (h.identify env id user msg)

/-- `SetPrefs`; a waiting client may be unlocked by its new preferences. -/
def handleSetPrefs (h : SimpleHub) (tm : SimpleHub → Option SimpleHub)
    (id : ConnId) (gender looking flag : String) (tags : List String)
    (hideIp : Bool) : Option SimpleHub :=
  let h := h.modify id fun c =>
    { c with
      gender := normalizeGender gender
      looking := normalizeLooking looking
      flag := normalizeFlag flag
      hideIp := hideIp
      tags := normalizeTags tags }
  let h := h.status id "match prefs updated"
  if h.phaseOf id = some .waiting then tm h else some h

/-- `SetRoom`; a match keeps its room. -/
def handleSetRoom (h : SimpleHub) (env : Env) (id : ConnId) (room : String) :
    SimpleHub :=
  if h.phaseOf id = some .matched then
    h.sendError id "leave match before changing room"
  else
    let h := h.modify id fun c => { c with room := normalizeRoom room }
    (h.status id "room set").broadcastLobbyInfo env

/-- Store a face report; the run of unready reports keeps its start. -/
def reportFace (env : Env) (ok ready failOpen : Bool) (c : Client) : Client :=
  let report : FaceGate :=
    { ok := ok, ready := ready, failOpen := failOpen
      reportedAt := env.now
      unreadySince := if ready || ok then none
        else (c.face.bind (·.unreadySince)).or (some env.now) }
  { c with face := some report }

/-- `FaceOk`: store the report; a waiter it unlocks is matched at once. -/
def handleFaceOk (h : SimpleHub) (env : Env) (tm : SimpleHub → Option SimpleHub)
    (id : ConnId) (ok ready failOpen : Bool) : Option SimpleHub :=
  let h := h.modify id (reportFace env ok ready failOpen)
  if h.phaseOf id = some .waiting && h.clientFaceOk env id then tm h else some h

-- ============================================================= friend graph

def clearPendingPair (h : SimpleHub) (a b : UserId) : SimpleHub :=
  { h with pending := (h.pending.erase (a, b)).erase (b, a) }

def establishFriendship (h : SimpleHub) (a b : UserId) : SimpleHub :=
  if a = "" || b = "" || a = b then h
  else
    let h := h.clearPendingPair a b
    { h with friendships := insert (a, b) (insert (b, a) h.friendships) }

/-- `AddFriend`: request by friend code, or accept a request already there. -/
def handleAddFriend (h : SimpleHub) (id : ConnId) (raw : String) : SimpleHub :=
  let code := without '-' (toUppercase (trim raw))
  match h.get id with
  | none => h
  | some c =>
    if code = c.friendCode then h.sendError id "cannot add yourself"
    else match h.codeIndex.get? code with
      | none => h.sendError id "unknown friend code (friend must connect once)"
      | some other =>
        if h.isBlockedPairUid c.userId other then
          h.sendError id "cannot add — user is blocked (unblock first)"
        else if (c.userId, other) ∈ h.friendships then h.status id "already friends"
        else if (other, c.userId) ∈ h.pending then
          let h := h.establishFriendship c.userId other
          let h := h.status id "friend added"
          match h.byUser.get? other with
          | some oid => h.status oid "friend added"
          | none => h
        else if (c.userId, other) ∈ h.pending then
          h.status id "friend request already sent"
        else
          let h := { h with pending := insert (c.userId, other) h.pending }
          let h := match h.byUser.get? other with
            | some oid => h.send oid (.friendRequest c.userId c.friendCode)
            | none => h
          h.status id "friend request sent"

/-- `AcceptFriend`. -/
def handleAcceptFriend (h : SimpleHub) (id : ConnId) (raw : String) : SimpleHub :=
  let user := trim raw
  match h.get id with
  | none => h
  | some c =>
    if (user, c.userId) ∉ h.pending then
      h.sendError id "no pending request from that user"
    else if h.isBlockedPairUid c.userId user then
      h.sendError id "cannot accept — user is blocked"
    else
      let h := h.establishFriendship c.userId user
      let h := match h.byUser.get? user with
        | some oid => h.status oid "friend request accepted"
        | none => h
      h.status id "friend added"

/-- `DeclineFriend`: cancel an outgoing or decline an incoming request. -/
def handleDeclineFriend (h : SimpleHub) (id : ConnId) (raw : String) :
    SimpleHub :=
  match h.get id with
  | none => h
  | some c => (h.clearPendingPair c.userId (trim raw)).status id
      "friend request declined"

/-- Drop the friendship and the requests between two users. -/
def dropFriendship (h : SimpleHub) (a b : UserId) : SimpleHub :=
  let h := { h with friendships := (h.friendships.erase (a, b)).erase (b, a) }
  h.clearPendingPair a b

/-- `RemoveFriend`. -/
def handleRemoveFriend (h : SimpleHub) (id : ConnId) (user : UserId) :
    SimpleHub :=
  match h.get id with
  | none => h
  | some c => (h.dropFriendship c.userId user).status id "friend removed"

-- =================================================================== blocks

/-- Report and block targets: user id, friend code, live peer or short id,
else any text long enough to be an offline user id. -/
def resolveTargetUserId (h : SimpleHub) (env : Env) (raw : String) :
    Option UserId :=
  let t := trim raw
  if t = "" then none
  else if (h.byUser.get? t).isSome then some t
  else match (h.codeIndex.get? (upper t)).filter (· ≠ "") with
    | some uid => some uid
    | none =>
      let live := (env.mapOrder.run h.clients.keys).findSome? fun id =>
        match h.get id with
        | none => none
        | some c =>
            if c.userId = "" then none
            else if c.peerId = t || c.shortId = t || hasSuffix c.peerId t
                || hasSuffix t c.peerId then some c.userId
            else none
      match live with
      | some uid => some uid
      | none => if 16 ≤ t.utf8ByteSize then some t else none

/-- The blocked partner is unmatched and searches again. -/
def releaseBlocked (h : SimpleHub) (env : Env) (tm : SimpleHub → Option SimpleHub)
    (partner : Option ConnId) : Option SimpleHub :=
  match partner with
  | some pid =>
      if h.has pid then
        let theirRoom := h.roomOf pid
        let h := h.unmatchOne env pid "partner blocked you — searching again"
        h.enterWaitingSolo env tm pid theirRoom "searching again"
      else some h
  | none => some h

/-- What ends when the blocker is in a call or match with its target. -/
def blockPart (h : SimpleHub) (env : Env) (tm : SimpleHub → Option SimpleHub)
    (id : ConnId) (user : UserId) : Option SimpleHub :=
  let isTarget := fun (x : ConnId) => (h.get x).any (·.userId = user)
  let partner := h.partnerOf id
  if (h.friendCallOf id).any isTarget then some (h.endFriendCall id "blocked")
  else if partner.any isTarget
      || decide (∃ p ∈ h.peersOf id, isTarget p) then do
    let room := h.roomOf id
    let h ← h.releaseBlocked env tm ((h.byUser.get? user).or partner)
    h.enterWaitingSolo env tm id room "blocked — finding someone else"
  else some h

/-- `BlockUser`. -/
def handleBlockUser (h : SimpleHub) (env : Env)
    (tm : SimpleHub → Option SimpleHub) (id : ConnId) (raw : String) :
    Option SimpleHub :=
  match h.resolveTargetUserId env raw with
  | none => some (h.sendError id "cannot block — partner id unknown")
  | some user =>
    match h.get id with
    | none => some h
    | some c =>
      if c.userId = user then some (h.sendError id "cannot block yourself")
      else do
        let h := h.dropFriendship c.userId user
        let h := { h with blocks := insert (c.userId, user) h.blocks }
        let h ← h.blockPart env tm id user
        some (h.status id "user blocked")

/-- `UnblockUser`. -/
def handleUnblockUser (h : SimpleHub) (id : ConnId) (raw : String) : SimpleHub :=
  match h.get id with
  | none => h
  | some c =>
      { h with blocks := h.blocks.erase (c.userId, trim raw) }.status id
        "user unblocked"

end SimpleHub

end Ruletka
