/-
The hub's dispatcher and its runs: one event at a time, each under the
lock, from the empty hub.

A connection whose socket closed sends no more frames, and a fresh uuid is
nobody's: these two facts about the socket loop and about v4 uuids are the
admissibility of an event. Frames whose handlers write none of the
modelled fields (chat, ratings, gifts, push tokens, logs) are one
constructor, `other`: they still pass the preamble every frame passes.
-/
import Ruletka.Hub.Moderation
import Ruletka.Hub.Signal

namespace Ruletka

open Text

/-- The frames a client sends. -/
inductive ClientMsg where
  | hello (msg : SimpleHub.HelloIn)
  | setPrefs (gender looking flag : String) (tags : List String) (hideIp : Bool)
  | ping
  | setRoom (room : String)
  | spin (room : String)
  | next (room : String)
  | stop
  | findThirdInvite
  | findThirdRespond (accept : Bool)
  | findThirdCancel
  | browseTogether
  | addFriend (code : String)
  | acceptFriend (user : UserId)
  | declineFriend (user : UserId)
  | removeFriend (user : UserId)
  | blockUser (target : String)
  | unblockUser (user : UserId)
  | faceOk (ok ready failOpen : Bool)
  | reportUser (target reason : String)
  | genitalHit (target : String)
  | callFriend (user : UserId) (join : Bool)
  | callRespond (user : UserId) (accept : Bool)
  | callCancel (user : UserId)
  | hangupFriend
  | signal (kind payload toPeer : String)
  | other
  deriving DecidableEq, Repr

/-- A claim another hub makes on one of our waiting clients. -/
structure ClaimRequest where
  room : String
  callerBaseUrl : String
  remotePeer : FedPeerDesc
  deriving DecidableEq, Repr

/-- A remote hub's answer to our claim. -/
structure ClaimResponse where
  sessionId : SessionId
  sessionKey : String
  claimedPeer : FedPeerDesc
  callerIsOfferer : Bool
  deriving DecidableEq, Repr

/-- What reaches the hub. -/
inductive Event where
  | connect (id : ConnId) (ip : String)
  | frame (id : ConnId) (msg : ClientMsg)
  | close (id : ConnId)
  | geo (id : ConnId) (code country city : String)
  | adminBan (user : UserId) (banSecs : Nat)
  | adminUnban (user : UserId)
  | adminUnbanIp (ip : String)
  | claim (req : ClaimRequest)
  | applyClaim (id : ConnId) (base : String) (resp : ClaimResponse)
  deriving DecidableEq, Repr

/-- Another hub is behind the event. -/
def Event.fromAbroad : Event → Bool
  | .claim _ | .applyClaim .. => true
  | _ => false

namespace SimpleHub

-- =============================================================== federation

def normalizeBase (url : String) : String :=
  String.ofList ((trim url).toList.reverse.dropWhile (· = '/')).reverse

/-- The first free solo waiter of a room. -/
def freeSoloWaiter (h : SimpleHub) (env : Env) (room : String) : Option ConnId :=
  h.queue.findSome? fun e => match e with
    | .solo id =>
        if h.roomOf id = room && h.clientFaceOk env id
            && h.phaseOf id = some .waiting
            && (h.fedByClient.get? id).isNone && h.clientRxFresh env id
        then some id else none
    | _ => none

def startFederatedMatch (h : SimpleHub) (env : Env) (id : ConnId)
    (sid : SessionId × String) (remote : FedPeerDesc) (base : String)
    (localIsOfferer : Bool) : SimpleHub :=
  let room := h.roomOf id
  let localPeerId := h.peerIdOf id
  let h := h.modify id fun c =>
    ({ c with
      phase := .matched
      partner := none
      sessionPeers := ∅
      sessionId := some sid.1
      partyWith := none
      friendCall := none
      matchStarted := some env.now : Client }).clearSdp
  let session : FedSession :=
    { localClient := id, localPeerId := localPeerId
      remotePeerId := remote.peerId, remoteBaseUrl := base }
  let h := { h with
    fedSessions := h.fedSessions.set sid.1 session
    fedByClient := h.fedByClient.set id sid.1 }
  let peer : MatchPeer :=
    { peerId := "fed/" ++ sid.1 ++ "/" ++ remote.peerId
      shortId := remote.shortId, userId := remote.userId
      isOfferer := localIsOfferer, role := "stranger", friendCode := ""
      location := { flag := "", country := "", city := "", hideIp := false } }
  let h := h.send id (.matched
    { sessionId := sid.1, sessionKey := sid.2, isOfferer := localIsOfferer
      room := room, mode := "solo", yourRole := "solo"
      peers := [peer], forceRelay := false })
  h.broadcastLobbyInfo env

/-- `federation_claim`: the request is refused without a caller or a free
peer. -/
def federationClaim (h : SimpleHub) (env : Env) (req : ClaimRequest) :
    SimpleHub :=
  let base := normalizeBase req.callerBaseUrl
  if base = "" || req.remotePeer.peerId = "" then h
  else match h.freeSoloWaiter env (normalizeRoom req.room) with
    | none => h
    | some id =>
        let callerOffers := decide (req.remotePeer.peerId < h.peerIdOf id)
        (h.dequeueClient id).startFederatedMatch env id env.fedSession
          req.remotePeer base (!callerOffers)

/-- `federation_apply_claim`: refused unless our client still waits. -/
def federationApplyClaim (h : SimpleHub) (env : Env) (id : ConnId)
    (base : String) (resp : ClaimResponse) : SimpleHub :=
  if h.phaseOf id ≠ some .waiting || (h.fedByClient.get? id).isSome then h
  else (h.dequeueClient id).startFederatedMatch env id
    (resp.sessionId, resp.sessionKey) resp.claimedPeer (normalizeBase base)
    resp.callerIsOfferer

-- =============================================================== dispatcher

/-- Count a frame against the connection's window. -/
def allowMessage (h : SimpleHub) (env : Env) (id : ConnId) (c : Client) :
    SimpleHub × Bool :=
  let (q, ok) := allow c.limiter.messages h.sys.limits.maxMessages
    h.sys.limits.messageWindow env.now
  let h := h.modify id fun c =>
    { c with limiter := { c.limiter with messages := q } }
  if ok then (h, true) else (h.sendError id "rate limited — slow down", false)

/-- Record an inbound frame; true when it wakes a stale waiter. -/
def noteClientRx (h : SimpleHub) (env : Env) (id : ConnId) (isPing : Bool) :
    SimpleHub × Bool :=
  let wasStale := (h.get id).any fun c =>
    c.phase = .waiting && secs staleWaiterSecs ≤ env.elapsed c.lastRx
  (h.modify id fun c =>
    { c with
      lastRx := env.now
      lastActiveRx := if isPing then c.lastActiveRx else some env.now }, wasStale)

/-- A frame that woke a stale waiter lets the queue match at once. -/
def matchIfWoke (h : SimpleHub) (tm : SimpleHub → Option SimpleHub) (woke : Bool) :
    Option SimpleHub :=
  if woke then tm h else some h

/-- What every frame goes through before its handler; `false` when the
handler is not reached. -/
def preamble (h : SimpleHub) (env : Env) (tm : SimpleHub → Option SimpleHub)
    (id : ConnId) (msg : ClientMsg) : Option (SimpleHub × Bool) := do
  let h ← h.expireWsHolds env tm
  match h.get id with
  | none => some (h, false)
  | some c =>
    let (h, ok) := h.allowMessage env id c
    if !ok then some (h, false)
    else
      let (h, woke) := h.noteClientRx env id (msg = .ping)
      let h ← h.matchIfWoke tm woke
      let h ← h.dropZombiePartner env tm id
      some (h, true)

/-- `BrowseTogether` no longer starts anything: it explains why. -/
def handleBrowseTogether (h : SimpleHub) (id : ConnId) : SimpleHub :=
  let live := h.phaseOf id = some .matched || h.phaseOf id = some .friendCall
  if live && (h.peersOf id).card = 2 then
    (h.sendError id
      "party of 3 stays together — call a friend to invite a 4th").status id
        "to add a 4th, Call a friend — random 1v3 hunt is off"
  else match h.friendCallOf id with
    | none => h.sendError id
        "call a friend first, or form a group of 3 then search"
    | some fid =>
      if h.friendCallOf fid ≠ some id then h.sendError id "friend call not active"
      else (h.sendError id "invite your friend first — use Find 3rd").status id
        "friend call stays 1v1 until they accept Find 3rd"

/-- `HangupFriend`. -/
def handleHangupFriend (h : SimpleHub) (id : ConnId) : SimpleHub :=
  if (h.friendCallOf id).isSome then h.endFriendCall id "friend hung up"
  else h.status id "not in a friend call"

/-- The handler of a frame. -/
def dispatch (h : SimpleHub) (env : Env) (tm : SimpleHub → Option SimpleHub)
    (id : ConnId) : ClientMsg → Option SimpleHub
  | .hello msg => h.handleHello env tm id msg
  | .setPrefs gender looking flag tags hideIp =>
      h.handleSetPrefs tm id gender looking flag tags hideIp
  | .ping => some (h.send id .pong)
  | .setRoom room => some (h.handleSetRoom env id room)
  | .spin room => h.handleSpin env tm id room
  | .next room => h.handleNext env tm id room
  | .stop => h.stopMatchmaking env tm id
  | .findThirdInvite => some (h.handleFindThirdInvite env id)
  | .findThirdRespond accept => h.handleFindThirdRespond env tm id accept
  | .findThirdCancel => some (h.handleFindThirdCancel env id)
  | .browseTogether => some (h.handleBrowseTogether id)
  | .addFriend code => some (h.handleAddFriend id code)
  | .acceptFriend user => some (h.handleAcceptFriend id user)
  | .declineFriend user => some (h.handleDeclineFriend id user)
  | .removeFriend user => some (h.handleRemoveFriend id user)
  | .blockUser target => h.handleBlockUser env tm id target
  | .unblockUser user => some (h.handleUnblockUser id user)
  | .faceOk ok ready failOpen => h.handleFaceOk env tm id ok ready failOpen
  | .reportUser target reason => some (h.handleReportUser env id target reason)
  | .genitalHit target => some (h.handleGenitalHit env id target)
  | .callFriend user join => h.handleCallFriend env tm id user join
  | .callRespond user accept => h.handleCallRespond env tm id user accept
  | .callCancel user => some (h.handleCallCancel id user)
  | .hangupFriend => some (h.handleHangupFriend id)
  | .signal kind payload toPeer => some (h.handleSignal env id kind payload toPeer)
  | .other => some h

/-- `handle`. -/
def handle (h : SimpleHub) (env : Env) (tm : SimpleHub → Option SimpleHub)
    (id : ConnId) (msg : ClientMsg) : Option SimpleHub := do
  let (h, go) ← h.preamble env tm id msg
  if go then h.dispatch env tm id msg else some h

/-- One event; below its own calls of `try_match`, `fuel` more may nest. -/
def step (h : SimpleHub) (env : Env) (fuel : Nat) : Event → Option SimpleHub
  | .connect id ip => h.tryAddClient env (tryMatch env (fuel + 1)) id ip
  | .frame id msg => h.handle env (tryMatch env (fuel + 1)) id msg
  | .close id => h.removeClient env (tryMatch env (fuel + 1)) id
  | .geo id code country city => some (h.setClientGeo id code country city)
  | .adminBan user banSecs => some (h.adminBan env user banSecs)
  | .adminUnban user => some (h.adminUnban user)
  | .adminUnbanIp ip => some (h.adminUnbanIp ip)
  | .claim req => some (h.federationClaim env req)
  | .applyClaim id base resp => some (h.federationApplyClaim env id base resp)

end SimpleHub

end Ruletka
