/-
The hub's state: connections, the match queue, the friend graph, bans and
the two pending invites.

# What the records keep

A `Client` and the `SimpleHub` keep every field the session code reads or
writes, under the source's names. Left out is what only paints a screen
(names, avatars, gift effects), the star economy, the report and genital
books, metrics and logs: the code below reads those at four points, and
each is a field of `Env`, chosen anew for every event.

# Time, hashing and iteration

A connection is a `Uuid` in the source, a number here: the code compares
and sorts the bytes, and prints them. `Sys` holds what never changes in a
run: the limits, the face gate mode, and the functions whose code is not
in the repository (SHA-256 friend codes and session ids, the printed form
of a uuid). `Env` is what one event sees: one reading of the clocks, one
iteration order for each hash set, and the verdicts of the parts left
out. An event is handled under the hub's lock, so one clock reading
serves all of it.
-/
import Ruletka.Lib.Table

namespace Ruletka

abbrev ConnId : Type := Nat
abbrev UserId : Type := String
abbrev SessionId : Type := String

/-- A reading of the monotonic clock, in milliseconds. -/
abbrev Instant : Type := Nat

/-- Where a connection is. -/
inductive Phase where
  | idle
  | waiting
  /-- 1:1 with a friend -/
  | friendCall
  /-- in a stranger match, alone or as a party -/
  | matched
  deriving DecidableEq, Repr

/-- One slot of the match queue. -/
inductive QueueEntry where
  | solo (id : ConnId)
  /-- friend pair or find-third pair browsing for a stranger -/
  | party (a b : ConnId)
  /-- leftover shape, never matched -/
  | party3 (a b c : ConnId)
  deriving DecidableEq, Repr

/-- The last `face_ok` report of a connection. -/
structure FaceGate where
  ok : Bool
  ready : Bool
  failOpen : Bool
  reportedAt : Instant
  /-- first report of the current "detector not ready" run -/
  unreadySince : Option Instant
  deriving DecidableEq, Repr

/-- The sliding windows of accepted messages and of spin/next commands. -/
structure ClientLimiter where
  messages : List Instant
  matchCmds : List Instant
  deriving DecidableEq, Repr

/-- One connection. -/
structure Client where
  shortId : String
  peerId : String
  userId : UserId
  friendCode : String
  phase : Phase
  /-- 1:1 partner (friend call or solo match) -/
  partner : Option ConnId
  /-- active session peer set, excluding self -/
  sessionPeers : Finset ConnId
  sessionId : Option SessionId
  lastPartner : Option ConnId
  lastUnmatchAt : Option Instant
  room : String
  /-- friend currently in call with us -/
  friendCall : Option ConnId
  /-- other party member when browsing together -/
  partyWith : Option ConnId
  /-- party formed from a stranger find-third -/
  strangerParty : Bool
  gender : String
  looking : String
  flag : String
  hideIp : Bool
  geoCode : String
  geoCountry : String
  geoCity : String
  clientIp : String
  platform : String
  tags : List String
  limiter : ClientLimiter
  reportTimes : List Instant
  matchStarted : Option Instant
  /-- last SDP offer and answer time per target -/
  lastOfferAt : Table String Instant
  lastAnswerAt : Table String Instant
  waitStarted : Option Instant
  /-- 1v1 socket drop: keep the match until this instant -/
  wsHoldUntil : Option Instant
  lastRx : Instant
  lastActiveRx : Option Instant
  face : Option FaceGate

/-- Invite from one side of a 1v1 to search for a third together. -/
structure FindThirdPending where
  origin : ConnId
  target : ConnId
  expires : Instant
  deriving DecidableEq, Repr

/-- `origin` is in a call with `keep` (and `keep2`) and rings `target`. -/
structure JoinCallPending where
  origin : ConnId
  target : ConnId
  keep : ConnId
  keep2 : Option ConnId
  expires : Instant
  deriving DecidableEq, Repr

/-- A cross-hub session of a local connection. -/
structure FedSession where
  localClient : ConnId
  localPeerId : String
  remotePeerId : String
  remoteBaseUrl : String
  deriving DecidableEq, Repr

/-- How the hub treats `face_ok`. -/
inductive FaceGateMode where
  | off
  | optIn
  deriving DecidableEq, Repr

/-- Rate limits; windows in milliseconds. -/
structure LimitConfig where
  maxMessages : Nat
  messageWindow : Nat
  maxMatchCmds : Nat
  matchWindow : Nat
  maxClients : Nat
  deriving DecidableEq, Repr

/-- What never changes while the hub runs. -/
structure Sys where
  limits : LimitConfig
  faceGateMode : FaceGateMode
  /-- `friend_code_for`: SHA-256 of the user id, first eight hex digits -/
  friendCodeFor : UserId → String
  /-- SHA-256 over the sorted parts and the wall clock -/
  sessionHash : List String → Nat → SessionId
  /-- the hyphenated form of a uuid -/
  uuidText : ConnId → String
  /-- `peer_id_hex`: the plain hex form -/
  peerIdHex : ConnId → String

/-- What a partner is told about a peer's place. -/
structure PublicLocation where
  flag : String
  country : String
  city : String
  hideIp : Bool
  deriving DecidableEq, Repr

/-- One peer of a `Matched` message. -/
structure MatchPeer where
  peerId : String
  shortId : String
  userId : UserId
  isOfferer : Bool
  role : String
  friendCode : String
  location : PublicLocation
  deriving DecidableEq, Repr

/-- The `Matched` payload. -/
structure MatchedMsg where
  sessionId : SessionId
  sessionKey : String
  isOfferer : Bool
  room : String
  mode : String
  yourRole : String
  peers : List MatchPeer
  forceRelay : Bool
  deriving DecidableEq, Repr

/-- What the hub sends to a connection. -/
inductive ServerMsg where
  | helloOk (shortId peerId : String) (userId : UserId) (friendCode : String)
  | pong
  | error (message : String)
  | status (phase : Phase) (detail : String) (waitingPeers online : Nat)
      (room : String)
  | lobbyInfo (waitingPeers online roomWaiting : Nat) (room : String)
  | matched (m : MatchedMsg)
  | partnerGeo (peerId : String) (userId : UserId) (location : PublicLocation)
  | geo (country city flag : String)
  | findThirdIncoming (fromUserId : UserId)
  | findThirdResult (ok : Bool) (reason : String)
  | callIncoming (fromUserId : UserId) (fromShort fromPeer fromCode : String)
      (join : Bool) (withUserId : UserId)
  | callEnded (reason : String)
  | friendRequest (fromUserId : UserId) (fromCode : String)
  | banned (reason : String) (secs «until» : Nat) (permanent : Bool)
  | partnerBanned (reason : String)
  | genitalHitResult (counted banned : Bool) (message : String)
  | reportResult (autoBanned : Bool)
  | signal (author kind payload fromPeer : String)
  deriving DecidableEq, Repr

/-- Who the remote side of a federated claim is. -/
structure FedPeerDesc where
  peerId : String
  shortId : String
  userId : UserId
  deriving DecidableEq, Repr

/-- A signal on its way to the hub of a federated partner. -/
structure FedOutbound where
  baseUrl : String
  sessionId : SessionId
  fromPeer : String
  toPeer : String
  signalKind : String
  payload : String
  author : String
  deriving DecidableEq, Repr

/-- The hub. Friendships, blocks and pending requests are directed edges:
`(u, v)` is there when `v` is in the set stored under `u`. -/
structure SimpleHub where
  sys : Sys
  clients : Table ConnId Client
  /-- connection by persistent user id (online only) -/
  byUser : Table UserId ConnId
  /-- friend code to user id -/
  codeIndex : Table String UserId
  friendships : Finset (UserId × UserId)
  blocks : Finset (UserId × UserId)
  pending : Finset (UserId × UserId)
  /-- user id to ban expiry, unix seconds -/
  matchBans : Table UserId Nat
  /-- client address to ban expiry, unix seconds -/
  matchIpBans : Table String Nat
  matchIpBanUsers : Table String UserId
  userLastIp : Table UserId String
  queue : List QueueEntry
  fedSessions : Table SessionId FedSession
  fedByClient : Table ConnId SessionId
  findThirdPending : Option FindThirdPending
  joinCallPending : Option JoinCallPending
  /-- signals for other hubs, oldest first -/
  fedOutbox : List FedOutbound
  /-- messages handed to the connections' channels, oldest first -/
  out : List (ConnId × ServerMsg)

/-- What the genital ledger answers to a recorded hit. -/
inductive GenitalDecision where
  | reject (why : String)
  | counted (why : String)
  | ban (secs : Nat) (permanent : Bool)
  deriving DecidableEq, Repr

/-- What one event sees of the world outside the hub. -/
structure Env where
  now : Instant
  /-- wall clock, seconds -/
  unix : Nat
  /-- wall clock, milliseconds -/
  unixMs : Nat
  /-- iteration order of a connection's session peer set -/
  peerOrder : ConnId → IterOrder ConnId
  /-- iteration order of the map of clients -/
  mapOrder : IterOrder ConnId
  /-- fresh federated session id and key -/
  fedSession : SessionId × String
  /-- `social_health_for`: reputation from the star ledger -/
  socialHealth : UserId → Nat
  /-- `no_skip_secs_left`: seconds a user still may not press Next -/
  noSkipSecsLeft : UserId → Nat
  /-- ban expiry when a report meets score and diversity: reporter,
  target, reason -/
  reportVerdict : UserId → UserId → String → Option Nat
  /-- reason a hit's own numbers are refused, if they are -/
  hitReject : Option String
  /-- answer of the genital ledger: reporter, target, session -/
  genitalRecord : UserId → UserId → SessionId → GenitalDecision

/-- `if let Some(a) = o { .. }` on a state. -/
def onSome {σ α : Type} (o : Option α) (s : σ) (f : σ → α → σ) : σ :=
  match o with
  | some a => f s a
  | none => s

namespace SimpleHub

/-- The hub at start. -/
def empty (sys : Sys) : SimpleHub where
  sys := sys
  clients := ∅
  byUser := ∅
  codeIndex := ∅
  friendships := ∅
  blocks := ∅
  pending := ∅
  matchBans := ∅
  matchIpBans := ∅
  matchIpBanUsers := ∅
  userLastIp := ∅
  queue := []
  fedSessions := ∅
  fedByClient := ∅
  findThirdPending := none
  joinCallPending := none
  fedOutbox := []
  out := []

/-- The record of a connection. -/
def get (h : SimpleHub) (id : ConnId) : Option Client := h.clients.get? id

/-- `clients.contains_key`. -/
def has (h : SimpleHub) (id : ConnId) : Bool := (h.get id).isSome

/-- `if let Some(c) = clients.get_mut(&id)`. -/
def modify (h : SimpleHub) (id : ConnId) (f : Client → Client) : SimpleHub :=
  { h with clients := h.clients.modify id f }

/-- Replace the match queue. -/
def setQueue (h : SimpleHub) (q : List QueueEntry) : SimpleHub :=
  { h with queue := q }

/-- Replace the pending find-third invite. -/
def setFindThird (h : SimpleHub) (p : Option FindThirdPending) : SimpleHub :=
  { h with findThirdPending := p }

/-- Replace the pending join ring. -/
def setJoinCall (h : SimpleHub) (p : Option JoinCallPending) : SimpleHub :=
  { h with joinCallPending := p }

/-- Queue messages for sending. -/
def emit (h : SimpleHub) (ms : List (ConnId × ServerMsg)) : SimpleHub :=
  { h with out := h.out ++ ms }

end SimpleHub

end Ruletka
