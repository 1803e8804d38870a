/-
Reading the hub: rooms, bans, blocks, freshness, the face gate, and what
one client's `Matched` message says about another.

Everything here is a pure function of the state; the two writers at the
bottom (`status`, `broadcastLobbyInfo`) only hand messages to channels.
-/
import Ruletka.Hub.State
import Ruletka.Lib.Text

namespace Ruletka

open Text

/-- `Duration::from_secs`, in the clock's milliseconds. -/
def secs (n : Nat) : Nat := n * 1000

/-- `Instant::elapsed`: zero for an instant still ahead. -/
def Env.elapsed (env : Env) (t : Instant) : Nat := env.now - t

def maxRoomChars : Nat := 64

def normalizeRoom (raw : String) : String := takeChars maxRoomChars (trim raw)

def normalizeGender (raw : String) : String :=
  match toLowercase (trim raw) with
  | "man" | "male" | "m" => "man"
  | "woman" | "female" | "f" | "w" => "woman"
  | "other" | "nb" | "nonbinary" | "non-binary" => "other"
  | _ => ""

def normalizeLooking (raw : String) : String :=
  match toLowercase (trim raw) with
  | "man" | "male" | "m" => "man"
  | "woman" | "female" | "f" | "w" => "woman"
  | _ => "any"

/-- Cosmetic flag: two ASCII letters or nothing. -/
def normalizeFlag (raw : String) : String :=
  let s := upper (takeChars 2 (String.ofList ((trim raw).toList.filter Char.isAlpha)))
  if s.length = 2 then s else ""

/-- Soft preference: empty and any accept all, an unknown gender passes. -/
def lookingAccepts (looking otherGender : String) : Bool :=
  let l := if looking = "" then "any" else looking
  l = "any" || otherGender = "" || l = otherGender

def allowedTags : List String :=
  ["music", "games", "movies", "tech", "travel", "sports", "art", "chat",
    "langs", "anime"]

def maxTags : Nat := 3

def normalizeTags (raw : List String) : List String :=
  let keys := (raw.map fun t => lower (trim t)).filter (· ∈ allowedTags)
  (keys.foldl (fun acc k => if k ∈ acc then acc else acc ++ [k]) []).take maxTags

/-- Soft tags: empty on either side is no preference. -/
def tagsSoftOk (a b : List String) : Bool :=
  a.isEmpty || b.isEmpty || a.any (· ∈ b)

/-- The connections in a queue slot. -/
def queueEntryIds : QueueEntry → List ConnId
  | .solo id => [id]
  | .party a b => [a, b]
  | .party3 a b c => [a, b, c]

/-- Queue pairing gate: 1v1, 1v2 and 2v2 only. -/
def queueShapeOk : QueueEntry → QueueEntry → Bool
  | .solo _, .solo _ => true
  | .solo _, .party _ _ => true
  | .party _ _, .solo _ => true
  | .party _ _, .party _ _ => true
  | .party3 _ _ _, _ => false
  | _, .party3 _ _ _ => false

/-- Loopback and private prefixes that are never address-banned. -/
def ipIsPrivate (ip : String) : Bool :=
  hasPrefix ip "10." || hasPrefix ip "192.168." || hasPrefix ip "127."
    || ip = "::1" || hasPrefix ip "fc" || hasPrefix ip "fd"
    || hasPrefix ip "fe80:"

/-- The second octet of a `172.` address when it parses as a number. -/
def ipv4SecondOctet (rest : String) : Option Nat :=
  (String.ofList (rest.toList.takeWhile (· ≠ '.'))).toNat?

/-- Private, loopback, link-local or empty: hairpin detection is
unreliable. -/
def ipUntrustedForDirect (raw : String) : Bool :=
  let ip := trim raw
  ip = "" || ip = "0.0.0.0" || ip = "::" || ipIsPrivate ip
    || hasPrefix ip "169.254."
    || (hasPrefix ip "172."
        && match ipv4SecondOctet (String.ofList (ip.toList.drop 4)) with
          | some o => 16 ≤ o && o ≤ 31
          | none => false)

/-- When the hub sets `force_relay` on a pair. -/
def pairForceRelayDecision (hideA hideB : Bool) (ipA ipB : String) : Bool :=
  hideA || hideB || ipUntrustedForDirect ipA || ipUntrustedForDirect ipB
    || (trim ipA ≠ "" && trim ipA = trim ipB)

/-- What partners may see of a client's place: the cosmetic flag only when
it hides its address. -/
def publicLocation (c : Client) : PublicLocation :=
  if c.hideIp then
    { flag := c.flag, country := "", city := "", hideIp := true }
  else
    { flag := if c.flag ≠ "" then c.flag else c.geoCode
      country := c.geoCountry
      city := c.geoCity
      hideIp := false }

def isMobilePlatform (p : String) : Bool :=
  p = "android" || p = "ios" || p = "mobile" || p = "expo"

/-- Which side offers: web before mobile, then the longer waiter, then the
smaller peer id. -/
def iAmOfferer (self other : Client) : Bool :=
  if self.platform = "web" && isMobilePlatform other.platform then true
  else if isMobilePlatform self.platform && other.platform = "web" then false
  else match self.waitStarted, other.waitStarted with
    | some fa, some tb =>
        if fa ≠ tb then fa ≤ tb else self.peerId < other.peerId
    | some _, none => true
    | none, some _ => false
    | none, none => self.peerId < other.peerId

/-- The match payload for `other` as seen by `self`. -/
def matchPeer (self other : Client) (role : String) : MatchPeer where
  peerId := other.peerId
  shortId := other.shortId
  userId := other.userId
  isOfferer := iAmOfferer self other
  role := role
  friendCode := other.friendCode
  location := publicLocation other

namespace SimpleHub

/-- The connections whose record passes a test. -/
def connsWhere (h : SimpleHub) (p : Client → Bool) : Finset ConnId :=
  h.clients.keys.filter fun id => (h.get id).any p

def roomOf (h : SimpleHub) (id : ConnId) : String :=
  ((h.get id).map (·.room)).getD ""

def phaseOf (h : SimpleHub) (id : ConnId) : Option Phase :=
  (h.get id).map (·.phase)

def userOf (h : SimpleHub) (id : ConnId) : UserId :=
  ((h.get id).map (·.userId)).getD ""

def peersOf (h : SimpleHub) (id : ConnId) : Finset ConnId :=
  ((h.get id).map (·.sessionPeers)).getD ∅

def partnerOf (h : SimpleHub) (id : ConnId) : Option ConnId :=
  (h.get id).bind (·.partner)

def friendCallOf (h : SimpleHub) (id : ConnId) : Option ConnId :=
  (h.get id).bind (·.friendCall)

def partyWithOf (h : SimpleHub) (id : ConnId) : Option ConnId :=
  (h.get id).bind (·.partyWith)

def queueEntryRoom (h : SimpleHub) : QueueEntry → String
  | .solo id => h.roomOf id
  | .party a _ => h.roomOf a
  | .party3 a _ _ => h.roomOf a

def queueWaitingInRoom (h : SimpleHub) (room : String) : Nat :=
  (h.queue.filter fun e => h.queueEntryRoom e = room).length

def waitingSoloCount (h : SimpleHub) : Nat :=
  (h.queue.filter fun e => e matches .solo _).length

def queueEntryWaitingOk (h : SimpleHub) (e : QueueEntry) : Bool :=
  (queueEntryIds e).all fun id => h.phaseOf id = some .waiting

/-- Either direction: if one blocked the other they must not match. -/
def isBlockedPairUid (h : SimpleHub) (a b : UserId) : Bool :=
  if a = "" || b = "" || a = b then false
  else (a, b) ∈ h.blocks || (b, a) ∈ h.blocks

def isBlockedPairConn (h : SimpleHub) (a b : ConnId) : Bool :=
  match h.get a, h.get b with
  | some ca, some cb => h.isBlockedPairUid ca.userId cb.userId
  | _, _ => true

/-- Both accepted the friendship. -/
def areMutualFriends (h : SimpleHub) (a b : UserId) : Bool :=
  (a, b) ∈ h.friendships && (b, a) ∈ h.friendships

def isMatchBanned (h : SimpleHub) (env : Env) (user : UserId) : Bool :=
  user ≠ "" && (h.matchBans.get? user).any (env.unix < ·)

def isIpBanned (h : SimpleHub) (env : Env) (raw : String) : Bool :=
  let ip := trim raw
  if ip = "" || ip = "0.0.0.0" || ip = "::" || ipIsPrivate ip then false
  else (h.matchIpBans.get? ip).any (env.unix < ·)

def isMatchBannedConn (h : SimpleHub) (env : Env) (id : ConnId) : Bool :=
  (h.get id).any fun c => h.isMatchBanned env c.userId || h.isIpBanned env c.clientIp

def staleWaiterSecs : Nat := 30

def clientRxFresh (h : SimpleHub) (env : Env) (id : ConnId) : Bool :=
  (h.get id).any fun c => env.elapsed c.lastRx < secs staleWaiterSecs

def queueEntryFresh (h : SimpleHub) (env : Env) (e : QueueEntry) : Bool :=
  (queueEntryIds e).all (h.clientRxFresh env)

def faceOkTtlSecs : Nat := 45
def faceLoadGraceSecs : Nat := 20

/-- Face-before-match gate: true when the connection may be matched. -/
def clientFaceOk (h : SimpleHub) (env : Env) (id : ConnId) : Bool :=
  if h.sys.faceGateMode = .off then true
  else match h.get id with
    | none => false
    | some c => match c.face with
      | none => true
      | some f =>
          if secs faceOkTtlSecs ≤ env.elapsed f.reportedAt then false
          else if f.failOpen || f.ok then true
          else if f.ready then false
          else match f.unreadySince, c.waitStarted with
            | some unready, some waiting =>
                secs faceLoadGraceSecs ≤ env.elapsed (max unready waiting)
            | _, _ => false

def queueEntryFaceOk (h : SimpleHub) (env : Env) (e : QueueEntry) : Bool :=
  (queueEntryIds e).all (h.clientFaceOk env)

def pairForceRelay (h : SimpleHub) (a b : ConnId) : Bool :=
  match h.get a, h.get b with
  | some ca, some cb =>
      pairForceRelayDecision ca.hideIp cb.hideIp ca.clientIp cb.clientIp
  | _, _ => false

/-- `make_session_id`: the session id and key over the sorted parts. -/
def makeSessionId (h : SimpleHub) (env : Env) (parts : List String) :
    SessionId × String :=
  let sid := h.sys.sessionHash (parts.insertionSort (· ≤ ·)) env.unixMs
  (sid, "simple:" ++ sid)

def peerIdOf (h : SimpleHub) (id : ConnId) : String :=
  ((h.get id).map (·.peerId)).getD ""

/-- The peers a `Matched` for `me` lists, with their roles. -/
def matchPeers (h : SimpleHub) (me : ConnId) (others : List (ConnId × String)) :
    List MatchPeer :=
  match h.get me with
  | none => []
  | some c => others.filterMap fun (id, role) =>
      (h.get id).map fun o => matchPeer c o role

/-- `send`: dropped when the connection is gone. -/
def send (h : SimpleHub) (id : ConnId) (m : ServerMsg) : SimpleHub :=
  h.emit (if h.has id then [(id, m)] else [])

def sendError (h : SimpleHub) (id : ConnId) (message : String) : SimpleHub :=
  h.send id (.error message)

/-- `status`: the phase, the text, and the room's queue figures. -/
def status (h : SimpleHub) (id : ConnId) (detail : String) : SimpleHub :=
  match h.get id with
  | none => h.emit []
  | some c => h.emit [(id, .status c.phase detail (h.queueWaitingInRoom c.room)
      h.clients.keys.card c.room)]

/-- Tell every connection the lobby figures. -/
def broadcastLobbyInfo (h : SimpleHub) (env : Env) : SimpleHub :=
  h.emit ((env.mapOrder.run h.clients.keys).map fun id =>
    (id, .lobbyInfo h.queue.length h.clients.keys.card
      (h.queueWaitingInRoom (h.roomOf id)) (h.roomOf id)))

end SimpleHub

end Ruletka
