/-
The chat of a session.

A line goes through the sender's limiter, is trimmed and bounded, and is read
by the filter when its sender is matched with a stranger. The filter keeps one
time for each connection, that of its last line about an age, and for each
user the times of its grooming lines of the last week. A line that passes goes
to the hub of a federated partner, or else to everybody in the session.

A connection's record is made with no such time and takes it away when it
goes, so the times of connections that are gone are dropped.
-/
import Ruletka.Chat.Dm
import Ruletka.Chat.Filter
import Ruletka.Lib.Window

namespace Ruletka

open Text

/-- What is sent about chat lines. -/
inductive ChatMsg where
  | chat (author body : String) (fromUserId : UserId)
  | error (message : String)
  deriving DecidableEq, Repr

/-- A chat line on its way to another hub: a `RelayRequest` of kind `Chat`. -/
structure FedChat where
  baseUrl : String
  sessionId : SessionId
  author : String
  body : String
  deriving DecidableEq, Repr

/-- What the filter writes to `safety-logs.jsonl`. -/
structure FilterLine where
  category : ChatCategory
  rule : String
  senderUserId : UserId
  targetUserIds : List UserId
  excerpt : String
  serverTs : Nat
  /-- for grooming only -/
  groomingFlags7d : Option Nat
  deriving DecidableEq, Repr

/-- The hub with what the chat reads and writes. -/
structure ChatHub where
  /-- with the limiters and the names, which friends' messages use as well -/
  dm : DmHub
  /-- `chat_age_ctx_at` -/
  ageCtxAt : Table ConnId Instant
  /-- `chat_grooming_flags`, seconds -/
  groomingFlags : Table UserId (List Nat)
  chatOut : List (ConnId × ChatMsg)
  fedChats : List FedChat
  safetyLog : List FilterLine

namespace ChatHub

/-- Milliseconds. -/
def chatAgeContext : Nat := secs (10 * 60)
/-- Seconds. -/
def chatFlagWindowSecs : Nat := 7 * 24 * 3600

def excerptChars : Nat := 160

variable (s : ChatHub) (T : CharTable) (env : Env)

/-- `send`: a connection that is gone gets nothing. -/
def say (id : ConnId) (msg : ChatMsg) : ChatHub :=
  if s.dm.hub.has id then { s with chatOut := s.chatOut ++ [(id, msg)] } else s

/-- The session peers of a connection, or else its partner. -/
def listeners (id : ConnId) (c : Client) : List ConnId :=
  let peers := (env.peerOrder id).run c.sessionPeers
  if peers.isEmpty then c.partner.toList else peers

/-- A line about an age came from this connection in the last ten minutes. -/
def ageContextRecent (id : ConnId) : Bool :=
  (s.ageCtxAt.get? id).any fun t => env.elapsed t < chatAgeContext

/-- The notice a blocked sender gets. -/
def notice : ChatCategory → String
  | .contactSwap => "message not sent — contacts and links are hidden in stranger chat"
  | .explicit | .grooming => "message not sent — explicit content"

/-- The grooming flags of a user with one more, pruned to the last week. -/
def raiseFlag (user : UserId) : List Nat :=
  ((s.groomingFlags.get? user).getD []).filter (fun t => env.unix - t < chatFlagWindowSecs)
    ++ [env.unix]

/-- A grooming line counts for its sender's user, if it has one. -/
def countGrooming (category : ChatCategory) (user : UserId) : ChatHub × Nat :=
  if category = .grooming && user ≠ "" then
    let hits := s.raiseFlag env user
    ({ s with groomingFlags := s.groomingFlags.set user hits }, hits.length)
  else (s, 0)

/-- A blocked line is flagged, logged, and answered with a notice. -/
def block (id : ConnId) (c : Client) (body : String) (category : ChatCategory) (rule : String) :
    ChatHub :=
  let targets := (listeners env id c).filterMap fun p => (s.dm.hub.get p).map (·.userId)
  let (s, flags) := s.countGrooming env category c.userId
  let line : FilterLine :=
    { category := category
      rule := rule
      senderUserId := c.userId
      targetUserIds := targets
      excerpt := takeChars excerptChars body
      serverTs := env.unixMs
      groomingFlags7d := if category = .grooming then some flags else none }
  ({ s with safetyLog := s.safetyLog ++ [line] }).say id (.error (notice category))

/-- The line is between strangers: its sender is matched, on this hub or with
a user of another. -/
def betweenStrangers (id : ConnId) (c : Client) : Bool :=
  c.phase = .matched || (s.dm.hub.fedByClient.get? id).isSome

/-- Remember that a line was about an age. -/
def noteAge (id : ConnId) (v : ChatVerdict) : ChatHub :=
  if v.ageContext then { s with ageCtxAt := s.ageCtxAt.set id env.now } else s

/-- `chat_filter_blocks`, with the hub after it. -/
def chatFilterBlocks (id : ConnId) (body : String) : ChatHub × Bool :=
  match s.dm.hub.get id with
  | none => (s, false)
  | some c =>
    if s.betweenStrangers id c then
      let verdict := classify T body (s.ageContextRecent env id)
      let s := s.noteAge env id verdict
      match verdict.category with
      | none => (s, false)
      | some category => (s.block env id c body category verdict.rule, true)
    else (s, false)

/-- The federated session of a connection. -/
def fedSessionOf (id : ConnId) : Option (SessionId × FedSession) :=
  (s.dm.hub.fedByClient.get? id).bind fun sid =>
    (s.dm.hub.fedSessions.get? sid).map fun sess => (sid, sess)

/-- Echo the line, and queue it for the other hub. -/
def relayChat (id : ConnId) (sid : SessionId) (sess : FedSession) (body : String) : ChatHub :=
  let author := ((s.dm.hub.get id).map (s.dm.nameOf id)).getD "anon"
  let s := s.say id (.chat author body (s.dm.hub.userOf id))
  { s with fedChats := s.fedChats ++ [⟨sess.remoteBaseUrl, sid, author, body⟩] }

/-- Echo the line, and hand it to the session. -/
def deliverChat (id : ConnId) (body : String) : ChatHub :=
  match s.dm.hub.get id with
  | none => s.say id (.error "not matched")
  | some c =>
    if c.phase = .matched || c.phase = .friendCall then
      let line := .chat (s.dm.nameOf id c) body c.userId
      (listeners env id c).foldl (fun s t => s.say t line) (s.say id line)
    else s.say id (.error "not matched")

/-- The line goes on to whom it is for. -/
def forward (id : ConnId) (body : String) : ChatHub :=
  match s.fedSessionOf id with
  | some (sid, sess) => s.relayChat id sid sess body
  | none => s.deliverChat env id body

/-- What becomes of a line that is neither empty nor too long. -/
def pass (id : ConnId) (body : String) : ChatHub :=
  let (s, blocked) := s.chatFilterBlocks T env id body
  if blocked then s else s.forward env id body

/-- The sender's limiter lets the line through. -/
def withinLimit (id : ConnId) : Bool := (s.dm.allowChat { env with msgId := "" } id).2

/-- The hub after the sender's limiter. -/
def limited (id : ConnId) : ChatHub :=
  { s with dm := (s.dm.allowChat { env with msgId := "" } id).1 }

/-- `handle_chat`. -/
def handleChat (id : ConnId) (raw : String) : ChatHub :=
  let body := trim raw
  if !s.withinLimit env id then
    (s.limited env id).say id (.error "rate limited — chat too fast")
  else if body = "" then s.limited env id
  else if DmHub.maxChatChars < body.length then
    (s.limited env id).say id (.error "chat too long (max 500 chars)")
  else (s.limited env id).pass T env id body

end ChatHub

/-- What happens to the chat. -/
inductive ChatEvent where
  | chat (env : Env) (id : ConnId) (raw : String)
  /-- whatever else the hub does -/
  | other (rest : DmHub)

namespace ChatHub

def step (T : CharTable) (s : ChatHub) : ChatEvent → ChatHub
  | .chat env id raw => s.handleChat T env id raw
  | .other rest => { s with dm := rest, ageCtxAt := s.ageCtxAt.retain fun x _ => rest.hub.has x }

end ChatHub

-- ====================================================================== history

namespace ChatHub

/-- The line of a stranger that the filter reads, with its sender's record. -/
def strangersLine (s : ChatHub) (env : Env) (id : ConnId) (raw : String) :
    Option (Client × String) :=
  if s.withinLimit env id && trim raw ≠ "" && (trim raw).length ≤ DmHub.maxChatChars then
    (s.dm.hub.get id).bind fun c =>
      if s.betweenStrangers id c then some (c, trim raw) else none
  else none

end ChatHub

/-- The line asks for an age or mentions a minor. -/
def aboutAge (T : CharTable) (body : String) : Bool := (classify T body false).ageContext

/-- What is remembered of a run: the clocks, the lines about an age of the
connections that are there, and the grooming lines with their senders. -/
structure ChatPast where
  now : Instant
  unix : Nat
  ages : List (ConnId × Instant)
  grooming : List (UserId × Nat)

namespace ChatPast

def start : ChatPast := ⟨0, 0, [], []⟩

/-- A line about an age came from this connection in the last ten minutes. -/
def ageRecent (past : ChatPast) (env : Env) (id : ConnId) : Bool :=
  past.ages.any fun a => a.1 = id && env.elapsed a.2 < ChatHub.chatAgeContext

/-- What the filter should say of a line. -/
def verdict (past : ChatPast) (T : CharTable) (env : Env) (id : ConnId) (body : String) :
    ChatVerdict :=
  classify T body (past.ageRecent env id)

/-- The times of a user's grooming lines. -/
def groomings (past : ChatPast) (user : UserId) : List Nat :=
  (past.grooming.filter (·.1 = user)).map (·.2)

/-- The clocks do not run backwards. -/
def Allows (past : ChatPast) : ChatEvent → Prop
  | .chat env _ _ => past.now ≤ env.now ∧ past.unix ≤ env.unix
  | .other _ => True

instance (past : ChatPast) : (e : ChatEvent) → Decidable (past.Allows e)
  | .chat _ _ _ => inferInstanceAs (Decidable (_ ∧ _))
  | .other _ => .isTrue trivial

/-- The history after a line that the filter reads. -/
def hear (past : ChatPast) (T : CharTable) (env : Env) (id : ConnId) (c : Client)
    (body : String) : ChatPast where
  now := env.now
  unix := env.unix
  ages := if aboutAge T body then past.ages ++ [(id, env.now)] else past.ages
  grooming :=
    if (past.verdict T env id body).category = some .grooming && c.userId ≠ "" then
      past.grooming ++ [(c.userId, env.unix)]
    else past.grooming

/-- The history after an event. -/
def note (T : CharTable) (past : ChatPast) (s : ChatHub) : ChatEvent → ChatHub → ChatPast
  | .chat env id raw, _ =>
      match s.strangersLine env id raw with
      | none => { past with now := env.now, unix := env.unix }
      | some (c, body) => past.hear T env id c body
  | .other rest, _ => { past with ages := past.ages.filter fun a => rest.hub.has a.1 }

end ChatPast

/-- Chat from a hub nobody has written on, with its history, while the clocks
do not run backwards. -/
def chatMachine (T : CharTable) : Machine (ChatHub × ChatPast) ChatEvent :=
  ((⟨fun s => s.ageCtxAt = ∅ ∧ s.groomingFlags = ∅, fun s e s' => s' = s.step T e⟩ :
    Machine ChatHub ChatEvent).watch .start (ChatPast.note T)).guard fun q e => q.2.Allows e

end Ruletka
