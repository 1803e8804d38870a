/-
Direct messages between friends.

All threads are rows of one table, under the two user ids joined by a bar in
their order. A message is pushed onto its row and the row is cut to its last
hundred; a history request reads the row under the same joined key. Nothing
else writes the table. The friend lists that follow a message are left out.
-/
import Ruletka.Lib.Machine
import Ruletka.Star.Talk

namespace Ruletka

open Text

/-- `StoredDm`. -/
structure StoredDm where
  id : String
  «from» : UserId
  «to» : UserId
  body : String
  ts : Nat
  deriving DecidableEq, Repr

/-- `FriendChatLine`. -/
structure FriendChatLine where
  id : String
  fromUserId : UserId
  fromName : String
  body : String
  ts : Nat
  deriving DecidableEq, Repr

/-- What is sent about direct messages. -/
inductive DmMsg where
  | friendChat (id : String) (fromUserId : UserId) (fromName : String) (toUserId : UserId)
      (body : String) (ts : Nat)
  | friendChatHistory (withUserId : UserId) (messages : List FriendChatLine)
  | error (message : String)
  deriving DecidableEq, Repr

/-- The part of `LimitConfig` for chats. -/
structure ChatLimits where
  maxChat : Nat
  chatWindow : Nat

/-- The hub with the threads. -/
structure DmHub where
  hub : SimpleHub
  limits : ChatLimits
  /-- the times of a connection's chats -/
  chat : Table ConnId (List Instant)
  /-- the name a connection gave -/
  names : Table ConnId String
  knownNames : Table UserId String
  dms : Table String (List StoredDm)
  dmOut : List (ConnId × DmMsg)

/-- The world and the uuid of a message. -/
structure DmEnv extends Env where
  msgId : String

namespace DmHub

def maxChatChars : Nat := 500
def maxDmPerConv : Nat := 100

variable (s : DmHub)

/-- `send`: a connection that is gone gets nothing. -/
def say (id : ConnId) (msg : DmMsg) : DmHub :=
  if s.hub.has id then { s with dmOut := s.dmOut ++ [(id, msg)] } else s

/-- `allow_chat`. -/
def allowChat (env : DmEnv) (id : ConnId) : DmHub × Bool :=
  if s.hub.has id then
    let (q, ok) := SimpleHub.allow ((s.chat.get? id).getD []) s.limits.maxChat s.limits.chatWindow
      env.now
    ({ s with chat := s.chat.set id q }, ok)
  else (s, true)

/-- The name of a connection; its short id when it has none. -/
def nameOf (id : ConnId) (c : Client) : String :=
  let name := (s.names.get? id).getD ""
  if name = "" ∨ name = "anon" then c.shortId else name

/-- What becomes of a message. -/
inductive Verdict where
  | drop
  | refuse (message : String)
  | store (m : StoredDm)
  deriving DecidableEq

/-- The checks of `handle_friend_chat` behind the limiter. -/
def judge (env : DmEnv) (id : ConnId) (toUserId body : String) : Verdict :=
  let body := trim body
  let «to» := trim toUserId
  if body = "" then .drop
  else if maxChatChars < body.length then .refuse "chat too long (max 500 chars)"
  else if «to» = "" then .drop
  else match s.hub.get id with
    | none => .drop
    | some c =>
        if c.userId = «to» then .refuse "cannot message yourself"
        else if !s.hub.areMutualFriends c.userId «to» then
          .refuse "can only message mutual friends"
        else if s.hub.isBlockedPairUid c.userId «to» then
          .refuse "cannot message — user is blocked"
        else .store ⟨env.msgId, c.userId, «to», body, env.unix⟩

/-- The row under a key. -/
def row (key : String) : List StoredDm := (s.dms.get? key).getD []

/-- Push a message onto its row and cut the row from the front. -/
def keep (m : StoredDm) : DmHub :=
  let key := dmConvKey m.from m.to
  { s with dms := s.dms.set key ((s.row key ++ [m]).rtake maxDmPerConv) }

/-- Echo a message to its sender and hand it to the other side. -/
def deliver (id : ConnId) (m : StoredDm) : DmHub :=
  match s.hub.get id with
  | none => s
  | some c =>
      let wire := .friendChat m.id m.from (s.nameOf id c) m.to m.body m.ts
      let s := s.say id wire
      onSome (s.hub.byUser.get? m.to) s fun s tid => s.say tid wire

/-- `handle_friend_chat`. -/
def handleFriendChat (env : DmEnv) (id : ConnId) (toUserId body : String) : DmHub :=
  let (s, ok) := s.allowChat env id
  if !ok then s.say id (.error "rate limited — chat too fast")
  else match s.judge env id toUserId body with
    | .drop => s
    | .refuse message => s.say id (.error message)
    | .store m => (s.keep m).deliver id m

/-- The name a line of the history shows; `clients[&cid]` panics on a connection that
is gone. -/
def lineName (user : UserId) : Option String :=
  match s.hub.byUser.get? user with
  | some cid => (s.hub.get cid).map (s.nameOf cid)
  | none => some (((s.knownNames.get? user).filter (· ≠ "")).getD (takeChars 8 user))

def lineOf (m : StoredDm) : Option FriendChatLine :=
  (s.lineName m.from).map fun name => ⟨m.id, m.from, name, m.body, m.ts⟩

/-- `handle_friend_chat_history`; nothing when it panics. -/
def handleFriendChatHistory (id : ConnId) (withUserId : String) : Option DmHub :=
  let other := trim withUserId
  match s.hub.get id with
  | none => some s
  | some c =>
      if other = "" ∨ c.userId = other then some (s.say id (.friendChatHistory other []))
      else if !s.hub.areMutualFriends c.userId other then
        some (s.say id (.error "can only load chat with mutual friends"))
      else
        ((s.row (dmConvKey c.userId other)).mapM s.lineOf).map fun messages =>
          s.say id (.friendChatHistory other messages)

end DmHub

/-- What happens to the threads. -/
inductive DmEvent where
  | chat (env : DmEnv) (id : ConnId) (toUserId body : String)
  | history (id : ConnId) (withUserId : String)
  /-- whatever else the hub does, a restart on its own file included: the threads stay -/
  | other (rest : DmHub)

namespace DmHub

def step (s : DmHub) : DmEvent → Option DmHub
  | .chat env id toUserId body => some (s.handleFriendChat env id toUserId body)
  | .history id withUserId => s.handleFriendChatHistory id withUserId
  | .other rest => some { rest with dms := s.dms }

/-- The message that an event stores. -/
def stored (s : DmHub) : DmEvent → Option StoredDm
  | .chat env id toUserId body =>
      let (s, ok) := s.allowChat env id
      if !ok then none
      else match s.judge env id toUserId body with
        | .store m => some m
        | _ => none
  | .history .. => none
  | .other _ => none

/-- All messages so far, in the order they were sent. -/
def noteSent (sent : List StoredDm) (s : DmHub) (e : DmEvent) (_ : DmHub) : List StoredDm :=
  sent ++ (s.stored e).toList

end DmHub

/-- The hub from a start without messages. -/
def dmMachine : Machine DmHub DmEvent where
  start s := s.dms = ∅
  step s e s' := s.step e = some s'

end Ruletka
