/-
Formal debate: the control plane of one session, and two of them in a call.

The inviter hosts and speaks first; whoever does not speak is muted. The two
sessions of a call send each other messages over a channel in each direction
that loses and reorders nothing. A host that sees a turn run out moves it and
says so, and so does a speaker that passes; a guest whose host lags moves the
turn for itself only.

User ids are in the form `debateUidEq` compares, trimmed and in lower case.
Left out are the texts a user reads, the topic, the snapshot for a channel
that opens late and the encoding of the messages.
-/
import Ruletka.Hub.State
import Ruletka.Lib.Machine

namespace Ruletka.Mobile

def debateTurnMs : Nat := 30000
def debateTurnChoicesS : List Nat := [15, 30, 45, 60]
/-- How long a guest waits for its host to move the turn. -/
def guestGraceMs : Nat := 900

/-- An invite id; no two are the same. -/
structure InviteId where
  maker : UserId
  number : Nat
  deriving DecidableEq, Repr

inductive DebatePending where
  | out
  | incoming
  deriving DecidableEq, Repr

/-- What the invite timer does when it runs. -/
inductive InviteTimer where
  | inviteTtl (inviteId : InviteId)
  | incomingTtl
  | startTimeout
  deriving DecidableEq, Repr

structure DebateStart where
  inviteId : Option InviteId
  hostId : UserId
  firstSpeakerId : UserId
  partnerId : UserId
  speakers : List UserId
  turnMs : Nat
  turnIndex : Nat
  turnEndsAt : Nat
  deriving DecidableEq, Repr

inductive DebateMsg where
  | invite (inviteId : InviteId) (turnMs : Nat)
  | accept (inviteId : InviteId)
  | decline (inviteId : Option InviteId)
  | cancel (inviteId : Option InviteId)
  | start (msg : DebateStart)
  | turn (speakerId : UserId) (turnIndex turnEndsAt turnMs : Nat) (inviteId : Option InviteId)
  | ended (inviteId : Option InviteId)
  deriving DecidableEq, Repr

/-- What the callbacks of a session answer. -/
structure DebateCallbacks where
  myUserId : UserId
  partnerUserId : UserId
  roomUserIds : List UserId
  isMatched : Bool
  isDcOpen : Bool

structure DebateSession where
  active : Bool
  pending : Option DebatePending
  inviteId : Option InviteId
  hostId : UserId
  partnerId : UserId
  speakerId : UserId
  turnMs : Nat
  turnIndex : Nat
  turnEndsAt : Nat
  composeTurnSecs : Nat
  speakers : List UserId
  inviteTimer : Option InviteTimer
  /-- `tickIv` is set -/
  ticks : Bool
  /-- the last `onMicLock` -/
  micLocked : Bool
  deriving DecidableEq, Repr

-- ======================================================================= helpers

def debateUidEq (a b : UserId) : Bool := a ≠ "" && b ≠ "" && a = b

def normalizeDebateTurnMs (ms : Nat) : Nat :=
  let n := if ms = 0 then debateTurnMs else ms
  let secs := (n + 500) / 1000
  if secs ∈ debateTurnChoicesS then secs * 1000 else min 120000 (max 10000 (secs * 1000))

/-- `a || b` on texts. -/
def orText (a b : UserId) : UserId := if a = "" then b else a

/-- `a || b` on numbers. -/
def orNumber (a b : Nat) : Nat := if a = 0 then b else a

/-- Append an id that is none of those there. -/
def addSpeaker (ids : List UserId) (s : UserId) : List UserId :=
  if s = "" || ids.any (debateUidEq · s) then ids else ids ++ [s]

namespace DebateSession

/-- A new session. -/
def fresh : DebateSession :=
  ⟨false, none, none, "", "", "", debateTurnMs, 0, 0, 30, [], none, false, false⟩

variable (c : DebateCallbacks) (s : DebateSession)

def iAmSpeaker : Bool := debateUidEq s.speakerId c.myUserId

def isHost : Bool := debateUidEq s.hostId c.myUserId

/-- Tell the screen and lock the microphone of who does not speak. -/
def emit : DebateSession := { s with micLocked := s.active && !s.iAmSpeaker c }

def clearInviteTimer : DebateSession := { s with inviteTimer := none }

def clearPending : DebateSession :=
  { s with pending := none, inviteId := none, inviteTimer := none }

def canStart : Bool :=
  c.isMatched && c.partnerUserId ≠ "" && c.partnerUserId ≠ c.myUserId && !s.active
    && s.pending.isNone

def collectRoster (extra : UserId) : List UserId :=
  ([c.myUserId, c.partnerUserId, s.hostId, s.partnerId, extra] ++ c.roomUserIds).foldl
    (fun ids x => if x = "legacy" then ids else addSpeaker ids x) []

def otherSpeaker : UserId :=
  let roster := if s.speakers = [] then s.collectRoster c "" else s.speakers
  if 2 ≤ roster.length then
    let i := (roster.findIdx? (debateUidEq · s.speakerId)).getD 0
    (roster[(i + 1) % roster.length]?).getD ""
  else if s.iAmSpeaker c then
    orText (orText s.partnerId c.partnerUserId) c.myUserId
  else c.myUserId

-- ======================================================================== a debate

/-- `end`, telling the other side or not. -/
def endDebate (notify : Bool) : DebateSession × List DebateMsg :=
  let sent := if notify && s.active then [.ended s.inviteId] else []
  let s := { s with
    ticks := false
    inviteTimer := none
    active := false
    pending := none
    speakerId := ""
    hostId := ""
    partnerId := ""
    inviteId := none
    turnEndsAt := 0
    turnIndex := 0 }
  (s.emit c, sent)

def reset : DebateSession × List DebateMsg := s.endDebate c false

def applyStart (msg : DebateStart) (now : Nat) : DebateSession :=
  let turnMs := normalizeDebateTurnMs (orNumber msg.turnMs (orNumber s.turnMs debateTurnMs))
  let first := orText (orText msg.firstSpeakerId msg.hostId) c.partnerUserId
  let partner := orText msg.partnerId (if first = c.myUserId then c.partnerUserId else first)
  let s := s.clearPending
  let s := { s with
    speakers := (msg.speakers ++ [first, partner, c.myUserId] ++ c.roomUserIds).foldl addSpeaker []
    active := true
    pending := none
    hostId := orText msg.hostId first
    partnerId := orText partner c.partnerUserId
    speakerId := first
    inviteId := msg.inviteId.or s.inviteId
    turnMs := turnMs
    turnIndex := msg.turnIndex
    turnEndsAt := orNumber msg.turnEndsAt (now + turnMs)
    ticks := true }
  s.emit c

def applyTurn (speaker : UserId) (idx endsAt ms now : Nat) : DebateSession :=
  if !s.active || speaker = "" || idx < s.turnIndex then s
  else
    let s := { s with
      speakerId := speaker
      turnIndex := idx
      turnEndsAt := orNumber endsAt (now + orNumber s.turnMs debateTurnMs)
      turnMs := if ms = 0 then s.turnMs else normalizeDebateTurnMs ms }
    s.emit c

/-- `advanceTurn`: the host's clock, a speaker that yields, or a guest whose host
lags; the guest does not say so. -/
def advanceTurn (force yieldTurn : Bool) (now : Nat) : DebateSession × List DebateMsg :=
  let announces := s.isHost c || (yieldTurn && s.iAmSpeaker c)
  if !s.active || (!force && !yieldTurn && now + 40 < s.turnEndsAt) then (s, [])
  else if !announces && (!force || now < s.turnEndsAt + guestGraceMs) then (s, [])
  else
    let next := s.otherSpeaker c
    if next = "" then (s, [])
    else
      let turnMs := orNumber s.turnMs debateTurnMs
      let endsAt := now + turnMs
      let idx := s.turnIndex + 1
      let s := { s with speakerId := next, turnIndex := idx, turnEndsAt := endsAt }
      (s.emit c, if announces then [.turn next idx endsAt turnMs s.inviteId] else [])

/-- The clock of a running debate. -/
def tick (now : Nat) : DebateSession × List DebateMsg :=
  if !s.active then ({ s with ticks := false }, [])
  else if !c.isMatched then s.endDebate c false
  else
    let s := s.emit c
    if s.turnEndsAt ≤ now && (s.isHost c || s.turnEndsAt + guestGraceMs ≤ now) then
      s.advanceTurn c true false now
    else (s, [])

def passTurn (now : Nat) : DebateSession × List DebateMsg :=
  if !s.active || c.myUserId = "" || !s.iAmSpeaker c then (s, [])
  else s.advanceTurn c false true now

-- ====================================================================== the invite

/-- `sendInviteFromCompose`, with the id of the new invite. -/
def sendInviteFromCompose (turnSecs : Nat) (inviteId : InviteId) :
    DebateSession × List DebateMsg :=
  if !s.canStart c || !c.isDcOpen then (s, [])
  else
    let secs := orNumber turnSecs (orNumber s.composeTurnSecs 30)
    let turnMs := normalizeDebateTurnMs (secs * 1000)
    let s := { s with
      composeTurnSecs := (turnMs + 500) / 1000
      turnMs := turnMs
      pending := some .out
      inviteId := some inviteId
      partnerId := c.partnerUserId
      hostId := c.myUserId
      inviteTimer := some (.inviteTtl inviteId) }
    (s.emit c, [.invite inviteId turnMs])

/-- `inviteOrToggle`: end the debate or cancel the invite. -/
def inviteOrToggle : DebateSession × List DebateMsg :=
  if s.active then s.endDebate c true
  else if s.pending = some .out then
    ((s.clearPending).emit c, [.cancel s.inviteId])
  else (s, [])

def acceptIncoming : DebateSession × List DebateMsg :=
  match s.pending, s.inviteId with
  | some .incoming, some inviteId =>
      (({ s with inviteTimer := some .startTimeout }).emit c, [.accept inviteId])
  | _, _ => (s, [])

def declineIncoming : DebateSession × List DebateMsg :=
  if s.pending = some .incoming then (s.clearPending.emit c, [.decline s.inviteId]) else (s, [])

/-- The invite timer runs. -/
def runInviteTimer (timer : InviteTimer) : DebateSession × List DebateMsg :=
  let s := s.clearInviteTimer
  match timer with
  | .inviteTtl inviteId =>
      if s.pending = some .out && s.inviteId = some inviteId then
        (s.clearPending.emit c, [.cancel (some inviteId)])
      else (s, [])
  | .incomingTtl =>
      if s.pending = some .incoming then (s.clearPending.emit c, [.decline s.inviteId]) else (s, [])
  | .startTimeout =>
      if !s.active && s.pending = some .incoming then (s.clearPending.emit c, []) else (s, [])

-- ==================================================================== the messages

def handleInviteIncoming (inviteId : InviteId) (turnMs : Nat) (fromUid : UserId) :
    DebateSession × List DebateMsg :=
  let busy := s.active || s.pending.isSome
  if s.inviteId = some inviteId && busy then (s, [])
  else if busy then (s, [.decline (some inviteId)])
  else if !c.isMatched || debateUidEq fromUid c.myUserId then (s, [])
  else
    let s := { s with
      pending := some .incoming
      inviteId := some inviteId
      partnerId := orText fromUid c.partnerUserId
      hostId := orText fromUid c.partnerUserId
      turnMs := normalizeDebateTurnMs (orNumber turnMs debateTurnMs)
      inviteTimer := some .incomingTtl }
    (s.emit c, [])

/-- The invite of an answer is not the one that is out. -/
def otherInvite (inviteId : Option InviteId) : Bool :=
  inviteId.isSome && s.inviteId.isSome && inviteId ≠ s.inviteId

def handleAccept (inviteId : InviteId) (fromUid : UserId) (now : Nat) :
    DebateSession × List DebateMsg :=
  if s.pending ≠ some .out || s.otherInvite (some inviteId) then (s, [])
  else
    let turnMs := normalizeDebateTurnMs (orNumber s.turnMs debateTurnMs)
    let msg : DebateStart :=
      { inviteId := s.inviteId
        hostId := c.myUserId
        firstSpeakerId := c.myUserId
        partnerId := orText fromUid c.partnerUserId
        speakers := s.collectRoster c fromUid
        turnMs := turnMs
        turnIndex := 0
        turnEndsAt := now + turnMs }
    (s.applyStart c msg now, [.start msg])

def handleDecline (inviteId : Option InviteId) : DebateSession :=
  if s.pending ≠ some .out || s.otherInvite inviteId then s else s.clearPending.emit c

def handleMessage (msg : DebateMsg) (fromUid : UserId) (now : Nat) :
    DebateSession × List DebateMsg :=
  match msg with
  | .invite inviteId turnMs => s.handleInviteIncoming c inviteId turnMs fromUid
  | .accept inviteId => s.handleAccept c inviteId fromUid now
  | .decline inviteId => (s.handleDecline c inviteId, [])
  | .cancel inviteId =>
      if s.pending = some .incoming && inviteId = s.inviteId then (s.clearPending.emit c, [])
      else (s, [])
  | .start msg => (s.applyStart c msg now, [])
  | .turn speaker idx endsAt ms _ => (s.applyTurn c speaker idx endsAt ms now, [])
  | .ended _ => if s.active || s.pending.isSome then s.endDebate c false else (s, [])

end DebateSession

-- ================================================================ two of them talk

/-- The two ends of a call. -/
inductive Side where
  | left
  | right
  deriving DecidableEq, Repr

namespace Side

def other : Side → Side
  | left => right
  | right => left

end Side

/-- The users of the two ends: two of them, and both known. -/
structure Duo where
  user : Side → UserId
  known : ∀ s, user s ≠ ""
  distinct : user .left ≠ user .right

/-- The callbacks of one end: each is the other's partner in a live call. -/
def Duo.callbacks (d : Duo) (s : Side) : DebateCallbacks :=
  ⟨d.user s, d.user s.other, [d.user s, d.user s.other], true, true⟩

/-- Two sessions and the messages between them. -/
structure Duel where
  session : Side → DebateSession
  /-- what an end has sent and the other has not had, oldest first -/
  channel : Side → List DebateMsg
  /-- how many invites an end has made -/
  invites : Side → Nat

inductive DuelEvent where
  | invite (s : Side) (turnSecs : Nat)
  | toggle (s : Side)
  | accept (s : Side)
  | decline (s : Side)
  | passTurn (s : Side) (now : Nat)
  | endDebate (s : Side) (notify : Bool)
  | reset (s : Side)
  | tick (s : Side) (now : Nat)
  | timer (s : Side)
  /-- the end takes the oldest message for it -/
  | deliver (s : Side) (now : Nat)
  deriving DecidableEq, Repr

namespace DuelEvent

/-- Where it happens. -/
def side : DuelEvent → Side
  | invite s _ | toggle s | accept s | decline s | passTurn s _ | endDebate s _ | reset s
  | tick s _ | timer s | deliver s _ => s

end DuelEvent

namespace Duel

variable (duo : Duo)

def fresh : Duel := ⟨fun _ => .fresh, fun _ => [], fun _ => 0⟩

/-- What the event does at its end: the session after it and what it sends. -/
def act (w : Duel) (e : DuelEvent) : Option (DebateSession × List DebateMsg) :=
  let s := e.side
  let c := duo.callbacks s
  let x := w.session s
  match e with
  | .invite _ turnSecs =>
      some (x.sendInviteFromCompose c turnSecs ⟨duo.user s, w.invites s⟩)
  | .toggle _ => some (x.inviteOrToggle c)
  | .accept _ => some (x.acceptIncoming c)
  | .decline _ => some (x.declineIncoming c)
  | .passTurn _ now => some (x.passTurn c now)
  | .endDebate _ notify => some (x.endDebate c notify)
  | .reset _ => some (x.reset c)
  | .tick _ now => if x.ticks then some (x.tick c now) else none
  | .timer _ => x.inviteTimer.map (x.runInviteTimer c)
  | .deliver _ now => (w.channel s.other).head?.map fun m =>
      x.handleMessage c m (duo.user s.other) now

/-- The state after an event that can happen. -/
def step (w : Duel) (e : DuelEvent) : Option Duel :=
  (w.act duo e).map fun (x, sent) =>
    let s := e.side
    { session := Function.update w.session s x
      channel := fun t =>
        if t = s then w.channel s ++ sent
        else match e with
          | .deliver .. => (w.channel t).tail
          | _ => w.channel t
      invites := match e with
        | .invite .. => Function.update w.invites s (w.invites s + 1)
        | _ => w.invites }

end Duel

/-- Two sessions in a call, through any events. -/
def duelMachine (duo : Duo) : Machine Duel DuelEvent where
  start w := w = .fresh
  step w e w' := w.step duo e = some w'

end Ruletka.Mobile
