/-
Leaving a match for the queue: spin, next, stop, the party hunt, and the
dissolution of a silent partner.
-/
import Ruletka.Hub.Match

namespace Ruletka

namespace SimpleHub

/-- Put one client in the solo queue without touching its former peers. -/
def placeInSoloQueue (h : SimpleHub) (env : Env) (id : ConnId) (room : String)
    (detail : String) : SimpleHub :=
  let h := h.dequeueClient id
  let h := h.modify id fun c =>
    (({ c with
      room := room
      phase := .waiting
      partyWith := none
      strangerParty := false
      partner := none
      sessionPeers := ∅
      sessionId := none
      matchStarted := none } : Client).clearSdp).startWait env
  let h := h.enqueueSolo id
  (h.status id detail).broadcastLobbyInfo env

/-- What the former peers of a leaver get: each is unmatched, and a plain
1v1 leftover keeps hunting. A friend or party mate is left alone. -/
def releasePeer (h : SimpleHub) (env : Env) (id : ConnId) (partnerMsg : String)
    (p : ConnId) : SimpleHub :=
  if h.friendCallOf id = some p || h.partyWithOf id = some p then h
  else
    let h := h.unmatchOne env p partnerMsg
    match h.get p with
    | some c =>
        if c.friendCall.isNone && c.partyWith.isNone && c.phase = .idle then
          h.placeInSoloQueue env p c.room partnerMsg
        else h
    | none => h

def clearMatchStateWithPartnerMsg (h : SimpleHub) (env : Env) (id : ConnId)
    (partnerMsg : String) : SimpleHub :=
  let peers := (env.peerOrder id).run (h.peersOf id)
  let h := (h.dequeueClient id).clearFedForClient id
  let h := h.modify id fun c =>
    ({ c with
      partner := none
      sessionPeers := ∅
      sessionId := none
      matchStarted := none
      phase := if c.phase = .matched ∨ c.phase = .waiting then .idle else c.phase
      : Client }).clearSdp
  peers.foldl (fun h p => h.releasePeer env id partnerMsg p) h

def clearMatchState (h : SimpleHub) (env : Env) (id : ConnId) : SimpleHub :=
  h.clearMatchStateWithPartnerMsg env id "partner hit Next — searching again"

def friendCallGraceSecs : Nat := 3

/-- A friend call that began moments ago. -/
def friendCallJustStarted (h : SimpleHub) (env : Env) (id : ConnId) : Bool :=
  (h.get id).any fun c =>
    c.friendCall.isSome && c.phase = .friendCall
      && c.matchStarted.any fun t => env.elapsed t / 1000 < friendCallGraceSecs

/-- Leave whatever goes on and join the queue alone. A waiting client only
triggers matching; a matched one is ignored. -/
def enterWaitingSolo (h : SimpleHub) (env : Env)
    (tm : SimpleHub → Option SimpleHub) (id : ConnId) (room : String)
    (detail : String) : Option SimpleHub :=
  if h.phaseOf id = some .waiting then tm h
  -- keep-alive spins must not tear a live 1v1
  else if h.phaseOf id = some .matched then some h
  else if h.friendCallJustStarted env id then some h
  else
    let h := if (h.friendCallOf id).isSome then
        h.endFriendCall id "left friend call to browse alone" else h
    let h := h.clearMatchState env id
    let h := h.modify id fun c =>
      { c with
        room := room
        phase := .waiting
        partyWith := none
        waitStarted := some env.now }
    let h := h.enqueueSolo id
    tm ((h.status id detail).broadcastLobbyInfo env)

/-- A pending find-third invite dies silently with either side. -/
def cancelFindThird (h : SimpleHub) (id : ConnId) : SimpleHub :=
  match h.findThirdPending with
  | some p => if p.origin = id ∨ p.target = id then h.setFindThird none else h
  | none => h

/-- The leaver's side of a stop whose mates stay together. -/
def stopKept (h : SimpleHub) (env : Env) (id : ConnId) : SimpleHub :=
  let h := h.modify id fun c =>
    { c with
      phase := .idle
      partyWith := none
      strangerParty := false
      partner := none
      sessionPeers := ∅
      sessionId := none
      friendCall := none }
  ((h.dequeueClient id).status id "stopped — idle").broadcastLobbyInfo env

def dropParty (c : Client) : Client :=
  { c with partyWith := none, strangerParty := false }

/-- A stop outside of a friend call with nobody to keep together. -/
def stopAlone (h : SimpleHub) (env : Env) (id : ConnId) : SimpleHub :=
  let h := onSome (h.partyWithOf id) h fun h pid =>
    (h.modify id dropParty).modify pid dropParty
  let h := h.clearMatchStateWithPartnerMsg env id "partner stopped"
  let h := h.modify id fun c =>
    ({ c with
      phase := .idle
      partyWith := none
      strangerParty := false
      friendCall := none
      matchStarted := none : Client }).clearSdp
  (h.status id "stopped — idle").broadcastLobbyInfo env

/-- Leave the queue or the match; do not queue again. -/
def stopMatchmaking (h : SimpleHub) (env : Env)
    (tm : SimpleHub → Option SimpleHub) (id : ConnId) : Option SimpleHub := do
  let (h, kept) ← (h.cancelFindThird id).leaveKeepRemainingPair env tm id
    "partner left — still chatting"
  some (if kept then h.stopKept env id
    else if (h.friendCallOf id).isSome then h.endFriendCall id "stopped"
    else h.stopAlone env id)

/-- One side of the party hunt: its strangers search alone, a friend mate
stays linked. -/
def partyRequeueSide (h : SimpleHub) (env : Env) (room : String) (id : ConnId) :
    SimpleHub :=
  let strangers := match h.get id with
    | some c => ((env.peerOrder id).run c.sessionPeers).filter fun p =>
        some p ≠ c.partyWith && some p ≠ c.friendCall
    | none => []
  let h := strangers.foldl (fun h s =>
    h.placeInSoloQueue env s room "party moved on — searching again") h
  h.modify id fun c =>
    { c with
      room := room
      sessionPeers := match c.friendCall with
        | some f => {f}
        | none => c.sessionPeers
      partner := match c.friendCall with
        | some f => some f
        | none => c.partner }

def partyRequeue (h : SimpleHub) (env : Env) (tm : SimpleHub → Option SimpleHub)
    (a b : ConnId) (room : String) (detail : String) : Option SimpleHub :=
  let h := h.partyRequeueSide env room a
  let h := h.partyRequeueSide env room b
  let h := h.enqueueParty env a b
  let h := (h.status a detail).status b detail
  tm (h.broadcastLobbyInfo env)

def partyLeaveStrangerAndRequeue (h : SimpleHub) (env : Env)
    (tm : SimpleHub → Option SimpleHub) (a b : ConnId) (room : String) :
    Option SimpleHub :=
  h.partyRequeue env tm a b room "next together — searching again"

-- ========================================================== silent partners

def zombiePartnerSecs : Nat := 20
def zombiePartnerHardSecs : Nat := 45

/-- Matched alone with one partner: no friend call, no party. -/
def inPlain1v1 (c : Client) : Bool :=
  c.phase = .matched && c.friendCall.isNone && c.partyWith.isNone
    && c.sessionPeers.card ≤ 1

/-- The partner of `id` never answered: silent since the match began, and
either not pinging or silent past the hard limit. -/
def zombiePartner (h : SimpleHub) (env : Env) (id : ConnId) : Option ConnId :=
  match h.get id with
  | none => none
  | some c =>
    if !inPlain1v1 c then none
    else match c.partner with
      | none => none
      | some pid =>
        if pid = id then none
        else match h.get pid with
          | none => none
          | some p =>
            if !inPlain1v1 p || p.partner ≠ some id || p.wsHoldUntil.isSome then none
            else match p.matchStarted with
              | none => none
              | some started =>
                let age := env.elapsed started
                if age < secs zombiePartnerSecs then none
                else if p.lastActiveRx.any (started ≤ ·) then none
                else if env.elapsed p.lastRx < secs zombiePartnerSecs
                    && age < secs zombiePartnerHardSecs then none
                else some pid

def dropZombiePartner (h : SimpleHub) (env : Env)
    (tm : SimpleHub → Option SimpleHub) (id : ConnId) : Option SimpleHub :=
  match h.zombiePartner env id with
  | none => some h
  | some pid =>
      let h := h.clearMatchStateWithPartnerMsg env pid
        "partner disconnected — searching again"
      tm (h.status pid "idle")

-- ============================================================== spin and next

def matchSettleSecs : Nat := 12
def matchSettle1v2Secs : Nat := 25
def nextSettleSecs : Nat := 4

/-- Seconds a fresh match still refuses Spin. -/
def matchSettleRemaining (h : SimpleHub) (env : Env) (id : ConnId) : Option Nat :=
  match h.get id with
  | none => none
  | some c =>
    if c.phase ≠ .matched then none
    else match c.matchStarted with
      | none => none
      | some started =>
        let elapsed := env.elapsed started / 1000
        let budget := if 2 ≤ c.sessionPeers.card then matchSettle1v2Secs
          else matchSettleSecs
        if budget ≤ elapsed then none else some (max (budget - elapsed) 1)

def settleText (left : Nat) : String :=
  "connecting — wait " ++ toString left ++ "s before Next (media settling)"

/-- Seconds a fresh match still refuses Next. -/
def nextSettleRemaining (h : SimpleHub) (env : Env) (id : ConnId) : Option Nat :=
  match (h.get id).bind (·.matchStarted) with
  | none => none
  | some t0 =>
      let elapsed := env.elapsed t0 / 1000
      if nextSettleSecs ≤ elapsed then none else some (max (nextSettleSecs - elapsed) 1)

/-- Sliding window: drop the entries older than the window. -/
def prune (q : List Instant) (window : Nat) (now : Instant) : List Instant :=
  q.dropWhile fun t => window < now - t

/-- Sliding window: accept unless the window is full. -/
def allow (q : List Instant) (most window : Nat) (now : Instant) :
    List Instant × Bool :=
  let q := prune q window now
  if most ≤ q.length then (q, false) else (q ++ [now], true)

/-- Count a spin or next against the connection's window. -/
def allowMatchCmd (h : SimpleHub) (env : Env) (id : ConnId) : SimpleHub × Bool :=
  match h.get id with
  | none => (h, true)
  | some c =>
    let (q, ok) := allow c.limiter.matchCmds h.sys.limits.maxMatchCmds
      h.sys.limits.matchWindow env.now
    let h := h.modify id fun c =>
      { c with limiter := { c.limiter with matchCmds := q } }
    if ok then (h, true)
    else (h.sendError id "rate limited — too many spin/next", false)

/-- A banned connection is told so instead of matched. The genital notice
reads the ban book and is left out. -/
def denyIfMatchBanned (h : SimpleHub) (env : Env) (id : ConnId) :
    SimpleHub × Bool :=
  if h.isMatchBannedConn env id then
    ((h.sendError id
      "temporarily restricted due to multiple reports — try again later").status id
        "restricted — cannot match right now", true)
  else (h, false)

def roomFor (h : SimpleHub) (id : ConnId) (room : String) : String :=
  if Text.trim room = "" then h.roomOf id else normalizeRoom room

/-- `ClientMsg::Spin`. -/
def handleSpin (h : SimpleHub) (env : Env) (tm : SimpleHub → Option SimpleHub)
    (id : ConnId) (room : String) : Option SimpleHub :=
  let (h, denied) := h.denyIfMatchBanned env id
  if denied then some h
  else match h.matchSettleRemaining env id with
    | some left => some (h.status id (settleText left))
    | none =>
      let (h, ok) := h.allowMatchCmd env id
      if !ok then some h
      else
        let room := h.roomFor id room
        match h.partyWithOf id with
        | some pid => h.partyRequeue env tm id pid room "party spun into lobby"
        | none => h.enterWaitingSolo env tm id room "spun into lobby"

/-- The part of `ClientMsg::Next` behind its four refusals. -/
def nextDispatch (h : SimpleHub) (env : Env) (tm : SimpleHub → Option SimpleHub)
    (id : ConnId) (room : String) : Option SimpleHub :=
  match h.partyWithOf id with
  | some pid => h.partyLeaveStrangerAndRequeue env tm id pid room
  | none => do
    let (h, kept) ←
      h.leaveKeepRemainingPair env tm id "stranger left — looking for a 3rd again"
    if kept then tm (h.placeInSoloQueue env id room "next — searching again")
    else if (h.friendCallOf id).isSome then
      some (h.status id "in friend call — invite them with Find 3rd")
    else h.enterWaitingSolo env tm id room "next — searching again"

/-- `ClientMsg::Next`. -/
def handleNext (h : SimpleHub) (env : Env) (tm : SimpleHub → Option SimpleHub)
    (id : ConnId) (room : String) : Option SimpleHub :=
  let (h, denied) := h.denyIfMatchBanned env id
  if denied then some h
  else match h.nextSettleRemaining env id with
    | some left => some (h.status id (settleText left))
    | none =>
      let (h, ok) := h.allowMatchCmd env id
      if !ok then some h
      else
        let left := env.noSkipSecsLeft (h.userOf id)
        if 0 < left && h.userOf id ≠ "" then
          some (h.status id ("please stay active — can't skip for "
            ++ toString left ++ "s more"))
        else h.nextDispatch env tm id (h.roomFor id room)

end SimpleHub

end Ruletka
