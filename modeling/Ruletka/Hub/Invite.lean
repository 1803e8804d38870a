/-
Find-third invites and friend calls: the ring, its cancellation, and the
five outcomes of an accepted ring.
-/
import Ruletka.Hub.Requeue

namespace Ruletka

namespace SimpleHub

-- =============================================================== find third

def findThirdTtlSecs : Nat := 30

def expireFindThirdIfNeeded (h : SimpleHub) (env : Env) : SimpleHub :=
  match h.findThirdPending with
  | none => h
  | some p =>
    if env.now < p.expires then h
    else
      let h := h.setFindThird none
      let h := h.send p.origin (.findThirdResult false "expired")
      h.send p.target (.findThirdResult false "expired")

/-- Mutual stranger 1v1: no friend call, no party. -/
def isStranger1v1Pair (h : SimpleHub) (a b : ConnId) : Bool :=
  match h.get a, h.get b with
  | some ca, some cb =>
      ca.phase = .matched && cb.phase = .matched
        && ca.friendCall.isNone && cb.friendCall.isNone
        && ca.partyWith.isNone && cb.partyWith.isNone
        && ca.sessionPeers.card = 1 && cb.sessionPeers.card = 1
        && b ∈ ca.sessionPeers && a ∈ cb.sessionPeers
  | _, _ => false

/-- Mutual friend call 1v1: no party. -/
def isFriendCall1v1Pair (h : SimpleHub) (a b : ConnId) : Bool :=
  match h.get a, h.get b with
  | some ca, some cb =>
      ca.friendCall = some b && cb.friendCall = some a
        && ca.partyWith.isNone && cb.partyWith.isNone
        && (ca.phase = .friendCall || ca.phase = .matched)
        && (cb.phase = .friendCall || cb.phase = .matched)
  | _, _ => false

def isFindThirdEligiblePair (h : SimpleHub) (a b : ConnId) : Bool :=
  h.isStranger1v1Pair a b || h.isFriendCall1v1Pair a b

/-- Whom a find-third invite of this client goes to. -/
def findThirdPartner (env : Env) (id : ConnId) (c : Client) : Option ConnId :=
  if c.sessionPeers.card = 1 then ((env.peerOrder id).run c.sessionPeers).head?
  else c.partner.or c.friendCall

def handleFindThirdInvite (h : SimpleHub) (env : Env) (id : ConnId) : SimpleHub :=
  let h := h.expireFindThirdIfNeeded env
  match (h.get id).bind (findThirdPartner env id) with
  | none => h.sendError id "need an active 1v1 match to invite"
  | some partner =>
    if !h.isFindThirdEligiblePair id partner then
      let group := (h.get id).any fun c =>
        2 ≤ c.sessionPeers.card || c.partyWith.isSome
      h.sendError id (if group then
        "already in a group (max 3 via Find 3rd). For 4 people: two pairs Browse together → 2v2 match"
      else "find third only during a 1v1 call (friend or stranger)")
    else if h.findThirdPending.isSome then
      h.send id (.findThirdResult false "busy")
    else
      let invite : FindThirdPending :=
        { origin := id, target := partner
          expires := env.now + secs findThirdTtlSecs }
      let h := h.setFindThird (some invite)
      let incoming := ServerMsg.findThirdIncoming (h.userOf id)
      let h := h.send partner incoming
      -- extra tabs of the same user hear it too
      let uid := h.userOf partner
      let extra := if uid = "" then []
        else (env.mapOrder.run (h.connsWhere (·.userId = uid))).filter (· ≠ partner)
      let h := h.emit (extra.map fun cid => (cid, incoming))
      h.status id "find-third invite sent — waiting"

/-- The accepted invite: both sides hunt as a party. -/
def findThirdAccepted (h : SimpleHub) (env : Env)
    (tm : SimpleHub → Option SimpleHub) (p : FindThirdPending) :
    Option SimpleHub :=
  let friends := h.isFriendCall1v1Pair p.origin p.target
  if !friends && !h.isStranger1v1Pair p.origin p.target then
    let left := ServerMsg.findThirdResult false "left"
    some ((h.send p.origin left).send p.target left)
  else
    let flag := fun (c : Client) => { c with strangerParty := true }
    let h := if friends then h
      else (h.modify p.origin flag).modify p.target flag
    let h := h.enqueueParty env p.origin p.target
    let role := if friends then "friend" else "teammate"
    let h := [(p.origin, p.target), (p.target, p.origin)].foldl
      (fun h (me, them) =>
        let peers := h.matchPeers me [(them, role)]
        let h := h.send me (.findThirdResult true "accepted")
        let h := h.send me (.matched
          { sessionId := ((h.get me).bind (·.sessionId)).getD
              ("trio-" ++ h.sys.uuidText me)
            sessionKey := "trio:" ++ h.sys.uuidText me ++ ":" ++ h.sys.uuidText them
            isOfferer := peers.any (·.isOfferer)
            room := h.roomOf me, mode := "party_browse", yourRole := "party"
            peers := peers, forceRelay := h.pairForceRelay me them })
        h.status me "find-third — looking for a 3rd") h
    tm (h.broadcastLobbyInfo env)

def handleFindThirdRespond (h : SimpleHub) (env : Env)
    (tm : SimpleHub → Option SimpleHub) (id : ConnId) (accept : Bool) :
    Option SimpleHub :=
  let h := h.expireFindThirdIfNeeded env
  match h.findThirdPending with
  | none => some (h.send id (.findThirdResult false "expired"))
  | some p =>
    if p.target ≠ id then some (h.send id (.findThirdResult false "error"))
    else
      let h := h.setFindThird none
      if !accept then
        let h := h.send p.origin (.findThirdResult false "declined")
        let h := h.send id (.findThirdResult false "declined")
        some (h.status p.origin "partner declined find-third")
      else h.findThirdAccepted env tm p

def handleFindThirdCancel (h : SimpleHub) (env : Env) (id : ConnId) : SimpleHub :=
  let h := h.expireFindThirdIfNeeded env
  match h.findThirdPending with
  | none => h
  | some p =>
    if p.origin ≠ id then h
    else
      let h := h.setFindThird none
      let h := h.send p.origin (.findThirdResult false "cancelled")
      h.send p.target (.findThirdResult false "cancelled")

-- ============================================================= friend calls

/-- Other people in a client's live mesh, in increasing order. -/
def liveMeshOthers (h : SimpleHub) (id : ConnId) : List ConnId :=
  match h.get id with
  | none => []
  | some c =>
    if c.phase ≠ .matched && c.phase ≠ .friendCall then []
    else
      let others := IterOrder.increasing.run (c.sessionPeers.erase id)
      if others.isEmpty then (c.partner.or c.friendCall).toList else others

/-- The other side of a pure 1v1 that can take a third. -/
def live1v1Partner (h : SimpleHub) (id : ConnId) : Option ConnId :=
  match h.get id with
  | none => none
  | some c =>
    let live := c.phase = .matched || c.phase = .friendCall
    if c.partyWith.isSome || 1 < c.sessionPeers.card then none
    else if live && c.friendCall.isSome then c.friendCall
    else if c.phase = .matched && c.sessionPeers.card = 1 then
      (IterOrder.increasing.run c.sessionPeers).head?
    else if live then c.partner
    else none

def joinCallTtlSecs : Nat := 45

def expireJoinCallIfNeeded (h : SimpleHub) (env : Env) : SimpleHub :=
  match h.joinCallPending with
  | none => h
  | some p =>
    if env.now < p.expires then h
    else
      let h := h.setJoinCall none
      let h := h.send p.origin (.callEnded "no answer")
      let h := h.send p.target (.callEnded "invite expired")
      h.status p.origin "join invite expired"

/-- Ring `target` for a join and remember who is kept in the call. -/
def ringJoin (h : SimpleHub) (env : Env) (id target keep : ConnId)
    (keep2 : Option ConnId) (c : Client) (detail : String) : SimpleHub :=
  let ring : JoinCallPending :=
    { origin := id, target := target, keep := keep, keep2 := keep2
      expires := env.now + secs joinCallTtlSecs }
  let h := h.setJoinCall (some ring)
  let h := h.send target (.callIncoming c.userId c.shortId c.peerId c.friendCode
    true (h.userOf keep))
  h.status id detail

/-- Invite into the caller's own mesh, as third or fourth. -/
def callJoin (h : SimpleHub) (env : Env) (id oid : ConnId) (c : Client) :
    SimpleHub :=
  match h.liveMeshOthers id with
  | [] => h.sendError id "join invite needs an active 1v1 or 3-way first"
  | keep :: rest =>
    if 2 ≤ rest.length then h.sendError id "party is full (max 4)"
    else if oid ∈ keep :: rest then
      h.sendError id "already in a call with them"
    else if (h.phaseOf oid).any (· ≠ .idle) then
      h.sendError id "friend is busy — they must be free to join your call"
    else if h.joinCallPending.isSome || h.findThirdPending.isSome then
      h.sendError id "another invite is already pending"
    else h.ringJoin env id oid keep rest.head? c
      "inviting friend to join your call…"

/-- The private ring, after the caller left what it was in. -/
def callClassic (h : SimpleHub) (env : Env) (id oid : ConnId) (c : Client) :
    SimpleHub :=
  if h.phaseOf oid = some .friendCall || h.phaseOf oid = some .matched then
    let multi := (h.get oid).any fun o =>
      2 ≤ o.sessionPeers.card || o.partyWith.isSome
    match h.live1v1Partner oid with
    | none => h.sendError id (if multi then
        "friend is busy in a group call — hang up first. Invite them with Call while you are free, or use Find stranger together for 3."
        else "friend is busy in another call")
    | some keep =>
      if multi then h.sendError id
        "friend is busy in a group call — hang up first. Invite them with Call while you are free, or use Find stranger together for 3."
      else if keep = id then h.sendError id "already in a call with them"
      else if h.joinCallPending.isSome || h.findThirdPending.isSome then
        h.sendError id "another invite is already pending"
      else h.ringJoin env id oid keep none c
        "calling — they can add you without hanging up…"
  else
    -- a ring to a free friend leaves no pending invite behind
    let h := h.setJoinCall none
    let h := h.send oid (.callIncoming c.userId c.shortId c.peerId c.friendCode
      false "")
    h.status id "calling friend…"

/-- Leave the queue or the match for a call. -/
def leaveForCall (h : SimpleHub) (env : Env) (tm : SimpleHub → Option SimpleHub)
    (id : ConnId) : Option SimpleHub :=
  if h.phaseOf id = some .matched || h.phaseOf id = some .waiting
  then h.stopMatchmaking env tm id else some h

/-- Leave the queue or the match for a call, or at least any leftover slot. -/
def leaveOrDequeue (h : SimpleHub) (env : Env) (tm : SimpleHub → Option SimpleHub)
    (id : ConnId) : Option SimpleHub :=
  if h.phaseOf id = some .matched || h.phaseOf id = some .waiting
  then h.stopMatchmaking env tm id else some (h.dequeueClient id)

/-- End a friend call with anybody but `other`. -/
def endOtherCall (h : SimpleHub) (id other : ConnId) (reason : String) : SimpleHub :=
  if (h.friendCallOf id).isSome && h.friendCallOf id ≠ some other
  then h.endFriendCall id reason else h

/-- `CallFriend`. The offline ring only fires a push notification, so an
offline friend is an error here. -/
def handleCallFriend (h : SimpleHub) (env : Env)
    (tm : SimpleHub → Option SimpleHub) (id : ConnId) (userId : UserId)
    (join : Bool) : Option SimpleHub :=
  let h := h.expireJoinCallIfNeeded env
  match h.get id with
  | none => some h
  | some me =>
    if !h.areMutualFriends me.userId userId then
      some (h.sendError id
        (if (me.userId, userId) ∈ h.pending then
          "friend request pending — wait for them to accept"
        else if (userId, me.userId) ∈ h.pending then
          "accept their friend request first"
        else "only friends can call — send a request and wait for accept"))
    else if h.isBlockedPairUid me.userId userId then
      some (h.sendError id "cannot call — user is blocked")
    else match h.byUser.get? userId with
      | none => some (h.sendError id "friend offline")
      | some oid =>
        if join then some (h.callJoin env id oid me)
        else do
          let h := if (h.friendCallOf id).isSome then
            h.endFriendCall id "left to call another friend" else h
          let h ← h.leaveForCall env tm id
          some (h.callClassic env id oid me)

/-- `CallCancel`: the caller hung up while the target was still ringing. -/
def handleCallCancel (h : SimpleHub) (id : ConnId) (userId : UserId) :
    SimpleHub :=
  match h.get id with
  | none => h
  | some me =>
    if me.userId = "" || userId = "" then h
    else
      let h := match h.joinCallPending with
        | some p => if p.origin = id then h.setJoinCall none else h
        | none => h
      let h := match h.byUser.get? userId with
        | some oid => h.send oid (.callEnded "caller cancelled")
        | none => h
      h.status id "call cancelled"

/-- The caller of an accepted join leaves what it is in. -/
def leaveToJoin (h : SimpleHub) (env : Env) (tm : SimpleHub → Option SimpleHub)
    (caller id : ConnId) : Option SimpleHub :=
  if h.phaseOf caller = some .waiting then h.stopMatchmaking env tm caller
  else if (h.friendCallOf caller).isSome && h.friendCallOf caller ≠ some id then
    some (h.endFriendCall caller "left to join another call")
  else if h.phaseOf caller = some .matched then h.stopMatchmaking env tm caller
  else some h

/-- The acceptor leaves what it is in and joins the caller's call. -/
def joinAsGuest (h : SimpleHub) (env : Env) (tm : SimpleHub → Option SimpleHub)
    (id caller : ConnId) (p : JoinCallPending) : Option SimpleHub := do
  let busy := (h.phaseOf id).any (· ≠ .idle)
  let h := if busy && (h.friendCallOf id).isSome then
    h.endFriendCall id "left to join another call" else h
  let h ← h.leaveForCall env tm id
  if !h.has p.keep then some (h.sendError id "call ended — try again")
  else match p.keep2 with
    | some k2 =>
        if !h.has k2 then some (h.sendError id "call ended — try again")
        else some (h.startFourPersonJoin env caller p.keep k2 id)
    | none => some (h.startThreePersonJoin env caller p.keep id)

/-- A join ring accepted by its target. Either the acceptor hosts (it is in
a call of its own and the caller joins) or the caller hosts. -/
def joinAccepted (h : SimpleHub) (env : Env) (tm : SimpleHub → Option SimpleHub)
    (id caller : ConnId) (callerUser : UserId) (p : JoinCallPending) :
    Option SimpleHub :=
  if !(h.has p.keep && h.has caller) then
    some (h.sendError id "call ended — try again")
  else if !h.areMutualFriends (h.userOf id) callerUser then
    let h := h.sendError id "not friends — only friends can join"
    some (h.send caller (.callEnded "join failed — not friends"))
  else match (h.live1v1Partner id).filter (· ≠ caller) with
    | some keep => do
        let h ← h.leaveToJoin env tm caller id
        some (h.startThreePersonJoin env id keep caller)
    | none =>
      let mine := h.liveMeshOthers id
      match mine with
      | [m0, m1] =>
        if caller ∉ mine then do
          let h ← h.leaveForCall env tm caller
          some (h.startFourPersonJoin env id m0 m1 caller)
        else h.joinAsGuest env tm id caller p
      | _ => h.joinAsGuest env tm id caller p

/-- Leave the queue quietly: no "partner stopped", which would auto-spin. -/
def quiet (h : SimpleHub) (id : ConnId) : SimpleHub :=
  (h.dequeueClient id).modify id fun c =>
    if c.phase = .waiting ∨ c.phase = .idle then
      { c with phase := .idle, waitStarted := none } else c

/-- A private ring accepted. A callee in a pure 1v1 takes the caller in as
third; otherwise both leave the queue quietly and talk alone. -/
def classicAccepted (h : SimpleHub) (env : Env)
    (tm : SimpleHub → Option SimpleHub) (id caller : ConnId) :
    Option SimpleHub :=
  match (h.live1v1Partner id).filter (· ≠ caller) with
  | some keep => do
      let h := h.endOtherCall caller id "left previous friend call"
      let h ← h.leaveOrDequeue env tm caller
      some ((h.setJoinCall none).startThreePersonJoin env id keep caller)
  | none =>
      let h := if (h.friendCallOf id).isSome then
        h.endFriendCall id "left previous friend call" else h
      let h := h.endOtherCall caller id "left previous friend call"
      let h := (h.quiet id).quiet caller
      some ((h.setJoinCall none).startFriendSession env caller id)

/-- `CallRespond`. -/
def handleCallRespond (h : SimpleHub) (env : Env)
    (tm : SimpleHub → Option SimpleHub) (id : ConnId) (callerUser : UserId)
    (accept : Bool) : Option SimpleHub :=
  let h := h.expireJoinCallIfNeeded env
  match h.byUser.get? callerUser with
  | none => some (h.sendError id "caller offline")
  | some caller =>
    match h.joinCallPending.filter fun p => p.target = id ∧ p.origin = caller with
    | some p =>
        let h := h.setJoinCall none
        if accept then h.joinAccepted env tm id caller callerUser p
        else some ((h.send caller (.callEnded "join declined")).status caller
          "join declined")
    | none =>
      if !accept then
        some ((h.send caller (.callEnded "call declined")).status caller
          "call declined")
      else
        let me := h.userOf id
        if me = "" || !h.areMutualFriends me callerUser then
          let h := h.sendError id "not friends — only friends can call"
          some (h.send caller (.callEnded "call failed — not friends"))
        else if h.isBlockedPairUid me callerUser then
          let h := h.sendError id "cannot call — user is blocked"
          some (h.send caller (.callEnded "call failed"))
        else h.classicAccepted env tm id caller

end SimpleHub

end Ruletka
