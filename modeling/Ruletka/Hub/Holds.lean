/-
Socket close: the 45 s hold that parks a live 1v1, the removal of a
client, and the sweep that removes clients whose hold ran out.
-/
import Ruletka.Hub.Leave

namespace Ruletka

/-- The hold has a deadline and it has passed. -/
def Client.holdExpired (env : Env) (c : Client) : Bool :=
  c.wsHoldUntil.any (· ≤ env.now)

namespace SimpleHub

def wsHoldSecs : Nat := 45

/-- A plain 1v1: no party, at most one peer, a present partner that is
matched too. -/
def parkable (h : SimpleHub) (id : ConnId) (c : Client) : Bool :=
  c.phase = .matched && c.partyWith.isNone && c.sessionPeers.card ≤ 1
    && c.partner.any fun pid => pid ≠ id && h.phaseOf pid = some .matched

/-- Park a 1v1 when the socket dies. A hold that is already armed is kept
while it runs and never re-armed. -/
def shouldKeepWsHold (h : SimpleHub) (env : Env) (id : ConnId) :
    SimpleHub × Bool :=
  match h.get id with
  | none => (h, false)
  | some c =>
    match c.wsHoldUntil with
    | some deadline => (h, env.now < deadline)
    | none =>
        if h.parkable id c then
          (h.modify id fun c =>
            { c with wsHoldUntil := some (env.now + secs wsHoldSecs) }, true)
        else (h, false)

/-- A pending find-third invite dies with either side. -/
def dropFindThird (h : SimpleHub) (id : ConnId) : SimpleHub :=
  match h.findThirdPending with
  | some p =>
      if p.origin = id || p.target = id then
        let other := if p.origin = id then p.target else p.origin
        (h.setFindThird none).send other
          (.findThirdResult false "left")
      else h
  | none => h

/-- The party of a leaver is over; a searching mate goes idle. -/
def dissolveParty (h : SimpleHub) (leaving pid : ConnId) : SimpleHub :=
  let h := h.modify pid fun p =>
    { p with
      partyWith := none
      strangerParty := false
      friendCall := if p.friendCall = some leaving then none else p.friendCall
      phase := if p.phase = .waiting then .idle else p.phase }
  (h.send pid (.status .idle "party partner left" 0 (h.clients.keys.card - 1)
    (h.roomOf pid))).dequeueClient pid

/-- What `remove_client` does to the others when no trio leave applied. -/
def releaseOthers (h : SimpleHub) (env : Env) (id : ConnId) (c : Client) :
    SimpleHub :=
  let gone := "partner disconnected — searching again"
  let h := onSome c.friendCall h fun h fid =>
    h.endFriendCall fid "friend disconnected"
  let h := onSome c.partyWith h fun h pid => h.dissolveParty id pid
  let h := ((env.peerOrder id).run c.sessionPeers).foldl
    (fun h pid => h.unmatchOne env pid gone) h
  onSome c.partner h fun h pid =>
    if pid ∈ h.peersOf id then h else h.unmatchOne env pid gone

/-- Forget the connection and the index entry of its user. -/
def eraseClient (h : SimpleHub) (id : ConnId) : SimpleHub :=
  match h.get id with
  | some c => { h with
      clients := h.clients.del id
      byUser := h.byUser.del c.userId }
  | none => h

/-- Out of the queue, out of the federation books, out of the pending
find-third invite. -/
def withdraw (h : SimpleHub) (id : ConnId) : SimpleHub :=
  ((h.dequeueClient id).clearFedForClient id).dropFindThird id

/-- The last part of a removal, after the trio leave: `c` is the record the
leaver had before it. -/
def forgetClient (h : SimpleHub) (env : Env) (id : ConnId) (c : Client)
    (keptPair : Bool) : SimpleHub :=
  let h :=
    if keptPair then
      -- the mate is reconfigured already: clear the leaver's side only
      h.modify id fun c' =>
        { c' with
          friendCall :=
            if c'.friendCall = c.friendCall then none else c'.friendCall }
    else h.releaseOthers env id c
  (h.eraseClient id).broadcastLobbyInfo env

/-- `remove_client`: a socket closed, or a hold ran out. -/
def removeClient (h : SimpleHub) (env : Env)
    (tm : SimpleHub → Option SimpleHub) (id : ConnId) : Option SimpleHub :=
  let (h, kept) := h.shouldKeepWsHold env id
  if kept then some h
  else
    let h := h.withdraw id
    match h.get id with
    | none => some h
    | some c => do
        let (h, keptPair) ←
          h.leaveKeepRemainingPair env tm id "partner left — still chatting"
        tm (h.forgetClient env id c keptPair)

/-- A dropped socket is not a Next: the same pair may rematch at once. -/
def forgive (h : SimpleHub) (partner : Option ConnId) : SimpleHub :=
  onSome partner h fun h p => h.modify p fun c => { c with lastUnmatchAt := none }

/-- One turn of the sweep. -/
def expireHold (h : SimpleHub) (env : Env)
    (tm : SimpleHub → Option SimpleHub) (id : ConnId) : Option SimpleHub := do
  let partner := h.partnerOf id
  let h ← h.removeClient env tm id
  some (h.forgive partner)

/-- Remove the clients whose hold ran out. -/
def expireWsHolds (h : SimpleHub) (env : Env)
    (tm : SimpleHub → Option SimpleHub) : Option SimpleHub :=
  (env.mapOrder.run (h.connsWhere (Client.holdExpired env))).foldlM
    (fun h id => h.expireHold env tm id) h

end SimpleHub

end Ruletka
