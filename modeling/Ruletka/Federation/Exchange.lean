/-
What hubs say to each other.

A hub offers its first free waiter, answers a claim with the waiter it gives
away, and takes what another hub relays to the connection that is in the
session named. The claim and its answer leave the federation's own names of
the hubs out; the token that guards the routes is checked before these calls.
-/
import Ruletka.Chat.Stranger
import Ruletka.Hub.Step

namespace Ruletka

open Text

/-- A refusal: the HTTP status and its text. -/
abbrev Refusal := Nat × String

/-- What a relay carries. -/
inductive RelayKind where
  | signal
  | chat
  deriving DecidableEq, Repr

/-- A relay from the hub of a federated partner. -/
structure RelayRequest where
  sessionId : SessionId
  kind : RelayKind
  fromPeer : String
  toPeer : String
  signalKind : String
  payload : String
  author : String
  body : String
  deriving DecidableEq, Repr

/-- The request of a signal in the outbox. -/
def FedOutbound.request (o : FedOutbound) : RelayRequest :=
  ⟨o.sessionId, .signal, o.fromPeer, o.toPeer, o.signalKind, o.payload, o.author, ""⟩

/-- The request of a chat line in the outbox. -/
def FedChat.request (c : FedChat) : RelayRequest :=
  ⟨c.sessionId, .chat, "", "", "", "", c.author, c.body⟩

namespace SimpleHub

variable (h : SimpleHub) (env : Env)

/-- What another hub is told of a client. -/
def fedPeerDesc (id : ConnId) : FedPeerDesc where
  peerId := h.peerIdOf id
  shortId := ((h.get id).map (·.shortId)).getD ""
  userId := h.userOf id

/-- `pick_waiting_solo_for_federation`: the first free waiter, its room, and
what another hub is told of it. -/
def pickWaitingSoloForFederation : Option (ConnId × String × FedPeerDesc) :=
  h.queue.findSome? fun e => match e with
    | .solo id =>
        if (h.fedByClient.get? id).isNone && h.phaseOf id = some .waiting
            && h.clientRxFresh env id && h.clientFaceOk env id
        then some (id, h.roomOf id, h.fedPeerDesc id) else none
    | _ => none

/-- `caller_is_offerer`. -/
def callerIsOfferer (callerPeerId claimedPeerId : String) : Bool :=
  decide (callerPeerId < claimedPeerId)

/-- The answer of `federation_claim`; `federationClaim` is the hub after it. -/
def federationClaimAnswer (req : ClaimRequest) : Except Refusal ClaimResponse :=
  if normalizeBase req.callerBaseUrl = "" then .error (400, "caller_base_url required")
  else if req.remotePeer.peerId = "" then .error (400, "remote_peer.peer_id required")
  else match h.freeSoloWaiter env (normalizeRoom req.room) with
    | none => .error (404, "no free solo peer")
    | some id => .ok
        { sessionId := env.fedSession.1
          sessionKey := env.fedSession.2
          claimedPeer := h.fedPeerDesc id
          callerIsOfferer := callerIsOfferer req.remotePeer.peerId (h.peerIdOf id) }

/-- Why `federation_apply_claim` refuses, if it does; `federationApplyClaim` is
the hub after it. -/
def applyClaimRefusal (id : ConnId) : Option String :=
  match h.phaseOf id with
  | none => some "local client gone"
  | some phase =>
      if phase ≠ .waiting then some "local not waiting"
      else if (h.fedByClient.get? id).isSome then some "already federated"
      else none

/-- The two halves of `federation_claim` agree: it grants a claim exactly when
it matches the first free waiter. -/
theorem federationClaimAnswer_eq_ok {req : ClaimRequest} {resp : ClaimResponse} :
    h.federationClaimAnswer env req = .ok resp ↔
      normalizeBase req.callerBaseUrl ≠ "" ∧ req.remotePeer.peerId ≠ ""
        ∧ ∃ id, h.freeSoloWaiter env (normalizeRoom req.room) = some id
          ∧ resp = ⟨env.fedSession.1, env.fedSession.2, h.fedPeerDesc id,
            callerIsOfferer req.remotePeer.peerId (h.peerIdOf id)⟩ := by
  unfold federationClaimAnswer
  split
  · next hbase => simp [hbase]
  split
  · next hpeer => simp [hpeer]
  next hbase hpeer =>
  cases h.freeSoloWaiter env (normalizeRoom req.room) with
  | none => simp
  | some id =>
      simp only [Except.ok.injEq, Option.some.injEq, ne_eq]
      constructor
      · rintro rfl
        exact ⟨hbase, hpeer, id, rfl, rfl⟩
      · rintro ⟨-, -, _, rfl, rfl⟩
        rfl

/-- The two halves of `federation_apply_claim` agree. -/
theorem applyClaimRefusal_eq_none {id : ConnId} :
    h.applyClaimRefusal id = none ↔
      h.phaseOf id = some .waiting ∧ h.fedByClient.get? id = none := by
  unfold applyClaimRefusal
  cases h.phaseOf id with
  | none => simp
  | some phase =>
      dsimp only
      split
      · next hne => simp [hne]
      split
      · next hfed => simp [Option.isSome_iff_ne_none.mp hfed]
      · next hw hfree => simpa using ⟨not_not.mp hw, Option.not_isSome_iff_eq_none.mp hfree⟩

end SimpleHub

namespace ChatHub

variable (s : ChatHub)

/-- Where a relay goes: the connection of this hub that is in its session. -/
def relayTarget (req : RelayRequest) : Except Refusal (ConnId × FedSession) :=
  match s.dm.hub.fedSessions.get? req.sessionId with
  | none => .error (404, "unknown session")
  | some sess =>
      if s.dm.hub.has sess.localClient then .ok (sess.localClient, sess)
      else .error (404, "local peer offline")

/-- Whom a relayed signal is from. -/
def relayFrom (sess : FedSession) (req : RelayRequest) : String :=
  if req.fromPeer = "" then federatedPeerId req.sessionId sess.remotePeerId else req.fromPeer

/-- The hub of a chat after a message of the hub. -/
def sendHub (id : ConnId) (m : ServerMsg) : ChatHub :=
  { s with dm := { s.dm with hub := s.dm.hub.send id m } }

/-- Hand a relay to the connection it is for. -/
def handOver (req : RelayRequest) (id : ConnId) (sess : FedSession) : ChatHub :=
  match req.kind with
  | .signal =>
      s.sendHub id (.signal req.author req.signalKind req.payload (relayFrom sess req))
  | .chat => s.say id (.chat (if req.author = "" then "peer" else req.author) req.body "")

/-- `federation_relay_inbound`. -/
def federationRelayInbound (req : RelayRequest) : Except Refusal ChatHub :=
  (s.relayTarget req).map fun t => s.handOver req t.1 t.2

/-- A relay is handed to the connection in its session, if it is still there. -/
theorem federationRelayInbound_eq_ok {req : RelayRequest} {s' : ChatHub} :
    s.federationRelayInbound req = .ok s' ↔
      ∃ sess, s.dm.hub.fedSessions.get? req.sessionId = some sess
        ∧ s.dm.hub.has sess.localClient = true ∧ s' = s.handOver req sess.localClient sess := by
  unfold federationRelayInbound relayTarget
  cases s.dm.hub.fedSessions.get? req.sessionId with
  | none => simp [Except.map]
  | some sess =>
      dsimp only
      split
      · next hhas =>
        constructor
        · intro h
          cases h
          exact ⟨sess, rfl, hhas, rfl⟩
        · rintro ⟨_, heq, -, rfl⟩
          cases heq
          rfl
      · next hgone =>
        constructor
        · intro h
          cases h
        · rintro ⟨_, heq, hhas, -⟩
          cases heq
          exact absurd hhas hgone

end ChatHub

end Ruletka
