/-
A federation of hubs.

Any number of hubs, each with its own clients and its own events. Every tick a
hub's worker picks the first free waiter, and until the next tick it asks the
hubs on its list for a partner of that waiter. The hub asked grants its first
free waiter of the room and matches it at once; when the grant comes back, the
asking hub matches its own client if that still waits. Nothing is reserved in
between, and nothing is taken back. Signals and chat lines of a federated
client are posted to the hub of its partner.

Claims, grants and relays are in flight until they are delivered, in any order
or never. A grant carries a fresh v4 uuid. The list of a hub names other hubs,
by their normalized base urls.
-/
import Ruletka.Federation.Exchange
import Ruletka.Hub.Run
import Ruletka.Hub.Proofs.Posts

namespace Ruletka

/-- The hubs: where each is reached, and what it is configured with. -/
structure FedConfig (Hid : Type) where
  base : Hid → String
  sys : Hid → Sys
  table : CharTable
  base_injective : Function.Injective base
  base_normal : ∀ i, SimpleHub.normalizeBase (base i) = base i

variable {Hid : Type}

/-- A claim on its way, with the client it is made for. -/
structure Claim (Hid : Type) where
  asker : Hid
  client : ConnId
  target : Hid
  req : ClaimRequest
  deriving DecidableEq

/-- A claim that was granted, with the client that was given away for it. -/
structure Grant (Hid : Type) where
  claim : Claim Hid
  client : ConnId
  resp : ClaimResponse
  deriving DecidableEq

/-- A relay that a hub posts to a base url. -/
structure Posting (Hid : Type) where
  sender : Hid
  baseUrl : String
  req : RelayRequest
  deriving DecidableEq

/-- A federated match that a hub announces to its client, with the peer id that
the client has there. -/
structure Told (Hid : Type) where
  hub : Hid
  client : ConnId
  peerId : String
  msg : MatchedMsg

/-- The hubs and what is in flight between them. -/
structure FedNet (Hid : Type) where
  hub : Hid → ChatHub
  /-- whom the worker of a hub has picked: client, room, and what others are told -/
  candidate : Hid → Option (ConnId × String × FedPeerDesc)
  claims : List (Claim Hid)
  grants : List (Grant Hid)
  postings : List (Posting Hid)
  /-- history: all grants so far -/
  granted : List (Grant Hid)
  /-- history: the clients the workers picked, with the peer ids they had -/
  picked : List (Hid × ConnId × String)
  /-- history: the federated matches announced -/
  told : List (Told Hid)

/-- What happens in the federation. -/
inductive FedEvent (Hid : Type) where
  /-- an event of one hub that no other is behind -/
  | own (i : Hid) (input : Input)
  | chat (i : Hid) (env : Env) (id : ConnId) (raw : String)
  | tick (i : Hid) (env : Env)
  | ask (i target : Hid)
  | serve (claim : Claim Hid) (env : Env)
  | receive (grant : Grant Hid) (env : Env)
  | flush (i : Hid)
  | relay (posting : Posting Hid) (target : Hid)

namespace FedNet

variable [DecidableEq Hid] (F : FedConfig Hid) (p : FedNet Hid)

def simple (i : Hid) : SimpleHub := (p.hub i).dm.hub

/-- One hub changes. -/
def put (i : Hid) (s : ChatHub) : FedNet Hid :=
  { p with hub := Function.update p.hub i s }

/-- The hub behind one of the chats changes. -/
def putHub (i : Hid) (h : SimpleHub) : FedNet Hid :=
  p.put i ((p.hub i).step F.table (.other { (p.hub i).dm with hub := h }))

/-- The matches a hub announces in a step. -/
def announced (i : Hid) (h h' : SimpleHub) : List (Told Hid) :=
  (h'.posts.shown.drop h.posts.shown.length).map fun q => ⟨i, q.1, h.peerIdOf q.1, q.2⟩

/-- No grant carries the session id yet. -/
def Fresh (sid : SessionId) : Prop := ∀ g ∈ p.granted, g.resp.sessionId ≠ sid

instance (sid : SessionId) : Decidable (p.Fresh sid) :=
  inferInstanceAs (Decidable (∀ g ∈ p.granted, _))

/-- The claim of a hub's worker on another hub. -/
def claimOf (i target : Hid) : Option (Claim Hid) :=
  (p.candidate i).map fun q => ⟨i, q.1, target, ⟨q.2.1, F.base i, q.2.2⟩⟩

/-- A claim is answered. -/
def answer (c : Claim Hid) (env : Env) : Option (Grant Hid) :=
  let h := p.simple c.target
  match h.freeSoloWaiter env (normalizeRoom c.req.room), h.federationClaimAnswer env c.req with
  | some id, .ok resp => some ⟨c, id, resp⟩
  | _, _ => none

/-- What a hub has queued for others. -/
def outgoing (i : Hid) : List (Posting Hid) :=
  (p.simple i).fedOutbox.map (fun o => ⟨i, o.baseUrl, o.request⟩)
    ++ (p.hub i).fedChats.map fun c => ⟨i, c.baseUrl, c.request⟩

/-- `drain_fed_outbox`. -/
def drained (i : Hid) : ChatHub :=
  let s := p.hub i
  { s with dm := { s.dm with hub := { s.dm.hub with fedOutbox := [] } }, fedChats := [] }

/-- One step; below its own calls of `try_match`, `fuel` more may nest. -/
def step (fuel : Nat) : FedEvent Hid → Option (FedNet Hid)
  | .own i input =>
      if input.event.fromAbroad then none
      else ((p.simple i).step input.env fuel input.event).map (p.putHub F i)
  | .chat i env id raw => some (p.put i ((p.hub i).handleChat F.table env id raw))
  | .tick i env =>
      let pick := (p.simple i).pickWaitingSoloForFederation env
      some { p with
        candidate := Function.update p.candidate i pick
        picked := p.picked ++ pick.toList.map fun q => (i, q.1, (p.simple i).peerIdOf q.1) }
  | .ask i target =>
      if i = target then none
      else (p.claimOf F i target).map fun c => { p with claims := p.claims ++ [c] }
  | .serve c env =>
      if c ∈ p.claims ∧ p.Fresh env.fedSession.1 then
        let h := p.simple c.target
        let h' := h.federationClaim env c.req
        let new := (p.answer c env).toList
        some { p.putHub F c.target h' with
          claims := p.claims.erase c
          grants := p.grants ++ new
          granted := p.granted ++ new
          told := p.told ++ announced c.target h h' }
      else none
  | .receive g env =>
      if g ∈ p.grants then
        let h := p.simple g.claim.asker
        let h' := h.federationApplyClaim env g.claim.client (F.base g.claim.target) g.resp
        some { p.putHub F g.claim.asker h' with
          grants := p.grants.erase g
          told := p.told ++ announced g.claim.asker h h' }
      else none
  | .flush i =>
      some { p.put i (p.drained i) with postings := p.postings ++ p.outgoing i }
  | .relay r target =>
      if r ∈ p.postings ∧ F.base target = r.baseUrl then
        let p' := { p with postings := p.postings.erase r }
        match (p.hub target).federationRelayInbound r.req with
        | .ok s => some (p'.put target s)
        | .error _ => some p'
      else none

/-- Before the first connection. -/
structure Opens (p : FedNet Hid) : Prop where
  hub : ∀ i, p.simple i = .empty (F.sys i) ∧ (p.hub i).fedChats = []
  candidate : ∀ i, p.candidate i = none
  claims : p.claims = []
  grants : p.grants = []
  postings : p.postings = []
  granted : p.granted = []
  picked : p.picked = []
  told : p.told = []

end FedNet

/-- The federation as a machine. -/
def fedMachine [DecidableEq Hid] (F : FedConfig Hid) : Machine (FedNet Hid) (FedEvent Hid) where
  start p := p.Opens F
  step p e p' := ∃ fuel, p.step F fuel e = some p'

end Ruletka
