/-
An agent: it spins into the lobby, ticks there until it is matched, and
moves on.

A tick reads one state of the lobby and answers with a delta. It renews the
agent's offer, claims the partner that its and the other's selection agree
on, and looks for claims of both sides that name one session. What it posts
it does not see before the next tick.
-/
import Ruletka.Contract.Identity
import Ruletka.Contract.Session

namespace Ruletka.Contract

-- ==================================================================== what agents share

/-- `str::eq_ignore_ascii_case`. -/
def eqIgnoreAsciiCase (a b : String) : Bool := a.map Char.toLower = b.map Char.toLower

/-- Media overlap, and languages and tags do where both name some. -/
def Preferences.compatibleWith (self other : Preferences) : Bool :=
  let mediaOk := self.wantsText && other.wantsText || self.wantsVideo && other.wantsVideo
  let langOk := match self.lang, other.lang with
    | some a, some b => eqIgnoreAsciiCase a b
    | _, _ => true
  mediaOk && langOk
    && (self.tags = [] || other.tags = []
      || self.tags.any fun t => other.tags.any fun u => eqIgnoreAsciiCase t u)

namespace Ed25519

variable (ed : Ed25519)

/-- `SessionId::derive`. -/
def derive (a b : PeerId) (seedA seedB : Bytes32) : SessionId :=
  let (p₁, s₁, p₂, s₂) := if a ≤ b then (a, seedA, b, seedB) else (b, seedB, a, seedA)
  ed.sha256 (text "session/v1" ++ Bytes32.bytes p₁ ++ Bytes32.bytes p₂ ++ Bytes32.bytes s₁
    ++ Bytes32.bytes s₂)

/-- `SessionMeta::new`. -/
def newMeta (a b : PeerId) (seedA seedB : Bytes32) (createdMs : Nat) : SessionMeta where
  sessionId := ed.derive a b seedA seedB
  peerA := if a ≤ b then a else b
  peerB := if a ≤ b then b else a
  createdMs := createdMs

/-- `session_for_pair`. -/
def sessionForPair (a b : WaitingOffer) : SessionId :=
  ed.derive a.peerId b.peerId a.sessionSeed b.sessionSeed

/-- Lower is better. -/
def pairScore (p q : PeerId) (epoch : Nat) : Bytes32 :=
  let (a, b) := if p ≤ q then (p, q) else (q, p)
  ed.sha256 (text "match/v1" ++ Bytes32.bytes a ++ Bytes32.bytes b ++ leBytes epoch)

/-- One turn of the loop of `select_partner`. -/
def better (me : PeerId) (myOffer : WaitingOffer) (epoch : Nat) (alreadyMatched : List PeerId)
    (best : Option (PeerId × Bytes32)) (other : WaitingOffer) : Option (PeerId × Bytes32) :=
  if other.peerId = me then best
  else if other.peerId ∈ alreadyMatched then best
  else if !myOffer.prefs.compatibleWith other.prefs then best
  else
    let score := ed.pairScore me other.peerId epoch
    match best with
    | none => some (other.peerId, score)
    | some (bestId, bestScore) =>
        if score < bestScore then some (other.peerId, score)
        else if score = bestScore ∧ other.peerId < bestId then some (other.peerId, score)
        else best

def selectPartner (me : PeerId) (myOffer : WaitingOffer) (live : List WaitingOffer) (epoch : Nat)
    (alreadyMatched : List PeerId) : Option PeerId :=
  (live.foldl (ed.better me myOffer epoch alreadyMatched) none).map (·.1)

def wouldSelectEachOther (a b : WaitingOffer) (live : List WaitingOffer) (epoch : Nat)
    (alreadyMatched : List PeerId) : Bool :=
  ed.selectPartner a.peerId a live epoch alreadyMatched = some b.peerId
    && ed.selectPartner b.peerId b live epoch alreadyMatched = some a.peerId

end Ed25519

/-- What a tick reads of a lobby, both maps in the order of their keys. -/
structure LobbyView where
  networkNowMs : Nat
  epochMs : Nat
  liveOffers : Nat → List WaitingOffer
  claims : List Claim
  offer : PeerId → Option WaitingOffer

/-- The view of a lobby, given how a map is listed. -/
def LobbyState.viewBy (values : ∀ {V : Type}, Table Bytes32 V → List V) (s : LobbyState) :
    LobbyView where
  networkNowMs := s.networkNowMs
  epochMs := s.config.epochMs
  liveOffers nowMs := (values s.offers).filter (s.isLive nowMs)
  claims := values s.claims
  offer := s.offers.get?

def LobbyState.view (s : LobbyState) : LobbyView := s.viewBy valuesOf

namespace LobbyView

variable (s : LobbyView)

/-- The claims of one peer on another. -/
def claimsOn (a b : PeerId) : List Claim := s.claims.filter fun c => c.claimer = a && c.target = b

/-- The session that claims of both agree on. -/
def mutualMatch (a b : PeerId) : Option SessionId :=
  (s.claimsOn a b).findSome? fun ca => (s.claimsOn b a).findSome? fun cb =>
    if ca.sessionId = cb.sessionId then some ca.sessionId else none

def matchedPeers : List PeerId :=
  s.claims.flatMap fun c =>
    if (s.mutualMatch c.claimer c.target).isSome then [c.claimer, c.target] else []

end LobbyView

-- ========================================================================= identities

/-- A key pair and the peer of the key. -/
structure Identity where
  verifyingKey : Bytes
  peerId : PeerId
  sign : Bytes → Bytes

namespace Identity

variable (self : Identity)

def makeOffer (version heartbeatMs : Nat) (prefs : Preferences) (sessionSeed : Bytes32) :
    WaitingOffer :=
  let offer : WaitingOffer :=
    ⟨self.peerId, self.verifyingKey, version, heartbeatMs, prefs, sessionSeed,
      List.replicate 64 0⟩
  { offer with sig := self.sign (domainOffer ++ offer.signingBody) }

def makeClaim (ed : Ed25519) (target : PeerId) (sessionId : SessionId) (createdMs : Nat) : Claim :=
  let claim : Claim := ⟨0, self.peerId, target, sessionId, createdMs, List.replicate 64 0⟩
  { claim with
    sig := self.sign (domainClaim ++ claim.signingBody)
    claimId := ed.computeId claim.claimer claim.target claim.sessionId claim.createdMs }

def makeLeave (version leftMs : Nat) : LeaveMark :=
  let leave : LeaveMark := ⟨self.peerId, version, leftMs, List.replicate 64 0⟩
  { leave with sig := self.sign (domainLeave ++ leave.signingBody) }

end Identity

-- ============================================================================= agents

inductive AgentPhase where
  | idle
  | waiting
  | claiming (target : PeerId) (sessionId : SessionId)
  | matched (partner : PeerId) (sessionId : SessionId)
  deriving DecidableEq, Repr

structure Agent where
  identity : Identity
  prefs : Preferences
  phase : AgentPhase
  version : Nat
  sessionSeed : Bytes32
  session : SessionState
  nowMs : Nat

/-- Versions saturate. -/
def nextVersion (v : Nat) : Nat := if v < 2 ^ 64 - 1 then v + 1 else v

namespace Agent

variable (self : Agent)

def peerId : PeerId := self.identity.peerId

def currentOffer : WaitingOffer :=
  self.identity.makeOffer self.version self.nowMs self.prefs self.sessionSeed

/-- Enter the lobby with a fresh seed. -/
def spin (nowMs : Nat) (seed : Bytes32) : Agent × LobbyDelta :=
  let self : Agent :=
    { self with
      nowMs := nowMs
      version := nextVersion self.version
      sessionSeed := seed
      session := { SessionState.default with maxMessages := 100, maxSignals := 64 }
      phase := .waiting }
  (self, ⟨[self.currentOffer], [], []⟩)

/-- The live offers as the agent sees them, with its own just renewed. -/
def liveOwned (offer : WaitingOffer) (live : List WaitingOffer) : List WaitingOffer :=
  if live.any fun o => o.peerId = self.peerId then
    live.map fun o => if o.peerId = self.peerId then offer else o
  else live ++ [offer]

variable (ed : Ed25519)

/-- The meta comes from the offers in the lobby when both are there. -/
def matchMeta (partner : PeerId) (sid : SessionId) (lobby : LobbyView) : SessionMeta :=
  match lobby.offer self.peerId, lobby.offer partner with
  | some a, some b => ed.newMeta a.peerId b.peerId a.sessionSeed b.sessionSeed self.nowMs
  | _, _ =>
      { sessionId := sid
        peerA := if self.peerId ≤ partner then self.peerId else partner
        peerB := if self.peerId ≤ partner then partner else self.peerId
        createdMs := self.nowMs }

def enterMatched (partner : PeerId) (sid : SessionId) (lobby : LobbyView) (delta : LobbyDelta) :
    Agent × LobbyDelta :=
  ({ self with
      session :=
        { self.session with
          «meta» := some (self.matchMeta ed partner sid lobby), maxMessages := 100 }
      phase := .matched partner sid },
    { delta with leaves := delta.leaves ++ [self.identity.makeLeave self.version self.nowMs] })

/-- The partner whose selection and ours agree, and the session with it. -/
def choose (offer : WaitingOffer) (liveRefs : List WaitingOffer) (epoch : Nat)
    (matched : List PeerId) : Option (PeerId × SessionId) :=
  (ed.selectPartner self.peerId offer liveRefs epoch matched).bind fun partner =>
    (liveRefs.find? fun o => o.peerId = partner).bind fun their =>
      if ed.wouldSelectEachOther offer their liveRefs epoch matched then
        some (partner, ed.sessionForPair offer their)
      else none

/-- Renew the offer, and claim a partner if there is one. -/
def claimPartner (offer : WaitingOffer) (liveRefs : List WaitingOffer) (lobby : LobbyView) :
    Agent × LobbyDelta :=
  let now := max lobby.networkNowMs self.nowMs
  let epoch := now / max lobby.epochMs 1
  match self.choose ed offer liveRefs epoch lobby.matchedPeers with
  | some (partner, sid) =>
      ({ self with phase := .claiming partner sid },
        ⟨[offer], [self.identity.makeClaim ed partner sid self.nowMs], []⟩)
  | none => (self, ⟨[offer], [], []⟩)

/-- The match with the peer of an offer, if both claimed each other. -/
def sought (lobby : LobbyView) (o : WaitingOffer) : Option (PeerId × SessionId) :=
  if o.peerId = self.peerId then none
  else (lobby.mutualMatch self.peerId o.peerId).map fun sid => (o.peerId, sid)

/-- Look for claims of both sides; who waits takes any peer that has them. -/
def checkMutual (liveOwned : List WaitingOffer) (lobby : LobbyView) (delta : LobbyDelta) :
    Agent × LobbyDelta :=
  match self.phase with
  | .claiming target _ =>
      match lobby.mutualMatch self.peerId target with
      | some sid => self.enterMatched ed target sid lobby delta
      | none => (self, delta)
  | .waiting =>
      match liveOwned.findSome? (self.sought lobby) with
      | some (partner, sid) => self.enterMatched ed partner sid lobby delta
      | none => (self, delta)
  | _ => (self, delta)

/-- The tick of an agent that waits or claims. -/
def renew (lobby : LobbyView) : Agent × LobbyDelta :=
  let self := { self with version := nextVersion self.version }
  let offer := self.currentOffer
  let now := max lobby.networkNowMs self.nowMs
  let live := self.liveOwned offer (lobby.liveOffers now)
  let (self, delta) := self.claimPartner ed offer live lobby
  self.checkMutual ed live lobby delta

def tick (lobby : LobbyView) (nowMs : Nat) : Agent × LobbyDelta :=
  let self := { self with nowMs := max nowMs self.nowMs }
  match self.phase with
  | .waiting | .claiming .. => self.renew ed lobby
  | .idle | .matched .. => (self, ⟨[], [], []⟩)

/-- Leave the match, and the lobby. -/
def next (nowMs : Nat) : Agent × LobbyDelta :=
  let self := { self with nowMs := nowMs }
  let leaves := if self.phase = .idle then [] else [self.identity.makeLeave self.version nowMs]
  ({ self with phase := .idle, session := .default }, ⟨[], [], leaves⟩)

end Agent

end Ruletka.Contract
