/-
The lobby of the contract: offers, claims and leave marks of peers, merged
with those of other replicas and swept.

Thirty-two bytes are the number they spell, most significant byte first, so
that the order of ids is the order of the arrays. What a record signs is not
looked at by any function here, but records that differ in it are different.
Timestamps and versions are only compared and subtracted down to zero.
-/
import Ruletka.Lib.Register
import Mathlib.Data.Finset.Sort
import Mathlib.Data.Prod.Lex
import Mathlib.Order.Lattice.Nat
import Mathlib.Algebra.Ring.Nat

namespace Ruletka.Contract

open Register

-- ==================================================================== the records

/-- `[u8; 32]`. -/
abbrev Bytes32 := Fin (2 ^ 256)

/-- The literals of `Bytes32` need it. -/
instance nonempty32 : NeZero (2 ^ 256 : Nat) := ⟨by decide⟩

abbrev PeerId := Bytes32

abbrev SessionId := Bytes32

structure Preferences where
  lang : Option String
  tags : List String
  wantsText : Bool
  wantsVideo : Bool
  deriving DecidableEq, Repr

structure LobbyConfig where
  maxOffers : Nat
  maxClaims : Nat
  /-- offers older than this are dead -/
  offerTtlMs : Nat
  claimTtlMs : Nat
  epochMs : Nat
  deriving DecidableEq, Repr

def LobbyConfig.default : LobbyConfig := ⟨256, 512, 15000, 20000, 15000⟩

structure WaitingOffer where
  peerId : PeerId
  verifyingKey : List UInt8
  version : Nat
  heartbeatMs : Nat
  prefs : Preferences
  sessionSeed : Bytes32
  sig : List UInt8
  deriving DecidableEq, Repr

structure Claim where
  claimId : Bytes32
  claimer : PeerId
  target : PeerId
  sessionId : SessionId
  createdMs : Nat
  sig : List UInt8
  deriving DecidableEq, Repr

structure LeaveMark where
  peerId : PeerId
  version : Nat
  leftMs : Nat
  sig : List UInt8
  deriving DecidableEq, Repr

namespace WaitingOffer

/-- Higher version, then newer heartbeat, then higher peer id. -/
def beats (self other : WaitingOffer) : Bool :=
  match compare self.version other.version with
  | .gt => true
  | .lt => false
  | .eq => match compare self.heartbeatMs other.heartbeatMs with
    | .gt => true
    | .lt => false
    | .eq => other.peerId < self.peerId

end WaitingOffer

namespace LeaveMark

def beats (self other : LeaveMark) : Bool :=
  match compare self.version other.version with
  | .gt => true
  | .lt => false
  | .eq => other.leftMs ≤ self.leftMs

end LeaveMark

/-- The first claim under an id stays. -/
def Claim.beats (_self _other : Claim) : Bool := false

-- ====================================================================== the state

structure LobbyState where
  config : LobbyConfig
  leaves : Table PeerId LeaveMark
  offers : Table PeerId WaitingOffer
  claims : Table Bytes32 Claim

namespace LobbyConfig

def merge (self other : LobbyConfig) : LobbyConfig where
  maxOffers := min self.maxOffers other.maxOffers
  maxClaims := min self.maxClaims other.maxClaims
  offerTtlMs := max self.offerTtlMs other.offerTtlMs
  claimTtlMs := max self.claimTtlMs other.claimTtlMs
  epochMs := max self.epochMs other.epochMs

end LobbyConfig

namespace LobbyState

@[ext]
theorem ext' {s t : LobbyState} (hc : s.config = t.config) (hl : s.leaves = t.leaves)
    (ho : s.offers = t.offers) (hm : s.claims = t.claims) : s = t := by
  cases s
  cases t
  cases hc
  cases hl
  cases ho
  cases hm
  rfl

def new (config : LobbyConfig) : LobbyState := ⟨config, ∅, ∅, ∅⟩

def merge (self other : LobbyState) : LobbyState where
  config := self.config.merge other.config
  leaves := self.leaves.mergeBy LeaveMark.beats other.leaves
  offers := self.offers.mergeBy WaitingOffer.beats other.offers
  claims := self.claims.mergeBy Claim.beats other.claims

variable (s : LobbyState)

/-- The latest timestamp seen. -/
def networkNowMs : Nat :=
  max (max (s.offers.keys.sup fun k => ((s.offers.get? k).map (·.heartbeatMs)).getD 0)
      (s.claims.keys.sup fun k => ((s.claims.get? k).map (·.createdMs)).getD 0))
    (s.leaves.keys.sup fun k => ((s.leaves.get? k).map (·.leftMs)).getD 0)

def isLeft (peer : PeerId) (offerVersion : Nat) : Bool :=
  (s.leaves.get? peer).any fun m => offerVersion ≤ m.version

/-- Neither left nor too old. -/
def isLive (nowMs : Nat) (o : WaitingOffer) : Bool :=
  !s.isLeft o.peerId o.version && nowMs - o.heartbeatMs ≤ s.config.offerTtlMs

/-- The peers of the live offers. -/
def livePeers (nowMs : Nat) : Finset PeerId :=
  (s.offers.keys.filter fun k => (s.offers.get? k).any (s.isLive nowMs)).image fun k =>
    ((s.offers.get? k).map (·.peerId)).getD k

/-- Drop the offers of those who left, and the old ones. -/
def sweepOffers (nowMs : Nat) : LobbyState :=
  { s with offers := s.offers.retain fun k o =>
      !s.isLeft k o.version && nowMs - o.heartbeatMs ≤ s.config.offerTtlMs }

/-- Drop the old claims, and those without live offers of both peers. -/
def sweepClaims (nowMs : Nat) : LobbyState :=
  let live := s.livePeers nowMs
  { s with claims := s.claims.retain fun _ c =>
      nowMs - c.createdMs ≤ s.config.claimTtlMs && c.claimer ∈ live && c.target ∈ live }

/-- The values of a map in the order of its keys. -/
def valuesOf {V : Type} (t : Table Bytes32 V) : List V :=
  (t.keys.sort (· ≤ ·)).filterMap t.get?

/-- Keep the freshest offers. -/
def capOffers : LobbyState :=
  if s.config.maxOffers < s.offers.keys.card then
    let ranked := (valuesOf s.offers).mergeSort fun a b =>
      decide (toLex (b.heartbeatMs, toLex (b.version, b.peerId))
        ≤ toLex (a.heartbeatMs, toLex (a.version, a.peerId)))
    { s with offers := (ranked.take s.config.maxOffers).foldl (fun t o => t.set o.peerId o) ∅ }
  else s

/-- Keep the freshest claims. -/
def capClaims : LobbyState :=
  if s.config.maxClaims < s.claims.keys.card then
    let ranked := (valuesOf s.claims).mergeSort fun a b =>
      decide (toLex (b.createdMs, b.claimId) ≤ toLex (a.createdMs, a.claimId))
    { s with claims := (ranked.take s.config.maxClaims).foldl (fun t c => t.set c.claimId c) ∅ }
  else s

def cleanup : LobbyState :=
  let nowMs := s.networkNowMs
  (((s.sweepOffers nowMs).sweepClaims nowMs).capOffers).capClaims

/-- The step of `update_state` for one patch. -/
def update (patch : LobbyState) : LobbyState := (s.merge patch).cleanup

-- ======================================================================== deltas

def upsertOffer (offer : WaitingOffer) : LobbyState :=
  match s.offers.get? offer.peerId with
  | some existing =>
      if offer.beats existing then { s with offers := s.offers.set offer.peerId offer } else s
  | none => { s with offers := s.offers.set offer.peerId offer }

def insertClaim (claim : Claim) : LobbyState :=
  match s.claims.get? claim.claimId with
  | some _ => s
  | none => { s with claims := s.claims.set claim.claimId claim }

def upsertLeave (leave : LeaveMark) : LobbyState :=
  match s.leaves.get? leave.peerId with
  | some existing =>
      if leave.beats existing then { s with leaves := s.leaves.set leave.peerId leave } else s
  | none => { s with leaves := s.leaves.set leave.peerId leave }

end LobbyState

-- ===================================================================== summaries

/-- What a replica tells of its state. -/
structure LobbySummary where
  offerVersions : List (PeerId × Nat × Nat)
  claimIds : List Bytes32
  leaveVersions : List (PeerId × Nat)
  deriving DecidableEq, Repr

/-- Of every value of a map, in the order of the keys, what `f` takes. -/
def entriesOf {V W : Type} (f : V → W) (t : Table Bytes32 V) : List (Bytes32 × W) :=
  (t.keys.sort (· ≤ ·)).filterMap fun k => (t.get? k).map fun v => (k, f v)

namespace LobbyState

variable (s : LobbyState)

def summarize : LobbySummary where
  offerVersions := entriesOf (fun o => (o.version, o.heartbeatMs)) s.offers
  claimIds := s.claims.keys.sort (· ≤ ·)
  leaveVersions := entriesOf (·.version) s.leaves

/-- The whole state if anything differs. -/
def deltaFromSummary (summary : LobbySummary) : LobbyState :=
  if s.summarize = summary then .new s.config else s

end LobbyState

/-- A partial update. -/
structure LobbyDelta where
  offers : List WaitingOffer
  claims : List Claim
  leaves : List LeaveMark

/-- The patch of a delta. -/
def LobbyDelta.patch (delta : LobbyDelta) (config : LobbyConfig) : LobbyState :=
  delta.leaves.foldl LobbyState.upsertLeave
    (delta.claims.foldl LobbyState.insertClaim
      (delta.offers.foldl LobbyState.upsertOffer (.new config)))

def LobbyState.applyDelta (s : LobbyState) (delta : LobbyDelta) : LobbyState :=
  s.update (delta.patch s.config)

end Ruletka.Contract
