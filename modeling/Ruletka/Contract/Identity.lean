/-
What the records of a lobby sign, and when a signature counts.

The signature scheme is the library's: which bytes are a key, and which
signature of which text a key made. The peer of a key is the hash of the key.
-/
import Ruletka.Contract.State

namespace Ruletka.Contract

abbrev Bytes := List UInt8

/-- The library's verification of signatures, and its hash. -/
structure Ed25519 where
  /-- `Sha256` over the parts one after the other -/
  sha256 : Bytes → Bytes32
  isKey : Bytes → Bool
  verify : Bytes → Bytes → Bytes → Bool

/-- Little-endian, eight bytes. -/
def leBytes (n : Nat) : Bytes := (List.range 8).map fun i => UInt8.ofNat (n / 256 ^ i)

/-- Thirty-two bytes, the most significant first. -/
def Bytes32.bytes (b : Bytes32) : Bytes :=
  (List.range 32).map fun i => UInt8.ofNat (b.val / 256 ^ (31 - i))

def text (s : String) : Bytes := s.toUTF8.data.toList

def domainOffer : Bytes := text "freenet-roulette/offer/v1"
def domainClaim : Bytes := text "freenet-roulette/claim/v1"
def domainLeave : Bytes := text "freenet-roulette/leave/v1"

-- ============================================================== what is signed

def WaitingOffer.signingBody (o : WaitingOffer) : Bytes :=
  Bytes32.bytes o.peerId ++ o.verifyingKey ++ leBytes o.version ++ leBytes o.heartbeatMs
    ++ Bytes32.bytes o.sessionSeed
    ++ [if o.prefs.wantsText then 1 else 0, if o.prefs.wantsVideo then 1 else 0]
    ++ (o.prefs.lang.map text).getD []
    ++ o.prefs.tags.flatMap fun t => 0xff :: text t

def Claim.signingBody (c : Claim) : Bytes :=
  Bytes32.bytes c.claimer ++ Bytes32.bytes c.target ++ Bytes32.bytes c.sessionId
    ++ leBytes c.createdMs

def LeaveMark.signingBody (m : LeaveMark) : Bytes :=
  Bytes32.bytes m.peerId ++ leBytes m.version ++ leBytes m.leftMs

namespace Ed25519

variable (ed : Ed25519)

/-- `PeerId::from_key_bytes`. -/
def peerOf (key : Bytes) : PeerId := ed.sha256 (text "freenet-roulette/peer-id/v1" ++ key)

/-- `Claim::compute_id`. -/
def computeId (claimer target : PeerId) (sessionId : SessionId) (createdMs : Nat) : Bytes32 :=
  ed.sha256 (text "claim/v1" ++ Bytes32.bytes claimer ++ Bytes32.bytes target
    ++ Bytes32.bytes sessionId ++ leBytes createdMs)

-- =============================================================== verification

def verifyDomain (key domain body sig : Bytes) : Bool :=
  sig.length = 64 && ed.verify key (domain ++ body) sig

def verifyOffer (offer : WaitingOffer) : Bool :=
  offer.verifyingKey.length = 32 && ed.isKey offer.verifyingKey
    && ed.peerOf offer.verifyingKey = offer.peerId
    && ed.verifyDomain offer.verifyingKey domainOffer offer.signingBody offer.sig

def verifyClaim (claim : Claim) (key : Bytes) : Bool :=
  ed.peerOf key = claim.claimer
    && ed.verifyDomain key domainClaim claim.signingBody claim.sig

def verifyLeave (leave : LeaveMark) (key : Bytes) : Bool :=
  ed.peerOf key = leave.peerId
    && ed.verifyDomain key domainLeave leave.signingBody leave.sig

end Ed25519

end Ruletka.Contract
