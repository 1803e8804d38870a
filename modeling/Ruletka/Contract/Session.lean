/-
The session of the contract: what two matched peers write to each other,
merged with the copies of other replicas.

Messages and signals are kept alike: of two with one author and number the
later one counts, they stand in the order of their times, and the oldest go
when there are too many. The serialised form keeps messages and signals
apart, and so do the states here.
-/
import Ruletka.Contract.State
import Ruletka.Lib.Recent

namespace Ruletka.Contract

/-- Who may write: the parameters of a session contract. -/
structure SessionParams where
  sessionId : SessionId
  peerA : PeerId
  peerB : PeerId
  deriving DecidableEq, Repr

def SessionParams.allows (self : SessionParams) (author : PeerId) : Bool :=
  author = self.peerA || author = self.peerB

structure SessionMeta where
  sessionId : SessionId
  peerA : PeerId
  peerB : PeerId
  createdMs : Nat
  deriving DecidableEq, Repr

structure ChatMessage where
  author : PeerId
  seq : Nat
  sentMs : Nat
  body : String
  deriving DecidableEq, Repr

inductive SignalKind where
  | offer
  | answer
  | ice
  | bye
  deriving DecidableEq, Repr

structure SignalMessage where
  author : PeerId
  seq : Nat
  sentMs : Nat
  kind : SignalKind
  payload : String
  deriving DecidableEq, Repr

structure SessionState where
  «meta» : Option SessionMeta
  messages : List ChatMessage
  signals : List SignalMessage
  maxMessages : Nat
  maxSignals : Nat
  deriving DecidableEq, Repr

-- ================================================================ keys and ranks

def ChatMessage.key (m : ChatMessage) : PeerId ×ₗ Nat := toLex (m.author, m.seq)

/-- Time, number and author, in this order. -/
def ChatMessage.rank (m : ChatMessage) : Nat ×ₗ Nat ×ₗ PeerId :=
  toLex (m.sentMs, toLex (m.seq, m.author))

def SignalMessage.key (s : SignalMessage) : PeerId ×ₗ Nat := toLex (s.author, s.seq)

def SignalMessage.rank (s : SignalMessage) : Nat ×ₗ Nat ×ₗ PeerId :=
  toLex (s.sentMs, toLex (s.seq, s.author))

-- ========================================================================= merge

namespace SessionState

/-- `SessionState::default`. -/
def default : SessionState := ⟨none, [], [], 0, 0⟩

/-- Of two sessions the one with the lower id, else the left. -/
def mergeMeta : Option SessionMeta → Option SessionMeta → Option SessionMeta
  | some a, some b =>
      if a.sessionId = b.sessionId then some a
      else if a.sessionId ≤ b.sessionId then some a else some b
  | some a, none => some a
  | none, b => b

def merge (self other : SessionState) : SessionState :=
  let maxMessages := max (max self.maxMessages other.maxMessages) 100
  let maxSignals := max (max self.maxSignals other.maxSignals) 64
  { «meta» := mergeMeta self.«meta» other.«meta»
    messages := Recent.newest ChatMessage.key ChatMessage.rank maxMessages
      (self.messages ++ other.messages)
    signals := Recent.newest SignalMessage.key SignalMessage.rank maxSignals
      (self.signals ++ other.signals)
    maxMessages := maxMessages
    maxSignals := maxSignals }

end SessionState

end Ruletka.Contract
