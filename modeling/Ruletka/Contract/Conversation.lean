/-
What matched peers write to each other over copies of their session.

A peer writes into its own copy: it numbers what it writes, puts it at the end
and drops from the front what is too much. Copies get around by merging, over
hosts of the contract that merge them too, in any order, more than once, or
not at all. With every copy goes what its holder had heard of by then; that
decides nothing.
-/
import Ruletka.Contract.Agent
import Ruletka.Contract.Update
import Ruletka.Lib.Machine

namespace Ruletka.Contract

namespace SessionMeta

def contains (self : SessionMeta) (peer : PeerId) : Bool :=
  self.peerA = peer || self.peerB = peer

/-- The first of the pair, which is in order. -/
def webrtcOfferer (self : SessionMeta) : PeerId := self.peerA

end SessionMeta

namespace SessionState

variable (self : SessionState)

/-- A session that says whose it is takes nothing of others. -/
def refuses (author : PeerId) : Bool := self.«meta».any fun m => !m.contains author

def pushMessage (msg : ChatMessage) : SessionState :=
  if self.refuses msg.author then self
  else
    let cap := if self.maxMessages = 0 then 100 else self.maxMessages
    { self with messages := Recent.lastN cap (self.messages ++ [msg]) }

def pushSignal (sig : SignalMessage) : SessionState :=
  if self.refuses sig.author then self
  else
    let cap := if self.maxSignals = 0 then 64 else self.maxSignals
    { self with signals := Recent.lastN cap (self.signals ++ [sig]) }

end SessionState

def Agent.isWebrtcOfferer (self : Agent) : Bool :=
  self.session.«meta».any fun m => m.webrtcOfferer = self.peerId

/-- An agent with the number of what it wrote last. -/
structure Speaker where
  agent : Agent
  msgSeq : Nat

namespace Speaker

variable (self : Speaker)

def peerId : PeerId := self.agent.peerId

def session : SessionState := self.agent.session

def setSession (session : SessionState) : Speaker :=
  { self with agent := { self.agent with session := session } }

/-- `now_ms`, which the caller sets. -/
def setNow (nowMs : Nat) : Speaker := { self with agent := { self.agent with nowMs := nowMs } }

def isMatched : Bool := match self.agent.phase with
  | .matched .. => true
  | _ => false

/-- Sixty-four bits. -/
def nextSeq : Nat := (self.msgSeq + 1) % 2 ^ 64

def sendChat (body : String) : Speaker × Option ChatMessage :=
  if self.isMatched then
    let msg : ChatMessage := ⟨self.peerId, self.nextSeq, self.agent.nowMs, body⟩
    ({ self with msgSeq := self.nextSeq }.setSession (self.session.pushMessage msg), some msg)
  else (self, none)

def sendSignal (kind : SignalKind) (payload : String) : Speaker × Option SignalMessage :=
  if self.isMatched then
    let sig : SignalMessage := ⟨self.peerId, self.nextSeq, self.agent.nowMs, kind, payload⟩
    ({ self with msgSeq := self.nextSeq }.setSession (self.session.pushSignal sig), some sig)
  else (self, none)

def ingestSession (remote : SessionState) : Speaker :=
  self.setSession (self.session.merge remote)

end Speaker

-- ==================================================================== a conversation

/-- Messages and signals. -/
structure Heard where
  messages : List ChatMessage
  signals : List SignalMessage

namespace Heard

def none : Heard := ⟨[], []⟩

def append (self other : Heard) : Heard :=
  ⟨self.messages ++ other.messages, self.signals ++ other.signals⟩

def addMessage (self : Heard) (m : Option ChatMessage) : Heard :=
  { self with messages := self.messages ++ m.toList }

def addSignal (self : Heard) (s : Option SignalMessage) : Heard :=
  { self with signals := self.signals ++ s.toList }

end Heard

/-- Copies of the session put together from some that were posted. -/
inductive Collected (posted : List (SessionState × Heard)) : SessionState → Heard → Prop where
  | bootstrap : Collected posted (sessionRules .none).bootstrap .none
  | posted {s : SessionState} {h : Heard} : (s, h) ∈ posted → Collected posted s h
  | merge {s t : SessionState} {h k : Heard} : Collected posted s h → Collected posted t k →
      Collected posted (s.merge t) (h.append k)

/-- The peers, what each has heard of and all that was written, and the copies
that were posted. -/
structure Conversation (ι : Type) where
  speakers : ι → Speaker
  posted : List (SessionState × Heard)
  /-- history -/
  heard : ι → Heard
  /-- history -/
  said : Heard

inductive ConversationEvent (ι : Type) where
  | chat (i : ι) (nowMs : Nat) (body : String)
  | signal (i : ι) (nowMs : Nat) (kind : SignalKind) (payload : String)
  | post (i : ι)
  | ingest (i : ι) (session : SessionState) (heard : Heard)

namespace Conversation

variable {ι : Type} [DecidableEq ι] (w : Conversation ι)

/-- One peer moves. -/
def put (i : ι) (speaker : Speaker) (heard : Heard) : Conversation ι :=
  { w with
    speakers := Function.update w.speakers i speaker
    heard := Function.update w.heard i heard }

def step : ConversationEvent ι → Conversation ι
  | .chat i nowMs body =>
      let (speaker, m) := ((w.speakers i).setNow nowMs).sendChat body
      { w.put i speaker ((w.heard i).addMessage m) with said := w.said.addMessage m }
  | .signal i nowMs kind payload =>
      let (speaker, s) := ((w.speakers i).setNow nowMs).sendSignal kind payload
      { w.put i speaker ((w.heard i).addSignal s) with said := w.said.addSignal s }
  | .post i => { w with posted := w.posted ++ [((w.speakers i).session, w.heard i)] }
  | .ingest i session heard =>
      w.put i ((w.speakers i).ingestSession session) ((w.heard i).append heard)

/-- What is ingested was collected. -/
def Readable : ConversationEvent ι → Prop
  | .ingest _ session heard => Collected w.posted session heard
  | _ => True

/-- Numbers do not run out, and whatever is written is written later than all
that its writer has. -/
def InTime : ConversationEvent ι → Prop
  | .chat i nowMs _ =>
      let me := w.speakers i
      me.msgSeq + 1 < 2 ^ 64 ∧ ∀ m ∈ me.session.messages,
        m.rank < (⟨me.peerId, me.msgSeq + 1, nowMs, ""⟩ : ChatMessage).rank
  | .signal i nowMs _ _ =>
      let me := w.speakers i
      me.msgSeq + 1 < 2 ^ 64 ∧ ∀ s ∈ me.session.signals,
        s.rank < (⟨me.peerId, me.msgSeq + 1, nowMs, .bye, ""⟩ : SignalMessage).rank
  | _ => True

/-- Nothing has been written, and who has a meta is one of its peers. -/
structure Opens (w : Conversation ι) (session : SessionMeta) : Prop where
  peers : Function.Injective fun i => (w.speakers i).peerId
  member : ∀ i, session.contains (w.speakers i).peerId = true
  «meta» : ∀ i, ∀ m ∈ (w.speakers i).session.«meta», m = session
  caps : ∀ i, ((w.speakers i).session.maxMessages = 0 ∨ (w.speakers i).session.maxMessages = 100)
    ∧ ((w.speakers i).session.maxSignals = 0 ∨ (w.speakers i).session.maxSignals = 64)
  silent : ∀ i, (w.speakers i).session.messages = [] ∧ (w.speakers i).session.signals = []
  posted : w.posted = []
  heard : ∀ i, w.heard i = .none
  said : w.said = .none

end Conversation

/-- The conversation of a session. -/
def conversationMachine (ι : Type) [DecidableEq ι] (session : SessionMeta) :
    Machine (Conversation ι) (ConversationEvent ι) where
  start w := w.Opens session
  step w e w' := w.Readable e ∧ w' = w.step e

end Ruletka.Contract
