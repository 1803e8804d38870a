/-
The merge of session states.

Metas merge like a register ranked by the session id, messages and signals
like logs of which the newest stay. Merging in again what was merged in
changes nothing. The order of two states matters exactly when their metas
tie without being equal, or two different entries with one author and number
are new enough to stay; the grouping of three does not when nothing is
dropped by an inner merge that the outer one would keep.
-/
import Ruletka.Contract.Proofs.Valid

namespace Ruletka.Contract

open Register

namespace SessionMeta

/-- The lower session id wins, the left one on a tie. -/
def beats (self other : SessionMeta) : Bool := self.sessionId < other.sessionId

theorem follows :
    Follows beats (fun m : SessionMeta => OrderDual.toDual m.sessionId) false where
  beats_iff v e := by simp [beats]

end SessionMeta

namespace SessionState

theorem mergeMeta_eq (x y : Option SessionMeta) :
    mergeMeta x y = pick SessionMeta.beats x y := by
  cases x with
  | none =>
      rw [pick_none_left]
      cases y with
      | none => rfl
      | some b => rfl
  | some a =>
      cases y with
      | none => rfl
      | some b =>
          change (if a.sessionId = b.sessionId then some a
              else if a.sessionId ≤ b.sessionId then some a else some b)
            = if b.beats a then some b else some a
          rcases lt_trichotomy a.sessionId b.sessionId with h | h | h
          · rw [if_neg h.ne, if_pos h.le, if_neg (by simpa [SessionMeta.beats] using h.le)]
          · rw [if_pos h, if_neg (by simp [SessionMeta.beats, h])]
          · rw [if_neg h.ne', if_neg (by simpa using h),
              if_pos (by simpa [SessionMeta.beats] using h)]

-- ========================================================================== caps

/-- What two caps merge to. -/
def cap (least : Nat) (m n : Nat) : Nat := max (max m n) least

theorem cap_comm (least m n : Nat) : cap least m n = cap least n m := by
  unfold cap
  rw [max_comm m n]

theorem cap_absorb (least m n : Nat) : cap least (cap least m n) n = cap least m n := by
  unfold cap
  omega

theorem cap_assoc (least m n k : Nat) :
    cap least (cap least m n) k = cap least m (cap least n k) := by
  unfold cap
  omega

-- =========================================================================== laws

variable (a b c : SessionState)

/-- Metas of one session are equal, and where two entries with one author and
number differ, enough newer ones stand behind both. -/
structure Agrees : Prop where
  «meta» : ∀ x ∈ a.«meta», ∀ y ∈ b.«meta», x.sessionId = y.sessionId → x = y
  messages : Recent.Settled ChatMessage.key ChatMessage.rank
    (cap 100 a.maxMessages b.maxMessages) a.messages b.messages
  signals : Recent.Settled SignalMessage.key SignalMessage.rank
    (cap 64 a.maxSignals b.maxSignals) a.signals b.signals

/-- What merging two of the states drops, merging all three would drop, and it
uncovers no other entry. -/
structure Keeps : Prop where
  messages : Recent.Kept ChatMessage.key ChatMessage.rank
    (cap 100 a.maxMessages b.maxMessages) (cap 100 b.maxMessages c.maxMessages)
    (cap 100 (cap 100 a.maxMessages b.maxMessages) c.maxMessages)
    a.messages b.messages c.messages
  signals : Recent.Kept SignalMessage.key SignalMessage.rank
    (cap 64 a.maxSignals b.maxSignals) (cap 64 b.maxSignals c.maxSignals)
    (cap 64 (cap 64 a.maxSignals b.maxSignals) c.maxSignals)
    a.signals b.signals c.signals

/-- The same caps, and nowhere two different entries with one author and
number. -/
structure Consistent : Prop where
  maxMessages : a.maxMessages = b.maxMessages ∧ b.maxMessages = c.maxMessages
  maxSignals : a.maxSignals = b.maxSignals ∧ b.maxSignals = c.maxSignals
  messages : Recent.Agree ChatMessage.key a.messages b.messages
    ∧ Recent.Agree ChatMessage.key a.messages c.messages
    ∧ Recent.Agree ChatMessage.key b.messages c.messages
  signals : Recent.Agree SignalMessage.key a.signals b.signals
    ∧ Recent.Agree SignalMessage.key a.signals c.signals
    ∧ Recent.Agree SignalMessage.key b.signals c.signals

variable {a b c}

theorem Consistent.keeps (h : Consistent a b c) : Keeps a b c where
  messages := by
    obtain ⟨hab, hbc⟩ := h.maxMessages
    obtain ⟨h₁, h₂, h₃⟩ := h.messages
    rw [hab, hbc, cap_absorb]
    exact Recent.kept_of_agree h₁ h₂ h₃
  signals := by
    obtain ⟨hab, hbc⟩ := h.maxSignals
    obtain ⟨h₁, h₂, h₃⟩ := h.signals
    rw [hab, hbc, cap_absorb]
    exact Recent.kept_of_agree h₁ h₂ h₃

theorem merge_comm_iff : a.merge b = b.merge a ↔ Agrees a b := by
  have hmeta : mergeMeta a.«meta» b.«meta» = mergeMeta b.«meta» a.«meta»
      ↔ ∀ x ∈ a.«meta», ∀ y ∈ b.«meta», x.sessionId = y.sessionId → x = y := by
    rw [mergeMeta_eq, mergeMeta_eq, pick_comm_iff SessionMeta.follows]
    exact Iff.rfl
  unfold merge
  rw [SessionState.mk.injEq, hmeta]
  constructor
  · rintro ⟨hm, hmsg, hsig, -, -⟩
    refine ⟨hm, (Recent.newest_comm_iff ChatMessage.separates _ _ _).mp ?_,
      (Recent.newest_comm_iff SignalMessage.separates _ _ _).mp ?_⟩
    · refine hmsg.trans ?_
      rw [max_comm b.maxMessages a.maxMessages]
      rfl
    · refine hsig.trans ?_
      rw [max_comm b.maxSignals a.maxSignals]
      rfl
  · rintro ⟨hm, hmsg, hsig⟩
    refine ⟨hm, ?_, ?_, cap_comm _ _ _, cap_comm _ _ _⟩
    · rw [max_comm b.maxMessages a.maxMessages]
      exact (Recent.newest_comm_iff ChatMessage.separates _ _ _).mpr hmsg
    · rw [max_comm b.maxSignals a.maxSignals]
      exact (Recent.newest_comm_iff SignalMessage.separates _ _ _).mpr hsig

theorem merge_absorb : (a.merge b).merge b = a.merge b := by
  have hcap := cap_absorb 100 a.maxMessages b.maxMessages
  have hcap' := cap_absorb 64 a.maxSignals b.maxSignals
  unfold cap at hcap hcap'
  unfold merge
  simp only [hcap, hcap', SessionState.mk.injEq, and_true]
  refine ⟨?_, Recent.newest_absorb ChatMessage.separates _ _ _,
    Recent.newest_absorb SignalMessage.separates _ _ _⟩
  rw [mergeMeta_eq, mergeMeta_eq, pick_assoc SessionMeta.follows, pick_self]

theorem merge_assoc_of_keeps (h : Keeps a b c) : (a.merge b).merge c = a.merge (b.merge c) := by
  have hcap := cap_assoc 100 a.maxMessages b.maxMessages c.maxMessages
  have hcap' := cap_assoc 64 a.maxSignals b.maxSignals c.maxSignals
  have hmsg := h.messages.newest_assoc ChatMessage.separates
  have hsig := h.signals.newest_assoc SignalMessage.separates
  unfold cap at hcap hcap' hmsg hsig
  unfold merge
  simp only [← hcap, ← hcap', SessionState.mk.injEq, and_true]
  refine ⟨?_, hmsg, hsig⟩
  rw [mergeMeta_eq, mergeMeta_eq, mergeMeta_eq, mergeMeta_eq, pick_assoc SessionMeta.follows]

/-- **Convergence**: two states merge alike in both orders exactly when they
agree; merging one in twice never matters; and three states merge alike in
both groupings when nothing is lost in between, as when they are
consistent. -/
theorem session_merge_laws (a b c : SessionState) :
    (a.merge b = b.merge a ↔ Agrees a b) ∧ (a.merge b).merge b = a.merge b
      ∧ (Keeps a b c → (a.merge b).merge c = a.merge (b.merge c))
      ∧ (Consistent a b c → Keeps a b c) :=
  ⟨merge_comm_iff, merge_absorb, merge_assoc_of_keeps, Consistent.keeps⟩

-- ===================================================================== conflicts

/-- A session of the peers 1 and 2 that one of them wrote one message in. -/
def saying (createdMs : Nat) (body : String) : SessionState :=
  ⟨some ⟨9, 1, 2, createdMs⟩, [⟨1, 1, 10, body⟩], [], 100, 64⟩

/-- Replicas that got two messages under one number in different orders keep
different ones, and so do those that disagree on when the session began. -/
theorem saying_conflict :
    (saying 0 "hi").merge (saying 0 "yo") ≠ (saying 0 "yo").merge (saying 0 "hi")
      ∧ (saying 0 "hi").merge (saying 1 "hi") ≠ (saying 1 "hi").merge (saying 0 "hi") := by
  constructor
  · intro h
    have hsettled := (merge_comm_iff.mp h).messages
    have hfew := (hsettled (toLex (1, 1)) ⟨1, 1, 10, "hi"⟩ rfl ⟨1, 1, 10, "yo"⟩ rfl
      (by decide)).1
    have hlen := hfew.trans Recent.newer_le_length
    revert hlen
    decide
  · intro h
    have hmeta := congrArg SessionState.«meta» h
    revert hmeta
    decide

end SessionState

end Ruletka.Contract
