/-
What the copies of a session hold.

Every copy holds the newest hundred messages and the newest sixty-four signals
of what its holder has heard of (`Copy`), so two that have heard of the same
hold the same, in the same order. The numbers keep what is written apart; that
whoever writes has a clock ahead of what it has keeps its own words from being
the first to go.
-/
import Ruletka.Contract.Conversation
import Ruletka.Contract.Proofs.Thread
import Ruletka.Lib.Replica

namespace Ruletka.Contract

open Recent

-- =========================================================================== copies

theorem SessionState.mem_mergeMeta {x y : Option SessionMeta} {m : SessionMeta}
    (hm : m ∈ mergeMeta x y) : m ∈ x ∨ m ∈ y := by
  cases x with
  | none => exact .inr hm
  | some a =>
      cases y with
      | none => exact .inl hm
      | some b =>
          dsimp only [mergeMeta] at hm
          split at hm
          · exact .inl hm
          split at hm
          · exact .inl hm
          · exact .inr hm

/-- A copy of a session whose holder has heard of some of what was said. -/
structure Copy (session : SessionMeta) (said : Heard) (s : SessionState) (h : Heard) : Prop where
  «meta» : ∀ m ∈ s.«meta», m = session
  maxMessages : s.maxMessages = 0 ∨ s.maxMessages = 100
  maxSignals : s.maxSignals = 0 ∨ s.maxSignals = 64
  messages : Tracks ChatMessage.key ChatMessage.rank 100 said.messages h.messages s.messages
  signals : Tracks SignalMessage.key SignalMessage.rank 64 said.signals h.signals s.signals

/-- Nobody wrote two things under one number. -/
structure Heard.Numbered (said : Heard) : Prop where
  messages : Unrivalled ChatMessage.key said.messages
  signals : Unrivalled SignalMessage.key said.signals

namespace Copy

variable {session : SessionMeta} {said : Heard} {s t : SessionState} {h k : Heard}

theorem silent (hmeta : ∀ m ∈ s.«meta», m = session)
    (hcaps : (s.maxMessages = 0 ∨ s.maxMessages = 100) ∧ (s.maxSignals = 0 ∨ s.maxSignals = 64))
    (hsilent : s.messages = [] ∧ s.signals = []) : Copy session said s .none where
  «meta» := hmeta
  maxMessages := hcaps.1
  maxSignals := hcaps.2
  messages := by
    rw [hsilent.1]
    exact .nil ChatMessage.separates (by decide) _
  signals := by
    rw [hsilent.2]
    exact .nil SignalMessage.separates (by decide) _

theorem bootstrap : Copy session said (sessionRules none).bootstrap .none :=
  silent (fun _ hm => absurd hm (Option.not_mem_none _)) ⟨.inr rfl, .inl rfl⟩ ⟨rfl, rfl⟩

theorem grow (hc : Copy session said s h) {said' : Heard}
    (hmessages : said.messages ⊆ said'.messages) (hsignals : said.signals ⊆ said'.signals) :
    Copy session said' s h :=
  { hc with
    messages := hc.messages.grow hmessages
    signals := hc.signals.grow hsignals }

theorem merge (hn : said.Numbered) (hs : Copy session said s h) (ht : Copy session said t k) :
    Copy session said (s.merge t) (h.append k) where
  «meta» m hm := (SessionState.mem_mergeMeta hm).elim (hs.«meta» m) (ht.«meta» m)
  maxMessages := by
    have hs := hs.maxMessages
    have ht := ht.maxMessages
    unfold SessionState.merge
    dsimp only
    omega
  maxSignals := by
    have hs := hs.maxSignals
    have ht := ht.maxSignals
    unfold SessionState.merge
    dsimp only
    omega
  messages := by
    have hcap : max (max s.maxMessages t.maxMessages) 100 = 100 := by
      have hs := hs.maxMessages
      have ht := ht.maxMessages
      omega
    unfold SessionState.merge
    dsimp only
    rw [hcap]
    exact hs.messages.join ChatMessage.separates hn.messages ht.messages
  signals := by
    have hcap : max (max s.maxSignals t.maxSignals) 64 = 64 := by
      have hs := hs.maxSignals
      have ht := ht.maxSignals
      omega
    unfold SessionState.merge
    dsimp only
    rw [hcap]
    exact hs.signals.join SignalMessage.separates hn.signals ht.signals

theorem of_collected {posted : List (SessionState × Heard)} (hn : said.Numbered)
    (hposted : ∀ q ∈ posted, Copy session said q.1 q.2) (hs : Collected posted s h) :
    Copy session said s h := by
  induction hs with
  | bootstrap => exact .bootstrap
  | posted hq => exact hposted _ hq
  | merge _ _ ih ih' => exact ih.merge hn ih'

/-- Who is one of the peers is not refused. -/
theorem takes (hc : Copy session said s h) {author : PeerId}
    (hmember : session.contains author = true) : s.refuses author = false := by
  unfold SessionState.refuses
  cases hm : s.«meta» with
  | none => rfl
  | some m =>
      rw [hc.«meta» m hm]
      simp [hmember]

theorem pushMessage (hn : said.Numbered) (hc : Copy session said s h) {m : ChatMessage}
    (hmember : session.contains m.author = true) (hkey : ∀ m' ∈ said.messages, m'.key ≠ m.key)
    (hlast : ∀ m' ∈ s.messages, m'.rank < m.rank) :
    Copy session (said.addMessage (some m)) (s.pushMessage m) (h.addMessage (some m)) := by
  have hcap : (if s.maxMessages = 0 then 100 else s.maxMessages) = 100 := by
    rcases hc.maxMessages with h | h <;> simp [h]
  unfold SessionState.pushMessage
  rw [hc.takes hmember, if_neg Bool.false_ne_true]
  dsimp only
  rw [hcap]
  exact { hc with messages := hc.messages.push ChatMessage.separates hn.messages hkey hlast }

theorem pushSignal (hn : said.Numbered) (hc : Copy session said s h) {m : SignalMessage}
    (hmember : session.contains m.author = true) (hkey : ∀ m' ∈ said.signals, m'.key ≠ m.key)
    (hlast : ∀ m' ∈ s.signals, m'.rank < m.rank) :
    Copy session (said.addSignal (some m)) (s.pushSignal m) (h.addSignal (some m)) := by
  have hcap : (if s.maxSignals = 0 then 64 else s.maxSignals) = 64 := by
    rcases hc.maxSignals with h | h <;> simp [h]
  unfold SessionState.pushSignal
  rw [hc.takes hmember, if_neg Bool.false_ne_true]
  dsimp only
  rw [hcap]
  exact { hc with signals := hc.signals.push SignalMessage.separates hn.signals hkey hlast }

/-- Copies whose holders have heard of the same hold the same. -/
theorem same (hn : said.Numbered) (hs : Copy session said s h) (ht : Copy session said t k)
    (hmessages : ∀ m, m ∈ h.messages ↔ m ∈ k.messages)
    (hsignals : ∀ m, m ∈ h.signals ↔ m ∈ k.signals) :
    s.messages = t.messages ∧ s.signals = t.signals :=
  ⟨hs.messages.eq_of_mem_iff ChatMessage.separates hn.messages ht.messages hmessages,
    hs.signals.eq_of_mem_iff SignalMessage.separates hn.signals ht.signals hsignals⟩

end Copy

-- ================================================================== a conversation

namespace Conversation

variable {ι : Type} {session : SessionMeta} {w : Conversation ι}

/-- Every copy is one of what its holder has heard of, and no number is used
again. -/
structure InConcert (session : SessionMeta) (w : Conversation ι) : Prop where
  peers : Function.Injective fun i => (w.speakers i).peerId
  member : ∀ i, session.contains (w.speakers i).peerId = true
  numbered : w.said.Numbered
  own : ∀ i, Copy session w.said (w.speakers i).session (w.heard i)
  posted : ∀ q ∈ w.posted, Copy session w.said q.1 q.2
  messages : ∀ i, ∀ m ∈ w.said.messages, m.author = (w.speakers i).peerId →
    m.seq ≤ (w.speakers i).msgSeq
  signals : ∀ i, ∀ m ∈ w.said.signals, m.author = (w.speakers i).peerId →
    m.seq ≤ (w.speakers i).msgSeq

theorem InConcert.opens (h : w.Opens session) : w.InConcert session where
  peers := h.peers
  member := h.member
  numbered := by
    rw [h.said]
    exact ⟨.nil, .nil⟩
  own i := by
    rw [h.heard i]
    exact .silent (h.«meta» i) (h.caps i) (h.silent i)
  posted q hq := by
    rw [h.posted] at hq
    cases hq
  messages i m hm := by
    rw [h.said] at hm
    cases hm
  signals i m hm := by
    rw [h.said] at hm
    cases hm

/-- A number that is next is not used yet. -/
theorem InConcert.chat_new (hw : w.InConcert session) {i : ι} {m : ChatMessage}
    (hm : m.author = (w.speakers i).peerId) (hseq : m.seq = (w.speakers i).msgSeq + 1) :
    ∀ m' ∈ w.said.messages, m'.key ≠ m.key := by
  intro m' hm' heq
  obtain ⟨hauthor, hnumber⟩ := Prod.mk.inj (toLex.injective heq)
  have hle := hw.messages i m' hm' (hauthor.trans hm)
  omega

theorem InConcert.signal_new (hw : w.InConcert session) {i : ι} {m : SignalMessage}
    (hm : m.author = (w.speakers i).peerId) (hseq : m.seq = (w.speakers i).msgSeq + 1) :
    ∀ m' ∈ w.said.signals, m'.key ≠ m.key := by
  intro m' hm' heq
  obtain ⟨hauthor, hnumber⟩ := Prod.mk.inj (toLex.injective heq)
  have hle := hw.signals i m' hm' (hauthor.trans hm)
  omega

variable [DecidableEq ι]

/-- One peer changes its copy, perhaps with something new in it. -/
theorem InConcert.put (hw : w.InConcert session) {i : ι} {me : Speaker} {h said : Heard}
    (hpeer : me.peerId = (w.speakers i).peerId) (hseq : (w.speakers i).msgSeq ≤ me.msgSeq)
    (hown : Copy session said me.session h) (hn : said.Numbered)
    (hmessages : w.said.messages ⊆ said.messages) (hsignals : w.said.signals ⊆ said.signals)
    (hmessage : ∀ m ∈ said.messages, m ∉ w.said.messages →
      m.author = me.peerId ∧ m.seq ≤ me.msgSeq)
    (hsignal : ∀ m ∈ said.signals, m ∉ w.said.signals →
      m.author = me.peerId ∧ m.seq ≤ me.msgSeq) :
    ({ w.put i me h with said := said } : Conversation ι).InConcert session := by
  have hpeers : ∀ j, ((w.put i me h).speakers j).peerId = (w.speakers j).peerId := by
    intro j
    unfold Conversation.put
    dsimp only
    by_cases hj : j = i
    · rw [hj, Function.update_self, hpeer]
    · rw [Function.update_of_ne hj]
  have hseqs : ∀ j, (w.speakers j).msgSeq ≤ ((w.put i me h).speakers j).msgSeq := by
    intro j
    unfold Conversation.put
    dsimp only
    by_cases hj : j = i
    · rw [hj, Function.update_self]
      exact hseq
    · rw [Function.update_of_ne hj]
  have hme : ∀ j, me.peerId = (w.speakers j).peerId → ((w.put i me h).speakers j) = me := by
    intro j hj
    rw [hpeer] at hj
    rw [← hw.peers hj]
    exact Function.update_self i me w.speakers
  refine ⟨fun j k hjk => hw.peers ?_, fun j => ?_, hn, fun j => ?_, fun q hq =>
    (hw.posted q hq).grow hmessages hsignals, fun j m hm hauthor => ?_, fun j m hm hauthor => ?_⟩
  · dsimp only at hjk ⊢
    rwa [hpeers, hpeers] at hjk
  · dsimp only
    rw [hpeers]
    exact hw.member j
  · unfold Conversation.put
    dsimp only
    by_cases hj : j = i
    · rw [hj, Function.update_self, Function.update_self]
      exact hown
    · rw [Function.update_of_ne hj, Function.update_of_ne hj]
      exact (hw.own j).grow hmessages hsignals
  · dsimp only at hauthor ⊢
    rw [hpeers] at hauthor
    by_cases hold : m ∈ w.said.messages
    · exact (hw.messages j m hold hauthor).trans (hseqs j)
    · obtain ⟨hmine, hle⟩ := hmessage m hm hold
      rwa [hme j (hmine.symm.trans hauthor)]
  · dsimp only at hauthor ⊢
    rw [hpeers] at hauthor
    by_cases hold : m ∈ w.said.signals
    · exact (hw.signals j m hold hauthor).trans (hseqs j)
    · obtain ⟨hmine, hle⟩ := hsignal m hm hold
      rwa [hme j (hmine.symm.trans hauthor)]

/-- A peer that writes nothing new. -/
theorem InConcert.keep (hw : w.InConcert session) {i : ι} {me : Speaker} {h : Heard}
    (hpeer : me.peerId = (w.speakers i).peerId) (hseq : (w.speakers i).msgSeq ≤ me.msgSeq)
    (hown : Copy session w.said me.session h) : (w.put i me h).InConcert session :=
  hw.put hpeer hseq hown hw.numbered (List.Subset.refl _) (List.Subset.refl _)
    (fun _ hm hno => absurd hm hno) fun _ hm hno => absurd hm hno

-- =========================================================================== steps

/-- **Step**: a message. -/
theorem InConcert.chat (hw : w.InConcert session) {i : ι} {nowMs : Nat} {body : String}
    (htime : w.InTime (.chat i nowMs body)) :
    (w.step (.chat i nowMs body)).InConcert session := by
  obtain ⟨hmax, hlast⟩ := htime
  have hseq : ((w.speakers i).setNow nowMs).nextSeq = (w.speakers i).msgSeq + 1 :=
    Nat.mod_eq_of_lt hmax
  dsimp only [step]
  unfold Speaker.sendChat
  rw [hseq]
  split
  · have hnew := hw.chat_new (i := i)
      (m := ⟨(w.speakers i).peerId, (w.speakers i).msgSeq + 1, nowMs, body⟩) rfl rfl
    refine hw.put rfl (Nat.le_succ _)
      ((hw.own i).pushMessage hw.numbered (hw.member i) hnew hlast)
      ⟨hw.numbered.messages.push hnew, hw.numbered.signals⟩ (List.subset_append_left _ _)
      (List.Subset.refl _) (fun m hm hno => ?_) fun _ hm hno => absurd hm hno
    cases List.mem_singleton.mp ((List.mem_append.mp hm).resolve_left hno)
    exact ⟨rfl, le_rfl⟩
  · have hsame : ∀ h : Heard, h.addMessage none = h := fun h => by
      simp [Heard.addMessage]
    rw [hsame, hsame]
    exact hw.keep rfl le_rfl (hw.own i)

/-- **Step**: a signal. -/
theorem InConcert.signal (hw : w.InConcert session) {i : ι} {nowMs : Nat} {kind : SignalKind}
    {payload : String} (htime : w.InTime (.signal i nowMs kind payload)) :
    (w.step (.signal i nowMs kind payload)).InConcert session := by
  obtain ⟨hmax, hlast⟩ := htime
  have hseq : ((w.speakers i).setNow nowMs).nextSeq = (w.speakers i).msgSeq + 1 :=
    Nat.mod_eq_of_lt hmax
  dsimp only [step]
  unfold Speaker.sendSignal
  rw [hseq]
  split
  · have hnew := hw.signal_new (i := i)
      (m := ⟨(w.speakers i).peerId, (w.speakers i).msgSeq + 1, nowMs, kind, payload⟩) rfl rfl
    refine hw.put rfl (Nat.le_succ _)
      ((hw.own i).pushSignal hw.numbered (hw.member i) hnew hlast)
      ⟨hw.numbered.messages, hw.numbered.signals.push hnew⟩ (List.Subset.refl _)
      (List.subset_append_left _ _) (fun _ hm hno => absurd hm hno) fun m hm hno => ?_
    cases List.mem_singleton.mp ((List.mem_append.mp hm).resolve_left hno)
    exact ⟨rfl, le_rfl⟩
  · have hsame : ∀ h : Heard, h.addSignal none = h := fun h => by
      simp [Heard.addSignal]
    rw [hsame, hsame]
    exact hw.keep rfl le_rfl (hw.own i)

/-- **Step**: whatever happens in time keeps the peers in concert. -/
theorem InConcert.step (hw : w.InConcert session) {e : ConversationEvent ι}
    (hread : w.Readable e) (htime : w.InTime e) : (w.step e).InConcert session := by
  cases e with
  | chat i nowMs body => exact hw.chat htime
  | signal i nowMs kind payload => exact hw.signal htime
  | post i =>
      refine { hw with posted := fun q hq => ?_ }
      rcases List.mem_append.mp hq with hq | hq
      · exact hw.posted q hq
      · cases List.mem_singleton.mp hq
        exact hw.own i
  | ingest i copy heard =>
      exact hw.keep rfl le_rfl ((hw.own i).merge hw.numbered
        (.of_collected hw.numbered hw.posted hread))

theorem inConcert_reach
    (hr : ((conversationMachine ι session).guard InTime).Reach w) : w.InConcert session :=
  hr.invariant (fun _ hs => .opens hs) fun v e v' _ hv hs => by
    obtain ⟨htime, hread, rfl⟩ := hs
    exact hv.step hread htime

/-- **Run**: when everything is written later than what its writer has, every
copy, a peer's own or one put together on the way, holds the newest hundred
messages, and the newest sixty-four signals, of those it has heard of, in the
order of their times; so peers that have heard of the same have the same
transcript. -/
theorem transcripts_agree (hr : ((conversationMachine ι session).guard InTime).Reach w) :
    (∀ i, (w.speakers i).session.messages
        = newest ChatMessage.key ChatMessage.rank 100 (w.heard i).messages
      ∧ (w.speakers i).session.signals
        = newest SignalMessage.key SignalMessage.rank 64 (w.heard i).signals)
    ∧ (∀ s h, Collected w.posted s h →
      s.messages = newest ChatMessage.key ChatMessage.rank 100 h.messages
        ∧ s.signals = newest SignalMessage.key SignalMessage.rank 64 h.signals)
    ∧ ∀ i j, (∀ m, m ∈ (w.heard i).messages ↔ m ∈ (w.heard j).messages) →
      (∀ s, s ∈ (w.heard i).signals ↔ s ∈ (w.heard j).signals) →
      (w.speakers i).session.messages = (w.speakers j).session.messages
        ∧ (w.speakers i).session.signals = (w.speakers j).session.signals := by
  have hw := inConcert_reach hr
  refine ⟨fun i => ⟨(hw.own i).messages.kept, (hw.own i).signals.kept⟩, fun s h hs => ?_,
    fun i j => (hw.own i).same hw.numbered (hw.own j)⟩
  have hcopy := Copy.of_collected hw.numbered hw.posted hs
  exact ⟨hcopy.messages.kept, hcopy.signals.kept⟩

/-- The peers 1 and 2, matched. -/
def pairMatched : Conversation Bool where
  speakers i :=
    { agent :=
        { identity := ⟨[], if i then 2 else 1, fun _ => []⟩
          prefs := ⟨none, [], true, false⟩
          phase := .matched (if i then 1 else 2) 9
          version := 1
          sessionSeed := 0
          session := ⟨some ⟨9, 1, 2, 0⟩, [], [], 100, 64⟩
          nowMs := 0 }
      msgSeq := 0 }
  posted := []
  heard _ := .none
  said := .none

theorem opens_pairMatched : pairMatched.Opens ⟨9, 1, 2, 0⟩ where
  peers := by decide
  member := by decide
  «meta» _ _ hm := (Option.some.inj hm).symm
  caps _ := ⟨.inr rfl, .inr rfl⟩
  silent _ := ⟨rfl, rfl⟩
  posted := rfl
  heard _ := rfl
  said := rfl

/-- A peer posts its copy, and another ingests it. -/
def passOn (w : Conversation ι) (i j : ι) : Conversation ι :=
  (w.step (.post i)).step (.ingest j (w.speakers i).session (w.heard i))

theorem reach_passOn (hr : ((conversationMachine ι session).guard InTime).Reach w) (i j : ι) :
    ((conversationMachine ι session).guard InTime).Reach (w.passOn i j) :=
  (hr.step (l := ConversationEvent.post i) ⟨trivial, trivial, rfl⟩).step
    (l := ConversationEvent.ingest j (w.speakers i).session (w.heard i))
    ⟨trivial, .posted (List.mem_append_right _ (List.mem_singleton_self _)), rfl⟩

/-- One writes, the other reads it and answers, and the first reads that. -/
def pairTalk : Conversation Bool :=
  (((pairMatched.step (.chat false 10 "hi")).passOn false true).step (.chat true 11 "yo")).passOn
    true false

theorem reach_pairTalk :
    ((conversationMachine Bool ⟨9, 1, 2, 0⟩).guard InTime).Reach pairTalk := by
  have hopens : ((conversationMachine Bool ⟨9, 1, 2, 0⟩).guard InTime).Reach pairMatched :=
    .start opens_pairMatched
  have hhi := reach_passOn (hopens.step (l := .chat false 10 "hi")
    ⟨⟨by decide +kernel, by decide +kernel⟩, trivial, rfl⟩) false true
  exact reach_passOn (hhi.step (l := .chat true 11 "yo")
    ⟨⟨by decide +kernel, by decide +kernel⟩, trivial, rfl⟩) true false

/-- Both have the same transcript. -/
theorem transcripts_agree_pair :
    (pairTalk.speakers true).session.messages = [⟨1, 1, 10, "hi"⟩, ⟨2, 1, 11, "yo"⟩]
      ∧ (pairTalk.speakers false).session.messages
        = (pairTalk.speakers true).session.messages := by
  have hmessages : (pairTalk.heard false).messages ⊆ (pairTalk.heard true).messages := by
    decide +kernel
  have hmessages' : (pairTalk.heard true).messages ⊆ (pairTalk.heard false).messages := by
    decide +kernel
  refine ⟨by decide +kernel, ((transcripts_agree reach_pairTalk).2.2 false true
    (fun m => ⟨fun hm => hmessages hm, fun hm => hmessages' hm⟩) fun s => Iff.rfl).1⟩

end Conversation

end Ruletka.Contract
