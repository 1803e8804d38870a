/-
A debate session in the handshake.

Every operation of a session is a move of its party (`Acts`): a session of one
of the two users stays one, says only what such a session may say, and goes
from one stage to another as the handshake allows.
-/
import Ruletka.Mobile.Debate
import Ruletka.Mobile.Proofs.Handshake

namespace Ruletka.Mobile

open Handshake

variable {duo : Duo} {made made' : Side → Nat} {s t : Side} {x x' : DebateSession}
  {d : InviteId} {st st' : Stage InviteId}

-- ==================================================================== the two users

namespace Side

@[simp] theorem other_other (s : Side) : s.other.other = s := by cases s <;> rfl

theorem other_ne (s : Side) : s.other ≠ s := by cases s <;> nofun

theorem eq_or_other (s t : Side) : t = s ∨ t = s.other := by cases s <;> cases t <;> simp [other]

end Side

namespace Duo

@[simp] theorem user_inj (duo : Duo) : duo.user s = duo.user t ↔ s = t := by
  have hne := duo.distinct
  cases s <;> cases t <;> simp [hne, hne.symm]

@[simp] theorem uidEq_users (duo : Duo) (s t : Side) :
    debateUidEq (duo.user s) (duo.user t) = decide (s = t) := by
  simp [debateUidEq, duo.known]

@[simp] theorem callbacks_myUserId (duo : Duo) (s : Side) :
    (duo.callbacks s).myUserId = duo.user s := rfl

@[simp] theorem callbacks_isMatched (duo : Duo) (s : Side) :
    (duo.callbacks s).isMatched = true := rfl

@[simp] theorem callbacks_partnerUserId (duo : Duo) (s : Side) :
    (duo.callbacks s).partnerUserId = duo.user s.other := rfl

/-- A user id that is empty or one of the two. -/
def Named (duo : Duo) (u : UserId) : Prop := u = "" ∨ ∃ t, u = duo.user t

theorem named_user (duo : Duo) (t : Side) : duo.Named (duo.user t) := .inr ⟨t, rfl⟩

theorem Named.orText {u v : UserId} (hu : duo.Named u) (hv : duo.Named v) :
    duo.Named (orText u v) := by
  unfold Mobile.orText
  split
  · exact hv
  · exact hu

@[simp] theorem orText_user (duo : Duo) (t : Side) (u : UserId) :
    orText (duo.user t) u = duo.user t := by simp [orText, duo.known]

/-- Whose turn it is: the maker of the invite begins. -/
def speaker (duo : Duo) (d : InviteId) (k : Nat) : UserId :=
  if k % 2 = 0 then d.maker
  else if d.maker = duo.user .left then duo.user .right else duo.user .left

theorem speaker_eq (hd : d.maker = duo.user t) (k : Nat) :
    duo.speaker d k = duo.user (if k % 2 = 0 then t else t.other) := by
  unfold speaker
  split
  · exact hd
  · rw [hd]
    cases t <;> simp [Side.other]

/-- An invite of the user. -/
def Own (duo : Duo) (s : Side) (d : InviteId) : Prop := d.maker = duo.user s

/-- An invite it has made. -/
def Made (duo : Duo) (made : Side → Nat) (s : Side) (d : InviteId) : Prop :=
  duo.Own s d ∧ d.number < made s

end Duo

-- ====================================================================== the roster

/-- At most the two users, each once. -/
def Pairish (duo : Duo) (ids : List UserId) : Prop :=
  ids = [] ∨ ∃ t, ids = [duo.user t] ∨ ids = [duo.user t, duo.user t.other]

theorem addSpeaker_pairish {ids : List UserId} {u : UserId} (h : Pairish duo ids)
    (hu : duo.Named u) :
    Pairish duo (addSpeaker ids u)
      ∧ ∀ t, (duo.user t ∈ ids ∨ duo.user t = u) → duo.user t ∈ addSpeaker ids u := by
  rcases hu with rfl | ⟨a, rfl⟩
  · have hsame : addSpeaker ids "" = ids := by simp [addSpeaker]
    rw [hsame]
    exact ⟨h, fun t ht => ht.resolve_right (duo.known t)⟩
  · rcases h with rfl | ⟨t, rfl | rfl⟩
    · have hone : addSpeaker [] (duo.user a) = [duo.user a] := by simp [addSpeaker, duo.known]
      rw [hone]
      exact ⟨.inr ⟨a, .inl rfl⟩, fun t ht => by simpa using ht⟩
    · rcases Side.eq_or_other t a with rfl | rfl
      · have hsame : addSpeaker [duo.user a] (duo.user a) = [duo.user a] := by simp [addSpeaker]
        rw [hsame]
        exact ⟨.inr ⟨a, .inl rfl⟩, fun t ht => by simpa using ht⟩
      · have htwo : addSpeaker [duo.user t] (duo.user t.other)
            = [duo.user t, duo.user t.other] := by
          simp [addSpeaker, duo.known, (Side.other_ne t).symm]
        rw [htwo]
        exact ⟨.inr ⟨t, .inr rfl⟩, fun t ht => by simpa using ht⟩
    · have hsame : addSpeaker [duo.user t, duo.user t.other] (duo.user a)
          = [duo.user t, duo.user t.other] := by
        rcases Side.eq_or_other t a with rfl | rfl <;> simp [addSpeaker]
      rw [hsame]
      refine ⟨.inr ⟨t, .inr rfl⟩, fun b _ => ?_⟩
      rcases Side.eq_or_other t b with rfl | rfl <;> simp

theorem foldl_addSpeaker_pairish :
    ∀ (l ids : List UserId), Pairish duo ids → (∀ u ∈ l, duo.Named u) →
      Pairish duo (l.foldl addSpeaker ids)
        ∧ ∀ t, (duo.user t ∈ ids ∨ duo.user t ∈ l) → duo.user t ∈ l.foldl addSpeaker ids
  | [], ids, h, _ => ⟨h, fun t ht => ht.resolve_right (by simp)⟩
  | u :: l, ids, h, hl => by
      obtain ⟨hpair, hmem⟩ := addSpeaker_pairish h (hl u List.mem_cons_self)
      obtain ⟨hpair', hmem'⟩ :=
        foldl_addSpeaker_pairish l (addSpeaker ids u) hpair fun v hv => hl v (by simp [hv])
      refine ⟨hpair', fun t ht => hmem' t ?_⟩
      rcases ht with ht | ht
      · exact .inl (hmem t (.inl ht))
      · rcases List.mem_cons.mp ht with ht | ht
        · exact .inl (hmem t (.inr ht))
        · exact .inr ht

/-- A roster of named users that has both of them is a pair. -/
theorem roster_pair {l : List UserId} (hl : ∀ u ∈ l, duo.Named u) (hboth : ∀ t, duo.user t ∈ l) :
    ∃ t, l.foldl addSpeaker [] = [duo.user t, duo.user t.other] := by
  obtain ⟨hpair, hmem⟩ := foldl_addSpeaker_pairish l [] (.inl rfl) hl
  have hall := fun t => hmem t (.inr (hboth t))
  rcases hpair with he | ⟨t, he | he⟩
  · have := hall .left
    rw [he] at this
    cases this
  · have := hall t.other
    rw [he] at this
    simp [Side.other_ne] at this
  · exact ⟨t, he⟩

theorem addSpeaker_subset {ids : List UserId} {u v : UserId} (h : v ∈ addSpeaker ids u) :
    v ∈ ids ∨ v = u := by
  unfold addSpeaker at h
  split at h
  · exact .inl h
  · exact (List.mem_append.mp h).imp id List.mem_singleton.mp

theorem foldl_roster_subset {v : UserId} :
    ∀ (l ids : List UserId),
      v ∈ l.foldl (fun ids x => if x = "legacy" then ids else addSpeaker ids x) ids →
        v ∈ ids ∨ v ∈ l
  | [], ids, h => .inl h
  | u :: l, ids, h => by
      rcases foldl_roster_subset l _ h with hv | hv
      · dsimp only at hv
        split at hv
        · exact .inl hv
        · refine (addSpeaker_subset hv).imp id fun he => ?_
          rw [he]
          exact List.mem_cons_self
      · exact .inr (List.mem_cons_of_mem _ hv)

/-- Whoever a session collects is one of the two. -/
theorem collectRoster_named {extra : UserId} (hh : duo.Named x.hostId)
    (hp : duo.Named x.partnerId) (he : duo.Named extra) :
    ∀ u ∈ x.collectRoster (duo.callbacks s) extra, duo.Named u := by
  intro u hu
  rcases foldl_roster_subset _ _ hu with hu | hu
  · cases hu
  · simp only [Duo.callbacks, List.cons_append, List.nil_append, List.mem_cons,
      List.not_mem_nil, or_false] at hu
    rcases hu with rfl | rfl | rfl | rfl | rfl | rfl | rfl
    all_goals first | exact duo.named_user _ | assumption

-- ============================================================== what a session is in

/-- The debate of an invite runs. -/
structure Runs (duo : Duo) (x : DebateSession) (d : InviteId) : Prop where
  active : x.active = true
  pending : x.pending = none
  inviteId : x.inviteId = some d
  host : x.hostId = d.maker
  speaker : x.speakerId = duo.speaker d x.turnIndex
  speakers : ∃ t, x.speakers = [duo.user t, duo.user t.other]

/-- The stage of the handshake a session is in. -/
inductive Stands (duo : Duo) (made : Side → Nat) (s : Side) (x : DebateSession) :
    Stage InviteId → Prop where
  | idle : x.active = false → x.pending = none → Stands duo made s x .idle
  | inviting {d : InviteId} : x.active = false → x.pending = some .out → x.inviteId = some d →
      duo.Own s d → Stands duo made s x (.inviting d)
  | invited {d : InviteId} : x.active = false → x.pending = some .incoming →
      x.inviteId = some d → duo.Made made s.other d → Stands duo made s x (.invited d)
  | hosting {d : InviteId} : Runs duo x d → duo.Own s d → Stands duo made s x (.hosting d)
  | joined {d : InviteId} : Runs duo x d → duo.Own s.other d → Stands duo made s x (.joined d)

/-- A session of one of the two, with its microphone locked as it says. -/
structure Proper (duo : Duo) (made : Side → Nat) (s : Side) (x : DebateSession)
    (st : Stage InviteId) : Prop where
  stands : Stands duo made s x st
  host : duo.Named x.hostId
  partner : duo.Named x.partnerId
  mic : x.micLocked = (x.active && !x.iAmSpeaker (duo.callbacks s))

/-- What a stage is read from is the same. -/
structure SameDebate (x' x : DebateSession) : Prop where
  active : x'.active = x.active
  pending : x'.pending = x.pending
  inviteId : x'.inviteId = x.inviteId
  host : x'.hostId = x.hostId
  speaker : x'.speakerId = x.speakerId
  turn : x'.turnIndex = x.turnIndex
  speakers : x'.speakers = x.speakers

/-- A message from one end. -/
inductive Fair (duo : Duo) (made : Side → Nat) (s : Side) : DebateMsg → Prop where
  | invite {d : InviteId} {turnMs : Nat} : duo.Made made s d → Fair duo made s (.invite d turnMs)
  | accept {d : InviteId} : duo.Made made s.other d → Fair duo made s (.accept d)
  | decline {d : Option InviteId} : Fair duo made s (.decline d)
  | cancel {d : Option InviteId} : Fair duo made s (.cancel d)
  | start {d : InviteId} {msg : DebateStart} : msg.inviteId = some d → duo.Own s d →
      msg.hostId = duo.user s → msg.firstSpeakerId = duo.user s → duo.Named msg.partnerId →
      (∀ u ∈ msg.speakers, duo.Named u) → msg.turnIndex = 0 → Fair duo made s (.start msg)
  | turn {t : Side} {d : InviteId} {idx endsAt ms : Nat} : duo.Own t d →
      Fair duo made s (.turn (duo.speaker d idx) idx endsAt ms (some d))
  | ended {d : Option InviteId} : Fair duo made s (.ended d)

/-- A message as a word of the handshake. -/
def DebateMsg.note : DebateMsg → Note InviteId
  | .invite d _ => .invite d
  | .accept d => .accept d
  | .decline _ => .decline
  | .cancel _ => .cancel
  | .start msg => msg.inviteId.elim .over .start
  | .turn _ idx _ _ d => d.elim .over fun d => .turn d idx
  | .ended _ => .over

theorem Duo.Made.mono (h : duo.Made made s d) (hle : ∀ s, made s ≤ made' s) :
    duo.Made made' s d := ⟨h.1, h.2.trans_le (hle s)⟩

theorem Stands.mono (h : Stands duo made s x st) (hle : ∀ s, made s ≤ made' s) :
    Stands duo made' s x st := by
  cases h with
  | idle ha hp => exact .idle ha hp
  | inviting ha hp hi ho => exact .inviting ha hp hi ho
  | invited ha hp hi hm => exact .invited ha hp hi (hm.mono hle)
  | hosting hr ho => exact .hosting hr ho
  | joined hr ho => exact .joined hr ho

theorem Proper.mono (h : Proper duo made s x st) (hle : ∀ s, made s ≤ made' s) :
    Proper duo made' s x st := ⟨h.stands.mono hle, h.host, h.partner, h.mic⟩

theorem Runs.congr (h : Runs duo x d) (hs : SameDebate x' x) : Runs duo x' d where
  active := hs.active.trans h.active
  pending := hs.pending.trans h.pending
  inviteId := hs.inviteId.trans h.inviteId
  host := hs.host.trans h.host
  speaker := by rw [hs.speaker, hs.turn, h.speaker]
  speakers := by rw [hs.speakers]; exact h.speakers

theorem Stands.congr (h : Stands duo made s x st) (hs : SameDebate x' x) :
    Stands duo made s x' st := by
  cases h with
  | idle ha hp => exact .idle (hs.active.trans ha) (hs.pending.trans hp)
  | inviting ha hp hi ho =>
    exact .inviting (hs.active.trans ha) (hs.pending.trans hp) (hs.inviteId.trans hi) ho
  | invited ha hp hi hm =>
    exact .invited (hs.active.trans ha) (hs.pending.trans hp) (hs.inviteId.trans hi) hm
  | hosting hr ho => exact .hosting (hr.congr hs) ho
  | joined hr ho => exact .joined (hr.congr hs) ho

theorem Fair.mono {m : DebateMsg} (h : Fair duo made s m) (hle : ∀ s, made s ≤ made' s) :
    Fair duo made' s m := by
  cases h with
  | invite hm => exact .invite (hm.mono hle)
  | accept hm => exact .accept (hm.mono hle)
  | decline => exact .decline
  | cancel => exact .cancel
  | start hi ho hh hf hp hs ht => exact .start hi ho hh hf hp hs ht
  | turn ho => exact .turn ho
  | ended => exact .ended

/-- The screen and the microphone follow whatever the session is in. -/
theorem Stands.emit (h : Stands duo made s x st) (hh : duo.Named x.hostId)
    (hp : duo.Named x.partnerId) : Proper duo made s (x.emit (duo.callbacks s)) st :=
  ⟨h.congr ⟨rfl, rfl, rfl, rfl, rfl, rfl, rfl⟩, hh, hp, rfl⟩

theorem Proper.emit_eq (h : Proper duo made s x st) : x.emit (duo.callbacks s) = x := by
  obtain ⟨-, -, -, hm⟩ := h
  unfold DebateSession.emit
  rw [← hm]

theorem Proper.active_iff (h : Proper duo made s x st) : x.active = true ↔ st.Active := by
  cases h.stands with
  | idle ha _ | inviting ha _ _ _ | invited ha _ _ _ => simp [ha, Stage.Active]
  | hosting hr _ | joined hr _ => simp [hr.active, Stage.Active]

theorem Proper.runs (h : Proper duo made s x st) (ha : x.active = true) :
    ∃ d, Runs duo x d ∧ (st = .hosting d ∧ duo.Own s d ∨ st = .joined d ∧ duo.Own s.other d) := by
  cases h.stands with
  | idle hi _ | inviting hi _ _ _ | invited hi _ _ _ => rw [hi] at ha; cases ha
  | hosting hr ho => exact ⟨_, hr, .inl ⟨rfl, ho⟩⟩
  | joined hr ho => exact ⟨_, hr, .inr ⟨rfl, ho⟩⟩

theorem Proper.idle (h : Proper duo made s x st) (ha : x.active = false) (hp : x.pending = none) :
    st = .idle := by
  cases h.stands with
  | idle _ _ => rfl
  | inviting _ hp' _ _ | invited _ hp' _ _ => rw [hp] at hp'; cases hp'
  | hosting hr _ | joined hr _ => cases ha.symm.trans hr.active

theorem Proper.inviting (h : Proper duo made s x st) (hp : x.pending = some .out) :
    ∃ d, st = .inviting d ∧ x.active = false ∧ x.inviteId = some d ∧ duo.Own s d := by
  cases h.stands with
  | inviting ha _ hi ho => exact ⟨_, rfl, ha, hi, ho⟩
  | idle _ hp' | invited _ hp' _ _ => cases hp.symm.trans hp'
  | hosting hr _ | joined hr _ => cases hp.symm.trans hr.pending

theorem Proper.invited (h : Proper duo made s x st) (hp : x.pending = some .incoming) :
    ∃ d, st = .invited d ∧ x.active = false ∧ x.inviteId = some d
      ∧ duo.Made made s.other d := by
  cases h.stands with
  | invited ha _ hi hm => exact ⟨_, rfl, ha, hi, hm⟩
  | idle _ hp' | inviting _ hp' _ _ => cases hp.symm.trans hp'
  | hosting hr _ | joined hr _ => cases hp.symm.trans hr.pending

-- ===================================================================== what it does

variable {n : Option (Note InviteId)} {r : DebateSession × List DebateMsg} {b b' : Bool}
  {g g' : Finset InviteId}

/-- The next invite of a user. -/
def Duo.Fresh (duo : Duo) (number : Side → Nat) (s : Side) (d : InviteId) : Prop :=
  d = ⟨duo.user s, number s⟩

/-- What a session does is a move of its party, by a session of one of the two, with
messages that are its own. -/
def Acts (duo : Duo) (number made : Side → Nat) (s : Side) (x : DebateSession)
    (st : Stage InviteId) (b : Bool) (g : Finset InviteId) (n : Option (Note InviteId))
    (r : DebateSession × List DebateMsg) (b' : Bool) (g' : Finset InviteId) : Prop :=
  ∃ st', Proper duo made s r.1 st' ∧ (∀ m ∈ r.2, Fair duo made s m)
    ∧ Move (duo.Own s) (duo.Fresh number s) ⟨st, x.turnIndex, b, g⟩ n
        ⟨st', r.1.turnIndex, b', g'⟩ (r.2.map DebateMsg.note)

variable {number : Side → Nat}

/-- Nothing happens but for the timers. -/
theorem Proper.keeps (hx : Proper duo made s x' st) (hsame : x'.turnIndex = x.turnIndex)
    (hstart : ∀ d, n ≠ some (.start d))
    (hturn : ∀ d k, n = some (.turn d k) → st.Active → k < x.turnIndex) :
    Acts duo number made s x st b g n (x', []) b g := by
  refine ⟨st, hx, nofun, ?_⟩
  rw [hsame]
  exact .keep hstart hturn nofun

/-- It leaves what it is in. -/
theorem Stands.leaves (hst : Stands duo made s x' .idle) (hh : duo.Named x'.hostId)
    (hp : duo.Named x'.partnerId) {sent : List DebateMsg} (hg : g' ⊆ g)
    (hn : ∀ m, n = some m → m.Still)
    (hs : ∀ m ∈ sent, ∃ i, m = .decline i ∨ m = .cancel i ∨ m = .ended i) :
    Acts duo number made s x st b g n (x'.emit (duo.callbacks s), sent) b' g' := by
  refine ⟨.idle, hst.emit hh hp, fun m hm => ?_, .leave rfl hg hn fun m hm => ?_⟩
  · obtain ⟨i, rfl | rfl | rfl⟩ := hs m hm
    · exact .decline
    · exact .cancel
    · exact .ended
  · obtain ⟨m', hm', rfl⟩ := List.mem_map.mp hm
    obtain ⟨i, rfl | rfl | rfl⟩ := hs m' hm' <;> trivial

theorem Proper.endDebate (notify : Bool) (hg : g' ⊆ g)
    (hn : ∀ m, n = some m → m.Still) :
    Acts duo number made s x st b g n (x.endDebate (duo.callbacks s) notify) b' g' := by
  refine (Stands.idle rfl rfl).leaves (.inl rfl) (.inl rfl) hg hn fun m hm => ?_
  split at hm
  · exact ⟨_, .inr (.inr (List.mem_singleton.mp hm))⟩
  · cases hm

/-- An invite is dropped. -/
theorem Proper.clears (hx : Proper duo made s x st) (ha : x.active = false) (hg : g' ⊆ g)
    (hn : ∀ m, n = some m → m.Still) {sent : List DebateMsg}
    (hs : ∀ m ∈ sent, ∃ i, m = .decline i ∨ m = .cancel i) :
    Acts duo number made s x st b g n ((x.clearPending).emit (duo.callbacks s), sent) b' g' := by
  have hidle : Stands duo made s x.clearPending .idle := .idle ha rfl
  refine hidle.leaves hx.host hx.partner hg hn fun m hm => ?_
  obtain ⟨i, hi⟩ := hs m hm
  exact ⟨i, hi.imp id .inl⟩

-- ======================================================================= the turns

theorem Runs.otherSpeaker (h : Runs duo x d) (hd : duo.Own t d) :
    x.otherSpeaker (duo.callbacks s) = duo.speaker d (x.turnIndex + 1) := by
  obtain ⟨a, ha⟩ := h.speakers
  have hsp := h.speaker
  rw [Duo.speaker_eq hd] at hsp ⊢
  have hnext : (if (x.turnIndex + 1) % 2 = 0 then t else t.other)
      = (if x.turnIndex % 2 = 0 then t else t.other).other := by
    rcases Nat.mod_two_eq_zero_or_one x.turnIndex with he | he
    · have hodd : (x.turnIndex + 1) % 2 ≠ 0 := by omega
      rw [if_neg hodd, if_pos he]
    · have heven : (x.turnIndex + 1) % 2 = 0 := by omega
      have hodd : x.turnIndex % 2 ≠ 0 := by omega
      rw [if_pos heven, if_neg hodd, Side.other_other]
  rw [hnext]
  generalize (if x.turnIndex % 2 = 0 then t else t.other) = c at hsp ⊢
  unfold DebateSession.otherSpeaker
  rw [ha, hsp]
  rcases Side.eq_or_other a c with rfl | rfl
  · simp [List.findIdx?_cons]
  · simp [List.findIdx?_cons, (Side.other_ne a).symm]

/-- The turn moves to the other, said or not. -/
theorem Runs.moved {speaker : UserId} {idx : Nat} (h : Runs duo x d) (endsAt ms : Nat)
    (hs : speaker = duo.speaker d idx) :
    Runs duo { x with speakerId := speaker, turnIndex := idx, turnEndsAt := endsAt,
                      turnMs := ms } d :=
  ⟨h.active, h.pending, h.inviteId, h.host, hs, h.speakers⟩

theorem Runs.isHost (h : Runs duo x d) (hd : duo.Own t d) :
    x.isHost (duo.callbacks s) = decide (t = s) := by
  unfold DebateSession.isHost
  rw [h.host, hd, Duo.callbacks_myUserId, Duo.uidEq_users]

theorem Runs.iAmSpeaker (h : Runs duo x d) (hd : duo.Own t d) :
    x.iAmSpeaker (duo.callbacks s)
      = decide ((if x.turnIndex % 2 = 0 then t else t.other) = s) := by
  unfold DebateSession.iAmSpeaker
  rw [h.speaker, Duo.speaker_eq hd, Duo.callbacks_myUserId, Duo.uidEq_users]

/-- What a session does when it moves the turn: nothing, or the next turn and, if
it says so, the message of it. -/
theorem Runs.advanceTurn (h : Runs duo x d) (hd : duo.Own t d) (force yieldTurn : Bool)
    (now : Nat) :
    x.advanceTurn (duo.callbacks s) force yieldTurn now = (x, [])
      ∨ ∃ endsAt ms, x.advanceTurn (duo.callbacks s) force yieldTurn now =
          (({ x with speakerId := duo.speaker d (x.turnIndex + 1), turnIndex := x.turnIndex + 1,
                     turnEndsAt := endsAt }).emit (duo.callbacks s),
           if x.isHost (duo.callbacks s) || (yieldTurn && x.iAmSpeaker (duo.callbacks s)) then
             [.turn (duo.speaker d (x.turnIndex + 1)) (x.turnIndex + 1) endsAt ms (some d)]
           else []) := by
  unfold DebateSession.advanceTurn
  rw [h.otherSpeaker hd]
  extract_lets announces next turnMs endsAt idx y
  split
  · exact .inl rfl
  split
  · exact .inl rfl
  split
  · exact .inl rfl
  · refine .inr ⟨endsAt, turnMs, ?_⟩
    rw [← h.inviteId]

/-- It has moved its turn and says nothing. -/
def drifts (x : DebateSession) (r : DebateSession × List DebateMsg) : Bool :=
  x.turnIndex < r.1.turnIndex && r.2.isEmpty

theorem Proper.advanceTurn (hx : Proper duo made s x st) (ha : x.active = true)
    (force yieldTurn : Bool) (now : Nat) :
    Acts duo number made s x st b g none
      (x.advanceTurn (duo.callbacks s) force yieldTurn now)
      (b || drifts x (x.advanceTurn (duo.callbacks s) force yieldTurn now)) g := by
  obtain ⟨d, hr, hd⟩ := hx.runs ha
  obtain ⟨t, ht⟩ : ∃ t, duo.Own t d := hd.elim (fun h => ⟨s, h.2⟩) fun h => ⟨s.other, h.2⟩
  rcases hr.advanceTurn ht force yieldTurn now with he | ⟨endsAt, ms, he⟩
  · rw [he]
    have hno : drifts x (x, []) = false := by simp [drifts]
    rw [hno, Bool.or_false]
    exact hx.keeps rfl nofun nofun
  have hnext := hr.moved endsAt x.turnMs (rfl : duo.speaker d (x.turnIndex + 1) = _)
  have hproper : Proper duo made s (({ x with
      speakerId := duo.speaker d (x.turnIndex + 1), turnIndex := x.turnIndex + 1,
      turnEndsAt := endsAt }).emit (duo.callbacks s)) st := by
    refine Stands.emit ?_ hx.host hx.partner
    rcases hd with ⟨rfl, ho⟩ | ⟨rfl, ho⟩
    · exact .hosting hnext ho
    · exact .joined hnext ho
  rw [he]
  refine ⟨st, hproper, fun m hm => ?_, ?_⟩
  · split at hm
    · cases List.mem_singleton.mp hm
      exact .turn ht
    · cases hm
  · split
    · next hsay =>
      have hno : ∀ y m, drifts x (y, [m]) = false := by simp [drifts]
      rw [hno, Bool.or_false]
      refine .announce ?_
      rcases hd with ⟨hs, -⟩ | ⟨hs, ho⟩
      · exact .inl hs
      · refine .inr ⟨hs, ?_⟩
        rw [hr.isHost ho, hr.iAmSpeaker ho] at hsay
        by_contra hodd
        have heven : x.turnIndex % 2 = 0 := by simp only at hodd; omega
        simp [heven, Side.other_ne] at hsay
    · next hsay =>
      have hyes : ∀ y : DebateSession, y.turnIndex = x.turnIndex + 1 → drifts x (y, []) = true := by
        intro y hy
        simp [drifts, hy]
      rw [hyes _ rfl, Bool.or_true]
      rcases hd with ⟨hs, ho⟩ | ⟨hs, ho⟩
      · rw [hr.isHost ho] at hsay
        simp at hsay
      · exact .drift hs

/-- The clock moves the turn of a debate or leaves the session as it is. -/
theorem Proper.tick_eq (hx : Proper duo made s x st) (now : Nat) :
    x.active = true ∧ x.tick (duo.callbacks s) now = x.advanceTurn (duo.callbacks s) true false now
      ∨ ∃ ticks, x.tick (duo.callbacks s) now = ({ x with ticks := ticks }, []) := by
  unfold DebateSession.tick
  rw [hx.emit_eq]
  split
  · exact .inr ⟨false, rfl⟩
  · next ha =>
    rw [if_neg (by simp)]
    dsimp only
    split
    · exact .inl ⟨by simpa using ha, rfl⟩
    · exact .inr ⟨x.ticks, rfl⟩

theorem Proper.setTicks (hx : Proper duo made s x st) (ticks : Bool) :
    Proper duo made s { x with ticks := ticks } st :=
  ⟨hx.stands.congr ⟨rfl, rfl, rfl, rfl, rfl, rfl, rfl⟩, hx.host, hx.partner, hx.mic⟩

theorem Proper.tick (hx : Proper duo made s x st) (now : Nat) :
    Acts duo number made s x st b g none (x.tick (duo.callbacks s) now)
      (b || drifts x (x.tick (duo.callbacks s) now)) g := by
  rcases hx.tick_eq now with ⟨ha, he⟩ | ⟨ticks, he⟩
  · rw [he]
    exact hx.advanceTurn ha true false now
  · have hno : drifts x ({ x with ticks := ticks }, []) = false := by simp [drifts]
    rw [he, hno, Bool.or_false]
    exact (hx.setTicks ticks).keeps rfl nofun nofun

theorem Proper.passTurn (hx : Proper duo made s x st) (now : Nat) :
    Acts duo number made s x st b g none (x.passTurn (duo.callbacks s) now) b g := by
  unfold DebateSession.passTurn
  split
  · exact hx.keeps rfl nofun nofun
  · next hgo =>
    -- the speaker says so, whoever it is
    have ha : x.active = true := by
      by_contra hno
      simp [hno] at hgo
    have hspeaks : x.iAmSpeaker (duo.callbacks s) = true := by
      by_contra hno
      simp [hno] at hgo
    obtain ⟨d, hr, hd⟩ := hx.runs ha
    obtain ⟨t, ht⟩ : ∃ t, duo.Own t d := hd.elim (fun h => ⟨s, h.2⟩) fun h => ⟨s.other, h.2⟩
    have hno : drifts x (x.advanceTurn (duo.callbacks s) false true now) = false := by
      rcases hr.advanceTurn (s := s) ht false true now with he | ⟨endsAt, ms, he⟩
      · simp [he, drifts]
      · simp [he, drifts, hspeaks]
    simpa only [hno, Bool.or_false] using hx.advanceTurn (b := b) (g := g) ha false true now

-- ====================================================================== the invite

theorem Proper.sendInvite (hx : Proper duo made s x st) (turnSecs : Nat)
    (hd : duo.Fresh number s d) (hm : duo.Made made s d)
    (hquiet : (x.sendInviteFromCompose (duo.callbacks s) turnSecs d).2 = [] → g' = g)
    (hsaid : ∀ ms, (x.sendInviteFromCompose (duo.callbacks s) turnSecs d).2 = [.invite d ms] →
      g' = insert d g) :
    Acts duo number made s x st b g none
      (x.sendInviteFromCompose (duo.callbacks s) turnSecs d) b g' := by
  revert hquiet hsaid
  unfold DebateSession.sendInviteFromCompose
  split
  · intro hquiet _
    rw [hquiet rfl]
    exact hx.keeps rfl nofun nofun
  · next hgo =>
    have hcan : x.canStart (duo.callbacks s) = true := by
      by_contra hno
      simp [hno] at hgo
    have ha : x.active = false := by
      by_contra hno
      simp [DebateSession.canStart, hno] at hcan
    have hp : x.pending = none := by
      by_contra hno
      simp [DebateSession.canStart, hno] at hcan
    obtain rfl := hx.idle ha hp
    intro _ hsaid
    rw [hsaid _ rfl]
    refine ⟨.inviting d, Stands.emit (.inviting ha rfl rfl hm.1) (duo.named_user s)
      (duo.named_user s.other), fun m hmem => ?_, .invite rfl hd hm.1⟩
    rw [List.mem_singleton.mp hmem]
    exact .invite hm

theorem Proper.inviteOrToggle (hx : Proper duo made s x st) (hg : g' ⊆ g)
    (hsame : x.active = false → x.pending ≠ some .out → g' = g) :
    Acts duo number made s x st b g none (x.inviteOrToggle (duo.callbacks s)) b g' := by
  unfold DebateSession.inviteOrToggle
  split
  · exact Proper.endDebate true hg nofun
  · next ha =>
    have ha : x.active = false := by simpa using ha
    split
    · exact hx.clears (n := none) ha hg nofun fun m hm => ⟨_, .inr (List.mem_singleton.mp hm)⟩
    · next hp =>
      rw [hsame ha hp]
      exact hx.keeps rfl nofun nofun

theorem Proper.declineIncoming (hx : Proper duo made s x st) (hg : g' ⊆ g)
    (hsame : x.pending ≠ some .incoming → g' = g) :
    Acts duo number made s x st b g none (x.declineIncoming (duo.callbacks s)) b g' := by
  unfold DebateSession.declineIncoming
  split
  · next hp =>
    obtain ⟨d, -, ha, -⟩ := hx.invited hp
    exact hx.clears (n := none) ha hg nofun fun m hm => ⟨_, .inl (List.mem_singleton.mp hm)⟩
  · next hp =>
    rw [hsame hp]
    exact hx.keeps rfl nofun nofun

/-- The invite timer is set or cleared. -/
theorem Proper.setTimer (hx : Proper duo made s x st) (timer : Option InviteTimer) :
    Proper duo made s { x with inviteTimer := timer } st :=
  ⟨hx.stands.congr ⟨rfl, rfl, rfl, rfl, rfl, rfl, rfl⟩, hx.host, hx.partner, hx.mic⟩

theorem Proper.acceptIncoming (hx : Proper duo made s x st)
    (hquiet : (x.acceptIncoming (duo.callbacks s)).2 = [] → g' = g)
    (hsaid : ∀ d, (x.acceptIncoming (duo.callbacks s)).2 = [.accept d] → g' = insert d g) :
    Acts duo number made s x st b g none (x.acceptIncoming (duo.callbacks s)) b g' := by
  revert hquiet hsaid
  unfold DebateSession.acceptIncoming
  split
  · next d hp hi =>
    obtain ⟨d', rfl, ha, hi', hm⟩ := hx.invited hp
    cases hi.symm.trans hi'
    have hset := hx.setTimer (some .startTimeout)
    intro _ hsaid
    rw [hsaid _ rfl]
    refine ⟨.invited d, hset.stands.emit hset.host hset.partner, fun m hmem => ?_, .accept rfl⟩
    rw [List.mem_singleton.mp hmem]
    exact .accept hm
  · intro hquiet _
    rw [hquiet rfl]
    exact hx.keeps rfl nofun nofun

theorem Proper.runInviteTimer (hx : Proper duo made s x st) (timer : InviteTimer) (hg : g' ⊆ g)
    (hsame : (x.runInviteTimer (duo.callbacks s) timer).2 = [] → g' = g) :
    Acts duo number made s x st b g none (x.runInviteTimer (duo.callbacks s) timer) b g' := by
  have hset := hx.setTimer none
  revert hsame
  unfold DebateSession.runInviteTimer DebateSession.clearInviteTimer
  cases timer with
  | inviteTtl inviteId =>
    dsimp only
    split
    · next hp =>
      intro _
      have hp : x.pending = some .out := by simpa using (Bool.and_eq_true_iff.mp hp).1
      obtain ⟨d, -, ha, -⟩ := hx.inviting hp
      exact hset.clears (n := none) ha hg nofun fun m hm => ⟨_, .inr (List.mem_singleton.mp hm)⟩
    · intro hsame
      rw [hsame rfl]
      exact hset.keeps rfl nofun nofun
  | incomingTtl =>
    dsimp only
    split
    · next hp =>
      intro _
      obtain ⟨d, -, ha, -⟩ := hx.invited hp
      exact hset.clears (n := none) ha hg nofun fun m hm => ⟨_, .inl (List.mem_singleton.mp hm)⟩
    · intro hsame
      rw [hsame rfl]
      exact hset.keeps rfl nofun nofun
  | startTimeout =>
    dsimp only
    split
    · next hp =>
      intro hsame
      rw [hsame rfl]
      have ha : x.active = false := by simpa using (Bool.and_eq_true_iff.mp hp).1
      exact hset.clears (n := none) ha (Finset.Subset.refl _) nofun nofun
    · intro hsame
      rw [hsame rfl]
      exact hset.keeps rfl nofun nofun

-- ==================================================================== the messages

/-- The debate that a start tells of runs. -/
theorem applyStart_runs {msg : DebateStart} (hi : msg.inviteId = some d) (hd : duo.Own t d)
    (hh : msg.hostId = duo.user t) (hf : msg.firstSpeakerId = duo.user t)
    (hp : duo.Named msg.partnerId) (hs : ∀ u ∈ msg.speakers, duo.Named u)
    (ht : msg.turnIndex = 0) (now : Nat) :
    Runs duo (x.applyStart (duo.callbacks s) msg now) d
      ∧ duo.Named (x.applyStart (duo.callbacks s) msg now).partnerId
      ∧ (x.applyStart (duo.callbacks s) msg now).turnIndex = 0 := by
  have hfirst : orText (orText msg.firstSpeakerId msg.hostId) (duo.callbacks s).partnerUserId
      = duo.user t := by simp [hf]
  have hpartner : duo.Named (orText msg.partnerId
      (if duo.user t = (duo.callbacks s).myUserId then (duo.callbacks s).partnerUserId
        else duo.user t)) := by
    refine hp.orText ?_
    split
    · exact duo.named_user s.other
    · exact duo.named_user t
  unfold DebateSession.applyStart
  rw [hfirst]
  extract_lets turnMs first partner y z
  refine ⟨⟨rfl, rfl, ?_, ?_, ?_, ?_⟩, ?_, ht⟩
  · show msg.inviteId.or _ = some d
    rw [hi]
    rfl
  · show orText msg.hostId first = d.maker
    rw [hh, Duo.orText_user]
    exact hd.symm
  · show duo.user t = duo.speaker d msg.turnIndex
    rw [ht]
    exact hd.symm
  · refine roster_pair (fun u hu => ?_) fun a => ?_
    · simp only [Duo.callbacks, List.append_assoc, List.cons_append, List.nil_append,
        List.mem_append, List.mem_cons, List.not_mem_nil, or_false] at hu
      rcases hu with hu | rfl | rfl | rfl | rfl | rfl
      · exact hs u hu
      · exact duo.named_user t
      · exact hpartner
      all_goals exact duo.named_user _
    · rcases Side.eq_or_other s a with rfl | rfl <;> simp [Duo.callbacks]
  · exact hpartner.orText (duo.named_user s.other)

theorem applyStart_proper {msg : DebateStart} (hi : msg.inviteId = some d) (hd : duo.Own t d)
    (hh : msg.hostId = duo.user t) (hf : msg.firstSpeakerId = duo.user t)
    (hp : duo.Named msg.partnerId) (hs : ∀ u ∈ msg.speakers, duo.Named u)
    (ht : msg.turnIndex = 0) (now : Nat)
    (hst : Runs duo (x.applyStart (duo.callbacks s) msg now) d →
      Stands duo made s (x.applyStart (duo.callbacks s) msg now) st) :
    Proper duo made s (x.applyStart (duo.callbacks s) msg now) st := by
  obtain ⟨hr, hpartner, -⟩ := applyStart_runs (x := x) (s := s) hi hd hh hf hp hs ht now
  refine ⟨hst hr, ?_, hpartner, rfl⟩
  rw [hr.host, hd]
  exact duo.named_user t

/-- The session takes a start or a turn as it comes. -/
def DebateSession.takes (x : DebateSession) : DebateMsg → Bool
  | .start _ => true
  | .turn _ idx _ _ _ => x.active && x.turnIndex ≤ idx
  | _ => false

theorem still_some {m : Note InviteId} (h : m.Still) : ∀ m', some m = some m' → m'.Still := by
  rintro _ ⟨⟩
  exact h

/-- It takes no notice of a message, or says it is busy. -/
theorem Proper.ignores (hx : Proper duo made s x st) {sent : List DebateMsg}
    (hn : ∀ m, n = some m → m.Still) (hs : ∀ m ∈ sent, ∃ i, m = .decline i) :
    Acts duo number made s x st b g n (x, sent) b g := by
  refine ⟨st, hx, fun m hm => ?_, .keep (fun d he => hn _ he) (fun d k he => (hn _ he).elim)
    fun m hm => ?_⟩
  · obtain ⟨i, rfl⟩ := hs m hm
    exact .decline
  · obtain ⟨m', hm', rfl⟩ := List.mem_map.mp hm
    obtain ⟨i, rfl⟩ := hs m' hm'
    rfl

theorem Proper.handleInviteIncoming (hx : Proper duo made s x st) (hm : duo.Made made s.other d)
    (turnMs : Nat) :
    Acts duo number made s x st b g (some (.invite d))
      (x.handleInviteIncoming (duo.callbacks s) d turnMs (duo.user s.other)) b g := by
  have hstill := @still_some (.invite d) trivial
  unfold DebateSession.handleInviteIncoming
  dsimp only
  split
  · exact hx.ignores hstill nofun
  split
  · exact hx.ignores hstill fun m hm => ⟨_, List.mem_singleton.mp hm⟩
  split
  · exact hx.ignores hstill nofun
  · next hidle _ =>
    have hidle : x.active = false ∧ x.pending = none := by simpa using hidle
    obtain rfl := hx.idle hidle.1 hidle.2
    exact ⟨.invited d, Stands.emit (.invited hidle.1 rfl rfl hm)
      ((duo.named_user s.other).orText (duo.named_user s.other))
      ((duo.named_user s.other).orText (duo.named_user s.other)), nofun, .receive rfl⟩

theorem Proper.handleAccept (hx : Proper duo made s x st) (now : Nat) :
    Acts duo number made s x st b g (some (.accept d))
      (x.handleAccept (duo.callbacks s) d (duo.user s.other) now) b g := by
  unfold DebateSession.handleAccept
  split
  · exact hx.ignores (still_some trivial) nofun
  · next hgo =>
    have hgo : x.pending = some .out ∧ x.otherInvite (some d) = false := by simpa using hgo
    obtain ⟨d', rfl, ha, hi, ho⟩ := hx.inviting hgo.1
    have hd : d = d' := by
      have := hgo.2
      simpa [DebateSession.otherInvite, hi] using this
    subst hd
    dsimp only
    have hroster := collectRoster_named (s := s) hx.host hx.partner (duo.named_user s.other)
    refine ⟨.hosting d, ?_, fun m hm => ?_, ?_⟩
    · exact applyStart_proper hi ho rfl rfl
        ((duo.named_user s.other).orText (duo.named_user s.other)) hroster rfl now
        fun hr => .hosting hr ho
    · rw [List.mem_singleton.mp hm]
      exact .start hi ho rfl rfl ((duo.named_user s.other).orText (duo.named_user s.other))
        hroster rfl
    · have hnote : ∀ msg : DebateStart, msg.inviteId = some d →
          (DebateMsg.start msg).note = .start d := by
        intro msg he
        simp [DebateMsg.note, he]
      rw [List.map_cons, List.map_nil, hnote _ hi]
      exact .open rfl

theorem Proper.applyTurn (hx : Proper duo made s x st) (ht : duo.Own t d)
    (hd : ∀ d', st = .hosting d' ∨ st = .joined d' → d' = d) (idx endsAt ms now : Nat) :
    Acts duo number made s x st b g (some (.turn d idx))
      (x.applyTurn (duo.callbacks s) (duo.speaker d idx) idx endsAt ms now, [])
      (b && !(x.active && decide (x.turnIndex ≤ idx))) g := by
  have hknown : duo.speaker d idx ≠ "" := by
    rw [Duo.speaker_eq ht]
    exact duo.known _
  unfold DebateSession.applyTurn
  by_cases hgo : x.active = true ∧ x.turnIndex ≤ idx
  · have htakes : (x.active && decide (x.turnIndex ≤ idx)) = true := by simp [hgo]
    have hskip : ¬ (!x.active || decide (duo.speaker d idx = "")
        || decide (idx < x.turnIndex)) = true := by simp [hgo, hknown]
    rw [htakes, if_neg hskip, Bool.not_true, Bool.and_false]
    obtain ⟨d', hr, hst⟩ := hx.runs hgo.1
    obtain rfl : d' = d := hd d' (hst.imp And.left And.left)
    have hnext := hr.moved (orNumber endsAt (now + orNumber x.turnMs debateTurnMs))
      (if ms = 0 then x.turnMs else normalizeDebateTurnMs ms) (rfl : duo.speaker d' idx = _)
    refine ⟨st, Stands.emit ?_ hx.host hx.partner, nofun, .hear (hx.active_iff.mp hgo.1) hgo.2⟩
    rcases hst with ⟨rfl, ho⟩ | ⟨rfl, ho⟩
    · exact .hosting hnext ho
    · exact .joined hnext ho
  · have hskip : (!x.active || decide (duo.speaker d idx = "")
        || decide (idx < x.turnIndex)) = true := by
      by_contra hno
      simp only [Bool.or_eq_true, decide_eq_true_eq, not_or, Bool.not_eq_true', Bool.not_eq_false,
        not_lt] at hno
      exact hgo ⟨hno.1.1, hno.2⟩
    have hstays : (x.active && decide (x.turnIndex ≤ idx)) = false := by
      by_contra hno
      simp only [Bool.not_eq_false, Bool.and_eq_true, decide_eq_true_eq] at hno
      exact hgo hno
    rw [hstays, if_pos hskip, Bool.not_false, Bool.and_true]
    refine hx.keeps rfl nofun fun d' k he ha => ?_
    cases he
    exact Nat.lt_of_not_le fun hle => hgo ⟨hx.active_iff.mpr ha, hle⟩

/-- A message from the other end. -/
theorem Proper.handleMessage (hx : Proper duo made s x st) {m : DebateMsg}
    (hm : Fair duo made s.other m)
    (hof : ∀ d, st = .hosting d ∨ st = .joined d → ∀ d' k, m.note = .turn d' k → d = d')
    (now : Nat) :
    Acts duo number made s x st b g (some m.note)
      (x.handleMessage (duo.callbacks s) m (duo.user s.other) now) (b && !x.takes m) g := by
  have hpass : ∀ m, x.takes m = false → (b && !x.takes m) = b := by
    intro m he
    rw [he, Bool.not_false, Bool.and_true]
  cases hm with
  | invite hd =>
    rw [hpass _ rfl]
    exact hx.handleInviteIncoming hd _
  | accept _ =>
    rw [hpass _ rfl]
    exact hx.handleAccept now
  | decline =>
    rw [hpass _ rfl]
    have hstill := @still_some .decline trivial
    simp only [DebateSession.handleMessage, DebateSession.handleDecline]
    split
    · exact hx.ignores hstill (List.forall_mem_nil _)
    · next hgo =>
      have hp : x.pending = some .out := by
        by_contra hno
        simp [hno] at hgo
      obtain ⟨d, -, ha, -⟩ := hx.inviting hp
      exact hx.clears ha (Finset.Subset.refl _) hstill (List.forall_mem_nil _)
  | cancel =>
    rw [hpass _ rfl]
    have hstill := @still_some .cancel trivial
    simp only [DebateSession.handleMessage]
    split
    · next hgo =>
      have hp : x.pending = some .incoming := by
        by_contra hno
        simp [hno] at hgo
      obtain ⟨d, -, ha, -⟩ := hx.invited hp
      exact hx.clears ha (Finset.Subset.refl _) hstill (List.forall_mem_nil _)
    · exact hx.ignores hstill (List.forall_mem_nil _)
  | @start d msg hi hd hh hf hp hs ht =>
    obtain ⟨hr, -, hturn⟩ :=
      applyStart_runs (x := x) (s := s) (t := s.other) hi hd hh hf hp hs ht now
    have hnote : (DebateMsg.start msg).note = .start d := by simp [DebateMsg.note, hi]
    have htaken : (b && !x.takes (.start msg)) = false := by simp [DebateSession.takes]
    rw [hnote, htaken]
    refine ⟨.joined d, applyStart_proper hi hd hh hf hp hs ht now fun hr => .joined hr hd,
      List.forall_mem_nil _, ?_⟩
    rw [show (x.handleMessage (duo.callbacks s) (.start msg) (duo.user s.other) now).1.turnIndex = 0
      from hturn]
    exact .join
  | @turn t d idx endsAt ms ht =>
    exact hx.applyTurn ht (fun d' hd => hof d' hd d idx rfl) idx endsAt ms now
  | ended =>
    rw [hpass _ rfl]
    have hstill := @still_some .over trivial
    simp only [DebateSession.handleMessage]
    split
    · exact Proper.endDebate false (Finset.Subset.refl _) hstill
    · exact hx.ignores hstill (List.forall_mem_nil _)

end Ruletka.Mobile
