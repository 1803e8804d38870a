/-
Two debate sessions in a call, over a whole run.

Beside the two sessions a run keeps what each user has agreed to and whether a
guest has run ahead of its host (`History`). In every state the two are two
parties of one handshake (`Together`). From it: they name the same speaker once
nothing is on its way, unless the guest has run ahead; and neither is in a
debate its user has not agreed to, unless the user took back an accept that the
other end still acts on.
-/
import Ruletka.Mobile.Proofs.DebateMoves

namespace Ruletka.Mobile

open Handshake

-- ==================================================================== what is recorded

/-- The debates a user has agreed to. -/
structure Consents where
  /-- the invites it has sent and neither cancelled nor let run out -/
  sent : Finset InviteId
  /-- the invites it has accepted, with no decline, end or reset since -/
  accepted : Finset InviteId

namespace Consents

def all (c : Consents) : Finset InviteId := c.sent ∪ c.accepted

/-- What its user says by a message. -/
def say (c : Consents) : DebateMsg → Consents
  | .invite d _ => { c with sent := insert d c.sent }
  | .accept d => { c with accepted := insert d c.accepted }
  | .cancel (some d) => { c with sent := c.sent.erase d }
  | _ => c

end Consents

/-- The user takes back what it has accepted: it ends or resets the session, or
declines the invite it is asked about. -/
def DuelEvent.refuses (e : DuelEvent) (x : DebateSession) : Bool :=
  match e with
  | .endDebate .. | .reset _ => true
  | .toggle _ => x.active
  | .decline _ => x.pending = some .incoming
  | _ => false

/-- A turn that moves and a message that comes are not the user's word. -/
def Consents.after (c : Consents) (e : DuelEvent) (x : DebateSession) (sent : List DebateMsg) :
    Consents :=
  match e with
  | .tick .. | .passTurn .. | .deliver .. => c
  | _ => sent.foldl say (if e.refuses x then { c with accepted := ∅ } else c)

structure History where
  consents : Side → Consents
  /-- a guest has moved the turn for itself since it last took a turn from its host -/
  ranAhead : Side → Bool

/-- The message an event takes. -/
def Duel.arriving (w : Duel) : DuelEvent → Option DebateMsg
  | .deliver s _ => (w.channel s.other).head?
  | _ => none

def Duel.ranAhead (w : Duel) (e : DuelEvent) (sent : DebateSession × List DebateMsg)
    (b : Bool) : Bool :=
  match e with
  | .tick s _ => b || drifts (w.session s) sent
  | .deliver s _ => b && !((w.arriving e).any (w.session s).takes)
  | _ => b

namespace History

def new : History := ⟨fun _ => ⟨∅, ∅⟩, fun _ => false⟩

def after (duo : Duo) (h : History) (w : Duel) (e : DuelEvent) (_ : Duel) : History :=
  match w.act duo e with
  | none => h
  | some r =>
      { consents := Function.update h.consents e.side
          ((h.consents e.side).after e (w.session e.side) r.2)
        ranAhead := Function.update h.ranAhead e.side (w.ranAhead e r (h.ranAhead e.side)) }

end History

/-- The runs of two sessions with what is recorded of them. -/
def debateRuns (duo : Duo) : Machine (Duel × History) DuelEvent :=
  (duelMachine duo).watch .new (History.after duo)

-- ========================================================================== consents

variable {duo : Duo} {w w' : Duel} {h : History} {e : DuelEvent} {s t : Side}
  {r : DebateSession × List DebateMsg} {st : Side → Stage InviteId} {c : Consents}
  {sent : List DebateMsg}

/-- A word that takes something back, of an own invite at most. -/
def Refusal (duo : Duo) (s : Side) (m : DebateMsg) : Prop :=
  (∃ i, m = .decline i) ∨ (∃ i, m = .ended i) ∨ ∃ d, m = .cancel (some d) ∧ duo.Own s d

/-- What is left of the consents after such words. -/
theorem Consents.refused (hs : ∀ m ∈ sent, Refusal duo s m) :
    (sent.foldl say c).all ⊆ c.all
      ∧ ∀ d ∈ c.all, d ∉ (sent.foldl say c).all → duo.Own s d := by
  induction sent generalizing c with
  | nil => exact ⟨Finset.Subset.refl _, fun d hd hno => absurd hd hno⟩
  | cons m sent ih =>
    obtain ⟨hsub, hown⟩ := ih (c := c.say m) fun m' hm' => hs m' (List.mem_cons_of_mem _ hm')
    rcases hs m List.mem_cons_self with ⟨i, rfl⟩ | ⟨i, rfl⟩ | ⟨d, rfl, hd⟩
    · exact ⟨hsub, hown⟩
    · exact ⟨hsub, hown⟩
    · refine ⟨fun d' hd' => ?_, fun d' hd' hno => ?_⟩
      · rcases Finset.mem_union.mp (hsub hd') with hm | hm
        · exact Finset.mem_union_left _ (Finset.mem_of_mem_erase hm)
        · exact Finset.mem_union_right _ hm
      · by_cases he : d' = d
        · rw [he]
          exact hd
        · refine hown d' ?_ hno
          rcases Finset.mem_union.mp hd' with hm | hm
          · exact Finset.mem_union_left _ (Finset.mem_erase.mpr ⟨he, hm⟩)
          · exact Finset.mem_union_right _ hm

/-- Taking back everything accepted. -/
theorem Consents.cleared (hs : ∀ m ∈ sent, Refusal duo s m) (b : Bool) :
    (sent.foldl say (if b then { c with accepted := ∅ } else c)).all ⊆ c.all := by
  refine (Consents.refused hs).1.trans ?_
  split
  · exact Finset.union_subset_union_right (Finset.empty_subset _)
  · exact Finset.Subset.refl _

variable {made : Side → Nat} {x : DebateSession} {stage : Stage InviteId}

theorem endDebate_refusal (notify : Bool) :
    ∀ m ∈ (x.endDebate (duo.callbacks s) notify).2, Refusal duo s m := by
  intro m hm
  unfold DebateSession.endDebate at hm
  dsimp only at hm
  split at hm
  · exact .inr (.inl ⟨_, List.mem_singleton.mp hm⟩)
  · cases hm

theorem inviteOrToggle_refusal (hx : Proper duo made s x stage) :
    ∀ m ∈ (x.inviteOrToggle (duo.callbacks s)).2, Refusal duo s m := by
  intro m hm
  unfold DebateSession.inviteOrToggle at hm
  split at hm
  · exact endDebate_refusal true m hm
  split at hm
  · next hp =>
    obtain ⟨d, -, -, hi, ho⟩ := hx.inviting hp
    rw [hi] at hm
    exact .inr (.inr ⟨d, List.mem_singleton.mp hm, ho⟩)
  · cases hm

theorem declineIncoming_refusal :
    ∀ m ∈ (x.declineIncoming (duo.callbacks s)).2, Refusal duo s m := by
  intro m hm
  unfold DebateSession.declineIncoming at hm
  split at hm
  · exact .inl ⟨_, List.mem_singleton.mp hm⟩
  · cases hm

theorem runInviteTimer_refusal (hx : Proper duo made s x stage) (timer : InviteTimer) :
    ∀ m ∈ (x.runInviteTimer (duo.callbacks s) timer).2, Refusal duo s m := by
  intro m hm
  unfold DebateSession.runInviteTimer DebateSession.clearInviteTimer at hm
  cases timer with
  | inviteTtl inviteId =>
    dsimp only at hm
    split at hm
    · next hgo =>
      have hgo : x.pending = some .out ∧ x.inviteId = some inviteId := by simpa using hgo
      obtain ⟨d, -, -, hi, ho⟩ := hx.inviting hgo.1
      cases hi.symm.trans hgo.2
      exact .inr (.inr ⟨inviteId, List.mem_singleton.mp hm, ho⟩)
    · cases hm
  | incomingTtl =>
    dsimp only at hm
    split at hm
    · exact .inl ⟨_, List.mem_singleton.mp hm⟩
    · cases hm
  | startTimeout =>
    dsimp only at hm
    split at hm <;> cases hm

-- ============================================================================ a step

/-- The invites made by the time an event is over. -/
def Duel.madeAfter (w : Duel) (e : DuelEvent) : Side → Nat :=
  match e with
  | .invite s _ => Function.update w.invites s (w.invites s + 1)
  | _ => w.invites

theorem Duel.le_madeAfter (w : Duel) (e : DuelEvent) (s : Side) :
    w.invites s ≤ w.madeAfter e s := by
  cases e with
  | invite t _ =>
    by_cases hst : s = t
    · rw [hst]
      simp [madeAfter]
    · simp [madeAfter, hst]
  | _ => exact le_rfl

/-- Every event is a move of the party it happens at. -/
theorem act_moves (hx : Proper duo w.invites e.side (w.session e.side) stage)
    (hm : ∀ m, w.arriving e = some m → Fair duo w.invites e.side.other m)
    (hof : ∀ d, stage = .hosting d ∨ stage = .joined d → ∀ m, w.arriving e = some m →
      ∀ d' k, m.note = .turn d' k → d = d') (b : Bool) (c : Consents)
    (hr : w.act duo e = some r) :
    Acts duo w.invites (w.madeAfter e) e.side (w.session e.side) stage b c.all
      ((w.arriving e).map DebateMsg.note) r (w.ranAhead e r b)
      (c.after e (w.session e.side) r.2).all := by
  replace hx := hx.mono (w.le_madeAfter e)
  cases e with
  | invite s turnSecs =>
    obtain rfl := Option.some.inj hr
    refine hx.sendInvite turnSecs rfl ⟨rfl, ?_⟩ (fun he => ?_) fun ms he => ?_
    · simp [Duel.madeAfter, DuelEvent.side]
    · simp only [DuelEvent.side] at he ⊢
      simp [Consents.after, he, DuelEvent.refuses]
    · simp only [DuelEvent.side] at he ⊢
      simp [Consents.after, he, DuelEvent.refuses, Consents.say, Consents.all]
  | toggle s =>
    obtain rfl := Option.some.inj hr
    refine hx.inviteOrToggle (Consents.cleared (inviteOrToggle_refusal hx) _) fun ha hp => ?_
    simp only [DuelEvent.side] at ha hp ⊢
    simp [Consents.after, DuelEvent.refuses, ha, DebateSession.inviteOrToggle, hp]
  | accept s =>
    obtain rfl := Option.some.inj hr
    refine hx.acceptIncoming (fun he => ?_) fun d he => ?_
    · simp only [DuelEvent.side] at he ⊢
      simp [Consents.after, he, DuelEvent.refuses]
    · simp only [DuelEvent.side] at he ⊢
      simp [Consents.after, he, DuelEvent.refuses, Consents.say, Consents.all]
  | decline s =>
    obtain rfl := Option.some.inj hr
    refine hx.declineIncoming (Consents.cleared declineIncoming_refusal _) fun hp => ?_
    simp only [DuelEvent.side] at hp ⊢
    simp [Consents.after, DuelEvent.refuses, DebateSession.declineIncoming, hp]
  | passTurn s now =>
    obtain rfl := Option.some.inj hr
    exact hx.passTurn now
  | endDebate s notify =>
    obtain rfl := Option.some.inj hr
    exact Proper.endDebate notify (Consents.cleared (endDebate_refusal notify) _) nofun
  | reset s =>
    obtain rfl := Option.some.inj hr
    have hs : ∀ m ∈ ((w.session s).endDebate (duo.callbacks s) false).2, Refusal duo s m :=
      endDebate_refusal false
    exact Proper.endDebate false (Consents.cleared hs _) nofun
  | tick s now =>
    have hr : (if (w.session s).ticks then
      some ((w.session s).tick (duo.callbacks s) now) else none) = some r := hr
    split at hr
    · obtain rfl := Option.some.inj hr
      exact hx.tick now
    · cases hr
  | timer s =>
    obtain ⟨timer, -, rfl⟩ := Option.map_eq_some_iff.mp hr
    refine hx.runInviteTimer timer (Consents.cleared (runInviteTimer_refusal hx timer) _)
      fun he => ?_
    simp only [DuelEvent.side] at he ⊢
    simp [Consents.after, he, DuelEvent.refuses]
  | deliver s now =>
    obtain ⟨m, hhead, rfl⟩ := Option.map_eq_some_iff.mp hr
    have harr : w.arriving (.deliver s now) = some m := hhead
    have hahead : ∀ r, w.ranAhead (.deliver s now) r b = (b && !(w.session s).takes m) := by
      intro r
      simp [Duel.ranAhead, harr]
    rw [hahead, harr]
    exact hx.handleMessage ((hm m harr).mono (w.le_madeAfter (.deliver s now)))
      (fun d hd => hof d hd m harr) now

/-- A session as a party of the handshake. -/
def Duel.party (w : Duel) (h : History) (st : Side → Stage InviteId) (s : Side) :
    Party InviteId :=
  ⟨st s, (w.session s).turnIndex, h.ranAhead s, (h.consents s).all⟩

/-- The words on their way from an end. -/
def Duel.notes (w : Duel) (s : Side) : List (Note InviteId) := (w.channel s).map DebateMsg.note

/-- The two sessions are in one handshake. -/
structure Together (duo : Duo) (w : Duel) (h : History) (st : Side → Stage InviteId) : Prop where
  proper : ∀ s, Proper duo w.invites s (w.session s) (st s)
  fair : ∀ s, ∀ m ∈ w.channel s, Fair duo w.invites s m
  link : ∀ s, Link (w.party h st s) (w.party h st s.other) (w.notes s) (w.notes s.other)

theorem Together.start : Together duo .fresh .new fun _ => .idle where
  proper _ := ⟨.idle rfl rfl, .inl rfl, .inl rfl, rfl⟩
  fair _ := nofun
  link _ := by
    refine ⟨nofun, nofun, nofun, nofun, nofun, nofun, nofun, nofun⟩

/-- A step, at the end it happens at and at the other. -/
structure Stepped (duo : Duo) (w : Duel) (h : History) (st : Side → Stage InviteId)
    (e : DuelEvent) (w' : Duel) (h' : History) (st' : Side → Stage InviteId)
    (n : Option (Note InviteId)) (sent : List (Note InviteId)) : Prop where
  move : Move (duo.Own e.side) (duo.Fresh w.invites e.side) (w.party h st e.side) n
    (w'.party h' st' e.side) sent
  other : w'.party h' st' e.side.other = w.party h st e.side.other
  out : w'.notes e.side = w.notes e.side ++ sent
  inn : w.notes e.side.other = n.toList ++ w'.notes e.side.other

/-- A new invite is known nowhere. -/
theorem Together.fresh (ht : Together duo w h st) {d : InviteId}
    (hd : duo.Fresh w.invites s d) :
    .invite d ∉ w.notes s ∧ .accept d ∉ w.notes s.other ∧ st s.other ≠ .invited d := by
  have hunmade : ¬ duo.Made w.invites s d := by
    rintro ⟨-, hlt⟩
    rw [hd] at hlt
    exact lt_irrefl _ hlt
  refine ⟨fun hm => ?_, fun hm => ?_, fun hs => ?_⟩
  · obtain ⟨m, hm, he⟩ := List.mem_map.mp hm
    cases ht.fair s m hm with
    | invite hd' =>
      cases he
      exact hunmade hd'
    | @start d' msg hi => simp [DebateMsg.note, hi] at he
    | _ => cases he
  · obtain ⟨m, hm, he⟩ := List.mem_map.mp hm
    cases ht.fair s.other m hm with
    | accept hd' =>
      cases he
      rw [Side.other_other] at hd'
      exact hunmade hd'
    | @start d' msg hi => simp [DebateMsg.note, hi] at he
    | _ => cases he
  · have hstands := (ht.proper s.other).stands
    rw [hs] at hstands
    cases hstands with
    | invited _ _ _ hd' =>
      rw [Side.other_other] at hd'
      exact hunmade hd'

/-- The turn that comes is of the debate the session is in. -/
theorem Together.of_running (ht : Together duo w h st) {d d' : InviteId} {k : Nat}
    {rest : List DebateMsg} {m : DebateMsg} (hc : w.channel s.other = m :: rest)
    (hm : m.note = .turn d' k) (hd : st s = .hosting d ∨ st s = .joined d) : d = d' := by
  have hmem : Note.turn d' k ∈ w.notes s.other := by
    unfold Duel.notes
    rw [hc, ← hm]
    exact List.mem_cons_self
  rcases hd with hd | hd
  · exact ((((ht.link s).hosting d hd).1 _ hmem : (Note.turn d' k).Of d)).symm
  · have hlink := ht.link s.other
    rw [Side.other_other] at hlink
    exact (((hlink.joined d hd).1 _ hmem : (Note.turn d' k).Of d)).symm

/-- What an event leaves in the channels. -/
theorem step_channels (hs : w.step duo e = some w') (hr : w.act duo e = some r) :
    w'.session = Function.update w.session e.side r.1 ∧ w'.invites = w.madeAfter e
      ∧ w'.channel e.side = w.channel e.side ++ r.2
      ∧ w.channel e.side.other = (w.arriving e).toList ++ w'.channel e.side.other := by
  unfold Duel.step at hs
  rw [hr] at hs
  obtain rfl := Option.some.inj hs
  refine ⟨rfl, ?_, if_pos rfl, ?_⟩
  · cases e <;> rfl
  · cases e with
    | deliver s now =>
      have hne : s.other ≠ s := Side.other_ne s
      simp only [DuelEvent.side, Duel.arriving, hne, if_false]
      cases w.channel s.other <;> rfl
    | _ => exact (if_neg (Side.other_ne _)).symm

/-- A step of the two sessions is a move of one party. -/
theorem Together.stepped (ht : Together duo w h st) (hs : w.step duo e = some w') :
    ∃ stage n sent, Stepped duo w h st e w' (h.after duo w e w')
        (Function.update st e.side stage) n sent
      ∧ (∀ s, Proper duo w'.invites s (w'.session s) (Function.update st e.side stage s))
      ∧ ∀ s, ∀ m ∈ w'.channel s, Fair duo w'.invites s m := by
  obtain ⟨r, hr, -⟩ := Option.map_eq_some_iff.mp hs
  obtain ⟨hses, hinv, hout, hinn⟩ := step_channels hs hr
  have hle : ∀ s, w.invites s ≤ w'.invites s := by
    rw [hinv]
    exact w.le_madeAfter e
  have hhead : ∀ m, w.arriving e = some m →
      w.channel e.side.other = m :: w'.channel e.side.other := by
    intro m he
    rw [hinn, he]
    rfl
  obtain ⟨stage, hproper, hfair, hmove⟩ := act_moves (ht.proper e.side)
    (fun m he => ht.fair e.side.other m (by rw [hhead m he]; exact List.mem_cons_self))
    (fun d hd m he d' k hm => ht.of_running (hhead m he) hm hd)
    (h.ranAhead e.side) (h.consents e.side) hr
  have hself : (h.after duo w e w').consents e.side
        = (h.consents e.side).after e (w.session e.side) r.2
      ∧ (h.after duo w e w').ranAhead e.side = w.ranAhead e r (h.ranAhead e.side) := by
    simp [History.after, hr]
  have hother : (h.after duo w e w').consents e.side.other = h.consents e.side.other
      ∧ (h.after duo w e w').ranAhead e.side.other = h.ranAhead e.side.other := by
    simp [History.after, hr, Side.other_ne]
  refine ⟨stage, (w.arriving e).map DebateMsg.note, r.2.map DebateMsg.note, ⟨?_, ?_, ?_, ?_⟩,
    fun s => ?_, fun s m hm => ?_⟩
  · simpa only [Duel.party, hses, Function.update_self, hself] using hmove
  · simp only [Duel.party, hses, hother, Function.update_of_ne (Side.other_ne e.side)]
  · simp only [Duel.notes, hout, List.map_append]
  · simp only [Duel.notes, hinn, List.map_append]
    cases w.arriving e <;> rfl
  · rw [hses, hinv]
    rcases Side.eq_or_other e.side s with rfl | rfl
    · simpa only [Function.update_self] using hproper
    · simpa only [Function.update_of_ne (Side.other_ne e.side)] using
        (ht.proper e.side.other).mono (w.le_madeAfter e)
  · rcases Side.eq_or_other e.side s with rfl | rfl
    · rw [hout] at hm
      rcases List.mem_append.mp hm with hm | hm
      · exact (ht.fair e.side m hm).mono hle
      · rw [hinv]
        exact hfair m hm
    · refine (ht.fair e.side.other m ?_).mono hle
      rw [hinn]
      exact List.mem_append_right _ hm

/-- The bond of the end where an event happens. -/
theorem Together.bond (ht : Together duo w h st) (s : Side) :
    Bond (w.party h st s) (w.party h st s.other) (w.notes s) (w.notes s.other) := by
  have hback := ht.link s.other
  rw [Side.other_other] at hback
  exact ⟨ht.link s, hback⟩

/-- A new invite is known nowhere after the step either. -/
theorem Stepped.unknown {h' : History} {st' : Side → Stage InviteId}
    {n : Option (Note InviteId)} {sent : List (Note InviteId)}
    (hs : Stepped duo w h st e w' h' st' n sent) (ht : Together duo w h st) {d : InviteId}
    (hd : duo.Fresh w.invites e.side d) :
    .invite d ∉ w.notes e.side ∧ .accept d ∉ w'.notes e.side.other
      ∧ st e.side.other ≠ .invited d := by
  obtain ⟨h₁, h₂, h₃⟩ := ht.fresh hd
  refine ⟨h₁, fun hm => h₂ ?_, h₃⟩
  rw [hs.inn]
  exact List.mem_append_right _ hm

theorem Together.step (ht : Together duo w h st) (hs : w.step duo e = some w') :
    ∃ st' n sent, Stepped duo w h st e w' (h.after duo w e w') st' n sent
      ∧ Together duo w' (h.after duo w e w') st' := by
  obtain ⟨stage, n, sent, hstep, hproper, hfair⟩ := ht.stepped hs
  have hbond := ht.bond e.side
  rw [hstep.inn] at hbond
  obtain ⟨hl, hr⟩ := hstep.move.bond hbond fun d hd => hstep.unknown ht hd
  rw [← hstep.out, ← hstep.other] at hl hr
  refine ⟨_, n, sent, hstep, hproper, hfair, fun s => ?_⟩
  rcases Side.eq_or_other e.side s with rfl | rfl
  · exact hl
  · rw [Side.other_other]
    exact hr

/-- Two sessions in a call are in one handshake, through any events. -/
theorem together_reach {p : Duel × History} (hp : (debateRuns duo).Reach p) :
    ∃ st, Together duo p.1 p.2 st := by
  refine hp.invariant (I := fun p => ∃ st, Together duo p.1 p.2 st) ?_ ?_
  · rintro ⟨w, h⟩ ⟨rfl, rfl⟩
    exact ⟨_, .start⟩
  · rintro ⟨w, h⟩ e ⟨w', h'⟩ - ⟨st, ht⟩ ⟨hs, hh⟩
    obtain rfl : h' = h.after duo w e w' := hh
    obtain ⟨st', n, sent, -, ht'⟩ := ht.step hs
    exact ⟨st', ht'⟩

-- ======================================================================= the speaker

/-- A guest that has not run ahead of its host. -/
def KeepsPace (duo : Duo) (w : Duel) (h : History) (s : Side) : Prop :=
  (w.session s).isHost (duo.callbacks s) = false → h.ranAhead s = false

/-- What the two sessions of a running debate agree on. -/
structure Agree (duo : Duo) (w : Duel) (h : History) : Prop where
  /-- with nothing on its way, the speaker, the turn and the one open microphone -/
  settled : (∀ s, (w.session s).active = true) → (∀ s, w.channel s = []) →
    (∀ s, KeepsPace duo w h s) →
      (w.session .left).speakerId = (w.session .right).speakerId
      ∧ (w.session .left).turnIndex = (w.session .right).turnIndex
      ∧ (w.session .left).micLocked = !(w.session .right).micLocked
  /-- the turn of a host is taken by its guest -/
  taken : ∀ s speaker idx endsAt ms inviteId rest,
    w.channel s.other = .turn speaker idx endsAt ms inviteId :: rest →
    (w.session s).active = true → (w.session s).isHost (duo.callbacks s) = false →
    KeepsPace duo w h s → ∀ now,
      let x := ((w.session s).handleMessage (duo.callbacks s)
        (.turn speaker idx endsAt ms inviteId) (duo.user s.other) now).1
      x.speakerId = speaker ∧ x.turnIndex = idx

/-- The stage of a session that runs a debate, by who made the invite. -/
theorem Together.running (ht : Together duo w h st) (ha : (w.session s).active = true) :
    ∃ d, Runs duo (w.session s) d
      ∧ (((w.session s).isHost (duo.callbacks s) = true ∧ st s = .hosting d ∧ duo.Own s d)
        ∨ ((w.session s).isHost (duo.callbacks s) = false ∧ st s = .joined d
          ∧ duo.Own s.other d)) := by
  obtain ⟨d, hr, hd⟩ := (ht.proper s).runs ha
  refine ⟨d, hr, ?_⟩
  rcases hd with ⟨hs, ho⟩ | ⟨hs, ho⟩
  · exact .inl ⟨by simp [hr.isHost ho], hs, ho⟩
  · exact .inr ⟨by simp [hr.isHost ho, Side.other_ne], hs, ho⟩

/-- A host and its guest with nothing between them. -/
theorem Together.same (ht : Together duo w h st) {d : InviteId} (hc : ∀ s, w.channel s = [])
    (hp : st s = .hosting d) (hq : st s.other = .joined d) (ha : h.ranAhead s.other = false) :
    (w.session s).speakerId = (w.session s.other).speakerId
      ∧ (w.session s).turnIndex = (w.session s.other).turnIndex
      ∧ (w.session s).micLocked = !(w.session s.other).micLocked := by
  have hlink := ht.link s
  simp only [Duel.notes, hc, List.map_nil] at hlink
  have hturn : (w.session s).turnIndex = (w.session s.other).turnIndex := hlink.same_turn hp hq ha
  have hs := (ht.proper s).stands
  have ho := (ht.proper s.other).stands
  rw [hp] at hs
  rw [hq] at ho
  cases hs with
  | hosting hr hown =>
  cases ho with
  | joined hr' _ =>
  have hspeaker : (w.session s).speakerId = (w.session s.other).speakerId := by
    rw [hr.speaker, hr'.speaker, hturn]
  refine ⟨hspeaker, hturn, ?_⟩
  rw [(ht.proper s).mic, (ht.proper s.other).mic, hr.active, hr'.active, hr.iAmSpeaker hown,
    hr'.iAmSpeaker hown, hturn]
  have hne : s ≠ s.other := (Side.other_ne s).symm
  by_cases heven : (w.session s.other).turnIndex % 2 = 0 <;> simp [heven, hne, hne.symm]

theorem Together.agree (ht : Together duo w h st) : Agree duo w h := by
  refine ⟨fun ha hc hk => ?_, fun s speaker idx endsAt ms inviteId rest hc ha hg hk now => ?_⟩
  · have hbond := ht.bond .left
    simp only [Duel.notes, hc, List.map_nil] at hbond
    have hl : (st .left).Active := (ht.proper .left).active_iff.mp (ha .left)
    have hr : (st .right).Active := (ht.proper .right).active_iff.mp (ha .right)
    have hguest : ∀ {s d}, st s = .joined d → h.ranAhead s = false := by
      intro s d hs
      obtain ⟨d', -, ⟨-, hs', -⟩ | ⟨hg, -⟩⟩ := ht.running (ha s)
      · cases hs.symm.trans hs'
      · exact hk s hg
    obtain ⟨d, ⟨hp, hq⟩ | ⟨hp, hq⟩⟩ := hbond.meet hl hr
    · exact ht.same (s := .left) hc hp hq (hguest hq)
    · obtain ⟨h₁, h₂, h₃⟩ := ht.same (s := .right) hc hq hp (hguest hp)
      refine ⟨h₁.symm, h₂.symm, ?_⟩
      rw [h₃, Bool.not_not]
      rfl
  · obtain ⟨d, hr, ⟨hh, -⟩ | ⟨-, hs, ho⟩⟩ := ht.running ha
    · rw [hg] at hh
      cases hh
    have hfair := ht.fair s.other _ (by rw [hc]; exact List.mem_cons_self)
    cases hfair with
    | @turn t d' _ _ _ hown =>
    have hlink := ht.link s.other
    rw [Side.other_other] at hlink
    have hnotes : w.notes s.other = .turn d' idx :: rest.map DebateMsg.note := by
      unfold Duel.notes
      rw [hc]
      rfl
    rw [hnotes] at hlink
    obtain ⟨rfl, hle⟩ := hlink.no_stale hs (hk hg)
    have hle : (w.session s).turnIndex ≤ idx := hle
    have hknown : duo.speaker d' idx ≠ "" := by
      rw [Duo.speaker_eq hown]
      exact duo.known _
    simp [DebateSession.handleMessage, DebateSession.applyTurn, ha, hknown, Nat.not_lt.mpr hle,
      DebateSession.emit]

/-- In every run of two sessions, whenever both are in a debate and nothing is on
its way, they name the same speaker and the same turn and one microphone is open,
and a guest takes every turn of its host: as long as the guest has not moved the
turn for itself since it last took one. -/
theorem debate_peers_agree {duo : Duo} {p : Duel × History} (hp : (debateRuns duo).Reach p) :
    Agree duo p.1 p.2 := by
  obtain ⟨st, ht⟩ := together_reach hp
  exact ht.agree

-- ---------------------------------------------------------------- a pair of users

/-- Two users. -/
def pair : Duo where
  user
    | .left => "ada"
    | .right => "bob"
  known s := by cases s <;> decide
  distinct := by decide

/-- The time an event reads. -/
def DuelEvent.time : DuelEvent → Option Nat
  | .passTurn _ now | .tick _ now | .deliver _ now => some now
  | _ => none

/-- An invite of fifteen seconds a turn is accepted, and both are in the debate. -/
def opening : List DuelEvent :=
  [.invite .left 15, .deliver .right 0, .accept .right, .deliver .left 0, .deliver .right 0]

theorem debateRuns_next (p : Duel × History) (e : DuelEvent) (p' : Duel × History)
    (h : Machine.watchNext (Duel.step pair) (History.after pair) p e = some p') :
    (debateRuns pair).step p e p' :=
  Machine.watchNext_step (fun _ _ _ hs => hs) p e p' h

/-- After the first turn the two agree that the guest speaks. -/
theorem debate_peers_agree_first_turn : ∃ p : Duel × History, (debateRuns pair).Reach p
    ∧ (p.1.session .left).active = true ∧ (p.1.session .right).speakerId = "bob"
    ∧ Agree pair p.1 p.2 := by
  obtain ⟨p, hp, hw⟩ := @Machine.exists_reach _ _ (debateRuns pair) _ debateRuns_next
    (.fresh, .new) ⟨rfl, rfl⟩ (opening ++ [.tick .left 15000, .deliver .right 15010])
    (fun p => (p.1.session .left).active && (p.1.session .right).speakerId = "bob")
    (by decide +kernel)
  obtain ⟨hl, hr⟩ := Bool.and_eq_true_iff.mp hw
  exact ⟨p, hp, hl, by simpa using hr, debate_peers_agree hp⟩

/-- The clock of the host runs late, and the guest moves the turn twice by then. -/
def lateHost : List DuelEvent :=
  opening ++ [.tick .right 15900, .tick .right 31800, .tick .left 31800]

/-- The host's turn then comes to a guest that is past it and is ignored: nothing is
on its way, the two name different speakers, and both microphones are locked. -/
theorem late_turn_is_ignored :
    ((lateHost ++ [DuelEvent.deliver .right 31800]).filterMap DuelEvent.time).Pairwise (· ≤ ·)
    ∧ ∃ w w' : Duel, (duelMachine pair).Reach w ∧ w.step pair (.deliver .right 31800) = some w'
      ∧ (∃ endsAt ms i, w.channel .left = [.turn "bob" 1 endsAt ms i])
      ∧ (w'.session .left).active = true ∧ (w'.session .right).active = true
      ∧ w'.channel .left = [] ∧ w'.channel .right = []
      ∧ (w'.session .left).turnIndex = 1 ∧ (w'.session .right).turnIndex = 2
      ∧ (w'.session .left).speakerId = "bob" ∧ (w'.session .right).speakerId = "ada"
      ∧ (w'.session .left).micLocked = true ∧ (w'.session .right).micLocked = true := by
  refine ⟨by decide, ?_⟩
  obtain ⟨w, hw, hp⟩ := @Machine.exists_reach _ _ (duelMachine pair) (Duel.step pair)
    (fun _ _ _ hs => hs) .fresh rfl lateHost
    (fun w => (w.channel .left = [.turn "bob" 1 46800 15000 (some ⟨"ada", 0⟩)])
      && (w.step pair (.deliver .right 31800)).any fun w' =>
        (w'.session .left).active = true ∧ (w'.session .right).active = true
        ∧ w'.channel .left = [] ∧ w'.channel .right = []
        ∧ (w'.session .left).turnIndex = 1 ∧ (w'.session .right).turnIndex = 2
        ∧ (w'.session .left).speakerId = "bob" ∧ (w'.session .right).speakerId = "ada"
        ∧ (w'.session .left).micLocked = true ∧ (w'.session .right).micLocked = true)
    (by decide +kernel)
  obtain ⟨hc, hs⟩ := Bool.and_eq_true_iff.mp hp
  obtain ⟨w', hw', hrest⟩ := (Option.any_eq_true _ _).mp hs
  exact ⟨w, w', hw, hw', ⟨_, _, _, by simpa using hc⟩, by simpa using hrest⟩

-- ========================================================================== consent

def DebateMsg.starts : DebateMsg → Bool
  | .start _ => true
  | _ => false

/-- Nothing comes to the end that would put its user in a debate: no start is on its
way, nor an accept of the invite that the other end still has out. -/
def Duel.Settled (w : Duel) (s : Side) : Prop :=
  (∀ m ∈ w.channel s.other, m.starts = false)
    ∧ ((w.session s.other).pending = some .out →
        ∀ m ∈ w.channel s, (w.session s.other).inviteId.map .accept ≠ some m)

/-- Nobody takes back what is already acted on. -/
def Duel.Heeded (w : Duel) : DuelEvent → Prop
  | .decline s | .endDebate s _ | .reset s => w.Settled s
  | _ => True

instance (w : Duel) (s : Side) : Decidable (w.Settled s) := inferInstanceAs (Decidable (_ ∧ _))

instance (w : Duel) : DecidablePred w.Heeded
  | .decline s | .endDebate s _ | .reset s => inferInstanceAs (Decidable (w.Settled s))
  | .invite .. | .toggle _ | .accept _ | .passTurn .. | .tick .. | .timer _ | .deliver .. =>
      isTrue trivial

/-- A session is in a debate, or its microphone locked, only by an invite that its
user has sent and not cancelled, or accepted and not refused since. -/
def Consenting (w : Duel) (h : History) : Prop :=
  ∀ s, (w.session s).active = true ∨ (w.session s).micLocked = true →
    ∃ d, (w.session s).inviteId = some d
      ∧ (d ∈ (h.consents s).sent ∨ d ∈ (h.consents s).accepted)

/-- Both parties have agreed to what they may be in. -/
def AllConsent (duo : Duo) (w : Duel) (h : History) (st : Side → Stage InviteId) : Prop :=
  ∀ s, Consent (duo.Own s) (duo.Own s.other) (w.party h st s) (w.party h st s.other)
    (w.notes s) (w.notes s.other)

theorem Duo.own_disjoint {d : InviteId} (h : duo.Own s d) (h' : duo.Own s.other d) : False := by
  have hu : duo.user s = duo.user s.other := h.symm.trans h'
  rw [Duo.user_inj] at hu
  exact Side.other_ne s hu.symm

theorem Together.inviting (ht : Together duo w h st) {d : InviteId} (hs : st s = .inviting d) :
    duo.Own s d ∧ (w.session s).pending = some .out ∧ (w.session s).inviteId = some d := by
  have hstands := (ht.proper s).stands
  rw [hs] at hstands
  cases hstands with
  | inviting _ hp hi ho => exact ⟨ho, hp, hi⟩

/-- What comes to a settled end starts nothing. -/
theorem Together.settled (ht : Together duo w h st) (hw : w.Settled s) (d : InviteId) :
    .start d ∉ w.notes s.other ∧ (.accept d ∈ w.notes s → st s.other ≠ .inviting d) := by
  refine ⟨fun hm => ?_, fun hm hs => ?_⟩
  · obtain ⟨m, hm, he⟩ := List.mem_map.mp hm
    have hno := hw.1 m hm
    cases ht.fair s.other m hm with
    | start _ => cases hno
    | _ => cases he
  · obtain ⟨-, hp, hi⟩ := ht.inviting hs
    obtain ⟨m, hm, he⟩ := List.mem_map.mp hm
    refine hw.2 hp m hm ?_
    rw [hi]
    cases ht.fair s m hm with
    | accept _ =>
      cases he
      rfl
    | @start d' msg hi => simp [DebateMsg.note, hi] at he
    | _ => cases he

/-- An end that is in a debate is settled. -/
theorem Together.settled_active (ht : Together duo w h st) (ha : (w.session s).active = true)
    (d : InviteId) :
    .start d ∉ w.notes s.other ∧ (.accept d ∈ w.notes s → st s.other ≠ .inviting d) := by
  have hact : (w.party h st s).stage.Active := (ht.proper s).active_iff.mp ha
  have hback := (ht.bond s).2
  exact ⟨fun hm => (hback.start d hm).1 hact, fun hm hs => (hback.accept d hs hm).2.1 hact⟩

/-- Who invites or accepts takes nothing back. -/
theorem sendInvite_keeps {x : DebateSession} (cb : DebateCallbacks) (turnSecs : Nat)
    (d : InviteId) : c.all ⊆ ((x.sendInviteFromCompose cb turnSecs d).2.foldl Consents.say c).all := by
  unfold DebateSession.sendInviteFromCompose
  split
  · exact Finset.Subset.refl _
  · exact Finset.union_subset_union_left (Finset.subset_insert _ _)

theorem acceptIncoming_keeps {x : DebateSession} (cb : DebateCallbacks) :
    c.all ⊆ ((x.acceptIncoming cb).2.foldl Consents.say c).all := by
  unfold DebateSession.acceptIncoming
  split
  · exact Finset.union_subset_union_right (Finset.subset_insert _ _)
  · exact Finset.Subset.refl _

/-- What a user takes back is an invite of its own, or nothing comes of it. -/
theorem Together.takesBack (ht : Together duo w h st) (hr : w.act duo e = some r)
    (hw : w.Heeded e) (d : InviteId) (hd : d ∈ (h.consents e.side).all)
    (hno : d ∉ ((h.consents e.side).after e (w.session e.side) r.2).all) :
    duo.Own e.side d ∨ .start d ∉ w.notes e.side.other
      ∧ (.accept d ∈ w.notes e.side → st e.side.other ≠ .inviting d) := by
  cases e with
  | tick s now | passTurn s now | deliver s now => exact absurd hd hno
  | decline s | endDebate s notify | reset s => exact .inr (ht.settled hw d)
  | toggle s =>
    by_cases ha : (w.session s).active
    · exact .inr (ht.settled_active ha d)
    · obtain rfl := Option.some.inj hr
      simp only [Consents.after, DuelEvent.refuses, DuelEvent.side, ha] at hno
      exact .inl ((Consents.refused (inviteOrToggle_refusal (ht.proper s))).2 d hd hno)
  | timer s =>
    obtain ⟨timer, -, rfl⟩ := Option.map_eq_some_iff.mp hr
    exact .inl ((Consents.refused (runInviteTimer_refusal (ht.proper s) timer)).2 d hd hno)
  | invite s turnSecs =>
    obtain rfl := Option.some.inj hr
    exact absurd (sendInvite_keeps _ turnSecs _ hd) hno
  | accept s =>
    obtain rfl := Option.some.inj hr
    exact absurd (acceptIncoming_keeps _ hd) hno

theorem AllConsent.step (hc : AllConsent duo w h st) (ht : Together duo w h st)
    (hs : w.step duo e = some w') (hw : w.Heeded e) :
    ∃ st', Together duo w' (h.after duo w e w') st'
      ∧ AllConsent duo w' (h.after duo w e w') st' := by
  obtain ⟨st', n, sent, hstep, ht'⟩ := ht.step hs
  obtain ⟨r, hr, -⟩ := Option.map_eq_some_iff.mp hs
  have hown : ∀ d, duo.Own e.side d → duo.Own e.side.other d → False :=
    fun d h₁ h₂ => Duo.own_disjoint h₁ h₂
  have hback : TakesBack (duo.Own e.side) (w.party h st e.side) (w.party h st e.side.other)
      (w'.party (h.after duo w e w') st' e.side) (w.notes e.side) (w'.notes e.side.other) := by
    intro d hd hno
    have hself : (h.after duo w e w').consents e.side
        = (h.consents e.side).after e (w.session e.side) r.2 := by simp [History.after, hr]
    simp only [Duel.party, hself] at hno
    refine (ht.takesBack hr hw d hd hno).imp id fun ⟨hstart, haccept⟩ => ⟨fun hm => hstart ?_, haccept⟩
    rw [hstep.inn]
    exact List.mem_append_right _ hm
  have hfrom := hc e.side
  rw [hstep.inn] at hfrom
  have hself := hstep.move.consent hfrom hown (fun d hd => (ht.inviting hd).1) hback
  have hto := hc e.side.other
  rw [Side.other_other, hstep.inn] at hto
  have hother := hstep.move.other_consent hto (fun d hd => (ht.inviting hd).1)
    fun d hd => (hstep.unknown ht hd).2.1
  rw [← hstep.out, ← hstep.other] at hself hother
  refine ⟨st', ht', fun s => ?_⟩
  rcases Side.eq_or_other e.side s with rfl | rfl
  · exact hself
  · rw [Side.other_other]
    exact hother

theorem AllConsent.consenting (hc : AllConsent duo w h st) (ht : Together duo w h st) :
    Consenting w h := by
  intro s hs
  have ha : (w.session s).active = true := by
    refine hs.elim id fun hm => ?_
    rw [(ht.proper s).mic] at hm
    exact (Bool.and_eq_true_iff.mp hm).1
  obtain ⟨d, hr, hd⟩ := ht.running ha
  refine ⟨d, hr.inviteId, Finset.mem_union.mp ((hc s).active d ?_)⟩
  exact hd.imp (fun h => h.2.1) fun h => h.2.1

/-- In every run in which no user declines, ends or resets while a start is on its
way to it, or its accept of the invite that the other end still has out, a session
is in a debate only by an invite its user has sent and not cancelled, or accepted
and not refused since, and so is a microphone locked. -/
theorem debate_consent {duo : Duo} {p : Duel × History}
    (hp : ((debateRuns duo).guard fun p e => p.1.Heeded e).Reach p) : Consenting p.1 p.2 := by
  have hinv : ∃ st, Together duo p.1 p.2 st ∧ AllConsent duo p.1 p.2 st := by
    refine hp.invariant
      (I := fun p => ∃ st, Together duo p.1 p.2 st ∧ AllConsent duo p.1 p.2 st) ?_ ?_
    · rintro ⟨w, h⟩ ⟨rfl, rfl⟩
      refine ⟨_, .start, fun s => ⟨fun d hd => ?_, nofun, nofun, nofun⟩⟩
      exact (hd.elim nofun nofun : False).elim
    · rintro ⟨w, h⟩ e ⟨w', h'⟩ - ⟨st, ht, hc⟩ ⟨hw, hs, hh⟩
      obtain rfl : h' = h.after duo w e w' := hh
      exact hc.step ht hs hw
  obtain ⟨st, ht, hc⟩ := hinv
  exact hc.consenting ht

/-- Both users are in the debate that the one declined at first. -/
theorem debate_consent_second_invite : ∃ p : Duel × History,
    ((debateRuns pair).guard fun p e => p.1.Heeded e).Reach p
      ∧ (p.1.session .right).active = true ∧ Consenting p.1 p.2 := by
  obtain ⟨p, hp, ha⟩ := @Machine.exists_reach _ _ ((debateRuns pair).guard _) _
    (Machine.guardNext_step (C := fun p e => p.1.Heeded e) debateRuns_next)
    (.fresh, .new) ⟨rfl, rfl⟩
    ([.invite .left 30, .deliver .right 0, .decline .right, .deliver .left 0] ++ opening)
    (fun p => (p.1.session .right).active) (by decide +kernel)
  exact ⟨p, hp, ha, debate_consent hp⟩

/-- A user accepts and then declines, before the start is there. -/
def lateDecline : List DuelEvent :=
  [.invite .left 30, .deliver .right 0, .accept .right, .decline .right, .deliver .left 0,
    .deliver .right 0]

/-- The start puts it in the debate it has declined, with its microphone locked. -/
theorem declined_debate_starts : ∃ p : Duel × History, (debateRuns pair).Reach p
    ∧ (p.1.session .right).active = true ∧ (p.1.session .right).micLocked = true
    ∧ ¬ Consenting p.1 p.2 := by
  obtain ⟨p, hp, hw⟩ := @Machine.exists_reach _ _ (debateRuns pair) _ debateRuns_next
    (.fresh, .new) ⟨rfl, rfl⟩ lateDecline
    (fun p => (p.1.session .right).active && (p.1.session .right).micLocked
      && decide ((p.2.consents .right).sent = ∅ ∧ (p.2.consents .right).accepted = ∅))
    (by decide +kernel)
  simp only [Bool.and_eq_true, decide_eq_true_eq] at hw
  obtain ⟨⟨ha, hm⟩, hs, hc⟩ := hw
  refine ⟨p, hp, ha, hm, fun hno => ?_⟩
  obtain ⟨d, -, hd⟩ := hno .right (.inl ha)
  rw [hs, hc] at hd
  simp at hd

end Ruletka.Mobile
