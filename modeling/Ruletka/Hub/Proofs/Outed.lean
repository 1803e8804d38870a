/-
Taking one connection out of the lobby.

A ban takes its target out of the queue and out of its match, and lets some
others go with it. Who is let go loses every pointer it had; its party mate
searches with it. While that goes on, the target is out, whoever still holds
it is to be let go, and all that matters is `Settled`: party mates have each
other, and who waits has a slot.
-/
import Ruletka.Hub.Proofs.Lobby

namespace Ruletka

namespace Lobby

variable {L L' : Lobby}

-- ================================================================= vocabulary

/-- `y` has `t` as a session peer or as its partner. -/
def Holds (L : Lobby) (y t : ConnId) : Prop := t ∈ L.peersOf y ∨ L.partnerOf y = some t

instance (L : Lobby) (y t : ConnId) : Decidable (L.Holds y t) :=
  inferInstanceAs (Decidable (_ ∨ _))

/-- The connection has a queue slot. -/
def Slotted (L : Lobby) (p : ConnId) : Prop := ∃ e ∈ L.queue, p ∈ queueEntryIds e

/-- A stranger `t` is in a match with. -/
def Stranger (L : Lobby) (t p : ConnId) : Prop :=
  p ≠ t ∧ (p ∈ L.peersOf t ∨ L.partnerOf t = some p) ∧ L.friendCallOf t ≠ some p
    ∧ L.partyWithOf t ≠ some p

/-- The slot of a party. -/
def partySlot (a b : ConnId) : QueueEntry := if a < b then .party a b else .party b a

theorem partySlot_comm {a b : ConnId} (hab : a ≠ b) : partySlot a b = partySlot b a := by
  unfold partySlot
  rcases Nat.lt_or_gt_of_ne hab with h | h
  · rw [if_pos h, if_neg h.le.not_gt]
  · rw [if_neg h.le.not_gt, if_pos h]

theorem mem_partySlot {a b y : ConnId} : y ∈ queueEntryIds (partySlot a b) ↔ y = a ∨ y = b := by
  unfold partySlot
  split
  · simp [queueEntryIds]
  · simp [queueEntryIds, or_comm]

/-- A party mate has it as mate too, and when it waits it has a slot, alone
or with its waiting mate. -/
structure Settled (L : Lobby) (p : ConnId) : Prop where
  mates : ∀ m ∈ L.partyWithOf p, m ≠ p ∧ L.partyWithOf m = some p
  slotted : L.phaseOf p = some .waiting → .solo p ∈ L.queue
    ∨ ∃ m ∈ L.partyWithOf p, L.phaseOf m = some .waiting ∧ partySlot p m ∈ L.queue

/-- The banned connection `t` is out, and the strangers it was in a match
with are idle, in the queue, or in a session without it. -/
structure TakenOut (L L' : Lobby) (t : ConnId) : Prop where
  unqueued : ∀ e ∈ L'.queue, t ∉ queueEntryIds e
  alone : L'.peersOf t = ∅ ∧ L'.partnerOf t = none ∧ L'.friendCallOf t = none
    ∧ L'.partyWithOf t = none
  unheld : ∀ y, y ≠ t → ¬ L'.Holds y t
  strangers : ∀ p, L.Stranger t p → L'.has p = true →
    L'.phaseOf p = some .idle ∨ (L'.phaseOf p = some .waiting ∧ L'.Slotted p)
      ∨ ((L'.phaseOf p = some .matched ∨ L'.phaseOf p = some .friendCall) ∧ ¬ L'.Holds p t)

/-- On the way: `t` is out, who still holds it is to be let go, and some
connections are settled. -/
structure Leaving (L : Lobby) (t : ConnId) (lets : ConnId → Option Seat → Prop)
    (C : ConnId → Prop) : Prop where
  unqueued : ∀ e ∈ L.queue, t ∉ queueEntryIds e
  alone : L.peersOf t = ∅ ∧ L.partnerOf t = none ∧ L.friendCallOf t = none
    ∧ L.partyWithOf t = none
  held : ∀ y, y ≠ t → L.Holds y t → lets y (L.seat y)
  settled : ∀ p, C p → L.Settled p

/-- When nobody is left to be let go, the target is taken out. -/
theorem Leaving.takenOut {L₀ : Lobby} {t : ConnId} {lets : ConnId → Option Seat → Prop}
    {C : ConnId → Prop} (hl : L.Leaving t lets C) (hlets : ∀ y s, ¬ lets y s)
    (hC : ∀ p, L₀.Stranger t p → C p) : L₀.TakenOut L t where
  unqueued := hl.unqueued
  alone := hl.alone
  unheld y hy hh := hlets y _ (hl.held y hy hh)
  strangers p hp hhas := by
    have hunheld : ¬ L.Holds p t := fun hh => hlets p _ (hl.held p hp.1 hh)
    obtain ⟨s, hs⟩ := Option.isSome_iff_exists.mp hhas
    have hphase : L.phaseOf p = some s.phase := by rw [phaseOf, hs]; rfl
    cases hcase : s.phase with
    | idle => exact Or.inl (by rw [hphase, hcase])
    | waiting =>
        refine Or.inr (Or.inl ⟨by rw [hphase, hcase], ?_⟩)
        rcases (hl.settled p (hC p hp)).slotted (by rw [hphase, hcase]) with hq | ⟨m, -, -, hq⟩
        · exact ⟨_, hq, by simp [queueEntryIds]⟩
        · exact ⟨_, hq, mem_partySlot.mpr (Or.inl rfl)⟩
    | matched => exact Or.inr (Or.inr ⟨Or.inl (by rw [hphase, hcase]), hunheld⟩)
    | friendCall => exact Or.inr (Or.inr ⟨Or.inr (by rw [hphase, hcase]), hunheld⟩)

-- ====================================================================== frames

/-- What is read of a seat depends on the seat only. -/
theorem reads_of_seat {y : ConnId} (hy : L'.seat y = L.seat y) :
    L'.peersOf y = L.peersOf y ∧ L'.partnerOf y = L.partnerOf y
      ∧ L'.friendCallOf y = L.friendCallOf y ∧ L'.partyWithOf y = L.partyWithOf y
      ∧ L'.phaseOf y = L.phaseOf y := by
  simp only [peersOf, partnerOf, friendCallOf, partyWithOf, phaseOf, hy, and_self]

theorem Settled.frame {A : ConnId → Prop} {p : ConnId} (hp : L.Settled p) (hA : ¬ A p)
    (hmate : ∀ m ∈ L.partyWithOf p, ¬ A m) (hseat : ∀ y, ¬ A y → L'.seat y = L.seat y)
    (hslot : ∀ e ∈ L.queue, (∀ y ∈ queueEntryIds e, ¬ A y) → e ∈ L'.queue) : L'.Settled p := by
  obtain ⟨-, -, -, hparty, hphase⟩ := reads_of_seat (hseat p hA)
  constructor
  · intro m hm
    rw [hparty] at hm
    obtain ⟨-, -, -, hpartym, -⟩ := reads_of_seat (hseat m (hmate m hm))
    rw [hpartym]
    exact hp.mates m hm
  · intro hw
    rw [hphase] at hw
    rcases hp.slotted hw with hq | ⟨m, hm, hwm, hq⟩
    · refine Or.inl (hslot _ hq fun y hy => ?_)
      rw [queueEntryIds, List.mem_singleton] at hy
      exact hy ▸ hA
    · refine Or.inr ⟨m, hparty ▸ hm, ?_, hslot _ hq fun y hy => ?_⟩
      · rw [(reads_of_seat (hseat m (hmate m hm))).2.2.2.2]
        exact hwm
      · rcases mem_partySlot.mp hy with rfl | rfl
        · exact hA
        · exact hmate _ hm

/-- Some seats lose the target and some slots go: the rest of the invariant
stays when the new seats and slots keep clear of the target. -/
theorem Leaving.frame {t : ConnId} {lets lets' : ConnId → Option Seat → Prop}
    {C : ConnId → Prop} {A : ConnId → Prop} (hl : L.Leaving t lets C) (ht : ¬ A t)
    (hseat : ∀ y, ¬ A y → L'.seat y = L.seat y)
    (hqueue : ∀ e ∈ L'.queue, e ∈ L.queue ∨ t ∉ queueEntryIds e)
    (hA : ∀ y, A y → ¬ L'.Holds y t)
    (hlets : ∀ y, ¬ A y → lets y (L.seat y) → lets' y (L.seat y))
    (hsettled : ∀ p, C p → L'.Settled p) : L'.Leaving t lets' C where
  unqueued e he := (hqueue e he).elim (hl.unqueued e) id
  alone := by
    obtain ⟨h₁, h₂, h₃, h₄, -⟩ := reads_of_seat (hseat t ht)
    rw [h₁, h₂, h₃, h₄]
    exact hl.alone
  held y hy hh := by
    have hyA : ¬ A y := fun hAy => hA y hAy hh
    obtain ⟨h₁, h₂, -⟩ := reads_of_seat (hseat y hyA)
    rw [hseat y hyA]
    refine hlets y hyA (hl.held y hy ?_)
    rw [Holds, ← h₁, ← h₂]
    exact hh
  settled := hsettled

-- ============================================================== being let go

theorem unmatchOne_alone {x : ConnId} (hx : L.partyWithOf x = none) :
    L.unmatchOne x = (L.drop x).alter x Seat.unmatch := by
  unfold unmatchOne
  rw [hx]

theorem has_of_partyWithOf {x m : ConnId} (hx : L.partyWithOf x = some m) : L.has x = true := by
  obtain ⟨s, hs, -⟩ := Option.bind_eq_some_iff.mp hx
  rw [has, hs]
  rfl

theorem unmatchOne_party {x m : ConnId} (hx : L.partyWithOf x = some m)
    (hm : L.partyWithOf m = some x) :
    L.unmatchOne x = ((L.drop x).alter x Seat.unmatch).enqueueParty x m := by
  unfold unmatchOne
  rw [hx]
  exact if_pos ⟨has_of_partyWithOf hx, has_of_partyWithOf hm⟩

/-- A mate of a settled connection is settled against a third. -/
theorem Settled.mate_ne {p x : ConnId} (hp : L.Settled p) (hpx : L.partyWithOf x ≠ some p) :
    ∀ m ∈ L.partyWithOf p, ¬ m = x := by
  rintro m hm rfl
  exact hpx (hp.mates m hm).2

/-- Letting go a connection without a mate. -/
theorem Leaving.unmatch_alone {t x : ConnId} {lets : ConnId → Option Seat → Prop}
    {C : ConnId → Prop} (hl : L.Leaving t lets C) (hxt : x ≠ t)
    (hx : L.partyWithOf x = none) :
    ((L.drop x).alter x Seat.unmatch).Leaving t (fun y s => lets y s ∧ y ≠ x) C := by
  have hseat : ∀ y, ¬ y = x → ((L.drop x).alter x Seat.unmatch).seat y = L.seat y :=
    fun y hy => by rw [seat_alter, if_neg hy, seat_drop]
  refine hl.frame (A := (· = x)) hxt.symm hseat (fun e he => Or.inl ?_) ?_
    (fun y hy hlet => ⟨hlet, hy⟩) fun p hp => ?_
  · exact (List.mem_filter.mp he).1
  · rintro y rfl
    simp only [Holds, peersOf, partnerOf, seat_alter, if_pos, seat_drop]
    cases L.seat y with
    | none => simp
    | some s => simp [Seat.unmatch]
  · have hs := hl.settled p hp
    by_cases hpx : p = x
    · subst hpx
      have hparty : ((L.drop p).alter p Seat.unmatch).partyWithOf p = none := by
        rw [← hx]
        simp only [partyWithOf, seat_alter, if_pos, seat_drop]
        cases L.seat p with
        | none => rfl
        | some s => rfl
      refine ⟨fun m hm => ?_, fun hw => ?_⟩
      · rw [hparty] at hm
        cases hm
      · exfalso
        simp only [phaseOf, seat_alter, if_pos, seat_drop] at hw
        unfold partyWithOf at hx
        cases hsp : L.seat p with
        | none => simp [hsp] at hw
        | some s =>
            rw [hsp, Option.bind_some] at hx
            simp only [hsp, Option.map_some, Seat.unmatch, hx, Option.isSome_none,
              Bool.false_eq_true, if_false, Option.some.injEq] at hw
            split at hw
            · cases hw
            · cases hw
    · refine hs.frame (A := (· = x)) hpx (hs.mate_ne (by rw [hx]; simp)) hseat ?_
      intro e he hAe
      exact List.mem_filter.mpr ⟨he, by simpa using fun hxe => hAe x hxe rfl⟩

/-- The seats after a party of two is queued: theirs, and all others. -/
theorem seat_unmatchOne_party {x m : ConnId} (hxm : m ≠ x) {s s' : Seat}
    (hs : L.seat x = some s) (hs' : L.seat m = some s') (y : ConnId) :
    (((L.drop x).alter x Seat.unmatch).enqueueParty x m).seat y
      = if y = m then some (s'.huntWith x)
        else if y = x then some (s.unmatch.huntWith m) else L.seat y := by
  simp only [enqueueParty, seat_alter, seat_push, seat_drop]
  by_cases hy : y = m
  · subst hy
    rw [if_pos rfl, if_pos rfl, if_neg hxm, if_neg hxm, hs']
    rfl
  · rw [if_neg hy, if_neg hy]
    by_cases hyx : y = x
    · subst hyx
      rw [if_pos rfl, if_pos rfl, if_pos rfl, hs]
      rfl
    · rw [if_neg hyx, if_neg hyx, if_neg hyx]

theorem mem_queue_unmatchOne_party {x m : ConnId} {e : QueueEntry} :
    e ∈ (((L.drop x).alter x Seat.unmatch).enqueueParty x m).queue
      ↔ (e ∈ L.queue ∧ x ∉ queueEntryIds e ∧ m ∉ queueEntryIds e) ∨ e = partySlot x m := by
  simp only [enqueueParty, queue_alter, queue_push, queue_drop, List.mem_append, List.mem_filter,
    List.mem_singleton, decide_eq_true_eq, partySlot]
  tauto

/-- Letting go a connection with a mate: both search together. -/
theorem Leaving.unmatch_party {t x m : ConnId} {lets : ConnId → Option Seat → Prop}
    {C : ConnId → Prop} (hl : L.Leaving t lets C) (hxt : x ≠ t) (hxm : m ≠ x)
    (hx : L.partyWithOf x = some m) (hm : L.partyWithOf m = some x) :
    (((L.drop x).alter x Seat.unmatch).enqueueParty x m).Leaving t
      (fun y s => lets y s ∧ y ≠ x) C := by
  have hmt : m ≠ t := by
    rintro rfl
    rw [hl.alone.2.2.2] at hm
    cases hm
  obtain ⟨s, hs⟩ := Option.isSome_iff_exists.mp (has_of_partyWithOf hx)
  obtain ⟨s', hs'⟩ := Option.isSome_iff_exists.mp (has_of_partyWithOf hm)
  have hat := seat_unmatchOne_party hxm hs hs'
  have hseatm := (hat m).trans (if_pos rfl)
  have hseatx := (hat x).trans ((if_neg hxm.symm).trans (if_pos rfl))
  have hq := fun e => @mem_queue_unmatchOne_party L x m e
  generalize ((L.drop x).alter x Seat.unmatch).enqueueParty x m = K at *
  have hslot : partySlot x m ∈ K.queue := (hq _).mpr (Or.inr rfl)
  have hseat : ∀ y, ¬ (y = x ∨ y = m) → K.seat y = L.seat y := by
    intro y hy
    rw [not_or] at hy
    rw [hat, if_neg hy.2, if_neg hy.1]
  have hpartyx : K.partyWithOf x = some m := by rw [partyWithOf, hseatx]; rfl
  have hpartym : K.partyWithOf m = some x := by rw [partyWithOf, hseatm]; rfl
  have hphasex : K.phaseOf x = some .waiting := by rw [phaseOf, hseatx]; rfl
  have hphasem : K.phaseOf m = some .waiting := by rw [phaseOf, hseatm]; rfl
  refine hl.frame (A := fun y => y = x ∨ y = m) (by simp [hxt.symm, hmt.symm]) hseat ?_ ?_
    (fun y hy hlet => ⟨hlet, fun h => hy (Or.inl h)⟩) fun p hp => ?_
  · intro e he
    refine ((hq e).mp he).imp (fun h => h.1) ?_
    rintro rfl
    rw [mem_partySlot]
    rintro (rfl | rfl)
    · exact hxt rfl
    · exact hmt rfl
  · rintro y (rfl | rfl)
    · simp [Holds, peersOf, partnerOf, hseatx, Seat.huntWith, hmt, hmt.symm]
    · simp [Holds, peersOf, partnerOf, hseatm, Seat.huntWith, hxt, hxt.symm]
  · have hs := hl.settled p hp
    by_cases hpx : p = x
    · subst hpx
      refine ⟨fun m' hm' => ?_, fun _ => Or.inr ⟨m, hpartyx, hphasem, hslot⟩⟩
      cases hpartyx.symm.trans hm'
      exact ⟨hxm, hpartym⟩
    by_cases hpm : p = m
    · subst hpm
      refine ⟨fun m' hm' => ?_, fun _ => Or.inr ⟨x, hpartym, hphasex, ?_⟩⟩
      · cases hpartym.symm.trans hm'
        exact ⟨hxm.symm, hpartyx⟩
      · rw [partySlot_comm hxm]
        exact hslot
    · refine hs.frame (A := fun y => y = x ∨ y = m) (by simp [hpx, hpm]) ?_ hseat ?_
      · rintro m' hm' (h | h)
        · exact hs.mate_ne (x := x) (by rw [hx]; simpa using fun h => hpm h.symm) m' hm' h
        · exact hs.mate_ne (x := m) (by rw [hm]; simpa using fun h => hpx h.symm) m' hm' h
      · intro e he hA
        exact (hq e).mpr (Or.inl ⟨he, fun h => hA x h (Or.inl rfl), fun h => hA m h (Or.inr rfl)⟩)

/-- **Step**: letting go a settled connection. -/
theorem Leaving.unmatchOne {t x : ConnId} {lets : ConnId → Option Seat → Prop}
    {C : ConnId → Prop} (hl : L.Leaving t lets C) (hxt : x ≠ t) (hx : L.Settled x) :
    (L.unmatchOne x).Leaving t (fun y s => lets y s ∧ y ≠ x) C := by
  cases hparty : L.partyWithOf x with
  | none =>
      rw [unmatchOne_alone hparty]
      exact hl.unmatch_alone hxt hparty
  | some m =>
      obtain ⟨hmx, hm⟩ := hx.mates m hparty
      rw [unmatchOne_party hparty hm]
      exact hl.unmatch_party hxt hmx hparty hm

/-- Dropping the slots of a connection that does not wait. -/
theorem Leaving.drop {t x : ConnId} {lets : ConnId → Option Seat → Prop} {C : ConnId → Prop}
    (hl : L.Leaving t lets C) (hx : L.phaseOf x ≠ some .waiting) :
    (L.drop x).Leaving t lets C where
  unqueued e he := hl.unqueued e (List.mem_filter.mp he).1
  alone := hl.alone
  held := hl.held
  settled p hp := by
    have hs := hl.settled p hp
    refine ⟨hs.mates, fun hw => ?_⟩
    have hpx : p ≠ x := by
      rintro rfl
      exact hx hw
    refine (hs.slotted hw).imp (fun hq => ?_) ?_
    · exact List.mem_filter.mpr ⟨hq, by simpa [queueEntryIds] using hpx.symm⟩
    · rintro ⟨m, hm, hwm, hq⟩
      have hmx : m ≠ x := by
        rintro rfl
        exact hx hwm
      refine ⟨m, hm, hwm, List.mem_filter.mpr ⟨hq, ?_⟩⟩
      simp [mem_partySlot, hpx.symm, hmx.symm]

/-- Placing a connection without a mate alone in the queue. -/
theorem Leaving.placeAlone {t x : ConnId} {lets : ConnId → Option Seat → Prop}
    {C : ConnId → Prop} (hl : L.Leaving t lets C) (hxt : x ≠ t)
    (hx : L.partyWithOf x = none) : (L.placeAlone x).Leaving t lets C := by
  have hseat : ∀ y, ¬ y = x → (L.placeAlone x).seat y = L.seat y := fun y hy => by
    unfold Lobby.placeAlone enqueueSolo
    rw [seat_push, seat_drop, seat_alter, if_neg hy, seat_drop]
  have hq : ∀ e, e ∈ (L.placeAlone x).queue ↔ (e ∈ L.queue ∧ x ∉ queueEntryIds e)
      ∨ e = .solo x := by
    intro e
    simp only [Lobby.placeAlone, enqueueSolo, queue_push, queue_drop, queue_alter, List.mem_append,
      List.mem_filter, List.mem_singleton, decide_eq_true_eq]
    tauto
  refine hl.frame (A := (· = x)) hxt.symm hseat ?_ ?_ (fun y _ hlet => hlet) fun p hp => ?_
  · intro e he
    refine ((hq e).mp he).imp (fun h => h.1) ?_
    rintro rfl
    simpa [queueEntryIds] using hxt.symm
  · rintro y rfl
    unfold Lobby.placeAlone enqueueSolo
    simp only [Holds, peersOf, partnerOf, seat_push, seat_drop, seat_alter, if_pos]
    cases L.seat y with
    | none => simp
    | some s => simp [Seat.alone]
  · have hs := hl.settled p hp
    by_cases hpx : p = x
    · subst hpx
      refine ⟨fun m hm => ?_, fun _ => Or.inl ((hq _).mpr (Or.inr rfl))⟩
      unfold Lobby.placeAlone enqueueSolo at hm
      simp only [partyWithOf, seat_push, seat_drop, seat_alter, if_pos] at hm
      cases hsp : L.seat p with
      | none => simp [hsp] at hm
      | some s => simp [hsp, Seat.alone] at hm
    · refine hs.frame (A := (· = x)) hpx (hs.mate_ne (by rw [hx]; simp)) hseat ?_
      intro e he hA
      exact (hq e).mpr (Or.inl ⟨he, fun hxe => hA x hxe rfl⟩)

theorem Leaving.mono {t : ConnId} {lets lets' : ConnId → Option Seat → Prop}
    {C : ConnId → Prop} (hl : L.Leaving t lets C)
    (h : ∀ y, lets y (L.seat y) → lets' y (L.seat y)) : L.Leaving t lets' C :=
  ⟨hl.unqueued, hl.alone, fun y hy hh => h y (hl.held y hy hh), hl.settled⟩

-- ====================================================================== a kick

/-- The seat is in one of the phases in which a kick unmatches it. -/
def liveIn (phases : List Phase) (s : Option Seat) : Prop := ∃ r, s = some r ∧ r.phase ∈ phases

/-- `kickBanned`: out of the queue, and out of its match in these phases. -/
def kick (L : Lobby) (phases : List Phase) (x : ConnId) : Lobby :=
  if (L.phaseOf x).any (· ∈ phases) then L.unmatchOne x else L.drop x

theorem liveIn_iff (phases : List Phase) (x : ConnId) :
    (L.phaseOf x).any (· ∈ phases) = true ↔ liveIn phases (L.seat x) := by
  unfold phaseOf liveIn
  cases L.seat x with
  | none => simp
  | some s => simp

theorem unmatchOne_drop (x : ConnId) : (L.drop x).unmatchOne x = L.unmatchOne x := by
  have hdrop : (L.drop x).drop x = L.drop x := by
    refine ext_seat (fun y => rfl) ?_
    simp [List.filter_filter]
  unfold Lobby.unmatchOne
  rw [hdrop]
  rfl

/-- Kicking everybody in a list who waits or is matched. -/
theorem Leaving.kickAll {t : ConnId} {phases : List Phase} {C : ConnId → Prop}
    (hw : .waiting ∈ phases) (l : List ConnId)
    (hl : L.Leaving t (fun y s => y ∈ l ∧ liveIn phases s) C) (hC : ∀ x ∈ l, C x ∧ x ≠ t) :
    (l.foldl (fun L x => L.kick phases x) L).Leaving t (fun _ _ => False) C := by
  induction l generalizing L with
  | nil => exact hl.mono fun y hy => absurd hy.1 List.not_mem_nil
  | cons x l ih =>
      rw [List.foldl_cons]
      refine ih ?_ fun y hy => hC y (List.mem_cons_of_mem x hy)
      obtain ⟨hCx, hxt⟩ := hC x List.mem_cons_self
      unfold kick
      split
      · next hlive =>
        refine (hl.unmatchOne hxt (hl.settled x hCx)).mono fun y hy => ?_
        exact ⟨(List.mem_cons.mp hy.1.1).resolve_left hy.2, hy.1.2⟩
      · next hlive =>
        rw [liveIn_iff] at hlive
        have hdrop := hl.drop (x := x) fun hp => by
          obtain ⟨r, hr, hrp⟩ := Option.map_eq_some_iff.mp hp
          exact hlive ⟨r, hr, hrp ▸ hw⟩
        refine hdrop.mono fun y hy => ⟨(List.mem_cons.mp hy.1).resolve_left ?_, hy.2⟩
        rintro rfl
        exact hlive hy.2

-- =================================================================== a release

/-- Releasing the peers of a target without a friend or a mate. -/
theorem Leaving.releaseAll {t : ConnId} {C : ConnId → Prop} (l : List ConnId)
    (hl : L.Leaving t (fun y _ => y ∈ l) C) (hC : ∀ x ∈ l, C x ∧ x ≠ t) :
    (l.foldl (fun L p => L.releasePeer t p) L).Leaving t (fun _ _ => False) C := by
  induction l generalizing L with
  | nil => exact hl.mono fun y hy => absurd hy List.not_mem_nil
  | cons x l ih =>
      rw [List.foldl_cons]
      refine ih ?_ fun y hy => hC y (List.mem_cons_of_mem x hy)
      obtain ⟨hCx, hxt⟩ := hC x List.mem_cons_self
      have hfree : ¬ (L.friendCallOf t = some x ∨ L.partyWithOf t = some x) := by
        rw [hl.alone.2.2.1, hl.alone.2.2.2]
        simp
      have hun := hl.unmatchOne hxt (hl.settled x hCx)
      have hrest : (L.unmatchOne x).Leaving t (fun y _ => y ∈ l) C :=
        hun.mono fun y hy => (List.mem_cons.mp hy.1).resolve_left hy.2
      unfold releasePeer
      rw [if_neg hfree]
      dsimp only
      split
      · next hidle =>
        obtain ⟨s, hs, hidle⟩ := (Option.any_eq_true _ _).mp hidle
        simp only [Bool.and_eq_true, Option.isNone_iff_eq_none] at hidle
        refine hrest.placeAlone hxt ?_
        rw [partyWithOf, hs]
        exact hidle.1.2
      · exact hrest

-- ================================================================== the target

/-- The target has no friend and no mate, whoever holds it is let go, and
the strangers it is in a match with, and some others, are settled. -/
structure Loose (L : Lobby) (t : ConnId) (lets : ConnId → Option Seat → Prop)
    (C : ConnId → Prop) : Prop where
  noFriend : L.friendCallOf t = none
  noMate : L.partyWithOf t = none
  held : ∀ y, y ≠ t → L.Holds y t → lets y (L.seat y)
  settled : ∀ p, p ≠ t → L.Stranger t p ∨ C p → L.Settled p

/-- Once the target itself is out. -/
theorem Loose.leaving {t : ConnId} {lets : ConnId → Option Seat → Prop} {C : ConnId → Prop}
    (hl : L.Loose t lets C) (hseat : ∀ y, ¬ y = t → L'.seat y = L.seat y)
    (hq : L'.queue = (L.drop t).queue) (halone : L'.peersOf t = ∅ ∧ L'.partnerOf t = none
      ∧ L'.friendCallOf t = none ∧ L'.partyWithOf t = none) :
    L'.Leaving t lets fun p => p ≠ t ∧ (L.Stranger t p ∨ C p) where
  unqueued e he := by
    rw [hq] at he
    simpa using (List.mem_filter.mp he).2
  alone := halone
  held y hy hh := by
    obtain ⟨h₁, h₂, -⟩ := reads_of_seat (hseat y hy)
    rw [hseat y hy]
    refine hl.held y hy ?_
    rw [Holds, ← h₁, ← h₂]
    exact hh
  settled p hp := by
    have hs := hl.settled p hp.1 hp.2
    refine hs.frame (A := (· = t)) hp.1 (hs.mate_ne (by rw [hl.noMate]; simp)) hseat ?_
    intro e he hA
    rw [hq]
    exact List.mem_filter.mpr ⟨he, by simpa using fun ht => hA t ht rfl⟩

/-- Off the queue and without a session, a loose target is leaving. -/
theorem Loose.vacates {t : ConnId} {lets : ConnId → Option Seat → Prop} {C : ConnId → Prop}
    (hl : L.Loose t lets C) {f : Seat → Seat}
    (hf : ∀ s, ∃ phase, f s = { s with phase := phase, partner := none, peers := ∅ }) :
    ((L.drop t).alter t f).Leaving t lets fun p => p ≠ t ∧ (L.Stranger t p ∨ C p) := by
  refine hl.leaving (fun y hy => ?_) rfl ?_
  · rw [seat_alter, if_neg hy, seat_drop]
  · have hfriend := hl.noFriend
    have hm := hl.noMate
    simp only [peersOf, partnerOf, friendCallOf, partyWithOf, seat_alter, if_pos, seat_drop]
      at hfriend hm ⊢
    cases hs : L.seat t with
    | none => simp
    | some s =>
        obtain ⟨phase, hfs⟩ := hf s
        simp only [hs, Option.bind_some] at hfriend hm
        simp [hfs, hfriend, hm]

/-- The target's own kick. -/
theorem Loose.kick {t : ConnId} {phases : List Phase} {lets : ConnId → Option Seat → Prop}
    {C : ConnId → Prop} (hl : L.Loose t lets C)
    (hout : liveIn phases (L.seat t) ∨ (L.peersOf t = ∅ ∧ L.partnerOf t = none)) :
    (L.kick phases t).Leaving t lets fun p => p ≠ t ∧ (L.Stranger t p ∨ C p) := by
  unfold Lobby.kick
  split
  · next hlive =>
    rw [unmatchOne_alone hl.noMate]
    exact hl.vacates fun s => ⟨_, rfl⟩
  · next hlive =>
    obtain ⟨hpeers, hpartner⟩ := hout.resolve_left fun h => hlive ((liveIn_iff phases t).mpr h)
    exact hl.leaving (fun _ _ => rfl) rfl ⟨hpeers, hpartner, hl.noFriend, hl.noMate⟩

/-- Who is settled once the target is out covers the strangers. -/
theorem takenOut_of_leaving {t : ConnId} {C : ConnId → Prop}
    (hl : L'.Leaving t (fun _ _ => False) fun p => p ≠ t ∧ (L.Stranger t p ∨ C p)) :
    L.TakenOut L' t :=
  hl.takenOut (fun _ _ h => h) fun _ hp => ⟨hp.1, Or.inl hp⟩

/-- A ban that lets nobody go. -/
theorem Loose.takenOut_kick {t : ConnId} {phases : List Phase} {C : ConnId → Prop}
    (hl : L.Loose t (fun _ _ => False) C)
    (hout : liveIn phases (L.seat t) ∨ (L.peersOf t = ∅ ∧ L.partnerOf t = none)) :
    L.TakenOut (L.kick phases t) t :=
  takenOut_of_leaving (hl.kick hout)

/-- A ban that kicks others as well. -/
theorem Loose.takenOut_kickAll {t : ConnId} {phases : List Phase} {l : List ConnId}
    (hw : .waiting ∈ phases) (ht : t ∉ l)
    (hl : L.Loose t (fun y s => y ∈ l ∧ liveIn phases s) (· ∈ l))
    (hout : liveIn phases (L.seat t) ∨ (L.peersOf t = ∅ ∧ L.partnerOf t = none)) :
    L.TakenOut (l.foldl (fun L x => L.kick phases x) (L.kick phases t)) t := by
  refine takenOut_of_leaving ((hl.kick hout).kickAll hw l fun x hx => ?_)
  have hxt : x ≠ t := ne_of_mem_of_not_mem hx ht
  exact ⟨⟨hxt, Or.inr hx⟩, hxt⟩

/-- A ban that releases the peers of the target. -/
theorem Loose.takenOut_clearMatch {t : ConnId} {C : ConnId → Prop} (o : IterOrder ConnId)
    (ht : t ∉ L.peersOf t) (hl : L.Loose t (fun y _ => y ∈ L.peersOf t) C) :
    L.TakenOut (L.clearMatch o t) t := by
  have hstranger : ∀ x ∈ o.run (L.peersOf t), x ≠ t ∧ L.Stranger t x := by
    intro x hx
    rw [o.mem_run] at hx
    have hxt : x ≠ t := ne_of_mem_of_not_mem hx ht
    refine ⟨hxt, hxt, Or.inl hx, ?_, ?_⟩
    · rw [hl.noFriend]
      simp
    · rw [hl.noMate]
      simp
  have hlets : L.Loose t (fun y _ => y ∈ o.run (L.peersOf t)) C :=
    ⟨hl.noFriend, hl.noMate, fun y hy hh => (o.mem_run _ _).mpr (hl.held y hy hh), hl.settled⟩
  refine takenOut_of_leaving (C := C) (Leaving.releaseAll (o.run (L.peersOf t))
    (hlets.vacates fun s => ⟨_, rfl⟩) fun x hx => ?_)
  exact ⟨⟨(hstranger x hx).1, Or.inl (hstranger x hx).2⟩, (hstranger x hx).1⟩

end Lobby

namespace SimpleHub

variable {h : SimpleHub} {env : Env}

@[simp]
theorem lobby_kickBanned (phases : List Phase) (x : ConnId) (d n : String) :
    (h.kickBanned env phases x d n).lobby = h.lobby.kick phases x := by
  unfold kickBanned Lobby.kick
  dsimp only
  rw [lobby_status, phaseOf_lobby]
  have hphase : (h.dequeueClient x).phaseOf x = h.phaseOf x := by
    rw [← phaseOf_lobby, ← phaseOf_lobby]
    rfl
  rw [hphase]
  split
  · rw [lobby_unmatchOne, lobby_dequeueClient, Lobby.unmatchOne_drop]
  · rfl

end SimpleHub

end Ruletka
