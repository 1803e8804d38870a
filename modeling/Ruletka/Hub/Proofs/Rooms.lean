/-
Which rooms a pairing joins.

The loop compares one room a slot, that of its first member. So a session of
two slots has one room exactly when each of its slots has one, and a party
whose members are in two rooms takes the second of them out of its room.
Nothing keeps the rooms of a party together: `SetRoom` of a waiting member
moves it alone, and an accepted find-third queues two friends from where
they are. Only the party hunt of Spin and Next puts both into one room.

A pairing is judged on the records its members had when the loop began: a
slot that is still waiting has no member in an earlier pairing of the run.
-/
import Ruletka.Hub.Proofs.Matcher

namespace Ruletka

namespace SimpleHub

variable {h h' : SimpleHub} {env : Env}

/-- All members of a slot are in the slot's room. -/
def InOneRoom (h : SimpleHub) (e : QueueEntry) : Prop :=
  ∀ x ∈ queueEntryIds e, h.roomOf x = h.queueEntryRoom e

instance (h : SimpleHub) (e : QueueEntry) : Decidable (h.InOneRoom e) :=
  inferInstanceAs (Decidable (∀ x ∈ queueEntryIds e, _))

/-- Everybody a pairing joins is in one room at that moment. -/
def Pairing.OneRoom (p : Pairing) : Prop := ∃ room, ∀ x ∈ p.members, p.hub.roomOf x = room

theorem exists_room_member (e : QueueEntry) :
    ∃ x ∈ queueEntryIds e, h.roomOf x = h.queueEntryRoom e := by
  cases e with
  | solo a => exact ⟨a, List.mem_cons_self, rfl⟩
  | party a b => exact ⟨a, List.mem_cons_self, rfl⟩
  | party3 a b c => exact ⟨a, List.mem_cons_self, rfl⟩

theorem inOneRoom_iff {e : QueueEntry} :
    h.InOneRoom e ↔ ∃ room, ∀ x ∈ queueEntryIds e, h.roomOf x = room := by
  constructor
  · exact fun he => ⟨_, he⟩
  · rintro ⟨room, hroom⟩ x hx
    obtain ⟨y, hy, hslot⟩ := exists_room_member (h := h) e
    rw [hroom x hx, ← hslot, hroom y hy]

/-- Two slots with the same slot room. -/
theorem oneRoom_iff {p : Pairing} (hr : p.hub.queueEntryRoom p.first
      = p.hub.queueEntryRoom p.second) :
    p.OneRoom ↔ p.hub.InOneRoom p.first ∧ p.hub.InOneRoom p.second := by
  constructor
  · rintro ⟨room, hroom⟩
    exact ⟨inOneRoom_iff.mpr ⟨room, fun x hx => hroom x (List.mem_append_left _ hx)⟩,
      inOneRoom_iff.mpr ⟨room, fun x hx => hroom x (List.mem_append_right _ hx)⟩⟩
  · rintro ⟨hf, hs⟩
    refine ⟨p.hub.queueEntryRoom p.first, fun x hx => ?_⟩
    rcases List.mem_append.mp hx with hx | hx
    · exact hf x hx
    · rw [hr]
      exact hs x hx

theorem inOneRoom_congr {k : SimpleHub} {e : QueueEntry} (he : SameRecords h k e) :
    k.InOneRoom e ↔ h.InOneRoom e := by
  unfold InOneRoom
  rw [room_congr he.sought]
  refine forall₂_congr fun x hx => ?_
  unfold roomOf
  rw [he x hx]

-- ==================================================================== the run

/-- A slot of a pairing as it stood when the run began. -/
structure Stands (h : SimpleHub) (p : Pairing) (e : QueueEntry) : Prop where
  queued : e ∈ h.queue
  waiting : h.queueEntryWaitingOk e = true
  same : SameRecords h p.hub e

theorem Stands.before {k : SimpleHub} {p : Pairing} {e : QueueEntry} {ms : List ConnId}
    (hs : Stands k p e) (hl : Links h k ms) : Stands h p e := by
  obtain ⟨q, hq, -⟩ := hl.queue
  have hsame := hl.sameRecords (hl.disjoint_of_waiting hs.waiting)
  refine ⟨?_, ?_, fun x hx => (hs.same x hx).trans (hsame x hx)⟩
  · have hmem := hs.queued
    rw [hq] at hmem
    exact List.mem_of_mem_filter hmem
  · refine queueEntryWaitingOk_iff.mpr fun x hx => ?_
    rw [phaseOf, ← hsame x hx]
    exact queueEntryWaitingOk_iff.mp hs.waiting x hx

theorem Stands.requeue {q : List QueueEntry} {p : Pairing} {e : QueueEntry}
    (hs : Stands (h.setQueue q) p e) (hq : ∀ e ∈ q, e ∈ h.queue) : Stands h p e :=
  ⟨hq e hs.queued, hs.waiting, hs.same⟩

/-- **Run**: the slots of every pairing stand in the first queue, with the
records of then, and their slot rooms agree. -/
theorem MatchRun.stands {log : List Pairing} (hrun : MatchRun env h log h') :
    ∀ p ∈ log, Stands h p p.first ∧ Stands h p p.second
      ∧ p.hub.queueEntryRoom p.first = p.hub.queueEntryRoom p.second := by
  induction hrun with
  | stop h => exact fun p hp => absurd hp List.not_mem_nil
  | @drop h h' first rest log hq hdead hrun ih =>
      have hsub : ∀ e ∈ rest, e ∈ h.queue := fun e he => hq ▸ List.mem_cons_of_mem _ he
      intro p hp
      obtain ⟨hf, hs, hr⟩ := ih p hp
      exact ⟨hf.requeue hsub, hs.requeue hsub, hr⟩
  | @rotate h h' first rest log hq hrun ih =>
      have hsub : ∀ e ∈ rest ++ [first], e ∈ h.queue := by
        intro e he
        rw [hq, List.mem_cons, or_comm]
        simpa using he
      intro p hp
      obtain ⟨hf, hs, hr⟩ := ih p hp
      exact ⟨hf.requeue hsub, hs.requeue hsub, hr⟩
  | @pair h k h' first second rest i log hq hi hm hk hrun ih =>
      subst hk
      have hsecond : second ∈ h.queue := hq ▸ List.mem_cons_of_mem _ (List.mem_of_getElem? hi)
      have hl := (matchable_setQueue (q := rest.eraseIdx i)).mpr hm |>.links
      have hsub : ∀ e ∈ rest.eraseIdx i, e ∈ h.queue := fun e he =>
        hq ▸ List.mem_cons_of_mem _ (List.mem_of_mem_eraseIdx he)
      intro p hp
      rcases List.mem_cons.mp hp with rfl | hp
      · exact ⟨⟨hq ▸ List.mem_cons_self, hm.left.waiting, fun _ _ => rfl⟩,
          ⟨hsecond, hm.right.waiting, fun _ _ => rfl⟩, hm.room⟩
      · obtain ⟨hf, hs, hr⟩ := ih p hp
        exact ⟨(hf.before hl).requeue hsub, (hs.before hl).requeue hsub, hr⟩

/-- **A session of `try_match` is in one room exactly when both its slots
are**, at the start of the loop as at the moment of the pairing; so all its
sessions are when no waiting party has its members in two rooms. -/
theorem tryMatch_one_room_iff {n : Nat} (ht : tryMatch env (n + 1) h = some h') :
    ∃ k log, h.expireWsHolds env (tryMatch env n) = some k ∧ MatchRun env k log h'
      ∧ (∀ p ∈ log, p.first ∈ k.queue ∧ p.second ∈ k.queue
        ∧ (p.OneRoom ↔ k.InOneRoom p.first ∧ k.InOneRoom p.second))
      ∧ ((∀ e ∈ k.queue, k.queueEntryWaitingOk e = true → k.InOneRoom e) →
        ∀ p ∈ log, p.OneRoom) := by
  obtain ⟨k, hk, hrem⟩ := Option.bind_eq_some_iff.mp ht
  obtain ⟨log, hlog⟩ := matchLoop_run env (max (k.queue.length * 4) 8) k
  cases hrem
  refine ⟨k, log, hk, hlog, fun p hp => ?_, fun hall p hp => ?_⟩
  · obtain ⟨hf, hs, hr⟩ := hlog.stands p hp
    refine ⟨hf.queued, hs.queued, ?_⟩
    rw [oneRoom_iff hr, inOneRoom_congr hf.same, inOneRoom_congr hs.same]
  · obtain ⟨hf, hs, hr⟩ := hlog.stands p hp
    rw [oneRoom_iff hr, inOneRoom_congr hf.same, inOneRoom_congr hs.same]
    exact ⟨hall _ hf.queued hf.waiting, hall _ hs.queued hs.waiting⟩

-- ============================================================== concrete runs

/-- Two strangers of one room look for a third while another waits in the
lobby; one of the two sets its room to the lobby. -/
def movedMate : List Input := script
  [(0, .connect 1 ""), (0, .connect 2 ""), (0, .connect 3 ""),
    (1, .frame 1 (.spin "den")), (1, .frame 2 (.spin "den")), (1, .frame 3 (.spin "")),
    (2, .frame 1 .findThirdInvite), (2, .frame 2 (.findThirdRespond true)),
    (3, .frame 1 (.setRoom ""))]

/-- The third sends a frame that lets the queue match. -/
def thirdAsks : Input := ⟨plainEnv 4, .frame 3 (.setPrefs "" "any" "" [] false)⟩

/-- The moved mate's party is paired with the third, and not in one room. -/
theorem tryMatch_one_room_iff_moved : ∃ w h', (hubMachine plainSys).Reach w
    ∧ tryMatch (plainEnv 4) 1 w.hub = some h' ∧ h'.queue = []
    ∧ ∃ k log, w.hub.expireWsHolds (plainEnv 4) (tryMatch (plainEnv 4) 0) = some k
      ∧ MatchRun (plainEnv 4) k log h'
      ∧ (∀ p ∈ log, p.first ∈ k.queue ∧ p.second ∈ k.queue
        ∧ (p.OneRoom ↔ k.InOneRoom p.first ∧ k.InOneRoom p.second))
      ∧ ((∀ e ∈ k.queue, k.queueEntryWaitingOk e = true → k.InOneRoom e) →
        ∀ p ∈ log, p.OneRoom) := by
  obtain ⟨w, hw, hp⟩ := @reach_of_replay plainSys 2 movedMate
    (fun w => (tryMatch (plainEnv 4) 1 w.hub).any fun h' : SimpleHub =>
      decide (h'.queue = []))
    (by decide)
  obtain ⟨h', ht, hq⟩ := (Option.any_eq_true _ _).mp hp
  exact ⟨w, h', hw, ht, of_decide_eq_true hq, tryMatch_one_room_iff ht⟩

/-- In one event the second and the third, who waited in two rooms, are put
into one session. -/
theorem moved_mate_crosses_rooms : ∃ w w', (hubMachine plainSys).Reach w
    ∧ (hubMachine plainSys).step w thirdAsks w'
    ∧ w.hub.phaseOf 2 = some .waiting ∧ w.hub.phaseOf 3 = some .waiting
    ∧ w.hub.roomOf 2 ≠ w.hub.roomOf 3
    ∧ 3 ∈ w'.hub.peersOf 2 ∧ w'.hub.phaseOf 2 = some .matched
    ∧ w'.hub.phaseOf 3 = some .matched ∧ w'.hub.roomOf 2 ≠ w'.hub.roomOf 3 := by
  obtain ⟨w, hw, hp⟩ := @reach_of_replay plainSys 2 movedMate
    (fun w => decide (w.hub.phaseOf 2 = some .waiting ∧ w.hub.phaseOf 3 = some .waiting
        ∧ w.hub.roomOf 2 ≠ w.hub.roomOf 3)
      && (w.advance 2 thirdAsks).any fun w' : World =>
        decide (3 ∈ w'.hub.peersOf 2 ∧ w'.hub.phaseOf 2 = some .matched
          ∧ w'.hub.phaseOf 3 = some .matched ∧ w'.hub.roomOf 2 ≠ w'.hub.roomOf 3))
    (by decide)
  rw [Bool.and_eq_true, decide_eq_true_eq, Option.any_eq_true] at hp
  obtain ⟨⟨h₂, h₃, hrooms⟩, w', hw', hp⟩ := hp
  obtain ⟨hpeer, h₂', h₃', hrooms'⟩ := of_decide_eq_true hp
  exact ⟨w, w', hw, advance_step w thirdAsks w' hw', h₂, h₃, hrooms, hpeer, h₂', h₃', hrooms'⟩

end SimpleHub

end Ruletka
