/-
A leave on its own: no other hold runs out while it is under way.

The removal of a socket ends in `try_match`, which matches those who wait in
a slot of the queue and nobody else. So whoever is matched, idle or waiting
without a slot when the trio leave and the release are done stays as he is,
and what a leave does to a session can be read off the lobby.
-/
import Ruletka.Hub.Proofs.Lobby
import Ruletka.Hub.Proofs.Matcher
import Ruletka.Hub.Proofs.Termination

namespace Ruletka

/-- How a member leaves. -/
inductive Exit where
  | stop
  | removal
  deriving DecidableEq, Repr

namespace Lobby

variable {L : Lobby} {o : ConnId → IterOrder ConnId} {x m : ConnId}

/-- Matched with these others, on the side of this one. -/
def Faces (L : Lobby) (x : ConnId) (others : List ConnId) (party : Option ConnId) : Prop :=
  ∃ s, L.seat x = some s ∧ s.phase = .matched ∧ (∀ y, y ∈ s.peers ↔ y ∈ others)
    ∧ s.partyWith = party

theorem Faces.has {others : List ConnId} {party : Option ConnId}
    (hf : L.Faces x others party) : L.has x = true := by
  obtain ⟨s, hs, -⟩ := hf
  rw [Lobby.has, hs]
  rfl

theorem Faces.partyWithOf {others : List ConnId} {party : Option ConnId}
    (hf : L.Faces x others party) : L.partyWithOf x = party := by
  obtain ⟨s, hs, -, -, hp⟩ := hf
  rw [Lobby.partyWithOf, hs]
  exact hp

theorem faces_of_join {s : Seat} {others : List ConnId} {party : Option ConnId}
    (h : L.seat x = some (s.join others party)) : L.Faces x others party :=
  ⟨_, h, rfl, by simp [Seat.join], rfl⟩

/-- A party member is no third. -/
theorem Faces.not_linkedThird {others : List ConnId} (hf : L.Faces x others (some m)) :
    ¬ L.LinkedThird x := by
  rintro ⟨s, hs, -, hnone, -⟩
  obtain ⟨s', hs', -, -, hparty⟩ := hf
  cases hs.symm.trans hs'
  rw [hparty] at hnone
  cases hnone

/-- Pruning takes the leaver off and moves nobody to another side. -/
theorem seat_pruneAll (l : List ConnId) (y : ConnId) :
    ((L.pruneAll o x l).seat y).map Seat.partyWith = (L.seat y).map Seat.partyWith := by
  unfold pruneAll
  induction l generalizing L with
  | nil => rfl
  | cons z l ih =>
      rw [List.foldl_cons, ih, seat_alter]
      split
      · rw [Option.map_map]
        rfl
      · rfl

/-- The lobby in which the mate meets the strangers. -/
theorem partyWithOf_pruned (l : List ConnId) {y : ConnId} (hy : y ≠ m) :
    ((L.pruneAll o x l).unmate m x).partyWithOf y = L.partyWithOf y := by
  have hparty := seat_pruneAll (L := L) (o := o) (x := x) l y
  rw [partyWithOf, unmate, seat_alter, if_neg hy]
  simp only [partyWithOf] at hparty ⊢
  cases h₁ : (L.pruneAll o x l).seat y <;> cases h₂ : L.seat y <;> simp_all

theorem has_pruned (l : List ConnId) (y : ConnId) :
    ((L.pruneAll o x l).unmate m x).has y = L.has y := by
  have hparty := seat_pruneAll (L := L) (o := o) (x := x) l y
  have hsome : ((L.pruneAll o x l).seat y).isSome = (L.seat y).isSome := by
    simpa using congrArg Option.isSome hparty
  rw [has, has, unmate, seat_alter]
  split
  · rw [Option.isSome_map, hsome]
  · exact hsome

end Lobby

namespace SimpleHub

variable {h : SimpleHub} {env : Env}

-- ============================================================ what matching leaves

/-- Nobody takes it: it does not wait, or no slot names it. -/
def Untaken (h : SimpleHub) (x : ConnId) : Prop :=
  h.phaseOf x ≠ some .waiting ∨ ∀ e ∈ h.queue, x ∉ queueEntryIds e

theorem untaken_of_phase {y : ConnId} (hy : h.lobby.phaseOf y ≠ some .waiting) : h.Untaken y := by
  rw [phaseOf_lobby] at hy
  exact .inl hy

theorem Untaken.setQueue {x : ConnId} {q : List QueueEntry} (hx : h.Untaken x)
    (hq : ∀ e ∈ q, e ∈ h.queue) : (h.setQueue q).Untaken x :=
  hx.imp id fun hout e he => hout e (hq e he)

/-- A slot of waiting clients in the queue does not name it. -/
theorem Untaken.notMem {x : ConnId} {e : QueueEntry} (hx : h.Untaken x) (he : e ∈ h.queue)
    (hw : h.queueEntryWaitingOk e = true) : x ∉ queueEntryIds e := by
  obtain hphase | hout := hx
  · exact fun hmem => hphase (queueEntryWaitingOk_iff.mp hw x hmem)
  · exact hout e he

/-- A pairing of the loop starts a session of the members of the two slots. -/
theorem links_of_matchable {first second : QueueEntry} {q : List QueueEntry}
    (hm : h.Matchable env first second) :
    Links (h.setQueue q) ((h.setQueue q).pairEntries env first second)
      (queueEntryIds first ++ queueEntryIds second) :=
  links_pairEntries (entriesCompatible_iff.mp hm.compatible).1
    (queueEntryWaitingOk_iff.mp hm.left.waiting) (queueEntryWaitingOk_iff.mp hm.right.waiting)

theorem MatchRun.get_untaken {log : List Pairing} {h' : SimpleHub} {x : ConnId}
    (hrun : MatchRun env h log h') (hx : h.Untaken x) : h'.get x = h.get x := by
  induction hrun with
  | stop => rfl
  | drop hq hdead hrun ih =>
      refine ih (hx.setQueue fun e he => ?_)
      rw [hq]
      exact List.mem_cons_of_mem _ he
  | rotate hq hrun ih =>
      refine ih (hx.setQueue fun e he => ?_)
      rw [hq]
      obtain he | he := List.mem_append.mp he
      · exact List.mem_cons_of_mem _ he
      · rw [List.mem_singleton.mp he]
        exact List.mem_cons_self
  | @pair h k h' first second rest i log hq hi hm hk hrun ih =>
      have hsub : ∀ e ∈ rest, e ∈ h.queue := fun e he => hq ▸ List.mem_cons_of_mem _ he
      have hlinks := links_of_matchable (q := rest.eraseIdx i) hm
      rw [← hk] at hlinks
      have hout : x ∉ queueEntryIds first ++ queueEntryIds second := by
        rw [List.mem_append, not_or]
        exact ⟨hx.notMem (hq ▸ List.mem_cons_self) hm.left.waiting,
          hx.notMem (hsub _ (List.mem_of_getElem? hi)) hm.right.waiting⟩
      obtain ⟨sid, hseated⟩ := hlinks.seated
      have hget : k.get x = h.get x := hseated.others x hout
      obtain ⟨p, hqueue, -⟩ := hlinks.queue
      refine (ih (hx.imp ?_ ?_)).trans hget
      · intro hphase
        rwa [phaseOf, hget]
      · intro hnone e he
        rw [hqueue] at he
        exact hnone e (hsub e (List.mem_of_mem_eraseIdx (List.mem_of_mem_filter he)))

/-- The pairing loop leaves alone whom nobody takes. -/
theorem get_rematch {x : ConnId} (hx : h.Untaken x) : (h.rematch env).get x = h.get x := by
  obtain ⟨log, hrun⟩ := matchLoop_run env (max (h.queue.length * 4) 8) h
  exact hrun.get_untaken hx

-- ================================================================== a single leave

/-- One member leaves; below its call of `try_match`, `n` more may nest. -/
def exit (way : Exit) (h : SimpleHub) (env : Env) (n : Nat) (x : ConnId) : Option SimpleHub :=
  match way with
  | .stop => h.stopMatchmaking env (tryMatch env (n + 1)) x
  | .removal => h.removeClient env (tryMatch env (n + 1)) x

/-- Nobody else leaves with it: its hold is not running and no other hold has
run out. -/
structure Single (h : SimpleHub) (env : Env) (x : ConnId) : Prop where
  hold : ∀ c t, h.get x = some c → c.wsHoldUntil = some t → t ≤ env.now
  others : ∀ y ∈ h.expired env, y = x

theorem lobby_cancelFindThird (x : ConnId) : (h.cancelFindThird x).lobby = h.lobby := by
  unfold cancelFindThird
  split
  · split <;> rfl
  · rfl

/-- The stop of a leaver whose others are seen to. -/
theorem lobby_stopKept (x : ConnId) :
    (h.stopKept env x).lobby = (h.lobby.alter x fun _ => .free).drop x := by
  unfold stopKept
  rw [lobby_broadcastLobbyInfo, lobby_status, lobby_dequeueClient,
    lobby_modify (g := fun _ => .free) fun c => rfl]

theorem seat_stopKept {x y : ConnId} (hy : y ≠ x) :
    (h.stopKept env x).lobby.seat y = h.lobby.seat y := by
  rw [lobby_stopKept, Lobby.seat_drop, Lobby.seat_alter, if_neg hy]

theorem leaveKeepRemainingPair_lobby (env : Env) {x : ConnId} (hthird : ¬ h.lobby.LinkedThird x)
    (tm : SimpleHub → Option SimpleHub) (d : String) :
    ∃ r, h.leaveKeepRemainingPair env tm x d = some r
      ∧ r.1.lobby = (h.lobby.leaveKeep env.peerOrder x).1
      ∧ r.2 = (h.lobby.leaveKeep env.peerOrder x).2 := by
  have hfalse : h.linkedThird x = false := by
    rw [← Bool.not_eq_true, linkedThird_iff]
    exact hthird
  exact ⟨_, leaveKeepRemainingPair_quiet hfalse tm d, lobby_leaveQuiet x d⟩

/-- Its socket closes for good: no hold of its own is running, and it is not
in a plain 1v1. -/
structure Gone (h : SimpleHub) (env : Env) (x : ConnId) (c : Client) : Prop where
  get : h.get x = some c
  hold : ∀ t, c.wsHoldUntil = some t → t ≤ env.now
  group : h.parkable x c = false

theorem single_of_unheld {x : ConnId} (hhold : (h.get x).bind (·.wsHoldUntil) = none)
    (hnone : h.expired env = ∅) : h.Single env x := by
  refine ⟨fun c t hc ht => ?_, fun y hy => ?_⟩
  · rw [hc, Option.bind_some, ht] at hhold
    cases hhold
  · rw [hnone] at hy
    cases hy

/-- The socket of a client with a mate or with several peers is not held. -/
theorem Single.gone {x : ConnId} {c : Client} (hs : h.Single env x) (hc : h.get x = some c)
    (hgroup : c.partyWith ≠ none ∨ 1 < c.sessionPeers.card) : h.Gone env x c := by
  refine ⟨hc, fun t ht => hs.hold c t hc ht, ?_⟩
  obtain hparty | hmany := hgroup
  · rw [parkable, Option.isNone_eq_false_iff.mpr (Option.isSome_iff_ne_none.mpr hparty),
      Bool.and_false, Bool.false_and, Bool.false_and]
  · rw [parkable, decide_eq_false (Nat.not_le.mpr hmany), Bool.and_false, Bool.false_and]

theorem Gone.shouldKeepWsHold {x : ConnId} {c : Client} (hg : h.Gone env x c) :
    h.shouldKeepWsHold env x = (h, false) := by
  unfold SimpleHub.shouldKeepWsHold
  rw [hg.get]
  dsimp only
  split
  · next t ht => rw [decide_eq_false (Nat.not_lt.mpr (hg.hold t ht))]
  · next => rw [hg.group, if_neg Bool.false_ne_true]

/-- The removal of a client that is not a linked third, with no other hold
run out. -/
theorem removeClient_gone {x : ConnId} {c : Client} (hg : h.Gone env x c)
    (hthird : h.linkedThird x = false) (halone : ∀ y ∈ h.expired env, y = x) (n : Nat) :
    h.removeClient env (tryMatch env (n + 1)) x = some ((h.expel env x).rematch env) := by
  have hthird' : (h.withdraw x).linkedThird x = false := by
    rw [linkedThird_withdraw, hthird]
  have hnone : (h.expel env x).expired env = ∅ := by
    rw [expired_expel, Finset.erase_eq_empty_iff]
    obtain hempty | ⟨y, hy⟩ := (h.expired env).eq_empty_or_nonempty
    · exact .inl hempty
    · refine .inr (Finset.eq_singleton_iff_unique_mem.mpr ⟨?_, halone⟩)
      exact halone y hy ▸ hy
  unfold removeClient
  rw [hg.shouldKeepWsHold]
  simp only [get_withdraw, hg.get, Bool.false_eq_true, if_false]
  rw [leaveKeepRemainingPair_quiet hthird']
  have hexpel : h.expel env x
      = ((h.withdraw x).leaveQuiet env x "partner left — still chatting").1.forgetClient env x c
          ((h.withdraw x).leaveQuiet env x "partner left — still chatting").2 := by
    rw [expel, hg.get]
  rw [← tryMatch_eq_rematch hnone n, hexpel]
  rfl

/-- A party member stops: the others are as the trio leave has put them. -/
theorem stop_mate {x m : ConnId} {others : List ConnId}
    (hf : h.lobby.Faces x others (some m))
    (hkept : (h.lobby.leaveKeep env.peerOrder x).2 = true) (n : Nat) :
    ∃ k : SimpleHub, exit .stop h env n x = some (k.stopKept env x)
      ∧ k.lobby = (h.lobby.leaveKeep env.peerOrder x).1 := by
  obtain ⟨⟨k, kept⟩, hr, hlobby, hflag⟩ := leaveKeepRemainingPair_lobby
    (h := h.cancelFindThird x) env (by rw [lobby_cancelFindThird]; exact hf.not_linkedThird)
    (tryMatch env (n + 1)) "partner left — still chatting"
  rw [lobby_cancelFindThird] at hlobby hflag
  obtain rfl : kept = true := hflag.trans hkept
  refine ⟨k, ?_, hlobby⟩
  unfold exit stopMatchmaking
  rw [hr]
  rfl

/-- The socket of a party member closes. -/
theorem removal_mate {x m : ConnId} {others : List ConnId}
    (hf : h.lobby.Faces x others (some m))
    (hkept : ((h.lobby.drop x).leaveKeep env.peerOrder x).2 = true)
    (hsingle : h.Single env x) (n : Nat) :
    exit .removal h env n x = some ((h.expel env x).rematch env)
      ∧ ∀ y, (h.expel env x).lobby.seat y
        = if y = x then none else ((h.lobby.drop x).leaveKeep env.peerOrder x).1.seat y := by
  obtain ⟨s, hs, -, -, hparty⟩ := id hf
  obtain ⟨c, hc, rfl⟩ := Option.map_eq_some_iff.mp hs
  have hmate : c.partyWith = some m := hparty
  have hgone := hsingle.gone hc (.inl (by rw [hmate]; exact nofun))
  have hfalse : h.linkedThird x = false := by
    rw [← Bool.not_eq_true, linkedThird_iff]
    exact hf.not_linkedThird
  refine ⟨removeClient_gone hgone hfalse hsingle.others n, fun y => ?_⟩
  rw [lobby_expel, Lobby.expel, hs]
  dsimp only
  rw [if_pos hkept, Lobby.seat_leave]

/-- A list without repetition of two elements. -/
theorem eq_pair_of_mem_iff {l : List ConnId} {a b : ConnId} (hnd : l.Nodup) (hab : a ≠ b)
    (hl : ∀ p, p ∈ l ↔ p = a ∨ p = b) : l = [a, b] ∨ l = [b, a] := by
  have hperm : l.Perm [a, b] :=
    (List.perm_ext_iff_of_nodup hnd (by simpa using hab)).mpr fun p => by simp [hl p]
  match l, hperm.length_eq, hl, hnd with
  | [p, q], _, hl, hnd => grind

/-- A list without repetition of three elements. -/
theorem eq_triple_of_mem_iff {l : List ConnId} {a b c : ConnId} (hnd : l.Nodup) (hab : a ≠ b)
    (hac : a ≠ c) (hbc : b ≠ c) (hl : ∀ p, p ∈ l ↔ p = a ∨ p = b ∨ p = c) :
    (l = [a, b, c] ∨ l = [b, a, c] ∨ l = [b, c, a])
      ∨ l = [a, c, b] ∨ l = [c, a, b] ∨ l = [c, b, a] := by
  have hperm : l.Perm [a, b, c] :=
    (List.perm_ext_iff_of_nodup hnd (by simp [hab, hac, hbc])).mpr fun p => by simp [hl p]
  match l, hperm.length_eq, hl, hnd with
  | [p, q, r], _, hl, hnd => grind

end SimpleHub

end Ruletka
