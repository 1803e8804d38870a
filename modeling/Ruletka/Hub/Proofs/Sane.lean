/-
The hub keeps its seats in order.

A hub is in order when its lobby is, when the join ring names distinct
connections, and when its federation books are. Each operation of the session
code keeps that, by its equation on the lobby; an operation that takes a
connection off the federation books rewrites the seat at the same time. Handlers call `try_match` through their
parameter and keep the order when the continuation does.

`try_match` does too, and with nobody that points at itself its sweep hands the
pairing loop a queue in which nobody has two places.
-/
import Ruletka.Hub.Proofs.Seats
import Ruletka.Hub.Proofs.Handlers
import Ruletka.Hub.Proofs.Federated

namespace Ruletka

/-- Everybody a join ring names. -/
def JoinCallPending.names (p : JoinCallPending) : List ConnId :=
  [p.origin, p.target, p.keep] ++ p.keep2.toList

namespace SimpleHub

open Lobby.Sane (Unrepeated)

/-- The matched connections that need no partner: those in a session with
another hub, and those about to go. -/
def Abroad (h : SimpleHub) (going : Finset ConnId) (x : ConnId) : Prop :=
  (h.fedByClient.get? x).isSome = true ∨ x ∈ going

def fedBooks (h : SimpleHub) : FedBooks := ⟨h.fedSessions, h.fedByClient, h.fedOutbox⟩

/-- A hub in order, but for the excuses of those about to go. -/
structure Sane (B : Bounds) (going : Finset ConnId) (h : SimpleHub) : Prop where
  lobby : h.lobby.Sane B (h.Abroad going)
  ring : ∀ p, h.joinCallPending = some p → Unrepeated B p.names
  fed : B.fed h.fedBooks

-- ================================================================ beside the lobby

/-- What the seats do not show: the federation books and the join ring. -/
def aside (h : SimpleHub) : FedBooks × Option JoinCallPending := (h.fedBooks, h.joinCallPending)

section Aside

variable (h : SimpleHub) (env : Env)

@[simp]
theorem aside_emit (ms : List (ConnId × ServerMsg)) : (h.emit ms).aside = h.aside := rfl

@[simp]
theorem aside_send (x : ConnId) (m : ServerMsg) : (h.send x m).aside = h.aside := rfl

@[simp]
theorem aside_sendError (x : ConnId) (m : String) : (h.sendError x m).aside = h.aside := rfl

@[simp]
theorem aside_status (x : ConnId) (d : String) : (h.status x d).aside = h.aside := by
  obtain ⟨ms, hms⟩ := h.status_eq_emit x d
  rw [hms, aside_emit]

@[simp]
theorem aside_broadcastLobbyInfo : (h.broadcastLobbyInfo env).aside = h.aside := rfl

@[simp]
theorem aside_modify (x : ConnId) (f : Client → Client) : (h.modify x f).aside = h.aside := rfl

@[simp]
theorem aside_setQueue (q : List QueueEntry) : (h.setQueue q).aside = h.aside := rfl

@[simp]
theorem aside_setFindThird (p : Option FindThirdPending) :
    (h.setFindThird p).aside = h.aside := rfl

@[simp]
theorem aside_dequeueClient (x : ConnId) : (h.dequeueClient x).aside = h.aside := rfl

/-- Folding operations that leave it alone. -/
theorem aside_foldl {α : Type} (f : SimpleHub → α → SimpleHub)
    (hf : ∀ h a, (f h a).aside = h.aside) (l : List α) : (l.foldl f h).aside = h.aside := by
  induction l generalizing h with
  | nil => rfl
  | cons a l ih => rw [List.foldl_cons, ih, hf]

@[simp]
theorem aside_enqueueSolo (x : ConnId) : (h.enqueueSolo x).aside = h.aside := by
  unfold enqueueSolo
  dsimp only
  split
  · rfl
  · rfl

@[simp]
theorem aside_enqueueParty (a b : ConnId) : (h.enqueueParty env a b).aside = h.aside := rfl

@[simp]
theorem aside_takeWaitStarted (x : ConnId) : (h.takeWaitStarted x).aside = h.aside := rfl

@[simp]
theorem aside_startSoloMatch (a b : ConnId) : (h.startSoloMatch env a b).aside = h.aside := by
  unfold startSoloMatch
  split
  · rfl
  split
  · rfl
  · rfl

@[simp]
theorem aside_startFriendSession (a b : ConnId) :
    (h.startFriendSession env a b).aside = h.aside := rfl

@[simp]
theorem aside_startPartyVsSolo (s a b : ConnId) :
    (h.startPartyVsSolo env s a b).aside = h.aside := rfl

@[simp]
theorem aside_startPartyVsParty (a1 a2 b1 b2 : ConnId) :
    (h.startPartyVsParty env a1 a2 b1 b2).aside = h.aside := rfl

@[simp]
theorem aside_startThreePersonJoin (a b c : ConnId) :
    (h.startThreePersonJoin env a b c).aside = h.aside := by
  unfold startThreePersonJoin
  dsimp only
  rw [aside_broadcastLobbyInfo, aside_status, aside_status, aside_status, aside_emit]
  rfl

@[simp]
theorem aside_startFourPersonJoin (a b c d : ConnId) :
    (h.startFourPersonJoin env a b c d).aside = h.aside := by
  unfold startFourPersonJoin
  split
  · rfl
  · dsimp only
    rw [aside_broadcastLobbyInfo, aside_status, aside_status, aside_status, aside_status,
      aside_emit]
    rfl

@[simp]
theorem aside_forceSessionIdle (x : ConnId) (d : String) :
    (h.forceSessionIdle x d).aside = h.aside := by
  unfold forceSessionIdle
  dsimp only
  rw [aside_status, aside_modify, aside_dequeueClient]

@[simp]
theorem aside_collapseToSolo1v1 (a b : ConnId) (d : String) :
    (h.collapseToSolo1v1 env a b d).aside = h.aside := by
  unfold collapseToSolo1v1
  dsimp only
  rw [aside_status, aside_status, aside_startSoloMatch]
  rfl

@[simp]
theorem aside_huntAgain (x a b : ConnId) : (h.huntAgain env x a b).aside = h.aside := by
  unfold huntAgain
  dsimp only
  rw [aside_broadcastLobbyInfo, aside_status, aside_status]
  rfl

@[simp]
theorem aside_endFriendCall (x : ConnId) (r : String) : (h.endFriendCall x r).aside = h.aside := by
  unfold endFriendCall
  dsimp only
  cases h.friendCallOf x with
  | none => rw [aside_status]; rfl
  | some f =>
      dsimp only
      rw [aside_status, aside_send, aside_dequeueClient, aside_modify, aside_status]
      rfl

@[simp]
theorem aside_pruneAll (x : ConnId) (l : List ConnId) : (h.pruneAll env x l).aside = h.aside :=
  h.aside_foldl _ (fun h p => h.aside_modify p _) l

@[simp]
theorem aside_keepStrangers (m : ConnId) (d : String) (l : List ConnId) :
    (h.keepStrangers env m d l).aside = h.aside := by
  have hidle : ∀ (k : SimpleHub) (l : List ConnId),
      (l.foldl (fun h x => h.forceSessionIdle x "partner left") k).aside = k.aside :=
    fun k l => k.aside_foldl _ (fun h x => h.aside_forceSessionIdle x _) l
  unfold keepStrangers
  split
  · dsimp only
    rw [aside_status]
    rfl
  · exact h.aside_collapseToSolo1v1 env _ _ _
  · dsimp only
    split
    · rw [aside_status, aside_status, aside_status, aside_startPartyVsSolo, hidle]
    · rw [aside_collapseToSolo1v1, hidle]

@[simp]
theorem aside_leaveMate (x m : ConnId) (ps : Finset ConnId) (d : String) :
    (h.leaveMate env x m ps d).aside = h.aside := by
  unfold leaveMate
  dsimp only
  rw [aside_keepStrangers]
  exact h.aside_pruneAll env x _

@[simp]
theorem aside_dropFindThird (x : ConnId) : (h.dropFindThird x).aside = h.aside := by
  unfold dropFindThird
  split
  · split
    · rfl
    · rfl
  · rfl

@[simp]
theorem aside_cancelFindThird (x : ConnId) : (h.cancelFindThird x).aside = h.aside := by
  unfold cancelFindThird
  split
  · split
    · rfl
    · rfl
  · rfl

@[simp]
theorem aside_dissolveParty (x p : ConnId) : (h.dissolveParty x p).aside = h.aside := rfl

@[simp]
theorem aside_eraseClient (x : ConnId) : (h.eraseClient x).aside = h.aside := by
  unfold eraseClient
  split
  · rfl
  · rfl

@[simp]
theorem aside_forgive (p : Option ConnId) : (h.forgive p).aside = h.aside := by
  cases p
  · rfl
  · rfl

@[simp]
theorem aside_placeInSoloQueue (x : ConnId) (room d : String) :
    (h.placeInSoloQueue env x room d).aside = h.aside := by
  unfold placeInSoloQueue
  dsimp only
  rw [aside_broadcastLobbyInfo, aside_status, aside_enqueueSolo]
  rfl

@[simp]
theorem aside_partyRequeueSide (x : ConnId) (room : String) :
    (h.partyRequeueSide env room x).aside = h.aside := by
  unfold partyRequeueSide
  dsimp only
  rw [aside_modify]
  exact h.aside_foldl _ (fun h s => h.aside_placeInSoloQueue env s room _) _

/-- A connection goes off the federation books. -/
theorem aside_clearFedForClient (x : ConnId) :
    (h.clearFedForClient x).aside = (h.fedBooks.clear x, h.joinCallPending) := by
  unfold clearFedForClient FedBooks.clear
  have hbook : h.fedBooks.byClient = h.fedByClient := rfl
  rw [hbook]
  cases h.fedByClient.get? x with
  | none => rfl
  | some sid => rfl

theorem byClient_clear (b : FedBooks) (x y : ConnId) :
    (b.clear x).byClient.get? y = if y = x then none else b.byClient.get? y := by
  unfold FedBooks.clear
  cases hx : b.byClient.get? x with
  | none =>
      dsimp only
      split
      case isTrue hy => rw [hy, hx]
      case isFalse => rfl
  | some sid => exact Table.get?_del b.byClient x y

end Aside

-- ======================================================================== order

namespace Sane

variable {B : Bounds} {E : Finset ConnId} {h k h' : SimpleHub} {env : Env} {x : ConnId}

theorem abroad_congr (ha : k.aside = h.aside) (E : Finset ConnId) :
    k.Abroad E = h.Abroad E := by
  have hfed : k.fedByClient = h.fedByClient := congrArg (fun a => a.1.byClient) ha
  unfold Abroad
  rw [hfed]

/-- An operation that writes only the lobby. -/
theorem write (hs : h.Sane B E) (ha : k.aside = h.aside)
    (hl : k.lobby.Sane B (h.Abroad E)) : k.Sane B E where
  lobby := by rwa [abroad_congr ha]
  ring p hp := hs.ring p ((congrArg Prod.snd ha).symm.trans hp)
  fed := by
    have hbooks : k.fedBooks = h.fedBooks := congrArg Prod.fst ha
    rw [hbooks]
    exact hs.fed

/-- An operation that writes neither the lobby nor what is beside it. -/
theorem same (hs : h.Sane B E) (hl : k.lobby = h.lobby) (ha : k.aside = h.aside) : k.Sane B E :=
  hs.write ha (by rw [hl]; exact hs.lobby)

theorem mono {E' : Finset ConnId} (hs : h.Sane B E) (hE : E ⊆ E') : h.Sane B E' where
  lobby := hs.lobby.mono fun _ hy => hy.imp id fun hy => hE hy
  ring := hs.ring
  fed := hs.fed

/-- A connection that is gone needs no excuse. -/
theorem unexcused (hs : h.Sane B {x}) (hx : h.get x = none) : h.Sane B ∅ where
  lobby :=
    { seats := fun y s hy => by
        refine (hs.lobby.seats y s hy).mono fun hab => ?_
        rcases hab with hab | hab
        · exact .inl hab
        · rw [Finset.mem_singleton.mp hab, seat_lobby, hx] at hy
          cases hy
      slots := hs.lobby.slots }
  ring := hs.ring
  fed := hs.fed

/-- A write to a record outside its seat. -/
theorem record (hs : h.Sane B E) {y : ConnId} {f : Client → Client}
    (hf : ∀ c, (f c).seat = c.seat) : (h.modify y f).Sane B E := by
  refine hs.same ?_ rfl
  rw [lobby_modify (g := id) hf]
  exact Lobby.alter_id (f := id) _ fun _ => rfl

theorem send (hs : h.Sane B E) (x : ConnId) (m : ServerMsg) : (h.send x m).Sane B E :=
  hs.same rfl rfl

theorem sendError (hs : h.Sane B E) (x : ConnId) (m : String) : (h.sendError x m).Sane B E :=
  hs.same rfl rfl

theorem status (hs : h.Sane B E) (x : ConnId) (d : String) : (h.status x d).Sane B E :=
  hs.same (lobby_status x d) (h.aside_status x d)

theorem informed (hs : h.Sane B E) : (h.broadcastLobbyInfo env).Sane B E := hs.same rfl rfl

theorem foldl {α : Type} {f : SimpleHub → α → SimpleHub}
    (hf : ∀ h a, h.Sane B E → (f h a).Sane B E) (l : List α) (hs : h.Sane B E) :
    (l.foldl f h).Sane B E := by
  induction l generalizing h with
  | nil => exact hs
  | cons a l ih => exact ih (hf h a hs)

-- ================================================================ the federation books

/-- A connection goes off the federation books while its seat is rewritten. -/
theorem clear {L : Lobby} (hs : h.Sane B E)
    (ha : k.aside = (h.fedBooks.clear x, h.joinCallPending))
    (hl : k.lobby = L) (hL : L.Sane B (Cleared (h.Abroad E) [x])) : k.Sane B E where
  lobby := by
    rw [hl]
    refine hL.mono fun y hy => ?_
    have hyx : y ≠ x := fun heq => hy.2 (by rw [heq]; exact List.mem_cons_self)
    rcases hy.1 with hab | hab
    · left
      have hbook : k.fedByClient = (h.fedBooks.clear x).byClient :=
        congrArg (fun a => a.1.byClient) ha
      rwa [hbook, byClient_clear, if_neg hyx]
    · exact .inr hab
  ring p hp := hs.ring p ((congrArg Prod.snd ha).symm.trans hp)
  fed := by
    have hbooks : k.fedBooks = h.fedBooks.clear x := congrArg Prod.fst ha
    rw [hbooks]
    exact B.fed_clear _ x hs.fed

/-- Off every list, and about to go. -/
theorem withdraw (hs : h.Sane B ∅) (x : ConnId) : (h.withdraw x).Sane B {x} := by
  have ha : (h.withdraw x).aside = (h.fedBooks.clear x, h.joinCallPending) := by
    rw [SimpleHub.withdraw, aside_dropFindThird, aside_clearFedForClient]
    rfl
  refine
    { lobby := ?_
      ring := fun p hp => hs.ring p ((congrArg Prod.snd ha).symm.trans hp)
      fed := ?_ }
  · rw [lobby_withdraw]
    refine (hs.lobby.drop x).mono fun y hy => ?_
    by_cases hyx : y = x
    · exact .inr (Finset.mem_singleton.mpr hyx)
    · left
      have hbook : (h.withdraw x).fedByClient = (h.fedBooks.clear x).byClient :=
        congrArg (fun a => a.1.byClient) ha
      rw [hbook, byClient_clear, if_neg hyx]
      exact hy.resolve_right (Finset.notMem_empty y)
  · have hbooks : (h.withdraw x).fedBooks = h.fedBooks.clear x := congrArg Prod.fst ha
    rw [hbooks]
    exact B.fed_clear _ x hs.fed

theorem unmatchOne (hs : h.Sane B E) (y : ConnId) (d : String) :
    (h.unmatchOne env y d).Sane B E := by
  refine hs.clear (x := y) ?_ (lobby_unmatchOne y d) (hs.lobby.unmatchOne y)
  refine Eq.trans ?_ ((h.dequeueClient y).aside_clearFedForClient y)
  unfold SimpleHub.unmatchOne
  dsimp only
  split
  · split
    · rw [aside_enqueueParty, aside_status, aside_modify]
    · rw [aside_status, aside_modify]
  · rw [aside_status, aside_modify]

-- ====================================================================== leaving

theorem endFriendCall (hs : h.Sane B E) (y : ConnId) (r : String) :
    (h.endFriendCall y r).Sane B E :=
  hs.write (h.aside_endFriendCall y r) (by
    rw [lobby_endFriendCall]
    exact hs.lobby.endFriendCall y)

theorem collapseToSolo1v1 (hs : h.Sane B E) {a b : ConnId} (hab : a = b → B.loops) (d : String) :
    (h.collapseToSolo1v1 env a b d).Sane B E :=
  hs.write (h.aside_collapseToSolo1v1 env a b d) (by
    rw [lobby_collapseToSolo1v1]
    exact (hs.lobby.collapse hab).of_cleared)

theorem huntAgain (hs : h.Sane B E) {a b : ConnId} (hab : a = b → B.loops) (y : ConnId) :
    (h.huntAgain env y a b).Sane B E :=
  hs.write (h.aside_huntAgain env y a b) (by
    rw [lobby_huntAgain, Lobby.Sane.huntAgain_eq]
    exact (hs.lobby.enqueueParty hab).of_cleared)

theorem leaveMate (hs : h.Sane B E) (y m : ConnId) (ps : Finset ConnId) (d : String) :
    (h.leaveMate env y m ps d).Sane B E :=
  hs.write (h.aside_leaveMate env y m ps d) (by
    rw [lobby_leaveMate]
    exact hs.lobby.leaveMate env.peerOrder y m ps)

theorem dissolveParty (hs : h.Sane B E) (y p : ConnId) : (h.dissolveParty y p).Sane B E :=
  hs.write (h.aside_dissolveParty y p) (by
    rw [lobby_dissolveParty]
    exact hs.lobby.dissolve y p)

theorem placeInSoloQueue (hs : h.Sane B E) (y : ConnId) (room d : String) :
    (h.placeInSoloQueue env y room d).Sane B E :=
  hs.write (h.aside_placeInSoloQueue env y room d) (by
    rw [lobby_placeInSoloQueue]
    exact (hs.lobby.placeAlone y).of_cleared)

theorem enqueueParty (hs : h.Sane B E) {a b : ConnId} (hab : a = b → B.loops) :
    (h.enqueueParty env a b).Sane B E :=
  hs.write (h.aside_enqueueParty env a b) (by
    rw [lobby_enqueueParty]
    exact (hs.lobby.enqueueParty hab).of_cleared)

theorem onSome {α : Type} {f : SimpleHub → α → SimpleHub} {o : Option α} (hs : h.Sane B E)
    (hf : ∀ a, o = some a → (f h a).Sane B E) : (onSome o h f).Sane B E := by
  cases o with
  | none => exact hs
  | some a => exact hf a rfl

theorem releaseOthers (hs : h.Sane B E) (y : ConnId) (c : Client) :
    (h.releaseOthers env y c).Sane B E := by
  unfold SimpleHub.releaseOthers
  dsimp only
  have hcall : (Ruletka.onSome c.friendCall h fun h fid =>
      h.endFriendCall fid "friend disconnected").Sane B E :=
    hs.onSome fun f _ => hs.endFriendCall f _
  have hparty := hcall.onSome (f := fun h pid => h.dissolveParty y pid) (o := c.partyWith)
    fun p _ => hcall.dissolveParty y p
  have hpeers := hparty.foldl (f := fun h pid =>
      h.unmatchOne env pid "partner disconnected — searching again")
    (fun h p hs => hs.unmatchOne p _) ((env.peerOrder y).run c.sessionPeers)
  refine hpeers.onSome fun p _ => ?_
  split
  · exact hpeers
  · exact hpeers.unmatchOne p _

/-- The record of a leaver goes, and with it its excuse. -/
theorem eraseClient (hs : h.Sane B {x}) : (h.eraseClient x).Sane B ∅ where
  lobby := by
    rw [lobby_eraseClient, abroad_congr (h.aside_eraseClient x)]
    refine hs.lobby.leave fun y hy hab => ?_
    rcases hab with hab | hab
    · exact .inl hab
    · exact absurd (Finset.mem_singleton.mp hab) hy
  ring p hp := hs.ring p ((congrArg Prod.snd (h.aside_eraseClient x)).symm.trans hp)
  fed := by
    have hbooks : (h.eraseClient x).fedBooks = h.fedBooks :=
      congrArg Prod.fst (h.aside_eraseClient x)
    rw [hbooks]
    exact hs.fed

theorem forgetClient (hs : h.Sane B {x}) (c : Client) (kept : Bool) :
    (h.forgetClient env x c kept).Sane B ∅ := by
  unfold SimpleHub.forgetClient
  cases kept with
  | true =>
      refine Sane.informed (Sane.eraseClient ?_)
      refine hs.write rfl ?_
      rw [if_pos rfl, lobby_modify (g := fun s => { s with
        friendCall := if s.friendCall = c.friendCall then none else s.friendCall }) fun _ => rfl]
      exact hs.lobby.alter_any fun s hq => hq.loosen (.inl rfl) Seat.Sane.kept_or_none hq.faced
  | false => exact Sane.informed (Sane.eraseClient (hs.releaseOthers x c))

theorem releasePeer (hs : h.Sane B E) (y p : ConnId) (d : String) :
    (h.releasePeer env y d p).Sane B E := by
  unfold SimpleHub.releasePeer
  split
  · exact hs
  have hout : (h.unmatchOne env p d).Sane B E := hs.unmatchOne p d
  dsimp only
  split
  · split
    · exact hout.placeInSoloQueue p _ d
    · exact hout
  · exact hout

theorem clearMatchStateWithPartnerMsg (hs : h.Sane B E) (y : ConnId) (d : String) :
    (h.clearMatchStateWithPartnerMsg env y d).Sane B E := by
  unfold SimpleHub.clearMatchStateWithPartnerMsg
  dsimp only
  refine Sane.foldl (fun h p hs => hs.releasePeer y p d) _ ?_
  have hbook := (h.dequeueClient y).aside_clearFedForClient y
  refine hs.clear (x := y) hbook (lobby_modify (g := fun s => { s with
      partner := none
      peers := ∅
      phase := if s.phase = .matched ∨ s.phase = .waiting then .idle else s.phase })
    fun _ => rfl) ?_
  rw [lobby_clearFedForClient, lobby_dequeueClient]
  refine (hs.lobby.drop y).cleared.alter_cleared fun s hq => ?_
  refine hq.empty ?_ (.inl rfl) (.inl rfl)
  split
  · simp
  · next hne => exact fun hm => hne (.inl hm)

theorem clearMatchState (hs : h.Sane B E) (y : ConnId) : (h.clearMatchState env y).Sane B E :=
  hs.clearMatchStateWithPartnerMsg y _

/-- A write that leaves the seat with nobody but perhaps its friend. -/
theorem modify_free (hs : h.Sane B E) {y : ConnId} {f : Client → Client} {p : Phase}
    (hp : p ≠ .matched) (hf : ∀ c, (f c).seat = ⟨p, none, ∅, none, none⟩) :
    (h.modify y f).Sane B E :=
  hs.write rfl (by
    rw [lobby_modify (g := fun _ => ⟨p, none, ∅, none, none⟩) hf]
    exact hs.lobby.alter_any fun s hq => hq.empty hp (.inr rfl) (.inr rfl))

/-- A write that drops the mate and perhaps changes the phase, never to a
match. -/
theorem modify_loosen (hs : h.Sane B E) {y : ConnId} {f : Client → Client} {g : Seat → Seat}
    (hf : ∀ c, (f c).seat = g c.seat)
    (hg : ∀ s : Seat, s.Sane B (h.Abroad E y) y → (g s).Sane B (h.Abroad E y) y) :
    (h.modify y f).Sane B E :=
  hs.write rfl (by
    rw [lobby_modify hf]
    exact hs.lobby.alter_any hg)

theorem dequeueClient (hs : h.Sane B E) (y : ConnId) : (h.dequeueClient y).Sane B E :=
  hs.write rfl (hs.lobby.drop y)

theorem enqueueSolo (hs : h.Sane B E) (y : ConnId) : (h.enqueueSolo y).Sane B E :=
  hs.write (h.aside_enqueueSolo y) (by
    rw [lobby_enqueueSolo]
    exact hs.lobby.enqueueSolo y)

theorem stopKept (hs : h.Sane B E) (y : ConnId) : (h.stopKept env y).Sane B E := by
  have hfree := hs.modify_free (y := y) (p := .idle) (f := fun c =>
    { c with
      phase := .idle
      partyWith := none
      strangerParty := false
      partner := none
      sessionPeers := ∅
      sessionId := none
      friendCall := none }) (by simp) fun _ => rfl
  exact ((hfree.dequeueClient y).status y _).informed

theorem dropParty (hs : h.Sane B E) (y : ConnId) : (h.modify y SimpleHub.dropParty).Sane B E :=
  hs.modify_loosen (g := fun s => { s with partyWith := none }) (fun _ => rfl) fun _ hq =>
    hq.loosen (.inr rfl) (.inl rfl) hq.faced

theorem stopAlone (hs : h.Sane B E) (y : ConnId) : (h.stopAlone env y).Sane B E := by
  unfold SimpleHub.stopAlone
  dsimp only
  have hparty : (Ruletka.onSome (h.partyWithOf y) h fun h pid =>
      (h.modify y SimpleHub.dropParty).modify pid SimpleHub.dropParty).Sane B E :=
    hs.onSome fun p _ => (hs.dropParty y).dropParty p
  refine Sane.informed (Sane.status ?_ _ _)
  refine (hparty.clearMatchStateWithPartnerMsg y _).modify_loosen (g := fun s =>
    { s with phase := .idle, partyWith := none, friendCall := none }) (fun _ => rfl) fun _ hq => ?_
  exact hq.loosen (.inr rfl) (.inr rfl) (by simp)

theorem partyRequeueSide (hs : h.Sane B E) (room : String) (y : ConnId) :
    (h.partyRequeueSide env room y).Sane B E :=
  hs.write (h.aside_partyRequeueSide env y room) (by
    rw [lobby_partyRequeueSide]
    exact hs.lobby.requeueSide (env.peerOrder y) y)

-- =================================================================== matching

theorem setQueue (hs : h.Sane B E) {q : List QueueEntry} (hq : Slots B.loops q) :
    (h.setQueue q).Sane B E :=
  hs.write rfl ⟨hs.lobby.seats, hq⟩

theorem startSoloMatch (hs : h.Sane B E) {a b : ConnId} (hab : a = b → B.loops) :
    (h.startSoloMatch env a b).Sane B E :=
  hs.write (h.aside_startSoloMatch env a b) (by
    rw [lobby_startSoloMatch]
    exact hs.lobby.pair hab)

theorem takeWaitStarted (hs : h.Sane B E) (y : ConnId) : (h.takeWaitStarted y).Sane B E :=
  hs.same (lobby_takeWaitStarted y) rfl

/-- Two solo slots are paired when both wait, else the waiters queue again. -/
theorem pairSolo (hs : h.Sane B E) {a b : ConnId} (hd : Unrepeated B [a, b]) :
    (if h.phaseOf a = some .waiting && h.phaseOf b = some .waiting then
        ((h.takeWaitStarted a).takeWaitStarted b).startSoloMatch env a b
      else [a, b].foldl (fun h id =>
        if h.phaseOf id = some .waiting then h.enqueueSolo id else h) h).Sane B E := by
  split
  · exact ((hs.takeWaitStarted a).takeWaitStarted b).startSoloMatch (hd.refutes (by simp))
  · refine Sane.foldl (fun k y hk => ?_) [a, b] hs
    split
    · exact hk.enqueueSolo y
    · exact hk

/-- A party and a third are paired, unless the party has one already. -/
theorem pairTrio (hs : h.Sane B E) {s a b : ConnId} (hd : Unrepeated B [s, a, b]) :
    (if h.partyAlreadyIn1v2 a b then
        if h.phaseOf s = some .waiting then h.enqueueSolo s else h
      else (((h.takeWaitStarted s).takeWaitStarted a).takeWaitStarted b).startPartyVsSolo
        env s a b).Sane B E := by
  split
  · split
    · exact hs.enqueueSolo s
    · exact hs
  · refine hs.write rfl ?_
    rw [lobby_startPartyVsSolo, lobby_takeWaitStarted, lobby_takeWaitStarted,
      lobby_takeWaitStarted]
    exact (hs.lobby.trio hd).of_cleared

theorem pairEntries (hs : h.Sane B E) {e f : QueueEntry}
    (hd : Unrepeated B (queueEntryIds e ++ queueEntryIds f)) :
    (h.pairEntries env e f).Sane B E := by
  cases e with
  | solo a =>
    cases f with
    | solo b => exact hs.pairSolo hd
    | party a' b' => exact hs.pairTrio hd
    | party3 _ _ _ => exact hs
  | party a b =>
    cases f with
    | solo s =>
        refine hs.pairTrio fun hn => ?_
        have hnd : [a, b, s].Nodup := hd hn
        grind
    | party b1 b2 =>
        refine hs.write rfl ?_
        unfold SimpleHub.pairEntries
        rw [lobby_startPartyVsParty, lobby_takeWaitStarted, lobby_takeWaitStarted,
          lobby_takeWaitStarted, lobby_takeWaitStarted]
        exact hs.lobby.duo hd
    | party3 _ _ _ => exact hs
  | party3 _ _ _ =>
      cases f with
      | solo _ => exact hs
      | party _ _ => exact hs
      | party3 _ _ _ => exact hs

/-- **Step**: one turn of the pairing loop. -/
theorem turn (hs : h.Sane B E) {n : Nat} {first : QueueEntry} {rest : List QueueEntry}
    {r : SimpleHub × Bool} (hq : h.queue = first :: rest)
    (ht : Turn env n h first rest r) : r.1.Sane B E := by
  have hslots := hs.lobby.slots
  rw [queue_lobby, hq] at hslots
  cases ht with
  | drop hdead => exact hs.setQueue (hslots.sublist (List.sublist_cons_self first rest))
  | rotate hw hp hnone =>
      exact hs.setQueue (hslots.perm (@List.perm_append_comm _ rest [first]).symm)
  | @pair i second hi hm =>
      refine Sane.pairEntries (hs.setQueue ?_) fun hn => hslots.pair (List.mem_of_getElem? hi) hn
      exact hslots.sublist
        ((List.eraseIdx_sublist rest i).trans (List.sublist_cons_self first rest))

/-- **Run**: the pairing loop under any budget. -/
theorem matchLoop (n : Nat) (hs : h.Sane B E) : (SimpleHub.matchLoop env n h).Sane B E := by
  induction n generalizing h with
  | zero => exact hs
  | succ n ih =>
      cases hq : h.queue with
      | nil => rwa [matchLoop_nil hq]
      | cons first rest =>
          rw [matchLoop_cons hq]
          have ht := hs.turn hq (matchTurn_cases h env n first rest)
          unfold afterTurn
          split
          · exact ih ht
          · exact ht

theorem rematch (hs : h.Sane B E) : (h.rematch env).Sane B E := hs.matchLoop _

-- =================================================================== the continuation

/-- Every call of the continuation keeps the order. -/
def Kept (B : Bounds) (tm : SimpleHub → Option SimpleHub) : Prop :=
  ∀ k k', k.Sane B ∅ → tm k = some k' → k'.Sane B ∅

section Continuation

variable {tm : SimpleHub → Option SimpleHub} (htm : Kept B tm)

include htm

/-- A leaver with two peers has a partner, so that it needs no excuse while
the pair hunts. -/
theorem leaveThird (hE : E ⊆ {x}) (hs : h.Sane B E) {c : Client} (hc : h.get x = some c)
    (hcard : c.sessionPeers.card = 2) {d : String} {r : SimpleHub × Bool}
    (hr : h.leaveThird env tm x c.sessionPeers d = some r) : r.1.Sane B E := by
  have hfull : h.Sane B ∅ := by
    refine ⟨⟨fun y s hy => ?_, hs.lobby.slots⟩, hs.ring, hs.fed⟩
    have hq := hs.lobby.seats y s hy
    refine { hq with faced := fun hm hp => ?_ }
    rcases hq.faced hm hp with hab | hab
    · exact .inl hab
    · obtain rfl := Finset.mem_singleton.mp (hE hab)
      rw [seat_lobby, hc] at hy
      obtain rfl := Option.some.inj hy
      have hnone : c.sessionPeers = ∅ := hq.alone hp
      rw [hnone] at hcard
      cases hcard
  have hweak : ∀ {k : SimpleHub}, k.Sane B ∅ → k.Sane B E :=
    fun hk => hk.mono (Finset.empty_subset _)
  unfold SimpleHub.leaveThird at hr
  split at hr
  · next a b hrun =>
    have hab : a = b → B.loops := fun heq => absurd heq (run_eq_pair hrun).1
    split at hr
    · obtain ⟨k, hk, hd⟩ := Option.bind_eq_some_iff.mp hr
      cases hd
      exact hweak (htm _ _ (hfull.huntAgain hab x) hk)
    · split at hr
      · cases hr
        exact hs.collapseToSolo1v1 hab d
      · cases hr
        exact hs
  · cases hr
    exact hs

theorem leaveKeepRemainingPair (hE : E ⊆ {x}) (hs : h.Sane B E) {d : String} {r : SimpleHub × Bool}
    (hr : h.leaveKeepRemainingPair env tm x d = some r) : r.1.Sane B E := by
  unfold SimpleHub.leaveKeepRemainingPair at hr
  split at hr
  · cases hr
    exact hs
  next c hc =>
  split at hr
  · split at hr
    · cases hr
      exact hs.leaveMate x _ _ d
    · cases hr
      exact hs
  · split at hr
    · next hcard =>
      simp only [Bool.and_eq_true, decide_eq_true_eq] at hcard
      exact leaveThird htm hE hs hc hcard.1 hr
    · cases hr
      exact hs

-- ================================================================== removal

theorem removeClient (hs : h.Sane B ∅) (hr : h.removeClient env tm x = some h') :
    h'.Sane B ∅ := by
  have hhold : (h.shouldKeepWsHold env x).1.Sane B ∅ := by
    rcases @shouldKeepWsHold_cases h env x with ⟨hk, -⟩ | ⟨hk, -⟩ | hk
    · rwa [hk]
    · rw [hk]
      exact hs.record fun _ => rfl
    · rwa [hk]
  unfold SimpleHub.removeClient at hr
  generalize h.shouldKeepWsHold env x = q at hhold hr
  obtain ⟨k, kept⟩ := q
  dsimp only at hhold hr
  split at hr
  · cases hr
    exact hhold
  have hout : (k.withdraw x).Sane B {x} := hhold.withdraw x
  split at hr
  · next hnone =>
    cases hr
    exact hout.unexcused hnone
  · obtain ⟨⟨k', left⟩, hk', hd⟩ := Option.bind_eq_some_iff.mp hr
    have hleft : k'.Sane B {x} :=
      leaveKeepRemainingPair htm (Finset.Subset.refl _) hout hk'
    exact htm _ _ (hleft.forgetClient _ _) hd

theorem expireWsHolds (hs : h.Sane B ∅) (hr : h.expireWsHolds env tm = some h') :
    h'.Sane B ∅ := by
  unfold SimpleHub.expireWsHolds at hr
  generalize env.mapOrder.run (h.connsWhere (Client.holdExpired env)) = l at hr
  induction l generalizing h with
  | nil =>
      cases hr
      exact hs
  | cons x l ih =>
      rw [List.foldlM_cons] at hr
      obtain ⟨k, hk, hd⟩ := Option.bind_eq_some_iff.mp hr
      obtain ⟨r, hr', hforgive⟩ := Option.bind_eq_some_iff.mp hk
      cases hforgive
      exact ih ((removeClient htm hs hr').same (lobby_forgive _) (aside_forgive r _)) hd

end Continuation

/-- **Run**: `try_match` keeps the order, however deep it nests. -/
theorem tryMatch (n : Nat) : Kept B (SimpleHub.tryMatch env n) := by
  induction n with
  | zero =>
      intro k k' _ hr
      cases hr
  | succ n ih =>
      intro k k' hs hr
      obtain ⟨r, hk, hd⟩ := Option.bind_eq_some_iff.mp hr
      cases hd
      exact (expireWsHolds ih hs hk).rematch

end Sane

-- ================================================================= the pairings

/-- **The pairing loop is sound.** What `try_match` does after the sweep is a
run of the loop; from a well-formed queue every pairing of it is sound, and
a slot it does not use keeps its members' records and its place. The sweep
does nothing unless a hold has expired, and leaves a well-formed queue when
the hub is in order and nobody points at itself. -/
theorem tryMatch_sound {n : Nat} {h h' : SimpleHub} {env : Env}
    (ht : SimpleHub.tryMatch env (n + 1) h = some h') :
    ∃ k log, h.expireWsHolds env (SimpleHub.tryMatch env n) = some k ∧ MatchRun env k log h'
      ∧ (h.expired env = ∅ → k = h)
      ∧ (∀ B : Bounds, ¬ B.loops → h.Sane B ∅ → k.WellQueued)
      ∧ (k.WellQueued → (∀ p ∈ log, p.Sound env)
        ∧ ∀ e ∈ k.queue, (∀ p ∈ log, p.first ≠ e ∧ p.second ≠ e) →
          (∀ x ∈ queueEntryIds e, h'.get x = k.get x)
            ∧ (k.queueEntryWaitingOk e = true → ¬ e.IsParty3 → e ∈ h'.queue)) := by
  obtain ⟨k, hk, hrem⟩ := Option.bind_eq_some_iff.mp ht
  obtain ⟨log, hlog⟩ := matchLoop_run env (max (k.queue.length * 4) 8) k
  cases hrem
  refine ⟨k, log, hk, hlog, fun hnone => ?_, fun B hn hs => ?_, fun hw => ?_⟩
  · rw [expireWsHolds_eq_self hnone] at hk
    exact (Option.some.inj hk).symm
  · exact (Sane.expireWsHolds (Sane.tryMatch n) hs hk).lobby.slots.nodup hn
  · refine ⟨hlog.sound hw, fun e he hun => ?_⟩
    obtain ⟨hsame, hstay⟩ := hlog.unused (hw.apart he) hun
    exact ⟨hsame, hstay he⟩

/-- Once the cool-down is over the two strangers are matched again: a waiting
slot is still queued when no pairing takes it. -/
theorem tryMatch_sound_parted : ∃ w h', (hubMachine plainSys).Reach w
    ∧ SimpleHub.tryMatch (plainEnv 19000) 1 w.hub = some h' ∧ w.hub.WellQueued
    ∧ ∃ log, log ≠ [] ∧ MatchRun (plainEnv 19000) w.hub log h'
      ∧ ∀ p ∈ log, p.Sound (plainEnv 19000) := by
  obtain ⟨w, hw, hp⟩ := @reach_of_replay plainSys 2 partedRun
    (fun w => (SimpleHub.tryMatch (plainEnv 19000) 1 w.hub).any (fun h' : SimpleHub =>
        decide (h'.queue = []))
      && decide (w.hub.expired (plainEnv 19000) = ∅ ∧ w.hub.WellQueued
        ∧ .solo 1 ∈ w.hub.queue ∧ w.hub.queueEntryWaitingOk (.solo 1) = true))
    (by decide)
  obtain ⟨hany, hd⟩ := Bool.and_eq_true_iff.mp hp
  obtain ⟨h', ht, hq⟩ := (Option.any_eq_true _ _).mp hany
  obtain ⟨hnone, hwell, hone, hwaits⟩ := of_decide_eq_true hd
  obtain ⟨k, log, -, hrun, hself, -, hsound⟩ := tryMatch_sound ht
  obtain rfl : k = w.hub := hself hnone
  obtain ⟨hpairs, hunused⟩ := hsound hwell
  refine ⟨w, h', hw, ht, hwell, log, fun hlog => ?_, hrun, hpairs⟩
  -- With no pairing the slot would stay.
  have hstay := (hunused _ hone (by rw [hlog]; exact fun _ hp => absurd hp List.not_mem_nil)).2
    hwaits (fun h3 => h3)
  rw [of_decide_eq_true hq] at hstay
  exact List.not_mem_nil hstay

end SimpleHub

end Ruletka
