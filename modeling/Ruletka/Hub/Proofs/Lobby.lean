/-
The session code computes the lobby's operations.

One equation for each operation: the lobby of the hub after it is the
operation of the same shape on the lobby before it. Messages, clocks, rooms
and session ids are gone on the right.
-/
import Ruletka.Hub.Lobby
import Ruletka.Hub.Proofs.Sweep

namespace Ruletka

namespace Lobby

variable (L : Lobby)

theorem ext_seat {L L' : Lobby} (hs : ∀ x, L.seat x = L'.seat x) (hq : L.queue = L'.queue) :
    L = L' := by
  obtain ⟨seat, queue⟩ := L
  obtain ⟨seat', queue'⟩ := L'
  obtain rfl : seat = seat' := funext hs
  obtain rfl : queue = queue' := hq
  rfl

@[simp, grind =]
theorem seat_alter (x : ConnId) (f : Seat → Seat) (y : ConnId) :
    (L.alter x f).seat y = if y = x then (L.seat y).map f else L.seat y := rfl

@[simp, grind =]
theorem seat_drop (x y : ConnId) : (L.drop x).seat y = L.seat y := rfl

@[simp, grind =]
theorem seat_push (e : QueueEntry) (y : ConnId) : (L.push e).seat y = L.seat y := rfl

@[simp, grind =]
theorem seat_leave (x y : ConnId) :
    (L.leave x).seat y = if y = x then none else L.seat y := rfl

@[simp, grind =]
theorem queue_alter (x : ConnId) (f : Seat → Seat) : (L.alter x f).queue = L.queue := rfl

@[simp, grind =]
theorem queue_drop (x : ConnId) :
    (L.drop x).queue = L.queue.filter fun e => x ∉ queueEntryIds e := rfl

@[simp, grind =]
theorem queue_push (e : QueueEntry) : (L.push e).queue = L.queue ++ [e] := rfl

@[simp, grind =]
theorem queue_leave (x : ConnId) : (L.leave x).queue = L.queue := rfl

/-- Rewrites of a seat that leave it as it is. -/
theorem alter_id {x : ConnId} {f : Seat → Seat} (hf : ∀ s, f s = s) :
    L.alter x f = L := by
  refine ext_seat (fun y => ?_) rfl
  simp [show f = id from funext hf]

end Lobby

namespace SimpleHub

variable {h : SimpleHub} {env : Env}

-- ============================================================ reading the lobby

@[simp]
theorem seat_lobby (x : ConnId) : h.lobby.seat x = (h.get x).map Client.seat := rfl

@[simp]
theorem queue_lobby : h.lobby.queue = h.queue := rfl

@[simp]
theorem has_lobby (x : ConnId) : h.lobby.has x = h.has x := by
  simp [Lobby.has, has]

@[simp]
theorem phaseOf_lobby (x : ConnId) : h.lobby.phaseOf x = h.phaseOf x := by
  simp only [Lobby.phaseOf, phaseOf, seat_lobby, Option.map_map]
  rfl

@[simp]
theorem peersOf_lobby (x : ConnId) : h.lobby.peersOf x = h.peersOf x := by
  simp only [Lobby.peersOf, peersOf, seat_lobby, Option.map_map]
  rfl

@[simp]
theorem partnerOf_lobby (x : ConnId) : h.lobby.partnerOf x = h.partnerOf x := by
  simp only [Lobby.partnerOf, partnerOf, seat_lobby]
  cases h.get x <;> rfl

@[simp]
theorem friendCallOf_lobby (x : ConnId) : h.lobby.friendCallOf x = h.friendCallOf x := by
  simp only [Lobby.friendCallOf, friendCallOf, seat_lobby]
  cases h.get x <;> rfl

@[simp]
theorem partyWithOf_lobby (x : ConnId) : h.lobby.partyWithOf x = h.partyWithOf x := by
  simp only [Lobby.partyWithOf, partyWithOf, seat_lobby]
  cases h.get x <;> rfl

@[simp]
theorem partyLinked_lobby (a b : ConnId) : h.lobby.partyLinked a b = h.partyLinked a b := by
  simp [Lobby.partyLinked, partyLinked]

-- ============================================================= writing the hub

/-- Two hubs with the same records and queue have the same lobby. -/
theorem lobby_congr {h h' : SimpleHub} (hg : ∀ x, h'.get x = h.get x)
    (hq : h'.queue = h.queue) : h'.lobby = h.lobby := by
  refine Lobby.ext_seat (fun x => ?_) hq
  rw [seat_lobby, seat_lobby, hg]

@[simp]
theorem lobby_emit (ms : List (ConnId × ServerMsg)) : (h.emit ms).lobby = h.lobby := rfl

@[simp]
theorem lobby_send (x : ConnId) (m : ServerMsg) : (h.send x m).lobby = h.lobby := rfl

@[simp]
theorem lobby_sendError (x : ConnId) (m : String) : (h.sendError x m).lobby = h.lobby :=
  rfl

@[simp]
theorem lobby_status (x : ConnId) (d : String) : (h.status x d).lobby = h.lobby :=
  lobby_congr (fun y => h.get_status x d y) (h.queue_status x d)

@[simp]
theorem lobby_broadcastLobbyInfo : (h.broadcastLobbyInfo env).lobby = h.lobby := rfl

@[simp]
theorem lobby_setFindThird (p : Option FindThirdPending) :
    (h.setFindThird p).lobby = h.lobby := rfl

@[simp]
theorem lobby_setJoinCall (p : Option JoinCallPending) :
    (h.setJoinCall p).lobby = h.lobby := rfl

@[simp]
theorem lobby_clearFedForClient (x : ConnId) :
    (h.clearFedForClient x).lobby = h.lobby := by
  unfold clearFedForClient
  split
  · rfl
  · rfl

@[simp]
theorem lobby_dequeueClient (x : ConnId) : (h.dequeueClient x).lobby = h.lobby.drop x :=
  rfl

/-- A write to a record is an alteration of its seat. -/
theorem lobby_modify {x : ConnId} {f : Client → Client} {g : Seat → Seat}
    (hfg : ∀ c, (f c).seat = g c.seat) : (h.modify x f).lobby = h.lobby.alter x g := by
  refine Lobby.ext_seat (fun y => ?_) rfl
  rw [seat_lobby, get_modify, Lobby.seat_alter, seat_lobby]
  split
  · rw [Option.map_map, Option.map_map]
    congr 1
    funext c
    exact hfg c
  · rfl

/-- A write to the other fields of a record. -/
@[simp]
theorem lobby_modify_same (x : ConnId) (f : Client → Client)
    (hf : ∀ c, (f c).phase = c.phase ∧ (f c).partner = c.partner
      ∧ (f c).sessionPeers = c.sessionPeers ∧ (f c).friendCall = c.friendCall
      ∧ (f c).partyWith = c.partyWith) : (h.modify x f).lobby = h.lobby := by
  rw [lobby_modify (g := id), Lobby.alter_id]
  · exact fun _ => rfl
  · intro c
    obtain ⟨h1, h2, h3, h4, h5⟩ := hf c
    simp only [Client.seat, h1, h2, h3, h4, h5, id]

@[simp]
theorem lobby_takeWaitStarted (x : ConnId) : (h.takeWaitStarted x).lobby = h.lobby := by
  simp [takeWaitStarted]

@[simp]
theorem lobby_forgive (p : Option ConnId) : (h.forgive p).lobby = h.lobby := by
  cases p
  · rfl
  · simp [forgive, onSome]

-- ================================================================ the operations

@[simp]
theorem lobby_enqueueSolo (x : ConnId) :
    (h.enqueueSolo x).lobby = h.lobby.enqueueSolo x := by
  have hout : QueueEntry.solo x ∉ (h.dequeueClient x).queue := by
    simp [queueEntryIds]
  unfold enqueueSolo
  dsimp only
  rw [if_neg hout]
  rfl

@[simp]
theorem lobby_enqueueParty (a b : ConnId) :
    (h.enqueueParty env a b).lobby = h.lobby.enqueueParty a b := by
  have hwait : ((h.modify a (·.startWait env)).modify b (·.startWait env)).lobby
      = h.lobby := by
    simp [Client.startWait]
  unfold enqueueParty Lobby.enqueueParty
  dsimp only
  rw [lobby_modify (g := (·.huntWith a)) fun c => rfl,
    lobby_modify (g := (·.huntWith b)) fun c => rfl]
  congr 2
  rw [← hwait]
  rfl

@[simp]
theorem lobby_linkSolo (sid : SessionId) (a b : ConnId) :
    (h.linkSolo env sid a b).lobby
      = (h.lobby.alter a (·.pairWith b)).alter b (·.pairWith a) := by
  unfold linkSolo
  dsimp only
  rw [lobby_modify (g := (·.pairWith a)) fun c => rfl,
    lobby_modify (g := (·.pairWith b)) fun c => rfl]

@[simp]
theorem lobby_startSoloMatch (a b : ConnId) :
    (h.startSoloMatch env a b).lobby = h.lobby.pair a b := by
  unfold startSoloMatch Lobby.pair
  rw [phaseOf_lobby, phaseOf_lobby]
  split
  case isTrue hm =>
    simp only [Bool.and_eq_true, decide_eq_true_eq] at hm
    rw [if_neg]
    rw [hm.1.1.1]
    simp
  case isFalse =>
    split
    case isTrue hw =>
      rw [if_neg]
      simpa [Bool.or_eq_true, Decidable.imp_iff_not_or] using hw
    case isFalse hw =>
      rw [if_pos]
      · simp
      · simpa using hw

@[simp]
theorem lobby_startFriendSession (a b : ConnId) :
    (h.startFriendSession env a b).lobby = h.lobby.call a b := by
  unfold startFriendSession linkFriends Lobby.call
  dsimp only
  rw [lobby_emit, lobby_modify (g := (·.callWith a)) fun c => rfl,
    lobby_modify (g := (·.callWith b)) fun c => rfl]

@[simp]
theorem lobby_startPartyVsSolo (s a b : ConnId) :
    (h.startPartyVsSolo env s a b).lobby = h.lobby.trio s a b := by
  have side : ∀ (same : Bool) (c : Client) (sid : SessionId) (peers : List ConnId)
      (party : Option ConnId) (last : ConnId),
      (c.joinTrio env sid same peers party last).seat = c.seat.join peers party := by
    intro same c sid peers party last
    cases same
    · rfl
    · rfl
  unfold startPartyVsSolo linkPartyVsSolo Lobby.trio
  dsimp only
  rw [lobby_broadcastLobbyInfo, lobby_emit,
    lobby_modify (g := (·.join [s, a] (some a))) fun c => side _ c _ _ _ _,
    lobby_modify (g := (·.join [s, b] (some b))) fun c => side _ c _ _ _ _,
    lobby_modify (g := (·.join [a, b] none)) fun c => side _ c _ _ _ _]
  rfl

@[simp]
theorem lobby_startPartyVsParty (a1 a2 b1 b2 : ConnId) :
    (h.startPartyVsParty env a1 a2 b1 b2).lobby = h.lobby.duo a1 a2 b1 b2 := by
  unfold startPartyVsParty linkPartyVsParty Lobby.duo
  dsimp only
  rw [lobby_broadcastLobbyInfo, lobby_emit,
    lobby_modify (g := (·.join [a1, a2, b1] (some b1))) fun c => rfl,
    lobby_modify (g := (·.join [a1, a2, b2] (some b2))) fun c => rfl,
    lobby_modify (g := (·.join [b1, b2, a1] (some a1))) fun c => rfl,
    lobby_modify (g := (·.join [b1, b2, a2] (some a2))) fun c => rfl]

@[simp]
theorem lobby_startThreePersonJoin (a b c : ConnId) :
    (h.startThreePersonJoin env a b c).lobby = h.lobby.join3 a b c := by
  unfold startThreePersonJoin linkThree Lobby.join3
  dsimp only
  rw [lobby_broadcastLobbyInfo, lobby_status, lobby_status, lobby_status, lobby_emit]
  rw [lobby_modify (g := fun s =>
      { s.join [a, b] none with friendCall := if c = c then none else s.friendCall })
      fun cl => rfl,
    lobby_modify (g := fun s =>
      { s.join [a, c] (some a) with friendCall := if b = c then none else s.friendCall })
      fun cl => rfl,
    lobby_modify (g := fun s =>
      { s.join [b, c] (some b) with friendCall := if a = c then none else s.friendCall })
      fun cl => rfl]

@[simp]
theorem lobby_startFourPersonJoin (a b c d : ConnId) :
    (h.startFourPersonJoin env a b c d).lobby = h.lobby.join4 a b c d := by
  unfold startFourPersonJoin Lobby.join4
  rw [has_lobby, has_lobby, has_lobby, has_lobby]
  split
  case isTrue hm =>
    rw [if_neg]
    rintro ⟨ha, hb, hc, hd⟩
    simp [ha, hb, hc, hd] at hm
  case isFalse hm =>
    rw [if_pos (by simpa [and_assoc] using hm)]
    unfold linkFour
    dsimp only
    rw [lobby_broadcastLobbyInfo, lobby_status, lobby_status, lobby_status, lobby_status,
      lobby_emit]
    rw [lobby_modify (g := fun s => { s.join [a, b, c] none with
          friendCall := if d = d then none else s.friendCall }) fun cl => rfl,
      lobby_modify (g := fun s => { s.join [a, b, d] (some a) with
          friendCall := if c = d then none else s.friendCall }) fun cl => rfl,
      lobby_modify (g := fun s => { s.join [a, c, d] (some a) with
          friendCall := if b = d then none else s.friendCall }) fun cl => rfl,
      lobby_modify (g := fun s => { s.join [b, c, d] (some b) with
          friendCall := if a = d then none else s.friendCall }) fun cl => rfl]

@[simp]
theorem lobby_unmatchOne (x : ConnId) (d : String) :
    (h.unmatchOne env x d).lobby = h.lobby.unmatchOne x := by
  have hparty : ((h.dequeueClient x).clearFedForClient x).partyWithOf x
      = h.partyWithOf x := by
    simp [partyWithOf]
  unfold unmatchOne Lobby.unmatchOne
  dsimp only
  rw [partyWithOf_lobby, hparty]
  -- the record of the leaver after the write, and the lobby of that hub
  generalize hk : (((h.dequeueClient x).clearFedForClient x).modify x fun c =>
    { c with
      partner := none
      sessionPeers := ∅
      sessionId := none
      matchStarted := none
      lastUnmatchAt := some env.now
      phase :=
        if c.partyWith.isSome then .waiting
        else if c.friendCall.isSome then .friendCall
        else .idle }) = k
  have hlob : k.lobby = (h.lobby.drop x).alter x Seat.unmatch := by
    rw [← hk, lobby_modify (g := Seat.unmatch) fun c => rfl, lobby_clearFedForClient,
      lobby_dequeueClient]
  have hhas : ∀ y, k.has y = h.has y := fun y => by
    rw [← has_lobby, hlob, ← has_lobby]
    simp only [Lobby.has, Lobby.seat_alter, Lobby.seat_drop]
    split
    · simp
    · rfl
  have hst : ∀ y, (k.status x d).has y = h.has y := fun y => by
    rw [← hhas, has, get_status, has]
  cases h.partyWithOf x with
  | none => rw [lobby_status, hlob]
  | some p =>
      dsimp only
      rw [hst, hst, has_lobby, has_lobby]
      split
      case isTrue hb =>
        rw [if_pos (by simpa using hb), lobby_enqueueParty, lobby_status, hlob]
      case isFalse hb =>
        rw [if_neg (by simpa using hb), lobby_status, hlob]

@[simp]
theorem lobby_forceSessionIdle (x : ConnId) (d : String) :
    (h.forceSessionIdle x d).lobby = h.lobby.forceIdle x := by
  unfold forceSessionIdle Lobby.forceIdle
  dsimp only
  rw [lobby_status, lobby_modify (g := fun _ => .free) fun c => rfl]
  rfl

@[simp]
theorem lobby_collapseToSolo1v1 (a b : ConnId) (d : String) :
    (h.collapseToSolo1v1 env a b d).lobby = h.lobby.collapse a b := by
  unfold collapseToSolo1v1 Lobby.collapse
  dsimp only
  rw [lobby_status, lobby_status, lobby_startSoloMatch,
    lobby_modify (g := fun _ => { Seat.free with phase := .waiting }) fun c => rfl,
    lobby_modify (g := fun _ => { Seat.free with phase := .waiting }) fun c => rfl]
  rfl

@[simp]
theorem lobby_notifyPartyBrowseSearching (a b : ConnId) :
    (h.notifyPartyBrowseSearching a b).lobby = h.lobby := rfl

@[simp]
theorem lobby_endFriendCall (x : ConnId) (r : String) :
    (h.endFriendCall x r).lobby = h.lobby.endFriendCall x := by
  have side : ∀ (k : SimpleHub) (y : ConnId),
      ((((k.modify y Client.hangUp).dequeueClient y).send y (.callEnded r)).status
        y r).lobby = k.lobby.hangUp y := by
    intro k y
    rw [lobby_status, lobby_send, lobby_dequeueClient,
      lobby_modify (g := fun _ => .free) fun c => rfl]
    rfl
  unfold endFriendCall Lobby.endFriendCall
  dsimp only
  rw [friendCallOf_lobby]
  cases h.friendCallOf x with
  | none => exact side h x
  | some f =>
      dsimp only
      rw [side, side]

@[simp]
theorem lobby_huntAgain (x a b : ConnId) :
    (h.huntAgain env x a b).lobby = h.lobby.huntAgain x a b := by
  unfold huntAgain Lobby.huntAgain
  dsimp only
  rw [lobby_broadcastLobbyInfo, lobby_status, lobby_status,
    lobby_notifyPartyBrowseSearching, lobby_enqueueParty,
    lobby_modify (g := fun s => { s with
      peers := s.peers.erase x, partner := s.partyWith, phase := .waiting })
      fun c => rfl,
    lobby_modify (g := fun s => { s with
      peers := s.peers.erase x, partner := s.partyWith, phase := .waiting })
      fun c => rfl]

@[simp]
theorem lobby_dissolveParty (x p : ConnId) :
    (h.dissolveParty x p).lobby = h.lobby.dissolve x p := by
  unfold dissolveParty Lobby.dissolve
  dsimp only
  rw [lobby_dequeueClient, lobby_send, lobby_modify]
  exact fun c => rfl

/-- Folding operations of the hub folds their lobby operations. -/
theorem lobby_foldl {α : Type} {f : SimpleHub → α → SimpleHub} {g : Lobby → α → Lobby}
    (hfg : ∀ h a, (f h a).lobby = g h.lobby a) (l : List α) :
    (l.foldl f h).lobby = l.foldl g h.lobby := by
  induction l generalizing h with
  | nil => rfl
  | cons a l ih => rw [List.foldl_cons, List.foldl_cons, ih, hfg]

theorem strangers_lobby (o : IterOrder ConnId) (m : ConnId) (ps : Finset ConnId) :
    h.lobby.strangers o m ps = (o.run ps).filter fun p => p ≠ m && h.has p := by
  simp only [Lobby.strangers, has_lobby]

@[simp]
theorem lobby_unmate (m x : ConnId) : (h.unmate m x).lobby = h.lobby.unmate m x :=
  lobby_modify fun _ => rfl

@[simp]
theorem lobby_pruneAll (x : ConnId) (l : List ConnId) :
    (h.pruneAll env x l).lobby = h.lobby.pruneAll env.peerOrder x l :=
  lobby_foldl (fun _ _ => lobby_modify fun _ => rfl) l

@[simp]
theorem lobby_keepStrangers (m : ConnId) (d : String) (l : List ConnId) :
    (h.keepStrangers env m d l).lobby = h.lobby.keepStrangers m l := by
  have idle : ∀ (k : SimpleHub) (l : List ConnId),
      (l.foldl (fun h x => h.forceSessionIdle x "partner left") k).lobby
        = l.foldl Lobby.forceIdle k.lobby :=
    fun k l => lobby_foldl (fun h x => lobby_forceSessionIdle x _) l
  unfold keepStrangers Lobby.keepStrangers
  split
  · rw [lobby_status, lobby_dequeueClient,
      lobby_modify (g := fun s => { Seat.free with friendCall := s.friendCall })
        fun c => rfl]
  · exact lobby_collapseToSolo1v1 ..
  · next o0 o1 extra =>
    dsimp only
    rw [partyLinked_lobby, has_lobby, has_lobby, has_lobby]
    split
    case isTrue hm =>
      rw [if_pos (by simpa [and_assoc] using hm), lobby_status, lobby_status, lobby_status,
        lobby_startPartyVsSolo, idle]
    case isFalse hm =>
      rw [if_neg (by simpa [and_assoc] using hm), lobby_collapseToSolo1v1, idle]

@[simp]
theorem lobby_leaveMate (x m : ConnId) (ps : Finset ConnId) (d : String) :
    (h.leaveMate env x m ps d).lobby = h.lobby.leaveMate env.peerOrder x m ps := by
  unfold leaveMate Lobby.leaveMate
  dsimp only
  rw [lobby_keepStrangers, lobby_unmate, lobby_pruneAll, strangers_lobby]

/-- A conditional operation is conditional in the lobby. -/
theorem lobby_onSome {α : Type} {f : SimpleHub → α → SimpleHub} {g : Lobby → α → Lobby}
    (hfg : ∀ a, (f h a).lobby = g h.lobby a) (o : Option α) :
    (onSome o h f).lobby = onSome o h.lobby g := by
  cases o with
  | none => rfl
  | some a => exact hfg a

@[simp]
theorem lobby_releaseOthers (x : ConnId) (c : Client) :
    (h.releaseOthers env x c).lobby
      = h.lobby.releaseOthers (env.peerOrder x) x c.seat := by
  unfold releaseOthers Lobby.releaseOthers
  dsimp only
  rw [lobby_onSome (g := fun L p => if p ∈ L.peersOf x then L else L.unmatchOne p),
    lobby_foldl (g := Lobby.unmatchOne), lobby_onSome (g := (·.dissolve x ·)),
    lobby_onSome (g := Lobby.endFriendCall)]
  · rfl
  · exact fun f => lobby_endFriendCall f _
  · exact fun p => lobby_dissolveParty x p
  · exact fun h p => lobby_unmatchOne p _
  · intro p
    rw [peersOf_lobby]
    split
    · rfl
    · exact lobby_unmatchOne p _

theorem lobby_eraseClient (x : ConnId) : (h.eraseClient x).lobby = h.lobby.leave x := by
  unfold eraseClient
  split
  · next c hc =>
    refine Lobby.ext_seat (fun y => ?_) rfl
    show ((h.clients.del x).get? y).map Client.seat = _
    rw [Table.get?_del, Lobby.seat_leave]
    split
    · rfl
    · rfl
  · next hc =>
    refine Lobby.ext_seat (fun y => ?_) rfl
    rw [Lobby.seat_leave]
    split
    case isTrue hy => rw [hy, seat_lobby, hc]; rfl
    case isFalse => rfl

@[simp]
theorem lobby_dropFindThird (x : ConnId) : (h.dropFindThird x).lobby = h.lobby := by
  unfold dropFindThird
  split
  · split
    · rfl
    · rfl
  · rfl

@[simp]
theorem lobby_withdraw (x : ConnId) : (h.withdraw x).lobby = h.lobby.drop x := by
  simp [withdraw]

@[simp]
theorem lobby_placeInSoloQueue (x : ConnId) (room d : String) :
    (h.placeInSoloQueue env x room d).lobby = h.lobby.placeAlone x := by
  unfold placeInSoloQueue Lobby.placeAlone
  dsimp only
  rw [lobby_broadcastLobbyInfo, lobby_status, lobby_enqueueSolo,
    lobby_modify (g := Seat.alone) fun c => rfl, lobby_dequeueClient]

@[simp]
theorem lobby_releasePeer (x p : ConnId) (d : String) :
    (h.releasePeer env x d p).lobby = h.lobby.releasePeer x p := by
  unfold releasePeer Lobby.releasePeer
  rw [friendCallOf_lobby, partyWithOf_lobby]
  by_cases hlink : h.friendCallOf x = some p ∨ h.partyWithOf x = some p
  · rw [if_pos hlink, if_pos (by simpa using hlink)]
  · rw [if_neg hlink, if_neg (by simpa using hlink)]
    dsimp only
    rw [← @lobby_unmatchOne _ env p d, seat_lobby]
    cases (h.unmatchOne env p d).get p with
    | none => rfl
    | some c =>
        dsimp only
        rw [Option.map_some, Option.any_some]
        split
        case isTrue hi =>
          rw [if_pos (show (c.seat.friendCall.isNone && c.seat.partyWith.isNone
            && c.seat.phase = .idle) = true from hi), lobby_placeInSoloQueue]
        case isFalse hi =>
          rw [if_neg (show ¬ (c.seat.friendCall.isNone && c.seat.partyWith.isNone
            && c.seat.phase = .idle) = true from hi)]

@[simp]
theorem lobby_clearMatchStateWithPartnerMsg (x : ConnId) (d : String) :
    (h.clearMatchStateWithPartnerMsg env x d).lobby
      = h.lobby.clearMatch (env.peerOrder x) x := by
  unfold clearMatchStateWithPartnerMsg Lobby.clearMatch
  dsimp only
  rw [lobby_foldl (g := fun L p => L.releasePeer x p)
    (fun h p => lobby_releasePeer x p d), peersOf_lobby]
  congr 1
  rw [lobby_modify (g := fun s => { s with
      partner := none
      peers := ∅
      phase := if s.phase = .matched ∨ s.phase = .waiting then .idle else s.phase })
    fun c => rfl, lobby_clearFedForClient, lobby_dequeueClient]

@[simp]
theorem lobby_partyRequeueSide (x : ConnId) (room : String) :
    (h.partyRequeueSide env room x).lobby
      = h.lobby.requeueSide (env.peerOrder x) x := by
  unfold partyRequeueSide Lobby.requeueSide
  dsimp only
  refine (lobby_modify fun c => by rfl).trans (congrArg (fun L => Lobby.alter L x _) ?_)
  rw [lobby_foldl (g := Lobby.placeAlone) (fun h s => lobby_placeInSoloQueue s room _),
    seat_lobby]
  cases h.get x with
  | none => rfl
  | some c => rfl

theorem lobby_forgetClient (x : ConnId) (c : Client) (kept : Bool) :
    (h.forgetClient env x c kept).lobby
      = (if kept then h.lobby.alter x fun s => { s with
            friendCall := if s.friendCall = c.friendCall then none else s.friendCall }
          else h.lobby.releaseOthers (env.peerOrder x) x c.seat).leave x := by
  unfold forgetClient
  rw [lobby_broadcastLobbyInfo, lobby_eraseClient]
  cases kept with
  | true =>
      rw [if_pos rfl, if_pos rfl, lobby_modify]
      exact fun _ => rfl
  | false => rw [if_neg (by simp), if_neg (by simp), lobby_releaseOthers]

/-- The trio leave, with the call of `try_match` left to the caller. -/
theorem lobby_leaveQuiet (x : ConnId) (d : String) :
    (h.leaveQuiet env x d).1.lobby = (h.lobby.leaveKeep env.peerOrder x).1
      ∧ (h.leaveQuiet env x d).2 = (h.lobby.leaveKeep env.peerOrder x).2 := by
  unfold leaveQuiet leaveKeepRemainingPair Lobby.leaveKeep
  rw [seat_lobby]
  cases hc : h.get x with
  | none => exact ⟨rfl, rfl⟩
  | some c =>
    simp only [Option.map_some, Client.seat]
    cases hp : c.partyWith with
    | some m =>
        simp only [has_lobby]
        split
        · exact ⟨lobby_leaveMate x m c.sessionPeers d, rfl⟩
        · exact ⟨rfl, rfl⟩
    | none =>
        simp only [Bool.and_eq_true, decide_eq_true_eq]
        split
        case isFalse => exact ⟨rfl, rfl⟩
        case isTrue =>
          unfold leaveThird
          rcases (env.peerOrder x).run c.sessionPeers with _ | ⟨a, _ | ⟨b, _ | ⟨e, l⟩⟩⟩
          · exact ⟨rfl, rfl⟩
          · exact ⟨rfl, rfl⟩
          · simp only [partyLinked_lobby, has_lobby, Bool.and_eq_true, and_assoc,
              decide_eq_true_eq]
            split
            · exact ⟨lobby_huntAgain x a b, rfl⟩
            · split
              · exact ⟨lobby_collapseToSolo1v1 a b d, rfl⟩
              · exact ⟨rfl, rfl⟩
          · exact ⟨rfl, rfl⟩

/-- A removal on the seats. -/
@[simp]
theorem lobby_expel (x : ConnId) :
    (h.expel env x).lobby = h.lobby.expel env.peerOrder x := by
  unfold expel Lobby.expel
  rw [seat_lobby]
  cases hc : h.get x with
  | none => exact lobby_withdraw x
  | some c =>
      obtain ⟨hl, hk⟩ := @lobby_leaveQuiet (h.withdraw x) env x
        "partner left — still chatting"
      rw [lobby_withdraw] at hl hk
      simp only [Option.map_some, lobby_forgetClient, hl, hk]
      split
      · refine Lobby.ext_seat (fun y => ?_) rfl
        rw [Lobby.seat_leave, Lobby.seat_leave, Lobby.seat_alter]
        split
        · rfl
        · rfl
      · rfl

end SimpleHub

end Ruletka
