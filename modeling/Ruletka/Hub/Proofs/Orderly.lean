/-
Every event keeps the seats in order, and so does every run.

The handlers follow the dispatcher. A join ring, a call and an adoption write
two connections next to each other, and need them to be two: that the friend
graph has no friend of itself and that the index points at connections going
by their user says so for the calls. Only an adoption can make a connection
its own friend caller, when it takes the name of the very connection it is in
a friend call with; a run without that has nobody pointing at itself.
-/
import Ruletka.Hub.Proofs.Sane
import Ruletka.Hub.Proofs.Exposure
import Ruletka.Hub.Proofs.Friends

namespace Ruletka

namespace SimpleHub

open Lobby.Sane (Unrepeated)

namespace Sane

variable {B : Bounds} {E : Finset ConnId} {h k h' : SimpleHub} {env : Env}
  {tm : SimpleHub → Option SimpleHub} {x : ConnId}

-- ================================================================= whom one faces

theorem seat (hs : h.Sane B E) {c : Client} (hc : h.get x = some c) :
    c.seat.Sane B (h.Abroad E x) x :=
  hs.lobby.seats x c.seat (by rw [seat_lobby, hc]; rfl)

theorem mate_ne (hs : h.Sane B E) {p : ConnId} (hp : h.partyWithOf x = some p) :
    x = p → B.loops :=
  hs.lobby.mate_ne (by rwa [partyWithOf_lobby])

theorem peer_ne {c : Client} {a : Prop} (hs : c.seat.Sane B a x) {p : ConnId}
    (hp : p ∈ c.sessionPeers) : x = p → B.loops := by
  rintro rfl
  exact hs.peers hp

theorem partner_ne {c : Client} {a : Prop} (hs : c.seat.Sane B a x) {p : ConnId}
    (hp : c.partner = some p) : x = p → B.loops :=
  peer_ne hs (hs.partner p hp)

theorem friend_ne {c : Client} {a : Prop} (hs : c.seat.Sane B a x) {p : ConnId}
    (hp : c.friendCall = some p) : x = p → B.loops := by
  rintro rfl
  exact B.loops_of_calls _ (hs.calls _ hp)

/-- The two of an accepted find-third invite. -/
theorem thirds_ne (hs : h.Sane B E) {a b : ConnId}
    (hp : h.isFriendCall1v1Pair a b = true ∨ h.isStranger1v1Pair a b = true) :
    a = b → B.loops := by
  have hthere := has_of_find_third hp
  obtain ⟨ca, ha⟩ := has_iff.mp hthere.1
  obtain ⟨cb, hb⟩ := has_iff.mp hthere.2
  have hseat := hs.seat ha
  rcases hp with hp | hp
  · simp only [isFriendCall1v1Pair, ha, hb, Bool.and_eq_true, decide_eq_true_eq] at hp
    exact friend_ne hseat hp.1.1.1.1.1
  · simp only [isStranger1v1Pair, ha, hb, Bool.and_eq_true, decide_eq_true_eq] at hp
    exact peer_ne hseat hp.1.2

theorem live1v1Partner_ne (hs : h.Sane B E) {p : ConnId} (hp : h.live1v1Partner x = some p) :
    x = p → B.loops := by
  unfold live1v1Partner at hp
  cases hc : h.get x with
  | none =>
      rw [hc] at hp
      cases hp
  | some c =>
      have hseat := hs.seat hc
      rw [hc] at hp
      dsimp only at hp
      split at hp
      · cases hp
      split at hp
      · exact friend_ne hseat hp
      split at hp
      · exact peer_ne hseat ((IterOrder.increasing.mem_run _ p).mp (List.mem_of_head? hp))
      split at hp
      · exact partner_ne hseat hp
      · cases hp

/-- The others of a mesh are distinct, and none of them is oneself. -/
theorem liveMeshOthers_unrepeated (hs : h.Sane B E) : Unrepeated B (x :: h.liveMeshOthers x) := by
  intro hn
  unfold liveMeshOthers
  cases hc : h.get x with
  | none => exact List.nodup_singleton x
  | some c =>
      have hseat := hs.seat hc
      dsimp only
      split
      · exact List.nodup_singleton x
      split
      · refine List.nodup_cons.mpr ⟨fun hx => ?_, ?_⟩
        · rw [Option.mem_toList] at hx
          refine hn ?_
          rcases Option.or_eq_some_iff.mp hx with hp | ⟨-, hp⟩
          · exact partner_ne hseat hp rfl
          · exact friend_ne hseat hp rfl
        · cases c.partner.or c.friendCall with
          | none => exact List.nodup_nil
          | some p => exact List.nodup_singleton p
      · refine List.nodup_cons.mpr ⟨fun hx => ?_, IterOrder.increasing.nodup_run _⟩
        rw [IterOrder.mem_run] at hx
        exact Finset.notMem_erase x _ hx

-- ============================================================== leaving for the queue

section Handlers

variable (htm : Kept B tm)

include htm

theorem enterWaitingSolo (hs : h.Sane B ∅) {room d : String}
    (hr : h.enterWaitingSolo env tm x room d = some h') : h'.Sane B ∅ := by
  unfold SimpleHub.enterWaitingSolo at hr
  split at hr
  · exact htm h h' hs hr
  split at hr
  · cases hr
    exact hs
  split at hr
  · cases hr
    exact hs
  dsimp only at hr
  refine htm _ _ (Sane.informed (Sane.status (Sane.enqueueSolo ?_ x) x d)) hr
  have hout : (if (h.friendCallOf x).isSome = true then
      h.endFriendCall x "left friend call to browse alone" else h).Sane B ∅ := by
    split
    · exact hs.endFriendCall x _
    · exact hs
  refine (hout.clearMatchState x).modify_loosen (g := fun s =>
    { s with phase := .waiting, partyWith := none }) (fun _ => rfl) fun _ hq => ?_
  exact hq.loosen (.inr rfl) (.inl rfl) (by simp)

theorem stopMatchmaking (hs : h.Sane B ∅) (hr : h.stopMatchmaking env tm x = some h') :
    h'.Sane B ∅ := by
  unfold SimpleHub.stopMatchmaking at hr
  obtain ⟨⟨k, kept⟩, hk, hd⟩ := Option.bind_eq_some_iff.mp hr
  have hcancel : (h.cancelFindThird x).Sane B ∅ := by
    refine hs.same ?_ (h.aside_cancelFindThird x)
    unfold SimpleHub.cancelFindThird
    split
    · split
      · rfl
      · rfl
    · rfl
  have hleft : k.Sane B ∅ :=
    leaveKeepRemainingPair htm (Finset.empty_subset _) hcancel hk
  cases hd
  split
  · exact hleft.stopKept x
  split
  · exact hleft.endFriendCall x _
  · exact hleft.stopAlone x

theorem partyRequeue (hs : h.Sane B ∅) {a b : ConnId} (hab : a = b → B.loops) {room d : String}
    (hr : h.partyRequeue env tm a b room d = some h') : h'.Sane B ∅ := by
  unfold SimpleHub.partyRequeue at hr
  refine htm _ _ (Sane.informed (((Sane.enqueueParty ?_ hab).status a d).status b d)) hr
  exact (hs.partyRequeueSide room a).partyRequeueSide room b

theorem dropZombiePartner (hs : h.Sane B ∅) (hr : h.dropZombiePartner env tm x = some h') :
    h'.Sane B ∅ := by
  unfold SimpleHub.dropZombiePartner at hr
  split at hr
  · cases hr
    exact hs
  · exact htm _ _ ((hs.clearMatchStateWithPartnerMsg _ _).status _ _) hr

-- ================================================================== spin and next

omit htm in
/-- Behind the refusals a command does what it does from there. -/
theorem behindGate (hs : h.Sane B ∅) {settle : SimpleHub → Option Nat}
    {next : SimpleHub → Option SimpleHub}
    (hnext : ∀ k k', k.Sane B ∅ → next k = some k' → k'.Sane B ∅)
    (hr : h.behindGate env settle x next = some h') : h'.Sane B ∅ := by
  have hd : (h.denyIfMatchBanned env x).1.Sane B ∅ := by
    unfold denyIfMatchBanned
    split
    · exact (hs.sendError x _).status x _
    · exact hs
  have ha : ((h.denyIfMatchBanned env x).1.allowMatchCmd env x).1.Sane B ∅ := by
    generalize (h.denyIfMatchBanned env x).1 = k at hd ⊢
    unfold allowMatchCmd
    split
    · exact hd
    · dsimp only
      split
      · exact hd.record fun _ => rfl
      · refine Sane.sendError ?_ x _
        exact hd.record fun _ => rfl
  obtain heq | ⟨d, heq⟩ | heq | heq := @behindGate_cases h env settle x next
  · obtain rfl := Option.some.inj (heq.symm.trans hr)
    exact hd
  · obtain rfl := Option.some.inj (heq.symm.trans hr)
    exact hd.status x d
  · obtain rfl := Option.some.inj (heq.symm.trans hr)
    exact ha
  · exact hnext _ _ ha (heq.symm.trans hr)

theorem handleSpin (hs : h.Sane B ∅) {room : String}
    (hr : h.handleSpin env tm x room = some h') : h'.Sane B ∅ := by
  rw [handleSpin_gate] at hr
  apply behindGate hs (fun k k' hk hd => ?_) hr
  split at hd
  · next p hp => exact partyRequeue htm hk (hk.mate_ne hp) hd
  · exact enterWaitingSolo htm hk hd

theorem nextDispatch (hs : h.Sane B ∅) {room : String}
    (hr : h.nextDispatch env tm x room = some h') : h'.Sane B ∅ := by
  unfold SimpleHub.nextDispatch at hr
  split at hr
  · next p hp => exact partyRequeue htm hs (hs.mate_ne hp) hr
  obtain ⟨⟨k, kept⟩, hk, hd⟩ := Option.bind_eq_some_iff.mp hr
  have hleft : k.Sane B ∅ := leaveKeepRemainingPair htm (Finset.empty_subset _) hs hk
  cases kept with
  | true => exact htm _ _ (hleft.placeInSoloQueue x _ _) hd
  | false =>
      dsimp only at hd
      split at hd
      · next hf => cases hf
      split at hd
      · cases hd
        exact hleft.status x _
      · exact enterWaitingSolo htm hleft hd

theorem handleNext (hs : h.Sane B ∅) {room : String}
    (hr : h.handleNext env tm x room = some h') : h'.Sane B ∅ := by
  rw [handleNext_gate] at hr
  apply behindGate hs (fun k k' hk hd => ?_) hr
  dsimp only at hd
  split at hd
  · cases hd
    exact hk.status x _
  · exact nextDispatch htm hk hd

-- ========================================================== invites and calls

omit htm in
theorem expireFindThirdIfNeeded (hs : h.Sane B E) : (h.expireFindThirdIfNeeded env).Sane B E := by
  unfold SimpleHub.expireFindThirdIfNeeded
  split
  · exact hs
  split
  · exact hs
  · exact hs.same rfl rfl

theorem findThirdAccepted (hs : h.Sane B ∅) {p : FindThirdPending}
    (hr : h.findThirdAccepted env tm p = some h') : h'.Sane B ∅ := by
  unfold SimpleHub.findThirdAccepted at hr
  dsimp only at hr
  split at hr
  · cases hr
    exact (hs.send _ _).send _ _
  next hpair =>
  have hne : p.origin = p.target → B.loops := by
    refine hs.thirds_ne ?_
    by_contra hno
    rw [not_or, Bool.not_eq_true, Bool.not_eq_true] at hno
    rw [hno.1, hno.2] at hpair
    exact hpair rfl
  refine htm _ _ (Sane.informed (Sane.foldl (fun k a hk => ?_) _ (Sane.enqueueParty ?_ hne))) hr
  · exact ((hk.send _ _).send _ _).status _ _
  · have hflag : ∀ {k : SimpleHub} (y : ConnId), k.Sane B ∅ →
        (k.modify y fun c => { c with strangerParty := true }).Sane B ∅ :=
      fun y hk => hk.record fun _ => rfl
    split
    · exact hs
    · exact hflag _ (hflag _ hs)

theorem handleFindThirdRespond (hs : h.Sane B ∅) {accept : Bool}
    (hr : h.handleFindThirdRespond env tm x accept = some h') : h'.Sane B ∅ := by
  have hexp : (h.expireFindThirdIfNeeded env).Sane B ∅ := hs.expireFindThirdIfNeeded
  unfold SimpleHub.handleFindThirdRespond at hr
  dsimp only at hr
  generalize h.expireFindThirdIfNeeded env = k at hexp hr
  split at hr
  · cases hr
    exact hexp.send _ _
  split at hr
  · cases hr
    exact hexp.send _ _
  have hset : (k.setFindThird none).Sane B ∅ := hexp.same rfl rfl
  split at hr
  · cases hr
    exact ((hset.send _ _).send _ _).status _ _
  · exact findThirdAccepted htm hset hr

theorem leaveForCall (hs : h.Sane B ∅) (hr : h.leaveForCall env tm x = some h') :
    h'.Sane B ∅ := by
  unfold SimpleHub.leaveForCall at hr
  split at hr
  · exact stopMatchmaking htm hs hr
  · cases hr
    exact hs

theorem leaveOrDequeue (hs : h.Sane B ∅) (hr : h.leaveOrDequeue env tm x = some h') :
    h'.Sane B ∅ := by
  unfold SimpleHub.leaveOrDequeue at hr
  split at hr
  · exact stopMatchmaking htm hs hr
  · cases hr
    exact hs.dequeueClient x

theorem leaveToJoin (hs : h.Sane B ∅) {y : ConnId} (hr : h.leaveToJoin env tm x y = some h') :
    h'.Sane B ∅ := by
  unfold SimpleHub.leaveToJoin at hr
  split at hr
  · exact stopMatchmaking htm hs hr
  split at hr
  · cases hr
    exact hs.endFriendCall x _
  split at hr
  · exact stopMatchmaking htm hs hr
  · cases hr
    exact hs

omit htm in
theorem setJoinCall_none (hs : h.Sane B E) : (h.setJoinCall none).Sane B E where
  lobby := hs.lobby
  ring p hp := by cases hp
  fed := hs.fed

omit htm in
theorem expireJoinCallIfNeeded (hs : h.Sane B E) : (h.expireJoinCallIfNeeded env).Sane B E := by
  unfold SimpleHub.expireJoinCallIfNeeded
  split
  · exact hs
  split
  · exact hs
  · exact ((hs.setJoinCall_none.send _ _).send _ _).status _ _

omit htm in
/-- A ring names people that are distinct. -/
theorem ringJoin (hs : h.Sane B E) {target keep : ConnId} {keep2 : Option ConnId} (c : Client)
    (d : String) (hd : Unrepeated B ([x, target, keep] ++ keep2.toList)) :
    (h.ringJoin env x target keep keep2 c d).Sane B E := by
  have hset : (h.setJoinCall (some ⟨x, target, keep, keep2,
      env.now + secs joinCallTtlSecs⟩)).Sane B E :=
    { lobby := hs.lobby
      ring := fun p hp => by
        cases hp
        exact hd
      fed := hs.fed }
  exact (hset.send _ _).status x d

omit htm in
theorem callJoin (hs : h.Sane B E) {oid : ConnId} (hne : x = oid → B.loops) (c : Client) :
    (h.callJoin env x oid c).Sane B E := by
  have hmesh := hs.liveMeshOthers_unrepeated (x := x)
  unfold SimpleHub.callJoin
  split
  · exact hs.sendError x _
  next keep rest hmine =>
  rw [hmine] at hmesh
  split
  · exact hs.sendError x _
  split
  · exact hs.sendError x _
  next hnot =>
  split
  · exact hs.sendError x _
  split
  · exact hs.sendError x _
  refine hs.ringJoin c _ fun hn => ?_
  have hnd := hmesh hn
  have hxo : x ≠ oid := fun heq => hn (hne heq)
  cases rest with
  | nil => grind
  | cons keep2 rest => grind

omit htm in
theorem callClassic (hs : h.Sane B E) {oid : ConnId} (hne : x = oid → B.loops) (c : Client) :
    (h.callClassic env x oid c).Sane B E := by
  unfold SimpleHub.callClassic
  split
  · dsimp only
    split
    · exact hs.sendError x _
    next keep hkeep =>
    split
    · exact hs.sendError x _
    split
    · exact hs.sendError x _
    next hk =>
    split
    · exact hs.sendError x _
    refine hs.ringJoin c _ fun hn => ?_
    have hxo : x ≠ oid := fun heq => hn (hne heq)
    have hok : oid ≠ keep := fun heq => hn (hs.live1v1Partner_ne hkeep heq)
    simpa using ⟨⟨hxo, Ne.symm hk⟩, hok⟩
  · exact (hs.setJoinCall_none.send _ _).status x _

omit htm in
theorem endOtherCall (hs : h.Sane B E) (y : ConnId) (d : String) :
    (h.endOtherCall x y d).Sane B E := by
  unfold SimpleHub.endOtherCall
  split
  · exact hs.endFriendCall x d
  · exact hs

omit htm in
theorem startThreePersonJoin (hs : h.Sane B E) {a b c : ConnId} (hd : Unrepeated B [a, b, c]) :
    (h.startThreePersonJoin env a b c).Sane B E :=
  hs.write (h.aside_startThreePersonJoin env a b c) (by
    rw [lobby_startThreePersonJoin]
    exact hs.lobby.join3 hd)

omit htm in
theorem startFourPersonJoin (hs : h.Sane B E) {a b c d : ConnId}
    (hd : Unrepeated B [a, b, c, d]) : (h.startFourPersonJoin env a b c d).Sane B E :=
  hs.write (h.aside_startFourPersonJoin env a b c d) (by
    rw [lobby_startFourPersonJoin]
    exact hs.lobby.join4 hd)

theorem joinAsGuest (hs : h.Sane B ∅) {caller : ConnId} {p : JoinCallPending}
    (hd : Unrepeated B p.names) (hp : p.target = x) (hcaller : p.origin = caller)
    (hr : h.joinAsGuest env tm x caller p = some h') : h'.Sane B ∅ := by
  subst hp
  subst hcaller
  unfold SimpleHub.joinAsGuest at hr
  dsimp only at hr
  obtain ⟨k, hk, hr⟩ := Option.bind_eq_some_iff.mp hr
  have hleft : k.Sane B ∅ := by
    refine leaveForCall htm ?_ hk
    split
    · exact hs.endFriendCall _ _
    · exact hs
  unfold JoinCallPending.names at hd
  split at hr
  · cases hr
    exact hleft.sendError _ _
  split at hr
  · next k2 hk2 =>
    rw [hk2] at hd
    split at hr
    · cases hr
      exact hleft.sendError _ _
    · cases hr
      refine hleft.startFourPersonJoin fun hn => ?_
      have hnd := hd hn
      grind
  · cases hr
    refine hleft.startThreePersonJoin fun hn => ?_
    have hnd := hd hn
    grind

theorem joinAccepted (hs : h.Sane B ∅) {caller : ConnId} {u : UserId} {p : JoinCallPending}
    (hd : Unrepeated B p.names) (hp : p.target = x) (hcaller : p.origin = caller)
    (hr : h.joinAccepted env tm x caller u p = some h') : h'.Sane B ∅ := by
  have hne : ¬ B.loops → caller ≠ x := by
    intro hn heq
    have hnd := hd hn
    unfold JoinCallPending.names at hnd
    rw [hp, hcaller, heq] at hnd
    simp at hnd
  unfold SimpleHub.joinAccepted at hr
  split at hr
  · cases hr
    exact hs.sendError x _
  split at hr
  · cases hr
    exact (hs.sendError x _).send _ _
  split at hr
  · next keep hkeep =>
    obtain ⟨k, hk, hd'⟩ := Option.bind_eq_some_iff.mp hr
    cases hd'
    obtain ⟨hlive, hkc⟩ := Option.filter_eq_some_iff.mp hkeep
    refine (leaveToJoin htm hs hk).startThreePersonJoin fun hn => ?_
    have hxk : x ≠ keep := fun heq => hn (hs.live1v1Partner_ne hlive heq)
    simpa using ⟨⟨hxk, (hne hn).symm⟩, of_decide_eq_true hkc⟩
  · dsimp only at hr
    split at hr
    · next m0 m1 hmine =>
      split at hr
      · next hout =>
        obtain ⟨k, hk, hd'⟩ := Option.bind_eq_some_iff.mp hr
        cases hd'
        have hmesh := hs.liveMeshOthers_unrepeated (x := x)
        rw [hmine] at hmesh
        refine (leaveForCall htm hs hk).startFourPersonJoin fun hn => ?_
        have hnd := hmesh hn
        have hcx := hne hn
        grind
      · exact joinAsGuest htm hs hd hp hcaller hr
    · exact joinAsGuest htm hs hd hp hcaller hr

omit htm in
theorem quiet (hs : h.Sane B E) (y : ConnId) : (h.quiet y).Sane B E := by
  refine (hs.dequeueClient y).modify_loosen (g := fun s =>
    if s.phase = .waiting ∨ s.phase = .idle then { s with phase := .idle } else s)
    (fun c => ?_) fun s hq => ?_
  · change (if c.phase = .waiting ∨ c.phase = .idle then _ else _ : Client).seat
      = if c.phase = .waiting ∨ c.phase = .idle then _ else _
    split
    · rfl
    · rfl
  · split
    · exact hq.rephase (by simp)
    · exact hq

/-- Who is in a call with whom says nothing when any connection may point at
itself; else a call is between two. -/
def Calls (B : Bounds) : Prop := ∀ a b, (a = b → B.loops) → B.calls a b

theorem classicAccepted (hB : Calls B) (hs : h.Sane B ∅) {caller : ConnId}
    (hne : x = caller → B.loops) (hr : h.classicAccepted env tm x caller = some h') :
    h'.Sane B ∅ := by
  unfold SimpleHub.classicAccepted at hr
  split at hr
  · next keep hkeep =>
    obtain ⟨k, hk, hd⟩ := Option.bind_eq_some_iff.mp hr
    cases hd
    obtain ⟨hlive, hkc⟩ := Option.filter_eq_some_iff.mp hkeep
    have hleft := leaveOrDequeue htm (hs.endOtherCall x _) hk
    refine (hleft.setJoinCall_none).startThreePersonJoin fun hn => ?_
    have hxk : x ≠ keep := fun heq => hn (hs.live1v1Partner_ne hlive heq)
    simpa using ⟨⟨hxk, fun heq => hn (hne heq)⟩, of_decide_eq_true hkc⟩
  · cases hr
    have hout : (if (h.friendCallOf x).isSome = true then
        h.endFriendCall x "left previous friend call" else h).Sane B ∅ := by
      split
      · exact hs.endFriendCall x _
      · exact hs
    have hquiet := (((hout.endOtherCall (x := caller) x "left previous friend call").quiet x).quiet
      caller).setJoinCall_none
    refine hquiet.write (aside_startFriendSession _ env caller x) ?_
    rw [lobby_startFriendSession]
    exact hquiet.lobby.call (hB _ _ fun heq => hne heq.symm) (hB _ _ hne)

/-- What the index and the friend graph promise, unless anybody may point at
itself. -/
def Introduced (B : Bounds) (h : SimpleHub) : Prop :=
  ¬ B.loops → h.books.Sound ∧ ∀ u, (u, u) ∉ h.friendships

omit htm in
/-- A friend's connection is another one. -/
theorem friends_ne (hi : Introduced B h) {u v : UserId} {y : ConnId}
    (hx : h.books.user x = some v) (hm : h.areMutualFriends v u = true)
    (hy : h.byUser.get? u = some y) : x = y → B.loops := by
  rintro rfl
  by_contra hn
  obtain ⟨hsound, hirr⟩ := hi hn
  have huser := hsound u x hy
  rw [hx] at huser
  obtain rfl := Option.some.inj huser
  rw [areMutualFriends, Bool.and_eq_true, decide_eq_true_eq] at hm
  exact hirr _ hm.1

omit htm in
theorem user_get {c : Client} (hc : h.get x = some c) : h.books.user x = some c.userId := by
  simp [Books.user, books, hc, Client.badge]

theorem handleCallFriend (hi : Introduced B h) (hs : h.Sane B ∅) {u : UserId} {join : Bool}
    (hr : h.handleCallFriend env tm x u join = some h') : h'.Sane B ∅ := by
  have hexp : (h.expireJoinCallIfNeeded env).Sane B ∅ := hs.expireJoinCallIfNeeded
  have hb := books_expireJoinCallIfNeeded h env
  have hfriends : (h.expireJoinCallIfNeeded env).friendships = h.friendships :=
    congrArg Books.friendships hb
  have hik : Introduced B (h.expireJoinCallIfNeeded env) := by
    intro hn
    rw [hb, hfriends]
    exact hi hn
  unfold SimpleHub.handleCallFriend at hr
  dsimp only at hr
  generalize h.expireJoinCallIfNeeded env = k at hexp hik hr
  split at hr
  · cases hr
    exact hexp
  next me hme =>
  split at hr
  · cases hr
    exact hexp.sendError x _
  next hmutual =>
  rw [Bool.not_eq_true', Bool.not_eq_false] at hmutual
  split at hr
  · cases hr
    exact hexp.sendError x _
  split at hr
  · cases hr
    exact hexp.sendError x _
  next oid hoid =>
  have hne := friends_ne hik (user_get hme) hmutual hoid
  split at hr
  · cases hr
    exact hexp.callJoin hne me
  · obtain ⟨k', hk', hd⟩ := Option.bind_eq_some_iff.mp hr
    cases hd
    refine (leaveForCall htm ?_ hk').callClassic hne me
    split
    · exact hexp.endFriendCall x _
    · exact hexp

theorem handleCallRespond (hB : Calls B) (hi : Introduced B h) (hs : h.Sane B ∅) {u : UserId}
    {accept : Bool} (hx : h.has x = true)
    (hr : h.handleCallRespond env tm x u accept = some h') : h'.Sane B ∅ := by
  have hexp : (h.expireJoinCallIfNeeded env).Sane B ∅ := hs.expireJoinCallIfNeeded
  have hb := books_expireJoinCallIfNeeded h env
  have hfriends : (h.expireJoinCallIfNeeded env).friendships = h.friendships :=
    congrArg Books.friendships hb
  have hik : Introduced B (h.expireJoinCallIfNeeded env) := by
    intro hn
    rw [hb, hfriends]
    exact hi hn
  unfold SimpleHub.handleCallRespond at hr
  dsimp only at hr
  rw [← has_congr hb] at hx
  generalize h.expireJoinCallIfNeeded env = k at hexp hik hx hr
  split at hr
  · cases hr
    exact hexp.sendError x _
  next caller hcaller =>
  split at hr
  · next p hp =>
    obtain ⟨hring, hwho⟩ := Option.filter_eq_some_iff.mp hp
    obtain ⟨htarget, horigin⟩ := of_decide_eq_true hwho
    split at hr
    · exact joinAccepted htm hexp.setJoinCall_none (hexp.ring p hring) htarget horigin hr
    · cases hr
      exact (hexp.setJoinCall_none.send _ _).status _ _
  · split at hr
    · cases hr
      exact (hexp.send _ _).status _ _
    split at hr
    · cases hr
      exact (hexp.sendError x _).send _ _
    next hmutual =>
    split at hr
    · cases hr
      exact (hexp.sendError x _).send _ _
    · simp only [Bool.or_eq_true, not_or, Bool.not_eq_true', Bool.not_eq_false] at hmutual
      obtain ⟨c, hc⟩ := has_iff.mp hx
      have hme : k.books.user x = some (k.userOf x) := by
        rw [user_get hc, userOf, hc]
        rfl
      exact classicAccepted htm hB hexp (friends_ne hik hme hmutual.2 hcaller) hr

-- ============================================================ profile and blocks

theorem handleSetPrefs (hs : h.Sane B ∅) {g l f : String} {t : List String} {hide : Bool}
    (hr : h.handleSetPrefs tm x g l f t hide = some h') : h'.Sane B ∅ := by
  unfold SimpleHub.handleSetPrefs at hr
  dsimp only at hr
  generalize hk : h.modify x _ = k at hr
  have hset : (k.status x "match prefs updated").Sane B ∅ := by
    rw [← hk]
    refine Sane.status (hs.record fun c => ?_) x _
    simp only [Client.seat]
  split at hr
  · exact htm _ _ hset hr
  · cases hr
    exact hset

theorem handleFaceOk (hs : h.Sane B ∅) {ok ready failOpen : Bool}
    (hr : h.handleFaceOk env tm x ok ready failOpen = some h') : h'.Sane B ∅ := by
  have hset : (h.modify x (reportFace env ok ready failOpen)).Sane B ∅ := hs.record fun _ => rfl
  unfold SimpleHub.handleFaceOk at hr
  dsimp only at hr
  split at hr
  · exact htm _ _ hset hr
  · cases hr
    exact hset

theorem releaseBlocked (hs : h.Sane B ∅) {p : Option ConnId}
    (hr : h.releaseBlocked env tm p = some h') : h'.Sane B ∅ := by
  unfold SimpleHub.releaseBlocked at hr
  split at hr
  · split at hr
    · exact enterWaitingSolo htm (hs.unmatchOne _ _) hr
    · cases hr
      exact hs
  · cases hr
    exact hs

theorem blockPart (hs : h.Sane B ∅) {u : UserId} (hr : h.blockPart env tm x u = some h') :
    h'.Sane B ∅ := by
  unfold SimpleHub.blockPart at hr
  dsimp only at hr
  split at hr
  · cases hr
    exact hs.endFriendCall x _
  split at hr
  · obtain ⟨k, hk, hd⟩ := Option.bind_eq_some_iff.mp hr
    exact enterWaitingSolo htm (releaseBlocked htm hs hk) hd
  · cases hr
    exact hs

theorem handleBlockUser (hs : h.Sane B ∅) {raw : String}
    (hr : h.handleBlockUser env tm x raw = some h') : h'.Sane B ∅ := by
  unfold SimpleHub.handleBlockUser at hr
  split at hr
  · cases hr
    exact hs.sendError x _
  split at hr
  · cases hr
    exact hs
  split at hr
  · cases hr
    exact hs.sendError x _
  · obtain ⟨k, hk, hd⟩ := Option.bind_eq_some_iff.mp hr
    cases hd
    refine Sane.status (blockPart htm ?_ hk) x _
    exact hs.same rfl rfl

-- =================================================================== hello

omit htm in
/-- The writes of an adoption on the seats. -/
theorem moveSeat (hB : Calls B) (hs : h.Sane B ∅) {old new partner : ConnId} {c : Client}
    (hc : h.get old = some c) (hp : c.partner = some partner) (hne : partner ≠ new)
    (hheir : c.friendCall = some new → B.loops) :
    (h.moveSeat env old new partner c).Sane B ∅ := by
  refine hs.write rfl ?_
  unfold SimpleHub.moveSeat
  rw [lobby_modify (g := fun _ => .free) fun _ => rfl,
    lobby_modify (g := fun n => { n with
      phase := .matched
      partner := some partner
      peers := c.seat.peers.erase new
      friendCall := c.seat.friendCall }) fun _ => rfl,
    lobby_modify (g := fun p => { p with
      partner := if p.partner = some old then some new else p.partner
      peers := if old ∈ p.peers then insert new (p.peers.erase old) else p.peers
      friendCall := if p.friendCall = some old then some new else p.friendCall }) fun _ => rfl]
  exact hs.lobby.adopt (hs.seat hc) hp hne (fun _ => hB _ _ fun heq => absurd heq hne)
    fun f hf => hB _ _ fun heq => hheir (heq ▸ hf)

theorem adoptWsHold (hB : Calls B) (hs : h.Sane B ∅) {old new : ConnId}
    (hheir : h.friendCallOf old = some new → B.loops) {r : SimpleHub × Bool}
    (hr : h.adoptWsHold env tm old new = some r) : r.1.Sane B ∅ := by
  unfold SimpleHub.adoptWsHold at hr
  split at hr
  · cases hr
    exact hs
  split at hr
  · cases hr
    exact hs
  next c hc =>
  split at hr
  · cases hr
    exact hs
  next partner hadopt =>
  obtain ⟨k, hk, hd⟩ := Option.bind_eq_some_iff.mp hr
  cases hd
  have hpartner : c.partner = some partner ∧ partner ≠ new := by
    unfold adoptable at hadopt
    split at hadopt
    · obtain ⟨hp, hkeep⟩ := Option.filter_eq_some_iff.mp hadopt
      simp only [Bool.and_eq_true, decide_eq_true_eq] at hkeep
      exact ⟨hp, hkeep.1⟩
    · cases hadopt
  have hfriend : c.friendCall = some new → B.loops := by
    intro hf
    refine hheir ?_
    rw [friendCallOf, hc]
    exact hf
  have hmoved : (h.moveSeat env old new partner c).Sane B ∅ :=
    moveSeat hB hs hc hpartner.1 hpartner.2 hfriend
  exact ((removeClient htm hmoved hk).status _ _).status _ _

theorem kickPrevious (hB : Calls B) (hs : h.Sane B ∅) {u : UserId}
    (hheir : ∀ old, h.byUser.get? u = some old → h.friendCallOf old = some x → B.loops)
    (hr : h.kickPrevious env tm x u = some h') : h'.Sane B ∅ := by
  unfold SimpleHub.kickPrevious at hr
  split at hr
  · cases hr
    exact hs
  next old hold =>
  split at hr
  · cases hr
    exact hs
  · obtain ⟨⟨k, adopted⟩, hk, hd⟩ := Option.bind_eq_some_iff.mp hr
    have hadopt : k.Sane B ∅ := adoptWsHold htm hB hs (hheir old hold) hk
    dsimp only at hd
    split at hd
    · cases hd
      exact hadopt
    · exact removeClient htm ((hadopt.sendError old _).status old _) hd

omit htm in
theorem identify (hs : h.Sane B ∅) (u : UserId) (msg : HelloIn) :
    (h.identify env x u msg).Sane B ∅ := by
  have hindex : (h.reindex x u).Sane B ∅ := hs.same rfl rfl
  have hintro : ((h.reindex x u).modify x (introduce u (h.sys.friendCodeFor u) msg)).Sane B ∅ :=
    hindex.record fun _ => rfl
  have hip : ∀ {k : SimpleHub} (c : Client), k.Sane B ∅ →
      (k.rememberClientIp u c.clientIp).Sane B ∅ := by
    intro k c hk
    unfold rememberClientIp
    dsimp only
    split
    · exact hk
    · exact hk.same rfl rfl
  unfold SimpleHub.identify
  dsimp only
  refine Sane.informed (Sane.onSome ?_ fun c _ => Sane.send ?_ _ _)
  · split
    · exact (hintro.onSome fun c _ => hip c hintro).status x _
    · exact hintro.onSome fun c _ => hip c hintro
  · split
    · exact (hintro.onSome fun c _ => hip c hintro).status x _
    · exact hintro.onSome fun c _ => hip c hintro

theorem handleHello (hB : Calls B) (hs : h.Sane B ∅) {msg : HelloIn}
    (hheir : ∀ old, h.byUser.get? (h.helloUserId x msg.userId) = some old →
      h.friendCallOf old = some x → B.loops)
    (hr : h.handleHello env tm x msg = some h') : h'.Sane B ∅ := by
  obtain ⟨k, hk, hd⟩ := Option.bind_eq_some_iff.mp hr
  cases hd
  exact (kickPrevious htm hB hs hheir hk).identify _ msg

end Handlers

-- ================================================================= moderation

theorem kickBanned (hs : h.Sane B E) (phases : List Phase) (y : ConnId) (d n : String) :
    (h.kickBanned env phases y d n).Sane B E := by
  unfold SimpleHub.kickBanned
  dsimp only
  refine Sane.status ?_ y n
  split
  · exact (hs.dequeueClient y).unmatchOne y d
  · exact hs.dequeueClient y

theorem raiseBan (hs : h.Sane B E) (u : UserId) (n : Nat) : (h.raiseBan u n).Sane B E := by
  unfold SimpleHub.raiseBan
  split
  · exact hs.same rfl rfl
  · exact hs

theorem raiseIpBan (hs : h.Sane B E) (u : UserId) (ip : String) :
    (h.raiseIpBan u ip).Sane B E := by
  unfold SimpleHub.raiseIpBan
  split
  · exact hs.same rfl rfl
  · exact hs

theorem applyPriorityModBan (hs : h.Sane B E) (u : UserId) (ip : String) :
    (h.applyPriorityModBan u ip).Sane B E := by
  unfold SimpleHub.applyPriorityModBan
  dsimp only
  refine Sane.raiseIpBan ?_ u _
  split
  · exact hs.raiseBan u _
  · exact hs

theorem priorityReport (hs : h.Sane B E) (u : UserId) : (h.priorityReport env x u).Sane B E := by
  unfold SimpleHub.priorityReport
  dsimp only
  refine Sane.status (Sane.foldl (fun k y hk => ?_) _ ?_) x _
  · split
    · exact hk
    · exact hk.kickBanned _ y _ _
  · split
    · exact (hs.applyPriorityModBan u _).kickBanned _ _ _ _
    · exact hs.applyPriorityModBan u _

theorem scoredReport (hs : h.Sane B E) (r u : UserId) (why : String) :
    (h.scoredReport env x r u why).Sane B E := by
  unfold SimpleHub.scoredReport
  dsimp only
  refine Sane.send (Sane.status ?_ x _) x _
  split
  · split
    · refine Sane.kickBanned ?_ _ _ _ _
      exact hs.same rfl rfl
    · exact hs.same rfl rfl
  · exact hs

theorem handleReportUser (hs : h.Sane B E) (raw reason : String) :
    (h.handleReportUser env x raw reason).Sane B E := by
  have hnote : ∀ (l : List Instant), (h.modify x fun c => { c with reportTimes := l }).Sane B E :=
    fun l => hs.record fun _ => rfl
  unfold SimpleHub.handleReportUser
  split
  · exact hs.sendError x _
  split
  · exact hs
  split
  · exact hs.sendError x _
  dsimp only
  split
  · exact (hnote _).sendError x _
  split
  · exact (hnote _).priorityReport _
  · exact (hnote _).scoredReport _ _ _

theorem genitalBan (hs : h.Sane B E) (t : ConnId) (u : UserId) (n : Nat) (p : Bool) :
    (h.genitalBan env x t u n p).Sane B E := by
  unfold SimpleHub.genitalBan
  dsimp only
  refine Sane.send (Sane.status (Sane.clearMatchStateWithPartnerMsg (Sane.send ?_ t _) t _) t _) x _
  exact Sane.foldl (fun k y hk => hk.send y _) _ (hs.raiseBan u _)

theorem handleGenitalHit (hs : h.Sane B E) (raw : String) :
    (h.handleGenitalHit env x raw).Sane B E := by
  unfold SimpleHub.handleGenitalHit
  dsimp only
  split
  · exact hs.send x _
  split
  · exact hs.send x _
  split
  · exact hs.send x _
  split
  · exact hs.send x _
  split
  · exact hs.send x _
  · exact hs.send x _
  · exact hs.genitalBan _ _ _ _

theorem adminBan (hs : h.Sane B E) (u : String) (n : Nat) : (h.adminBan env u n).Sane B E := by
  unfold SimpleHub.adminBan
  dsimp only
  split
  · exact hs
  split
  · refine Sane.kickBanned ?_ _ _ _ _
    exact hs.same rfl rfl
  · exact hs.same rfl rfl

-- =================================================================== the others

theorem handleSetRoom (hs : h.Sane B E) (room : String) :
    (h.handleSetRoom env x room).Sane B E := by
  unfold SimpleHub.handleSetRoom
  split
  · exact hs.sendError x _
  · dsimp only
    refine Sane.informed (Sane.status (hs.record fun c => ?_) x _)
    simp only [Client.seat]

theorem handleFindThirdInvite (hs : h.Sane B E) : (h.handleFindThirdInvite env x).Sane B E := by
  unfold SimpleHub.handleFindThirdInvite
  have hexp : (h.expireFindThirdIfNeeded env).Sane B E := hs.expireFindThirdIfNeeded
  dsimp only
  split
  · exact hexp.sendError x _
  split
  · exact hexp.sendError x _
  split
  · exact hexp.send x _
  · refine Sane.status ?_ x _
    exact hexp.same rfl rfl

theorem handleFindThirdCancel (hs : h.Sane B E) : (h.handleFindThirdCancel env x).Sane B E := by
  unfold SimpleHub.handleFindThirdCancel
  have hexp : (h.expireFindThirdIfNeeded env).Sane B E := hs.expireFindThirdIfNeeded
  dsimp only
  split
  · exact hexp
  split
  · exact hexp
  · exact hexp.same rfl rfl

theorem handleBrowseTogether (hs : h.Sane B E) : (h.handleBrowseTogether x).Sane B E := by
  unfold SimpleHub.handleBrowseTogether
  dsimp only
  split
  · exact (hs.sendError x _).status x _
  split
  · exact hs.sendError x _
  split
  · exact hs.sendError x _
  · exact (hs.sendError x _).status x _

theorem handleHangupFriend (hs : h.Sane B E) : (h.handleHangupFriend x).Sane B E := by
  unfold SimpleHub.handleHangupFriend
  split
  · exact hs.endFriendCall x _
  · exact hs.status x _

theorem handleCallCancel (hs : h.Sane B E) (u : UserId) : (h.handleCallCancel x u).Sane B E := by
  unfold SimpleHub.handleCallCancel
  split
  · exact hs
  split
  · exact hs
  dsimp only
  refine Sane.status ?_ x _
  have hring : ∀ {p : JoinCallPending},
      (if p.origin = x then h.setJoinCall none else h).Sane B E := by
    intro p
    split
    · exact hs.setJoinCall_none
    · exact hs
  cases h.joinCallPending with
  | none =>
      dsimp only
      split
      · exact hs.send _ _
      · exact hs
  | some p =>
      dsimp only
      split
      · exact hring.send _ _
      · exact hring

theorem handleSignal (hs : h.Sane B E) (kind payload toPeer : String) :
    (h.handleSignal env x kind payload toPeer).Sane B E := by
  have hnote : ∀ key, (h.noteSdp env x kind key).Sane B E := by
    intro key
    unfold noteSdp
    split
    · exact hs.record fun _ => rfl
    split
    · exact hs.record fun _ => rfl
    · exact hs
  unfold SimpleHub.handleSignal
  split
  · exact hs.sendError x _
  dsimp only
  split
  · exact hs
  split
  · unfold relaySignal
    split
    · exact (hnote _).sendError x _
    next sid hsid =>
    split
    · exact hnote _
    · next sess hsess =>
      exact
        { lobby := (hnote _).lobby
          ring := (hnote _).ring
          fed := B.fed_push _ x sess _ ⟨hsid, hsess, rfl, rfl⟩ (hnote _).fed }
  · unfold deliverSignal
    split
    · exact (hnote _).sendError x _
    split
    · dsimp only
      split
      · exact (hnote _).sendError x _
      · exact Sane.foldl (fun k t hk => hk.send t _) _ (hnote _)
    · exact (hnote _).sendError x _

/-- The frames that write only the friend graph. -/
theorem friendGraph (hs : h.Sane B E) (raw : String) :
    (h.handleAddFriend x raw).Sane B E ∧ (h.handleAcceptFriend x raw).Sane B E
      ∧ (h.handleDeclineFriend x raw).Sane B E ∧ (h.handleRemoveFriend x raw).Sane B E
      ∧ (h.handleUnblockUser x raw).Sane B E := by
  have hest : ∀ u v, (h.establishFriendship u v).Sane B E := by
    intro u v
    unfold establishFriendship
    split
    · exact hs
    · exact hs.same rfl rfl
  refine ⟨?_, ?_, ?_, ?_, ?_⟩
  · unfold handleAddFriend
    dsimp only
    split
    · exact hs
    split
    · exact hs.sendError x _
    split
    · exact hs.sendError x _
    split
    · exact hs.sendError x _
    split
    · exact hs.status x _
    split
    · split
      · exact ((hest _ _).status x _).status _ _
      · exact (hest _ _).status x _
    split
    · exact hs.status x _
    · refine Sane.status ?_ x _
      split
      · exact hs.same rfl rfl
      · exact hs.same rfl rfl
  · unfold handleAcceptFriend
    dsimp only
    split
    · exact hs
    split
    · exact hs.sendError x _
    split
    · exact hs.sendError x _
    · refine Sane.status ?_ x _
      split
      · exact (hest _ _).status _ _
      · exact hest _ _
  · unfold handleDeclineFriend
    split
    · exact hs
    · refine Sane.status ?_ x _
      exact hs.same rfl rfl
  · unfold handleRemoveFriend
    split
    · exact hs
    · refine Sane.status ?_ x _
      exact hs.same rfl rfl
  · unfold handleUnblockUser
    split
    · exact hs
    · refine Sane.status ?_ x _
      exact hs.same rfl rfl

/-- **Step**: the handler of a frame whose sender is there. -/
theorem dispatch {msg : ClientMsg} (htm : Kept B tm) (hB : Calls B) (hi : Introduced B h)
    (hs : h.Sane B ∅) (hx : h.has x = true)
    (hheir : ∀ m, msg = .hello m → ∀ old, h.byUser.get? (h.helloUserId x m.userId) = some old →
      h.friendCallOf old = some x → B.loops)
    (hr : h.dispatch env tm x msg = some h') : h'.Sane B ∅ := by
  cases msg with
  | hello m => exact handleHello htm hB hs (hheir m rfl) hr
  | setPrefs g l f t hide => exact handleSetPrefs htm hs hr
  | spin room => exact handleSpin htm hs hr
  | next room => exact handleNext htm hs hr
  | stop => exact stopMatchmaking htm hs hr
  | findThirdRespond accept => exact handleFindThirdRespond htm hs hr
  | blockUser target => exact handleBlockUser htm hs hr
  | faceOk ok ready failOpen => exact handleFaceOk htm hs hr
  | callFriend user join => exact handleCallFriend htm hi hs hr
  | callRespond user accept => exact handleCallRespond htm hB hi hs hx hr
  | ping =>
      cases hr
      exact hs.send x _
  | setRoom room =>
      cases hr
      exact hs.handleSetRoom room
  | findThirdInvite =>
      cases hr
      exact hs.handleFindThirdInvite
  | findThirdCancel =>
      cases hr
      exact hs.handleFindThirdCancel
  | browseTogether =>
      cases hr
      exact hs.handleBrowseTogether
  | addFriend code =>
      cases hr
      exact (hs.friendGraph code).1
  | acceptFriend user =>
      cases hr
      exact (hs.friendGraph user).2.1
  | declineFriend user =>
      cases hr
      exact (hs.friendGraph user).2.2.1
  | removeFriend user =>
      cases hr
      exact (hs.friendGraph user).2.2.2.1
  | unblockUser user =>
      cases hr
      exact (hs.friendGraph user).2.2.2.2
  | reportUser target reason =>
      cases hr
      exact hs.handleReportUser target reason
  | genitalHit target =>
      cases hr
      exact hs.handleGenitalHit target
  | callCancel user =>
      cases hr
      exact hs.handleCallCancel user
  | hangupFriend =>
      cases hr
      exact hs.handleHangupFriend
  | signal kind payload toPeer =>
      cases hr
      exact hs.handleSignal kind payload toPeer
  | other =>
      cases hr
      exact hs

theorem preamble (htm : Kept B tm) (hs : h.Sane B ∅) {msg : ClientMsg} {r : SimpleHub × Bool}
    (hr : h.preamble env tm x msg = some r) : r.1.Sane B ∅ := by
  unfold SimpleHub.preamble at hr
  obtain ⟨k, hk, hr⟩ := Option.bind_eq_some_iff.mp hr
  have hswept : k.Sane B ∅ := expireWsHolds htm hs hk
  split at hr
  · cases hr
    exact hswept
  next c hc =>
  have hallow : (k.allowMessage env x c).1.Sane B ∅ := by
    unfold allowMessage
    dsimp only
    split
    · exact hswept.record fun _ => rfl
    · refine Sane.sendError ?_ x _
      exact hswept.record fun _ => rfl
  generalize k.allowMessage env x c = a at hallow hr
  obtain ⟨k₁, ok⟩ := a
  dsimp only at hallow hr
  split at hr
  · cases hr
    exact hallow
  have hrx : (k₁.noteClientRx env x (msg = .ping)).1.Sane B ∅ := hallow.record fun _ => rfl
  generalize k₁.noteClientRx env x (msg = .ping) = w at hrx hr
  obtain ⟨k₂, woke⟩ := w
  dsimp only at hrx hr
  obtain ⟨k₃, hk₃, hr⟩ := Option.bind_eq_some_iff.mp hr
  obtain ⟨k₄, hk₄, hr⟩ := Option.bind_eq_some_iff.mp hr
  cases hr
  have hwoke : k₃.Sane B ∅ := by
    unfold matchIfWoke at hk₃
    split at hk₃
    · exact htm _ _ hrx hk₃
    · cases hk₃
      exact hrx
  exact dropZombiePartner htm hwoke hk₄

/-- A match with another hub, if the books allow it. -/
theorem startFederatedMatch (hs : h.Sane B E) {y : ConnId} {sid : SessionId × String}
    {r : FedPeerDesc} {base : String} (o : Bool)
    (hfed : B.fed (h.fedBooks.enter y sid.1 ⟨y, h.peerIdOf y, r.peerId, base⟩)) :
    ((h.dequeueClient y).startFederatedMatch env y sid r base o).Sane B E where
  lobby := by
    have hlob : ((h.dequeueClient y).startFederatedMatch env y sid r base o).lobby
        = h.lobby.federate y := by
      unfold SimpleHub.startFederatedMatch Lobby.federate
      dsimp only
      rw [lobby_broadcastLobbyInfo, lobby_send]
      exact lobby_modify fun _ => rfl
    rw [hlob]
    refine hs.lobby.federate ?_ fun z hz => ?_
    · left
      rw [fedByClient_startFederatedMatch, Table.get?_set, if_pos rfl]
      rfl
    · refine hz.imp (fun hz => ?_) id
      rw [fedByClient_startFederatedMatch, Table.get?_set]
      split
      · rfl
      · exact hz
  ring := hs.ring
  fed := hfed

/-- The connection is admitted with a free seat. -/
theorem enroll (hs : h.Sane B E) (ip : String) :
    ({ h with
      clients := h.clients.set x (freshClient h.sys env x ip)
      byUser := h.byUser.set (freshClient h.sys env x ip).userId x } : SimpleHub).Sane B E where
  lobby :=
    { seats := fun y s hy => by
        change ((h.clients.set x (freshClient h.sys env x ip)).get? y).map Client.seat
          = some s at hy
        rw [Table.get?_set] at hy
        split at hy
        · cases hy
          exact Seat.Sane.free
        · exact hs.lobby.seats y s hy
      slots := hs.lobby.slots }
  ring := hs.ring
  fed := hs.fed

-- ====================================================================== events

/-- A `Hello` takes the name of a connection that is in a friend call with the
one that says it. -/
def takesCallersName (h : SimpleHub) : Event → Bool
  | .frame x (.hello m) =>
      (h.byUser.get? (h.helloUserId x m.userId)).bind h.friendCallOf = some x
  | _ => false

/-- Books with the friendships of a hub and no entry of the index but its own. -/
structure Older (h : SimpleHub) (b : Books) : Prop where
  sys : b.sys = h.sys
  friendships : b.friendships = h.friendships
  index : ∀ u c, b.byUser.get? u = some c → h.byUser.get? u = some c

theorem Older.erase {b : Books} (ho : Older h b) (y : ConnId) : Older h (b.erase y) where
  sys := ho.sys
  friendships := ho.friendships
  index u c hu := by
    rw [Books.byUser_erase] at hu
    split at hu
    · cases hu
    · exact ho.index u c hu

/-- The friend calls of a hub bound those of what comes of it without new
ones. -/
theorem rebound (hs : h.Sane B E) : h.Sane { B with
    calls := fun a b => h.friendCallOf a = some b
    loops_of_calls := fun y hy => by
      obtain ⟨c, hc, hf⟩ := Option.bind_eq_some_iff.mp hy
      exact B.loops_of_calls y ((hs.seat hc).calls y hf) } E where
  lobby :=
    { seats := fun y s hy => { hs.lobby.seats y s hy with
        calls := fun f hf => by
          have hcall : h.lobby.friendCallOf y = some f := by
            rw [Lobby.friendCallOf, hy]
            exact hf
          rwa [friendCallOf_lobby] at hcall }
      slots := hs.lobby.slots }
  ring := hs.ring
  fed := hs.fed

/-- **Step**: a frame. -/
theorem frame {n : Nat} {msg : ClientMsg} (hB : Calls B) (hi : Introduced B h) (hs : h.Sane B ∅)
    (hheir : takesCallersName h (.frame x msg) → B.loops)
    (hr : h.step env n (.frame x msg) = some h') : h'.Sane B ∅ := by
  obtain ⟨k, r, hk, -, -, hpre, hb, hend⟩ := step_frame hr
  have hr' : r.Sane B ∅ := preamble (tryMatch (n + 1)) hs hpre
  have hcalls := preamble (tryMatch (n + 1)) hs.rebound hpre
  have hold : Older h r.books := by
    have hk' : Older h k.books :=
      (expireWsHolds_books (Q := Older h) (fun b y hb _ => hb.erase y)
        ⟨rfl, rfl, fun _ _ hu => hu⟩ hk).1
    rw [hb]
    exact ⟨hk'.sys, hk'.friendships, hk'.index⟩
  rcases hend with ⟨-, rfl⟩ | ⟨hhear, hd⟩
  · exact hr'
  refine dispatch (tryMatch (n + 1)) hB (fun hn => ?_) hr' ?_ ?_ hd
  · obtain ⟨hsound, hirr⟩ := hi hn
    refine ⟨(sent_preamble (logs_tryMatch (n + 1)) hpre).sound hsound, fun u => ?_⟩
    rw [show r.friendships = h.friendships from hold.friendships]
    exact hirr u
  · obtain ⟨g, hg, -⟩ := (Option.any_eq_true _ _).mp hhear
    rw [has_books, hb]
    show (if x = x then _ else _ : Option Badge).isSome = true
    rw [if_pos rfl, hg]
    exact Option.isSome_some
  · rintro m rfl old hold' hcall
    have hname : r.helloUserId x m.userId = h.helloUserId x m.userId := by
      unfold helloUserId
      rw [show r.sys = h.sys from hold.sys]
    rw [hname] at hold'
    obtain ⟨c, hc, hf⟩ := Option.bind_eq_some_iff.mp hcall
    refine hheir (decide_eq_true (Option.bind_eq_some_iff.mpr
      ⟨old, hold.index _ _ hold', ?_⟩))
    exact (hcalls.seat hc).calls x hf

/-- **Step**: every event. -/
theorem step {n : Nat} {e : Event} (hB : Calls B) (hi : Introduced B h) (hs : h.Sane B ∅)
    (hheir : takesCallersName h e → B.loops)
    (habroad : e.fromAbroad = true → ∀ b y sid sess, B.fed b → B.fed (b.enter y sid sess))
    (hr : h.step env n e = some h') : h'.Sane B ∅ := by
  cases e with
  | connect x ip =>
      obtain ⟨k, hk, hd⟩ := Option.bind_eq_some_iff.mp hr
      have hswept : k.Sane B ∅ := expireWsHolds (tryMatch (n + 1)) hs hk
      split at hd
      · cases hd
        exact hswept
      · cases hd
        exact Sane.informed (Sane.send (hswept.enroll ip) x _)
  | frame x msg => exact frame hB hi hs hheir hr
  | close x => exact removeClient (tryMatch (n + 1)) hs hr
  | geo x code country city =>
      rw [← show h.setClientGeo x code country city = h' from Option.some.inj hr]
      have hset := hs.record (y := x) (f := fun c => { c with
        geoCode := normalizeFlag code
        geoCountry := Text.takeChars 64 country
        geoCity := Text.takeChars 64 city }) fun c => by simp only [Client.seat]
      unfold setClientGeo
      dsimp only
      split
      · exact hset
      · refine Sane.same (hset.send x (.geo (Text.takeChars 64 country) (Text.takeChars 64 city)
          (normalizeFlag code))) rfl rfl
  | adminBan u s =>
      rw [← show h.adminBan env u s = h' from Option.some.inj hr]
      exact hs.adminBan u s
  | adminUnban u =>
      rw [← show h.adminUnban u = h' from Option.some.inj hr]
      unfold adminUnban
      dsimp only
      split
      · exact hs
      · exact hs.same rfl rfl
  | adminUnbanIp ip =>
      rw [← show h.adminUnbanIp ip = h' from Option.some.inj hr]
      unfold adminUnbanIp
      dsimp only
      split
      · exact hs
      · exact hs.same rfl rfl
  | claim req =>
      rw [← show h.federationClaim env req = h' from Option.some.inj hr]
      unfold federationClaim
      dsimp only
      split
      · exact hs
      split
      · exact hs
      · exact hs.startFederatedMatch _ (habroad rfl _ _ _ _ hs.fed)
  | applyClaim x base resp =>
      rw [← show h.federationApplyClaim env x base resp = h' from Option.some.inj hr]
      unfold federationApplyClaim
      split
      · exact hs
      · exact hs.startFederatedMatch _ (habroad rfl _ _ _ _ hs.fed)

end Sane

theorem sane_empty {B : Bounds} (hfed : B.fed ⟨∅, ∅, []⟩) (sys : Sys) : (empty sys).Sane B ∅ where
  lobby :=
    { seats := fun y s hy => by cases hy
      slots :=
        { shapes := fun e he => absurd he List.not_mem_nil
          nodup := fun _ => List.nodup_nil } }
  ring p hp := by cases hp
  fed := hfed

end SimpleHub

open SimpleHub.Sane (takesCallersName)

-- ========================================================================= runs

/-- Anything goes. -/
def Bounds.any : Bounds where
  loops := True
  calls _ _ := True
  fed _ := True
  loops_of_calls _ _ := trivial
  fed_clear _ _ _ := trivial
  fed_push _ _ _ _ _ _ := trivial

/-- Nobody points at itself. -/
def Bounds.apart : Bounds where
  loops := False
  calls a b := a ≠ b
  fed _ := True
  loops_of_calls _ h := h rfl
  fed_clear _ _ _ := trivial
  fed_push _ _ _ _ _ _ := trivial

theorem sane_reach {sys : Sys} {w : World} (hw : (hubMachine sys).Reach w) :
    w.hub.Sane .any ∅ := by
  refine hw.invariant (I := fun w => w.hub.Sane .any ∅) ?_ ?_
  · rintro w rfl
    exact SimpleHub.sane_empty trivial sys
  · rintro w i w' - hs ⟨-, n, hub, hstep, rfl⟩
    exact hs.step (fun _ _ _ => trivial) (fun hn => absurd trivial hn) (fun _ => trivial)
      (fun _ _ _ _ _ _ => trivial) hstep

/-- **Nobody is matched with nobody**: in every reachable state a session has
at most four people, a connection has a partner exactly when it has peers, and
the partner is one of them; a matched connection without one is in a session
with another hub. The queue has no slot of three. -/
theorem matched_faces_somebody {sys : Sys} {w : World} (hw : (hubMachine sys).Reach w) :
    (∀ x c, w.hub.get x = some c →
      c.sessionPeers.card ≤ 3 ∧ (c.partner = none ↔ c.sessionPeers = ∅)
        ∧ (∀ p, c.partner = some p → p ∈ c.sessionPeers)
        ∧ (c.phase = .matched → c.partner = none → (w.hub.fedByClient.get? x).isSome = true))
    ∧ ∀ e ∈ w.hub.queue, ¬ e.IsParty3 := by
  have hs := sane_reach hw
  refine ⟨fun x c hc => ?_, hs.lobby.slots.shapes⟩
  have hseat := hs.seat hc
  refine ⟨hseat.few, ⟨hseat.alone, fun hnone => ?_⟩, hseat.partner, fun hm hp => ?_⟩
  · by_contra hsome
    obtain ⟨p, hp⟩ := Option.ne_none_iff_exists'.mp hsome
    have hmem : p ∈ c.sessionPeers := hseat.partner p hp
    rw [hnone] at hmem
    exact absurd hmem (Finset.notMem_empty p)
  · exact (hseat.faced hm hp).resolve_right (Finset.notMem_empty x)

/-- Two strangers. -/
def twoStrangers : List Input := script
  [(0, .connect 1 "ip1"), (0, .connect 2 "ip2"), (1, .frame 1 (.spin "")), (2, .frame 2 (.spin ""))]

theorem matched_faces_somebody_two : ∃ w c, (hubMachine plainSys).Reach w
    ∧ w.hub.get 1 = some c ∧ c.partner = some 2 ∧ 2 ∈ c.sessionPeers ∧ c.sessionPeers.card ≤ 3 := by
  have hrun : (replay plainSys 2 twoStrangers).any
      (fun w => (w.hub.get 1).any fun c => decide (c.partner = some 2)) = true := by
    decide +kernel
  obtain ⟨w, hw, hp⟩ := reach_of_replay hrun
  obtain ⟨c, hc, hp⟩ := (Option.any_eq_true _ _).mp hp
  have hpartner := of_decide_eq_true hp
  obtain ⟨hfew, -, hpeer, -⟩ := (matched_faces_somebody hw).1 1 c hc
  exact ⟨w, c, hw, hc, hpartner, hpeer 2 hpartner, hfew⟩

/-- What survives the end of a session and the queueing of a relay survives
every event that no other hub is behind. -/
theorem SimpleHub.Sane.own {fed : FedBooks → Prop} (hclear : ∀ b x, fed b → fed (b.clear x))
    (hpush : ∀ b x sess o, b.Relays x sess o → fed b → fed (b.push o)) {h h' : SimpleHub}
    {env : Env} {n : Nat} {e : Event} (he : e.fromAbroad = false) (hs : h.Sane .any ∅)
    (hf : fed h.fedBooks) (hr : h.step env n e = some h') :
    h'.Sane .any ∅ ∧ fed h'.fedBooks := by
  let B : Bounds := { Bounds.any with fed := fed, fed_clear := hclear, fed_push := hpush }
  have hB : h.Sane B ∅ :=
    { lobby :=
        { seats := fun y s hy => { hs.lobby.seats y s hy with }
          slots := hs.lobby.slots }
      ring := hs.ring
      fed := hf }
  have hB' : h'.Sane B ∅ := hB.step (fun _ _ _ => trivial) (fun hn => absurd trivial hn)
    (fun _ => trivial) (fun ht => by rw [he] at ht; cases ht) hr
  exact ⟨{ lobby :=
      { seats := fun y s hy => { hB'.lobby.seats y s hy with }
        slots := hB'.lobby.slots }
           ring := hB'.ring
           fed := trivial }, hB'.fed⟩

theorem narrated_reach {sys : Sys} {w : World} (hw : (hubMachine sys).Reach w) :
    Narrated sys w := by
  refine hw.invariant (I := Narrated sys) ?_ fun _ _ _ _ hn hs => hn.step hs
  rintro w rfl
  refine ⟨⟨[], .start⟩, fun u c hu => ?_, fun y hy => ?_⟩
  · cases hu
  · cases hy

/-- The hub without a `Hello` that takes the name of one's own friend caller. -/
def callersKeepNames (sys : Sys) : Machine World Input :=
  (hubMachine sys).guard fun w i => ¬ takesCallersName w.hub i.event

/-- **Nobody faces itself**: as long as no connection takes the name of one it
is in a friend call with, no connection is its own partner, peer, mate or
friend, and none is in the queue twice. -/
theorem nobody_faces_itself {sys : Sys} (hsys : ∀ x, sys.uuidText x ≠ "") {w : World}
    (hw : (callersKeepNames sys).Reach w) :
    (∀ x c, w.hub.get x = some c → x ∉ c.sessionPeers ∧ c.partner ≠ some x
      ∧ c.partyWith ≠ some x ∧ c.friendCall ≠ some x)
    ∧ (w.hub.queue.flatMap queueEntryIds).Nodup := by
  have hs : w.hub.Sane .apart ∅ := by
    refine hw.invariant (I := fun w => w.hub.Sane .apart ∅) ?_ ?_
    · rintro w rfl
      exact SimpleHub.sane_empty trivial sys
    · rintro w i w' hreach hs ⟨hkeep, -, n, hub, hstep, rfl⟩
      have hw := hreach.of_guard
      refine hs.step (fun a b hab => hab) (fun _ => ⟨(narrated_reach hw).sound, fun u hu => ?_⟩)
        (fun htakes => hkeep htakes) (fun _ _ _ _ _ _ => trivial) hstep
      have hfriends := SimpleHub.friendsMachine_of_hub hw
      exact (SimpleHub.acquainted_reach hsys hfriends).1.ties.irrefl u hu
  refine ⟨fun x c hc => ?_, hs.lobby.slots.nodup id⟩
  have hseat := hs.seat hc
  refine ⟨hseat.peers, fun hp => ?_, hseat.mate, fun hf => hseat.calls x hf rfl⟩
  exact hseat.peers (hseat.partner x hp)

/-- The same two, and one of them has said a name. -/
def twoNamed : List Input := script
  [(0, .connect 1 "ip1"), (0, .connect 2 "ip2"),
    (1, .frame 1 (.hello ⟨"1", "", "", "", [], false, ""⟩)), (2, .frame 1 (.spin "")),
    (3, .frame 2 (.spin ""))]

theorem nobody_faces_itself_two : ∃ w c, (callersKeepNames plainSys).Reach w
    ∧ w.hub.get 1 = some c ∧ c.sessionPeers.Nonempty ∧ 1 ∉ c.sessionPeers := by
  have hrun : (Machine.follow (Machine.guardNext
      (fun w i => ¬ takesCallersName w.hub i.event) (World.advance 2))
      (World.start plainSys) twoNamed).any
      (fun w => (w.hub.get 1).any fun c => decide c.sessionPeers.Nonempty) = true := by
    decide +kernel
  obtain ⟨w, hw, hp⟩ := Machine.exists_reach (M := callersKeepNames plainSys)
    (Machine.guardNext_step advance_step) rfl hrun
  obtain ⟨c, hc, hp⟩ := (Option.any_eq_true _ _).mp hp
  have hnamed : ∀ x, plainSys.uuidText x ≠ "" := fun x h0 => by
    have := congrArg String.length h0
    change ("u" ++ toString x).length = 0 at this
    rw [String.length_append] at this
    exact absurd this (by simp)
  exact ⟨w, c, hw, hc, of_decide_eq_true hp, ((nobody_faces_itself hnamed hw).1 1 c hc).1⟩

/-- A pair of friends and a pair of strangers browse as four; a stranger takes
the friends out of it one by one, the first closes, and the second takes its
name: it is its own friend caller. -/
def heirRun : List Input := script
  [(0, .connect 1 "ip1"), (0, .connect 2 "ip2"), (0, .connect 3 "ip3"), (0, .connect 4 "ip4"),
    (0, .connect 5 "ip5"), (1, .frame 3 (.hello ⟨"3", "", "", "", [], false, ""⟩)),
    (1, .frame 4 (.hello ⟨"4", "", "", "", [], false, ""⟩)), (2, .frame 3 (.addFriend "c-4")),
    (3, .frame 4 (.acceptFriend "3")), (4, .frame 1 (.spin "")), (5, .frame 2 (.spin "")),
    (6, .frame 1 .findThirdInvite), (7, .frame 2 (.findThirdRespond true)),
    (8, .frame 3 (.callFriend "4" false)), (9, .frame 4 (.callRespond "3" true)),
    (10, .frame 3 .findThirdInvite), (11, .frame 4 (.findThirdRespond true)),
    (12, .frame 5 (.spin "B")), (5000, .frame 1 (.next "B")), (5001, .close 3),
    (5002, .frame 4 (.hello ⟨"3", "", "", "", [], false, ""⟩))]

theorem own_friend_caller : ∃ w, (hubMachine plainSys).Reach w
    ∧ w.hub.friendCallOf 4 = some 4 := by
  obtain ⟨w, hw, hp⟩ := @reach_of_replay plainSys 6 heirRun
    (fun w => decide (w.hub.friendCallOf 4 = some 4)) (by decide +kernel)
  exact ⟨w, hw, of_decide_eq_true hp⟩

end Ruletka
