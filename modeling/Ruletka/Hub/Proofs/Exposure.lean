/-
Every handler is a log of acts.

A handler calls `try_match` through its parameter, so a handler is a log
when the continuation is one; `try_match` is one by induction on its
nesting.
-/
import Ruletka.Hub.Proofs.Relay

namespace Ruletka

/-- Whose choice to hide its address an event carries. -/
def Event.choice : Event → Option (ConnId × Bool)
  | .connect id _ => some (id, false)
  | .frame id (.hello msg) => some (id, msg.hideIp)
  | .frame id (.setPrefs _ _ _ _ hideIp) => some (id, hideIp)
  | _ => none

namespace SimpleHub

variable {h k h' : SimpleHub} {env : Env} {tm : SimpleHub → Option SimpleHub}

/-- Every call of the continuation is a log of acts. -/
def Logs (tm : SimpleHub → Option SimpleHub) : Prop := ∀ k k', tm k = some k' → k.Sent k'

theorem Logs.call (htm : Logs tm) (hr : tm k = some h') (hs : h.Sent k) : h.Sent h' :=
  hs.trans (htm k h' hr)

-- =================================================================== leaving

theorem sent_keepStrangers (m : ConnId) (d : String) (l : List ConnId) :
    h.Sent (h.keepStrangers env m d l) := by
  have hposts : ∀ (k : SimpleHub) (l : List ConnId),
      (l.foldl (fun h x => h.forceSessionIdle x "partner left") k).posts = k.posts :=
    fun k l => k.posts_foldl _ (fun h x => h.posts_forceSessionIdle x _) l
  have hbooks : ∀ (k : SimpleHub) (l : List ConnId),
      (l.foldl (fun h x => h.forceSessionIdle x "partner left") k).books = k.books :=
    fun k l => k.books_foldl _ (fun h x => h.books_forceSessionIdle x _) l
  unfold keepStrangers
  split
  · refine .of_quiet ?_ ?_
    · simp
    · simp
  · exact sent_collapseToSolo1v1 m _ d
  · next o0 o1 extra =>
    split
    · next hall =>
      simp only [Bool.and_eq_true] at hall
      obtain ⟨⟨⟨-, h0⟩, -⟩, hm⟩ := hall
      have hp := hposts h extra
      have hb := hbooks h extra
      dsimp only
      generalize extra.foldl (fun h x => h.forceSessionIdle x "partner left") h = k at hp hb ⊢
      rw [← has_congr hb] at h0 hm
      exact ((((sent_startPartyVsSolo hm (.inl h0)).before hp hb).status _ _).status _ _).status
        _ _
    · exact (sent_collapseToSolo1v1 m o0 d).before (hposts h _) (hbooks h _)

theorem sent_leaveMate (x m : ConnId) (ps : Finset ConnId) (d : String) :
    h.Sent (h.leaveMate env x m ps d) := by
  unfold leaveMate
  dsimp only
  refine (sent_keepStrangers m d _).before ?_ ?_
  · simp
  · simp

section Handlers

variable (htm : Logs tm)

include htm

theorem sent_leaveThird {x : ConnId} {ps : Finset ConnId} {d : String} {r : SimpleHub × Bool}
    (hr : h.leaveThird env tm x ps d = some r) : h.Sent r.1 := by
  unfold leaveThird at hr
  split at hr
  · split at hr
    · obtain ⟨k, hk, hs⟩ := Option.bind_eq_some_iff.mp hr
      cases hs
      exact htm.call hk (sent_huntAgain _ _ _)
    · split at hr
      · cases hr
        exact sent_collapseToSolo1v1 _ _ d
      · cases hr
        exact .refl h
  · cases hr
    exact .refl h

theorem sent_leaveKeepRemainingPair {x : ConnId} {d : String} {r : SimpleHub × Bool}
    (hr : h.leaveKeepRemainingPair env tm x d = some r) : h.Sent r.1 := by
  unfold leaveKeepRemainingPair at hr
  split at hr
  · cases hr
    exact .refl h
  · split at hr
    · split at hr
      · cases hr
        exact sent_leaveMate x _ _ d
      · cases hr
        exact .refl h
    · split at hr
      · exact sent_leaveThird htm hr
      · cases hr
        exact .refl h

theorem sent_enterWaitingSolo {x : ConnId} {room d : String}
    (hr : h.enterWaitingSolo env tm x room d = some h') : h.Sent h' := by
  unfold enterWaitingSolo at hr
  split at hr
  · exact htm h h' hr
  split at hr
  · cases hr
    exact .refl h
  split at hr
  · cases hr
    exact .refl h
  · dsimp only at hr
    refine htm.call hr (Sent.lobby (Sent.status ?_ _ _))
    split
    · refine .of_quiet ?_ ?_
      · simp
      · simp
    · refine .of_quiet ?_ ?_
      · simp
      · simp

theorem sent_stopMatchmaking {x : ConnId} (hr : h.stopMatchmaking env tm x = some h') :
    h.Sent h' := by
  unfold stopMatchmaking at hr
  obtain ⟨⟨k, kept⟩, hk, hs⟩ := Option.bind_eq_some_iff.mp hr
  have hleft : h.Sent k :=
    (sent_leaveKeepRemainingPair htm hk).before (posts_cancelFindThird ..)
      (books_cancelFindThird ..)
  cases hs
  refine hleft.trans ?_
  split
  · exact .of_quiet (posts_stopKept ..) (books_stopKept ..)
  · split
    · exact .of_quiet (posts_endFriendCall ..) (books_endFriendCall ..)
    · exact .of_quiet (posts_stopAlone ..) (books_stopAlone ..)

theorem sent_partyRequeue {a b : ConnId} {room d : String}
    (hr : h.partyRequeue env tm a b room d = some h') : h.Sent h' := by
  unfold partyRequeue at hr
  refine htm.call hr (Sent.lobby ((Sent.status ?_ _ _).status _ _))
  refine .of_quiet ?_ ?_
  · simp
  · simp

theorem sent_dropZombiePartner {x : ConnId} (hr : h.dropZombiePartner env tm x = some h') :
    h.Sent h' := by
  unfold dropZombiePartner at hr
  split at hr
  · cases hr
    exact .refl h
  · refine htm.call hr (Sent.status (.of_quiet ?_ ?_) _ _)
    · simp
    · simp

-- ============================================================== spin and next

omit htm in
/-- Behind the refusals a command sends what it does from there. -/
theorem sent_behindGate {settle : SimpleHub → Option Nat} {x : ConnId}
    {next : SimpleHub → Option SimpleHub} (hnext : ∀ k k', next k = some k' → k.Sent k')
    (hr : h.behindGate env settle x next = some h') : h.Sent h' := by
  have hd : h.Sent (h.denyIfMatchBanned env x).1 :=
    .of_quiet (posts_denyIfMatchBanned ..) (books_denyIfMatchBanned ..)
  have ha : h.Sent ((h.denyIfMatchBanned env x).1.allowMatchCmd env x).1 :=
    hd.trans (.of_quiet (posts_allowMatchCmd ..) (books_allowMatchCmd ..))
  obtain heq | ⟨d, heq⟩ | heq | heq := @behindGate_cases h env settle x next
  · obtain rfl := Option.some.inj (heq.symm.trans hr)
    exact hd
  · obtain rfl := Option.some.inj (heq.symm.trans hr)
    exact hd.status x d
  · obtain rfl := Option.some.inj (heq.symm.trans hr)
    exact ha
  · exact ha.trans (hnext _ _ (heq.symm.trans hr))

theorem sent_handleSpin {x : ConnId} {room : String}
    (hr : h.handleSpin env tm x room = some h') : h.Sent h' := by
  rw [handleSpin_gate] at hr
  apply sent_behindGate (fun k k' hk => ?_) hr
  split at hk
  · exact sent_partyRequeue htm hk
  · exact sent_enterWaitingSolo htm hk

theorem sent_nextDispatch {x : ConnId} {room : String}
    (hr : h.nextDispatch env tm x room = some h') : h.Sent h' := by
  unfold nextDispatch at hr
  split at hr
  · exact sent_partyRequeue htm hr
  · obtain ⟨⟨k, kept⟩, hk, hs⟩ := Option.bind_eq_some_iff.mp hr
    have hleft : h.Sent k := sent_leaveKeepRemainingPair htm hk
    refine hleft.trans ?_
    cases kept with
    | true => exact htm.call hs (.of_quiet (posts_placeInSoloQueue ..) (books_placeInSoloQueue ..))
    | false =>
        dsimp only at hs
        split at hs
        · next h => cases h
        split at hs
        · cases hs
          exact (Sent.refl k).status _ _
        · exact sent_enterWaitingSolo htm hs

theorem sent_handleNext {x : ConnId} {room : String}
    (hr : h.handleNext env tm x room = some h') : h.Sent h' := by
  rw [handleNext_gate] at hr
  apply sent_behindGate (fun k k' hk => ?_) hr
  dsimp only at hk
  split at hk
  · cases hk
    exact (Sent.refl k).status _ _
  · exact sent_nextDispatch htm hk

-- ========================================================== invites and calls

omit htm in
theorem has_of_find_third {a b : ConnId}
    (hp : h.isFriendCall1v1Pair a b = true ∨ h.isStranger1v1Pair a b = true) :
    h.has a = true ∧ h.has b = true := by
  unfold isFriendCall1v1Pair isStranger1v1Pair at hp
  cases ha : h.get a with
  | none => simp [ha] at hp
  | some ca =>
    cases hb : h.get b with
    | none => simp [ha, hb] at hp
    | some cb => exact ⟨has_iff.mpr ⟨ca, ha⟩, has_iff.mpr ⟨cb, hb⟩⟩

omit htm in
/-- The notice that a find-third invite was accepted asks who hides. -/
theorem sent_thirdNotice {me them : ConnId} {role d : String} {m : MatchedMsg}
    (hme : h.has me = true) (hthem : h.has them = true)
    (hpeers : m.peers = h.matchPeers me [(them, role)])
    (hforce : m.forceRelay = h.pairForceRelay me them) :
    h.Sent (((h.send me (.findThirdResult true "accepted")).send me (.matched m)).status me d) := by
  have hquiet : h.Sent (h.send me (.findThirdResult true "accepted")) :=
    (Sent.refl h).send me _ (by simp)
  have hp : (h.send me (.findThirdResult true "accepted")).posts = h.posts :=
    posts_send _ _ _ (by simp)
  refine (hquiet.trans (Sent.matched ?_)).status me d
  rw [hp]
  refine @relays_among h h rfl [me, them] me m [(them, role)] (by simp)
    (fun q hq => ⟨q, hpeers ▸ hq, rfl⟩) (by simp) fun y hy hide => ?_
  rw [hforce]
  refine pairForceRelay_of_hides rfl rfl hme hthem ?_
  rcases List.mem_pair.mp hy with rfl | rfl
  · exact .inl hide
  · exact .inr hide

theorem sent_findThirdAccepted {p : FindThirdPending}
    (hr : h.findThirdAccepted env tm p = some h') : h.Sent h' := by
  unfold findThirdAccepted at hr
  dsimp only at hr
  split at hr
  · cases hr
    exact ((Sent.refl h).send _ _ (by simp)).send _ _ (by simp)
  next hpair =>
  have hthere : h.has p.origin = true ∧ h.has p.target = true := by
    refine has_of_find_third ?_
    by_contra hno
    rw [not_or, Bool.not_eq_true, Bool.not_eq_true] at hno
    rw [hno.1, hno.2] at hpair
    exact hpair rfl
  refine htm.call hr (Sent.lobby ?_)
  generalize hk : enqueueParty _ env p.origin p.target = k
  have hp : k.posts = h.posts := by
    rw [← hk, posts_enqueueParty]
    split
    · rfl
    · simp
  have hb : k.books = h.books := by
    rw [← hk, books_enqueueParty]
    split
    · rfl
    · simp
  rw [← has_congr hb, ← has_congr hb] at hthere
  refine Sent.before ?_ hp hb
  rw [List.foldl_cons, List.foldl_cons, List.foldl_nil]
  refine Sent.trans (sent_thirdNotice hthere.1 hthere.2 rfl rfl) (sent_thirdNotice ?_ ?_ rfl rfl)
  · exact (has_congr (h := k) (by simp) _).trans hthere.2
  · exact (has_congr (h := k) (by simp) _).trans hthere.1

theorem sent_handleFindThirdRespond {x : ConnId} {accept : Bool}
    (hr : h.handleFindThirdRespond env tm x accept = some h') : h.Sent h' := by
  have hexp : h.Sent (h.expireFindThirdIfNeeded env) :=
    .of_quiet (posts_expireFindThirdIfNeeded ..) (books_expireFindThirdIfNeeded ..)
  unfold handleFindThirdRespond at hr
  dsimp only at hr
  generalize h.expireFindThirdIfNeeded env = k at hexp hr
  refine hexp.trans ?_
  split at hr
  · cases hr
    exact (Sent.refl k).send _ _ (by simp)
  split at hr
  · cases hr
    exact (Sent.refl k).send _ _ (by simp)
  have hset : k.Sent (k.setFindThird none) := .of_quiet rfl rfl
  split at hr
  · cases hr
    exact ((hset.send _ _ (by simp)).send _ _ (by simp)).status _ _
  · exact hset.trans (sent_findThirdAccepted htm hr)

theorem sent_leaveForCall {x : ConnId} (hr : h.leaveForCall env tm x = some h') :
    h.Sent h' := by
  unfold leaveForCall at hr
  split at hr
  · exact sent_stopMatchmaking htm hr
  · cases hr
    exact .refl h

theorem sent_leaveOrDequeue {x : ConnId} (hr : h.leaveOrDequeue env tm x = some h') :
    h.Sent h' := by
  unfold leaveOrDequeue at hr
  split at hr
  · exact sent_stopMatchmaking htm hr
  · cases hr
    exact .of_quiet rfl rfl

theorem sent_leaveToJoin {x y : ConnId} (hr : h.leaveToJoin env tm x y = some h') :
    h.Sent h' := by
  unfold leaveToJoin at hr
  split at hr
  · exact sent_stopMatchmaking htm hr
  split at hr
  · cases hr
    exact .of_quiet (posts_endFriendCall ..) (books_endFriendCall ..)
  split at hr
  · exact sent_stopMatchmaking htm hr
  · cases hr
    exact .refl h

theorem sent_handleCallFriend {x : ConnId} {u : UserId} {join : Bool}
    (hr : h.handleCallFriend env tm x u join = some h') : h.Sent h' := by
  have hexp : h.Sent (h.expireJoinCallIfNeeded env) :=
    .of_quiet (posts_expireJoinCallIfNeeded ..) (books_expireJoinCallIfNeeded ..)
  unfold handleCallFriend at hr
  dsimp only at hr
  generalize h.expireJoinCallIfNeeded env = k at hexp hr
  refine hexp.trans ?_
  split at hr
  · cases hr
    exact .refl _
  split at hr
  · cases hr
    exact (Sent.refl k).send _ _ (by simp)
  split at hr
  · cases hr
    exact (Sent.refl k).send _ _ (by simp)
  split at hr
  · cases hr
    exact (Sent.refl k).send _ _ (by simp)
  split at hr
  · cases hr
    exact .of_quiet (posts_callJoin ..) (books_callJoin ..)
  · obtain ⟨k', hk', hs⟩ := Option.bind_eq_some_iff.mp hr
    cases hs
    refine Sent.after (Sent.before (sent_leaveForCall htm hk') ?_ ?_) (posts_callClassic ..)
      (books_callClassic ..)
    · split
      · exact posts_endFriendCall ..
      · rfl
    · split
      · exact books_endFriendCall ..
      · rfl

-- ============================================================ profile and blocks

theorem sent_handleFaceOk {x : ConnId} {ok ready failOpen : Bool}
    (hr : h.handleFaceOk env tm x ok ready failOpen = some h') : h.Sent h' := by
  have hface : h.Sent (h.modify x (reportFace env ok ready failOpen)) := by
    refine .of_quiet (posts_modify _ _ _ fun c => ?_) (books_modify _ _ _ fun c => ?_)
    · cases c
      rfl
    · exact ⟨rfl, rfl, rfl, rfl, rfl⟩
  unfold handleFaceOk at hr
  dsimp only at hr
  split at hr
  · exact htm.call hr hface
  · cases hr
    exact hface

theorem sent_releaseBlocked {p : Option ConnId} (hr : h.releaseBlocked env tm p = some h') :
    h.Sent h' := by
  unfold releaseBlocked at hr
  split at hr
  · split at hr
    · exact (sent_enterWaitingSolo htm hr).before (posts_unmatchOne ..) (books_unmatchOne ..)
    · cases hr
      exact .refl h
  · cases hr
    exact .refl h

theorem sent_blockPart {x : ConnId} {u : UserId} (hr : h.blockPart env tm x u = some h') :
    h.Sent h' := by
  unfold blockPart at hr
  dsimp only at hr
  split at hr
  · cases hr
    exact .of_quiet (posts_endFriendCall ..) (books_endFriendCall ..)
  split at hr
  · obtain ⟨k, hk, hs⟩ := Option.bind_eq_some_iff.mp hr
    exact (sent_releaseBlocked htm hk).trans (sent_enterWaitingSolo htm hs)
  · cases hr
    exact .refl h

theorem sent_handleBlockUser {x : ConnId} {raw : String}
    (hr : h.handleBlockUser env tm x raw = some h') : h.Sent h' := by
  unfold handleBlockUser at hr
  split at hr
  · cases hr
    exact (Sent.refl h).send _ _ (by simp)
  split at hr
  · cases hr
    exact .refl _
  split at hr
  · cases hr
    exact (Sent.refl h).send _ _ (by simp)
  · obtain ⟨k, hk, hs⟩ := Option.bind_eq_some_iff.mp hr
    cases hs
    refine Sent.status (Sent.trans ?_ (sent_blockPart htm hk)) _ _
    exact .of_same rfl ⟨rfl, rfl, fun _ => rfl⟩

-- =================================================================== removal

omit htm in
theorem posts_eraseClient (x : ConnId) :
    (h.eraseClient x).posts
      = { h.posts with hides := fun y => if y = x then false else h.posts.hides y } := by
  unfold eraseClient
  cases hx : h.get x with
  | none =>
      have hhides : (fun y => if y = x then false else h.posts.hides y) = h.posts.hides := by
        funext y
        split
        case isTrue hy =>
          show false = (h.get y).any _
          rw [hy, hx]
          rfl
        case isFalse => rfl
      rw [hhides]
  | some c =>
      unfold posts
      congr 1
      funext y
      show ((h.clients.del x).get? y).any _ = _
      rw [Table.get?_del]
      split
      · rfl
      · rfl

omit htm in
theorem sent_eraseClient (x : ConnId) : h.Sent (h.eraseClient x) where
  log := ⟨[.gone x], .one trivial (posts_eraseClient x) trivial⟩
  sound hs := by
    rw [books_eraseClient]
    exact hs.erase x
  kept y hy := by
    rw [has_iff_user, books_eraseClient, Books.user_erase] at hy
    split at hy
    · cases hy
    · exact has_iff_user.mpr hy

omit htm in
theorem sent_forgetClient (x : ConnId) (c : Client) (kept : Bool) :
    h.Sent (h.forgetClient env x c kept) := by
  unfold forgetClient
  dsimp only
  refine Sent.lobby ((sent_eraseClient x).before ?_ ?_)
  · split
    · simp
    · exact posts_releaseOthers ..
  · split
    · simp
    · exact books_releaseOthers ..

omit htm in
theorem sent_shouldKeepWsHold (x : ConnId) : h.Sent (h.shouldKeepWsHold env x).1 := by
  rcases @shouldKeepWsHold_cases h env x with ⟨hk, -⟩ | ⟨hk, -⟩ | hk
  · rw [hk]
    exact .refl h
  · rw [hk]
    refine .of_users (posts_modify _ _ _ fun c => rfl) rfl fun y => ?_
    dsimp only
    rw [books_park, Books.user_park]
  · rw [hk]
    exact .refl h

theorem sent_removeClient {x : ConnId} (hr : h.removeClient env tm x = some h') :
    h.Sent h' := by
  have hhold : h.Sent (h.shouldKeepWsHold env x).1 := sent_shouldKeepWsHold x
  unfold removeClient at hr
  generalize h.shouldKeepWsHold env x = q at hhold hr
  obtain ⟨k, kept⟩ := q
  dsimp only at hhold hr
  refine hhold.trans ?_
  split at hr
  · cases hr
    exact .refl _
  have hout : k.Sent (k.withdraw x) := by
    refine .of_quiet ?_ (books_withdraw x)
    unfold withdraw
    rw [posts_dropFindThird, posts_clearFedForClient, posts_dequeueClient]
  split at hr
  · cases hr
    exact hout
  · obtain ⟨⟨k', left⟩, hk', hs⟩ := Option.bind_eq_some_iff.mp hr
    have hleft : (k.withdraw x).Sent k' := sent_leaveKeepRemainingPair htm hk'
    exact htm.call hs ((hout.trans hleft).trans (sent_forgetClient x _ _))

theorem sent_expireHold {x : ConnId} (hr : h.expireHold env tm x = some h') : h.Sent h' := by
  unfold expireHold at hr
  obtain ⟨k, hk, hs⟩ := Option.bind_eq_some_iff.mp hr
  cases hs
  exact (sent_removeClient htm hk).after (posts_forgive ..) (books_forgive ..)

theorem sent_expireWsHolds (hr : h.expireWsHolds env tm = some h') : h.Sent h' := by
  unfold expireWsHolds at hr
  generalize env.mapOrder.run (h.connsWhere (Client.holdExpired env)) = l at hr
  induction l generalizing h with
  | nil =>
      cases hr
      exact .refl _
  | cons x l ih =>
      rw [List.foldlM_cons] at hr
      obtain ⟨k, hk, hs⟩ := Option.bind_eq_some_iff.mp hr
      exact (sent_expireHold htm hk).trans (ih hs)

end Handlers

/-- `try_match` is a log of acts, however deep it nests. -/
theorem logs_tryMatch (n : Nat) : Logs (tryMatch env n) := by
  induction n with
  | zero =>
      intro k k' hr
      cases hr
  | succ n ih =>
      intro k k' hr
      obtain ⟨r, hk, hs⟩ := Option.bind_eq_some_iff.mp hr
      cases hs
      exact (sent_expireWsHolds ih hk).trans (sent_rematch r)

-- ============================================================== accepted calls

section Settled

variable (htm : Logs tm) (hset : Settles env tm)

include htm hset

theorem sent_joinAsGuest {x caller : ConnId} {p : JoinCallPending} (hn : h.expired env = ∅)
    (hc : h.has caller = true) (hr : h.joinAsGuest env tm x caller p = some h') :
    h.Sent h' := by
  unfold joinAsGuest at hr
  dsimp only at hr
  generalize hk : (if ((h.phaseOf x).any (· ≠ .idle) && (h.friendCallOf x).isSome) = true then
    h.endFriendCall x "left to join another call" else h) = k at hr
  have hp : k.posts = h.posts := by
    rw [← hk]
    split
    · exact posts_endFriendCall ..
    · rfl
  have hb : k.books = h.books := by
    rw [← hk]
    split
    · exact books_endFriendCall ..
    · rfl
  obtain ⟨k', hk', hs⟩ := Option.bind_eq_some_iff.mp hr
  have hleft : h.Sent k' := (sent_leaveForCall htm hk').before hp hb
  have hb' : k'.books = k.books := by
    obtain ⟨k'', hk'', hb''⟩ := leaveForCall_returns hset
      (show k.expired env = ∅ by rw [expired_congr hb, hn]) x
    rw [hk'] at hk''
    cases hk''
    exact hb''
  refine hleft.trans ?_
  rw [← has_congr (hb'.trans hb)] at hc
  split at hs
  · cases hs
    exact (Sent.refl k').send _ _ (by simp)
  next hkeep =>
  split at hs
  · split at hs
    · cases hs
      exact (Sent.refl k').send _ _ (by simp)
    · cases hs
      exact sent_startFourPersonJoin _ _ _ _
  · cases hs
    refine sent_startThreePersonJoin hc (.inl ?_)
    rwa [Bool.not_eq_true', Bool.not_eq_false] at hkeep

theorem sent_joinAccepted {x caller : ConnId} {u : UserId} {p : JoinCallPending}
    (hn : h.expired env = ∅) (hx : h.has x = true)
    (hr : h.joinAccepted env tm x caller u p = some h') : h.Sent h' := by
  unfold joinAccepted at hr
  split at hr
  · cases hr
    exact (Sent.refl h).send _ _ (by simp)
  next hthere =>
  have hc : h.has caller = true := by
    rw [Bool.not_eq_true', Bool.not_eq_false, Bool.and_eq_true] at hthere
    exact hthere.2
  split at hr
  · cases hr
    exact ((Sent.refl h).send _ _ (by simp)).send _ _ (by simp)
  split at hr
  · obtain ⟨k, hk, hs⟩ := Option.bind_eq_some_iff.mp hr
    have hb : k.books = h.books := by
      obtain ⟨k', hk', hb'⟩ := leaveToJoin_returns hset hn caller x
      rw [hk] at hk'
      cases hk'
      exact hb'
    cases hs
    refine (sent_leaveToJoin htm hk).trans (sent_startThreePersonJoin ?_ (.inr ?_))
    · rwa [has_congr hb]
    · rwa [has_congr hb]
  · dsimp only at hr
    split at hr
    · split at hr
      · obtain ⟨k, hk, hs⟩ := Option.bind_eq_some_iff.mp hr
        cases hs
        exact (sent_leaveForCall htm hk).trans (sent_startFourPersonJoin _ _ _ _)
      · exact sent_joinAsGuest htm hset hn hc hr
    · exact sent_joinAsGuest htm hset hn hc hr

theorem sent_classicAccepted {x caller : ConnId} (hn : h.expired env = ∅)
    (hx : h.has x = true) (hc : h.has caller = true)
    (hr : h.classicAccepted env tm x caller = some h') : h.Sent h' := by
  have hother : ∀ (k : SimpleHub) (a b : ConnId) (d : String),
      (k.endOtherCall a b d).posts = k.posts ∧ (k.endOtherCall a b d).books = k.books :=
    fun k a b d => ⟨posts_endOtherCall .., books_endOtherCall ..⟩
  unfold classicAccepted at hr
  split at hr
  · obtain ⟨hp, hb⟩ := hother h caller x "left previous friend call"
    obtain ⟨k, hk, hs⟩ := Option.bind_eq_some_iff.mp hr
    have hbk : k.books = h.books := by
      obtain ⟨k', hk', hb'⟩ := leaveOrDequeue_returns hset
        (show (h.endOtherCall caller x "left previous friend call").expired env = ∅ by
          rw [expired_congr hb, hn]) caller
      rw [hk] at hk'
      cases hk'
      exact hb'.trans hb
    cases hs
    refine ((sent_leaveOrDequeue htm hk).before hp hb).trans
      (Sent.before (sent_startThreePersonJoin ?_ (.inr ?_)) (posts_setJoinCall ..) rfl)
    · exact (has_congr (h := h) hbk x).trans hx
    · exact (has_congr (h := h) hbk caller).trans hc
  · dsimp only at hr
    cases hr
    refine Sent.before (sent_startFriendSession ?_ ?_) ?_ ?_
    · refine (has_congr (h := h) ?_ caller).trans hc
      rw [books_setJoinCall, books_quiet, books_quiet, books_endOtherCall]
      split
      · exact books_endFriendCall ..
      · rfl
    · refine (has_congr (h := h) ?_ x).trans hx
      rw [books_setJoinCall, books_quiet, books_quiet, books_endOtherCall]
      split
      · exact books_endFriendCall ..
      · rfl
    · rw [posts_setJoinCall, posts_quiet, posts_quiet, posts_endOtherCall]
      split
      · exact posts_endFriendCall ..
      · rfl
    · rw [books_setJoinCall, books_quiet, books_quiet, books_endOtherCall]
      split
      · exact books_endFriendCall ..
      · rfl

/-- An accepted ring starts its session among connections that are there:
the acceptor sent the frame, and the index points at the caller. -/
theorem sent_handleCallRespond {x : ConnId} {u : UserId} {accept : Bool}
    (hn : h.expired env = ∅) (hx : h.has x = true) (hs : h.books.Sound)
    (hr : h.handleCallRespond env tm x u accept = some h') : h.Sent h' := by
  have hexp : h.Sent (h.expireJoinCallIfNeeded env) :=
    .of_quiet (posts_expireJoinCallIfNeeded ..) (books_expireJoinCallIfNeeded ..)
  have hb := books_expireJoinCallIfNeeded h env
  unfold handleCallRespond at hr
  dsimp only at hr
  generalize h.expireJoinCallIfNeeded env = k at hexp hb hr
  rw [← has_congr hb] at hx
  have hnk : k.expired env = ∅ := by rw [expired_congr hb, hn]
  refine hexp.trans ?_
  split at hr
  · cases hr
    exact (Sent.refl k).send _ _ (by simp)
  next caller hcaller =>
  have hc : k.has caller = true := by
    have huser := hexp.sound hs u caller hcaller
    rw [has_iff_user, huser]
    rfl
  split at hr
  · split at hr
    · refine Sent.before (sent_joinAccepted htm hset ?_ ?_ hr) (posts_setJoinCall ..) rfl
      · exact (expired_congr (books_setJoinCall ..)).trans hnk
      · exact hx
    · cases hr
      refine Sent.status (Sent.send ?_ _ _ (by simp)) _ _
      exact .of_quiet rfl rfl
  · split at hr
    · cases hr
      exact ((Sent.refl k).send _ _ (by simp)).status _ _
    split at hr
    · cases hr
      exact ((Sent.refl k).send _ _ (by simp)).send _ _ (by simp)
    split at hr
    · cases hr
      exact ((Sent.refl k).send _ _ (by simp)).send _ _ (by simp)
    · exact sent_classicAccepted htm hset hnk hx hc hr

end Settled

-- ================================================================== identity

/-- An operation in which somebody may choose to hide its address. -/
structure Told (choice : Option (ConnId × Bool)) (h h' : SimpleHub) : Prop where
  log : ∃ log, LoggedBy choice h.posts log h'.posts
  sound : h.books.Sound → h'.books.Sound
  kept : ∀ y, h'.has y = true → h.has y = true

theorem Told.trans {choice : Option (ConnId × Bool)} (h₁ : Told choice h k)
    (h₂ : Told choice k h') : Told choice h h' := by
  obtain ⟨l, hl⟩ := h₁.log
  obtain ⟨m, hm⟩ := h₂.log
  exact ⟨⟨l ++ m, hl.append hm⟩, fun hs => h₂.sound (h₁.sound hs),
    fun y hy => h₁.kept y (h₂.kept y hy)⟩

theorem Sent.told (hs : h.Sent h') (choice : Option (ConnId × Bool)) : Told choice h h' := by
  obtain ⟨log, hl, hby⟩ := hs.log
  refine ⟨⟨log, hl, fun act hact => ?_⟩, hs.sound, hs.kept⟩
  have hnone := hby act hact
  cases act with
  | choose x hide => cases hnone
  | _ => trivial

/-- A connection chooses whether it hides its address. -/
theorem posts_choose {x : ConnId} {f : Client → Client} {hide : Bool}
    (hf : ∀ c, (f c).hideIp = hide) (hx : h.has x = true) :
    (h.modify x f).posts
      = { h.posts with hides := fun y => if y = x then hide else h.posts.hides y } := by
  obtain ⟨c, hc⟩ := has_iff.mp hx
  unfold posts
  congr 1
  funext y
  rw [get_modify]
  split
  · next hy =>
    rw [hy, hc]
    exact hf c
  · rfl

theorem sent_moveSeat (old new partner : ConnId) (oldc : Client) :
    h.Sent (h.moveSeat env old new partner oldc) := by
  have hwrite : ∀ (k : SimpleHub) (x : ConnId) (f : Client → Client),
      (∀ c, (f c).hideIp = c.hideIp ∧ (f c).userId = c.userId) → k.Sent (k.modify x f) := by
    intro k x f hf
    refine .of_users (posts_modify _ _ _ fun c => (hf c).1) rfl fun y => ?_
    show (((k.modify x f).get y).map Client.badge).map _ = ((k.get y).map Client.badge).map _
    rw [get_modify]
    split
    · cases k.get y with
      | none => rfl
      | some c => exact congrArg some (hf c).2
    · rfl
  unfold moveSeat
  refine ((hwrite h _ _ fun c => ?_).trans (hwrite _ _ _ fun c => ?_)).trans
    (hwrite _ _ _ fun c => ?_)
  · exact ⟨rfl, rfl⟩
  · exact ⟨rfl, rfl⟩
  · exact ⟨rfl, rfl⟩

theorem sent_adoptWsHold (htm : Logs tm) {old new : ConnId} {r : SimpleHub × Bool}
    (hr : h.adoptWsHold env tm old new = some r) : h.Sent r.1 := by
  unfold adoptWsHold at hr
  split at hr
  · cases hr
    exact .refl _
  split at hr
  · cases hr
    exact .refl _
  split at hr
  · cases hr
    exact .refl _
  · obtain ⟨k, hk, hs⟩ := Option.bind_eq_some_iff.mp hr
    cases hs
    exact (((sent_moveSeat _ _ _ _).trans (sent_removeClient htm hk)).status _ _).status _ _

theorem sent_kickPrevious (htm : Logs tm) {x : ConnId} {u : UserId}
    (hr : h.kickPrevious env tm x u = some h') : h.Sent h' := by
  unfold kickPrevious at hr
  split at hr
  · cases hr
    exact .refl _
  split at hr
  · cases hr
    exact .refl _
  · obtain ⟨⟨k, adopted⟩, hk, hs⟩ := Option.bind_eq_some_iff.mp hr
    have had : h.Sent k := sent_adoptWsHold htm hk
    dsimp only at hs
    split at hs
    · cases hs
      exact had
    · exact ((had.send _ _ (by simp)).status _ _).trans (sent_removeClient htm hs)

theorem told_identify {x : ConnId} {u : UserId} {msg : HelloIn} (hx : h.has x = true) :
    Told (some (x, msg.hideIp)) h (h.identify env x u msg) where
  log := by
    refine ⟨[.choose x msg.hideIp], .one trivial ?_ rfl⟩
    have hip : ∀ (k : SimpleHub) (c : Client),
        (k.rememberClientIp u c.clientIp).posts = k.posts := by
      intro k c
      unfold rememberClientIp
      dsimp only
      split
      · rfl
      · rfl
    have hnotice : ∀ (k : SimpleHub) (p : Bool) (d : String),
        (if p then k.status x d else k).posts = k.posts := by
      intro k p d
      split
      · exact k.posts_status x d
      · rfl
    unfold identify
    dsimp only
    rw [posts_broadcastLobbyInfo, posts_onSome _ _ _ fun c => posts_send _ _ _ (by simp), hnotice,
      posts_onSome _ _ _ fun c => hip _ c]
    exact posts_choose (h := h.reindex x u) (fun c => rfl) hx
  sound hs := by
    rw [books_identify]
    exact hs.identify (has_books ▸ hx) u
  kept y hy := by
    rw [has_iff_user, books_identify, Books.user_identify (has_books ▸ hx)] at hy
    split at hy
    · next hyx => rwa [hyx]
    · exact has_iff_user.mpr hy

/-- A `Hello` of a connection that is there. -/
theorem told_handleHello {n : Nat} {x : ConnId} {msg : HelloIn} (hn : h.expired env = ∅)
    (hx : h.has x = true) (hs : h.books.Sound)
    (hr : h.handleHello env (tryMatch env (n + 1)) x msg = some h') :
    Told (some (x, msg.hideIp)) h h' := by
  obtain ⟨k, hk, hd⟩ := Option.bind_eq_some_iff.mp hr
  obtain rfl := Option.some.inj hd
  have hkick : h.Sent k := sent_kickPrevious (logs_tryMatch (n + 1)) hk
  obtain ⟨-, -, -, huser, -, -⟩ := @kickPrevious_index h env n x _ k (fun _ => none) hn hs
    (fun u c hl => by cases hl) hk
  refine (hkick.told _).trans (told_identify ?_)
  rw [has_iff_user, huser]
  exact has_iff_user.mp hx

theorem told_handleSetPrefs (htm : Logs tm) {x : ConnId} {g l f : String} {t : List String}
    {hide : Bool} (hx : h.has x = true)
    (hr : h.handleSetPrefs tm x g l f t hide = some h') : Told (some (x, hide)) h h' := by
  have hset : ∀ w : Client → Client, (∀ c, (w c).hideIp = hide) →
      (∀ c, (w c).userId = c.userId ∧ (w c).friendCode = c.friendCode
        ∧ (w c).wsHoldUntil = c.wsHoldUntil ∧ (w c).limiter.messages = c.limiter.messages
        ∧ (w c).reportTimes = c.reportTimes) →
      Told (some (x, hide)) h (h.modify x w) := by
    intro w hhide hbadge
    have hb : (h.modify x w).books = h.books := h.books_modify x w hbadge
    exact ⟨⟨[.choose x hide], .one trivial (posts_choose hhide hx) rfl⟩, fun hs => hb ▸ hs,
      fun y hy => by rwa [has_congr hb] at hy⟩
  unfold handleSetPrefs at hr
  dsimp only at hr
  generalize hw : h.modify x _ = k at hr
  have hk : Told (some (x, hide)) h k := by
    rw [← hw]
    exact hset _ (fun c => rfl) fun c => ⟨rfl, rfl, rfl, rfl, rfl⟩
  have hnote : k.Sent (k.status x "match prefs updated") := (Sent.refl k).status _ _
  split at hr
  · exact hk.trans ((htm.call hr hnote).told _)
  · cases hr
    exact hk.trans (hnote.told _)

-- ================================================================== dispatch

theorem sent_friendGraph (x : ConnId) (raw : String) :
    h.Sent (h.handleAddFriend x raw) ∧ h.Sent (h.handleAcceptFriend x raw)
      ∧ h.Sent (h.handleDeclineFriend x raw) ∧ h.Sent (h.handleRemoveFriend x raw)
      ∧ h.Sent (h.handleUnblockUser x raw) := by
  have hest : ∀ u v, (h.establishFriendship u v).posts = h.posts := by
    intro u v
    unfold establishFriendship
    split
    · rfl
    · rfl
  refine ⟨.of_same ?_ (sameBadges_handleAddFriend x raw).sameIds,
    .of_same ?_ (sameBadges_handleAcceptFriend x raw).sameIds,
    .of_same ?_ (sameBadges_friendGraph x raw).1.sameIds,
    .of_same ?_ (sameBadges_friendGraph x raw).2.1.sameIds,
    .of_same ?_ (sameBadges_friendGraph x raw).2.2.sameIds⟩
  · unfold handleAddFriend
    dsimp only
    split
    · rfl
    split
    · simp
    split
    · simp
    split
    · simp
    split
    · simp
    split
    · split
      · rw [posts_status, posts_status, hest]
      · rw [posts_status, hest]
    split
    · simp
    · rw [posts_status]
      split
      · rw [posts_send _ _ _ (by simp)]
        rfl
      · rfl
  · unfold handleAcceptFriend
    dsimp only
    split
    · rfl
    split
    · simp
    split
    · simp
    · rw [posts_status]
      split
      · rw [posts_status, hest]
      · exact hest _ _
  · unfold handleDeclineFriend
    split
    · rfl
    · exact posts_status ..
  · unfold handleRemoveFriend
    split
    · rfl
    · exact posts_status ..
  · unfold handleUnblockUser
    split
    · rfl
    · exact posts_status ..

/-- **Step**: the handler of a frame whose sender is there. -/
theorem told_dispatch {n : Nat} {x : ConnId} {msg : ClientMsg} (hn : h.expired env = ∅)
    (hx : h.has x = true) (hs : h.books.Sound)
    (hr : h.dispatch env (tryMatch env (n + 1)) x msg = some h') :
    Told (Event.frame x msg).choice h h' := by
  have htm : Logs (tryMatch env (n + 1)) := logs_tryMatch (n + 1)
  cases msg with
  | hello m => exact told_handleHello hn hx hs hr
  | setPrefs g l f t hide => exact told_handleSetPrefs htm hx hr
  | spin room => exact Sent.told (sent_handleSpin htm hr) _
  | next room => exact Sent.told (sent_handleNext htm hr) _
  | stop => exact Sent.told (sent_stopMatchmaking htm hr) _
  | findThirdRespond accept => exact Sent.told (sent_handleFindThirdRespond htm hr) _
  | blockUser target => exact Sent.told (sent_handleBlockUser htm hr) _
  | faceOk ok ready failOpen => exact Sent.told (sent_handleFaceOk htm hr) _
  | callFriend user join => exact Sent.told (sent_handleCallFriend htm hr) _
  | callRespond user accept =>
      exact Sent.told (sent_handleCallRespond htm (settles_tryMatch n) hn hx hs hr) _
  | ping =>
      cases hr
      exact Sent.told ((Sent.refl h).send _ _ (by simp)) _
  | setRoom room =>
      cases hr
      exact Sent.told (.of_quiet (posts_handleSetRoom ..) (books_handleSetRoom ..)) _
  | findThirdInvite =>
      cases hr
      have hq : h.Sent _ := .of_quiet (posts_handleFindThirdInvite ..)
        (books_handleFindThirdInvite h env x)
      exact hq.told _
  | findThirdCancel =>
      cases hr
      have hq : h.Sent _ := .of_quiet (posts_handleFindThirdCancel ..)
        (books_handleFindThirdCancel h env x)
      exact hq.told _
  | browseTogether =>
      cases hr
      exact Sent.told (.of_quiet (posts_handleBrowseTogether ..) (books_handleBrowseTogether ..)) _
  | addFriend code =>
      cases hr
      exact Sent.told (sent_friendGraph x code).1 _
  | acceptFriend user =>
      cases hr
      exact Sent.told (sent_friendGraph x user).2.1 _
  | declineFriend user =>
      cases hr
      exact Sent.told (sent_friendGraph x user).2.2.1 _
  | removeFriend user =>
      cases hr
      exact Sent.told (sent_friendGraph x user).2.2.2.1 _
  | unblockUser user =>
      cases hr
      exact Sent.told (sent_friendGraph x user).2.2.2.2 _
  | reportUser target reason =>
      cases hr
      exact Sent.told (.of_same (posts_handleReportUser ..) (sameIds_handleReportUser ..)) _
  | genitalHit target =>
      cases hr
      exact Sent.told (.of_quiet (posts_handleGenitalHit ..) (books_handleGenitalHit ..)) _
  | callCancel user =>
      cases hr
      exact Sent.told (.of_quiet (posts_handleCallCancel ..) (books_handleCallCancel ..)) _
  | hangupFriend =>
      cases hr
      exact Sent.told (.of_quiet (posts_handleHangupFriend ..) (books_handleHangupFriend ..)) _
  | signal kind payload toPeer =>
      cases hr
      exact Sent.told (.of_quiet (posts_handleSignal ..) (books_handleSignal ..)) _
  | other =>
      cases hr
      exact Sent.told (.refl _) _

-- ==================================================================== events

theorem sent_preamble (htm : Logs tm) {x : ConnId} {msg : ClientMsg} {r : SimpleHub × Bool}
    (hr : h.preamble env tm x msg = some r) : h.Sent r.1 := by
  have hallow : ∀ (k : SimpleHub) (c : Client), (k.get x) = some c →
      k.Sent (k.allowMessage env x c).1 := by
    intro k c hc
    refine .of_users ?_ ?_ fun y => ?_
    · unfold allowMessage
      dsimp only
      split
      · exact posts_modify _ _ _ fun c => rfl
      · rw [posts_sendError]
        exact posts_modify _ _ _ fun c => rfl
    · unfold allowMessage
      dsimp only
      split
      · rfl
      · rfl
    · rw [Books.user, (books_allowMessage k env hc).1]
      exact Books.user_charge x y
  unfold preamble at hr
  obtain ⟨k, hk, hr⟩ := Option.bind_eq_some_iff.mp hr
  refine (sent_expireWsHolds htm hk).trans ?_
  split at hr
  · cases hr
    exact .refl _
  next c hc =>
  have ha := hallow k c hc
  generalize k.allowMessage env x c = a at ha hr
  obtain ⟨k₁, ok⟩ := a
  dsimp only at ha hr
  refine ha.trans ?_
  split at hr
  · cases hr
    exact .refl _
  have hrx : k₁.Sent (k₁.noteClientRx env x (msg = .ping)).1 :=
    .of_quiet (posts_noteClientRx ..) (books_noteClientRx ..)
  generalize k₁.noteClientRx env x (msg = .ping) = w at hrx hr
  obtain ⟨k₂, woke⟩ := w
  dsimp only at hrx hr
  obtain ⟨k₃, hk₃, hr⟩ := Option.bind_eq_some_iff.mp hr
  obtain ⟨k₄, hk₄, hr⟩ := Option.bind_eq_some_iff.mp hr
  cases hr
  have hwoke : k₂.Sent k₃ := by
    unfold matchIfWoke at hk₃
    split at hk₃
    · exact htm _ _ hk₃
    · cases hk₃
      exact .refl _
  exact (hrx.trans hwoke).trans (sent_dropZombiePartner htm hk₄)

/-- **Step**: a frame, on a hub whose index points at connections that are
there. -/
theorem told_frame {n : Nat} {x : ConnId} {msg : ClientMsg} (hs : h.books.Sound)
    (hr : h.step env n (.frame x msg) = some h') :
    Told (Event.frame x msg).choice h h' := by
  obtain ⟨k, r, hk, hn, -, hpre, hb, hend⟩ := step_frame hr
  have hsent : h.Sent r := sent_preamble (logs_tryMatch (n + 1)) hpre
  rcases hend with ⟨-, rfl⟩ | ⟨hhear, hd⟩
  · exact hsent.told _
  · refine (hsent.told _).trans (told_dispatch (expired_charge hn hb) ?_ (hsent.sound hs) hd)
    obtain ⟨g, hg, -⟩ := (Option.any_eq_true _ _).mp hhear
    rw [has_books, hb]
    show (if x = x then _ else _ : Option Badge).isSome = true
    rw [if_pos rfl, hg]
    rfl

theorem sent_startFederatedMatch (x : ConnId) (sid : SessionId × String) (r : FedPeerDesc)
    (base : String) (o : Bool) : h.Sent (h.startFederatedMatch env x sid r base o) where
  log := ⟨[.federated h env x sid r base o], .one rfl rfl trivial⟩
  sound hs := by rwa [books_startFederatedMatch]
  kept y hy := by rwa [has_congr (books_startFederatedMatch ..)] at hy

theorem sent_federationClaim (r : ClaimRequest) : h.Sent (h.federationClaim env r) := by
  unfold federationClaim
  dsimp only
  split
  · exact .refl h
  split
  · exact .refl h
  · exact (sent_startFederatedMatch _ _ _ _ _).before (posts_dequeueClient ..)
      (books_dequeueClient ..)

theorem sent_federationApplyClaim (x : ConnId) (base : String) (r : ClaimResponse) :
    h.Sent (h.federationApplyClaim env x base r) := by
  unfold federationApplyClaim
  split
  · exact .refl h
  · exact (sent_startFederatedMatch _ _ _ _ _).before (posts_dequeueClient ..)
      (books_dequeueClient ..)

/-- **Step**: every event but a connect. -/
theorem told_step {n : Nat} {e : Event} (he : ∀ x ip, e ≠ .connect x ip) (hs : h.books.Sound)
    (hr : h.step env n e = some h') : Told e.choice h h' := by
  cases e with
  | connect x ip => exact absurd rfl (he x ip)
  | frame x msg => exact told_frame hs hr
  | close x => exact Sent.told (sent_removeClient (logs_tryMatch (n + 1)) hr) _
  | geo x code country city =>
      rw [← show (h.setClientGeo x code country city) = h' from Option.some.inj hr]
      exact Sent.told (.of_quiet (posts_setClientGeo ..) (books_setClientGeo ..)) _
  | adminBan user secs =>
      rw [← show (h.adminBan env user secs) = h' from Option.some.inj hr]
      exact Sent.told (.of_quiet (posts_adminBan ..) (books_adminBan ..)) _
  | adminUnban user =>
      rw [← show (h.adminUnban user) = h' from Option.some.inj hr]
      exact Sent.told (.of_quiet (posts_adminUnban ..) (books_adminUnban ..)) _
  | adminUnbanIp ip =>
      rw [← show (h.adminUnbanIp ip) = h' from Option.some.inj hr]
      exact Sent.told (.of_quiet (posts_adminUnbanIp ..) (books_adminUnbanIp ..)) _
  | claim req =>
      rw [← show (h.federationClaim env req) = h' from Option.some.inj hr]
      exact Sent.told (sent_federationClaim req) _
  | applyClaim x base resp =>
      rw [← show (h.federationApplyClaim env x base resp) = h' from Option.some.inj hr]
      exact Sent.told (sent_federationApplyClaim x base resp) _

theorem sound_enroll {b : Books} {x : ConnId} (hs : b.Sound) (hx : b.badge x = none) :
    (b.enroll x).Sound := by
  intro u c hu
  rw [Books.user_admit]
  change (b.byUser.set (b.sys.uuidText x) x).get? u = some c at hu
  rw [Table.get?_set] at hu
  split at hu
  · next hux =>
    cases hu
    rw [if_pos rfl, hux]
  · have hc := hs u c hu
    have hcx : c ≠ x := by
      rintro rfl
      rw [Books.user, hx] at hc
      cases hc
    rw [if_neg hcx]
    exact hc

/-- **Step**: a connect of somebody who is not there. -/
theorem told_connect {n : Nat} {x : ConnId} {ip : String} (hx : h.has x = false)
    (hr : h.step env n (.connect x ip) = some h') :
    (∃ log, LoggedBy (Event.connect x ip).choice h.posts log h'.posts)
      ∧ (h.books.Sound → h'.books.Sound)
      ∧ ∀ y, h'.has y = true → y = x ∨ h.has y = true := by
  obtain ⟨k, hk, hd⟩ := Option.bind_eq_some_iff.mp hr
  have hsweep := (sent_expireWsHolds (logs_tryMatch (n + 1)) hk).told (some (x, false))
  split at hd
  · cases hd
    exact ⟨hsweep.log, hsweep.sound, fun y hy => .inr (hsweep.kept y hy)⟩
  have hkx : k.books.badge x = none := by
    rw [← Option.not_isSome_iff_eq_none, ← has_books]
    intro hkx
    rw [hsweep.kept x hkx] at hx
    cases hx
  cases hd
  obtain ⟨log, hlog⟩ := hsweep.log
  refine ⟨⟨log ++ [.choose x false], hlog.append
    (@LoggedBy.one _ _ _ (.choose x false) trivial ?_ rfl)⟩, fun hs => ?_, fun y hy => ?_⟩
  · rw [posts_broadcastLobbyInfo, posts_send _ _ _ (by simp)]
    unfold posts
    congr 1
    funext y
    show ((k.clients.set x (freshClient k.sys env x ip)).get? y).any _ = _
    rw [Table.get?_set]
    split
    · rfl
    · rfl
  · rw [books_broadcastLobbyInfo, books_send, books_enroll]
    exact sound_enroll (hsweep.sound hs) hkx
  · rw [has_iff_user, books_broadcastLobbyInfo, books_send, books_enroll, Books.user_admit] at hy
    split at hy
    · next hyx => exact .inl hyx
    · exact .inr (hsweep.kept y (has_iff_user.mpr hy))

end SimpleHub

-- ====================================================================== runs

/-- The story of a run: for each event the posts before it, and the acts that
lead to the posts after it. In the acts of an event nobody chooses to hide its
address or to show it but the sender of a `Hello` or of new preferences. -/
inductive Narrates (sys : Sys) : World → List (Posts × List Act) → Prop
  | start : Narrates sys (World.start sys) []
  | step {w : World} {story : List (Posts × List Act)} {i : Input} {fuel : Nat}
      {hub : SimpleHub} {log : List Act} (hw : Narrates sys w story) (ha : w.Admits i)
      (hs : w.hub.step i.env fuel i.event = some hub)
      (hl : LoggedBy i.event.choice w.hub.posts log hub.posts) :
      Narrates sys (w.after i hub) (story ++ [(w.hub.posts, log)])

/-- Every act of a story keeps a condition on the posts it starts from. -/
def Throughout (P : Posts → Act → Prop) (story : List (Posts × List Act)) : Prop :=
  ∀ s ∈ story, Always P s.1 s.2

theorem Narrates.covered_iff {sys : Sys} {w : World} {story : List (Posts × List Act)}
    (hn : Narrates sys w story) :
    Throughout (fun p act => act.Covered p) story
      ↔ Throughout (fun p act => ¬ act.Exposes p) story := by
  induction hn with
  | start =>
      refine ⟨fun _ s hs => ?_, fun _ s hs => ?_⟩
      · cases hs
      · cases hs
  | step hw ha hs hl ih =>
      unfold Throughout at ih ⊢
      rw [List.forall_mem_append, List.forall_mem_append, ih, List.forall_mem_singleton,
        List.forall_mem_singleton]
      exact and_congr Iff.rfl (SimpleHub.always_covered_iff hl.1)

/-- A world with its story, an index that points at connections that are
there, and nobody there who never connected. -/
structure Narrated (sys : Sys) (w : World) : Prop where
  story : ∃ story, Narrates sys w story
  sound : w.hub.books.Sound
  present : ∀ y, w.hub.has y = true → y ∈ w.used

theorem Narrated.step {sys : Sys} {w w' : World} {i : Input} (hn : Narrated sys w)
    (hs : (hubMachine sys).step w i w') : Narrated sys w' := by
  obtain ⟨ha, fuel, hub, hs, rfl⟩ := hs
  obtain ⟨story, hstory⟩ := hn.story
  obtain ⟨env, e⟩ := i
  by_cases hc : ∃ x ip, e = .connect x ip
  · obtain ⟨x, ip, rfl⟩ := hc
    have hfresh : w.Fresh x := ha.2
    have hx : w.hub.has x = false := by
      rw [← Bool.not_eq_true]
      exact fun hx => hfresh.1 (hn.present x hx)
    obtain ⟨⟨log, hl⟩, hsound, hthere⟩ := SimpleHub.told_connect hx hs
    refine ⟨⟨_, hstory.step ha hs hl⟩, hsound hn.sound, fun y hy => ?_⟩
    show y ∈ insert x w.used
    rcases hthere y hy with rfl | hy
    · exact Finset.mem_insert_self y w.used
    · exact Finset.mem_insert_of_mem (hn.present y hy)
  · have htold := SimpleHub.told_step (fun x ip he => hc ⟨x, ip, he⟩) hn.sound hs
    obtain ⟨log, hl⟩ := htold.log
    refine ⟨⟨_, hstory.step ha hs hl⟩, htold.sound hn.sound, fun y hy => ?_⟩
    have hused : (w.after ⟨env, e⟩ hub).used = w.used := by
      cases e with
      | connect x ip => exact absurd ⟨x, ip, rfl⟩ hc
      | _ => rfl
    rw [hused]
    exact hn.present y (htold.kept y hy)

/-- Every run has a story. In it each `Matched` is relayed as those who hide
their address ask for, unless a party with such a member is told that it
searches, or such a client gets a federated match. -/
theorem hidden_relayed_iff {sys : Sys} {w : World} (hw : (hubMachine sys).Reach w) :
    ∃ story, Narrates sys w story
      ∧ (Throughout (fun p act => act.Covered p) story
        ↔ Throughout (fun p act => ¬ act.Exposes p) story) := by
  have hn : Narrated sys w := by
    refine hw.invariant (I := Narrated sys) ?_ fun _ _ _ _ hn hs => hn.step hs
    rintro w rfl
    refine ⟨⟨[], .start⟩, fun u c hu => ?_, fun y hy => ?_⟩
    · cases hu
    · cases hy
  obtain ⟨story, hstory⟩ := hn.story
  exact ⟨story, hstory, hstory.covered_iff⟩

/-- Three connections, of which the first hides its address, form a trio. -/
def hiddenTrio : List Input := script
  [(0, .connect 1 ""), (0, .connect 2 ""), (0, .connect 3 ""),
    (1, .frame 1 (.setPrefs "" "any" "" [] true)),
    (2, .frame 1 (.spin "")), (2, .frame 2 (.spin "")),
    (3, .frame 1 .findThirdInvite), (3, .frame 2 (.findThirdRespond true)),
    (4, .frame 3 (.spin ""))]

/-- The third of the trio stops. -/
def thirdStops : Input := ⟨plainEnv 5, .frame 3 .stop⟩

/-- The trio has been shown with the relay forced throughout. -/
theorem hidden_relayed_iff_trio : ∃ w, (hubMachine plainSys).Reach w
    ∧ w.hub.posts.hides 1 = true ∧ w.hub.posts.shown.length = 7
    ∧ (∀ s ∈ w.hub.posts.shown, s.2.forceRelay = true)
    ∧ ∃ story, Narrates plainSys w story
      ∧ (Throughout (fun p act => act.Covered p) story
        ↔ Throughout (fun p act => ¬ act.Exposes p) story) := by
  obtain ⟨w, hw, hp⟩ := @reach_of_replay plainSys 2 hiddenTrio
    (fun w => decide (w.hub.posts.hides 1 = true ∧ w.hub.posts.shown.length = 7
      ∧ ∀ s ∈ w.hub.posts.shown, s.2.forceRelay = true))
    (by decide)
  obtain ⟨hhide, hlen, hall⟩ := of_decide_eq_true hp
  exact ⟨w, hw, hhide, hlen, hall, hidden_relayed_iff hw⟩

/-- Once the third stops, the pair is told that it searches, and the member
who hides its address is shown without the relay. -/
theorem hidden_searcher_unrelayed : ∃ w w', (hubMachine plainSys).Reach w
    ∧ (hubMachine plainSys).step w thirdStops w'
    ∧ w.hub.posts.hides 1 = true ∧ w'.hub.posts.hides 1 = true
    ∧ w'.hub.posts.shown.length = w.hub.posts.shown.length + 2
    ∧ ∀ s ∈ w'.hub.posts.shown.drop w.hub.posts.shown.length,
      (s.1 = 1 ∨ ∃ q ∈ s.2.peers, q.location.hideIp = true) ∧ s.2.forceRelay = false := by
  obtain ⟨w, hw, hp⟩ := @reach_of_replay plainSys 2 hiddenTrio
    (fun w => decide (w.hub.posts.hides 1 = true)
      && (w.advance 2 thirdStops).any fun w' : World =>
        decide (w'.hub.posts.hides 1 = true
          ∧ w'.hub.posts.shown.length = w.hub.posts.shown.length + 2
          ∧ ∀ s ∈ w'.hub.posts.shown.drop w.hub.posts.shown.length,
            (s.1 = 1 ∨ ∃ q ∈ s.2.peers, q.location.hideIp = true) ∧ s.2.forceRelay = false))
    (by decide)
  rw [Bool.and_eq_true, decide_eq_true_eq, Option.any_eq_true] at hp
  obtain ⟨hhide, w', hw', hp⟩ := hp
  obtain ⟨hhide', hlen, hnew⟩ := of_decide_eq_true hp
  exact ⟨w, w', hw, advance_step w thirdStops w' hw', hhide, hhide', hlen, hnew⟩

end Ruletka
