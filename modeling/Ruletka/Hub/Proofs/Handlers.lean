/-
Once the sweep is over, every handler returns.

A hub without expired holds stays one for the rest of the event: no
operation renames, parks or adds a connection except the identity frames,
and a hold armed now runs for 45 s. On such hubs `try_match` is the pairing
loop, so the handlers that call it return; and except for `Hello`, a report
and the frames on the friend graph they return a hub with the same books.
-/
import Ruletka.Hub.Proofs.Sweep

namespace Ruletka

/-- The frames that write neither the index, nor the friend graph, nor report
times. -/
def ClientMsg.keepsBooks : ClientMsg → Bool
  | .reportUser .. | .hello _ | .addFriend _ | .acceptFriend _ | .declineFriend _ | .removeFriend _
  | .blockUser _ | .unblockUser _ => false
  | _ => true

namespace SimpleHub

variable {h : SimpleHub} {env : Env} {tm : SimpleHub → Option SimpleHub}

/-- The same connections under the same users and holds, and the same
index. -/
structure SameIds (h' h : SimpleHub) : Prop where
  sys : h'.sys = h.sys
  byUser : h'.byUser = h.byUser
  badge : ∀ x, (h'.books.badge x).map Badge.unreported = (h.books.badge x).map Badge.unreported

/-- The same badges, not only up to reports, and the same index. -/
structure SameBadges (h' h : SimpleHub) : Prop where
  sys : h'.sys = h.sys
  byUser : h'.byUser = h.byUser
  badge : h'.books.badge = h.books.badge

theorem SameBadges.sameIds {h' h : SimpleHub} (hs : h'.SameBadges h) : h'.SameIds h :=
  ⟨hs.sys, hs.byUser, fun x => by rw [hs.badge]⟩

theorem SameBadges.of_books {h' h : SimpleHub} (hb : h'.books = h.books) : h'.SameBadges h :=
  ⟨congrArg Books.sys hb, congrArg Books.byUser hb, congrArg Books.badge hb⟩

theorem SameBadges.trans {h₁ h₂ h₃ : SimpleHub} (h12 : h₁.SameBadges h₂)
    (h23 : h₂.SameBadges h₃) : h₁.SameBadges h₃ :=
  ⟨h12.sys.trans h23.sys, h12.byUser.trans h23.byUser, h12.badge.trans h23.badge⟩

theorem SameIds.of_books {h' h : SimpleHub} (hb : h'.books = h.books) : h'.SameIds h where
  sys := congrArg Books.sys hb
  byUser := congrArg Books.byUser hb
  badge x := by rw [hb]

theorem SameIds.trans {h₁ h₂ h₃ : SimpleHub} (h12 : h₁.SameIds h₂) (h23 : h₂.SameIds h₃) :
    h₁.SameIds h₃ :=
  ⟨h12.sys.trans h23.sys, h12.byUser.trans h23.byUser,
    fun x => (h12.badge x).trans (h23.badge x)⟩

theorem SameIds.badge_some {h' : SimpleHub} (hs : h'.SameIds h) {x : ConnId} {g : Badge}
    (hg : h'.books.badge x = some g) :
    ∃ g', h.books.badge x = some g' ∧ g.unreported = g'.unreported := by
  have hx := hs.badge x
  rw [hg] at hx
  obtain ⟨g', hg', heq⟩ := Option.map_eq_some_iff.mp hx.symm
  exact ⟨g', hg', heq.symm⟩

theorem SameIds.symm {h' : SimpleHub} (hs : h'.SameIds h) : h.SameIds h' :=
  ⟨hs.sys.symm, hs.byUser.symm, fun x => (hs.badge x).symm⟩

theorem SameIds.userId {h' : SimpleHub} (hs : h'.SameIds h) (x : ConnId) :
    (h'.books.badge x).map (·.userId) = (h.books.badge x).map (·.userId) := by
  have hx := congrArg (Option.map Badge.userId) (hs.badge x)
  rwa [Option.map_map, Option.map_map] at hx

theorem SameIds.expired {h' : SimpleHub} (hs : h'.SameIds h) :
    h'.expired env = h.expired env := by
  have keeps : ∀ {k k' : SimpleHub}, k'.SameIds k → ∀ x, x ∈ k'.expired env →
      x ∈ k.expired env := by
    intro k k' hs x hx
    obtain ⟨g, hg, he⟩ := mem_expired_books.mp hx
    obtain ⟨g', hg', heq⟩ := hs.badge_some hg
    have hhold : g.unreported.wsHoldUntil = g'.unreported.wsHoldUntil := by rw [heq]
    exact mem_expired_books.mpr ⟨g', hg', by rwa [← show g.wsHoldUntil = g'.wsHoldUntil from hhold]⟩
  ext x
  exact ⟨keeps hs x, keeps hs.symm x⟩

/-- The continuation comes back on every hub without expired holds, with
the same books. -/
def Settles (env : Env) (tm : SimpleHub → Option SimpleHub) : Prop :=
  ∀ h : SimpleHub, h.expired env = ∅ → ∃ h', tm h = some h' ∧ h'.books = h.books

/-- `try_match` settles. -/
theorem settles_tryMatch (n : Nat) : Settles env (tryMatch env (n + 1)) :=
  fun h hn => ⟨h.rematch env, tryMatch_eq_rematch hn n, books_rematch _ _⟩

/-- The continuation, called on a hub with the books of one that has no
expired hold. -/
theorem Settles.call (htm : Settles env tm) (hn : h.expired env = ∅) {k : SimpleHub}
    (hk : k.books = h.books) : ∃ h', tm k = some h' ∧ h'.books = h.books := by
  obtain ⟨h', hh, hb⟩ := htm k (by rw [expired_congr hk, hn])
  exact ⟨h', hh, hb.trans hk⟩

variable (htm : Settles env tm) (hn : h.expired env = ∅)

include htm hn

theorem leaveKeepRemainingPair_returns (x : ConnId) (d : String) :
    ∃ r, h.leaveKeepRemainingPair env tm x d = some r ∧ r.1.books = h.books := by
  cases hthird : h.linkedThird x with
  | false => exact ⟨_, leaveKeepRemainingPair_quiet hthird tm d, books_leaveQuiet x d⟩
  | true =>
      obtain ⟨c, a, b, -, -, -, -, -, -, -, -, heq⟩ :=
        @leaveKeepRemainingPair_hunt h env _ hthird d
      obtain ⟨k, hk, hb⟩ := htm.call hn (books_huntAgain h env x a b)
      refine ⟨(k, true), ?_, hb⟩
      rw [heq, hk]
      rfl

theorem enterWaitingSolo_returns (x : ConnId) (room d : String) :
    ∃ h', h.enterWaitingSolo env tm x room d = some h' ∧ h'.books = h.books := by
  unfold enterWaitingSolo
  split
  · exact htm h hn
  split
  · exact ⟨h, rfl, rfl⟩
  split
  · exact ⟨h, rfl, rfl⟩
  · dsimp only
    apply htm.call hn
    rw [books_broadcastLobbyInfo, books_status, books_enqueueSolo, books_modify,
      books_clearMatchState]
    · split
      · exact books_endFriendCall ..
      · rfl
    · exact fun c => ⟨rfl, rfl, rfl, rfl, rfl⟩

theorem stopMatchmaking_returns (x : ConnId) :
    ∃ h', h.stopMatchmaking env tm x = some h' ∧ h'.books = h.books := by
  have hk : (h.cancelFindThird x).books = h.books := by simp
  have hnk : (h.cancelFindThird x).expired env = ∅ := by rw [expired_congr hk, hn]
  obtain ⟨⟨r, kept⟩, hr, hb⟩ := leaveKeepRemainingPair_returns htm hnk x
    "partner left — still chatting"
  have hb : r.books = h.books := hb.trans hk
  unfold stopMatchmaking
  rw [hr]
  refine ⟨_, rfl, ?_⟩
  split
  · simpa using hb
  · split
    · simpa using hb
    · simpa using hb

theorem partyRequeue_returns (a b : ConnId) (room d : String) :
    ∃ h', h.partyRequeue env tm a b room d = some h' ∧ h'.books = h.books := by
  unfold partyRequeue
  apply htm.call hn
  simp

theorem dropZombiePartner_returns (x : ConnId) :
    ∃ h', h.dropZombiePartner env tm x = some h' ∧ h'.books = h.books := by
  unfold dropZombiePartner
  split
  · exact ⟨h, rfl, rfl⟩
  · dsimp only
    apply htm.call hn
    simp

-- ============================================================== spin and next

omit htm in
/-- Behind the refusals a command answers if it does from there. -/
theorem behindGate_returns {settle : SimpleHub → Option Nat} {x : ConnId}
    {next : SimpleHub → Option SimpleHub}
    (hnext : ∀ k : SimpleHub, k.expired env = ∅ → ∃ k', next k = some k' ∧ k'.books = k.books) :
    ∃ h', h.behindGate env settle x next = some h' ∧ h'.books = h.books := by
  obtain heq | ⟨d, heq⟩ | heq | heq := @behindGate_cases h env settle x next
  · exact ⟨_, heq, books_denyIfMatchBanned ..⟩
  · exact ⟨_, heq, by rw [books_status, books_denyIfMatchBanned]⟩
  · exact ⟨_, heq, by rw [books_allowMatchCmd, books_denyIfMatchBanned]⟩
  · rw [heq]
    have hk : ((h.denyIfMatchBanned env x).1.allowMatchCmd env x).1.books = h.books := by
      rw [books_allowMatchCmd, books_denyIfMatchBanned]
    obtain ⟨k', hk', hb⟩ := hnext _ (by rw [expired_congr hk, hn])
    exact ⟨k', hk', hb.trans hk⟩

theorem handleSpin_returns (x : ConnId) (room : String) :
    ∃ h', h.handleSpin env tm x room = some h' ∧ h'.books = h.books := by
  rw [handleSpin_gate]
  apply behindGate_returns hn
  intro k hn'
  split
  · exact partyRequeue_returns htm hn' x _ (k.roomFor x room) "party spun into lobby"
  · exact enterWaitingSolo_returns htm hn' x (k.roomFor x room) "spun into lobby"

theorem nextDispatch_returns (x : ConnId) (room : String) :
    ∃ h', h.nextDispatch env tm x room = some h' ∧ h'.books = h.books := by
  unfold nextDispatch
  split
  · exact partyRequeue_returns htm hn x _ room _
  · obtain ⟨⟨r, kept⟩, hr, hb⟩ := leaveKeepRemainingPair_returns htm hn x
      "stranger left — looking for a 3rd again"
    dsimp only at hb
    rw [hr]
    cases kept with
    | true =>
        exact htm.call hn (by rw [books_placeInSoloQueue, hb])
    | false =>
        show ∃ h', (if (r.friendCallOf x).isSome then _ else _) = some h' ∧ _
        split
        · exact ⟨_, rfl, by rw [books_status, hb]⟩
        · have hnr : r.expired env = ∅ := by rw [expired_congr hb, hn]
          obtain ⟨h', hh, hb'⟩ := enterWaitingSolo_returns htm hnr x room
            "next — searching again"
          exact ⟨h', hh, hb'.trans hb⟩

theorem handleNext_returns (x : ConnId) (room : String) :
    ∃ h', h.handleNext env tm x room = some h' ∧ h'.books = h.books := by
  rw [handleNext_gate]
  apply behindGate_returns hn
  intro k hn'
  dsimp only
  split
  · exact ⟨_, rfl, books_status ..⟩
  · exact nextDispatch_returns htm hn' x (k.roomFor x room)

-- ========================================================== invites and calls

theorem findThirdAccepted_returns (p : FindThirdPending) :
    ∃ h', h.findThirdAccepted env tm p = some h' ∧ h'.books = h.books := by
  unfold findThirdAccepted
  dsimp only
  split
  · exact ⟨_, rfl, by simp⟩
  · apply htm.call hn
    rw [books_broadcastLobbyInfo, books_foldl, books_enqueueParty]
    · split
      · rfl
      · simp
    · rintro k ⟨me, them⟩
      simp

theorem handleFindThirdRespond_returns (x : ConnId) (accept : Bool) :
    ∃ h', h.handleFindThirdRespond env tm x accept = some h' ∧ h'.books = h.books := by
  have hb := h.books_expireFindThirdIfNeeded env
  unfold handleFindThirdRespond
  dsimp only
  generalize h.expireFindThirdIfNeeded env = k at hb ⊢
  have hnk : (k.setFindThird none).expired env = ∅ := by
    rw [expired_congr (h := h) (by simpa using hb), hn]
  split
  · exact ⟨_, rfl, by simpa using hb⟩
  · split
    · exact ⟨_, rfl, by simpa using hb⟩
    · split
      · exact ⟨_, rfl, by simpa using hb⟩
      · next p _ _ _ =>
        obtain ⟨h', hh, hb'⟩ := findThirdAccepted_returns htm hnk p
        exact ⟨h', hh, hb'.trans (by simpa using hb)⟩

theorem leaveForCall_returns (x : ConnId) :
    ∃ h', h.leaveForCall env tm x = some h' ∧ h'.books = h.books := by
  unfold leaveForCall
  split
  · exact stopMatchmaking_returns htm hn x
  · exact ⟨h, rfl, rfl⟩

theorem leaveOrDequeue_returns (x : ConnId) :
    ∃ h', h.leaveOrDequeue env tm x = some h' ∧ h'.books = h.books := by
  unfold leaveOrDequeue
  split
  · exact stopMatchmaking_returns htm hn x
  · exact ⟨_, rfl, books_dequeueClient ..⟩

theorem leaveToJoin_returns (x y : ConnId) :
    ∃ h', h.leaveToJoin env tm x y = some h' ∧ h'.books = h.books := by
  unfold leaveToJoin
  split
  · exact stopMatchmaking_returns htm hn x
  split
  · exact ⟨_, rfl, books_endFriendCall ..⟩
  split
  · exact stopMatchmaking_returns htm hn x
  · exact ⟨h, rfl, rfl⟩

theorem handleCallFriend_returns (x : ConnId) (u : UserId) (join : Bool) :
    ∃ h', h.handleCallFriend env tm x u join = some h' ∧ h'.books = h.books := by
  have hb := h.books_expireJoinCallIfNeeded env
  unfold handleCallFriend
  dsimp only
  generalize h.expireJoinCallIfNeeded env = k at hb ⊢
  split
  · exact ⟨k, rfl, hb⟩
  · next me _ =>
    split
    · exact ⟨_, rfl, by simpa using hb⟩
    split
    · exact ⟨_, rfl, by simpa using hb⟩
    split
    · exact ⟨_, rfl, by simpa using hb⟩
    · next oid _ =>
      split
      · exact ⟨_, rfl, by simpa using hb⟩
      · have hend : (if (k.friendCallOf x).isSome then
            k.endFriendCall x "left to call another friend" else k).books = h.books := by
          split
          · simpa using hb
          · exact hb
        generalize (if (k.friendCallOf x).isSome then
            k.endFriendCall x "left to call another friend" else k) = k' at hend ⊢
        have hnk : k'.expired env = ∅ := by rw [expired_congr hend, hn]
        obtain ⟨h', hh, hb'⟩ := leaveForCall_returns htm hnk x
        refine ⟨h'.callClassic env x oid me, ?_, ?_⟩
        · rw [hh]
          rfl
        · rw [books_callClassic, hb', hend]

theorem joinAsGuest_returns (x caller : ConnId) (p : JoinCallPending) :
    ∃ h', h.joinAsGuest env tm x caller p = some h' ∧ h'.books = h.books := by
  unfold joinAsGuest
  dsimp only
  have hend : (if ((h.phaseOf x).any (· ≠ .idle) && (h.friendCallOf x).isSome) = true
      then h.endFriendCall x "left to join another call" else h).books = h.books := by
    split
    · exact books_endFriendCall ..
    · rfl
  generalize (if ((h.phaseOf x).any (· ≠ .idle) && (h.friendCallOf x).isSome) = true
      then h.endFriendCall x "left to join another call" else h) = k at hend ⊢
  have hnk : k.expired env = ∅ := by rw [expired_congr hend, hn]
  obtain ⟨h', hh, hb⟩ := leaveForCall_returns htm hnk x
  have hb : h'.books = h.books := hb.trans hend
  rw [hh]
  show ∃ h'', (if (!h'.has p.keep) = true then _ else _) = some h'' ∧ _
  split
  · exact ⟨_, rfl, by simpa using hb⟩
  · split
    · split
      · exact ⟨_, rfl, by simpa using hb⟩
      · exact ⟨_, rfl, by simpa using hb⟩
    · exact ⟨_, rfl, by simpa using hb⟩

theorem joinAccepted_returns (x caller : ConnId) (u : UserId) (p : JoinCallPending) :
    ∃ h', h.joinAccepted env tm x caller u p = some h' ∧ h'.books = h.books := by
  unfold joinAccepted
  split
  · exact ⟨_, rfl, books_sendError ..⟩
  split
  · exact ⟨_, rfl, by simp⟩
  split
  · next keep _ =>
    obtain ⟨h', hh, hb⟩ := leaveToJoin_returns htm hn caller x
    rw [hh]
    exact ⟨_, rfl, by simpa using hb⟩
  · dsimp only
    split
    · split
      · obtain ⟨h', hh, hb⟩ := leaveForCall_returns htm hn caller
        rw [hh]
        exact ⟨_, rfl, by simpa using hb⟩
      · exact joinAsGuest_returns htm hn x caller p
    · exact joinAsGuest_returns htm hn x caller p

theorem classicAccepted_returns (x caller : ConnId) :
    ∃ h', h.classicAccepted env tm x caller = some h' ∧ h'.books = h.books := by
  unfold classicAccepted
  split
  · next keep _ =>
    have hend := h.books_endOtherCall caller x "left previous friend call"
    dsimp only
    have hnk : (h.endOtherCall caller x "left previous friend call").expired env = ∅ := by
      rw [expired_congr hend, hn]
    obtain ⟨h', hh, hb⟩ := leaveOrDequeue_returns htm hnk caller
    rw [hh]
    exact ⟨_, rfl, by simpa using hb.trans hend⟩
  · refine ⟨_, rfl, ?_⟩
    simp only [books_startFriendSession, books_setJoinCall, books_quiet,
      books_endOtherCall]
    split
    · exact books_endFriendCall ..
    · rfl

theorem handleCallRespond_returns (x : ConnId) (u : UserId) (accept : Bool) :
    ∃ h', h.handleCallRespond env tm x u accept = some h' ∧ h'.books = h.books := by
  have hb := h.books_expireJoinCallIfNeeded env
  unfold handleCallRespond
  dsimp only
  generalize h.expireJoinCallIfNeeded env = k at hb ⊢
  have hnk : k.expired env = ∅ := by rw [expired_congr hb, hn]
  split
  · exact ⟨_, rfl, by simpa using hb⟩
  · split
    · next p _ =>
      split
      · have hnk' : (k.setJoinCall none).expired env = ∅ := hnk
        obtain ⟨h', hh, hb'⟩ := joinAccepted_returns htm hnk' x _ u p
        exact ⟨h', hh, hb'.trans hb⟩
      · exact ⟨_, rfl, by simpa using hb⟩
    · split
      · exact ⟨_, rfl, by simpa using hb⟩
      · split
        · exact ⟨_, rfl, by simpa using hb⟩
        split
        · exact ⟨_, rfl, by simpa using hb⟩
        · obtain ⟨h', hh, hb'⟩ := classicAccepted_returns htm hnk x _
          exact ⟨h', hh, hb'.trans hb⟩

-- ============================================================ profile and blocks

theorem handleSetPrefs_returns (x : ConnId) (g l f : String) (t : List String)
    (hide : Bool) :
    ∃ h', h.handleSetPrefs tm x g l f t hide = some h' ∧ h'.books = h.books := by
  unfold handleSetPrefs
  dsimp only
  split
  · apply htm.call hn
    simp
  · exact ⟨_, rfl, by simp⟩

theorem handleFaceOk_returns (x : ConnId) (ok ready failOpen : Bool) :
    ∃ h', h.handleFaceOk env tm x ok ready failOpen = some h'
      ∧ h'.books = h.books := by
  have hb : (h.modify x (reportFace env ok ready failOpen)).books = h.books := by
    simp [reportFace]
  unfold handleFaceOk
  dsimp only
  split
  · exact htm.call hn hb
  · exact ⟨_, rfl, hb⟩

theorem releaseBlocked_returns (p : Option ConnId) :
    ∃ h', h.releaseBlocked env tm p = some h' ∧ h'.books = h.books := by
  unfold releaseBlocked
  split
  · next pid =>
    split
    · dsimp only
      have hb := h.books_unmatchOne env pid "partner blocked you — searching again"
      have hnk : (h.unmatchOne env pid "partner blocked you — searching again").expired env
          = ∅ := by
        rw [expired_congr hb, hn]
      obtain ⟨h', hh, hb'⟩ := enterWaitingSolo_returns htm hnk pid (h.roomOf pid)
        "searching again"
      exact ⟨h', hh, hb'.trans hb⟩
    · exact ⟨h, rfl, rfl⟩
  · exact ⟨h, rfl, rfl⟩

theorem blockPart_returns (x : ConnId) (u : UserId) :
    ∃ h', h.blockPart env tm x u = some h' ∧ h'.books = h.books := by
  unfold blockPart
  dsimp only
  split
  · exact ⟨_, rfl, books_endFriendCall ..⟩
  split
  · obtain ⟨k, hk, hb⟩ := releaseBlocked_returns htm hn ((h.byUser.get? u).or (h.partnerOf x))
    rw [hk]
    have hnk : k.expired env = ∅ := by rw [expired_congr hb, hn]
    obtain ⟨h', hh, hb'⟩ := enterWaitingSolo_returns htm hnk x (h.roomOf x)
      "blocked — finding someone else"
    exact ⟨h', hh, hb'.trans hb⟩
  · exact ⟨h, rfl, rfl⟩

theorem handleBlockUser_returns (x : ConnId) (raw : String) :
    ∃ h', h.handleBlockUser env tm x raw = some h' ∧ h'.SameBadges h := by
  unfold handleBlockUser
  split
  · exact ⟨_, rfl, .of_books rfl⟩
  · next user _ =>
    split
    · exact ⟨h, rfl, .of_books rfl⟩
    · next c _ =>
      split
      · exact ⟨_, rfl, .of_books rfl⟩
      · dsimp only
        obtain ⟨h', hh, hb⟩ := blockPart_returns (h := { h.dropFriendship c.userId user with
          blocks := insert (c.userId, user) (h.dropFriendship c.userId user).blocks })
          htm hn x user
        rw [hh]
        refine ⟨_, rfl, ?_⟩
        refine (SameBadges.of_books (books_status ..)).trans ((SameBadges.of_books hb).trans ?_)
        exact ⟨rfl, rfl, rfl⟩

-- ============================================================ removal and hello

omit htm hn in
/-- The books when a hold is armed. -/
theorem books_park (x : ConnId) (t : Instant) :
    (h.modify x fun c => { c with wsHoldUntil := some t }).books = h.books.park x t := by
  unfold books Books.park
  congr 1
  funext y
  rw [get_modify]
  dsimp only
  split
  · rw [Option.map_map, Option.map_map]
    rfl
  · rfl

omit htm in
theorem expired_park (x : ConnId) :
    (h.modify x fun c =>
      { c with wsHoldUntil := some (env.now + secs wsHoldSecs) }).expired env = ∅ := by
  ext y
  have hy : y ∉ h.expired env := by rw [hn]; exact Finset.notMem_empty y
  rw [mem_expired] at hy ⊢
  simp only [Finset.notMem_empty, iff_false]
  rintro ⟨c, hc, he⟩
  rw [get_modify] at hc
  split at hc
  · obtain ⟨c', -, rfl⟩ := Option.map_eq_some_iff.mp hc
    have hlater : env.now < env.now + secs wsHoldSecs := Nat.lt_add_of_pos_right (by decide)
    exact Nat.not_le.mpr hlater (of_decide_eq_true he)
  · exact hy ⟨c, hc, he⟩

omit htm in
/-- No hold expires that had not. -/
theorem expired_of_badges {k : SimpleHub}
    (hk : ∀ y g, k.books.badge y = some g → g.wsHoldUntil.any (· ≤ env.now) = true →
      ∃ g', h.books.badge y = some g' ∧ g'.wsHoldUntil.any (· ≤ env.now) = true) :
    k.expired env = ∅ := by
  apply Finset.eq_empty_of_forall_notMem
  intro y hy
  obtain ⟨g, hg, he⟩ := mem_expired_books.mp hy
  have hold : y ∈ h.expired env := mem_expired_books.mpr (hk y g hg he)
  rw [hn] at hold
  exact Finset.notMem_empty y hold

omit htm in
theorem expired_erase {k : SimpleHub} {x : ConnId} (hk : k.books = h.books.erase x) :
    k.expired env = ∅ := by
  refine expired_of_badges hn fun y g hg he => ?_
  rw [hk, Books.badge_erase] at hg
  split at hg
  · cases hg
  · exact ⟨g, hg, he⟩

/-- A socket close on a hub without expired holds: the hold keeps the
connection, or it is erased. -/
theorem removeClient_returns (x : ConnId) :
    ∃ h', h.removeClient env tm x = some h' ∧ h'.expired env = ∅
      ∧ (h'.books = h.books ∨ h'.books = h.books.park x (env.now + secs wsHoldSecs)
        ∨ h'.books = h.books.erase x) := by
  unfold removeClient
  rcases @shouldKeepWsHold_cases h env x with ⟨hk, -⟩ | ⟨hk, -⟩ | hk
  · rw [hk]
    exact ⟨h, rfl, hn, Or.inl rfl⟩
  · rw [hk]
    exact ⟨_, rfl, expired_park hn x, Or.inr (Or.inl (books_park x _))⟩
  · rw [hk]
    dsimp only
    rw [if_neg (by simp)]
    have hw := books_withdraw (h := h) x
    split
    · exact ⟨_, rfl, by rw [expired_congr hw, hn], Or.inl hw⟩
    · next c hc =>
      have hnw : (h.withdraw x).expired env = ∅ := by rw [expired_congr hw, hn]
      obtain ⟨⟨r, kept⟩, hr, hb⟩ := leaveKeepRemainingPair_returns htm hnw x
        "partner left — still chatting"
      have hb : r.books = h.books := hb.trans hw
      have he : (r.forgetClient env x c kept).books = h.books.erase x := by
        rw [books_forgetClient, hb]
      rw [hr]
      obtain ⟨h', hh, hb'⟩ := htm _ (expired_erase hn he)
      refine ⟨h', hh, ?_, Or.inr (Or.inr (hb'.trans he))⟩
      rw [expired_congr hb']
      exact expired_erase hn he

omit hn in
omit htm in
/-- The books when a hold is cleared. -/
theorem badge_unpark {f : Client → Client} {x : ConnId}
    (hf : ∀ c, (f c).userId = c.userId ∧ (f c).friendCode = c.friendCode
      ∧ (f c).wsHoldUntil = none
      ∧ (f c).limiter.messages = c.limiter.messages ∧ (f c).reportTimes = c.reportTimes) :
    (h.modify x f).books = h.books.unpark x := by
  unfold books Books.unpark
  congr 1
  funext y
  rw [get_modify]
  dsimp only
  split
  · rw [Option.map_map, Option.map_map]
    congr 1
    funext c
    obtain ⟨hu, hcode, hw, hm, ht⟩ := hf c
    simp only [Function.comp, Client.badge, hu, hcode, hw, hm, ht]
  · rfl

omit htm in
/-- Clearing holds expires none. -/
theorem expired_unpark {k : SimpleHub} {x : ConnId} (hk : k.books = h.books.unpark x) :
    k.expired env = ∅ := by
  refine expired_of_badges hn fun y g hg he => ?_
  rw [hk, Books.badge_unpark] at hg
  split at hg
  · obtain ⟨g', -, rfl⟩ := Option.map_eq_some_iff.mp hg
    simp at he
  · exact ⟨g, hg, he⟩

/-- The removal of a connection without a hold that is not in a match. -/
theorem removeClient_idle {x : ConnId} {c : Client} (hc : h.get x = some c)
    (hw : c.wsHoldUntil = none) (hp : c.phase = .idle) :
    ∃ h', h.removeClient env tm x = some h' ∧ h'.expired env = ∅
      ∧ h'.books = h.books.erase x := by
  have hkeep : h.shouldKeepWsHold env x = (h, false) := by
    unfold shouldKeepWsHold
    rw [hc]
    dsimp only
    rw [hw]
    simp [parkable, hp]
  unfold removeClient
  rw [hkeep]
  dsimp only
  rw [if_neg (by simp), get_withdraw, hc]
  dsimp only
  have hbw := books_withdraw (h := h) x
  have hnw : (h.withdraw x).expired env = ∅ := by rw [expired_congr hbw, hn]
  obtain ⟨⟨r, kept⟩, hr, hb⟩ := leaveKeepRemainingPair_returns htm hnw x
    "partner left — still chatting"
  have he : (r.forgetClient env x c kept).books = h.books.erase x := by
    rw [books_forgetClient, show r.books = h.books from hb.trans hbw]
  rw [hr]
  obtain ⟨h', hh, hb'⟩ := htm _ (expired_erase hn he)
  refine ⟨h', hh, ?_, hb'.trans he⟩
  rw [expired_congr hb']
  exact expired_erase hn he

omit htm hn in
theorem books_moveSeat (old new partner : ConnId) (oldc : Client) :
    (h.moveSeat env old new partner oldc).books
      = (h.books.unpark new).unpark old := by
  unfold moveSeat
  rw [badge_unpark (f := blank) fun c => ⟨rfl, rfl, rfl, rfl, rfl⟩,
    badge_unpark (f := takeOver env new partner oldc) fun c => ⟨rfl, rfl, rfl, rfl, rfl⟩,
    books_modify _ _ (repoint old new) fun c => ⟨rfl, rfl, rfl, rfl, rfl⟩]

omit htm hn in
/-- The old record of an adoption is blank. -/
theorem get_moveSeat_old {old new partner : ConnId} {oldc : Client}
    (hold : h.get old = some oldc) :
    ∃ c, (h.moveSeat env old new partner oldc).get old = some c
      ∧ c.wsHoldUntil = none ∧ c.phase = .idle := by
  obtain ⟨c, hc⟩ : ∃ c, ((h.modify partner (repoint old new)).modify new
      (takeOver env new partner oldc)).get old = some c := by
    rw [get_modify, get_modify, hold]
    split
    · split
      · exact ⟨_, rfl⟩
      · exact ⟨_, rfl⟩
    · split
      · exact ⟨_, rfl⟩
      · exact ⟨_, rfl⟩
  refine ⟨blank c, ?_, rfl, rfl⟩
  unfold moveSeat
  rw [get_modify, if_pos rfl, hc]
  rfl

/-- An adoption erases the old connection and clears the hold of the new
one; otherwise nothing happens. -/
theorem adoptWsHold_returns (old new : ConnId) :
    (h.adoptWsHold env tm old new = some (h, false)) ∨
      ∃ h', h.adoptWsHold env tm old new = some (h', true) ∧ h'.expired env = ∅
        ∧ old ≠ new ∧ h'.books = (h.books.unpark new).erase old := by
  unfold adoptWsHold
  split
  · exact Or.inl rfl
  · next hne =>
    split
    · exact Or.inl rfl
    · next oldc hold =>
      split
      · exact Or.inl rfl
      · next partner _ =>
        right
        have hbm := @books_moveSeat h env old new partner oldc
        have hnm : (h.moveSeat env old new partner oldc).expired env = ∅ := by
          have hb' := badge_unpark (h := h) (x := new)
            (f := fun c => { c with wsHoldUntil := none }) fun c => ⟨rfl, rfl, rfl, rfl, rfl⟩
          refine expired_unpark (expired_unpark hn hb') (x := old) ?_
          rw [hbm, hb']
        obtain ⟨c, hc, hw, hp⟩ := @get_moveSeat_old h env old new partner _
          hold
        obtain ⟨h', hh, hn', hb⟩ := removeClient_idle htm hnm hc hw hp
        refine ⟨_, by dsimp only; rw [hh]; rfl, ?_, hne, ?_⟩
        · rw [expired_congr (books_status ..), expired_congr (books_status ..), hn']
        · rw [books_status, books_status, hb, hbm, Books.erase_unpark]

/-- A `Hello` first deals with the connection its user had before. -/
theorem kickPrevious_returns (x : ConnId) (u : UserId) :
    ∃ h', h.kickPrevious env tm x u = some h' ∧ h'.expired env = ∅
      ∧ (h'.books = h.books ∨ ∃ old, h.byUser.get? u = some old ∧ old ≠ x
        ∧ (h'.books = h.books.park old (env.now + secs wsHoldSecs)
          ∨ h'.books = h.books.erase old
          ∨ h'.books = (h.books.unpark x).erase old)) := by
  unfold kickPrevious
  split
  · exact ⟨h, rfl, hn, Or.inl rfl⟩
  · next old hold =>
    split
    · exact ⟨h, rfl, hn, Or.inl rfl⟩
    · next hne =>
      rcases adoptWsHold_returns htm hn old x with ha | ⟨h', ha, hn', -, hb⟩
      · rw [ha]
        have hb : ((h.sendError old
          "session opened in another tab or browser — this tab was disconnected. Use only one live window per identity.").status
            old "disconnected — opened elsewhere").books = h.books := by
          simp
        obtain ⟨h', hh, hn', hbr⟩ := removeClient_returns
          (h := (h.sendError old
            "session opened in another tab or browser — this tab was disconnected. Use only one live window per identity.").status
            old "disconnected — opened elsewhere") htm
          (by rw [expired_congr hb, hn]) old
        refine ⟨h', hh, hn', ?_⟩
        rw [hb] at hbr
        rcases hbr with hbr | hbr | hbr
        · exact Or.inl hbr
        · exact Or.inr ⟨old, hold, hne, Or.inl hbr⟩
        · exact Or.inr ⟨old, hold, hne, Or.inr (Or.inl hbr)⟩
      · rw [ha]
        exact ⟨h', rfl, hn', Or.inr ⟨old, hold, hne, Or.inr (Or.inr hb)⟩⟩

-- ================================================================== the frames

theorem handleHello_returns (x : ConnId) (msg : HelloIn) :
    ∃ k, h.kickPrevious env tm x (h.helloUserId x msg.userId) = some k
      ∧ h.handleHello env tm x msg = some (k.identify env x (h.helloUserId x msg.userId) msg)
      ∧ k.expired env = ∅ := by
  obtain ⟨k, hk, hn', -⟩ := kickPrevious_returns htm hn x (h.helloUserId x msg.userId)
  refine ⟨k, hk, ?_, hn'⟩
  unfold handleHello
  dsimp only
  rw [hk]
  rfl

omit htm hn in
theorem sameBadges_establishFriendship (u v : UserId) :
    (h.establishFriendship u v).SameBadges h := by
  unfold establishFriendship
  split
  · exact .of_books rfl
  · exact ⟨rfl, rfl, rfl⟩

omit htm hn in
theorem sameBadges_handleAddFriend (x : ConnId) (raw : String) :
    (h.handleAddFriend x raw).SameBadges h := by
  unfold handleAddFriend
  dsimp only
  split
  · exact .of_books rfl
  split
  · exact .of_books rfl
  split
  · exact .of_books rfl
  split
  · exact .of_books rfl
  split
  · exact .of_books (books_status ..)
  split
  · split
    · exact ((SameBadges.of_books (books_status ..)).trans (.of_books (books_status ..))).trans
        (sameBadges_establishFriendship _ _)
    · exact (SameBadges.of_books (books_status ..)).trans (sameBadges_establishFriendship _ _)
  split
  · exact .of_books (books_status ..)
  · refine (SameBadges.of_books (books_status ..)).trans ?_
    split
    · exact ⟨rfl, rfl, rfl⟩
    · exact ⟨rfl, rfl, rfl⟩

omit htm hn in
theorem sameBadges_handleAcceptFriend (x : ConnId) (raw : String) :
    (h.handleAcceptFriend x raw).SameBadges h := by
  unfold handleAcceptFriend
  dsimp only
  split
  · exact .of_books rfl
  split
  · exact .of_books rfl
  split
  · exact .of_books rfl
  · refine (SameBadges.of_books (books_status ..)).trans ?_
    split
    · exact (SameBadges.of_books (books_status ..)).trans (sameBadges_establishFriendship _ _)
    · exact sameBadges_establishFriendship _ _

omit htm hn in
theorem sameBadges_friendGraph (x : ConnId) (raw : String) :
    (h.handleDeclineFriend x raw).SameBadges h ∧ (h.handleRemoveFriend x raw).SameBadges h
      ∧ (h.handleUnblockUser x raw).SameBadges h := by
  unfold handleDeclineFriend handleRemoveFriend handleUnblockUser
  cases h.get x with
  | none => exact ⟨.of_books rfl, .of_books rfl, .of_books rfl⟩
  | some c =>
      refine ⟨?_, ?_, ?_⟩
      · exact (SameBadges.of_books (books_status ..)).trans ⟨rfl, rfl, rfl⟩
      · exact (SameBadges.of_books (books_status ..)).trans ⟨rfl, rfl, rfl⟩
      · exact (SameBadges.of_books (books_status ..)).trans ⟨rfl, rfl, rfl⟩

omit htm hn in
theorem sameIds_handleReportUser (x : ConnId) (t r : String) :
    (h.handleReportUser env x t r).SameIds h := by
  have hb := h.books_handleReportUser env x t r
  generalize h.handleReportUser env x t r = h' at hb ⊢
  refine ⟨congrArg Books.sys hb, congrArg Books.byUser hb, fun y => ?_⟩
  rw [hb]
  unfold Books.report
  dsimp only
  split
  · rw [Option.map_map]
    rfl
  · rfl

/-- Every frame but `Hello`, a report and those on the friend graph comes back
with the same books. -/
theorem dispatch_books (x : ConnId) {msg : ClientMsg} (hm : msg.keepsBooks = true) :
    ∃ h', h.dispatch env tm x msg = some h' ∧ h'.books = h.books := by
  cases msg with
  | setPrefs g l f t hide => exact handleSetPrefs_returns htm hn x g l f t hide
  | ping => exact ⟨_, rfl, rfl⟩
  | setRoom room => exact ⟨_, rfl, books_handleSetRoom ..⟩
  | spin room => exact handleSpin_returns htm hn x room
  | next room => exact handleNext_returns htm hn x room
  | stop => exact stopMatchmaking_returns htm hn x
  | findThirdInvite => exact ⟨_, rfl, books_handleFindThirdInvite ..⟩
  | findThirdRespond accept => exact handleFindThirdRespond_returns htm hn x accept
  | findThirdCancel => exact ⟨_, rfl, books_handleFindThirdCancel ..⟩
  | browseTogether => exact ⟨_, rfl, books_handleBrowseTogether ..⟩
  | faceOk ok ready failOpen => exact handleFaceOk_returns htm hn x ok ready failOpen
  | genitalHit target => exact ⟨_, rfl, books_handleGenitalHit ..⟩
  | callFriend user join => exact handleCallFriend_returns htm hn x user join
  | callRespond user accept => exact handleCallRespond_returns htm hn x user accept
  | callCancel user => exact ⟨_, rfl, books_handleCallCancel ..⟩
  | hangupFriend => exact ⟨_, rfl, books_handleHangupFriend ..⟩
  | signal kind payload toPeer => exact ⟨_, rfl, books_handleSignal ..⟩
  | other => exact ⟨h, rfl, rfl⟩
  | reportUser _ _ | hello _ | addFriend _ | acceptFriend _ | declineFriend _ | removeFriend _
  | blockUser _ | unblockUser _ => cases hm

/-- The frames on the friend graph come back with the same badges. -/
theorem dispatch_graph (x : ConnId) {msg : ClientMsg} (hk : msg.keepsBooks = false)
    (hm : ∀ m, msg ≠ .hello m) (hreport : ∀ target reason, msg ≠ .reportUser target reason) :
    ∃ h', h.dispatch env tm x msg = some h' ∧ h'.SameBadges h := by
  cases msg with
  | hello m => exact absurd rfl (hm m)
  | reportUser target reason => exact absurd rfl (hreport target reason)
  | addFriend code => exact ⟨_, rfl, sameBadges_handleAddFriend x code⟩
  | acceptFriend user => exact ⟨_, rfl, sameBadges_handleAcceptFriend x user⟩
  | declineFriend user => exact ⟨_, rfl, (sameBadges_friendGraph x user).1⟩
  | removeFriend user => exact ⟨_, rfl, (sameBadges_friendGraph x user).2.1⟩
  | blockUser target => exact handleBlockUser_returns htm hn x target
  | unblockUser user => exact ⟨_, rfl, (sameBadges_friendGraph x user).2.2⟩
  | _ => cases hk

/-- Every frame but `Hello` comes back with the same users. -/
theorem dispatch_returns (x : ConnId) {msg : ClientMsg} (hm : ∀ m, msg ≠ .hello m) :
    ∃ h', h.dispatch env tm x msg = some h' ∧ h'.SameIds h := by
  by_cases hk : msg.keepsBooks = true
  · obtain ⟨h', hh, hb⟩ := dispatch_books htm hn x hk
    exact ⟨h', hh, .of_books hb⟩
  by_cases hreport : ∃ target reason, msg = .reportUser target reason
  · obtain ⟨target, reason, rfl⟩ := hreport
    exact ⟨_, rfl, sameIds_handleReportUser x target reason⟩
  · obtain ⟨h', hh, hs⟩ := dispatch_graph htm hn x (Bool.eq_false_iff.mpr hk) hm
      fun target reason hr => hreport ⟨target, reason, hr⟩
    exact ⟨h', hh, hs.sameIds⟩

omit htm in
theorem expired_charge {k : SimpleHub} {x : ConnId} (hk : k.books = h.books.charge env x) :
    k.expired env = ∅ := by
  refine expired_of_badges hn fun y g hg he => ?_
  rw [hk] at hg
  obtain ⟨g', hg', rfl | rfl⟩ := Books.badge_rewritten (Books.badge_charge _ env x) hg
  · exact ⟨g', hg', he⟩
  · exact ⟨_, hg', he⟩

omit htm hn in
theorem charge_absent {x : ConnId} (hx : h.books.badge x = none) :
    h.books.charge env x = h.books := by
  unfold Books.charge
  have : (fun y => if y = x then (h.books.badge y).map fun g =>
      { g with messages := (g.enroll h.books.sys env).1 } else h.books.badge y)
      = h.books.badge := by
    funext y
    split
    · next hy => rw [hy, hx]; rfl
    · rfl
  rw [this]

/-- After the sweep, the preamble of a frame counts it and comes back; the
handler is reached when the sender is there and heard. -/
theorem preamble_returns {h₀ : SimpleHub} (hsweep : h₀.expireWsHolds env tm = some h)
    (x : ConnId) (msg : ClientMsg) :
    ∃ r, h₀.preamble env tm x msg = some (r, h.books.hears env x)
      ∧ r.books = h.books.charge env x := by
  unfold preamble
  rw [hsweep]
  simp only [Option.bind_eq_bind, Option.bind_some]
  split
  · next hc =>
    have hb : h.books.badge x = none := by simp [books, hc]
    refine ⟨h, ?_, (charge_absent hb).symm⟩
    unfold Books.hears
    rw [hb]
    rfl
  · next c hc =>
    obtain ⟨ha, hok⟩ := books_allowMessage h env hc
    generalize h.allowMessage env x c = a at ha hok ⊢
    obtain ⟨k, ok⟩ := a
    dsimp only at ha hok ⊢
    rw [← hok]
    split
    · next hno =>
      refine ⟨k, ?_, ha⟩
      rw [show ok = false by simpa using hno]
    · next hyes =>
      have hr := k.books_noteClientRx env x (msg = .ping)
      generalize k.noteClientRx env x (msg = .ping) = w at hr ⊢
      obtain ⟨k', woke⟩ := w
      dsimp only at hr ⊢
      have hk' : k'.books = h.books.charge env x := hr.trans ha
      have hn' : k'.expired env = ∅ := expired_charge hn hk'
      have hwake : ∃ k'', k'.matchIfWoke tm woke = some k'' ∧ k''.books = k'.books := by
        unfold matchIfWoke
        split
        · exact htm.call hn' rfl
        · exact ⟨k', rfl, rfl⟩
      obtain ⟨k₁, hk₁, hb₁⟩ := hwake
      have hn₁ : k₁.expired env = ∅ := by rw [expired_congr hb₁, hn']
      obtain ⟨k₂, hk₂, hb₂⟩ := dropZombiePartner_returns htm hn₁ x
      refine ⟨k₂, ?_, (hb₂.trans hb₁).trans hk'⟩
      rw [hk₁]
      simp only [Option.bind_some]
      rw [hk₂, show ok = true by simpa using hyes]
      rfl

-- ======================================================= the events, taken apart

omit htm hn in
theorem step_connect {n : Nat} {x : ConnId} {ip : String} {h' : SimpleHub}
    (hs : h.step env n (.connect x ip) = some h') :
    ∃ k, h.expireWsHolds env (tryMatch env (n + 1)) = some k
      ∧ (h'.books = k.books ∨ h'.books = k.books.enroll x) := by
  unfold step tryAddClient at hs
  obtain ⟨k, hk, hs⟩ := Option.bind_eq_some_iff.mp hs
  refine ⟨k, hk, ?_⟩
  split at hs
  · cases hs
    exact Or.inl rfl
  · cases hs
    right
    rw [books_broadcastLobbyInfo, books_send, books_enroll]

omit htm hn in
/-- A frame is the sweep, the preamble, and the handler when the sender is
there and heard. -/
theorem step_frame {n : Nat} {x : ConnId} {msg : ClientMsg} {h' : SimpleHub}
    (hs : h.step env n (.frame x msg) = some h') :
    ∃ k r, h.expireWsHolds env (tryMatch env (n + 1)) = some k
      ∧ k.expired env = ∅ ∧ k.Sheds h
      ∧ h.preamble env (tryMatch env (n + 1)) x msg = some (r, k.books.hears env x)
      ∧ r.books = k.books.charge env x
      ∧ ((k.books.hears env x = false ∧ h' = r)
        ∨ (k.books.hears env x = true
          ∧ r.dispatch env (tryMatch env (n + 1)) x msg = some h')) := by
  unfold step handle at hs
  obtain ⟨⟨r, go⟩, hr, hs⟩ := Option.bind_eq_some_iff.mp hs
  obtain ⟨k, hk⟩ : ∃ k, h.expireWsHolds env (tryMatch env (n + 1)) = some k := by
    unfold preamble at hr
    obtain ⟨k, hk, -⟩ := Option.bind_eq_some_iff.mp hr
    exact ⟨k, hk⟩
  obtain ⟨-, hn, hsh⟩ := expireWsHolds_books (Q := fun _ => True) (fun _ _ _ _ => trivial)
    trivial hk
  obtain ⟨r', hr', hb⟩ := preamble_returns (settles_tryMatch n) hn hk x msg
  rw [hr] at hr'
  cases hr'
  refine ⟨k, r, hk, hn, hsh, hr, hb, ?_⟩
  dsimp only at hs
  split at hs
  · next hgo => exact Or.inr ⟨hgo, hs⟩
  · next hgo =>
    cases hs
    exact Or.inl ⟨Bool.eq_false_iff.mpr hgo, rfl⟩

end SimpleHub

-- ============================================================ what the books keep

/-- A property of the books that holds, frames and names leave alone. -/
structure Books.Kept (env : Env) (Q : Books → Prop) : Prop where
  erase : ∀ b x, Q b → Q (b.erase x)
  park : ∀ b x t, Q b → Q (b.park x t)
  unpark : ∀ b x, Q b → Q (b.unpark x)
  charge : ∀ b x, Q b → Q (b.charge env x)
  identify : ∀ b (h : SimpleHub) x raw, b.sys = h.sys → Q b →
    Q (b.identify x (h.helloUserId x raw))

namespace SimpleHub

variable {h h' : SimpleHub} {env : Env} {Q : Books → Prop} {n : Nat}

/-- Up to its handler, a frame keeps such a property. -/
theorem frame_keeps (hQ : Books.Kept env Q) (h0 : Q h.books) {x : ConnId} {msg : ClientMsg}
    (hs : h.step env n (.frame x msg) = some h') :
    ∃ r go, h.preamble env (tryMatch env (n + 1)) x msg = some (r, go) ∧ r.expired env = ∅
      ∧ (∀ y g, r.books.badge y = some g →
        ∃ g', h.books.badge y = some g' ∧ g.userId = g'.userId)
      ∧ Q r.books
      ∧ ((go = false ∧ h' = r)
        ∨ (go = true ∧ r.dispatch env (tryMatch env (n + 1)) x msg = some h')) := by
  obtain ⟨k, r, hk, hn, hsh, hr, hb, hcase⟩ := step_frame hs
  obtain ⟨hQk, -, -⟩ := expireWsHolds_books (fun b y hb _ => hQ.erase b y hb) h0 hk
  refine ⟨r, _, hr, expired_charge hn hb, ?_, ?_, hcase⟩
  · intro y g hg
    rw [hb] at hg
    obtain ⟨g', hg', rfl | rfl⟩ := Books.badge_rewritten (Books.badge_charge _ env x) hg
    · exact ⟨g', hsh y g' hg', rfl⟩
    · exact ⟨_, hsh y _ hg', rfl⟩
  · rw [hb]
    exact hQ.charge _ x hQk

/-- So do the handlers of frames that write no book of it. -/
theorem dispatch_keeps (hQ : Books.Kept env Q) (h0 : Q h.books) (hn : h.expired env = ∅)
    {x : ConnId} {msg : ClientMsg} (hm : msg.keepsBooks = true ∨ ∃ m, msg = .hello m)
    (hd : h.dispatch env (tryMatch env (n + 1)) x msg = some h') : Q h'.books := by
  rcases hm with hm | ⟨m, rfl⟩
  · obtain ⟨k, hk, hb⟩ := dispatch_books (settles_tryMatch n) hn x hm
    obtain rfl := Option.some.inj (hd.symm.trans hk)
    rw [hb]
    exact h0
  · obtain ⟨k, hkick, hhello, -⟩ := handleHello_returns (settles_tryMatch n) hn x m
    obtain rfl := Option.some.inj (hd.symm.trans hhello)
    obtain ⟨k', hkick', -, hbooks⟩ :=
      kickPrevious_returns (settles_tryMatch n) hn x (h.helloUserId x m.userId)
    obtain rfl := Option.some.inj (hkick.symm.trans hkick')
    have hk : k.sys = h.sys ∧ Q k.books := by
      rcases hbooks with hb | ⟨old, -, -, hb | hb | hb⟩
      · exact ⟨congrArg Books.sys hb, by rw [hb]; exact h0⟩
      · exact ⟨congrArg Books.sys hb, by rw [hb]; exact hQ.park _ old _ h0⟩
      · exact ⟨congrArg Books.sys hb, by rw [hb]; exact hQ.erase _ old h0⟩
      · exact ⟨congrArg Books.sys hb, by rw [hb]; exact hQ.erase _ old (hQ.unpark _ x h0)⟩
    rw [books_identify]
    exact hQ.identify k.books h x m.userId hk.1 hk.2

/-- Every other event keeps such a property, when a connect does. -/
theorem step_keeps (hQ : Books.Kept env Q) (h0 : Q h.books) {e : Event}
    (hconnect : ∀ x ip b, e = .connect x ip → Q b → Q (b.enroll x))
    (hframe : ∀ x msg, e ≠ .frame x msg) (hs : h.step env n e = some h') : Q h'.books := by
  have hsame : h'.books = h.books → Q h'.books := by
    intro hb
    rw [hb]
    exact h0
  cases e with
  | connect x ip =>
      obtain ⟨k, hk, hb⟩ := step_connect hs
      obtain ⟨hQk, -, -⟩ := expireWsHolds_books (fun b y hb _ => hQ.erase b y hb) h0 hk
      rcases hb with hb | hb
      · rw [hb]
        exact hQk
      · rw [hb]
        exact hconnect x ip _ rfl hQk
  | frame x msg => exact absurd rfl (hframe x msg)
  | close x =>
      change h.removeClient env (tryMatch env (n + 1)) x = some h' at hs
      rcases removeClient_books (fun b y hb _ => hQ.erase b y hb) (fun b hb => hQ.erase b x hb)
        h0 hs with hkept | ⟨-, hQ', -⟩
      · rcases @shouldKeepWsHold_cases h env x with ⟨hk, -⟩ | ⟨hk, -⟩ | hk
        · cases hk.symm.trans hkept
          exact h0
        · cases hk.symm.trans hkept
          rw [books_park]
          exact hQ.park _ x _ h0
        · cases hk.symm.trans hkept
      · exact hQ'
  | geo x code country city => exact hsame (Option.some.inj hs ▸ books_setClientGeo ..)
  | adminBan u s => exact hsame (Option.some.inj hs ▸ books_adminBan ..)
  | adminUnban u => exact hsame (Option.some.inj hs ▸ books_adminUnban ..)
  | adminUnbanIp ip => exact hsame (Option.some.inj hs ▸ books_adminUnbanIp ..)
  | claim r => exact hsame (Option.some.inj hs ▸ books_federationClaim ..)
  | applyClaim x base r => exact hsame (Option.some.inj hs ▸ books_federationApplyClaim ..)

end SimpleHub

end Ruletka
