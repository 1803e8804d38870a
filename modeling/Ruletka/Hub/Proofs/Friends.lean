/-
The friend graph stays in order.

Six frames write the graph, and each does to it what one operation on ties
does, or nothing. A request needs a target other than the sender; what
guards that is the comparison of friend codes, so the codes belong to the
invariant: the code of a record is that of its user, and so is a code in the
index. Every other event leaves graph and codes as they are, or removes
records, or files a code with its user.
-/
import Ruletka.Hub.Friends
import Ruletka.Hub.Proofs.Handlers

namespace Ruletka

namespace SimpleHub

variable {h h' : SimpleHub} {env : Env}

-- ======================================================== the frames on the graph

@[simp]
theorem ties_status (x : ConnId) (d : String) : (h.status x d).ties = h.ties := by
  obtain ⟨ms, hms⟩ := h.status_eq_emit x d
  rw [hms]
  rfl

theorem ties_of_books (hb : h'.books = h.books) : h'.ties = h.ties := by
  have hf : h'.friendships = h.friendships := congrArg Books.friendships hb
  have hp : h'.pending = h.pending := congrArg Books.pending hb
  have hbl : h'.blocks = h.blocks := congrArg Books.blocks hb
  unfold ties
  rw [hf, hp, hbl]

/-- Between two users with names, who is blocked is what the blocks say. -/
theorem not_parted {a b : UserId} (ha : a ≠ "") (hb : b ≠ "") (hne : a ≠ b)
    (h0 : h.isBlockedPairUid a b = false) : ¬ h.ties.Parted a b := by
  unfold isBlockedPairUid at h0
  simp only [ha, hb, hne, decide_false, Bool.or_self, Bool.false_eq_true, if_false] at h0
  rintro (hab | hba)
  · rw [decide_eq_true (show (a, b) ∈ h.blocks from hab)] at h0
    cases h0
  · rw [decide_eq_true (show (b, a) ∈ h.blocks from hba), Bool.or_true] at h0
    cases h0

theorem ties_establishFriendship {a b : UserId} (ha : a ≠ "") (hb : b ≠ "") (hne : a ≠ b) :
    (h.establishFriendship a b).ties = h.ties.befriend a b := by
  unfold establishFriendship
  rw [if_neg (by simp [ha, hb, hne])]
  rfl

theorem sound_establishFriendship (hs : h.ties.Sound) {a b : UserId}
    (h0 : h.isBlockedPairUid a b = false) : (h.establishFriendship a b).ties.Sound := by
  by_cases hok : a ≠ "" ∧ b ≠ "" ∧ a ≠ b
  · obtain ⟨ha, hb, hne⟩ := hok
    rw [ties_establishFriendship ha hb hne]
    exact hs.befriend hne (not_parted ha hb hne h0)
  · unfold establishFriendship
    rw [if_pos]
    · exact hs
    · simp only [Bool.or_eq_true, decide_eq_true_eq]
      by_contra hno
      push Not at hno
      exact hok ⟨hno.1.1, hno.1.2, hno.2⟩

/-- **AddFriend**: a request to another, or the answer to one. -/
theorem sound_handleAddFriend (hs : h.ties.Sound) (hcodes : Coded h.sys h.codeIndex)
    {x : ConnId} (hx : ∀ c, h.get x = some c → c.friendCode = h.sys.friendCodeFor c.userId
      ∧ c.userId ≠ "") (raw : String) : (h.handleAddFriend x raw).ties.Sound := by
  unfold handleAddFriend
  dsimp only
  split
  · exact hs
  next c hc =>
  obtain ⟨hcode, hme⟩ := hx c hc
  split
  · exact hs
  next hself =>
  split
  · exact hs
  next other hother =>
  obtain ⟨hofcode, hnamed⟩ := hcodes _ other hother
  -- another code is another user's
  have hne : c.userId ≠ other := by
    rintro rfl
    exact hself (hofcode.trans hcode.symm)
  split
  · exact hs
  next hblocked =>
  have hblocked := Bool.eq_false_iff.mpr hblocked
  split
  · rw [ties_status]
    exact hs
  next hfriends =>
  split
  · have hest := sound_establishFriendship hs hblocked
    split
    · rw [ties_status, ties_status]
      exact hest
    · rw [ties_status]
      exact hest
  split
  · rw [ties_status]
    exact hs
  · have hreq := hs.request hne (not_parted hme hnamed hne hblocked) hfriends
    rw [ties_status]
    split
    · exact hreq
    · exact hreq

theorem sound_handleAcceptFriend (hs : h.ties.Sound) (x : ConnId) (raw : String) :
    (h.handleAcceptFriend x raw).ties.Sound := by
  unfold handleAcceptFriend
  dsimp only
  split
  · exact hs
  split
  · exact hs
  split
  · exact hs
  next hblocked =>
  have hest := sound_establishFriendship hs (Bool.eq_false_iff.mpr hblocked)
  rw [ties_status]
  split
  · rw [ties_status]
    exact hest
  · exact hest

theorem sound_handleDeclineFriend (hs : h.ties.Sound) (x : ConnId) (raw : String) :
    (h.handleDeclineFriend x raw).ties.Sound := by
  unfold handleDeclineFriend
  split
  · exact hs
  · rw [ties_status]
    exact hs.clear _ _

theorem sound_handleRemoveFriend (hs : h.ties.Sound) (x : ConnId) (user : UserId) :
    (h.handleRemoveFriend x user).ties.Sound := by
  unfold handleRemoveFriend
  split
  · exact hs
  · rw [ties_status]
    exact hs.part _ _

theorem sound_handleUnblockUser (hs : h.ties.Sound) (x : ConnId) (raw : String) :
    (h.handleUnblockUser x raw).ties.Sound := by
  unfold handleUnblockUser
  split
  · exact hs
  · rw [ties_status]
    exact hs.unblock _ _

theorem codeIndex_status (x : ConnId) (d : String) : (h.status x d).codeIndex = h.codeIndex :=
  congrArg Books.codeIndex (h.books_status x d)

/-- The frames on the graph leave the friend codes alone. -/
theorem codeIndex_friendGraph (x : ConnId) (raw : String) :
    (h.handleAddFriend x raw).codeIndex = h.codeIndex
      ∧ (h.handleAcceptFriend x raw).codeIndex = h.codeIndex
      ∧ (h.handleDeclineFriend x raw).codeIndex = h.codeIndex
      ∧ (h.handleRemoveFriend x raw).codeIndex = h.codeIndex
      ∧ (h.handleUnblockUser x raw).codeIndex = h.codeIndex := by
  have hest : ∀ u v, (h.establishFriendship u v).codeIndex = h.codeIndex := by
    intro u v
    unfold establishFriendship
    split
    · rfl
    · rfl
  refine ⟨?_, ?_, ?_, ?_, ?_⟩
  · unfold handleAddFriend
    dsimp only
    split
    · rfl
    split
    · rfl
    split
    · rfl
    split
    · rfl
    split
    · exact codeIndex_status ..
    split
    · split
      · rw [codeIndex_status, codeIndex_status, hest]
      · rw [codeIndex_status, hest]
    split
    · exact codeIndex_status ..
    · rw [codeIndex_status]
      split
      · rfl
      · rfl
  · unfold handleAcceptFriend
    dsimp only
    split
    · rfl
    split
    · rfl
    split
    · rfl
    · rw [codeIndex_status]
      split
      · rw [codeIndex_status, hest]
      · exact hest _ _
  · unfold handleDeclineFriend
    split
    · rfl
    · exact codeIndex_status ..
  · unfold handleRemoveFriend
    split
    · rfl
    · exact codeIndex_status ..
  · unfold handleUnblockUser
    split
    · rfl
    · exact codeIndex_status ..

end SimpleHub

-- ================================================================== the invariant

namespace Books

def ties (b : Books) : Ties UserId := ⟨b.friendships, b.pending, b.blocks⟩

/-- The friend graph is in order, and every code is that of its user. -/
structure Acquainted (b : Books) : Prop where
  ties : b.ties.Sound
  codes : Coded b.sys b.codeIndex
  records : ∀ x g, b.badge x = some g →
    g.friendCode = b.sys.friendCodeFor g.userId ∧ g.userId ≠ ""

variable {b : Books}

theorem Acquainted.erase (h : b.Acquainted) (x : ConnId) : (b.erase x).Acquainted where
  ties := h.ties
  codes := h.codes
  records y g hg := by
    rw [badge_erase] at hg
    split at hg
    · cases hg
    · exact h.records y g hg

/-- Holds and counters are no part of it. -/
theorem Acquainted.of_badge (h : b.Acquainted) {b' : Books} (hties : b'.ties = b.ties)
    (hsys : b'.sys = b.sys) (hcodes : b'.codeIndex = b.codeIndex)
    (hbadge : ∀ x g, b'.badge x = some g →
      ∃ g', b.badge x = some g' ∧ g.userId = g'.userId ∧ g.friendCode = g'.friendCode) :
    b'.Acquainted where
  ties := hties ▸ h.ties
  codes := by
    rw [hsys, hcodes]
    exact h.codes
  records x g hg := by
    obtain ⟨g', hg', huser, hcode⟩ := hbadge x g hg
    rw [huser, hcode, hsys]
    exact h.records x g' hg'

/-- A change of one badge that leaves user and code. -/
theorem Acquainted.rewrite (h : b.Acquainted) {b' : Books} (hties : b'.ties = b.ties)
    (hsys : b'.sys = b.sys) (hcodes : b'.codeIndex = b.codeIndex) {x : ConnId}
    {f : Badge → Badge} (hf : ∀ g, (f g).userId = g.userId ∧ (f g).friendCode = g.friendCode)
    (hb : ∀ y, b'.badge y = if y = x then (b.badge y).map f else b.badge y) :
    b'.Acquainted := by
  refine h.of_badge hties hsys hcodes fun y g hg => ?_
  obtain ⟨g', hg', rfl | rfl⟩ := badge_rewritten hb hg
  · exact ⟨g', hg', hf g'⟩
  · exact ⟨_, hg', rfl, rfl⟩

theorem Acquainted.charge (h : b.Acquainted) (env : Env) (x : ConnId) :
    (b.charge env x).Acquainted :=
  h.rewrite rfl rfl rfl (f := fun g => { g with messages := (g.enroll b.sys env).1 })
    (fun _ => ⟨rfl, rfl⟩) (badge_charge b env x)

theorem Acquainted.park (h : b.Acquainted) (x : ConnId) (t : Instant) :
    (b.park x t).Acquainted :=
  h.rewrite rfl rfl rfl (x := x) (f := fun g => { g with wsHoldUntil := some t })
    (fun _ => ⟨rfl, rfl⟩) fun _ => rfl

theorem Acquainted.unpark (h : b.Acquainted) (x : ConnId) : (b.unpark x).Acquainted :=
  h.rewrite rfl rfl rfl (f := fun g => { g with wsHoldUntil := none })
    (fun _ => ⟨rfl, rfl⟩) (badge_unpark b x)

theorem Acquainted.report (h : b.Acquainted) (x : ConnId) (ts : List Instant) :
    (b.report x ts).Acquainted :=
  h.rewrite rfl rfl rfl (x := x) (f := fun g => { g with reports := ts })
    (fun _ => ⟨rfl, rfl⟩) fun _ => rfl

/-- A connection begins under its uuid and that one's code. -/
theorem Acquainted.enroll (h : b.Acquainted) {x : ConnId} (hx : b.sys.uuidText x ≠ "") :
    (b.enroll x).Acquainted where
  ties := h.ties
  codes := h.codes
  records y g hg := by
    unfold Books.enroll at hg
    dsimp only at hg
    split at hg
    · cases hg
      exact ⟨rfl, hx⟩
    · exact h.records y g hg

/-- A `Hello` files the code of its user. -/
theorem Acquainted.identify (h : b.Acquainted) (x : ConnId) {user : UserId} (huser : user ≠ "") :
    (b.identify x user).Acquainted where
  ties := h.ties
  codes code u hu := by
    unfold Books.identify at hu ⊢
    dsimp only at hu ⊢
    rw [Table.get?_set] at hu
    split at hu
    · next hcode =>
      cases hu
      exact ⟨hcode, huser⟩
    · have kept : ∀ {t : Table String UserId} {p : String → UserId → Bool},
          (t.retain p).get? code = some u → t.get? code = some u := by
        intro t p hp
        rw [Table.get?_retain] at hp
        exact (Option.filter_eq_some_iff.mp hp).1
      unfold SimpleHub.keepCodes onSome at hu
      dsimp only at hu
      split at hu
      · exact h.codes code u (kept (kept hu))
      · exact h.codes code u (kept hu)
  records y g hg := by
    unfold Books.identify Books.renamed at hg
    dsimp only at hg
    split at hg
    · obtain ⟨g', -, rfl⟩ := Option.map_eq_some_iff.mp hg
      exact ⟨rfl, huser⟩
    · exact h.records y g hg

end Books

namespace SimpleHub

variable {h h' : SimpleHub} {env : Env}

-- ====================================================================== one event

theorem helloUserId_ne (hsys : ∀ x, h.sys.uuidText x ≠ "") (x : ConnId) (raw : String) :
    h.helloUserId x raw ≠ "" := by
  unfold helloUserId
  split
  · exact hsys x
  · next hne =>
    intro h0
    have hlist := congrArg String.toList h0
    unfold Text.takeChars at hlist
    rw [String.toList_ofList] at hlist
    have hnil : (Text.trim raw).toList = [] := by
      cases hl : (Text.trim raw).toList with
      | nil => rfl
      | cons c l =>
          rw [hl] at hlist
          cases hlist
    exact hne (String.toList_inj.mp hnil)

/-- Order is kept by all that is no frame on the graph and no report. -/
theorem kept_acquainted {sys : Sys} (hsys : ∀ x, sys.uuidText x ≠ "") :
    Books.Kept env fun b => b.Acquainted ∧ b.sys = sys where
  erase _ x h := ⟨h.1.erase x, h.2⟩
  park _ x t h := ⟨h.1.park x t, h.2⟩
  unpark _ x h := ⟨h.1.unpark x, h.2⟩
  charge _ x h := ⟨h.1.charge env x, h.2⟩
  identify b k x raw hk h := by
    have hnamed : ∀ y, k.sys.uuidText y ≠ "" := by
      rw [← hk, h.2]
      exact hsys
    exact ⟨h.1.identify x (helloUserId_ne hnamed x raw), h.2⟩

theorem acquainted_of_books {b : Books} (hA : b.Acquainted) (hsys : b.sys = h.sys)
    (hb : h'.books = b) : h'.books.Acquainted ∧ h'.sys = h.sys :=
  ⟨by rw [hb]; exact hA, (congrArg Books.sys hb).trans hsys⟩

/-- The frames on the graph, and a report. -/
theorem acquainted_dispatch {n : Nat} (hA : h.books.Acquainted) (hn : h.expired env = ∅)
    {x : ConnId} {msg : ClientMsg} (hk : msg.keepsBooks = false) (hm : ∀ m, msg ≠ .hello m)
    (hd : h.dispatch env (tryMatch env (n + 1)) x msg = some h') :
    h'.books.Acquainted ∧ h'.sys = h.sys := by
  have hrecord : ∀ c, h.get x = some c → c.friendCode = h.sys.friendCodeFor c.userId
      ∧ c.userId ≠ "" := fun c hc => hA.records x c.badge (by simp [books, hc])
  have hgraph : h'.SameBadges h → h'.codeIndex = h.codeIndex → h'.ties.Sound →
      h'.books.Acquainted ∧ h'.sys = h.sys := by
    intro hsame hcodes hties
    refine ⟨⟨hties, ?_, fun y g hg => ?_⟩, hsame.sys⟩
    · change Coded h'.sys h'.codeIndex
      rw [hsame.sys, hcodes]
      exact hA.codes
    · rw [hsame.badge] at hg
      change _ = h'.sys.friendCodeFor _ ∧ _
      rw [hsame.sys]
      exact hA.records y g hg
  have hcode := fun raw => @codeIndex_friendGraph h x raw
  cases msg with
  | hello m => exact absurd rfl (hm m)
  | addFriend code =>
      cases hd
      exact hgraph (sameBadges_handleAddFriend x code) (hcode code).1
        (sound_handleAddFriend hA.ties hA.codes hrecord code)
  | acceptFriend user =>
      cases hd
      exact hgraph (sameBadges_handleAcceptFriend x user) (hcode user).2.1
        (sound_handleAcceptFriend hA.ties x user)
  | declineFriend user =>
      cases hd
      exact hgraph (sameBadges_friendGraph x user).1 (hcode user).2.2.1
        (sound_handleDeclineFriend hA.ties x user)
  | removeFriend user =>
      cases hd
      exact hgraph (sameBadges_friendGraph x user).2.1 (hcode user).2.2.2.1
        (sound_handleRemoveFriend hA.ties x user)
  | blockUser target =>
      have hsame : h'.SameBadges h := by
        obtain ⟨k, hk, hsame⟩ := handleBlockUser_returns (settles_tryMatch n) hn x target
        cases hd.symm.trans hk
        exact hsame
      change h.handleBlockUser env (tryMatch env (n + 1)) x target = some h' at hd
      unfold handleBlockUser at hd
      split at hd
      · cases hd
        exact ⟨hA, rfl⟩
      · next user _ =>
        split at hd
        · cases hd
          exact ⟨hA, rfl⟩
        next c _ =>
        split at hd
        · cases hd
          exact ⟨hA, rfl⟩
        · -- the graph is cut before the session ends
          let cut : SimpleHub := { h.dropFriendship c.userId user with
            blocks := insert (c.userId, user) (h.dropFriendship c.userId user).blocks }
          have hncut : cut.expired env = ∅ := hn
          obtain ⟨k, hk, hb⟩ := blockPart_returns (settles_tryMatch n) hncut x user
          obtain ⟨k', hk', hd⟩ := Option.bind_eq_some_iff.mp hd
          cases hk.symm.trans hk'
          cases hd
          have hcut : cut.ties.Sound := hA.ties.block c.userId user
          refine hgraph hsame ?_ ?_
          · rw [codeIndex_status]
            exact congrArg Books.codeIndex hb
          · rw [ties_status, ties_of_books hb]
            exact hcut
  | reportUser target reason =>
      cases hd
      exact acquainted_of_books (hA.report x _) rfl (books_handleReportUser ..)
  | unblockUser user =>
      cases hd
      exact hgraph (sameBadges_friendGraph x user).2.2 (hcode user).2.2.2.2
        (sound_handleUnblockUser hA.ties x user)
  | _ => cases hk

/-- **Step**: every event keeps the friend graph in order. -/
theorem acquainted_step {n : Nat} {e : Event} (hsys : ∀ x, h.sys.uuidText x ≠ "")
    (hA : h.books.Acquainted) (hs : h.step env n e = some h') :
    h'.books.Acquainted ∧ h'.sys = h.sys := by
  have hQ := @kept_acquainted env _ hsys
  by_cases hframe : ∃ x msg, e = .frame x msg
  · obtain ⟨x, msg, rfl⟩ := hframe
    obtain ⟨r, go, -, hn, -, ⟨hAr, hsysr⟩, hcase⟩ := frame_keeps hQ ⟨hA, rfl⟩ hs
    rcases hcase with ⟨-, rfl⟩ | ⟨-, hd⟩
    · exact ⟨hAr, hsysr⟩
    by_cases hk : msg.keepsBooks = true ∨ ∃ m, msg = .hello m
    · exact dispatch_keeps hQ ⟨hAr, hsysr⟩ hn hk hd
    · push Not at hk
      obtain ⟨hA', hsys'⟩ :=
        acquainted_dispatch hAr hn (Bool.eq_false_iff.mpr hk.1) hk.2 hd
      exact ⟨hA', hsys'.trans hsysr⟩
  · refine step_keeps hQ ⟨hA, rfl⟩ (fun x _ b _ hb => ⟨hb.1.enroll ?_, hb.2⟩)
      (fun x msg he => hframe ⟨x, msg, he⟩) hs
    rw [hb.2]
    exact hsys x

-- ============================================================================ runs

theorem acquainted_load {sys : Sys} {f : FriendsFile} (hf : f.Sound sys) :
    (load sys f).books.Acquainted where
  ties := hf.ties
  codes := hf.codes
  records x g hg := by
    have hnone : (load sys f).books.badge x = none := by
      change ((∅ : Table ConnId Client).get? x).map Client.badge = none
      rw [Table.get?_empty]
      rfl
    rw [hnone] at hg
    cases hg

theorem acquainted_reach {sys : Sys} (hsys : ∀ x, sys.uuidText x ≠ "") {w : World}
    (h : (friendsMachine sys).Reach w) : w.hub.books.Acquainted ∧ w.hub.sys = sys := by
  refine h.invariant (I := fun w => w.hub.books.Acquainted ∧ w.hub.sys = sys) ?_ ?_
  · rintro w ⟨f, hf, rfl⟩
    exact ⟨acquainted_load hf, rfl⟩
  · rintro w i w' - ⟨hA, hw⟩ hstep
    cases i with
    | some i =>
        obtain ⟨-, n, hub, hs, rfl⟩ := hstep
        obtain ⟨hA', hsys'⟩ := acquainted_step (by rwa [hw]) hA hs
        exact ⟨hA', hsys'.trans hw⟩
    | none =>
        cases hstep
        refine ⟨acquainted_load ⟨hA.ties, ?_⟩, rfl⟩
        rw [← hw]
        exact hA.codes

/-- **Friend graph**: through any run from a friends file in order, friends are
two and friends of each other, a request is to somebody else who is no friend,
and over a block there is neither, in either direction. -/
theorem friend_graph_sound {sys : Sys} (hsys : ∀ x, sys.uuidText x ≠ "") {w : World}
    (h : (friendsMachine sys).Reach w) :
    (∀ a b, (a, b) ∈ w.hub.friendships → a ≠ b ∧ (b, a) ∈ w.hub.friendships)
    ∧ (∀ a b, (a, b) ∈ w.hub.pending →
      a ≠ b ∧ (a, b) ∉ w.hub.friendships ∧ (b, a) ∉ w.hub.friendships)
    ∧ ∀ a b, (a, b) ∈ w.hub.blocks →
      (a, b) ∉ w.hub.friendships ∧ (b, a) ∉ w.hub.friendships
        ∧ (a, b) ∉ w.hub.pending ∧ (b, a) ∉ w.hub.pending := by
  have hs : w.hub.ties.Sound := (acquainted_reach hsys h).1.ties
  refine ⟨fun a b hab => ⟨?_, hs.symm a b hab⟩, fun a b hab => ?_, fun a b hab => ?_⟩
  · rintro rfl
    exact hs.irrefl a hab
  · exact ⟨hs.requests_ne a b hab, hs.requests_apart a b hab,
      fun hba => hs.requests_apart a b hab (hs.symm b a hba)⟩
  · have hfriends := hs.blocks_friends a b hab
    exact ⟨hfriends, fun hba => hfriends (hs.symm b a hba), hs.blocks_requests a b hab⟩

theorem friendsMachine_of_hub {sys : Sys} {w : World} (h : (hubMachine sys).Reach w) :
    (friendsMachine sys).Reach w := by
  induction h with
  | start hw =>
      cases hw
      refine .start ⟨.empty, ⟨Ties.Sound.empty, fun code user hu => ?_⟩, rfl⟩
      have hnone : (∅ : Table String UserId).get? code = none := Table.get?_empty code
      cases hu.symm.trans hnone
  | @step w w' i _ hs ih => exact .step (l := some i) ih hs

/-- The first asks the second, who accepts. -/
def twoFriends : List Input := script
  [(0, .connect 1 "ip1"), (0, .connect 2 "ip2"),
    (1, .frame 1 (.hello ⟨"1", "", "", "", [], false, ""⟩)),
    (1, .frame 2 (.hello ⟨"2", "", "", "", [], false, ""⟩)), (2, .frame 1 (.addFriend "c-2")),
    (3, .frame 2 (.acceptFriend "1"))]

theorem friend_graph_sound_accepted : ∃ w, (friendsMachine plainSys).Reach w
    ∧ ("1", "2") ∈ w.hub.friendships ∧ ("2", "1") ∈ w.hub.friendships := by
  obtain ⟨w, hw, hp⟩ := @reach_of_replay plainSys 2 twoFriends
    (fun w => decide (("1", "2") ∈ w.hub.friendships)) (by decide +kernel)
  have hreach := friendsMachine_of_hub hw
  have hfriends := of_decide_eq_true hp
  have hnamed : ∀ x, plainSys.uuidText x ≠ "" := fun x h0 => by
    have := congrArg String.length h0
    change ("u" ++ toString x).length = 0 at this
    rw [String.length_append] at this
    exact absurd this (by simp)
  exact ⟨w, hreach, hfriends, ((friend_graph_sound hnamed hreach).1 _ _ hfriends).2⟩

end SimpleHub

end Ruletka
