/-
Who offers to whom when a session starts.

The role is computed for each direction on its own, from the platforms, the
waiting times and the peer ids. It is antisymmetric, so each pair that a
start shows to each other has one offerer; but a 1v2 overwrites the roles
and leaves its two mates without one, since they are taken for connected.
-/
import Ruletka.Hub.Proofs.Relay

namespace Ruletka

-- ==================================================================== the role

/-- Of two clients with different peer ids exactly one offers. -/
theorem iAmOfferer_ne {a b : Client} (hp : a.peerId ≠ b.peerId) :
    iAmOfferer a b ≠ iAmOfferer b a := by
  have hid : decide (a.peerId < b.peerId) ≠ decide (b.peerId < a.peerId) := by
    rcases lt_or_gt_of_ne hp with hlt | hlt
    · rw [decide_eq_true hlt, decide_eq_false (not_lt_of_gt hlt)]
      decide
    · rw [decide_eq_true hlt, decide_eq_false (not_lt_of_gt hlt)]
      decide
  have hweb : ∀ {p : String}, p = "web" → isMobilePlatform p = false := by
    rintro p rfl
    decide
  have htimes : ∀ {s t : Nat}, s ≠ t → decide (s ≤ t) ≠ decide (t ≤ s) := by
    intro s t hst
    rcases Nat.lt_or_gt_of_ne hst with hlt | hlt
    · rw [decide_eq_true hlt.le, decide_eq_false (not_le_of_gt hlt)]
      decide
    · rw [decide_eq_true hlt.le, decide_eq_false (not_le_of_gt hlt)]
      decide
  unfold iAmOfferer
  by_cases ha : a.platform = "web" ∧ isMobilePlatform b.platform = true
  · have hb : b.platform ≠ "web" := by
      intro hb
      rw [hweb hb] at ha
      cases ha.2
    simp [ha.1, ha.2, hb]
  by_cases hb : b.platform = "web" ∧ isMobilePlatform a.platform = true
  · have ha' : a.platform ≠ "web" := by
      intro ha'
      rw [hweb ha'] at hb
      cases hb.2
    simp [hb.1, hb.2, ha']
  · have h₁ : (decide (a.platform = "web") && isMobilePlatform b.platform) = false := by
      rw [← Bool.not_eq_true, Bool.and_eq_true, decide_eq_true_eq]
      exact ha
    have h₂ : (decide (b.platform = "web") && isMobilePlatform a.platform) = false := by
      rw [← Bool.not_eq_true, Bool.and_eq_true, decide_eq_true_eq]
      exact hb
    rw [h₁, h₂, Bool.and_comm (isMobilePlatform a.platform), Bool.and_comm (isMobilePlatform
      b.platform), h₁, h₂]
    simp only [Bool.false_eq_true, if_false]
    cases a.waitStarted with
    | none =>
      cases b.waitStarted with
      | none => exact hid
      | some t => exact Bool.false_ne_true
    | some s =>
      cases b.waitStarted with
      | none => exact Bool.false_ne_true.symm
      | some t =>
        dsimp only
        by_cases hst : s = t
        · rw [if_neg (not_not.mpr hst), if_neg (not_not.mpr hst.symm)]
          exact hid
        · rw [if_pos hst, if_pos (Ne.symm hst)]
          exact htimes hst

-- ============================================================ the session starts

/-- The starts of a session. -/
inductive SessionStart where
  | soloMatch (a b : ConnId)
  | friendSession (a b : ConnId)
  | partyVsSolo (solo a b : ConnId)
  | partyVsParty (a1 a2 b1 b2 : ConnId)
  | threePersonJoin (a b c : ConnId)
  | fourPersonJoin (a b c d : ConnId)
  deriving DecidableEq, Repr

namespace SessionStart

/-- The call. -/
def run (h : SimpleHub) (env : Env) : SessionStart → SimpleHub
  | .soloMatch a b => h.startSoloMatch env a b
  | .friendSession a b => h.startFriendSession env a b
  | .partyVsSolo solo a b => h.startPartyVsSolo env solo a b
  | .partyVsParty a1 a2 b1 b2 => h.startPartyVsParty env a1 a2 b1 b2
  | .threePersonJoin a b c => h.startThreePersonJoin env a b c
  | .fourPersonJoin a b c d => h.startFourPersonJoin env a b c d

def members : SessionStart → List ConnId
  | .soloMatch a b | .friendSession a b => [a, b]
  | .partyVsSolo a b c | .threePersonJoin a b c => [a, b, c]
  | .partyVsParty a b c d | .fourPersonJoin a b c d => [a, b, c, d]

/-- The `Matched` messages of the call. -/
def news (h : SimpleHub) (env : Env) (st : SessionStart) : List (ConnId × MatchedMsg) :=
  (st.run h env).posts.shown.drop h.posts.shown.length

end SessionStart

/-- The messages list, for this recipient, this peer id with this role. -/
def Sees (ms : List (ConnId × MatchedMsg)) (x : ConnId) (pid : String) (offers : Bool) : Prop :=
  ∃ s ∈ ms, s.1 = x ∧ ∃ q ∈ s.2.peers, q.peerId = pid ∧ q.isOfferer = offers

instance (ms : List (ConnId × MatchedMsg)) (x : ConnId) (pid : String) (offers : Bool) :
    Decidable (Sees ms x pid offers) :=
  inferInstanceAs (Decidable (∃ s ∈ ms, _))

namespace SimpleHub

variable {h k : SimpleHub} {env : Env}

/-- The latest `Matched` a connection was shown. -/
def lastShown (h : SimpleHub) (x : ConnId) : Option MatchedMsg :=
  ((h.posts.shown.filter (·.1 = x)).getLast?).map (·.2)

/-- One has the other as a peer, and its latest `Matched` lists it. -/
def HasLink (h : SimpleHub) (x y : ConnId) : Prop :=
  y ∈ h.peersOf x ∧ ((h.lastShown x).any fun m => m.peers.any (·.peerId = h.peerIdOf y)) = true

instance (h : SimpleHub) (x y : ConnId) : Decidable (h.HasLink x y) :=
  inferInstanceAs (Decidable (_ ∧ _))

/-- Two connections are connected already. -/
def Linked (h : SimpleHub) (x y : ConnId) : Prop := h.HasLink x y ∧ h.HasLink y x

instance (h : SimpleHub) (x y : ConnId) : Decidable (h.Linked x y) :=
  inferInstanceAs (Decidable (_ ∧ _))

theorem Linked.symm {x y : ConnId} (hl : h.Linked x y) : h.Linked y x := ⟨hl.2, hl.1⟩

/-- Unless nothing is sent the two are shown to each other, and whatever
roles they are shown in, one offers and the other does not. -/
def OneOfferer (h : SimpleHub) (ms : List (ConnId × MatchedMsg)) (x y : ConnId) : Prop :=
  (ms ≠ [] → (∃ b, Sees ms x (h.peerIdOf y) b) ∧ ∃ c, Sees ms y (h.peerIdOf x) c)
    ∧ ∀ b c, Sees ms x (h.peerIdOf y) b → Sees ms y (h.peerIdOf x) c → b ≠ c

/-- No two of the members that are there have one peer id. -/
def DistinctPeerIds (h : SimpleHub) (members : List ConnId) : Prop :=
  ∀ x ∈ members, ∀ y ∈ members, h.has x = true → h.has y = true →
    h.peerIdOf x = h.peerIdOf y → x = y

instance (h : SimpleHub) (members : List ConnId) : Decidable (h.DistinctPeerIds members) :=
  inferInstanceAs (Decidable (∀ x ∈ members, _))

/-- Messages that show each member all others, with roles computed on one
hub that has the peer ids of `h`. -/
structure Plainly (h k : SimpleHub) (members : List ConnId) (ms : List (ConnId × MatchedMsg)) :
    Prop where
  ids : ∀ x, k.peerIdOf x = h.peerIdOf x
  there : ∀ x, k.has x = h.has x
  shown : ∀ s ∈ ms, s.1 ∈ members ∧ ∃ others : List (ConnId × String),
    (∀ o ∈ others, o.1 ∈ members) ∧ (∀ y ∈ members, y ≠ s.1 → y ∈ others.map (·.1))
      ∧ s.2.peers = k.matchPeers s.1 others
  told : ms ≠ [] → ∀ x ∈ members, x ∈ ms.map (·.1)

/-- A listed peer is the record of a member that is there. -/
theorem mem_matchPeers {x : ConnId} {others : List (ConnId × String)} {q : MatchPeer}
    (hq : q ∈ k.matchPeers x others) :
    ∃ cx, k.get x = some cx ∧ ∃ o ∈ others, ∃ co, k.get o.1 = some co
      ∧ q = matchPeer cx co o.2 := by
  unfold matchPeers at hq
  split at hq
  · cases hq
  next cx hcx =>
  obtain ⟨o, ho, hpeer⟩ := List.mem_filterMap.mp hq
  obtain ⟨co, hco, rfl⟩ := Option.map_eq_some_iff.mp hpeer
  exact ⟨cx, hcx, o, ho, co, hco, rfl⟩

/-- A member that is there is listed. -/
theorem exists_matchPeers {x y : ConnId} {role : String} {others : List (ConnId × String)}
    (hx : k.has x = true) (hy : k.has y = true) (ho : (y, role) ∈ others) :
    ∃ cx cy, k.get x = some cx ∧ k.get y = some cy
      ∧ matchPeer cx cy role ∈ k.matchPeers x others := by
  obtain ⟨cx, hcx⟩ := has_iff.mp hx
  obtain ⟨cy, hcy⟩ := has_iff.mp hy
  refine ⟨cx, cy, hcx, hcy, ?_⟩
  unfold matchPeers
  rw [hcx]
  refine List.mem_filterMap.mpr ⟨(y, role), ho, ?_⟩
  show (k.get y).map _ = _
  rw [hcy]
  rfl

theorem peerIdOf_of_get {x : ConnId} {c : Client} (hc : k.get x = some c) :
    k.peerIdOf x = c.peerId := by
  unfold peerIdOf
  rw [hc]
  rfl

/-- A member that is shown another is shown the role the two records give. -/
theorem Plainly.role {members : List ConnId} {ms : List (ConnId × MatchedMsg)}
    (hm : Plainly h k members ms) (hd : h.DistinctPeerIds members) {x y : ConnId} {b : Bool}
    (hy : y ∈ members) (hyh : h.has y = true) (hs : Sees ms x (h.peerIdOf y) b) :
    ∃ cx cy, k.get x = some cx ∧ k.get y = some cy ∧ b = iAmOfferer cx cy := by
  obtain ⟨s, hs, rfl, q, hq, hpid, rfl⟩ := hs
  obtain ⟨-, others, ho, -, hpeers⟩ := hm.shown s hs
  rw [hpeers] at hq
  obtain ⟨cx, hcx, o, hmem, co, hco, rfl⟩ := mem_matchPeers hq
  have hoy : o.1 = y := by
    refine hd _ (ho o hmem) y hy ?_ hyh ?_
    · rw [← hm.there]
      exact has_iff.mpr ⟨co, hco⟩
    · rw [← hm.ids, peerIdOf_of_get hco]
      exact hpid
  rw [hoy] at hco
  exact ⟨cx, co, hcx, hco, rfl⟩

/-- A member that is there is shown every other one. -/
theorem Plainly.sees {members : List ConnId} {ms : List (ConnId × MatchedMsg)}
    (hm : Plainly h k members ms) (hms : ms ≠ []) {x y : ConnId} (hx : x ∈ members)
    (hy : y ∈ members) (hxh : h.has x = true) (hyh : h.has y = true) (hne : x ≠ y) :
    ∃ b, Sees ms x (h.peerIdOf y) b := by
  obtain ⟨s, hs, rfl⟩ := List.mem_map.mp (hm.told hms x hx)
  obtain ⟨-, others, -, hall, hpeers⟩ := hm.shown s hs
  obtain ⟨⟨y, role⟩, ho, rfl⟩ := List.mem_map.mp (hall y hy hne.symm)
  rw [← hm.there] at hxh hyh
  obtain ⟨cx, cy, -, hcy, hmem⟩ := exists_matchPeers hxh hyh ho
  refine ⟨_, s, hs, rfl, _, hpeers ▸ hmem, ?_, rfl⟩
  rw [← hm.ids, peerIdOf_of_get hcy]
  rfl

theorem Plainly.oneOfferer {members : List ConnId} {ms : List (ConnId × MatchedMsg)}
    (hm : Plainly h k members ms) (hd : h.DistinctPeerIds members) {x y : ConnId}
    (hx : x ∈ members) (hy : y ∈ members) (hxh : h.has x = true) (hyh : h.has y = true)
    (hne : x ≠ y) : h.OneOfferer ms x y := by
  refine ⟨fun hms => ⟨hm.sees hms hx hy hxh hyh hne, hm.sees hms hy hx hyh hxh hne.symm⟩, ?_⟩
  intro b c hb hc
  obtain ⟨cx, cy, hcx, hcy, rfl⟩ := hm.role hd hy hyh hb
  obtain ⟨cy', cx', hcy', hcx', rfl⟩ := hm.role hd hx hxh hc
  rw [hcy] at hcy'
  rw [hcx] at hcx'
  cases hcy'
  cases hcx'
  refine iAmOfferer_ne fun hpid => hne (hd x hx y hy hxh hyh ?_)
  rw [← hm.ids x, ← hm.ids y, peerIdOf_of_get hcx, peerIdOf_of_get hcy, hpid]

-- ============================================================== the plain starts

@[simp]
theorem peerIdOf_modify (x : ConnId) (f : Client → Client) (hf : ∀ c, (f c).peerId = c.peerId)
    (y : ConnId) : (h.modify x f).peerIdOf y = h.peerIdOf y := by
  unfold peerIdOf
  rw [get_modify]
  split
  · cases h.get y with
    | none => rfl
    | some c => exact congrArg (fun o => Option.getD o "") (congrArg some (hf c))
  · rfl

@[simp]
theorem peerIdOf_dequeueClient (x y : ConnId) :
    (h.dequeueClient x).peerIdOf y = h.peerIdOf y := rfl

@[simp]
theorem joinTrio_peerId (c : Client) (sid : SessionId) (same : Bool)
    (peers : List ConnId) (party : Option ConnId) (last : ConnId) :
    (c.joinTrio env sid same peers party last).peerId = c.peerId := by
  cases same
  · rfl
  · rfl

theorem plainly_nothing {members : List ConnId} : Plainly h h members [] :=
  ⟨fun _ => rfl, fun _ => rfl, fun _ hs => absurd hs List.not_mem_nil, fun h => absurd rfl h⟩

theorem plainly_soloMatch (a b : ConnId) :
    ∃ k, Plainly h k [a, b] ((SessionStart.soloMatch a b).news h env) := by
  have hrun : (SessionStart.soloMatch a b).run h env = h.startSoloMatch env a b := rfl
  unfold startSoloMatch at hrun
  split at hrun
  · refine ⟨h, ?_⟩
    rw [SessionStart.news, hrun, List.drop_length]
    exact plainly_nothing
  split at hrun
  · refine ⟨h, ?_⟩
    rw [SessionStart.news, hrun, List.drop_length]
    exact plainly_nothing
  dsimp only at hrun
  generalize hk : ((h.dequeueClient a).dequeueClient b).linkSolo env _ a b = k at hrun
  have hp : k.posts = h.posts := by rw [← hk]; simp
  have hb : k.books = h.books := by rw [← hk]; simp
  have hids : ∀ x, k.peerIdOf x = h.peerIdOf x := fun x => by rw [← hk]; simp [linkSolo]
  rw [SessionStart.news, hrun, posts_broadcastLobbyInfo, posts_emit_partnerGeo, posts_emit, hp,
    List.drop_left]
  refine ⟨k, hids, has_congr hb, fun s hs => ?_, fun _ x hx => ?_⟩
  · rcases List.mem_pair.mp hs with rfl | rfl
    · exact ⟨by simp, [(b, "stranger")], by simp, by simp, rfl⟩
    · exact ⟨by simp, [(a, "stranger")], by simp, by simp, rfl⟩
  · simpa [soloMatchedMsgs, matchedIn, ServerMsg.asMatched] using hx

theorem plainly_friendSession (a b : ConnId) :
    ∃ k, Plainly h k [a, b] ((SessionStart.friendSession a b).news h env) := by
  have hrun : (SessionStart.friendSession a b).run h env = h.startFriendSession env a b := rfl
  unfold startFriendSession at hrun
  dsimp only at hrun
  generalize hk : h.linkFriends env _ a b = k at hrun
  have hp : k.posts = h.posts := by rw [← hk]; simp [linkFriends]
  have hb : k.books = h.books := by rw [← hk]; simp [linkFriends]
  have hids : ∀ x, k.peerIdOf x = h.peerIdOf x := fun x => by rw [← hk]; simp [linkFriends]
  rw [SessionStart.news, hrun, posts_emit, hp, List.drop_left]
  refine ⟨k, hids, has_congr hb, fun s hs => ?_, fun _ x hx => ?_⟩
  · rcases List.mem_pair.mp hs with rfl | rfl
    · exact ⟨by simp, [(b, "friend")], by simp, by simp, rfl⟩
    · exact ⟨by simp, [(a, "friend")], by simp, by simp, rfl⟩
  · simpa [matchedIn, ServerMsg.asMatched] using hx

theorem plainly_partyVsParty (a1 a2 b1 b2 : ConnId) :
    ∃ k, Plainly h k [a1, a2, b1, b2] ((SessionStart.partyVsParty a1 a2 b1 b2).news h env) := by
  have hrun : (SessionStart.partyVsParty a1 a2 b1 b2).run h env
      = h.startPartyVsParty env a1 a2 b1 b2 := rfl
  unfold startPartyVsParty at hrun
  dsimp only at hrun
  generalize hk : h.linkPartyVsParty env _ a1 a2 b1 b2 = k at hrun
  have hp : k.posts = h.posts := by
    rw [← hk]; simp [linkPartyVsParty, Client.setMatched, Client.clearSdp]
  have hb : k.books = h.books := by
    rw [← hk]; simp [linkPartyVsParty, Client.setMatched, Client.clearSdp]
  have hids : ∀ x, k.peerIdOf x = h.peerIdOf x := fun x => by
    rw [← hk]; simp [linkPartyVsParty, Client.setMatched, Client.clearSdp]
  rw [SessionStart.news, hrun, posts_broadcastLobbyInfo, posts_emit, hp, List.drop_left]
  refine ⟨k, hids, has_congr hb, fun s hs => ?_, fun _ x hx => ?_⟩
  · simp only [matchedIn, List.filterMap_cons, List.filterMap_nil, ServerMsg.asMatched,
      Option.map_some, List.mem_cons, List.not_mem_nil, or_false] at hs
    rcases hs with rfl | rfl | rfl | rfl
    · exact ⟨by simp, [(b1, "stranger"), (b2, "stranger"), (a2, k.mateRole a1 a2)], by simp,
        by simp, rfl⟩
    · exact ⟨by simp, [(b1, "stranger"), (b2, "stranger"), (a1, k.mateRole a2 a1)], by simp,
        by simp, rfl⟩
    · exact ⟨by simp, [(a1, "stranger"), (a2, "stranger"), (b2, k.mateRole b1 b2)], by simp,
        by simp, rfl⟩
    · exact ⟨by simp, [(a1, "stranger"), (a2, "stranger"), (b1, k.mateRole b2 b1)], by simp,
        by simp, rfl⟩
  · simpa [matchedIn, ServerMsg.asMatched] using hx

theorem plainly_threePersonJoin (a b c : ConnId) :
    ∃ k, Plainly h k [a, b, c] ((SessionStart.threePersonJoin a b c).news h env) := by
  have hrun : (SessionStart.threePersonJoin a b c).run h env
      = h.startThreePersonJoin env a b c := rfl
  unfold startThreePersonJoin at hrun
  dsimp only at hrun
  generalize hk : h.linkThree env _ a b c = k at hrun
  have hp : k.posts = h.posts := by
    rw [← hk]; simp [linkThree, Client.setMatched, Client.clearSdp]
  have hb : k.books = h.books := by
    rw [← hk]; simp [linkThree, Client.setMatched, Client.clearSdp]
  have hids : ∀ x, k.peerIdOf x = h.peerIdOf x := fun x => by
    rw [← hk]; simp [linkThree, Client.setMatched, Client.clearSdp]
  rw [SessionStart.news, hrun, posts_broadcastLobbyInfo, posts_status, posts_status, posts_status,
    posts_emit, hp, List.drop_left]
  refine ⟨k, hids, has_congr hb, fun s hs => ?_, fun _ x hx => ?_⟩
  · simp only [matchedIn, List.filterMap_cons, List.filterMap_nil, ServerMsg.asMatched,
      Option.map_some, List.mem_cons, List.not_mem_nil, or_false] at hs
    rcases hs with rfl | rfl | rfl
    · exact ⟨by simp, _, by simp, by simp, rfl⟩
    · exact ⟨by simp, _, by simp, by simp, rfl⟩
    · exact ⟨by simp, _, by simp, by simp, rfl⟩
  · simpa [matchedIn, ServerMsg.asMatched] using hx

theorem plainly_fourPersonJoin (a b c d : ConnId) :
    ∃ k, Plainly h k [a, b, c, d] ((SessionStart.fourPersonJoin a b c d).news h env) := by
  have hrun : (SessionStart.fourPersonJoin a b c d).run h env
      = h.startFourPersonJoin env a b c d := rfl
  unfold startFourPersonJoin at hrun
  split at hrun
  · refine ⟨h, ?_⟩
    rw [SessionStart.news, hrun, List.drop_length]
    exact plainly_nothing
  dsimp only at hrun
  generalize hk : h.linkFour env _ a b c d = k at hrun
  have hp : k.posts = h.posts := by
    rw [← hk]; simp [linkFour, Client.setMatched, Client.clearSdp]
  have hb : k.books = h.books := by
    rw [← hk]; simp [linkFour, Client.setMatched, Client.clearSdp]
  have hids : ∀ x, k.peerIdOf x = h.peerIdOf x := fun x => by
    rw [← hk]; simp [linkFour, Client.setMatched, Client.clearSdp]
  rw [SessionStart.news, hrun, posts_broadcastLobbyInfo, posts_status, posts_status, posts_status,
    posts_status, posts_emit, hp, List.drop_left]
  refine ⟨k, hids, has_congr hb, fun s hs => ?_, fun _ x hx => ?_⟩
  · simp only [matchedIn, List.filterMap_cons, List.filterMap_nil, ServerMsg.asMatched,
      Option.map_some, List.mem_cons, List.not_mem_nil, or_false] at hs
    rcases hs with rfl | rfl | rfl | rfl
    · exact ⟨by simp, _, by simp, by simp, rfl⟩
    · exact ⟨by simp, _, by simp, by simp, rfl⟩
    · exact ⟨by simp, _, by simp, by simp, rfl⟩
    · exact ⟨by simp, _, by simp, by simp, rfl⟩
  · simpa [matchedIn, ServerMsg.asMatched] using hx

-- ===================================================================== the 1v2

theorem mateRole_ne (x y : ConnId) : h.mateRole x y ≠ "stranger" := by
  unfold mateRole
  split
  · decide
  · decide

/-- A listed peer of a 1v2 is the record of a member that is there, and
offers only if it is shown as the stranger. -/
theorem mem_lock1v2 {x : ConnId} {others : List (ConnId × String)} {q : MatchPeer}
    (hq : q ∈ lock1v2OffererRole (k.matchPeers x others)) :
    ∃ o ∈ others, ∃ co, k.get o.1 = some co ∧ q.peerId = co.peerId
      ∧ q.isOfferer = decide (o.2 = "stranger") := by
  obtain ⟨q', hq', rfl⟩ := List.mem_map.mp hq
  obtain ⟨cx, -, o, ho, co, hco, rfl⟩ := mem_matchPeers hq'
  exact ⟨o, ho, co, hco, rfl, rfl⟩

/-- A member that is there is listed, with the role of the lock. -/
theorem exists_lock1v2 {x y : ConnId} {role : String} {others : List (ConnId × String)}
    (hx : k.has x = true) (hy : k.has y = true) (ho : (y, role) ∈ others) :
    ∃ q ∈ lock1v2OffererRole (k.matchPeers x others),
      q.peerId = k.peerIdOf y ∧ q.isOfferer = decide (role = "stranger") := by
  obtain ⟨cx, cy, -, hcy, hmem⟩ := exists_matchPeers hx hy ho
  refine ⟨_, List.mem_map.mpr ⟨_, hmem, rfl⟩, ?_, rfl⟩
  rw [peerIdOf_of_get hcy]
  rfl

/-- What a 1v2 shows: the pair offers to the third, nobody else offers. -/
theorem news_partyVsSolo (s a b : ConnId) :
    ∃ (k : SimpleHub) (ms ma mb : MatchedMsg),
      (∀ x, k.peerIdOf x = h.peerIdOf x) ∧ (∀ x, k.has x = h.has x)
      ∧ (SessionStart.partyVsSolo s a b).news h env = [(s, ms), (a, ma), (b, mb)]
      ∧ ms.peers = lock1v2OffererRole (k.matchPeers s [(a, "party"), (b, "party")])
      ∧ ma.peers = lock1v2OffererRole
        (k.matchPeers a [(s, "stranger"), (b, h.mateRole a b)])
      ∧ mb.peers = lock1v2OffererRole
        (k.matchPeers b [(s, "stranger"), (a, h.mateRole a b)]) := by
  have hrun : (SessionStart.partyVsSolo s a b).run h env = h.startPartyVsSolo env s a b := rfl
  unfold startPartyVsSolo at hrun
  dsimp only at hrun
  generalize hk : (((h.dequeueClient s).dequeueClient a).dequeueClient b).linkPartyVsSolo env
    _ s a b = k at hrun
  have hp : k.posts = h.posts := by rw [← hk]; simp
  have hb : k.books = h.books := by rw [← hk]; simp
  have hids : ∀ x, k.peerIdOf x = h.peerIdOf x := fun x => by
    rw [← hk]; simp [linkPartyVsSolo]
  refine ⟨k, ?_, ?_, ?_, hids, has_congr hb, ?_, ?_, ?_, ?_⟩
  rotate_left 3
  · rw [SessionStart.news, hrun, posts_broadcastLobbyInfo, posts_emit, hp, List.drop_left]
    rfl
  · rfl
  · rfl
  · rfl

/-- Whom a member of a 1v2 sees, and in which role. -/
theorem sees_partyVsSolo {s a b x y : ConnId} {offers : Bool}
    (hd : h.DistinctPeerIds [s, a, b]) (hy : y ∈ [s, a, b]) (hyh : h.has y = true)
    (hs : Sees ((SessionStart.partyVsSolo s a b).news h env) x (h.peerIdOf y) offers) :
    (offers = true ∧ y = s) ∨ (offers = false
      ∧ ((x = s ∧ (y = a ∨ y = b)) ∨ (x = a ∧ y = b) ∨ (x = b ∧ y = a))) := by
  obtain ⟨k, ms, ma, mb, hids, hthere, hnews, hms, hma, hmb⟩ :=
    @news_partyVsSolo h env s a b
  rw [hnews] at hs
  obtain ⟨p, hp, rfl, q, hq, hpid, rfl⟩ := hs
  have hwho : ∀ o : ConnId × String, o.1 ∈ [s, a, b] → ∀ co, k.get o.1 = some co →
      q.peerId = co.peerId → o.1 = y := by
    intro o ho co hco hqo
    refine hd _ ho y hy ?_ hyh ?_
    · rw [← hthere]
      exact has_iff.mpr ⟨co, hco⟩
    · rw [← hids, peerIdOf_of_get hco, ← hqo, hpid]
  have hmate : decide (h.mateRole a b = "stranger") = false := decide_eq_false (mateRole_ne a b)
  simp only [List.mem_cons, List.not_mem_nil, or_false] at hp
  rcases hp with rfl | rfl | rfl
  · rw [hms] at hq
    obtain ⟨o, ho, co, hco, hqo, hoff⟩ := mem_lock1v2 hq
    rcases List.mem_pair.mp ho with rfl | rfl
    · exact .inr ⟨hoff, .inl ⟨rfl, .inl (hwho _ (by simp) co hco hqo).symm⟩⟩
    · exact .inr ⟨hoff, .inl ⟨rfl, .inr (hwho _ (by simp) co hco hqo).symm⟩⟩
  · rw [hma] at hq
    obtain ⟨o, ho, co, hco, hqo, hoff⟩ := mem_lock1v2 hq
    rcases List.mem_pair.mp ho with rfl | rfl
    · exact .inl ⟨hoff, (hwho _ (by simp) co hco hqo).symm⟩
    · exact .inr ⟨hoff.trans hmate, .inr (.inl ⟨rfl, (hwho _ (by simp) co hco hqo).symm⟩)⟩
  · rw [hmb] at hq
    obtain ⟨o, ho, co, hco, hqo, hoff⟩ := mem_lock1v2 hq
    rcases List.mem_pair.mp ho with rfl | rfl
    · exact .inl ⟨hoff, (hwho _ (by simp) co hco hqo).symm⟩
    · exact .inr ⟨hoff.trans hmate, .inr (.inr ⟨rfl, (hwho _ (by simp) co hco hqo).symm⟩)⟩

/-- The members of a 1v2 that are there are shown each other. -/
theorem exists_sees_partyVsSolo {s a b x y : ConnId} (hx : x ∈ [s, a, b]) (hy : y ∈ [s, a, b])
    (hxh : h.has x = true) (hyh : h.has y = true) (hne : x ≠ y) :
    ∃ offers, Sees ((SessionStart.partyVsSolo s a b).news h env) x (h.peerIdOf y) offers := by
  obtain ⟨k, ms, ma, mb, hids, hthere, hnews, hms, hma, hmb⟩ :=
    @news_partyVsSolo h env s a b
  rw [← hthere] at hxh hyh
  have hshow : ∀ (m : MatchedMsg) (role : String) (others : List (ConnId × String)),
      (x, m) ∈ [(s, ms), (a, ma), (b, mb)] →
      m.peers = lock1v2OffererRole (k.matchPeers x others) → (y, role) ∈ others →
      ∃ offers, Sees ((SessionStart.partyVsSolo s a b).news h env) x (h.peerIdOf y) offers := by
    intro m role others hm hpeers ho
    obtain ⟨q, hq, hpid, -⟩ := exists_lock1v2 hxh hyh ho
    exact ⟨_, _, hnews ▸ hm, rfl, q, hpeers ▸ hq, hpid.trans (hids y), rfl⟩
  simp only [List.mem_cons, List.not_mem_nil, or_false] at hx hy
  rcases hx with rfl | rfl | rfl
  · rcases hy with rfl | rfl | rfl
    · exact absurd rfl hne
    · exact hshow ms "party" _ (by simp) hms (by simp)
    · exact hshow ms "party" _ (by simp) hms (by simp)
  · rcases hy with rfl | rfl | rfl
    · exact hshow ma "stranger" _ (by simp) hma (by simp)
    · exact absurd rfl hne
    · exact hshow ma (h.mateRole x y) _ (by simp) hma (by simp)
  · rcases hy with rfl | rfl | rfl
    · exact hshow mb "stranger" _ (by simp) hmb (by simp)
    · exact hshow mb (h.mateRole y x) _ (by simp) hmb (by simp)
    · exact absurd rfl hne

/-- In a 1v2 everybody has one offerer with each other, the mates apart. -/
theorem partyVsSolo_oneOfferer {s a b x y : ConnId} (hd : h.DistinctPeerIds [s, a, b])
    (hx : x ∈ [s, a, b]) (hy : y ∈ [s, a, b]) (hxh : h.has x = true) (hyh : h.has y = true)
    (hne : x ≠ y) (hmates : ¬ (x = a ∧ y = b)) (hmates' : ¬ (x = b ∧ y = a)) :
    h.OneOfferer ((SessionStart.partyVsSolo s a b).news h env) x y := by
  refine ⟨fun _ => ⟨exists_sees_partyVsSolo hx hy hxh hyh hne,
    exists_sees_partyVsSolo hy hx hyh hxh hne.symm⟩, ?_⟩
  intro c d hc hd'
  have hxy := sees_partyVsSolo hd hy hyh hc
  have hyx := sees_partyVsSolo hd hx hxh hd'
  rcases hxy with ⟨rfl, rfl⟩ | ⟨rfl, hxy⟩
  · rcases hyx with ⟨rfl, rfl⟩ | ⟨rfl, -⟩
    · exact absurd rfl hne
    · exact Bool.false_ne_true.symm
  · rcases hyx with ⟨rfl, -⟩ | ⟨rfl, hyx⟩
    · exact Bool.false_ne_true
    -- nobody offers: one is the third, so it is one of the mates as well
    rcases hxy with ⟨rfl, hxy⟩ | hxy | hxy
    · rcases hyx with ⟨rfl, -⟩ | hyx | hyx
      · exact absurd rfl hne
      · exact absurd ⟨hyx.2, hyx.1⟩ hmates'
      · exact absurd ⟨hyx.2, hyx.1⟩ hmates
    · exact absurd hxy hmates
    · exact absurd hxy hmates'

/-- Nobody of the mates of a 1v2 offers to the other. -/
theorem mates_without_offerer {s a b : ConnId} (ha : h.has a = true) (hb : h.has b = true) :
    Sees ((SessionStart.partyVsSolo s a b).news h env) a (h.peerIdOf b) false
      ∧ Sees ((SessionStart.partyVsSolo s a b).news h env) b (h.peerIdOf a) false := by
  obtain ⟨k, ms, ma, mb, hids, hthere, hnews, -, hma, hmb⟩ :=
    @news_partyVsSolo h env s a b
  have hmate : decide (h.mateRole a b = "stranger") = false := decide_eq_false (mateRole_ne a b)
  rw [← hthere] at ha hb
  rw [hnews]
  constructor
  · obtain ⟨q, hq, hpid, hoff⟩ := @exists_lock1v2 k a b (h.mateRole a b)
      [(s, "stranger"), (b, h.mateRole a b)] ha hb (by simp)
    refine ⟨(a, ma), by simp, rfl, q, ?_, hpid.trans (hids b), hoff.trans hmate⟩
    rw [hma]
    exact hq
  · obtain ⟨q, hq, hpid, hoff⟩ := @exists_lock1v2 k b a (h.mateRole a b)
      [(s, "stranger"), (a, h.mateRole a b)] hb ha (by simp)
    refine ⟨(b, mb), by simp, rfl, q, ?_, hpid.trans (hids a), hoff.trans hmate⟩
    rw [hmb]
    exact hq

-- ================================================================== every start

/-- Each two members that are there and not connected already have exactly
one offerer. -/
def EachOneOfferer (h : SimpleHub) (env : Env) (st : SessionStart) : Prop :=
  ∀ x ∈ st.members, ∀ y ∈ st.members, h.has x = true → h.has y = true → x ≠ y →
    ¬ h.Linked x y → h.OneOfferer (st.news h env) x y

theorem eachOneOfferer_of_plainly {st : SessionStart}
    (hd : h.DistinctPeerIds st.members) (hm : ∃ k, Plainly h k st.members (st.news h env)) :
    h.EachOneOfferer env st := by
  obtain ⟨k, hk⟩ := hm
  intro x hx y hy hxh hyh hne _
  exact hk.oneOfferer hd hx hy hxh hyh hne

/-- A session start gives each new link exactly one offerer, except for a 1v2
whose mates are not connected already. -/
theorem eachOneOfferer_iff (h : SimpleHub) (env : Env) (st : SessionStart)
    (hd : h.DistinctPeerIds st.members) :
    h.EachOneOfferer env st ↔ ∀ s a b, st = .partyVsSolo s a b → a ≠ b →
      h.has a = true → h.has b = true → h.Linked a b := by
  cases st with
  | soloMatch a b =>
      exact ⟨fun _ _ _ _ => nofun,
        fun _ => eachOneOfferer_of_plainly hd (plainly_soloMatch a b)⟩
  | friendSession a b =>
      exact ⟨fun _ _ _ _ => nofun,
        fun _ => eachOneOfferer_of_plainly hd (plainly_friendSession a b)⟩
  | partyVsParty a1 a2 b1 b2 =>
      exact ⟨fun _ _ _ _ => nofun,
        fun _ => eachOneOfferer_of_plainly hd (plainly_partyVsParty a1 a2 b1 b2)⟩
  | threePersonJoin a b c =>
      exact ⟨fun _ _ _ _ => nofun,
        fun _ => eachOneOfferer_of_plainly hd (plainly_threePersonJoin a b c)⟩
  | fourPersonJoin a b c d =>
      exact ⟨fun _ _ _ _ => nofun,
        fun _ => eachOneOfferer_of_plainly hd (plainly_fourPersonJoin a b c d)⟩
  | partyVsSolo s a b =>
      constructor
      · rintro heach s' a' b' hst hne ha hb
        cases hst
        by_contra hlink
        obtain ⟨hab, hba⟩ := @mates_without_offerer h env s a b ha hb
        exact (heach a (by simp [SessionStart.members]) b (by simp [SessionStart.members]) ha hb
          hne hlink).2 _ _ hab hba rfl
      · intro hlinked x hx y hy hxh hyh hne hno
        refine partyVsSolo_oneOfferer hd hx hy hxh hyh hne ?_ ?_
        · rintro ⟨rfl, rfl⟩
          exact hno (hlinked s _ _ rfl hne hxh hyh)
        · rintro ⟨rfl, rfl⟩
          exact hno (hlinked s _ _ rfl hne.symm hyh hxh).symm

/-- Two connections search a third as a party. -/
def searchingPair : List Input := script
  [(0, .connect 1 ""), (0, .connect 2 ""), (0, .connect 3 ""),
    (1, .frame 1 (.spin "")), (1, .frame 2 (.spin "")),
    (2, .frame 1 .findThirdInvite), (2, .frame 2 (.findThirdRespond true))]

/-- The searching pair is connected, and a 1v2 with a third is in order. -/
theorem eachOneOfferer_iff_pair : ∃ w, (hubMachine plainSys).Reach w
    ∧ w.hub.has 3 = true ∧ w.hub.Linked 1 2 ∧ ¬ w.hub.Linked 1 3
    ∧ (w.hub.EachOneOfferer (plainEnv 3) (.partyVsSolo 3 1 2) ↔
      ∀ s a b, SessionStart.partyVsSolo 3 1 2 = .partyVsSolo s a b → a ≠ b →
        w.hub.has a = true → w.hub.has b = true → w.hub.Linked a b) := by
  obtain ⟨w, hw, hp⟩ := @reach_of_replay plainSys 2 searchingPair
    (fun w => decide (w.hub.DistinctPeerIds [3, 1, 2] ∧ w.hub.has 3 = true
      ∧ w.hub.Linked 1 2 ∧ ¬ w.hub.Linked 1 3))
    (by decide)
  obtain ⟨hd, h₃, hpair, hthird⟩ := of_decide_eq_true hp
  exact ⟨w, hw, h₃, hpair, hthird,
    eachOneOfferer_iff w.hub (plainEnv 3) (.partyVsSolo 3 1 2) hd⟩

/-- A `Hello` that gives the user id only. -/
def plainHello (u : UserId) : ClientMsg := .hello ⟨u, "", "any", "", [], false, ""⟩

/-- The fourth joins the call of a trio and stops, which binds the first to
the third; the second, who waits, still has the first as its mate. -/
def staleMate : List Input := script
  [(0, .connect 1 ""), (0, .connect 2 ""), (0, .connect 3 ""), (0, .connect 4 ""),
    (0, .connect 5 ""), (0, .connect 6 ""),
    (1, .frame 1 (plainHello "A")), (1, .frame 4 (plainHello "D")),
    (1, .frame 6 (.blockUser "u5")),
    (1, .frame 1 (.addFriend "CD")), (1, .frame 4 (.acceptFriend "A")),
    (2, .frame 1 (.spin "")), (2, .frame 2 (.spin "")),
    (3, .frame 1 .findThirdInvite), (3, .frame 2 (.findThirdRespond true)),
    (4, .frame 3 (.spin "")),
    (5, .frame 1 (.callFriend "D" true)), (5, .frame 4 (.callRespond "A" true)),
    (6, .frame 5 (.spin "")), (7, .frame 4 .stop), (8, .frame 6 (.spin ""))]

/-- The second spins. -/
def secondSpins : Input := ⟨plainEnv 9, .frame 2 (.spin "")⟩

/-- The second draws the first out of its session into a 1v2, where neither
offers to the other. -/
theorem stale_mates_without_offerer : ∃ w w', (hubMachine plainSys).Reach w
    ∧ (hubMachine plainSys).step w secondSpins w'
    ∧ w.hub.DistinctPeerIds [6, 1, 2] ∧ ¬ w.hub.Linked 1 2 ∧ 2 ∉ w.hub.peersOf 1
    ∧ 2 ∈ w'.hub.peersOf 1 ∧ 1 ∈ w'.hub.peersOf 2
    ∧ Sees (w'.hub.posts.shown.drop w.hub.posts.shown.length) 1 (w.hub.peerIdOf 2) false
    ∧ Sees (w'.hub.posts.shown.drop w.hub.posts.shown.length) 2 (w.hub.peerIdOf 1) false
    ∧ ¬ Sees (w'.hub.posts.shown.drop w.hub.posts.shown.length) 1 (w.hub.peerIdOf 2) true
    ∧ ¬ Sees (w'.hub.posts.shown.drop w.hub.posts.shown.length) 2 (w.hub.peerIdOf 1) true := by
  obtain ⟨w, hw, hp⟩ := @reach_of_replay plainSys 2 staleMate
    (fun w => decide (w.hub.DistinctPeerIds [6, 1, 2] ∧ ¬ w.hub.Linked 1 2
        ∧ 2 ∉ w.hub.peersOf 1)
      && (w.advance 2 secondSpins).any fun w' : World =>
        decide (2 ∈ w'.hub.peersOf 1 ∧ 1 ∈ w'.hub.peersOf 2
          ∧ Sees (w'.hub.posts.shown.drop w.hub.posts.shown.length) 1 (w.hub.peerIdOf 2) false
          ∧ Sees (w'.hub.posts.shown.drop w.hub.posts.shown.length) 2 (w.hub.peerIdOf 1) false
          ∧ ¬ Sees (w'.hub.posts.shown.drop w.hub.posts.shown.length) 1 (w.hub.peerIdOf 2) true
          ∧ ¬ Sees (w'.hub.posts.shown.drop w.hub.posts.shown.length) 2 (w.hub.peerIdOf 1) true))
    (by decide +kernel)
  rw [Bool.and_eq_true, decide_eq_true_eq, Option.any_eq_true] at hp
  obtain ⟨⟨hd, hlink, hpeer⟩, w', hw', hp⟩ := hp
  obtain ⟨h₁, h₂, hsees⟩ := of_decide_eq_true hp
  exact ⟨w, w', hw, advance_step w secondSpins w' hw', hd, hlink, hpeer, h₁, h₂, hsees⟩

end SimpleHub

end Ruletka
