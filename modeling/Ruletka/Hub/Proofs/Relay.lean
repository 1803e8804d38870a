/-
Who is shown to whom with the relay forced.

Nine places build a `Matched`. Seven take `force_relay` from the pairs of the
session, so that a member who hides its address is never shown without the
relay. Two write `false`: the search notice of a party, and the federated
match. Every event is a log of such acts: the messages it sends are those
the log shows, and each is relayed as the member who hides asks for, unless
an act of the two kinds meets such a member.
-/
import Ruletka.Hub.Proofs.Index
import Ruletka.Hub.Proofs.Matcher
import Ruletka.Hub.Proofs.Posts

namespace Ruletka

open SimpleHub

-- ================================================================== the acts

/-- A `Matched` whose recipient, or somebody it lists, hides its address
forces the relay. -/
def Posts.Relays (p : Posts) (s : ConnId × MatchedMsg) : Prop :=
  p.hides s.1 = true ∨ (∃ q ∈ s.2.peers, q.location.hideIp = true) → s.2.forceRelay = true

/-- What the hub does to its posts. The two calls that do not ask who hides
its address are made on a hub with the posts of that moment. -/
inductive Act where
  | relay (ms : List (ConnId × MatchedMsg))
  | searching (k : SimpleHub) (a b : ConnId)
  | federated (k : SimpleHub) (env : Env) (id : ConnId) (sid : SessionId × String)
      (remote : FedPeerDesc) (base : String) (offers : Bool)
  | gone (id : ConnId)
  | choose (id : ConnId) (hideIp : Bool)

namespace Act

/-- Nobody's choice changes but this one. -/
def By (choice : Option (ConnId × Bool)) : Act → Prop
  | .choose id hideIp => choice = some (id, hideIp)
  | _ => True

/-- The posts after an act. -/
def run (p : Posts) : Act → Posts
  | .relay ms => { p with shown := p.shown ++ ms }
  | .searching k a b => (k.notifyPartyBrowseSearching a b).posts
  | .federated k env id sid remote base offers =>
      (k.startFederatedMatch env id sid remote base offers).posts
  | .gone id => { p with hides := fun y => if y = id then false else p.hides y }
  | .choose id hideIp => { p with hides := fun y => if y = id then hideIp else p.hides y }

/-- The act may happen now: a session start shows relayed messages only. -/
def Fits (p : Posts) : Act → Prop
  | .relay ms => ∀ s ∈ ms, p.Relays s
  | .searching k _ _ => k.posts = p
  | .federated k .. => k.posts = p
  | .gone _ => True
  | .choose .. => True

/-- What an act shows is relayed for whoever hides its address. -/
def Covered (p : Posts) (act : Act) : Prop :=
  ∀ s ∈ (act.run p).shown.drop p.shown.length, p.Relays s

/-- A search notice of a party with a member that hides its address, or a
federated match of such a client. -/
def Exposes (p : Posts) : Act → Prop
  | .searching k a b => k.has a ∧ k.has b ∧ (p.hides a = true ∨ p.hides b = true)
  | .federated _ _ id .. => p.hides id = true
  | _ => False

end Act

/-- The acts lead from these posts to those. -/
def Logged (p : Posts) : List Act → Posts → Prop
  | [], q => q = p
  | act :: log, q => act.Fits p ∧ Logged (act.run p) log q

/-- Every act of a log keeps a condition on the posts it starts from. -/
def Always (P : Posts → Act → Prop) (p : Posts) : List Act → Prop
  | [] => True
  | act :: log => P p act ∧ Always P (act.run p) log

theorem Logged.append {p q r : Posts} {l m : List Act} (hl : Logged p l q) (hm : Logged q m r) :
    Logged p (l ++ m) r := by
  induction l generalizing p with
  | nil =>
      cases hl
      exact hm
  | cons act l ih => exact ⟨hl.1, ih hl.2⟩

/-- The acts of a log make no choice but this one. -/
def LoggedBy (choice : Option (ConnId × Bool)) (p : Posts) (log : List Act) (q : Posts) : Prop :=
  Logged p log q ∧ ∀ act ∈ log, act.By choice

theorem LoggedBy.append {choice : Option (ConnId × Bool)} {p q r : Posts} {l m : List Act}
    (hl : LoggedBy choice p l q) (hm : LoggedBy choice q m r) :
    LoggedBy choice p (l ++ m) r := by
  refine ⟨hl.1.append hm.1, fun act hact => ?_⟩
  rcases List.mem_append.mp hact with hact | hact
  · exact hl.2 act hact
  · exact hm.2 act hact

theorem LoggedBy.nil {choice : Option (ConnId × Bool)} {p q : Posts} (hp : q = p) :
    LoggedBy choice p [] q :=
  ⟨hp, fun _ hact => absurd hact List.not_mem_nil⟩

theorem LoggedBy.one {choice : Option (ConnId × Bool)} {p q : Posts} {act : Act}
    (hf : act.Fits p) (hq : q = act.run p) (hb : act.By choice) :
    LoggedBy choice p [act] q :=
  ⟨⟨hf, hq⟩, fun _ hact => List.mem_singleton.mp hact ▸ hb⟩

namespace SimpleHub

variable {h k h' : SimpleHub} {env : Env}

-- =========================================================== the exposing calls

theorem hides_iff {x : ConnId} :
    h.posts.hides x = true ↔ ∃ c, h.get x = some c ∧ c.hideIp = true := by
  show (h.get x).any (·.hideIp) = true ↔ _
  rw [Option.any_eq_true]

theorem has_of_hides {x : ConnId} (hx : h.posts.hides x = true) : h.has x = true := by
  obtain ⟨c, hc, -⟩ := hides_iff.mp hx
  exact has_iff.mpr ⟨c, hc⟩

/-- Whoever a `Matched` lists with a hidden place hides its address. -/
theorem hides_of_matchPeers {x : ConnId} {others : List (ConnId × String)} {q : MatchPeer}
    (hq : q ∈ h.matchPeers x others) (hh : q.location.hideIp = true) :
    ∃ o ∈ others, h.posts.hides o.1 = true := by
  unfold matchPeers at hq
  split at hq
  · cases hq
  obtain ⟨o, ho, hpeer⟩ := List.mem_filterMap.mp hq
  obtain ⟨c, hc, rfl⟩ := Option.map_eq_some_iff.mp hpeer
  refine ⟨o, ho, hides_iff.mpr ⟨c, hc, ?_⟩⟩
  by_contra hno
  have hloc : (publicLocation c).hideIp = true := hh
  rw [publicLocation, if_neg hno] at hloc
  cases hloc

theorem posts_notifyPartyBrowseSearching_of_absent {a b : ConnId}
    (hno : ¬ (h.has a = true ∧ h.has b = true)) :
    (h.notifyPartyBrowseSearching a b).posts = h.posts := by
  refine h.posts_emit_of_quiet ?_
  rw [← Bool.and_eq_true] at hno
  have hno' : ¬ ((h.has b && h.has a) = true) := by rwa [Bool.and_comm]
  simp only [List.filterMap_cons, List.filterMap_nil, if_neg hno, if_neg hno']
  rfl

/-- The search notice shows each of the two the other, without the relay. -/
theorem posts_notifyPartyBrowseSearching {a b : ConnId} (ha : h.has a = true)
    (hb : h.has b = true) :
    ∃ ma mb : MatchedMsg, ∃ ra rb, (h.notifyPartyBrowseSearching a b).posts
        = { h.posts with shown := h.posts.shown ++ [(a, ma), (b, mb)] }
      ∧ (ma.forceRelay = false ∧ ma.peers = h.matchPeers a [(b, ra)])
      ∧ (mb.forceRelay = false ∧ mb.peers = h.matchPeers b [(a, rb)]) := by
  have hab : (h.has a && h.has b) = true := by rw [ha, hb]; rfl
  have hba : (h.has b && h.has a) = true := by rw [ha, hb]; rfl
  unfold notifyPartyBrowseSearching
  rw [posts_emit]
  simp only [List.filterMap_cons, List.filterMap_nil, if_pos hab, if_pos hba]
  exact ⟨_, _, _, _, rfl, ⟨rfl, rfl⟩, rfl, rfl⟩

theorem covered_searching {a b : ConnId} :
    Act.Covered h.posts (.searching h a b) ↔ ¬ Act.Exposes h.posts (.searching h a b) := by
  unfold Act.Covered Act.run
  by_cases hab : h.has a = true ∧ h.has b = true
  · obtain ⟨ma, mb, ra, rb, hp, ⟨hfa, hpa⟩, hfb, hpb⟩ :=
      posts_notifyPartyBrowseSearching hab.1 hab.2
    dsimp only
    rw [hp, List.drop_left]
    constructor
    · rintro hcov ⟨-, -, hide | hide⟩
      · have hrel : ma.forceRelay = true := hcov (a, ma) (by simp) (.inl hide)
        rw [hfa] at hrel
        cases hrel
      · have hrel : mb.forceRelay = true := hcov (b, mb) (by simp) (.inl hide)
        rw [hfb] at hrel
        cases hrel
    · intro hno
      have hnone : ∀ x, x = a ∨ x = b → h.posts.hides x ≠ true := by
        rintro x (rfl | rfl) hx
        · exact hno ⟨hab.1, hab.2, .inl hx⟩
        · exact hno ⟨hab.1, hab.2, .inr hx⟩
      have hlist : ∀ x y r, (x = a ∨ x = b) → ¬ ∃ q ∈ h.matchPeers y [(x, r)],
          q.location.hideIp = true := by
        rintro x y r hx ⟨q, hq, hide⟩
        obtain ⟨o, ho, hhide⟩ := hides_of_matchPeers hq hide
        rw [List.mem_singleton.mp ho] at hhide
        exact hnone x hx hhide
      intro s hs
      rcases List.mem_pair.mp hs with rfl | rfl
      · rintro (hide | hpeer)
        · exact absurd hide (hnone a (.inl rfl))
        · rw [hpa] at hpeer
          exact absurd hpeer (hlist b a ra (.inr rfl))
      · rintro (hide | hpeer)
        · exact absurd hide (hnone b (.inr rfl))
        · rw [hpb] at hpeer
          exact absurd hpeer (hlist a b rb (.inl rfl))
  · dsimp only
    rw [posts_notifyPartyBrowseSearching_of_absent hab, List.drop_length]
    exact ⟨fun _ hex => hab ⟨hex.1, hex.2.1⟩, fun _ s hs => absurd hs List.not_mem_nil⟩

/-- A federated match shows its client one stranger, without the relay. -/
theorem posts_startFederatedMatch (x : ConnId) (sid : SessionId × String) (r : FedPeerDesc)
    (base : String) (o : Bool) :
    ∃ m : MatchedMsg, (h.startFederatedMatch env x sid r base o).posts
        = { h.posts with
            shown := h.posts.shown ++ if h.has x then [(x, m)] else [] }
      ∧ m.forceRelay = false ∧ ∀ q ∈ m.peers, q.location.hideIp = false := by
  have hsend : ∀ k : SimpleHub, k.posts = h.posts → k.has x = h.has x → ∀ m : MatchedMsg,
      (k.send x (.matched m)).posts = { h.posts with
        shown := h.posts.shown ++ if h.has x then [(x, m)] else [] } := by
    intro k hp hx m
    unfold send
    rw [posts_emit, hp, hx]
    split
    · rfl
    · rfl
  unfold startFederatedMatch
  dsimp only
  rw [posts_broadcastLobbyInfo]
  refine ⟨_, hsend _ ?_ ?_ _, rfl, ?_⟩
  · exact h.posts_modify x _ fun c => rfl
  · refine has_congr ?_ x
    exact h.books_modify x _ fun c => ⟨rfl, rfl, rfl, rfl, rfl⟩
  · intro q hq
    rw [List.mem_singleton.mp hq]

theorem covered_federated {x : ConnId} {sid : SessionId × String} {r : FedPeerDesc}
    {base : String} {o : Bool} :
    Act.Covered h.posts (.federated h env x sid r base o) ↔ h.posts.hides x ≠ true := by
  obtain ⟨m, hp, hf, hpeers⟩ : ∃ m : MatchedMsg, (h.startFederatedMatch env x sid r base o).posts
      = _ ∧ _ := posts_startFederatedMatch x sid r base o
  unfold Act.Covered Act.run
  dsimp only
  rw [hp, List.drop_left]
  constructor
  · intro hcov hide
    rw [if_pos (has_of_hides hide)] at hcov
    have hrel : m.forceRelay = true := hcov (x, m) (by simp) (.inl hide)
    rw [hf] at hrel
    cases hrel
  · intro hno s hs
    split at hs
    · cases List.mem_singleton.mp hs
      rintro (hide | ⟨q, hq, hide⟩)
      · exact absurd hide hno
      · rw [hpeers q hq] at hide
        cases hide
    · cases hs

/-- What an act shows is relayed for whoever hides, unless the act is one of
the two that do not ask. -/
theorem covered_iff {act : Act} {p : Posts} (hf : act.Fits p) :
    act.Covered p ↔ ¬ act.Exposes p := by
  cases act with
  | relay ms =>
      refine ⟨fun _ => not_false, fun _ s hs => hf s ?_⟩
      rwa [Act.run, List.drop_left] at hs
  | searching k a b =>
      cases hf
      exact covered_searching
  | federated k env x sid r base o =>
      cases hf
      exact covered_federated
  | gone x =>
      refine ⟨fun _ => not_false, fun _ s hs => ?_⟩
      rw [Act.run, List.drop_length] at hs
      cases hs
  | choose x hide =>
      refine ⟨fun _ => not_false, fun _ s hs => ?_⟩
      rw [Act.run, List.drop_length] at hs
      cases hs

theorem always_covered_iff {log : List Act} {p q : Posts} (hl : Logged p log q) :
    Always (fun p act => act.Covered p) p log ↔ Always (fun p act => ¬ act.Exposes p) p log := by
  induction log generalizing p with
  | nil => exact Iff.rfl
  | cons act log ih => exact and_congr (covered_iff hl.1) (ih hl.2)

-- ====================================================== what an operation sends

/-- An operation is a log of acts in which nobody chooses; the index still
points at connections that are there, and nobody new is there. -/
structure Sent (h h' : SimpleHub) : Prop where
  log : ∃ log, LoggedBy none h.posts log h'.posts
  sound : h.books.Sound → h'.books.Sound
  kept : ∀ y, h'.has y = true → h.has y = true

theorem Sent.refl (h : SimpleHub) : h.Sent h := ⟨⟨[], .nil rfl⟩, id, fun _ hy => hy⟩

theorem Sent.trans (h₁ : h.Sent k) (h₂ : k.Sent h') : h.Sent h' := by
  obtain ⟨l, hl⟩ := h₁.log
  obtain ⟨m, hm⟩ := h₂.log
  exact ⟨⟨l ++ m, hl.append hm⟩, fun hs => h₂.sound (h₁.sound hs),
    fun y hy => h₁.kept y (h₂.kept y hy)⟩

theorem has_iff_user {x : ConnId} : h.has x = true ↔ (h.books.user x).isSome = true := by
  rw [has_books, Books.user, Option.isSome_map]

/-- An operation that leaves the posts and the users alone sends nothing. -/
theorem Sent.of_users (hp : h'.posts = h.posts) (hi : h'.byUser = h.byUser)
    (hu : ∀ x, h'.books.user x = h.books.user x) : h.Sent h' where
  log := ⟨[], .nil hp⟩
  sound hs := hs.congr hi hu
  kept y hy := by
    rw [has_iff_user, hu] at hy
    exact has_iff_user.mpr hy

theorem Sent.of_same (hp : h'.posts = h.posts) (hs : h'.SameIds h) : h.Sent h' :=
  .of_users hp hs.byUser fun x => hs.userId x

/-- An operation that leaves posts and books alone sends nothing. -/
theorem Sent.of_quiet (hp : h'.posts = h.posts) (hb : h'.books = h.books) : h.Sent h' :=
  .of_same hp (.of_books hb)

/-- Quiet operations may follow. -/
theorem Sent.after (hs : h.Sent k) (hp : h'.posts = k.posts) (hb : h'.books = k.books) :
    h.Sent h' :=
  hs.trans (.of_quiet hp hb)

/-- Quiet operations may come first. -/
theorem Sent.before (hs : k.Sent h') (hp : k.posts = h.posts) (hb : k.books = h.books) :
    h.Sent h' :=
  (Sent.of_quiet hp hb).trans hs

theorem Sent.status (hs : h.Sent k) (x : ConnId) (d : String) : h.Sent (k.status x d) :=
  hs.after (posts_status ..) (books_status ..)

theorem Sent.lobby (hs : h.Sent k) : h.Sent (k.broadcastLobbyInfo env) :=
  hs.after (posts_broadcastLobbyInfo ..) (books_broadcastLobbyInfo ..)

theorem Sent.send (hs : h.Sent k) (x : ConnId) (m : ServerMsg) (hm : ∀ mm, m ≠ .matched mm) :
    h.Sent (k.send x m) :=
  hs.after (posts_send _ x m hm) (books_send ..)

theorem Sent.emit {ms : List (ConnId × ServerMsg)}
    (hm : ∀ s ∈ matchedIn ms, h.posts.Relays s) :
    h.Sent (h.emit ms) :=
  ⟨⟨[.relay (matchedIn ms)], .one hm (posts_emit ..) trivial⟩, id, fun _ hy => hy⟩

theorem Sent.matched {x : ConnId} {m : MatchedMsg} (hm : h.posts.Relays (x, m)) :
    h.Sent (h.send x (.matched m)) := by
  unfold SimpleHub.send
  refine Sent.emit fun s hs => ?_
  split at hs
  · cases List.mem_singleton.mp hs
    exact hm
  · cases hs

theorem Sent.searching (a b : ConnId) : h.Sent (h.notifyPartyBrowseSearching a b) :=
  ⟨⟨[.searching h a b], .one rfl rfl trivial⟩, id, fun _ hy => hy⟩

theorem Sent.foldl {α : Type} {f : SimpleHub → α → SimpleHub}
    (hf : ∀ (h : SimpleHub) (a : α), h.Sent (f h a))
    (l : List α) (h : SimpleHub) : h.Sent (l.foldl f h) := by
  induction l generalizing h with
  | nil => exact .refl h
  | cons a l ih => exact (hf h a).trans (ih (f h a))

-- ============================================================== session starts

/-- A pair of which one hides its address gets the relay. -/
theorem pairForceRelay_of_hides (hp : k.posts = h.posts) (hb : k.books = h.books) {a b : ConnId}
    (ha : h.has a = true) (hb' : h.has b = true)
    (hh : h.posts.hides a = true ∨ h.posts.hides b = true) : k.pairForceRelay a b = true := by
  rw [← hp] at hh
  rw [← has_congr hb] at ha hb'
  obtain ⟨ca, hca⟩ := has_iff.mp ha
  obtain ⟨cb, hcb⟩ := has_iff.mp hb'
  have hor : ca.hideIp = true ∨ cb.hideIp = true := by
    rcases hh with hh | hh
    · obtain ⟨c, hc, hide⟩ := hides_iff.mp hh
      rw [hca] at hc
      cases hc
      exact .inl hide
    · obtain ⟨c, hc, hide⟩ := hides_iff.mp hh
      rw [hcb] at hc
      cases hc
      exact .inr hide
  rw [pairForceRelay, hca, hcb]
  show pairForceRelayDecision _ _ _ _ = true
  unfold pairForceRelayDecision
  rcases hor with hide | hide
  · rw [hide, Bool.true_or, Bool.true_or, Bool.true_or, Bool.true_or]
  · rw [hide, Bool.or_true, Bool.true_or, Bool.true_or, Bool.true_or]

/-- A `Matched` among members of whom each that hides its address forces the
relay. -/
theorem relays_among (hp : k.posts = h.posts) {members : List ConnId} {x : ConnId}
    {m : MatchedMsg} {others : List (ConnId × String)} (hx : x ∈ members)
    (hpeers : ∀ q ∈ m.peers, ∃ q' ∈ k.matchPeers x others, q'.location = q.location)
    (ho : ∀ o ∈ others, o.1 ∈ members)
    (hforce : ∀ y ∈ members, h.posts.hides y = true → m.forceRelay = true) :
    h.posts.Relays (x, m) := by
  rintro (hide | ⟨q, hq, hide⟩)
  · exact hforce x hx hide
  · obtain ⟨q', hq', hloc⟩ := hpeers q hq
    obtain ⟨o, ho', hhide⟩ := hides_of_matchPeers hq' (hloc ▸ hide)
    rw [hp] at hhide
    exact hforce o.1 (ho o ho') hhide

theorem matchedIn_partnerGeoMsg (a b : ConnId) : matchedIn (h.partnerGeoMsg a b) = [] := by
  unfold partnerGeoMsg
  split
  · split
    · rfl
    · rfl
  · rfl

theorem posts_emit_partnerGeo (a b : ConnId) :
    (h.emit (k.partnerGeoMsg a b ++ k.partnerGeoMsg b a)).posts = h.posts := by
  refine h.posts_emit_of_quiet ?_
  unfold matchedIn
  rw [List.filterMap_append]
  show matchedIn _ ++ matchedIn _ = []
  rw [matchedIn_partnerGeoMsg, matchedIn_partnerGeoMsg]
  rfl

theorem has_of_phase {x : ConnId} {p : Phase} (hx : h.phaseOf x = some p) : h.has x = true := by
  obtain ⟨c, hc, -⟩ := Option.map_eq_some_iff.mp hx
  exact has_iff.mpr ⟨c, hc⟩

theorem sent_startSoloMatch (a b : ConnId) : h.Sent (h.startSoloMatch env a b) := by
  unfold startSoloMatch
  split
  · exact .refl h
  split
  · exact .refl h
  next hw =>
  rw [Bool.or_eq_true, not_or, decide_eq_true_eq, decide_eq_true_eq, not_not, not_not] at hw
  have ha := has_of_phase hw.1
  have hb := has_of_phase hw.2
  dsimp only
  generalize hk : ((h.dequeueClient a).dequeueClient b).linkSolo env _ a b = k
  have hp : k.posts = h.posts := by rw [← hk]; simp
  have hbk : k.books = h.books := by rw [← hk]; simp
  have hforce : ∀ y ∈ [a, b], h.posts.hides y = true →
      ((h.dequeueClient a).dequeueClient b).pairForceRelay a b = true := by
    intro y hy hide
    refine pairForceRelay_of_hides rfl rfl ha hb ?_
    rcases List.mem_pair.mp hy with rfl | rfl
    · exact .inl hide
    · exact .inr hide
  refine Sent.lobby (Sent.after ?_ (posts_emit_partnerGeo a b) rfl)
  refine (Sent.emit ?_).before hp hbk
  intro s hs
  rw [hp]
  rcases List.mem_pair.mp hs with rfl | rfl
  · exact relays_among hp (by simp) (fun q hq => ⟨q, hq, rfl⟩) (by simp) hforce
  · exact relays_among hp (by simp) (fun q hq => ⟨q, hq, rfl⟩) (by simp) hforce

theorem sent_startFriendSession {a b : ConnId} (ha : h.has a = true) (hb : h.has b = true) :
    h.Sent (h.startFriendSession env a b) := by
  unfold startFriendSession
  dsimp only
  generalize hk : h.linkFriends env _ a b = k
  have hp : k.posts = h.posts := by rw [← hk]; simp [linkFriends]
  have hbk : k.books = h.books := by rw [← hk]; simp [linkFriends]
  have hforce : ∀ y ∈ [a, b], h.posts.hides y = true → h.pairForceRelay a b = true := by
    intro y hy hide
    refine pairForceRelay_of_hides rfl rfl ha hb ?_
    rcases List.mem_pair.mp hy with rfl | rfl
    · exact .inl hide
    · exact .inr hide
  refine (Sent.emit ?_).before hp hbk
  intro s hs
  rw [hp]
  rcases List.mem_pair.mp hs with rfl | rfl
  · exact relays_among hp (by simp) (fun q hq => ⟨q, hq, rfl⟩) (by simp) hforce
  · exact relays_among hp (by simp) (fun q hq => ⟨q, hq, rfl⟩) (by simp) hforce

/-- The relay of a trio of which the first and another are there. -/
theorem trio_forceRelay (hp : k.posts = h.posts) (hb : k.books = h.books) {a b c : ConnId}
    (ha : h.has a = true) (hbc : h.has b = true ∨ h.has c = true) :
    ∀ y ∈ [a, b, c], h.posts.hides y = true →
      (k.pairForceRelay a b || k.pairForceRelay a c || k.pairForceRelay b c) = true := by
  intro y hy hide
  rw [Bool.or_eq_true, Bool.or_eq_true]
  simp only [List.mem_cons, List.not_mem_nil, or_false] at hy
  rcases hy with rfl | rfl | rfl
  · rcases hbc with hb' | hc
    · exact .inl (.inl (pairForceRelay_of_hides hp hb ha hb' (.inl hide)))
    · exact .inl (.inr (pairForceRelay_of_hides hp hb ha hc (.inl hide)))
  · exact .inl (.inl (pairForceRelay_of_hides hp hb ha (has_of_hides hide) (.inr hide)))
  · exact .inl (.inr (pairForceRelay_of_hides hp hb ha (has_of_hides hide) (.inr hide)))

theorem location_lock1v2 {peers : List MatchPeer} {q : MatchPeer}
    (hq : q ∈ lock1v2OffererRole peers) : ∃ q' ∈ peers, q'.location = q.location := by
  obtain ⟨q', hq', rfl⟩ := List.mem_map.mp hq
  exact ⟨q', hq', rfl⟩

theorem sent_startPartyVsSolo {s a b : ConnId} (hs : h.has s = true)
    (hab : h.has a = true ∨ h.has b = true) : h.Sent (h.startPartyVsSolo env s a b) := by
  unfold startPartyVsSolo
  dsimp only
  generalize hk : (((h.dequeueClient s).dequeueClient a).dequeueClient b).linkPartyVsSolo env
    _ s a b = k
  have hp : k.posts = h.posts := by rw [← hk]; simp
  have hbk : k.books = h.books := by rw [← hk]; simp
  have hforce := trio_forceRelay hp hbk hs hab
  refine Sent.lobby ((Sent.emit ?_).before hp hbk)
  intro x hx
  rw [hp]
  simp only [matchedIn, List.filterMap_cons, List.filterMap_nil, ServerMsg.asMatched,
    Option.map_some, List.mem_cons, List.not_mem_nil, or_false] at hx
  rcases hx with rfl | rfl | rfl
  · exact relays_among hp (by simp) (fun q hq => location_lock1v2 hq) (by simp) hforce
  · exact relays_among hp (by simp) (fun q hq => location_lock1v2 hq) (by simp) hforce
  · exact relays_among hp (by simp) (fun q hq => location_lock1v2 hq) (by simp) hforce

theorem sent_startThreePersonJoin {a b c : ConnId} (ha : h.has a = true)
    (hbc : h.has b = true ∨ h.has c = true) : h.Sent (h.startThreePersonJoin env a b c) := by
  unfold startThreePersonJoin
  dsimp only
  generalize hk : h.linkThree env _ a b c = k
  have hp : k.posts = h.posts := by
    rw [← hk]; simp [linkThree, Client.setMatched, Client.clearSdp]
  have hbk : k.books = h.books := by
    rw [← hk]; simp [linkThree, Client.setMatched, Client.clearSdp]
  have hforce := trio_forceRelay (h := h) (k := h) rfl rfl ha hbc
  refine ((((Sent.emit ?_).before hp hbk).status _ _).status _ _).status _ _ |>.lobby
  intro x hx
  rw [hp]
  simp only [matchedIn, List.filterMap_cons, List.filterMap_nil, ServerMsg.asMatched,
    Option.map_some, List.mem_cons, List.not_mem_nil, or_false] at hx
  rcases hx with rfl | rfl | rfl
  · exact relays_among hp (by simp) (fun q hq => ⟨q, hq, rfl⟩) (by simp) hforce
  · exact relays_among hp (by simp) (fun q hq => ⟨q, hq, rfl⟩) (by simp) hforce
  · exact relays_among hp (by simp) (fun q hq => ⟨q, hq, rfl⟩) (by simp) hforce

theorem sent_startPartyVsParty {a1 a2 b1 b2 : ConnId} (ha1 : h.has a1 = true)
    (ha2 : h.has a2 = true) (hb1 : h.has b1 = true) (hb2 : h.has b2 = true) :
    h.Sent (h.startPartyVsParty env a1 a2 b1 b2) := by
  unfold startPartyVsParty
  dsimp only
  generalize hk : h.linkPartyVsParty env _ a1 a2 b1 b2 = k
  have hp : k.posts = h.posts := by
    rw [← hk]; simp [linkPartyVsParty, Client.setMatched, Client.clearSdp]
  have hbk : k.books = h.books := by
    rw [← hk]; simp [linkPartyVsParty, Client.setMatched, Client.clearSdp]
  have hforce : ∀ y ∈ [a1, a2, b1, b2], h.posts.hides y = true →
      (k.pairForceRelay a1 a2 || k.pairForceRelay b1 b2 || k.pairForceRelay a1 b1
        || k.pairForceRelay a1 b2 || k.pairForceRelay a2 b1 || k.pairForceRelay a2 b2) = true := by
    intro y hy hide
    simp only [Bool.or_eq_true]
    simp only [List.mem_cons, List.not_mem_nil, or_false] at hy
    have hpair : k.pairForceRelay a1 a2 = true ∨ k.pairForceRelay b1 b2 = true := by
      rcases hy with rfl | rfl | rfl | rfl
      · exact .inl (pairForceRelay_of_hides hp hbk ha1 ha2 (.inl hide))
      · exact .inl (pairForceRelay_of_hides hp hbk ha1 ha2 (.inr hide))
      · exact .inr (pairForceRelay_of_hides hp hbk hb1 hb2 (.inl hide))
      · exact .inr (pairForceRelay_of_hides hp hbk hb1 hb2 (.inr hide))
    exact .inl (.inl (.inl (.inl hpair)))
  refine Sent.lobby ((Sent.emit ?_).before hp hbk)
  intro x hx
  rw [hp]
  simp only [matchedIn, List.filterMap_cons, List.filterMap_nil, ServerMsg.asMatched,
    Option.map_some, List.mem_cons, List.not_mem_nil, or_false] at hx
  rcases hx with rfl | rfl | rfl | rfl
  · exact relays_among hp (by simp) (fun q hq => ⟨q, hq, rfl⟩) (by simp) hforce
  · exact relays_among hp (by simp) (fun q hq => ⟨q, hq, rfl⟩) (by simp) hforce
  · exact relays_among hp (by simp) (fun q hq => ⟨q, hq, rfl⟩) (by simp) hforce
  · exact relays_among hp (by simp) (fun q hq => ⟨q, hq, rfl⟩) (by simp) hforce

theorem sent_startFourPersonJoin (a b c d : ConnId) :
    h.Sent (h.startFourPersonJoin env a b c d) := by
  unfold startFourPersonJoin
  split
  · exact .refl h
  next hall =>
  simp only [Bool.not_eq_true', Bool.not_eq_false, Bool.and_eq_true] at hall
  obtain ⟨⟨⟨ha, hb⟩, hc⟩, hd⟩ := hall
  dsimp only
  generalize hk : h.linkFour env _ a b c d = k
  have hp : k.posts = h.posts := by
    rw [← hk]; simp [linkFour, Client.setMatched, Client.clearSdp]
  have hbk : k.books = h.books := by
    rw [← hk]; simp [linkFour, Client.setMatched, Client.clearSdp]
  have hforce : ∀ y ∈ [a, b, c, d], h.posts.hides y = true →
      (h.pairForceRelay a d || h.pairForceRelay b d || h.pairForceRelay c d
        || h.pairForceRelay a b || h.pairForceRelay a c || h.pairForceRelay b c) = true := by
    intro y hy hide
    simp only [Bool.or_eq_true]
    simp only [List.mem_cons, List.not_mem_nil, or_false] at hy
    have hguest : (h.pairForceRelay a d = true ∨ h.pairForceRelay b d = true)
        ∨ h.pairForceRelay c d = true := by
      rcases hy with rfl | rfl | rfl | rfl
      · exact .inl (.inl (pairForceRelay_of_hides rfl rfl ha hd (.inl hide)))
      · exact .inl (.inr (pairForceRelay_of_hides rfl rfl hb hd (.inl hide)))
      · exact .inr (pairForceRelay_of_hides rfl rfl hc hd (.inl hide))
      · exact .inr (pairForceRelay_of_hides rfl rfl hc hd (.inr hide))
    exact .inl (.inl (.inl hguest))
  refine (((((Sent.emit ?_).before hp hbk).status _ _).status _ _).status _ _).status _ _ |>.lobby
  intro x hx
  rw [hp]
  simp only [matchedIn, List.filterMap_cons, List.filterMap_nil, ServerMsg.asMatched,
    Option.map_some, List.mem_cons, List.not_mem_nil, or_false] at hx
  rcases hx with rfl | rfl | rfl | rfl
  · exact relays_among hp (by simp) (fun q hq => ⟨q, hq, rfl⟩) (by simp) hforce
  · exact relays_among hp (by simp) (fun q hq => ⟨q, hq, rfl⟩) (by simp) hforce
  · exact relays_among hp (by simp) (fun q hq => ⟨q, hq, rfl⟩) (by simp) hforce
  · exact relays_among hp (by simp) (fun q hq => ⟨q, hq, rfl⟩) (by simp) hforce

theorem sent_collapseToSolo1v1 (a b : ConnId) (d : String) :
    h.Sent (h.collapseToSolo1v1 env a b d) := by
  unfold collapseToSolo1v1
  dsimp only
  refine (((sent_startSoloMatch a b).before ?_ ?_).status a d).status b d
  · simp
  · simp

theorem sent_huntAgain (x a b : ConnId) : h.Sent (h.huntAgain env x a b) := by
  unfold huntAgain
  dsimp only
  refine ((((Sent.searching a b).before ?_ ?_).status _ _).status _ _).lobby
  · simp
  · simp

-- =================================================================== matching

theorem sent_pairEntries {e f : QueueEntry} (he : ∀ x ∈ queueEntryIds e, h.has x = true)
    (hf : ∀ x ∈ queueEntryIds f, h.has x = true) : h.Sent (h.pairEntries env e f) := by
  have trio : ∀ s a b, h.has s = true → h.has a = true →
      h.Sent (if h.partyAlreadyIn1v2 a b then
          if h.phaseOf s = some .waiting then h.enqueueSolo s else h
        else (((h.takeWaitStarted s).takeWaitStarted a).takeWaitStarted b).startPartyVsSolo
          env s a b) := by
    intro s a b hs ha
    split
    · split
      · exact .of_quiet (posts_enqueueSolo ..) (books_enqueueSolo ..)
      · exact .refl h
    · refine Sent.before (sent_startPartyVsSolo ?_ (.inl ?_)) (by simp) (by simp)
      · rwa [has_congr (h := h) (by simp)]
      · rwa [has_congr (h := h) (by simp)]
  unfold pairEntries
  split
  · split
    · exact (sent_startSoloMatch _ _).before (by simp) (by simp)
    · refine Sent.foldl (fun k x => ?_) _ h
      split
      · exact .of_quiet (posts_enqueueSolo ..) (books_enqueueSolo ..)
      · exact .refl k
  · exact trio _ _ _ (he _ (by simp [queueEntryIds])) (hf _ (by simp [queueEntryIds]))
  · exact trio _ _ _ (hf _ (by simp [queueEntryIds])) (he _ (by simp [queueEntryIds]))
  · refine Sent.before (sent_startPartyVsParty ?_ ?_ ?_ ?_) (by simp) (by simp)
    · rw [has_congr (h := h) (by simp)]
      exact he _ (by simp [queueEntryIds])
    · rw [has_congr (h := h) (by simp)]
      exact he _ (by simp [queueEntryIds])
    · rw [has_congr (h := h) (by simp)]
      exact hf _ (by simp [queueEntryIds])
    · rw [has_congr (h := h) (by simp)]
      exact hf _ (by simp [queueEntryIds])
  · exact .refl h

theorem has_of_ready {e : QueueEntry} (hr : h.Ready env e) :
    ∀ x ∈ queueEntryIds e, h.has x = true := by
  intro x hx
  have hw := List.all_eq_true.mp hr.waiting x hx
  exact has_of_phase (of_decide_eq_true hw)

theorem sent_matchTurn (n : Nat) (first : QueueEntry) (rest : List QueueEntry) :
    h.Sent ((h.setQueue rest).matchTurn env n first).1 := by
  have hturn := matchTurn_cases h env n first rest
  generalize (h.setQueue rest).matchTurn env n first = r at hturn ⊢
  cases hturn with
  | drop => exact .of_quiet rfl rfl
  | rotate => exact .of_quiet rfl rfl
  | pair hi hm =>
      refine Sent.before (sent_pairEntries ?_ ?_) rfl rfl
      · exact fun x hx => has_of_ready hm.left x hx
      · exact fun x hx => has_of_ready hm.right x hx

theorem sent_matchLoop (n : Nat) (h : SimpleHub) : h.Sent (matchLoop env n h) := by
  induction n generalizing h with
  | zero => exact .refl h
  | succ n ih =>
      unfold matchLoop
      split
      · exact .refl h
      · next first rest hq =>
        have hturn : h.Sent ((h.setQueue rest).matchTurn env n first).1 :=
          sent_matchTurn n first rest
        split
        · next k hk =>
          rw [hk] at hturn
          exact hturn.trans (ih k)
        · next k hk =>
          rw [hk] at hturn
          exact hturn

theorem sent_rematch (h : SimpleHub) : h.Sent (h.rematch env) := sent_matchLoop _ h

end SimpleHub

end Ruletka
