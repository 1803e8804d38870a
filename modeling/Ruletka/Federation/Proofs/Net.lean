/-
Both ends of a federated session.

# Agreement

Session ids are fresh, so a session id stands for one grant, and the books of
every hub hold its sides (`FedNet.InStep`, by induction over the run). The
target has its side as soon as the grant exists, the asker when the grant comes
back and its client still waits. Hence no third hub ever has the session, each
end is reached from the other, and of the two clients told of a session one
offers.

# Relays

What a hub posts it posts for its side, to the base url of the other. The other
hub hands it to the one connection on its books, or to nobody.
-/
import Ruletka.Federation.Proofs.Books
import Ruletka.Chat.Proofs.Stranger

namespace Ruletka

open Text

-- ==================================================================== the chat

namespace ChatHub

variable {s : ChatHub} {T : CharTable} {env : Env} {id : ConnId} {raw body : String}

/-- What other hubs are concerned with. -/
def outer (s : ChatHub) : SimpleHub × List FedChat := (s.dm.hub, s.fedChats)

@[simp]
theorem outer_say (x : ConnId) (m : ChatMsg) : (s.say x m).outer = s.outer := by
  obtain ⟨out, h⟩ := s.say_eq x m
  rw [h]
  rfl

@[simp]
theorem outer_limited : (s.limited env id).outer = s.outer := by
  unfold outer
  rw [hub_limited]
  rfl

/-- The filter has no say in what other hubs are concerned with. -/
theorem outer_chatFilterBlocks (id : ConnId) (body : String) :
    (s.chatFilterBlocks T env id body).1.outer = s.outer := by
  have hnote : ∀ v, (s.noteAge env id v).outer = s.outer := by
    intro v
    unfold noteAge
    split <;> rfl
  have hblock : ∀ k : ChatHub, ∀ c category rule,
      (k.block env id c body category rule).outer = k.outer := by
    intro k c category rule
    unfold block countGrooming
    dsimp only
    rw [outer_say]
    split <;> rfl
  unfold chatFilterBlocks
  split
  · rfl
  · dsimp only
    split
    · split
      · exact hnote _
      · rw [hblock, hnote]
    · rfl

/-- A chat line leaves the hub alone, and queues at most one relay, in the
session of its sender. -/
theorem outer_handleChat (id : ConnId) (raw : String) :
    (s.handleChat T env id raw).outer = s.outer
      ∨ ∃ sid sess author body, s.fedSessionOf id = some (sid, sess)
        ∧ (s.handleChat T env id raw).outer
          = (s.dm.hub, s.fedChats ++ [⟨sess.remoteBaseUrl, sid, author, body⟩]) := by
  have hforward : ∀ (k : ChatHub) (body : String), k.outer = s.outer →
      (k.forward env id body).outer = s.outer
        ∨ ∃ sid sess author body', s.fedSessionOf id = some (sid, sess)
          ∧ (k.forward env id body).outer
            = (s.dm.hub, s.fedChats ++ [⟨sess.remoteBaseUrl, sid, author, body'⟩]) := by
    intro k body hk
    have hhub : k.dm.hub = s.dm.hub := congrArg Prod.fst hk
    have hchats : k.fedChats = s.fedChats := congrArg Prod.snd hk
    have hfed : k.fedSessionOf = s.fedSessionOf := by
      unfold fedSessionOf
      rw [hhub]
    unfold forward
    rw [hfed]
    cases hs : s.fedSessionOf id with
    | some q =>
        obtain ⟨sid, sess⟩ := q
        refine .inr ⟨sid, sess, ((k.dm.hub.get id).map (k.dm.nameOf id)).getD "anon", body, rfl, ?_⟩
        unfold relayChat
        dsimp only
        obtain ⟨out, hout⟩ := k.say_eq id (.chat (((k.dm.hub.get id).map
          (k.dm.nameOf id)).getD "anon") body (k.dm.hub.userOf id))
        rw [hout]
        unfold outer
        dsimp only
        rw [hhub, hchats]
    | none =>
        refine .inl ?_
        unfold deliverChat
        dsimp only
        split
        · rw [outer_say, hk]
        split
        · rw [say_foldl]
          change ((k.say id _).dm.hub, (k.say id _).fedChats) = _
          exact (k.outer_say id _).trans hk
        · rw [outer_say, hk]
  unfold handleChat
  dsimp only
  split
  · exact .inl (by rw [outer_say, outer_limited])
  split
  · exact .inl outer_limited
  split
  · exact .inl (by rw [outer_say, outer_limited])
  · have hfilter : ((s.limited env id).chatFilterBlocks T env id (trim raw)).1.outer = s.outer :=
      (outer_chatFilterBlocks id (trim raw)).trans outer_limited
    unfold pass
    dsimp only
    split
    · exact .inl hfilter
    · exact hforward _ _ hfilter

end ChatHub

-- ==================================================================== a match abroad

namespace SimpleHub

variable {h : SimpleHub} {env : Env}

/-- The `Matched` that a federated match sends. -/
def fedMatched (h : SimpleHub) (x : ConnId) (sid : SessionId × String) (r : FedPeerDesc)
    (o : Bool) : MatchedMsg where
  sessionId := sid.1
  sessionKey := sid.2
  isOfferer := o
  room := h.roomOf x
  mode := "solo"
  yourRole := "solo"
  peers :=
    [{ peerId := federatedPeerId sid.1 r.peerId
       shortId := r.shortId
       userId := r.userId
       isOfferer := o
       role := "stranger"
       friendCode := ""
       location := { flag := "", country := "", city := "", hideIp := false } }]
  forceRelay := false

theorem shown_startFederatedMatch {x : ConnId} {sid : SessionId × String} {r : FedPeerDesc}
    {base : String} {o : Bool} (hx : h.has x = true) :
    ((h.dequeueClient x).startFederatedMatch env x sid r base o).posts.shown
      = h.posts.shown ++ [(x, h.fedMatched x sid r o)] := by
  unfold startFederatedMatch
  dsimp only
  rw [posts_broadcastLobbyInfo, send, posts_emit]
  have hout : (h.dequeueClient x).has x = true := hx
  rw [if_pos]
  · refine congrArg₂ (· ++ ·) ?_ rfl
    refine congrArg Posts.shown (posts_modify (h.dequeueClient x) x _ fun c => rfl)
  · refine Eq.trans (has_congr ?_ x) hout
    exact (h.dequeueClient x).books_modify x _ fun c => ⟨rfl, rfl, rfl, rfl, rfl⟩

/-- Other hubs are told of the client that is picked as the hub knows it. -/
theorem pick_desc (h : SimpleHub) {q : ConnId × String × FedPeerDesc}
    (hq : h.pickWaitingSoloForFederation env = some q) : q.2.2.peerId = h.peerIdOf q.1 := by
  obtain ⟨e, -, he⟩ := List.exists_of_findSome?_eq_some hq
  cases e with
  | solo x =>
      dsimp only at he
      split at he
      · cases he
        rfl
      · cases he
  | _ => cases he

/-- A claim that comes back is taken by a client that still waits, or it is
refused and nothing happens. -/
theorem federationApplyClaim_cases (h : SimpleHub) (env : Env) (x : ConnId) (base : String)
    (resp : ClaimResponse) :
    h.AnswerTaken x ∧ h.federationApplyClaim env x base resp
        = (h.dequeueClient x).startFederatedMatch env x (resp.sessionId, resp.sessionKey)
          resp.claimedPeer (normalizeBase base) resp.callerIsOfferer
      ∨ h.federationApplyClaim env x base resp = h := by
  unfold federationApplyClaim
  split
  · exact .inr rfl
  · next hno =>
    simp only [Bool.or_eq_true, decide_eq_true_eq, not_or, Bool.not_eq_true,
      Option.isSome_eq_false_iff, Option.isNone_iff_eq_none, not_not] at hno
    exact .inl ⟨hno, rfl⟩

end SimpleHub

-- ==================================================================== the invariant

variable {Hid : Type} {F : FedConfig Hid}

/-- A claim on another hub, which names the client by the peer id it had when
it was picked. -/
structure Claim.Fair (F : FedConfig Hid) (picked : List (Hid × ConnId × String)) (c : Claim Hid) :
    Prop where
  apart : c.asker ≠ c.target
  caller : c.req.callerBaseUrl = F.base c.asker
  picked : (c.asker, c.client, c.req.remotePeer.peerId) ∈ picked

theorem Claim.Fair.grow {picked more : List (Hid × ConnId × String)} {c : Claim Hid}
    (h : c.Fair F picked) : c.Fair F (picked ++ more) :=
  { h with picked := List.mem_append_left more h.picked }

/-- A grant between two hubs, with the roles by the peer ids. -/
structure Grant.Fair (F : FedConfig Hid) (picked : List (Hid × ConnId × String)) (g : Grant Hid) :
    Prop where
  claim : g.claim.Fair F picked
  roles : g.resp.callerIsOfferer
    = SimpleHub.callerIsOfferer g.claim.req.remotePeer.peerId g.resp.claimedPeer.peerId

/-- Neither side of a grant is reached at its own hub. -/
theorem Grant.Fair.away {picked : List (Hid × ConnId × String)} {g : Grant Hid}
    (hf : g.Fair F picked) {i : Hid} {sess : FedSession} (hside : g.Side F i sess) :
    sess.remoteBaseUrl ≠ F.base i := by
  intro heq
  cases hside with
  | target => exact hf.claim.apart (F.base_injective heq)
  | asker => exact hf.claim.apart (F.base_injective heq).symm

/-- What the client on one side of a grant is told: whom it is with, and
whether it offers. The client given away has the peer id that the grant names. -/
inductive Grant.Tells (g : Grant Hid) : Told Hid → Prop where
  | target {m : MatchedMsg} (hsid : m.sessionId = g.sid)
      (hrole : m.isOfferer = !g.resp.callerIsOfferer)
      (hpeer : m.peers.map (·.peerId) = [federatedPeerId g.sid g.claim.req.remotePeer.peerId]) :
      Tells g ⟨g.claim.target, g.client, g.resp.claimedPeer.peerId, m⟩
  | asker (peerId : String) {m : MatchedMsg} (hsid : m.sessionId = g.sid)
      (hrole : m.isOfferer = g.resp.callerIsOfferer)
      (hpeer : m.peers.map (·.peerId) = [federatedPeerId g.sid g.resp.claimedPeer.peerId]) :
      Tells g ⟨g.claim.asker, g.claim.client, peerId, m⟩

theorem Grant.Tells.session {g : Grant Hid} {t : Told Hid} (ht : g.Tells t) :
    t.msg.sessionId = g.sid := by
  cases ht with
  | target hsid => exact hsid
  | asker _ hsid => exact hsid

namespace FedNet

variable {p : FedNet Hid}

/-- The hubs, what is in flight, and what was granted fit together. -/
structure InStep (F : FedConfig Hid) (p : FedNet Hid) : Prop where
  sane : ∀ i, (p.simple i).Sane .any ∅
  known : ∀ i, (p.simple i).fedBooks.Known F p.granted p.told p.grants i
  chats : ∀ i, ∀ c ∈ (p.hub i).fedChats, ∃ g sess,
    Grant.Posts F p.granted p.told i c.baseUrl c.request g sess
  candidates : ∀ i q, p.candidate i = some q → (i, q.1, q.2.2.peerId) ∈ p.picked
  claims : ∀ c ∈ p.claims, c.Fair F p.picked
  fair : ∀ g ∈ p.granted, g.Fair F p.picked
  ids : p.granted.Pairwise fun g g' => g.sid ≠ g'.sid
  pending : p.grants.Sublist p.granted
  postings : ∀ r ∈ p.postings, ∃ g sess,
    Grant.Posts F p.granted p.told r.sender r.baseUrl r.req g sess
  told : ∀ t ∈ p.told, ∃ g ∈ p.granted, g.Tells t
  once : p.told.Pairwise fun t u => t.hub = u.hub → t.msg.sessionId ≠ u.msg.sessionId
  untold : ∀ g ∈ p.grants, ∀ t ∈ p.told, t.hub = g.claim.asker → t.msg.sessionId ≠ g.sid

/-- A session id stands for one grant. -/
theorem InStep.grant_eq (hp : p.InStep F) {g g' : Grant Hid} (hg : g ∈ p.granted)
    (hg' : g' ∈ p.granted) (hsid : g.sid = g'.sid) : g = g' := by
  by_contra hne
  have : Std.Symm fun g g' : Grant Hid => g.sid ≠ g'.sid := ⟨fun _ _ h => h.symm⟩
  exact hp.ids.forall hg hg' hne hsid

theorem inStep_opens (hp : p.Opens F) : p.InStep F where
  sane i := by
    rw [(hp.hub i).1]
    exact SimpleHub.sane_empty trivial (F.sys i)
  known i := by
    rw [(hp.hub i).1]
    exact .empty
  chats i c hc := by
    rw [(hp.hub i).2] at hc
    cases hc
  candidates i q hq := by
    rw [hp.candidate i] at hq
    cases hq
  claims c hc := by
    rw [hp.claims] at hc
    cases hc
  fair g hg := by
    rw [hp.granted] at hg
    cases hg
  ids := by
    rw [hp.granted]
    exact .nil
  pending := by
    rw [hp.grants]
    exact List.nil_sublist _
  postings r hr := by
    rw [hp.postings] at hr
    cases hr
  told t ht := by
    rw [hp.told] at ht
    cases ht
  once := by
    rw [hp.told]
    exact .nil
  untold g hg := by
    rw [hp.grants] at hg
    cases hg

/-- A grant under a fresh session id is on no hub's books. -/
theorem InStep.vacant (hp : p.InStep F) {sid : SessionId} (hfresh : p.Fresh sid) (i : Hid) :
    (p.simple i).fedSessions.get? sid = none := by
  refine Option.eq_none_iff_forall_not_mem.mpr fun sess hs => ?_
  obtain ⟨g, hg, hsid, -⟩ := (hp.known i).sides sid sess hs
  exact hfresh g hg hsid

theorem InStep.not_told (hp : p.InStep F) {sid : SessionId} (hfresh : p.Fresh sid)
    {t : Told Hid} (ht : t ∈ p.told) : t.msg.sessionId ≠ sid := by
  obtain ⟨g, hg, htells⟩ := hp.told t ht
  rw [htells.session]
  exact hfresh g hg

/-- A grant that is made is on its way. -/
theorem InStep.grant (hp : p.InStep F) {g : Grant Hid} (hfair : g.Fair F p.picked)
    (hfresh : p.Fresh g.sid) :
    ({ p with grants := p.grants ++ [g], granted := p.granted ++ [g] } : FedNet Hid).InStep F where
  sane := hp.sane
  known i := by
    rw [← List.append_nil p.told]
    refine (hp.known i).regrant [] fun g' hg' _ => ?_
    rcases List.mem_append.mp hg' with hg' | hg'
    · exact .inl hg'
    · cases List.mem_singleton.mp hg'
      exact .inr (hp.vacant hfresh i)
  chats i c hc := by
    obtain ⟨g', sess, hpost⟩ := hp.chats i c hc
    rw [← List.append_nil p.told]
    exact ⟨g', sess, hpost.grow []⟩
  candidates := hp.candidates
  claims := hp.claims
  fair g' hg' := by
    rcases List.mem_append.mp hg' with hg' | hg'
    · exact hp.fair g' hg'
    · cases List.mem_singleton.mp hg'
      exact hfair
  ids := by
    refine List.pairwise_append.mpr ⟨hp.ids, List.pairwise_singleton _ _, fun g' hg' k hk => ?_⟩
    cases List.mem_singleton.mp hk
    exact hfresh g' hg'
  pending := hp.pending.append (List.Sublist.refl [g])
  postings r hr := by
    obtain ⟨g', sess, hpost⟩ := hp.postings r hr
    rw [← List.append_nil p.told]
    exact ⟨g', sess, hpost.grow []⟩
  told t ht := by
    obtain ⟨g', hg', htells⟩ := hp.told t ht
    exact ⟨g', List.mem_append_left [g] hg', htells⟩
  once := hp.once
  untold g' hg' t ht hi := by
    rcases List.mem_append.mp hg' with hg' | hg'
    · exact hp.untold g' hg' t ht hi
    · cases List.mem_singleton.mp hg'
      exact hp.not_told hfresh ht

/-- One more client is told of its session. -/
theorem InStep.tell (hp : p.InStep F) {g : Grant Hid} {t : Told Hid} (hg : g ∈ p.granted)
    (htells : g.Tells t)
    (hother : ∀ g' ∈ p.grants, g'.claim.asker = t.hub → g'.sid ≠ g.sid)
    (huntold : ∀ u ∈ p.told, u.hub = t.hub → u.msg.sessionId ≠ g.sid) :
    ({ p with told := p.told ++ [t] } : FedNet Hid).InStep F where
  sane := hp.sane
  known i := by
    have hk : (p.simple i).fedBooks.Known F (p.granted ++ []) (p.told ++ [t]) p.grants i :=
      (hp.known i).regrant [t] fun g' hg' _ => .inl hg'
    rwa [List.append_nil] at hk
  chats i c hc := by
    obtain ⟨g', sess, hpost⟩ := hp.chats i c hc
    have hgrow : Grant.Posts F (p.granted ++ []) (p.told ++ [t]) i c.baseUrl c.request g' sess :=
      hpost.grow [t]
    rw [List.append_nil] at hgrow
    exact ⟨g', sess, hgrow⟩
  candidates := hp.candidates
  claims := hp.claims
  fair := hp.fair
  ids := hp.ids
  pending := hp.pending
  postings r hr := by
    obtain ⟨g', sess, hpost⟩ := hp.postings r hr
    have hgrow : Grant.Posts F (p.granted ++ []) (p.told ++ [t]) r.sender r.baseUrl r.req g' sess :=
      hpost.grow [t]
    rw [List.append_nil] at hgrow
    exact ⟨g', sess, hgrow⟩
  told u hu := by
    rcases List.mem_append.mp hu with hu | hu
    · exact hp.told u hu
    · cases List.mem_singleton.mp hu
      exact ⟨g, hg, htells⟩
  once := by
    refine List.pairwise_append.mpr ⟨hp.once, List.pairwise_singleton _ _, fun u hu v hv hi => ?_⟩
    cases List.mem_singleton.mp hv
    rw [htells.session]
    exact huntold u hu hi
  untold g' hg' u hu hi := by
    rcases List.mem_append.mp hu with hu | hu
    · exact hp.untold g' hg' u hu hi
    · cases List.mem_singleton.mp hu
      rw [htells.session]
      exact (hother g' hg' hi.symm).symm

/-- A worker picks a client anew. -/
theorem InStep.pick [DecidableEq Hid] (hp : p.InStep F) (i : Hid) (env : Env) :
    ({ p with
      candidate := Function.update p.candidate i ((p.simple i).pickWaitingSoloForFederation env)
      picked := p.picked ++ ((p.simple i).pickWaitingSoloForFederation env).toList.map
        fun q => (i, q.1, (p.simple i).peerIdOf q.1) } : FedNet Hid).InStep F :=
  { hp with
    candidates := by
      intro j q hq
      dsimp only at hq
      by_cases hj : j = i
      · rw [hj, Function.update_self] at hq
        rw [hj, hq, (p.simple i).pick_desc hq]
        exact List.mem_append_right _ (List.mem_singleton_self _)
      · rw [Function.update_of_ne hj] at hq
        exact List.mem_append_left _ (hp.candidates j q hq)
    claims := fun c hc => (hp.claims c hc).grow
    fair := fun g hg => ⟨(hp.fair g hg).claim.grow, (hp.fair g hg).roles⟩ }

/-- The grant of a claim. -/
def granting (p : FedNet Hid) (c : Claim Hid) (env : Env) (x : ConnId) : Grant Hid :=
  ⟨c, x, env.fedSession.1, env.fedSession.2, (p.simple c.target).fedPeerDesc x,
    SimpleHub.callerIsOfferer c.req.remotePeer.peerId ((p.simple c.target).peerIdOf x)⟩

/-- A claim is granted with the first free waiter, who is matched at once, or
it is refused and nothing happens. -/
theorem answer_cases (p : FedNet Hid) (c : Claim Hid) (env : Env) :
    (∃ x, (p.simple c.target).ClaimTaken env c.req x
      ∧ p.answer c env = some (p.granting c env x)
      ∧ (p.simple c.target).federationClaim env c.req
        = ((p.simple c.target).dequeueClient x).startFederatedMatch env x env.fedSession
          c.req.remotePeer (SimpleHub.normalizeBase c.req.callerBaseUrl)
          (!SimpleHub.callerIsOfferer c.req.remotePeer.peerId ((p.simple c.target).peerIdOf x)))
    ∨ p.answer c env = none
      ∧ (p.simple c.target).federationClaim env c.req = p.simple c.target := by
  unfold answer SimpleHub.federationClaimAnswer SimpleHub.federationClaim
  dsimp only
  split_ifs with hbase hor hpeer hor hor
  · right
    split <;> simp_all
  · simp [hbase] at hor
  · right
    split <;> simp_all
  · simp [hpeer] at hor
  · simp [hbase, hpeer] at hor
  · cases hx : (p.simple c.target).freeSoloWaiter env (normalizeRoom c.req.room) with
    | none => exact .inr ⟨rfl, rfl⟩
    | some x => exact .inl ⟨x, ⟨hbase, hpeer, hx⟩, rfl, rfl⟩

variable [DecidableEq Hid]

/-- One hub changes, and nothing in flight. -/
theorem InStep.put (hp : p.InStep F) {i : Hid} {s : ChatHub} (hs : s.dm.hub.Sane .any ∅)
    (hk : s.dm.hub.fedBooks.Known F p.granted p.told p.grants i)
    (hc : ∀ c ∈ s.fedChats, ∃ g sess,
      Grant.Posts F p.granted p.told i c.baseUrl c.request g sess) : (p.put i s).InStep F := by
  refine { hp with sane := fun j => ?_, known := fun j => ?_, chats := fun j => ?_ }
  · unfold FedNet.simple FedNet.put
    dsimp only
    by_cases hj : j = i
    · rw [hj, Function.update_self]
      exact hs
    · rw [Function.update_of_ne hj]
      exact hp.sane j
  · unfold FedNet.simple FedNet.put
    dsimp only
    by_cases hj : j = i
    · rw [hj, Function.update_self]
      exact hk
    · rw [Function.update_of_ne hj]
      exact hp.known j
  · unfold FedNet.put
    dsimp only
    by_cases hj : j = i
    · rw [hj, Function.update_self]
      exact hc
    · rw [Function.update_of_ne hj]
      exact hp.chats j

theorem InStep.putHub (hp : p.InStep F) {i : Hid} {h' : SimpleHub} (hs : h'.Sane .any ∅)
    (hk : h'.fedBooks.Known F p.granted p.told p.grants i) : (p.putHub F i h').InStep F :=
  hp.put hs hk (hp.chats i)

-- ======================================================================== steps

/-- **Step**: what a hub does without another behind it. -/
theorem InStep.own (hp : p.InStep F) {i : Hid} {env : Env} {e : Event} {n : Nat} {h' : SimpleHub}
    (he : e.fromAbroad = false) (hr : (p.simple i).step env n e = some h') :
    (p.putHub F i h').InStep F := by
  have hclear : ∀ (b : FedBooks) x, b.Known F p.granted p.told p.grants i →
      (b.clear x).Known F p.granted p.told p.grants i := fun _ x hb => hb.clear x
  have hpush : ∀ (b : FedBooks) x sess o, b.Relays x sess o →
      b.Known F p.granted p.told p.grants i → (b.push o).Known F p.granted p.told p.grants i :=
    fun _ _ _ _ ho hb => hb.push ho
  obtain ⟨hs, hk⟩ := SimpleHub.Sane.own hclear hpush he (hp.sane i) (hp.known i) hr
  exact hp.putHub hs hk

/-- **Step**: a chat line. -/
theorem InStep.chat (hp : p.InStep F) (i : Hid) (env : Env) (id : ConnId) (raw : String) :
    (p.put i ((p.hub i).handleChat F.table env id raw)).InStep F := by
  rcases (p.hub i).outer_handleChat id raw with hout | ⟨sid, sess, author, body, hfed, hout⟩
  · have hhub : ((p.hub i).handleChat F.table env id raw).dm.hub = p.simple i :=
      congrArg Prod.fst hout
    have hchats : ((p.hub i).handleChat F.table env id raw).fedChats = (p.hub i).fedChats :=
      congrArg Prod.snd hout
    refine hp.put ?_ ?_ ?_
    · rw [hhub]
      exact hp.sane i
    · rw [hhub]
      exact hp.known i
    · rw [hchats]
      exact hp.chats i
  · have hhub : ((p.hub i).handleChat F.table env id raw).dm.hub = p.simple i :=
      congrArg Prod.fst hout
    have hchats : ((p.hub i).handleChat F.table env id raw).fedChats
        = (p.hub i).fedChats ++ [⟨sess.remoteBaseUrl, sid, author, body⟩] := congrArg Prod.snd hout
    refine hp.put ?_ ?_ fun c hc => ?_
    · rw [hhub]
      exact hp.sane i
    · rw [hhub]
      exact hp.known i
    · rw [hchats] at hc
      rcases List.mem_append.mp hc with hc | hc
      · exact hp.chats i c hc
      · cases List.mem_singleton.mp hc
        obtain ⟨s, hs, hd⟩ := Option.bind_eq_some_iff.mp hfed
        obtain ⟨sess', hsess, heq⟩ := Option.map_eq_some_iff.mp hd
        cases heq
        obtain ⟨g, hg, rfl, hside, hrec⟩ := (hp.known i).sides sid sess hsess
        exact ⟨g, sess, hg, rfl, hside, hrec, rfl, rfl⟩

/-- **Step**: what a hub has queued is posted. -/
theorem InStep.flush (hp : p.InStep F) (i : Hid) :
    ({ p.put i (p.drained i) with postings := p.postings ++ p.outgoing i } : FedNet Hid).InStep
      F := by
  have hput : (p.put i (p.drained i)).InStep F := by
    refine hp.put ?_ (hp.known i).drained fun c hc => absurd hc List.not_mem_nil
    exact { lobby := (hp.sane i).lobby, ring := (hp.sane i).ring, fed := trivial }
  refine { hput with postings := fun r hr => ?_ }
  rcases List.mem_append.mp hr with hr | hr
  · exact hp.postings r hr
  rcases List.mem_append.mp hr with hr | hr
  · obtain ⟨o, ho, rfl⟩ := List.mem_map.mp hr
    exact (hp.known i).outbox o ho
  · obtain ⟨c, hc, rfl⟩ := List.mem_map.mp hr
    exact hp.chats i c hc

/-- **Step**: a relay is handed over, or refused. -/
theorem InStep.relay (hp : p.InStep F) {r : Posting Hid} {target : Hid} {s : ChatHub}
    (hr : (p.hub target).federationRelayInbound r.req = .ok s) :
    (({ p with postings := p.postings.erase r } : FedNet Hid).put target s).InStep F := by
  have hless : ({ p with postings := p.postings.erase r } : FedNet Hid).InStep F :=
    { hp with postings := fun q hq => hp.postings q (List.mem_of_mem_erase hq) }
  obtain ⟨sess, -, -, rfl⟩ := (p.hub target).federationRelayInbound_eq_ok.mp hr
  unfold ChatHub.handOver
  split
  · exact hless.put ((hp.sane target).send _ _) (hp.known target) (hp.chats target)
  · obtain ⟨out, hout⟩ := (p.hub target).say_eq sess.localClient
      (.chat (if r.req.author = "" then "peer" else r.req.author) r.req.body "")
    rw [hout]
    exact hless.put (hp.sane target) (hp.known target) (hp.chats target)

/-- A hub gives one of its waiters a side of a grant, and tells it. -/
theorem InStep.seat (hp : p.InStep F) {g : Grant Hid} {i : Hid} {x : ConnId} {env : Env}
    {key : String} {r : FedPeerDesc} {base : String} {o : Bool} (hg : g ∈ p.granted)
    (hw : (p.simple i).phaseOf x = some .waiting) (hfree : (p.simple i).fedByClient.get? x = none)
    (hvacant : (p.simple i).fedSessions.get? g.sid = none)
    (hother : ∀ g' ∈ p.grants, g'.claim.asker = i → g'.sid ≠ g.sid)
    (huntold : ∀ t ∈ p.told, t.hub = i → t.msg.sessionId ≠ g.sid)
    (hside : g.Side F i ⟨x, (p.simple i).peerIdOf x, r.peerId, base⟩)
    (htells : g.Tells
      ⟨i, x, (p.simple i).peerIdOf x, (p.simple i).fedMatched x (g.sid, key) r o⟩) {h' : SimpleHub}
    (hh : ((p.simple i).dequeueClient x).startFederatedMatch env x (g.sid, key) r base o = h') :
    ({ p.putHub F i h' with told := p.told ++ announced i (p.simple i) h' } : FedNet Hid).InStep
      F := by
  subst hh
  have hsane : (((p.simple i).dequeueClient x).startFederatedMatch env x (g.sid, key) r base
      o).Sane .any ∅ := (hp.sane i).startFederatedMatch o trivial
  have hx : (p.simple i).has x = true := SimpleHub.has_of_phase hw
  have hrec : (⟨x, (p.simple i).peerIdOf x, r.peerId, base⟩ : FedSession).Recorded
      (p.told ++ [⟨i, x, (p.simple i).peerIdOf x, (p.simple i).fedMatched x (g.sid, key) r o⟩]) i
      g.sid :=
    ⟨_, List.mem_append_right _ (List.mem_singleton_self _), rfl, rfl, rfl, htells.session⟩
  have htold := hp.tell hg htells hother huntold
  unfold announced
  rw [SimpleHub.shown_startFederatedMatch hx, List.drop_left]
  exact htold.putHub hsane ((htold.known i).enter hfree hg hvacant hside hrec hother)

/-- A grant comes back. -/
theorem InStep.back (hp : p.InStep F) (g : Grant Hid) :
    ({ p with grants := p.grants.erase g } : FedNet Hid).InStep F :=
  { hp with
    known := fun i => by
      have hk : (p.simple i).fedBooks.Known F (p.granted ++ []) (p.told ++ []) (p.grants.erase g)
          i := (hp.known i).regrant [] fun g' hg' _ => .inl (List.mem_of_mem_erase hg')
      rwa [List.append_nil, List.append_nil] at hk
    pending := (List.erase_sublist).trans hp.pending
    untold := fun g' hg' => hp.untold g' (List.mem_of_mem_erase hg') }

/-- **Step**: a claim is answered. -/
theorem InStep.serve (hp : p.InStep F) {c : Claim Hid} {env : Env} (hc : c ∈ p.claims)
    (hfresh : p.Fresh env.fedSession.1) {h' : SimpleHub} {new : List (Grant Hid)}
    (hh : (p.simple c.target).federationClaim env c.req = h')
    (hnew : (p.answer c env).toList = new) :
    ({ p.putHub F c.target h' with
      claims := p.claims.erase c
      grants := p.grants ++ new
      granted := p.granted ++ new
      told := p.told ++ announced c.target (p.simple c.target) h' } : FedNet Hid).InStep F := by
  have hless : ({ p with claims := p.claims.erase c } : FedNet Hid).InStep F :=
    { hp with claims := fun k hk => hp.claims k (List.mem_of_mem_erase hk) }
  have hclaimed := hp.claims c hc
  rcases p.answer_cases c env with ⟨x, ⟨-, -, hx⟩, hanswer, hclaim⟩ | ⟨hanswer, hclaim⟩
  · obtain ⟨-, hw, -, hfree⟩ := SimpleHub.freeSoloWaiter_spec hx
    rw [hanswer] at hnew
    subst hnew
    have hmem : p.granting c env x ∈ p.granted ++ [p.granting c env x] :=
      List.mem_append_right _ (List.mem_singleton_self _)
    have hgrant := hless.grant (g := p.granting c env x) ⟨hclaimed, rfl⟩ hfresh
    refine hgrant.seat hmem hw hfree (hless.vacant hfresh c.target) ?_
      (fun t ht _ => hless.not_told hfresh ht) ?_ (.target rfl rfl rfl) (hclaim.symm.trans hh)
    · -- the grant itself is on its way to another hub
      intro g' hg' hasker hsid
      rw [hgrant.grant_eq (hgrant.pending.subset hg') hmem hsid] at hasker
      exact hclaimed.apart hasker
    · rw [hclaimed.caller, F.base_normal]
      exact .target
  · rw [hanswer] at hnew
    subst hnew
    have hsame : h' = p.simple c.target := hh.symm.trans hclaim
    have hput := hless.putHub (i := c.target) (hp.sane c.target) (hp.known c.target)
    rw [hsame, announced, List.drop_length]
    simp only [Option.toList_none, List.append_nil, List.map_nil]
    exact hput

/-- **Step**: a grant comes back. -/
theorem InStep.receive (hp : p.InStep F) {g : Grant Hid} {env : Env} (hg : g ∈ p.grants)
    {h' : SimpleHub} (hh : (p.simple g.claim.asker).federationApplyClaim env g.claim.client
      (F.base g.claim.target) g.resp = h') :
    ({ p.putHub F g.claim.asker h' with
      grants := p.grants.erase g
      told := p.told ++ announced g.claim.asker (p.simple g.claim.asker) h' } :
        FedNet Hid).InStep F := by
  have hback := hp.back g
  rcases (p.simple g.claim.asker).federationApplyClaim_cases env g.claim.client
    (F.base g.claim.target) g.resp with ⟨⟨hw, hfree⟩, hclaim⟩ | hclaim
  · have hnodup : p.grants.Nodup :=
      hp.pending.nodup (hp.ids.imp fun hne heq => hne (congrArg Grant.sid heq))
    refine hback.seat (hp.pending.subset hg) hw hfree
      ((hp.known g.claim.asker).vacant g hg rfl) (fun g' hg' _ hsid => ?_) (hp.untold g hg) ?_
      (.asker _ rfl rfl rfl) (hclaim.symm.trans hh)
    · rw [hp.grant_eq (hback.pending.subset hg') (hp.pending.subset hg) hsid] at hg'
      exact hnodup.not_mem_erase hg'
    · rw [F.base_normal]
      exact .asker _
  · have hsame : h' = p.simple g.claim.asker := hh.symm.trans hclaim
    have hput := hback.putHub (hp.sane g.claim.asker) (hback.known g.claim.asker)
    rw [hsame, announced, List.drop_length]
    simp only [List.append_nil, List.map_nil]
    exact hput

/-- **Step**: every event keeps the hubs in step. -/
theorem InStep.step (hp : p.InStep F) {n : Nat} {e : FedEvent Hid} {p' : FedNet Hid}
    (hr : p.step F n e = some p') : p'.InStep F := by
  cases e with
  | own i input =>
      dsimp only [FedNet.step] at hr
      split at hr
      · cases hr
      next habroad =>
      obtain ⟨h', hh, heq⟩ := Option.map_eq_some_iff.mp hr
      rw [← heq]
      exact hp.own (by simpa using habroad) hh
  | chat i env id raw =>
      cases hr
      exact hp.chat i env id raw
  | tick i env =>
      cases hr
      exact hp.pick i env
  | ask i target =>
      dsimp only [FedNet.step] at hr
      split at hr
      · cases hr
      next hapart =>
      obtain ⟨c, hc, heq⟩ := Option.map_eq_some_iff.mp hr
      rw [← heq]
      refine { hp with claims := fun k hk => ?_ }
      rcases List.mem_append.mp hk with hk | hk
      · exact hp.claims k hk
      · cases List.mem_singleton.mp hk
        obtain ⟨q, hq, rfl⟩ := Option.map_eq_some_iff.mp hc
        exact ⟨hapart, rfl, hp.candidates i q hq⟩
  | serve c env =>
      dsimp only [FedNet.step] at hr
      split at hr
      · next hc =>
        cases hr
        exact hp.serve hc.1 hc.2 rfl rfl
      · cases hr
  | receive g env =>
      dsimp only [FedNet.step] at hr
      split at hr
      · next hg =>
        cases hr
        exact hp.receive hg rfl
      · cases hr
  | flush i =>
      cases hr
      exact hp.flush i
  | relay r target =>
      dsimp only [FedNet.step] at hr
      split at hr
      · split at hr
        · next s hs =>
          cases hr
          exact hp.relay hs
        · cases hr
          exact { hp with postings := fun q hq => hp.postings q (List.mem_of_mem_erase hq) }
      · cases hr

/-- **Run**: the hubs of a reachable federation are in step. -/
theorem inStep_reach (hp : (fedMachine F).Reach p) : p.InStep F :=
  hp.invariant (I := InStep F) (fun _ hs => inStep_opens hs)
    fun _ _ _ _ hi hs => Exists.elim hs fun _ hr => hi.step hr

-- ===================================================================== agreement

/-- The two sides of a grant: hub `i` asked and hub `j` granted. Hub `i` knows
the other client by the peer id that it has on the books of its own hub, hub
`j` knows the other by the peer id that it had when it was picked. -/
structure Asks (p : FedNet Hid) (g : Grant Hid) (i j : Hid) (a b : FedSession) : Prop where
  asker : i = g.claim.asker
  target : j = g.claim.target
  granted : a.remotePeerId = b.localPeerId
  picked : (i, a.localClient, b.remotePeerId) ∈ p.picked

omit [DecidableEq Hid] in
/-- Two hubs that have a session have the two sides of a grant. -/
theorem InStep.sides_eq (hp : p.InStep F) {g : Grant Hid} {i j : Hid} {a b : FedSession}
    (hne : i ≠ j) (ha : g.Side F i a) (hb : g.Side F j b) (hg : g ∈ p.granted) :
    a.remoteBaseUrl = F.base j ∧ b.remoteBaseUrl = F.base i
      ∧ (p.Asks g i j a b ∨ p.Asks g j i b a) := by
  have hpicked := (hp.fair g hg).claim.picked
  cases ha with
  | target =>
      cases hb with
      | target => exact absurd rfl hne
      | asker => exact ⟨rfl, rfl, .inr ⟨rfl, rfl, rfl, hpicked⟩⟩
  | asker =>
      cases hb with
      | target => exact ⟨rfl, rfl, .inl ⟨rfl, rfl, rfl, hpicked⟩⟩
      | asker => exact absurd rfl hne

/-- **Run**: two hubs that have the same session reach each other through it,
one of them asked for it and the other granted it, each knows the other's
client by its peer id and gave the session to one client that has no other, and
no third hub has it. -/
theorem sessions_agree (hp : (fedMachine F).Reach p) {i j : Hid} {sid : SessionId}
    {a b : FedSession} (hne : i ≠ j) (ha : (p.simple i).fedSessions.get? sid = some a)
    (hb : (p.simple j).fedSessions.get? sid = some b) :
    a.remoteBaseUrl = F.base j ∧ b.remoteBaseUrl = F.base i
      ∧ (∃ g ∈ p.granted, g.sid = sid ∧ (p.Asks g i j a b ∨ p.Asks g j i b a))
      ∧ (∀ x, (p.simple i).fedByClient.get? x = some sid ↔ x = a.localClient)
      ∧ (∀ y, (p.simple j).fedByClient.get? y = some sid ↔ y = b.localClient)
      ∧ ∀ k, k ≠ i → k ≠ j → (p.simple k).fedSessions.get? sid = none := by
  have hstep := inStep_reach hp
  obtain ⟨g, hg, hsid, hi, -⟩ := (hstep.known i).sides sid a ha
  obtain ⟨g', hg', hsid', hj, -⟩ := (hstep.known j).sides sid b hb
  cases hstep.grant_eq hg hg' (hsid.trans hsid'.symm)
  obtain ⟨hbase, hbase', hends⟩ := hstep.sides_eq hne hi hj hg
  have hone : ∀ k t, (p.simple k).fedSessions.get? sid = some t → ∀ x,
      ((p.simple k).fedByClient.get? x = some sid ↔ x = t.localClient) := by
    intro k t ht x
    refine ((hstep.known k).paired x sid).trans ⟨?_, fun hx => ⟨t, ht, hx.symm⟩⟩
    rintro ⟨t', ht', hlocal⟩
    cases ht.symm.trans ht'
    exact hlocal.symm
  refine ⟨hbase, hbase', ⟨g, hg, hsid, hends⟩, hone i a ha, hone j b hb, fun k hki hkj => ?_⟩
  refine Option.eq_none_iff_forall_not_mem.mpr fun t ht => ?_
  obtain ⟨q, hq, hqsid, hk, -⟩ := (hstep.known k).sides sid t ht
  cases hstep.grant_eq hg hq (hsid.trans hqsid.symm)
  have hend : k = g.claim.asker ∨ k = g.claim.target := by
    cases hk with
    | target => exact .inr rfl
    | asker => exact .inl rfl
  rcases hends with hasks | hasks
  · rw [← hasks.asker, ← hasks.target] at hend
    exact hend.elim hki hkj
  · rw [← hasks.asker, ← hasks.target] at hend
    exact hend.elim hkj hki

/-- Two hubs. -/
def twoHubs : FedConfig Bool where
  base i := if i then "b" else "a"
  sys _ := plainSys
  table := bareTable
  base_injective := by decide
  base_normal := by decide +kernel

/-- Nobody is connected, and nothing is in flight. -/
def quietNet : FedNet Bool where
  hub _ := .silent (.empty plainSys)
  candidate _ := none
  claims := []
  grants := []
  postings := []
  granted := []
  picked := []
  told := []

theorem opens_quietNet : quietNet.Opens twoHubs where
  hub _ := ⟨rfl, rfl⟩
  candidate _ := rfl
  claims := rfl
  grants := rfl
  postings := rfl
  granted := rfl
  picked := rfl
  told := rfl

def pairClaim : Claim Bool := ⟨false, 1, true, ⟨"", "a", ⟨"p1", "p1", "u1"⟩⟩⟩

def pairGrant : Grant Bool := ⟨pairClaim, 2, ⟨"fed", "key", ⟨"p2", "p2", "u2"⟩, true⟩⟩

/-- A client waits at either hub, one hub asks the other for a partner, and
its client sends an offer. -/
def pairRun : List (FedEvent Bool) :=
  (script [(0, .connect 1 "ip1"), (1, .frame 1 (.spin ""))]).map (.own false)
    ++ (script [(0, .connect 2 "ip2"), (1, .frame 2 (.spin ""))]).map (.own true)
    ++ [.tick false (plainEnv 2), .ask false true, .serve pairClaim (plainEnv 3),
      .receive pairGrant (plainEnv 4)]
    ++ (script [(5, .frame 1 (.signal "offer" "sdp" ""))]).map (.own false) ++ [.flush false]

/-- The run ends where a test passes. -/
theorem reach_pairRun (read : FedNet Bool → Bool)
    (h : (Machine.follow (fun p e => p.step twoHubs 6 e) quietNet pairRun).any read = true) :
    ∃ p, (fedMachine twoHubs).Reach p ∧ read p = true :=
  Machine.exists_reach (M := fedMachine twoHubs) (fun _ _ _ hr => ⟨6, hr⟩) opens_quietNet h

/-- Both clients are in the session, and each is the other's. -/
theorem sessions_agree_two : ∃ p, (fedMachine twoHubs).Reach p ∧ ∃ a b,
    (p.simple false).fedSessions.get? "fed" = some a
      ∧ (p.simple true).fedSessions.get? "fed" = some b ∧ a.remoteBaseUrl = "b"
      ∧ b.remoteBaseUrl = "a"
      ∧ (∃ g ∈ p.granted, p.Asks g false true a b ∨ p.Asks g true false b a)
      ∧ ∀ x, (p.simple true).fedByClient.get? x = some "fed" ↔ x = b.localClient := by
  obtain ⟨p, hp, hread⟩ := reach_pairRun (fun p =>
    ((p.simple false).fedSessions.get? "fed").isSome
      && ((p.simple true).fedSessions.get? "fed").isSome) (by decide +kernel)
  rw [Bool.and_eq_true, Option.isSome_iff_exists, Option.isSome_iff_exists] at hread
  obtain ⟨⟨a, ha⟩, b, hb⟩ := hread
  obtain ⟨hbase, hbase', ⟨g, hg, -, hasks⟩, -, hclient, -⟩ :=
    sessions_agree hp Bool.false_ne_true ha hb
  exact ⟨p, hp, a, b, ha, hb, hbase, hbase', ⟨g, hg, hasks⟩, hclient⟩

/-- The announcements of the two ends of a session. Each names the client of
the other: the granting hub's by the peer id it has when it is told, the asking
hub's by the one it had when it was picked. The client that offers is the one
with the lesser of these ids. -/
structure OppositeEnds (picked : List (Hid × ConnId × String)) (asking granting : Told Hid) :
    Prop where
  apart : asking.hub ≠ granting.hub
  roles : asking.msg.isOfferer = !granting.msg.isOfferer
  names : asking.msg.peers.map (·.peerId)
    = [federatedPeerId asking.msg.sessionId granting.peerId]
  named : ∃ mine, (asking.hub, asking.client, mine) ∈ picked
    ∧ granting.msg.peers.map (·.peerId) = [federatedPeerId granting.msg.sessionId mine]
    ∧ (asking.msg.isOfferer = true ↔ mine < granting.peerId)

omit [DecidableEq Hid] in
/-- What the two sides of a grant are told. -/
theorem oppositeEnds_of_tells {picked : List (Hid × ConnId × String)} {g : Grant Hid}
    (hfair : g.Fair F picked) {t u : Told Hid} (hne : t.hub ≠ u.hub) (ht : g.Tells t)
    (hu : g.Tells u) : OppositeEnds picked t u ∨ OppositeEnds picked u t := by
  have hboth : ∀ (peerId : String) (m m' : MatchedMsg), m.sessionId = g.sid →
      m'.sessionId = g.sid → m.isOfferer = g.resp.callerIsOfferer →
      m'.isOfferer = !g.resp.callerIsOfferer →
      m.peers.map (·.peerId) = [federatedPeerId g.sid g.resp.claimedPeer.peerId] →
      m'.peers.map (·.peerId) = [federatedPeerId g.sid g.claim.req.remotePeer.peerId] →
      OppositeEnds picked ⟨g.claim.asker, g.claim.client, peerId, m⟩
        ⟨g.claim.target, g.client, g.resp.claimedPeer.peerId, m'⟩ := by
    intro peerId m m' hsid hsid' hrole hrole' hpeer hpeer'
    refine ⟨hfair.claim.apart, by rw [hrole, hrole', Bool.not_not], by rw [hpeer, hsid],
      g.claim.req.remotePeer.peerId, hfair.claim.picked, by rw [hpeer', hsid'], ?_⟩
    rw [hrole, hfair.roles, SimpleHub.callerIsOfferer, decide_eq_true_eq]
  cases ht with
  | target hsid hrole hpeer =>
      cases hu with
      | target => exact absurd rfl hne
      | asker _ hsid' hrole' hpeer' => exact .inr (hboth _ _ _ hsid' hsid hrole' hrole hpeer' hpeer)
  | asker _ hsid hrole hpeer =>
      cases hu with
      | target hsid' hrole' hpeer' =>
          exact .inl (hboth _ _ _ hsid hsid' hrole hrole' hpeer hpeer')
      | asker => exact absurd rfl hne

/-- **Run**: no two announcements of one session are made by one hub, and any
two are those of opposite ends. -/
theorem one_end_offers (hp : (fedMachine F).Reach p) :
    p.told.Pairwise fun t u => t.msg.sessionId = u.msg.sessionId →
      OppositeEnds p.picked t u ∨ OppositeEnds p.picked u t := by
  have hstep := inStep_reach hp
  refine hstep.once.imp_of_mem fun {t u} ht hu honce hsid => ?_
  have hapart : t.hub ≠ u.hub := fun h => honce h hsid
  obtain ⟨g, hg, htells⟩ := hstep.told t ht
  obtain ⟨g', hg', htells'⟩ := hstep.told u hu
  cases hstep.grant_eq hg hg' (by rw [← htells.session, ← htells'.session, hsid])
  exact oppositeEnds_of_tells (hstep.fair g hg) hapart htells htells'

/-- The two clients are told of each other, and one offers. -/
theorem one_end_offers_two : ∃ p : FedNet Bool, (fedMachine twoHubs).Reach p
    ∧ p.picked = [(false, 1, "p1")]
    ∧ p.told.map (fun t => (t.hub, t.client, t.peerId, t.msg.isOfferer,
        t.msg.peers.map (·.peerId)))
      = [(true, 2, "p2", false, ["fed/fed/p1"]), (false, 1, "p1", true, ["fed/fed/p2"])]
    ∧ p.told.Pairwise fun t u => t.msg.sessionId = u.msg.sessionId →
      OppositeEnds p.picked t u ∨ OppositeEnds p.picked u t := by
  obtain ⟨p, hp, hread⟩ := reach_pairRun (fun p => p.picked = [(false, 1, "p1")]
    ∧ p.told.map (fun t => (t.hub, t.client, t.peerId, t.msg.isOfferer,
        t.msg.peers.map (·.peerId)))
      = [(true, 2, "p2", false, ["fed/fed/p1"]), (false, 1, "p1", true, ["fed/fed/p2"])])
    (by decide +kernel)
  obtain ⟨hpicked, htold⟩ := of_decide_eq_true hread
  exact ⟨p, hp, hpicked, htold, one_end_offers hp⟩

/-- A relay is handed to the client on the other side of its session. What the
books of the sender call its own client there is the peer id that client was
told the session under, and a signal comes from the federated id of it. -/
structure Handed (F : FedConfig Hid) (p : FedNet Hid) (r : Posting Hid) (target : Hid)
    (s' : ChatHub) (g : Grant Hid) (mine theirs : FedSession) : Prop where
  granted : g ∈ p.granted
  session : g.sid = r.req.sessionId
  apart : r.sender ≠ target
  side : g.Side F r.sender mine
  other : g.Side F target theirs
  known : (p.simple target).fedSessions.get? g.sid = some theirs
  recorded : mine.Recorded p.told r.sender g.sid
  peer : r.req.fromPeer = mine.relayedFrom r.req
  heard : r.req.kind = .signal →
    ChatHub.relayFrom theirs r.req = federatedPeerId g.sid mine.localPeerId
  handed : s' = (p.hub target).handOver r.req theirs.localClient theirs

omit [DecidableEq Hid] in
theorem federatedPeerId_ne (session peer : String) : federatedPeerId session peer ≠ "" := by
  unfold federatedPeerId
  simp [String.append_eq_empty_iff]

theorem InStep.handed (hp : p.InStep F) {r : Posting Hid} {target : Hid} {n : Nat}
    {p' : FedNet Hid} (hr : p.step F n (.relay r target) = some p') :
    (∀ j, j ≠ target → p'.hub j = p.hub j)
      ∧ (p'.hub target = p.hub target
        ∨ ∃ g mine theirs, p.Handed F r target (p'.hub target) g mine theirs) := by
  dsimp only [FedNet.step] at hr
  split at hr
  case isFalse => cases hr
  case isTrue hpost =>
  obtain ⟨hmem, hbase⟩ := hpost
  split at hr
  case h_2 =>
    cases hr
    exact ⟨fun j _ => rfl, .inl rfl⟩
  case h_1 s hs =>
  cases hr
  obtain ⟨theirs, htheirs, -, rfl⟩ := (p.hub target).federationRelayInbound_eq_ok.mp hs
  obtain ⟨g, mine, hpost⟩ := hp.postings r hmem
  obtain ⟨g', hg', hsid', hside, -⟩ := (hp.known target).sides _ theirs htheirs
  cases hp.grant_eq hpost.granted hg' (hpost.session.trans hsid'.symm)
  have hapart : r.sender ≠ target := by
    rintro rfl
    exact (hp.fair g hg').away hpost.side (hpost.base.symm.trans hbase.symm)
  have hheard : r.req.kind = .signal →
      ChatHub.relayFrom theirs r.req = federatedPeerId g.sid mine.localPeerId := by
    intro hkind
    have hfrom : r.req.fromPeer = federatedPeerId g.sid mine.localPeerId := by
      rw [hpost.peer, FedSession.relayedFrom, hkind, hpost.session]
    rw [ChatHub.relayFrom, if_neg, hfrom]
    rw [hfrom]
    exact federatedPeerId_ne _ _
  rw [← hpost.session] at htheirs
  refine ⟨fun j hj => ?_, .inr ⟨g, mine, theirs, hg', hpost.session, hapart, hpost.side, hside,
    htheirs, hpost.recorded, hpost.peer, hheard, ?_⟩⟩
  · rw [FedNet.put]
    exact Function.update_of_ne hj _ p.hub
  · rw [FedNet.put]
    exact Function.update_self target _ p.hub

/-- **Run**: a relay touches no hub but the one it is posted to. There it is
handed to the client in the session it names, whose partner the sender's client
is; or it touches nothing. -/
theorem relay_reaches_partner (hp : (fedMachine F).Reach p) {r : Posting Hid} {target : Hid}
    {n : Nat} {p' : FedNet Hid} (hr : p.step F n (.relay r target) = some p') :
    (∀ j, j ≠ target → p'.hub j = p.hub j)
      ∧ (p'.hub target = p.hub target
        ∨ ∃ g mine theirs, p.Handed F r target (p'.hub target) g mine theirs) :=
  (inStep_reach hp).handed hr

/-- The offer, on its way. -/
def pairPosting : Posting Bool :=
  ⟨false, "b", ⟨"fed", .signal, "fed/fed/p1", "fed/fed/p2", "offer", "sdp", "p1", ""⟩⟩

/-- The offer is handed to the other client, from the first. -/
theorem relay_reaches_partner_two : ∃ p p' : FedNet Bool, (fedMachine twoHubs).Reach p
    ∧ p.step twoHubs 6 (.relay pairPosting true) = some p' ∧ p'.hub false = p.hub false
    ∧ p.told.map (fun t => (t.hub, t.client, t.peerId)) = [(true, 2, "p2"), (false, 1, "p1")]
    ∧ ∃ g mine theirs, p.Handed twoHubs pairPosting true (p'.hub true) g mine theirs := by
  let handed : FedNet Bool → FedNet Bool → Bool := fun p p' =>
    decide ((p'.simple true).out.length = (p.simple true).out.length + 1)
  obtain ⟨p, hp, hread⟩ := reach_pairRun (fun p =>
    (p.told.map fun t => (t.hub, t.client, t.peerId)) = [(true, 2, "p2"), (false, 1, "p1")]
      ∧ (p.step twoHubs 6 (.relay pairPosting true)).any (handed p)) (by decide +kernel)
  obtain ⟨htold, hread⟩ := of_decide_eq_true hread
  obtain ⟨p', hr, hout⟩ := (Option.any_eq_true _ _).mp hread
  obtain ⟨hrest, hsame | hhand⟩ := relay_reaches_partner hp hr
  · have hlen := of_decide_eq_true hout
    unfold FedNet.simple at hlen
    rw [hsame] at hlen
    omega
  · exact ⟨p, p', hp, hr, hrest false Bool.false_ne_true, htold, hhand⟩

end FedNet

end Ruletka
