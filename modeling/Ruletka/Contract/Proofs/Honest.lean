/-
Agents whose signatures verify, before the contract and before each other.

# What they post is accepted

An agent signs every offer it posts with the key that its peer id is the hash
of. So do all lobbies put together from posted deltas, and the contract takes
every update with them.

# Of two that are matched one offers

Whatever lobby an agent was matched in, the session it notes is of itself and
its partner, in order.
-/
import Ruletka.Contract.Conversation
import Ruletka.Contract.Proofs.Seeds

namespace Ruletka.Contract

-- ======================================================================== signatures

/-- A key pair of the scheme, and the peer that its key stands for. -/
structure Ed25519.Sound (ed : Ed25519) (identity : Identity) : Prop where
  key : identity.verifyingKey.length = 32 ∧ ed.isKey identity.verifyingKey = true
  peer : ed.peerOf identity.verifyingKey = identity.peerId
  length : ∀ text, (identity.sign text).length = 64
  verify : ∀ text, ed.verify identity.verifyingKey text (identity.sign text) = true

/-- An offer that this identity made. -/
def Identity.Made (identity : Identity) (o : WaitingOffer) : Prop :=
  ∃ version heartbeatMs prefs seed, o = identity.makeOffer version heartbeatMs prefs seed

theorem Ed25519.Sound.valid {ed : Ed25519} {identity : Identity} (hs : ed.Sound identity)
    {o : WaitingOffer} (ho : identity.Made o) : validateOffer ed o = .ok () := by
  obtain ⟨version, heartbeatMs, prefs, seed, rfl⟩ := ho
  have hverify : ed.verifyOffer (identity.makeOffer version heartbeatMs prefs seed) = true := by
    unfold Ed25519.verifyOffer Ed25519.verifyDomain Identity.makeOffer
    simp [hs.key.1, hs.key.2, hs.peer, hs.length]
    exact hs.verify _
  have hlen : (identity.makeOffer version heartbeatMs prefs seed).verifyingKey.length = 32 :=
    hs.key.1
  unfold validateOffer
  simp [hverify, hlen]

-- ============================================================================ offers

namespace Agent

variable (ed : Ed25519) (lobby : LobbyView) (a : Agent)

theorem claimPartner_offers (offer : WaitingOffer) (live : List WaitingOffer) :
    (a.claimPartner ed offer live lobby).2.offers = [offer] := by
  unfold claimPartner
  dsimp only
  split
  · rfl
  · rfl

theorem checkMutual_offers (live : List WaitingOffer) (delta : LobbyDelta) :
    (a.checkMutual ed live lobby delta).2.offers = delta.offers := by
  cases hp : a.phase with
  | idle => simp only [checkMutual, hp]
  | matched p s => simp only [checkMutual, hp]
  | claiming target s =>
      cases hm : lobby.mutualMatch a.peerId target with
      | none => simp only [checkMutual, hp, hm]
      | some sid =>
          simp only [checkMutual, hp, hm]
          rfl
  | waiting =>
      cases hm : live.findSome? (a.sought lobby) with
      | none => simp only [checkMutual, hp, hm]
      | some found =>
          simp only [checkMutual, hp, hm]
          rfl

theorem renew_offers :
    ∃ b : Agent, b.identity = a.identity ∧ (a.renew ed lobby).2.offers = [b.currentOffer] := by
  let b : Agent := { a with version := nextVersion a.version }
  let live := b.liveOwned b.currentOffer (lobby.liveOffers (max lobby.networkNowMs b.nowMs))
  refine ⟨b, rfl, ?_⟩
  change (((b.claimPartner ed b.currentOffer live lobby).1).checkMutual ed live lobby
    (b.claimPartner ed b.currentOffer live lobby).2).2.offers = _
  rw [checkMutual_offers, claimPartner_offers]

/-- An agent posts its own offers. -/
theorem made_tick (nowMs : Nat) {o : WaitingOffer} (ho : o ∈ (a.tick ed lobby nowMs).2.offers) :
    a.identity.Made o := by
  unfold tick at ho
  dsimp only at ho
  have hmade : o ∈ ({ a with nowMs := max nowMs a.nowMs }.renew ed lobby).2.offers →
      a.identity.Made o := by
    intro ho
    obtain ⟨b, hb, hoffers⟩ := renew_offers ed lobby ({ a with nowMs := max nowMs a.nowMs })
    rw [hoffers, List.mem_singleton] at ho
    rw [ho]
    exact hb ▸ ⟨_, _, _, _, rfl⟩
  split at ho
  · exact hmade ho
  · exact hmade ho
  · cases ho
  · cases ho

end Agent

-- ======================================================================== the swarm

namespace Swarm

variable {ι : Type} [DecidableEq ι] {ed : Ed25519} {w : Swarm ι}

/-- Every posted offer was made by an agent. -/
structure Made (w : Swarm ι) : Prop where
  offers : ∀ p ∈ w.posted, ∀ o ∈ p.1.offers, ∃ i, (w.agents i).identity.Made o

theorem Made.move (hw : w.Made) {i : ι} {spins : ι → Nat} {a : Agent} {d : LobbyDelta}
    (hid : a.identity = (w.agents i).identity)
    (hd : ∀ o ∈ d.offers, (w.agents i).identity.Made o) : (w.move i spins (a, d)).Made where
  offers p hp o ho := by
    have hids : ∀ j, (Function.update w.agents i a j).identity = (w.agents j).identity := by
      intro j
      by_cases hj : j = i
      · rw [hj, Function.update_self, hid]
      · rw [Function.update_of_ne hj]
    rcases List.mem_append.mp hp with hp | hp
    · obtain ⟨j, hj⟩ := hw.offers p hp o ho
      refine ⟨j, ?_⟩
      change (Function.update w.agents i a j).identity.Made o
      rwa [hids j]
    · rw [List.mem_singleton.mp hp] at ho
      refine ⟨i, ?_⟩
      change (Function.update w.agents i a i).identity.Made o
      rw [hids i]
      exact hd o ho

theorem Made.step (hw : w.Made) (e : SwarmEvent ι) : (w.step ed e).Made := by
  cases e with
  | spin i nowMs seed =>
      refine hw.move rfl fun o ho => ?_
      exact ⟨_, _, _, _, List.mem_singleton.mp ho⟩
  | tick i nowMs lobby =>
      refine hw.move (a := ((w.agents i).tick ed lobby.view nowMs).1) ?_ fun o ho =>
        (w.agents i).made_tick ed lobby.view nowMs ho
      rcases (w.agents i).tick_cases ed lobby.view nowMs with ⟨-, htick⟩ | ⟨-, hr⟩
      · rw [htick]
      · exact hr.identity
  | next i nowMs => exact hw.move rfl fun _ ho => absurd ho List.not_mem_nil

theorem made_reach (hr : (swarmMachine ι ed).Reach w) : w.Made := by
  refine hr.invariant (I := Made) (fun w hw => ⟨fun p hp => ?_⟩) fun w e w' _ hw hs => ?_
  · rw [hw.1] at hp
    cases hp
  · rw [hs.2]
    exact hw.step e

/-- A lobby state that comes of posted deltas: one put together from them, or
the patch of one. -/
def Ours (w : Swarm ι) (s : LobbyState) : Prop :=
  Gathered w.Posted s ∨ ∃ d config, w.Posted d ∧ s = d.patch config

omit [DecidableEq ι] in
theorem valid_ours (hw : w.Made) (hs : ∀ i, ed.Sound (w.agents i).identity) {s : LobbyState}
    (h : w.Ours s) : validateLobby ed s = .ok () := by
  refine validateLobby_ok.mpr fun k o ho => ?_
  have hposted : ∃ d, w.Posted d ∧ o ∈ d.offers := by
    rcases h with hg | ⟨d, config, hd, rfl⟩
    · exact (hg.offer k o ho).2
    · exact ⟨d, hd, (LobbyState.patch_offer d config ho).2⟩
  obtain ⟨d, ⟨p, hp, rfl⟩, hmem⟩ := hposted
  obtain ⟨i, hi⟩ := hw.offers p hp o hmem
  exact (hs i).valid hi

/-- **Run**: when the agents' signatures verify, the lobby contract takes every
update made of what they posted, in whatever states and deltas it arrives, and
what comes of it is valid. -/
theorem honest_updates_accepted (hr : (swarmMachine ι ed).Reach w)
    (hsound : ∀ i, ed.Sound (w.agents i).identity) (codec : Codec LobbyState) {s : LobbyState}
    (hs : w.Ours s) {data : List UpdateData}
    (hdata : ∀ bytes ∈ data.flatMap UpdateData.payloads, ∃ p, w.Ours p ∧ bytes = codec.encode p) :
    ∃ t, (lobbyRules ed).updateState codec (codec.encode s) data = .ok (codec.encode t)
      ∧ (lobbyRules ed).validateState codec (codec.encode t) = .ok () := by
  have hmade := made_reach hr
  have hreads : ∀ l : List Bytes, (∀ bytes ∈ l, ∃ p, w.Ours p ∧ bytes = codec.encode p) →
      ∃ ps, (lobbyRules ed).Reads codec l ps ∧ ∀ p ∈ ps, validateLobby ed p = .ok () := by
    intro l
    induction l with
    | nil => exact fun _ => ⟨[], .nil, fun _ hp => absurd hp List.not_mem_nil⟩
    | cons bytes l ih =>
        intro hl
        obtain ⟨⟨p, hp, rfl⟩, hrest⟩ := List.forall_mem_cons.mp hl
        obtain ⟨ps, hps, hvalid⟩ := ih hrest
        have hpvalid := valid_ours hmade hsound hp
        refine ⟨p :: ps, .cons (Rules.readPatch_ok.mpr ⟨Rules.decodeState_encode p, hpvalid⟩) hps,
          List.forall_mem_cons.mpr ⟨hpvalid, hvalid⟩⟩
  obtain ⟨ps, hps, hvalid⟩ := hreads _ hdata
  have hfold : ∀ (l : List LobbyState) t, validateLobby ed t = .ok () →
      (∀ p ∈ l, validateLobby ed p = .ok ()) → validateLobby ed (l.foldl .update t) = .ok () := by
    intro l
    induction l with
    | nil => exact fun _ ht _ => ht
    | cons p l ih =>
        intro t ht hl
        obtain ⟨hp, hl⟩ := List.forall_mem_cons.mp hl
        exact ih _ (valid_update ht hp) hl
  have hout := hfold ps s (valid_ours hmade hsound hs) hvalid
  exact ⟨_, Rules.updateState_ok.mpr ⟨s, ps, Rules.decodeState_encode s, hps, hout, rfl⟩,
    Rules.validateState_ok.mpr ⟨_, Rules.decodeState_encode _, hout⟩⟩

/-- The peer 1 of the scheme with one byte to a key. -/
def byteAgent : Agent where
  identity := ⟨List.replicate 32 1, 1, fun _ => List.replicate 64 1⟩
  prefs := ⟨none, [], true, false⟩
  phase := .idle
  version := 0
  sessionSeed := 0
  session := .default
  nowMs := 0

theorem sound_byteAgent : byteScheme.Sound byteAgent.identity where
  key := ⟨rfl, rfl⟩
  peer := byteScheme_peerOf rfl
  length _ := rfl
  verify _ := rfl

/-- The only agent has spun. -/
def spunAlone : Swarm Unit :=
  (⟨fun _ => byteAgent, fun _ => 0, []⟩ : Swarm Unit).step byteScheme (.spin () 1000 5)

/-- The contract takes its offer. -/
theorem honest_updates_accepted_alone : ∃ t,
    (lobbyRules byteScheme).updateState (.ofFrame lobbyFrame)
        ((Codec.ofFrame lobbyFrame).encode (.new .default))
        [.delta ((Codec.ofFrame lobbyFrame).encode ((byteAgent.spin 1000 5).2.patch .default))]
      = .ok ((Codec.ofFrame lobbyFrame).encode t)
      ∧ (lobbyRules byteScheme).validateState (.ofFrame lobbyFrame)
        ((Codec.ofFrame lobbyFrame).encode t) = .ok () := by
  have hstart : (swarmMachine Unit byteScheme).Reach ⟨fun _ => byteAgent, fun _ => 0, []⟩ :=
    .start ⟨rfl, fun _ _ _ => rfl⟩
  have hspun : (swarmMachine Unit byteScheme).Reach spunAlone :=
    hstart.step (l := .spin () 1000 5) ⟨trivial, rfl⟩
  have hposted : spunAlone.Posted (byteAgent.spin 1000 5).2 :=
    ⟨_, List.mem_append_right _ (List.mem_singleton_self _), rfl⟩
  refine honest_updates_accepted hspun (fun _ => sound_byteAgent) (.ofFrame lobbyFrame)
    (.inl (.new .default)) fun bytes hbytes => ?_
  rw [List.mem_singleton.mp hbytes]
  exact ⟨_, .inr ⟨_, .default, hposted, rfl⟩, rfl⟩

-- ============================================================================ offering

/-- An agent that is matched has noted a session of itself and its partner, in
order. -/
def Noted (a : Agent) : Prop := ∀ p s, a.phase = .matched p s →
  ∃ m, a.session.«meta» = some m ∧ m.peerA = min a.peerId p ∧ m.peerB = max a.peerId p

/-- The note of a match in a lobby that keeps offers under their peers. -/
theorem noted_matchMeta {a : Agent} {ed : Ed25519} {partner : PeerId} {sid : SessionId}
    {lobby : LobbyView} (hkeys : ∀ k o, lobby.offer k = some o → k = o.peerId) :
    (a.matchMeta ed partner sid lobby).peerA = min a.peerId partner
      ∧ (a.matchMeta ed partner sid lobby).peerB = max a.peerId partner := by
  unfold Agent.matchMeta
  split
  case h_1 o o' ho ho' =>
    rw [hkeys _ o ho, hkeys _ o' ho', min_def, max_def]
    exact ⟨rfl, rfl⟩
  case h_2 =>
    rw [min_def, max_def]
    exact ⟨rfl, rfl⟩

theorem noted_tick {a : Agent} {ed : Ed25519} {lobby : LobbyState} {posted : LobbyDelta → Prop}
    (hread : Gathered posted lobby) (nowMs : Nat) (ha : Noted a) :
    Noted (a.tick ed lobby.view nowMs).1 := by
  rcases a.tick_cases ed lobby.view nowMs with ⟨-, htick⟩ | ⟨-, hr⟩
  · rw [htick]
    exact ha
  · intro p s hphase
    rcases hr.ends with ⟨-, hno⟩ | ⟨partner, sid, hm⟩
    · exact absurd hphase (hno p s)
    · cases hm.phase.symm.trans hphase
      exact ⟨_, hm.meta, noted_matchMeta fun k o ho => (hread.offer k o ho).1⟩

/-- A matched agent makes the offer when its peer id is not the greater. -/
theorem Noted.offers {a : Agent} (ha : Noted a) {p : PeerId} {s : SessionId}
    (hp : a.phase = .matched p s) : a.isWebrtcOfferer = true ↔ a.peerId ≤ p := by
  obtain ⟨m, hm, hpeer, -⟩ := ha p s hp
  unfold Agent.isWebrtcOfferer
  rw [hm, Option.any_some, decide_eq_true_eq, SessionMeta.webrtcOfferer, hpeer, min_eq_left_iff]

/-- The swarm, from when nobody is matched. -/
def unmatchedMachine (ι : Type) [DecidableEq ι] (ed : Ed25519) : Machine (Swarm ι) (SwarmEvent ι) :=
  { swarmMachine ι ed with
    start := fun w => (swarmMachine ι ed).start w
      ∧ ∀ i p s, (w.agents i).phase ≠ .matched p s }

structure InOrder (w : Swarm ι) : Prop where
  distinct : Function.Injective fun i => (w.agents i).peerId
  noted : ∀ i, Noted (w.agents i)

theorem InOrder.move (hw : w.InOrder) {i : ι} {spins : ι → Nat} {a : Agent} {d : LobbyDelta}
    (hid : a.identity = (w.agents i).identity) (ha : Noted a) :
    (w.move i spins (a, d)).InOrder where
  distinct j k hjk := by
    have hpeer : ∀ j, (Function.update w.agents i a j).peerId = (w.agents j).peerId := by
      intro j
      by_cases hj : j = i
      · rw [hj, Function.update_self]
        exact congrArg Identity.peerId hid
      · rw [Function.update_of_ne hj]
    refine hw.distinct ?_
    simpa only [Swarm.move, hpeer] using hjk
  noted j := by
    change Noted (Function.update w.agents i a j)
    by_cases hj : j = i
    · rw [hj, Function.update_self]
      exact ha
    · rw [Function.update_of_ne hj]
      exact hw.noted j

theorem InOrder.step (hw : w.InOrder) {e : SwarmEvent ι} (hread : w.Readable e) :
    (w.step ed e).InOrder := by
  cases e with
  | spin i nowMs seed => exact hw.move rfl fun _ _ h => AgentPhase.noConfusion h
  | tick i nowMs lobby =>
      refine hw.move (a := ((w.agents i).tick ed lobby.view nowMs).1) ?_
        (noted_tick hread nowMs (hw.noted i))
      rcases (w.agents i).tick_cases ed lobby.view nowMs with ⟨-, htick⟩ | ⟨-, hr⟩
      · rw [htick]
      · exact hr.identity
  | next i nowMs => exact hw.move rfl fun _ _ h => AgentPhase.noConfusion h

theorem inOrder_reach (hr : (unmatchedMachine ι ed).Reach w) : w.InOrder := by
  refine hr.invariant (I := InOrder) (fun w hw => ?_) fun w e w' _ hw hs => ?_
  · obtain ⟨⟨-, hdistinct⟩, hunmatched⟩ := hw
    exact ⟨hdistinct, fun i p s hp => absurd hp (hunmatched i p s)⟩
  · obtain ⟨hread, rfl⟩ := hs
    exact hw.step hread

/-- **Run**: of two agents that are matched with each other exactly one makes
the offer, the one with the smaller peer id, whatever each of them read. -/
theorem one_webrtc_offerer (hr : (unmatchedMachine ι ed).Reach w) {i j : ι} {s s' : SessionId}
    (hij : i ≠ j) (hi : (w.agents i).phase = .matched (w.agents j).peerId s)
    (hj : (w.agents j).phase = .matched (w.agents i).peerId s') :
    ((w.agents i).isWebrtcOfferer = true ↔ (w.agents i).peerId < (w.agents j).peerId)
      ∧ (w.agents j).isWebrtcOfferer = !(w.agents i).isWebrtcOfferer := by
  have hw := inOrder_reach hr
  have hi := (hw.noted i).offers hi
  have hj := (hw.noted j).offers hj
  have hne : (w.agents i).peerId ≠ (w.agents j).peerId := fun heq => hij (hw.distinct heq)
  refine ⟨hi.trans hne.le_iff_lt, ?_⟩
  rw [Bool.eq_iff_iff, hj, Bool.not_eq_true', ← Bool.not_eq_true, hi, not_le, hne.symm.le_iff_lt]

/-- Both spin, both claim, and both read the claims. -/
def bothMatch : List (Swarm Bool → SwarmEvent Bool) :=
  bothClaim ++ [fun w => .tick true 4000 (w.gather [0, 1, 2, 3])]
    ++ [fun w => .tick false 4000 (w.gather [0, 1, 2, 3])]

theorem reach_unmatched_play (script : List (Swarm Bool → SwarmEvent Bool))
    (f : Swarm Bool → SwarmEvent Bool)
    (h : (unmatchedMachine Bool Hall.spellHash).Reach (play script))
    (hread : (play script).Readable (f (play script))) :
    (unmatchedMachine Bool Hall.spellHash).Reach (play (script ++ [f])) := by
  rw [play_append]
  exact h.step (M := unmatchedMachine Bool Hall.spellHash) ⟨hread, (step_eq_trace _ _).symm⟩

theorem reach_bothMatch : (unmatchedMachine Bool Hall.spellHash).Reach (play bothMatch) := by
  have hidle : ∀ i, ((play []).agents i).phase = .idle := by decide
  have h₀ : (unmatchedMachine Bool Hall.spellHash).Reach (play []) := by
    refine .start ⟨start_pairSwarm, fun i p s hp => ?_⟩
    rw [hidle i] at hp
    cases hp
  have h₁ := reach_unmatched_play [] (fun _ => .spin true 1000 5) h₀ trivial
  have h₂ := reach_unmatched_play _ (fun _ => .spin false 1000 6) h₁ trivial
  have h₃ := reach_unmatched_play _ (fun w => .tick true 2000 (w.gather [0, 1])) h₂
    (gathered_gather _ _)
  have h₄ := reach_unmatched_play _ (fun w => .tick false 3000 (w.gather [0, 1, 2])) h₃
    (gathered_gather _ _)
  have h₅ := reach_unmatched_play _ (fun w => .tick true 4000 (w.gather [0, 1, 2, 3])) h₄
    (gathered_gather _ _)
  exact reach_unmatched_play _ (fun w => .tick false 4000 (w.gather [0, 1, 2, 3])) h₅
    (gathered_gather _ _)

/-- The peers 1 and 2 are matched with each other, and one of them offers. -/
theorem one_webrtc_offerer_pair :
    ((play bothMatch).agents true).phase = .matched 2 326475
      ∧ ((play bothMatch).agents false).phase = .matched 1 326475
      ∧ ((play bothMatch).agents false).isWebrtcOfferer
        = !((play bothMatch).agents true).isWebrtcOfferer := by
  have hi : ((play bothMatch).agents true).phase = .matched 2 326475 := by decide +kernel
  have hj : ((play bothMatch).agents false).phase = .matched 1 326475 := by decide +kernel
  have htrue : ((play bothMatch).agents true).peerId = 1 := by decide +kernel
  have hfalse : ((play bothMatch).agents false).peerId = 2 := by decide +kernel
  exact ⟨hi, hj, (one_webrtc_offerer reach_bothMatch Bool.noConfusion
    (hi.trans (congrArg (AgentPhase.matched · 326475) hfalse.symm))
    (hj.trans (congrArg (AgentPhase.matched · 326475) htrue.symm))).2⟩

end Swarm

end Ruletka.Contract
