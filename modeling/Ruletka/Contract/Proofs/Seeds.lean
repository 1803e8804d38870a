/-
Which seeds a session is derived from.

A claim is derived from its maker's seed and the seed of an offer it read.
It tells neither, so a claim left over from an earlier spin makes a match
like any other, and the meta, rebuilt from the offers of the lobby, may name
another session than the match. When what an agent reads of a partner is of
the current spins, and so is what it reads of itself when they are matched,
both name the session of the seeds in use.
-/
import Ruletka.Contract.Swarm
import Ruletka.Contract.Proofs.Agree

namespace Ruletka.Contract

-- ================================================================== what a lobby gathers

theorem Gathered.offer {posted : LobbyDelta → Prop} {s : LobbyState} (hs : Gathered posted s) :
    ∀ k, ∀ o ∈ s.offers.get? k, k = o.peerId ∧ ∃ d, posted d ∧ o ∈ d.offers := by
  have sweep : ∀ t : LobbyState,
      (∀ k, ∀ o ∈ t.offers.get? k, k = o.peerId ∧ ∃ d, posted d ∧ o ∈ d.offers) →
        ∀ k, ∀ o ∈ t.cleanup.offers.get? k, k = o.peerId ∧ ∃ d, posted d ∧ o ∈ d.offers := by
    intro t ht k o ho
    obtain ⟨k', ho', rfl | hk⟩ := (LobbyState.swept_cleanup t).offers k o ho
    · exact ht _ o ho'
    · exact ⟨hk, (ht k' o ho').2⟩
  induction hs with
  | new config => exact fun _ _ ho => nomatch ho
  | apply _ hd ih =>
      refine sweep _ fun k o ho => ?_
      rcases LobbyState.mem_mergeBy ho with ho | ho
      · exact ih k o ho
      · obtain ⟨hk, hmem⟩ := LobbyState.patch_offer _ _ ho
        exact ⟨hk, _, hd, hmem⟩
  | merge _ _ ihs iht => exact fun k o ho => (LobbyState.mem_mergeBy ho).elim (ihs k o) (iht k o)
  | cleanup _ ih => exact sweep _ ih

theorem Gathered.claim {posted : LobbyDelta → Prop} {s : LobbyState} (hs : Gathered posted s) :
    ∀ k, ∀ c ∈ s.claims.get? k, ∃ d, posted d ∧ c ∈ d.claims := by
  have sweep : ∀ t : LobbyState, (∀ k, ∀ c ∈ t.claims.get? k, ∃ d, posted d ∧ c ∈ d.claims) →
      ∀ k, ∀ c ∈ t.cleanup.claims.get? k, ∃ d, posted d ∧ c ∈ d.claims := by
    intro t ht k c hc
    obtain ⟨k', hc', -⟩ := (LobbyState.swept_cleanup t).claims k c hc
    exact ht k' c hc'
  induction hs with
  | new config => exact fun _ _ hc => nomatch hc
  | apply _ hd ih =>
      refine sweep _ fun k c hc => ?_
      rcases LobbyState.mem_mergeBy hc with hc | hc
      · exact ih k c hc
      · exact ⟨_, hd, LobbyState.patch_claim _ _ hc⟩
  | merge _ _ ihs iht => exact fun k c hc => (LobbyState.mem_mergeBy hc).elim (ihs k c) (iht k c)
  | cleanup _ ih => exact sweep _ ih

namespace Swarm

variable {ι : Type} [DecidableEq ι] {ed : Ed25519} {w : Swarm ι}

-- ===================================================================== current records

/-- The offer was posted in its agent's current spin. -/
def CurrentOffer (w : Swarm ι) (j : ι) (o : WaitingOffer) : Prop :=
  ∃ p ∈ w.posted, o ∈ p.1.offers ∧ p.2 j = w.spins j

/-- The claim was posted since both agents last spun. -/
def CurrentClaim (w : Swarm ι) (j k : ι) (c : Claim) : Prop :=
  ∃ p ∈ w.posted, c ∈ p.1.claims ∧ p.2 j = w.spins j ∧ p.2 k = w.spins k

/-- When the agent `i` ticks, the offer it reads of the partner is of the
partner's current spin. -/
def FreshWith (i : ι) (partner : PeerId) (w : Swarm ι) : SwarmEvent ι → Prop
  | .tick i' _ lobby => i' = i → ∀ o ∈ lobby.offers.get? partner,
      ∀ j, (w.agents j).peerId = partner → w.CurrentOffer j o
  | _ => True

/-- Nothing of an earlier spin is left over between the agent `i` and a partner: not
the offer of either of them, and no claim by `i` on the partner. -/
structure FreshMatch (w : Swarm ι) (i : ι) (partner : PeerId) (lobby : LobbyState) : Prop where
  own : ∀ o ∈ lobby.offers.get? (w.agents i).peerId, w.CurrentOffer i o
  their : ∀ o ∈ lobby.offers.get? partner, ∀ j, (w.agents j).peerId = partner →
    w.CurrentOffer j o
  claims : ∀ k, ∀ c ∈ lobby.claims.get? k, c.claimer = (w.agents i).peerId →
    c.target = partner → ∀ j, (w.agents j).peerId = partner → w.CurrentClaim i j c

/-- What current records are made from: any offer, and a claim of the agent `i` on
the partner. -/
structure Seeded (ed : Ed25519) (i : ι) (partner : PeerId) (w : Swarm ι) : Prop where
  distinct : Function.Injective fun i => (w.agents i).peerId
  stamps : ∀ p ∈ w.posted, ∀ j, p.2 j ≤ w.spins j
  offers : ∀ p ∈ w.posted, ∀ o ∈ p.1.offers, ∃ j, (w.agents j).peerId = o.peerId
    ∧ (p.2 j = w.spins j → o.sessionSeed = (w.agents j).sessionSeed)
  claims : ∀ p ∈ w.posted, ∀ c ∈ p.1.claims, c.claimer = (w.agents i).peerId →
    c.target = partner → ∃ j, (w.agents j).peerId = partner
      ∧ (p.2 i = w.spins i → p.2 j = w.spins j →
        c.sessionId = ed.derive c.claimer c.target (w.agents i).sessionSeed
          (w.agents j).sessionSeed)

variable {i : ι} {partner : PeerId}

omit [DecidableEq ι] in
theorem Seeded.currentOffer (hs : w.Seeded ed i partner) {j : ι} {o : WaitingOffer}
    (hj : (w.agents j).peerId = o.peerId) (hc : w.CurrentOffer j o) :
    o.sessionSeed = (w.agents j).sessionSeed := by
  obtain ⟨p, hp, ho, hstamp⟩ := hc
  obtain ⟨j', hj', hseed⟩ := hs.offers p hp o ho
  obtain rfl : j' = j := hs.distinct (hj'.trans hj.symm)
  exact hseed hstamp

omit [DecidableEq ι] in
theorem Seeded.currentClaim (hs : w.Seeded ed i partner) {j : ι} {c : Claim}
    (hclaimer : c.claimer = (w.agents i).peerId) (htarget : c.target = partner)
    (hj : (w.agents j).peerId = partner) (hc : w.CurrentClaim i j c) :
    c.sessionId = ed.derive c.claimer c.target (w.agents i).sessionSeed
      (w.agents j).sessionSeed := by
  obtain ⟨p, hp, hmem, hstamp, hstamp'⟩ := hc
  obtain ⟨j', hj', hsid⟩ := hs.claims p hp c hmem hclaimer htarget
  obtain rfl : j' = j := hs.distinct (hj'.trans hj.symm)
  exact hsid hstamp hstamp'

-- ============================================================================ moves

/-- An agent's move keeps records and seeds in step, when seeds change only
with the number of spins and what is posted is made from current seeds. -/
theorem Seeded.move (hs : w.Seeded ed i partner) {m : ι} {a : Agent} {d : LobbyDelta}
    {spins : ι → Nat} (hid : a.identity = (w.agents m).identity)
    (hspins : ∀ j, w.spins j ≤ spins j)
    (hseed : spins m = w.spins m → a.sessionSeed = (w.agents m).sessionSeed)
    (hoffers : ∀ o ∈ d.offers, o.peerId = (w.agents m).peerId ∧ o.sessionSeed = a.sessionSeed)
    (hclaims : ∀ c ∈ d.claims, c.claimer = (w.agents m).peerId ∧ (m = i → c.target = partner →
      ∃ j, j ≠ m ∧ (w.agents j).peerId = partner
        ∧ c.sessionId = ed.derive c.claimer c.target a.sessionSeed (w.agents j).sessionSeed)) :
    (w.move m spins (a, d)).Seeded ed i partner := by
  have hpeer : ∀ j, (Function.update w.agents m a j).peerId = (w.agents j).peerId := by
    intro j
    by_cases hj : j = m
    · subst hj
      rw [Function.update_self]
      exact congrArg Identity.peerId hid
    · rw [Function.update_of_ne hj]
  -- an old record that is still current is from before no spin
  have hkept : ∀ p ∈ w.posted, ∀ j, p.2 j = spins j → p.2 j = w.spins j
      ∧ (Function.update w.agents m a j).sessionSeed = (w.agents j).sessionSeed := by
    intro p hp j hstamp
    have hle := hs.stamps p hp j
    have hle' := hspins j
    refine ⟨by omega, ?_⟩
    by_cases hj : j = m
    · subst hj
      rw [Function.update_self]
      exact hseed (by omega)
    · rw [Function.update_of_ne hj]
  refine ⟨fun j j' hjj => hs.distinct ?_, fun p hp j => ?_, fun p hp o ho => ?_,
    fun p hp c hc hclaimer htarget => ?_⟩
  · simpa only [Swarm.move, hpeer] using hjj
  · rcases List.mem_append.mp hp with hp | hp
    · exact (hs.stamps p hp j).trans (hspins j)
    · rw [List.mem_singleton.mp hp]
      exact le_rfl
  · rcases List.mem_append.mp hp with hp | hp
    · obtain ⟨j, hj, hold⟩ := hs.offers p hp o ho
      refine ⟨j, (hpeer j).trans hj, fun hstamp => ?_⟩
      obtain ⟨hstamp', hsame⟩ := hkept p hp j hstamp
      exact (hold hstamp').trans hsame.symm
    · rw [List.mem_singleton.mp hp] at ho
      obtain ⟨hown, hown'⟩ := hoffers o ho
      refine ⟨m, (hpeer m).trans hown.symm, fun _ => ?_⟩
      change _ = (Function.update w.agents m a m).sessionSeed
      rw [Function.update_self]
      exact hown'
  · have hclaimer : c.claimer = (w.agents i).peerId := hclaimer.trans (hpeer i)
    rcases List.mem_append.mp hp with hp | hp
    · obtain ⟨j, hj, hold⟩ := hs.claims p hp c hc hclaimer htarget
      refine ⟨j, (hpeer j).trans hj, fun hstamp hstamp' => ?_⟩
      obtain ⟨h₁, hsame⟩ := hkept p hp i hstamp
      obtain ⟨h₂, hsame'⟩ := hkept p hp j hstamp'
      change _ = ed.derive _ _ (Function.update w.agents m a i).sessionSeed
        (Function.update w.agents m a j).sessionSeed
      rw [hsame, hsame']
      exact hold h₁ h₂
    · rw [List.mem_singleton.mp hp] at hc
      obtain ⟨hown, hnew⟩ := hclaims c hc
      obtain rfl : m = i := hs.distinct (hown.symm.trans hclaimer)
      obtain ⟨j, hjm, hj, hsid⟩ := hnew rfl htarget
      refine ⟨j, (hpeer j).trans hj, fun _ _ => ?_⟩
      change _ = ed.derive _ _ (Function.update w.agents m a m).sessionSeed
        (Function.update w.agents m a j).sessionSeed
      rw [Function.update_self, Function.update_of_ne hjm]
      exact hsid

theorem Seeded.tick (hs : w.Seeded ed i partner) {m : ι} {nowMs : Nat} {lobby : LobbyState}
    (hread : Gathered w.Posted lobby) (hfresh : w.FreshWith i partner (.tick m nowMs lobby)) :
    (w.step ed (.tick m nowMs lobby)).Seeded ed i partner := by
  change (w.move m w.spins ((w.agents m).tick ed lobby.view nowMs)).Seeded ed i partner
  rcases (w.agents m).tick_cases ed lobby.view nowMs with ⟨-, htick⟩ | ⟨-, hr⟩
  · rw [htick]
    exact hs.move rfl (fun _ => le_rfl) (fun _ => rfl) (fun _ ho => absurd ho List.not_mem_nil)
      fun _ hc => absurd hc List.not_mem_nil
  · generalize (w.agents m).tick ed lobby.view nowMs = moved at hr ⊢
    obtain ⟨a, d⟩ := moved
    refine hs.move hr.identity (fun _ => le_rfl) (fun _ => hr.seed) (fun o ho => ?_) fun c hc =>
      ⟨(hr.claims c hc).claimer, fun hm htarget => ?_⟩
    · obtain ⟨o', hoffers, hpeer, -, hseed⟩ := hr.offers
      change d.offers = _ at hoffers
      rw [hoffers, List.mem_singleton] at ho
      subst ho
      exact ⟨hpeer, hseed.trans hr.seed.symm⟩
    · have hclaim := hr.claims c hc
      obtain ⟨now, their, hlive, htheir, hsid⟩ := hclaim.seeds
      obtain ⟨k, hk⟩ := LobbyState.mem_valuesOf.mp (List.mem_of_mem_filter hlive)
      obtain ⟨hkey, d', ⟨p, hp, rfl⟩, ho⟩ := hread.offer k their hk
      obtain ⟨j, hj, -⟩ := hs.offers p hp their ho
      have hpartner : (w.agents j).peerId = partner := (hj.trans htheir).trans htarget
      rw [hkey, ← hj, hpartner] at hk
      have hcurrent := hs.currentOffer hj (hfresh hm their hk j hpartner)
      refine ⟨j, fun hjm => ?_, hpartner, ?_⟩
      · exact hclaim.ne ((hj.trans htheir).symm.trans
          (congrArg (fun x => (w.agents x).peerId) hjm))
      · have hseed : a.sessionSeed = (w.agents m).sessionSeed := hr.seed
        rw [hseed, ← hcurrent, hsid, hclaim.claimer]

theorem Seeded.step (hs : w.Seeded ed i partner) {e : SwarmEvent ι} (hread : w.Readable e)
    (hfresh : w.FreshWith i partner e) : (w.step ed e).Seeded ed i partner := by
  cases e with
  | tick m nowMs lobby => exact hs.tick hread hfresh
  | spin m nowMs seed =>
      refine hs.move rfl (fun j => ?_) (fun h => ?_) (fun o ho => ?_)
        fun _ hc => absurd hc List.not_mem_nil
      · by_cases hj : j = m
        · subst hj
          rw [Function.update_self]
          exact Nat.le_succ _
        · rw [Function.update_of_ne hj]
      · rw [Function.update_self] at h
        omega
      · obtain rfl := List.mem_singleton.mp ho
        exact ⟨rfl, rfl⟩
  | next m nowMs =>
      exact hs.move rfl (fun _ => le_rfl) (fun _ => rfl) (fun _ ho => absurd ho List.not_mem_nil)
        fun _ hc => absurd hc List.not_mem_nil

theorem seeded_of_reach (hr : ((swarmMachine ι ed).guard (FreshWith i partner)).Reach w) :
    w.Seeded ed i partner := by
  refine hr.invariant ?_ ?_
  · rintro w ⟨hposted, hdistinct⟩
    refine ⟨hdistinct, fun p hp => ?_, fun p hp => ?_, fun p hp => ?_⟩
    all_goals
      rw [hposted] at hp
      cases hp
  · rintro w e _ - hs ⟨hfresh, hread, rfl⟩
    exact hs.step hread hfresh

-- ========================================================================== coherence

/-- The session of a match is that of the seeds the two agents use, and the
meta names it. -/
def Coherent (ed : Ed25519) (w : Swarm ι) (i : ι) (partner : PeerId) (sid : SessionId)
    (a : Agent) : Prop :=
  ∃ j, (w.agents j).peerId = partner
    ∧ sid = ed.derive (w.agents i).peerId partner (w.agents i).sessionSeed
      (w.agents j).sessionSeed
    ∧ ∃ m, a.session.«meta» = some m ∧ m.sessionId = sid

omit [DecidableEq ι] in
theorem Seeded.coherent (hs : w.Seeded ed i partner) {lobby : LobbyState}
    (hread : Gathered w.Posted lobby) (hfresh : w.FreshMatch i partner lobby) {a : Agent}
    {d : LobbyDelta} (hid : a.identity = (w.agents i).identity) {sid : SessionId}
    (hm : (w.agents i).Matches ed lobby.view a d partner sid) :
    w.Coherent ed i partner sid a := by
  obtain ⟨⟨c, hc, hclaimer, htarget, rfl⟩, c', hc', hclaimer', -, -⟩ :=
    LobbyView.mutualMatch_some hm.mutual_
  obtain ⟨k, hk⟩ := LobbyState.mem_valuesOf.mp hc
  obtain ⟨d, ⟨p, hp, rfl⟩, hmem⟩ := hread.claim k c hk
  obtain ⟨j, hj, -⟩ := hs.claims p hp c hmem hclaimer htarget
  have hsid := hs.currentClaim hclaimer htarget hj (hfresh.claims k c hk hclaimer htarget j hj)
  rw [hclaimer, htarget] at hsid
  refine ⟨j, hj, hsid, _, hm.meta, ?_⟩
  have hpeer : a.peerId = (w.agents i).peerId := congrArg Identity.peerId hid
  unfold Agent.matchMeta
  split
  case h_1 o o' ho ho' =>
    rw [hpeer] at ho
    obtain ⟨hkey, -⟩ := hread.offer _ o ho
    obtain ⟨hkey', -⟩ := hread.offer _ o' ho'
    have hseed := hs.currentOffer hkey (hfresh.own o ho)
    have hseed' := hs.currentOffer (hj.trans hkey') (hfresh.their o' ho' j hj)
    change ed.derive o.peerId o'.peerId o.sessionSeed o'.sessionSeed = _
    rw [← hkey, ← hkey', hseed, hseed', hsid]
  case h_2 => rfl

-- =================================================================== concrete runs

/-- A lobby put together from some of the posted deltas, in this order. -/
def gather (w : Swarm ι) (picks : List Nat) : LobbyState :=
  (picks.filterMap fun n => w.posted[n]?.map Prod.fst).foldl LobbyState.applyDelta (.new .default)

omit [DecidableEq ι] in
theorem gathered_gather (w : Swarm ι) (picks : List Nat) : Gathered w.Posted (w.gather picks) := by
  have hfold : ∀ (ds : List LobbyDelta) (s : LobbyState), (∀ d ∈ ds, w.Posted d) →
      Gathered w.Posted s → Gathered w.Posted (ds.foldl LobbyState.applyDelta s) := by
    intro ds
    induction ds with
    | nil => exact fun _ _ hs => hs
    | cons d ds ih =>
        intro s hds hs
        obtain ⟨hd, hds⟩ := List.forall_mem_cons.mp hds
        exact ih _ hds (hs.apply hd)
  refine hfold _ _ (fun d hd => ?_) (.new _)
  obtain ⟨n, -, hn⟩ := List.mem_filterMap.mp hd
  obtain ⟨p, hp, rfl⟩ := Option.map_eq_some_iff.mp hn
  exact ⟨p, List.mem_of_getElem? hp, rfl⟩

/-- A step, computed. -/
def trace (ed : Ed25519) (w : Swarm ι) : SwarmEvent ι → Swarm ι
  | .spin i nowMs seed =>
      w.move i (Function.update w.spins i (w.spins i + 1)) ((w.agents i).spin nowMs seed)
  | .tick i nowMs lobby =>
      w.move i w.spins ((w.agents i).tick ed (lobby.viewBy Hall.listed) nowMs)
  | .next i nowMs => w.move i w.spins ((w.agents i).next nowMs)

theorem step_eq_trace (w : Swarm ι) (e : SwarmEvent ι) : w.step ed e = w.trace ed e := by
  cases e with
  | spin => rfl
  | next => rfl
  | tick i nowMs lobby =>
      exact congrArg (fun v => w.move i w.spins ((w.agents i).tick ed v nowMs))
        (Hall.view_eq_listed lobby)

instance [Fintype ι] (w : Swarm ι) (j : ι) (o : WaitingOffer) : Decidable (w.CurrentOffer j o) :=
  inferInstanceAs (Decidable (∃ p ∈ w.posted, o ∈ p.1.offers ∧ p.2 j = w.spins j))

instance [Fintype ι] (w : Swarm ι) (j k : ι) (c : Claim) : Decidable (w.CurrentClaim j k c) :=
  inferInstanceAs
    (Decidable (∃ p ∈ w.posted, c ∈ p.1.claims ∧ p.2 j = w.spins j ∧ p.2 k = w.spins k))

instance [Fintype ι] (i : ι) (partner : PeerId) (w : Swarm ι) :
    DecidablePred (FreshWith i partner w)
  | .tick _ _ lobby => inferInstanceAs (Decidable (_ → ∀ o ∈ lobby.offers.get? partner, _))
  | .spin .. | .next .. => .isTrue trivial

/-- `FreshMatch`, over the listed claims. -/
def freshNow [Fintype ι] (w : Swarm ι) (i : ι) (partner : PeerId) (lobby : LobbyState) : Bool :=
  decide (∀ o ∈ lobby.offers.get? (w.agents i).peerId, w.CurrentOffer i o)
    && decide (∀ o ∈ lobby.offers.get? partner, ∀ j, (w.agents j).peerId = partner →
      w.CurrentOffer j o)
    && (Hall.listed lobby.claims).all fun c =>
      decide (c.claimer = (w.agents i).peerId → c.target = partner →
        ∀ j, (w.agents j).peerId = partner → w.CurrentClaim i j c)

theorem mem_listed {V : Type} {t : Table Bytes32 V} {k : Bytes32} {v : V} (h : v ∈ t.get? k) :
    v ∈ Hall.listed t := by
  unfold Hall.listed
  rw [← Hall.sort_eq_inOrder]
  exact LobbyState.mem_valuesOf.mpr ⟨k, h⟩

omit [DecidableEq ι] in
theorem freshMatch_of_freshNow [Fintype ι] {lobby : LobbyState}
    (h : w.freshNow i partner lobby = true) : w.FreshMatch i partner lobby := by
  unfold freshNow at h
  rw [Bool.and_eq_true, Bool.and_eq_true, List.all_eq_true] at h
  obtain ⟨⟨hown, htheir⟩, hclaims⟩ := h
  exact ⟨of_decide_eq_true hown, of_decide_eq_true htheir,
    fun k c hc => of_decide_eq_true (hclaims c (mem_listed hc))⟩

/-- Two agents that have not posted anything. -/
def pairSwarm : Swarm Bool := ⟨Hall.pairHall.agents, fun _ => 0, []⟩

theorem start_pairSwarm : (swarmMachine Bool Hall.spellHash).start pairSwarm := by
  refine ⟨rfl, fun b b' hb => ?_⟩
  revert hb
  cases b <;> cases b' <;> decide

/-- Both spin, and both tick, reading all that was posted. -/
def bothClaim : List (Swarm Bool → SwarmEvent Bool) :=
  [fun _ => .spin true 1000 5, fun _ => .spin false 1000 6,
    fun w => .tick true 2000 (w.gather [0, 1]), fun w => .tick false 3000 (w.gather [0, 1, 2])]

def play (script : List (Swarm Bool → SwarmEvent Bool)) : Swarm Bool :=
  script.foldl (fun w f => w.trace Hall.spellHash (f w)) pairSwarm

theorem play_append (script : List (Swarm Bool → SwarmEvent Bool))
    (f : Swarm Bool → SwarmEvent Bool) :
    play (script ++ [f]) = (play script).trace Hall.spellHash (f (play script)) := by
  unfold play
  rw [List.foldl_append]
  rfl

theorem reach_play {C : Swarm Bool → SwarmEvent Bool → Prop}
    (script : List (Swarm Bool → SwarmEvent Bool)) (f : Swarm Bool → SwarmEvent Bool)
    (h : ((swarmMachine Bool Hall.spellHash).guard C).Reach (play script))
    (hc : C (play script) (f (play script))) (hread : (play script).Readable (f (play script))) :
    ((swarmMachine Bool Hall.spellHash).guard C).Reach (play (script ++ [f])) := by
  rw [play_append]
  exact h.step ⟨hc, hread, (step_eq_trace _ _).symm⟩

theorem reach_bothClaim :
    ((swarmMachine Bool Hall.spellHash).guard (FreshWith true 2)).Reach (play bothClaim) := by
  have h₀ : ((swarmMachine Bool Hall.spellHash).guard (FreshWith true 2)).Reach (play []) :=
    .start start_pairSwarm
  have h₁ := reach_play [] (fun _ => .spin true 1000 5) h₀ trivial trivial
  have h₂ := reach_play _ (fun _ => .spin false 1000 6) h₁ trivial trivial
  have h₃ := reach_play _ (fun w => .tick true 2000 (w.gather [0, 1])) h₂
    (by decide +kernel) (gathered_gather _ _)
  exact reach_play _ (fun w => .tick false 3000 (w.gather [0, 1, 2])) h₃
    (by decide +kernel) (gathered_gather _ _)

/-- One of them moves on and spins again. -/
def respin : List (Swarm Bool → SwarmEvent Bool) :=
  bothClaim ++ [fun _ => .next true 3500] ++ [fun _ => .spin true 3600 7]

/-- All that was posted, the new offer before the leave mark. -/
def respunLobby : LobbyState := (play respin).gather [0, 1, 2, 3, 5, 4]

theorem reach_respin : (swarmMachine Bool Hall.spellHash).Reach (play respin) := by
  have h₁ := reach_play bothClaim (fun _ => .next true 3500) reach_bothClaim trivial trivial
  exact (reach_play _ (fun _ => .spin true 3600 7) h₁ trivial trivial).of_guard

/-- After a respin the claims of the earlier spin still make the match: its
session is not that of the seeds in use. -/
theorem respin_mismatch : (swarmMachine Bool Hall.spellHash).Reach (play respin)
    ∧ Gathered (play respin).Posted respunLobby
    ∧ (((play respin).step Hall.spellHash (.tick true 4000 respunLobby)).agents true).phase
        = .matched 2 326475
      ∧ ¬ (play respin).Coherent Hall.spellHash true 2 326475
        (((play respin).step Hall.spellHash (.tick true 4000 respunLobby)).agents true) := by
  refine ⟨reach_respin, gathered_gather _ _, ?_, ?_⟩
  · rw [step_eq_trace]
    decide +kernel
  · rintro ⟨j, hj, hsid, -⟩
    cases j with
    | true =>
        revert hj
        decide +kernel
    | false =>
        revert hsid
        decide +kernel

/-- **Coherence**: while nothing of an earlier spin is left over in what an agent
reads of its partner, and of itself when they are matched, the match names the
session of the seeds in use, twice. -/
theorem match_coherent (hr : ((swarmMachine ι ed).guard (FreshWith i partner)).Reach w)
    {nowMs : Nat} {lobby : LobbyState} (hread : Gathered w.Posted lobby)
    (hfresh : w.FreshMatch i partner lobby) {sid : SessionId}
    (hbefore : ∀ p s, (w.agents i).phase ≠ .matched p s)
    (hafter : ((w.step ed (.tick i nowMs lobby)).agents i).phase = .matched partner sid) :
    w.Coherent ed i partner sid ((w.step ed (.tick i nowMs lobby)).agents i) := by
  change (Function.update w.agents i _ i).phase = _ at hafter
  change w.Coherent ed i partner sid (Function.update w.agents i _ i)
  rw [Function.update_self] at hafter ⊢
  rcases (w.agents i).tick_cases ed lobby.view nowMs with ⟨-, htick⟩ | ⟨-, hrenew⟩
  · rw [htick] at hafter
    exact absurd hafter (hbefore _ _)
  · rcases hrenew.ends with ⟨-, hno⟩ | ⟨p, s, hm⟩
    · exact absurd hafter (hno _ _)
    · cases hm.phase.symm.trans hafter
      exact (seeded_of_reach hr).coherent hread hfresh hrenew.identity hm

theorem match_coherent_pair :
    (play bothClaim).Coherent Hall.spellHash true 2 326475
      (((play bothClaim).step Hall.spellHash
        (.tick true 4000 ((play bothClaim).gather [0, 1, 2, 3]))).agents true) := by
  refine match_coherent reach_bothClaim (gathered_gather _ _)
    (freshMatch_of_freshNow (by decide +kernel)) ?_ ?_
  · have hphase : ((play bothClaim).agents true).phase = .claiming 2 326475 := by decide +kernel
    rw [hphase]
    exact fun _ _ => AgentPhase.noConfusion
  · rw [step_eq_trace]
    decide +kernel

end Swarm

end Ruletka.Contract
