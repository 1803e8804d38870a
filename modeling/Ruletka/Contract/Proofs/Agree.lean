/-
A match strands one of the two.

With its match an agent posts a leave mark of its newest version, and the
sweep that follows drops its offer and with it every claim it made. So the
lobby never holds a claim of a matched agent. The second of two agents needs
just that claim, and does not find it.
-/
import Ruletka.Contract.Hall
import Ruletka.Contract.Proofs.Authentic
import Ruletka.Contract.Proofs.Tick

namespace Ruletka.Contract

-- ===================================================================== what a delta does

namespace LobbyState

variable {s : LobbyState}

/-- Steps that leave a field alone. -/
theorem foldl_keeps {A B : Type} {f : LobbyState → A → LobbyState} (field : LobbyState → B)
    (hf : ∀ s a, field (f s a) = field s) (l : List A) (s : LobbyState) :
    field (l.foldl f s) = field s := by
  induction l generalizing s with
  | nil => rfl
  | cons a l ih => rw [List.foldl_cons, ih, hf]

/-- What steps put into a map, one of them did. -/
theorem foldl_brings {A V : Type} {f : LobbyState → A → LobbyState}
    (field : LobbyState → Table Bytes32 V) {k : Bytes32} {v : V} {P : A → Prop}
    (hf : ∀ s a, v ∈ (field (f s a)).get? k → v ∈ (field s).get? k ∨ P a) {l : List A}
    {s : LobbyState} (h : v ∈ (field (l.foldl f s)).get? k) :
    v ∈ (field s).get? k ∨ ∃ a ∈ l, P a := by
  induction l generalizing s with
  | nil => exact .inl h
  | cons a l ih =>
      rcases ih h with h | ⟨b, hb, hP⟩
      · exact (hf s a h).imp id fun hP => ⟨a, List.mem_cons_self, hP⟩
      · exact .inr ⟨b, List.mem_cons_of_mem _ hb, hP⟩

theorem upsertOffer_keeps (s : LobbyState) (o : WaitingOffer) :
    (upsertOffer s o).claims = s.claims ∧ (upsertOffer s o).leaves = s.leaves := by
  unfold upsertOffer
  split
  · split
    · exact ⟨rfl, rfl⟩
    · exact ⟨rfl, rfl⟩
  · exact ⟨rfl, rfl⟩

theorem insertClaim_keeps (s : LobbyState) (c : Claim) :
    (insertClaim s c).offers = s.offers ∧ (insertClaim s c).leaves = s.leaves := by
  unfold insertClaim
  split
  · exact ⟨rfl, rfl⟩
  · exact ⟨rfl, rfl⟩

theorem upsertLeave_keeps (s : LobbyState) (m : LeaveMark) :
    (upsertLeave s m).offers = s.offers ∧ (upsertLeave s m).claims = s.claims := by
  unfold upsertLeave
  split
  · split
    · exact ⟨rfl, rfl⟩
    · exact ⟨rfl, rfl⟩
  · exact ⟨rfl, rfl⟩

theorem patch_offer (delta : LobbyDelta) (config : LobbyConfig) {k : PeerId} {o : WaitingOffer}
    (h : o ∈ (delta.patch config).offers.get? k) : k = o.peerId ∧ o ∈ delta.offers := by
  have step : ∀ (s : LobbyState) (p : WaitingOffer), o ∈ (upsertOffer s p).offers.get? k →
      o ∈ s.offers.get? k ∨ k = p.peerId ∧ p = o := by
    intro s p h
    have hset : o ∈ (s.offers.set p.peerId p).get? k →
        o ∈ s.offers.get? k ∨ k = p.peerId ∧ p = o := by
      intro h
      rw [Table.get?_set] at h
      split at h
      case isTrue hk =>
        cases h
        exact .inr ⟨hk, rfl⟩
      case isFalse => exact .inl h
    unfold upsertOffer at h
    split at h
    · split at h
      · exact hset h
      · exact .inl h
    · exact hset h
  unfold LobbyDelta.patch at h
  rw [foldl_keeps (·.offers) fun s m => (upsertLeave_keeps s m).1,
    foldl_keeps (·.offers) fun s c => (insertClaim_keeps s c).1] at h
  rcases foldl_brings (·.offers) step h with h | ⟨p, hp, hk, rfl⟩
  · cases h
  · exact ⟨hk, hp⟩

theorem patch_claim (delta : LobbyDelta) (config : LobbyConfig) {k : Bytes32} {c : Claim}
    (h : c ∈ (delta.patch config).claims.get? k) : c ∈ delta.claims := by
  have step : ∀ (s : LobbyState) (d : Claim), c ∈ (insertClaim s d).claims.get? k →
      c ∈ s.claims.get? k ∨ d = c := by
    intro s d h
    unfold insertClaim at h
    split at h
    · exact .inl h
    · rw [Table.get?_set] at h
      split at h
      · cases h
        exact .inr rfl
      · exact .inl h
  unfold LobbyDelta.patch at h
  rw [foldl_keeps (·.claims) fun s m => (upsertLeave_keeps s m).2] at h
  rcases foldl_brings (·.claims) step h with h | ⟨d, hd, rfl⟩
  · rw [foldl_keeps (·.claims) fun s o => (upsertOffer_keeps s o).1] at h
    cases h
  · exact hd

/-- A patch of one leave mark holds it. -/
theorem patch_leave (delta : LobbyDelta) (config : LobbyConfig) {m : LeaveMark}
    (h : delta.leaves = [m]) : (delta.patch config).leaves.get? m.peerId = some m := by
  unfold LobbyDelta.patch
  rw [h, List.foldl_cons, List.foldl_nil]
  have hempty : ((delta.claims.foldl insertClaim (delta.offers.foldl upsertOffer
      (.new config))).leaves.get? m.peerId) = none := by
    rw [foldl_keeps (·.leaves) fun s c => (insertClaim_keeps s c).2,
      foldl_keeps (·.leaves) fun s o => (upsertOffer_keeps s o).2]
    rfl
  unfold upsertLeave
  rw [hempty]
  exact (Table.get?_set ..).trans (if_pos rfl)

theorem offer_applyDelta {delta : LobbyDelta} {k : PeerId} {o : WaitingOffer}
    (h : o ∈ (s.applyDelta delta).offers.get? k) :
    (∃ k', o ∈ s.offers.get? k') ∨ o ∈ delta.offers := by
  obtain ⟨k', ho, -⟩ := (swept_cleanup _).offers k o h
  exact (mem_mergeBy ho).imp (fun h => ⟨k', h⟩) fun h => (patch_offer _ _ h).2

theorem claim_applyDelta {delta : LobbyDelta} {k : Bytes32} {c : Claim}
    (h : c ∈ (s.applyDelta delta).claims.get? k) :
    (∃ k', c ∈ s.claims.get? k') ∨ c ∈ delta.claims := by
  obtain ⟨k', hc, -⟩ := (swept_cleanup _).claims k c h
  exact (mem_mergeBy hc).imp (fun h => ⟨k', h⟩) fun h => patch_claim _ _ h

/-- A claim that outlasts a sweep is by a peer with an offer that has not
left. -/
theorem claimer_stays {k : Bytes32} {c : Claim} (h : c ∈ s.cleanup.claims.get? k) :
    ∃ k' o, o ∈ s.offers.get? k' ∧ o.peerId = c.claimer ∧ s.isLeft o.peerId o.version = false := by
  have hcap : ∃ k',
      c ∈ ((s.sweepOffers s.networkNowMs).sweepClaims s.networkNowMs).claims.get? k' := by
    obtain ⟨k₁, h₁, -⟩ := swept_capClaims.claims k c h
    obtain ⟨k₂, h₂, -⟩ := swept_capOffers.claims k₁ c h₁
    exact ⟨k₂, h₂⟩
  obtain ⟨k', hc⟩ := hcap
  unfold sweepClaims at hc
  rw [Table.get?_retain] at hc
  have hlive := (Option.filter_eq_some_iff.mp hc).2
  rw [Bool.and_eq_true, Bool.and_eq_true, decide_eq_true_eq, decide_eq_true_eq] at hlive
  obtain ⟨p, hp, hpeer⟩ := Finset.mem_image.mp hlive.1.2
  obtain ⟨-, hany⟩ := Finset.mem_filter.mp hp
  obtain ⟨o, ho, hisLive⟩ := (Option.any_eq_true _ _).mp hany
  rw [ho] at hpeer
  unfold isLive at hisLive
  rw [Bool.and_eq_true, Bool.not_eq_true'] at hisLive
  exact ⟨p, o, mem_retain ho, hpeer, hisLive.1⟩

/-- A leave mark of the newest version takes every claim of its peer away. -/
theorem no_claim_of_left {delta : LobbyDelta} {m : LeaveMark} (hm : delta.leaves = [m])
    (hold : ∀ k, ∀ o ∈ s.offers.get? k, o.peerId = m.peerId → o.version ≤ m.version)
    (hnew : ∀ o ∈ delta.offers, o.peerId = m.peerId → o.version ≤ m.version) {k : Bytes32}
    {c : Claim} (h : c ∈ (s.applyDelta delta).claims.get? k) : c.claimer ≠ m.peerId := by
  intro hclaimer
  obtain ⟨k', o, ho, hpeer, hleft⟩ := claimer_stays h
  have hpeer' : o.peerId = m.peerId := hpeer.trans hclaimer
  have hversion : o.version ≤ m.version := (mem_mergeBy ho).elim (fun h => hold k' o h hpeer')
    fun h => hnew o (patch_offer _ _ h).2 hpeer'
  -- the mark that is kept is at least as new
  have hkept : ∃ m', (s.merge (delta.patch s.config)).leaves.get? m.peerId = some m'
      ∧ m.version ≤ m'.version := by
    have hget : (s.merge (delta.patch s.config)).leaves.get? m.peerId
        = Register.pick LeaveMark.beats (s.leaves.get? m.peerId) (some m) := by
      rw [← patch_leave delta s.config hm]
      exact Table.get?_mergeBy ..
    cases hl : s.leaves.get? m.peerId with
    | none =>
        rw [hl] at hget
        exact ⟨m, hget.trans (Register.pick_none_left _), le_rfl⟩
    | some e =>
        rw [hl] at hget
        cases hp : Register.pick LeaveMark.beats (some e) (some m) with
        | none =>
            rcases @Register.pick_choice _ LeaveMark.beats (some e) (some m) with h | h
            · cases hp.symm.trans h
            · cases hp.symm.trans h
        | some m' =>
            have hrank := (LeaveMark.follows.rank_le hp).2
            refine ⟨m', hget.trans hp, ?_⟩
            rcases Prod.Lex.le_iff.mp hrank with h | h
            · exact h.le
            · exact h.1.le
  obtain ⟨m', hm', hle⟩ := hkept
  unfold isLeft at hleft
  rw [hpeer', hm'] at hleft
  exact absurd (hversion.trans hle) (by simpa using hleft)

end LobbyState

-- ======================================================================== the invariant

namespace Hall

variable {ι : Type} [DecidableEq ι] {ed : Ed25519}

/-- No offer is newer than its agent, and no matched agent has a claim in the
lobby. -/
structure Stranding (h : Hall ι) : Prop where
  distinct : Function.Injective fun i => (h.agents i).peerId
  versions : ∀ i k, ∀ o ∈ h.lobby.offers.get? k, o.peerId = (h.agents i).peerId →
    o.version ≤ (h.agents i).version
  unclaimed : ∀ i, (∃ p s, (h.agents i).phase = .matched p s) →
    ∀ k, ∀ c ∈ h.lobby.claims.get? k, c.claimer ≠ (h.agents i).peerId

variable {h : Hall ι} {i : ι} {a : Agent} {d : LobbyDelta}

theorem le_nextVersion (v : Nat) : v ≤ nextVersion v := by
  unfold nextVersion
  split
  · exact Nat.le_succ v
  · exact le_rfl

/-- What every move of an agent keeps. -/
structure Moves (h : Hall ι) (i : ι) (a : Agent) (d : LobbyDelta) : Prop where
  identity : a.identity = (h.agents i).identity
  version : (h.agents i).version ≤ a.version
  offers : ∀ o ∈ d.offers, o.peerId = (h.agents i).peerId ∧ o.version = a.version
  claims : ∀ c ∈ d.claims, c.claimer = (h.agents i).peerId
  leaves : (∃ p s, a.phase = .matched p s) →
    ((∃ p s, (h.agents i).phase = .matched p s) ∧ d.offers = [] ∧ d.claims = [])
      ∨ ∃ m, d.leaves = [m] ∧ m.peerId = (h.agents i).peerId ∧ m.version = a.version

theorem Stranding.move (hs : h.Stranding) (hm : h.Moves i a d) : (h.move i (a, d)).Stranding := by
  have hid : ∀ j, (Function.update h.agents i a j).peerId = (h.agents j).peerId := by
    intro j
    by_cases hj : j = i
    · subst hj
      rw [Function.update_self]
      unfold Agent.peerId
      rw [hm.identity]
    · rw [Function.update_of_ne hj]
  refine ⟨?_, ?_, ?_⟩
  · intro j j' hjj
    refine hs.distinct ?_
    simpa only [Hall.move, hid] using hjj
  · intro j k o ho hpeer
    change o.peerId = (Function.update h.agents i a j).peerId at hpeer
    change o.version ≤ (Function.update h.agents i a j).version
    rw [hid] at hpeer
    by_cases hj : j = i
    · subst hj
      rw [Function.update_self]
      rcases LobbyState.offer_applyDelta ho with ⟨k', ho⟩ | ho
      · exact (hs.versions j k' o ho hpeer).trans hm.version
      · exact (hm.offers o ho).2.le
    · rw [Function.update_of_ne hj]
      rcases LobbyState.offer_applyDelta ho with ⟨k', ho⟩ | ho
      · exact hs.versions j k' o ho hpeer
      · exact absurd (hs.distinct (hpeer.symm.trans (hm.offers o ho).1)) hj
  · intro j hmatched k c hc
    change c.claimer ≠ (Function.update h.agents i a j).peerId
    change ∃ p s, (Function.update h.agents i a j).phase = _ at hmatched
    rw [hid]
    by_cases hj : j = i
    · subst hj
      rw [Function.update_self] at hmatched
      rcases hm.leaves hmatched with ⟨hbefore, -, hclaims⟩ | ⟨m, hleave, hpeer, hversion⟩
      · rcases LobbyState.claim_applyDelta hc with ⟨k', hc⟩ | hc
        · exact hs.unclaimed j hbefore k' c hc
        · rw [hclaims] at hc
          exact absurd hc List.not_mem_nil
      · rw [← hpeer]
        refine LobbyState.no_claim_of_left hleave (fun k' o ho ho' => ?_) (fun o ho _ => ?_) hc
        · rw [hversion]
          exact (hs.versions j k' o ho (ho'.trans hpeer)).trans hm.version
        · rw [hversion]
          exact (hm.offers o ho).2.le
    · rw [Function.update_of_ne hj] at hmatched
      rcases LobbyState.claim_applyDelta hc with ⟨k', hc⟩ | hc
      · exact hs.unclaimed j hmatched k' c hc
      · intro hclaimer
        exact hj (hs.distinct (hclaimer.symm.trans (hm.claims c hc)))

omit [DecidableEq ι] in
theorem moves_tick (h : Hall ι) (i : ι) (nowMs : Nat) :
    h.Moves i ((h.agents i).tick ed h.lobby.view nowMs).1
      ((h.agents i).tick ed h.lobby.view nowMs).2 := by
  rcases (h.agents i).tick_cases ed h.lobby.view nowMs with ⟨-, htick⟩ | ⟨-, hr⟩
  · rw [htick]
    exact ⟨rfl, le_rfl, fun _ ho => absurd ho List.not_mem_nil,
      fun _ hc => absurd hc List.not_mem_nil, fun hm => .inl ⟨hm, rfl, rfl⟩⟩
  · refine ⟨hr.identity, ?_, fun o ho => ?_, fun c hc => (hr.claims c hc).claimer, ?_⟩
    · rw [hr.version]
      exact le_nextVersion _
    · obtain ⟨o', hoffers, hpeer, hversion, -⟩ := hr.offers
      rw [hoffers, List.mem_singleton] at ho
      subst ho
      exact ⟨hpeer, hversion⟩
    · rintro ⟨p, s, hphase⟩
      rcases hr.ends with ⟨-, hno⟩ | ⟨partner, sid, hm⟩
      · exact absurd hphase (hno p s)
      · exact .inr ⟨_, hm.leaves, rfl, rfl⟩

omit [DecidableEq ι] in
theorem moves_spin (h : Hall ι) (i : ι) (nowMs : Nat) (seed : Bytes32) :
    h.Moves i ((h.agents i).spin nowMs seed).1 ((h.agents i).spin nowMs seed).2 where
  identity := rfl
  version := le_nextVersion _
  offers o ho := by
    obtain rfl := List.mem_singleton.mp ho
    exact ⟨rfl, rfl⟩
  claims _ hc := absurd hc List.not_mem_nil
  leaves := by
    rintro ⟨p, s, hphase⟩
    cases hphase

omit [DecidableEq ι] in
theorem moves_next (h : Hall ι) (i : ι) (nowMs : Nat) :
    h.Moves i ((h.agents i).next nowMs).1 ((h.agents i).next nowMs).2 where
  identity := rfl
  version := le_rfl
  offers _ ho := absurd ho List.not_mem_nil
  claims _ hc := absurd hc List.not_mem_nil
  leaves := by
    rintro ⟨p, s, hphase⟩
    cases hphase

theorem Stranding.step (hs : h.Stranding) (e : HallEvent ι) : (h.step ed e).Stranding := by
  cases e with
  | spin i nowMs seed => exact hs.move (moves_spin h i nowMs seed)
  | tick i nowMs => exact hs.move (moves_tick h i nowMs)
  | next i nowMs => exact hs.move (moves_next h i nowMs)

theorem stranding_of_reach {config : LobbyConfig} (hr : (hallMachine ι ed config).Reach h) :
    h.Stranding := by
  refine hr.invariant ?_ ?_
  · rintro h ⟨hlobby, hidle, hdistinct⟩
    refine ⟨hdistinct, fun i k o ho => ?_, ?_⟩
    · rw [hlobby] at ho
      cases ho
    · rintro i ⟨p, s, hphase⟩
      cases (hidle i).symm.trans hphase
  · rintro h e _ - hs rfl
    exact hs.step e

-- ======================================================================== being stranded

theorem agents_tick_of_ne {i j : ι} (hij : j ≠ i) (nowMs : Nat) :
    (h.step ed (.tick i nowMs)).agents j = h.agents j := Function.update_of_ne hij ..

/-- A matched agent stays as it is in a tick. -/
theorem matched_tick {i : ι} {p : PeerId} {s : SessionId} (hp : (h.agents i).phase = .matched p s)
    (j : ι) (nowMs : Nat) : ((h.step ed (.tick j nowMs)).agents i).phase = .matched p s := by
  by_cases hij : i = j
  · subst hij
    change (Function.update h.agents i _ i).phase = _
    rw [Function.update_self]
    rcases (h.agents i).tick_cases ed h.lobby.view nowMs with ⟨-, htick⟩ | ⟨hno, -⟩
    · rw [htick]
      exact hp
    · exact absurd hp (hno p s)
  · rw [agents_tick_of_ne hij]
    exact hp

/-- A tick that matches its agent finds a claim of the partner on it. -/
theorem claim_of_match {i : ι} {nowMs : Nat} {partner : PeerId} {sid : SessionId}
    (hbefore : ∀ p s, (h.agents i).phase ≠ .matched p s)
    (hafter : ((h.step ed (.tick i nowMs)).agents i).phase = .matched partner sid) :
    ∃ k c, h.lobby.claims.get? k = some c ∧ c.claimer = partner := by
  change (Function.update h.agents i _ i).phase = _ at hafter
  rw [Function.update_self] at hafter
  rcases (h.agents i).tick_cases ed h.lobby.view nowMs with ⟨-, htick⟩ | ⟨-, hr⟩
  · rw [htick] at hafter
    exact absurd hafter (hbefore _ _)
  · rcases hr.ends with ⟨-, hno⟩ | ⟨p, s, hm⟩
    · exact absurd hafter (hno _ _)
    · cases hm.phase.symm.trans hafter
      obtain ⟨-, c, hc, hclaimer, -⟩ := LobbyView.mutualMatch_some hm.mutual_
      obtain ⟨k, hk⟩ := LobbyState.mem_valuesOf.mp hc
      exact ⟨k, c, hk, hclaimer⟩

/-- No tick matches an agent with one that is matched already. -/
theorem not_matched_with (hs : h.Stranding) {i j : ι} {nowMs : Nat} {sid : SessionId}
    (hi : ∃ p s, (h.agents i).phase = .matched p s)
    (hbefore : ∀ s, (h.agents j).phase ≠ .matched (h.agents i).peerId s) :
    ((h.step ed (.tick j nowMs)).agents j).phase ≠ .matched (h.agents i).peerId sid := by
  intro hafter
  by_cases hj : ∃ p s, (h.agents j).phase = .matched p s
  · obtain ⟨p, s, hp⟩ := hj
    have hstay : ((h.step ed (.tick j nowMs)).agents j).phase = .matched p s :=
      matched_tick hp j nowMs
    cases hstay.symm.trans hafter
    exact hbefore _ hp
  · push Not at hj
    obtain ⟨k, c, hc, hclaimer⟩ := claim_of_match hj hafter
    exact hs.unclaimed i hi k c hc hclaimer

theorem stranded_ticks (hs : h.Stranding) {i j : ι} {p : PeerId} {s : SessionId}
    (hi : (h.agents i).phase = .matched p s)
    (hj : ∀ s, (h.agents j).phase ≠ .matched (h.agents i).peerId s) (l : List (ι × Nat)) :
    ∀ s, ((h.ticks ed l).agents j).phase ≠ .matched (h.agents i).peerId s := by
  induction l generalizing h with
  | nil => exact hj
  | cons t l ih =>
      obtain ⟨x, nowMs⟩ := t
      have hpeer : ((h.step ed (.tick x nowMs)).agents i).peerId = (h.agents i).peerId := by
        by_cases hx : i = x
        · subst hx
          change (Function.update h.agents i _ i).peerId = _
          rw [Function.update_self]
          exact congrArg Identity.peerId (@moves_tick _ ed h i nowMs).identity
        · rw [agents_tick_of_ne hx]
      rw [← hpeer]
      refine ih (hs.step _) (matched_tick hi x nowMs) ?_
      rw [hpeer]
      intro s'
      by_cases hx : j = x
      · subst hx
        exact not_matched_with hs ⟨p, _, hi⟩ hj
      · rw [agents_tick_of_ne hx]
        exact hj s'

/-- The agent `j` is matched with the agent `i` in this session already, or
its next tick, after any ticks of others, matches it so. -/
def Agrees (ed : Ed25519) (h : Hall ι) (i j : ι) (sid : SessionId) : Prop :=
  (h.agents j).phase = .matched (h.agents i).peerId sid
    ∨ ∀ others : List (ι × Nat), (∀ t ∈ others, t.1 ≠ j) → ∀ nowMs,
      (((h.ticks ed others).step ed (.tick j nowMs)).agents j).phase
        = .matched (h.agents i).peerId sid

theorem Stranding.alone (hs : h.Stranding) {i j : ι} {nowMs : Nat} {sid : SessionId} (hij : i ≠ j)
    (hbefore : ∀ p s, (h.agents i).phase ≠ .matched p s)
    (hafter : ((h.step ed (.tick i nowMs)).agents i).phase = .matched (h.agents j).peerId sid) :
    ¬ (h.step ed (.tick i nowMs)).Agrees ed i j sid
      ∧ ∀ l s, (((h.step ed (.tick i nowMs)).ticks ed l).agents j).phase
          ≠ .matched (h.agents i).peerId s := by
  -- the partner, had it been matched, would have no claim left to match on
  have hj : ∀ s, (h.agents j).phase ≠ .matched (h.agents i).peerId s := by
    intro s hmatched
    obtain ⟨k, c, hc, hclaimer⟩ := claim_of_match hbefore hafter
    exact hs.unclaimed j ⟨_, s, hmatched⟩ k c hc hclaimer
  have hpeer : ((h.step ed (.tick i nowMs)).agents i).peerId = (h.agents i).peerId := by
    change (Function.update h.agents i _ i).peerId = _
    rw [Function.update_self]
    exact congrArg Identity.peerId (@moves_tick _ ed h i nowMs).identity
  have halone : ∀ l s, (((h.step ed (.tick i nowMs)).ticks ed l).agents j).phase
      ≠ .matched (h.agents i).peerId s := by
    rw [← hpeer]
    refine stranded_ticks (hs.step _) hafter ?_
    rw [hpeer, agents_tick_of_ne hij.symm]
    exact hj
  refine ⟨?_, halone⟩
  unfold Agrees
  rw [hpeer]
  rintro (hmatched | hnext)
  · exact halone [] sid hmatched
  · exact halone [(j, nowMs)] sid (hnext [] (fun _ ht => absurd ht List.not_mem_nil) nowMs)

-- ==================================================================== two agents alone

/-- The ids of a set in increasing order, by insertion: the kernel computes
it. -/
def inOrder (s : Finset Bytes32) : List Bytes32 :=
  Quot.liftOn s.val (fun l => l.insertionSort (· ≤ ·)) fun _ _ h =>
    List.Perm.eq_of_pairwise (fun _ _ _ _ hab hba => le_antisymm hab hba)
      (List.pairwise_insertionSort _ _) (List.pairwise_insertionSort _ _)
      ((List.perm_insertionSort _ _).trans (h.trans (List.perm_insertionSort _ _).symm))

theorem sort_eq_inOrder (s : Finset Bytes32) : s.sort (· ≤ ·) = inOrder s := by
  obtain ⟨⟨l⟩, hl⟩ := s
  exact List.Perm.eq_of_pairwise (fun _ _ _ _ hab hba => le_antisymm hab hba)
    (Finset.pairwise_sort _ _) (List.pairwise_insertionSort _ _)
    ((Multiset.coe_eq_coe.mp (Finset.sort_eq _ _)).trans (List.perm_insertionSort _ _).symm)

def listed {V : Type} (t : Table Bytes32 V) : List V := (inOrder t.keys).filterMap t.get?

theorem view_eq_listed (s : LobbyState) : s.view = s.viewBy listed := by
  unfold LobbyState.view
  congr 1
  funext V t
  exact congrArg (List.filterMap t.get?) (sort_eq_inOrder t.keys)

/-- A step, computed. -/
def trace (ed : Ed25519) (h : Hall ι) : HallEvent ι → Hall ι
  | .spin i nowMs seed => h.move i ((h.agents i).spin nowMs seed)
  | .tick i nowMs => h.move i ((h.agents i).tick ed (h.lobby.viewBy listed) nowMs)
  | .next i nowMs => h.move i ((h.agents i).next nowMs)

theorem step_eq_trace (h : Hall ι) (e : HallEvent ι) : h.step ed e = h.trace ed e := by
  cases e with
  | spin => rfl
  | next => rfl
  | tick i nowMs =>
      unfold step trace
      rw [view_eq_listed]

/-- A hash that tells a few texts apart. -/
def spellHash : Ed25519 where
  sha256 bytes := Fin.ofNat _ (bytes.foldl (fun n b => (n * 31 + b.toNat) % 1000003) 7)
  isKey _ := true
  verify _ _ _ := true

def plainAgent (peer : PeerId) : Agent :=
  ⟨⟨[], peer, fun _ => []⟩, ⟨none, [], true, false⟩, .idle, 0, 0, .default, 0⟩

/-- Two agents and nobody else. -/
def pairHall : Hall Bool := ⟨.new .default, fun b => plainAgent (if b then 1 else 2)⟩

/-- Both spin, and both tick. -/
def pairRun : List (HallEvent Bool) :=
  [.spin true 1000 5, .spin false 1000 6, .tick true 2000, .tick false 3000]

def pairClaimed : Hall Bool := pairRun.foldl (fun h e => h.trace spellHash e) pairHall

theorem reach_pairClaimed : (hallMachine Bool spellHash .default).Reach pairClaimed := by
  have hrun : ∀ (l : List (HallEvent Bool)) (h : Hall Bool),
      (hallMachine Bool spellHash .default).Reach h →
        (hallMachine Bool spellHash .default).Reach
          (l.foldl (fun h e => h.trace spellHash e) h) := by
    intro l
    induction l with
    | nil => exact fun _ hr => hr
    | cons e l ih => exact fun h hr => ih _ (hr.step (step_eq_trace h e).symm)
  refine hrun _ _ (.start ⟨rfl, fun _ => rfl, ?_⟩)
  intro b b' hb
  revert hb
  cases b <;> cases b' <;> decide

theorem pairClaimed_waits (p : PeerId) (sid : SessionId) :
    (pairClaimed.agents true).phase ≠ .matched p sid := by
  have hphase : (pairClaimed.agents true).phase = .claiming 2 326475 := by decide +kernel
  rw [hphase]
  exact AgentPhase.noConfusion

theorem pairClaimed_matches :
    ((pairClaimed.step spellHash (.tick true 4000)).agents true).phase
      = .matched (pairClaimed.agents false).peerId 326475 := by
  rw [step_eq_trace]
  decide +kernel

/-- The first of the two is matched, and the second never is. -/
theorem pair_strands :
    ((pairClaimed.step spellHash (.tick true 4000)).agents true).phase
        = .matched (pairClaimed.agents false).peerId 326475
      ∧ ¬ (pairClaimed.step spellHash (.tick true 4000)).Agrees spellHash true false 326475 :=
  ⟨pairClaimed_matches, ((stranding_of_reach reach_pairClaimed).alone (by decide)
    pairClaimed_waits pairClaimed_matches).1⟩

/-- **Agreement**: whenever a tick matches an agent with another, the other is
not matched with it, and no number of ticks changes that. -/
theorem match_strands {config : LobbyConfig} (hr : (hallMachine ι ed config).Reach h) {i j : ι}
    {nowMs : Nat} {sid : SessionId} (hij : i ≠ j)
    (hbefore : ∀ p s, (h.agents i).phase ≠ .matched p s)
    (hafter : ((h.step ed (.tick i nowMs)).agents i).phase = .matched (h.agents j).peerId sid) :
    ¬ (h.step ed (.tick i nowMs)).Agrees ed i j sid
      ∧ ∀ l s, (((h.step ed (.tick i nowMs)).ticks ed l).agents j).phase
          ≠ .matched (h.agents i).peerId s :=
  (stranding_of_reach hr).alone hij hbefore hafter

theorem match_strands_pair :
    ¬ (pairClaimed.step spellHash (.tick true 4000)).Agrees spellHash true false 326475 :=
  (match_strands reach_pairClaimed (by decide) pairClaimed_waits pairClaimed_matches).1

end Hall

end Ruletka.Contract
