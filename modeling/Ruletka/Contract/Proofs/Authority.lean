/-
Who may take an offer out of the lobby.

While all records of an update are authentic, an offer leaves its place for a
reason that has the key of its peer behind it: another offer of that peer takes
the place, or a leave mark of the peer has caught up with it. Two reasons need
no key. The sweep drops an offer when the clock is too far ahead of it, and any
record sets the clock; and the cap drops an offer when too many fresher ones
are there. An offer is safe from both while the records in play are neither so
late nor so many.
-/
import Ruletka.Contract.Proofs.Cleanup

namespace Ruletka.Contract

open Register

variable {ed : Ed25519} {U : Set LobbyState} {old s q : LobbyState} {o : WaitingOffer}

namespace LobbyState

/-- An offer of a state in play, in its place there or under its own id. -/
def Offered (U : Set LobbyState) (k : PeerId) (o : WaitingOffer) : Prop :=
  ∃ a ∈ U, ∃ k', o ∈ a.offers.get? k' ∧ (k = k' ∨ k = o.peerId)

/-- A lobby of the states in play. -/
structure Composed (U : Set LobbyState) (old s : LobbyState) : Prop where
  offers : ∀ k, ∀ o ∈ s.offers.get? k, Offered U k o
  leaves : ∀ k, ∀ m ∈ s.leaves.get? k, ∃ a ∈ U, ∃ k', m ∈ a.leaves.get? k'
  claims : ∀ k, ∀ c ∈ s.claims.get? k, ∃ a ∈ U, ∃ k', c ∈ a.claims.get? k'
  offerTtl : old.config.offerTtlMs ≤ s.config.offerTtlMs
  room : ∃ a ∈ U, a.config.maxOffers ≤ s.config.maxOffers

theorem composed_self (hold : old ∈ U) : Composed U old old where
  offers k _ ho := ⟨old, hold, k, ho, .inl rfl⟩
  leaves k _ hm := ⟨old, hold, k, hm⟩
  claims k _ hc := ⟨old, hold, k, hc⟩
  offerTtl := le_rfl
  room := ⟨old, hold, le_rfl⟩

theorem Composed.merge (hs : Composed U old s) (hq : q ∈ U) : Composed U old (s.merge q) where
  offers k o ho := (mem_mergeBy ho).elim (hs.offers k o) fun h => ⟨q, hq, k, h, .inl rfl⟩
  leaves k m hm := (mem_mergeBy hm).elim (hs.leaves k m) fun h => ⟨q, hq, k, h⟩
  claims k c hc := (mem_mergeBy hc).elim (hs.claims k c) fun h => ⟨q, hq, k, h⟩
  offerTtl := hs.offerTtl.trans (le_max_left _ _)
  room := by
    obtain ⟨a, ha, hle⟩ := hs.room
    change ∃ a ∈ U, a.config.maxOffers ≤ min s.config.maxOffers q.config.maxOffers
    rcases min_choice s.config.maxOffers q.config.maxOffers with h | h
    · exact ⟨a, ha, h.symm ▸ hle⟩
    · exact ⟨q, hq, h.ge⟩

theorem Composed.cleanup (hs : Composed U old s) : Composed U old s.cleanup where
  offers k o ho := by
    obtain ⟨k', ho', hk⟩ := (swept_cleanup s).offers k o ho
    obtain ⟨a, ha, k₀, hmem, hk₀⟩ := hs.offers k' o ho'
    rcases hk with rfl | rfl
    · exact ⟨a, ha, k₀, hmem, hk₀⟩
    · exact ⟨a, ha, k₀, hmem, .inr rfl⟩
  leaves k m hm := hs.leaves k m (leaves_cleanup s ▸ hm)
  claims k c hc := by
    obtain ⟨k', hc', -⟩ := (swept_cleanup s).claims k c hc
    exact hs.claims k' c hc'
  offerTtl := by
    rw [cleanup_eq, config_capClaims, config_capOffers]
    exact hs.offerTtl
  room := by
    rw [cleanup_eq, config_capClaims, config_capOffers]
    exact hs.room

/-- Nothing in play is so late that the offer is too old for it, and every cap
in play has room for the offer and all that stand before it. -/
structure Secure (U : Set LobbyState) (old : LobbyState) (o : WaitingOffer) : Prop where
  fresh : ∀ a ∈ U, a.networkNowMs - o.heartbeatMs ≤ old.config.offerTtlMs
  room : ∀ a ∈ U, {k | ∃ o', Offered U k o'
    ∧ Places.Before offerRank (k, o') (o.peerId, o)}.ncard < a.config.maxOffers

/-- A secure offer is not too old. -/
theorem Secure.fresh_of_composed (h : Secure U old o) (hs : Composed U old s) :
    s.networkNowMs - o.heartbeatMs ≤ s.config.offerTtlMs := by
  have hle : ∀ a ∈ U, a.networkNowMs ≤ o.heartbeatMs + old.config.offerTtlMs := by
    intro a ha
    have hfresh := h.fresh a ha
    omega
  have hnow : s.networkNowMs ≤ o.heartbeatMs + old.config.offerTtlMs := by
    apply now_le
    · intro k o' ho
      obtain ⟨a, ha, k', ho', -⟩ := hs.offers k o' ho
      exact (le_now_of_offer ho').trans (hle a ha)
    · intro k c hc
      obtain ⟨a, ha, k', hc'⟩ := hs.claims k c hc
      exact (le_now_of_claim hc').trans (hle a ha)
    · intro k m hm
      obtain ⟨a, ha, k', hm'⟩ := hs.leaves k m hm
      exact (le_now_of_leave hm').trans (hle a ha)
  have httl := hs.offerTtl
  omega

/-- A secure offer that did not leave is among those the cap has room for. -/
theorem Secure.top (h : Secure U old o) (hs : Composed U old s)
    (hmem : o ∈ s.offers.get? o.peerId) (hstands : s.isLeft o.peerId o.version = false) :
    s.TopOffer o.peerId o := by
  obtain ⟨a, ha, hle⟩ := hs.room
  refine ⟨⟨hmem, hstands, h.fresh_of_composed hs⟩, lt_of_le_of_lt ?_ ((h.room a ha).trans_le hle)⟩
  refine Set.ncard_le_ncard ?_ (Set.toFinite _)
  rintro k ⟨o', hlive, hbefore⟩
  exact ⟨o', hs.offers k o' hlive.stored, hbefore⟩

end LobbyState

namespace Ed25519

open LobbyState

/-- The peer of an offer has signed another one in play, which beats the offer
in its place or comes from elsewhere. -/
def Reoffers (ed : Ed25519) (U : Set LobbyState) (o : WaitingOffer) : Prop :=
  ∃ a ∈ U, ∃ k, ∃ o' ∈ a.offers.get? k, o' ≠ o ∧ ed.AuthenticOffer o.peerId o'
    ∧ (k = o.peerId → o'.beats o = true)

/-- The offer is in its place, or its peer has offered anew, or left. -/
def Respects (ed : Ed25519) (U : Set LobbyState) (o : WaitingOffer) (s : LobbyState) : Prop :=
  s.offers.get? o.peerId = some o ∨ ed.Reoffers U o
    ∨ ∃ m ∈ s.leaves.get? o.peerId, o.version ≤ m.version

theorem not_beats_self (o : WaitingOffer) : o.beats o = false := WaitingOffer.follows.of_eq rfl

/-- The place of an offer after a merge. -/
theorem respects_merge (hold : old.offers.get? o.peerId = some o) (hq : q ∈ U)
    (hvouch : ed.Vouches old q) (hmem : s.offers.get? o.peerId = some o) :
    (s.merge q).offers.get? o.peerId = some o ∨ ed.Reoffers U o := by
  change (s.offers.mergeBy WaitingOffer.beats q.offers).get? o.peerId = some o ∨ _
  rw [Table.get?_mergeBy, hmem]
  cases hother : q.offers.get? o.peerId with
  | none => exact .inl rfl
  | some o' =>
      by_cases hbeats : o'.beats o = true
      · right
        have hne : o' ≠ o := by
          rintro rfl
          rw [not_beats_self] at hbeats
          cases hbeats
        have hnew : o' ∉ old.offers.get? o.peerId := by
          rw [hold]
          exact fun h => hne (Option.some.inj h).symm
        exact ⟨q, hq, o.peerId, o', hother, hne, hvouch.offers _ o' hother hnew, fun _ => hbeats⟩
      · exact .inl (if_neg hbeats)

/-- The place of a secure offer after a sweep. -/
theorem respects_cleanup (hfiled : ed.Filed old) (hsecure : Secure U old o)
    (hs : Composed U old s) (hvouch : ed.Vouches old s)
    (hmem : s.offers.get? o.peerId = some o) : ed.Respects U o s.cleanup := by
  by_cases hleft : s.isLeft o.peerId o.version = true
  · obtain ⟨m, hm, hle⟩ := (Option.any_eq_true _ _).mp hleft
    refine .inr (.inr ⟨m, ?_, of_decide_eq_true hle⟩)
    rw [leaves_cleanup]
    exact hm
  have htop := hsecure.top hs hmem (by simpa using hleft)
  by_cases hcap : s.swept.config.maxOffers < s.swept.offers.keys.card
  · -- the last offer of the peer that has a place is stored under its id
    obtain ⟨k, o', htop', hlast, hkey⟩ := exists_lastOffer hcap htop
    have hget : o' ∈ s.cleanup.offers.get? o.peerId :=
      (mem_offers_cleanup hcap).mpr ⟨hkey, k, htop', hlast⟩
    by_cases hsame : o' = o
    · exact .inl (hsame ▸ hget)
    have hk : k ≠ o'.peerId := by
      rintro rfl
      have hstored := htop'.live.stored
      rw [hkey, hmem] at hstored
      exact hsame (Option.some.inj hstored).symm
    have hauth := (hvouch.filed hfiled).offers k o' htop'.live.stored hk
    obtain ⟨a, ha, k', hmem', hk'⟩ := hs.offers k o' htop'.live.stored
    obtain rfl := hk'.resolve_right hk
    rw [hkey] at hauth hk
    exact .inr (.inl ⟨a, ha, k, o', hmem', hsame, hauth, fun h => absurd h hk⟩)
  · left
    rw [cleanup_eq, offers_capClaims, capOffers_of_le (not_lt.mp hcap)]
    exact mem_offers_swept.mpr htop.live

/-- A leave mark gives way to one that says as much. -/
theorem mark_stays {k : PeerId} {v : Nat} (h : ∃ m ∈ s.leaves.get? k, v ≤ m.version) :
    ∃ m ∈ (s.update q).leaves.get? k, v ≤ m.version := by
  obtain ⟨m, hm, hle⟩ := h
  rw [leaves_update, Table.get?_mergeBy, show s.leaves.get? k = some m from hm]
  cases hother : q.leaves.get? k with
  | none => exact ⟨m, rfl, hle⟩
  | some m' =>
      obtain ⟨m'', hpick⟩ : ∃ m'', pick LeaveMark.beats (some m) (some m') = some m'' := by
        rcases @pick_choice _ LeaveMark.beats (some m) (some m') with h | h
        · exact ⟨m, h⟩
        · exact ⟨m', h⟩
      have hrank := (LeaveMark.follows.rank_le hpick).1
      refine ⟨m'', hpick, hle.trans ?_⟩
      rcases Prod.Lex.toLex_le_toLex.mp hrank with hlt | ⟨heq, -⟩
      · exact hlt.le
      · exact heq.le

/-- **Step**: one patch of an update. -/
theorem Respects.update (hfiled : ed.Filed old) (hold : old.offers.get? o.peerId = some o)
    (hsecure : Secure U old o) (hs : Composed U old s) (hvouch : ed.Vouches old s) (hq : q ∈ U)
    (hvouch' : ed.Vouches old q) (h : ed.Respects U o s) : ed.Respects U o (s.update q) := by
  rcases h with hmem | hnew | hleft
  · rcases respects_merge hold hq hvouch' hmem with hmem | hnew
    · exact respects_cleanup hfiled hsecure (hs.merge hq) (hvouch.merge hvouch') hmem
    · exact .inr (.inl hnew)
  · exact .inr (.inl hnew)
  · exact .inr (.inr (mark_stays hleft))

/-- **Run**: all patches of an update. -/
theorem Respects.updates {ps : List LobbyState} (hfiled : ed.Filed old)
    (hold : old.offers.get? o.peerId = some o) (hsecure : Secure U old o) (hs : Composed U old s)
    (hvouch : ed.Vouches old s) (hps : ∀ p ∈ ps, p ∈ U ∧ ed.Vouches old p)
    (h : ed.Respects U o s) : ed.Respects U o (ps.foldl LobbyState.update s) := by
  induction ps generalizing s with
  | nil => exact h
  | cons p ps ih =>
      obtain ⟨⟨hp, hpv⟩, hps⟩ := List.forall_mem_cons.mp hps
      exact ih (hs.merge hp).cleanup (hvouch.update hfiled hpv) hps
        (h.update hfiled hold hsecure hs hvouch hp hpv)

end Ed25519

-- ====================================================================== the contract

/-- The old lobby, and what the payloads of an update are read as. -/
def inPlay (ed : Ed25519) (codec : Codec LobbyState) (old : LobbyState)
    (data : List UpdateData) : Set LobbyState :=
  {a | a = old ∨ ∃ payload ∈ data.flatMap UpdateData.payloads,
    (lobbyRules ed).decodeState codec payload = .ok a}

/-- Nothing that is read of the two peers' lobbies makes the first one's offer
expire, or crowds it out. -/
theorem secure_signedOffer {A : Set LobbyState}
    (hA : ∀ a ∈ A, a = .offering signedOffer ∨ a = .offering secondOffer) :
    LobbyState.Secure A (.offering signedOffer) signedOffer := by
  constructor
  · intro a ha
    rcases hA a ha with rfl | rfl
    · decide +kernel
    · decide +kernel
  · intro a ha
    have hone : {k | ∃ o', LobbyState.Offered A k o' ∧ Places.Before
        LobbyState.offerRank (k, o') (signedOffer.peerId, signedOffer)} ⊆ {2} := by
      rintro k ⟨o', ⟨a, ha, k', ho', hk⟩, hbefore⟩
      rcases hA a ha with rfl | rfl
      · obtain ⟨rfl, rfl⟩ := LobbyState.mem_offering ho'
        rw [or_self] at hk
        rw [hk] at hbefore
        exact absurd hbefore hbefore.asymm
      · obtain ⟨rfl, rfl⟩ := LobbyState.mem_offering ho'
        rw [or_self] at hk
        exact hk
    refine lt_of_le_of_lt ((Set.ncard_le_ncard hone).trans_eq (Set.ncard_singleton 2)) ?_
    rcases hA a ha with rfl | rfl
    · decide
    · decide

end Ruletka.Contract
