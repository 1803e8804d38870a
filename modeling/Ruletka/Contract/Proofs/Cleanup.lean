/-
When a second sweep finds nothing to do.

The clock of a swept lobby is no later than the one it was swept by, so
nothing in it is too old by its own clock. Below the cap of the offers the
second sweep sees the live peers of the first one. The cap comes after the
claims were matched with the live peers: it may evict the peer of a claim
that stays, and the second sweep drops that claim. Who is evicted is told by
counting the live records of the lobby that stand before one.
-/
import Ruletka.Contract.Proofs.Authentic
import Ruletka.Lib.Places

namespace Ruletka.Contract

namespace LobbyState

variable {s x y : LobbyState} {k : Bytes32} {o : WaitingOffer} {c : Claim} {p : PeerId}

-- ======================================================================= the clock

/-- A sweep sets no clock forward. -/
theorem Swept.now_le (h : Swept s y) : y.networkNowMs ≤ s.networkNowMs := by
  apply LobbyState.now_le
  · intro k o ho
    obtain ⟨k', ho', -⟩ := h.offers k o ho
    exact le_now_of_offer ho'
  · intro k c hc
    obtain ⟨k', hc', -⟩ := h.claims k c hc
    exact le_now_of_claim hc'
  · intro k m hm
    obtain ⟨k', hm', -⟩ := h.leaves k m hm
    exact le_now_of_leave hm'

-- ================================================================= a sweep at rest

theorem retain_eq_self_iff {V : Type} {t : Table Bytes32 V} {f : Bytes32 → V → Bool} :
    t.retain f = t ↔ ∀ k, ∀ v ∈ t.get? k, f k v = true := by
  rw [Table.ext_get?_iff]
  simp only [Table.get?_retain]
  apply forall_congr'
  intro k
  cases t.get? k with
  | none => simp
  | some v => simp [Option.filter]

theorem card_retain_le {V : Type} (t : Table Bytes32 V) (f : Bytes32 → V → Bool) :
    (t.retain f).keys.card ≤ t.keys.card := by
  apply Finset.card_le_card
  intro k hk
  rw [Table.mem_keys_iff, Option.isSome_iff_exists] at hk ⊢
  obtain ⟨v, hv⟩ := hk
  exact ⟨v, mem_retain hv⟩

/-- Nothing is too old by the own clock, or over a cap. -/
structure Trim (y : LobbyState) : Prop where
  offers : ∀ k, ∀ o ∈ y.offers.get? k, y.networkNowMs - o.heartbeatMs ≤ y.config.offerTtlMs
  claims : ∀ k, ∀ c ∈ y.claims.get? k, y.networkNowMs - c.createdMs ≤ y.config.claimTtlMs
  fewOffers : y.offers.keys.card ≤ y.config.maxOffers
  fewClaims : y.claims.keys.card ≤ y.config.maxClaims

/-- No offer stands under the id of a peer that left. -/
def NoneLeft (y : LobbyState) : Prop :=
  ∀ k, ∀ o ∈ y.offers.get? k, y.isLeft k o.version = false

/-- Both peers of every claim are live. -/
def ClaimsLive (y : LobbyState) : Prop :=
  ∀ k, ∀ c ∈ y.claims.get? k,
    c.claimer ∈ y.livePeers y.networkNowMs ∧ c.target ∈ y.livePeers y.networkNowMs

theorem sweepOffers_eq_self_iff (h : Trim y) :
    y.sweepOffers y.networkNowMs = y ↔ NoneLeft y := by
  have hoffers : y.sweepOffers y.networkNowMs = y ↔
      (y.sweepOffers y.networkNowMs).offers = y.offers :=
    ⟨congrArg _, fun heq => ext' rfl rfl heq rfl⟩
  rw [hoffers, sweepOffers, retain_eq_self_iff]
  apply forall_congr'
  intro k
  apply forall₂_congr
  intro o ho
  rw [decide_eq_true (h.offers k o ho), Bool.and_true, Bool.not_eq_true']

theorem sweepClaims_eq_self_iff (h : Trim y) :
    y.sweepClaims y.networkNowMs = y ↔ ClaimsLive y := by
  have hclaims : y.sweepClaims y.networkNowMs = y ↔
      (y.sweepClaims y.networkNowMs).claims = y.claims :=
    ⟨congrArg _, fun heq => ext' rfl rfl rfl heq⟩
  rw [hclaims, sweepClaims, retain_eq_self_iff]
  apply forall_congr'
  intro k
  apply forall₂_congr
  intro c hc
  rw [decide_eq_true (h.claims k c hc), Bool.true_and, Bool.and_eq_true, decide_eq_true_eq,
    decide_eq_true_eq]

/-- A trim lobby stays as it is when nobody in it left and both peers of every
claim are live. -/
theorem cleanup_eq_self_iff (h : Trim y) : y.cleanup = y ↔ NoneLeft y ∧ ClaimsLive y := by
  -- what two sweeps leave fits the caps
  have hcaps : y.cleanup
      = (y.sweepOffers y.networkNowMs).sweepClaims y.networkNowMs := by
    unfold cleanup
    have hoffers : ((y.sweepOffers y.networkNowMs).sweepClaims y.networkNowMs).offers.keys.card
        ≤ y.config.maxOffers := (card_retain_le _ _).trans h.fewOffers
    have hclaims : ((y.sweepOffers y.networkNowMs).sweepClaims y.networkNowMs).claims.keys.card
        ≤ y.config.maxClaims := (card_retain_le _ _).trans h.fewClaims
    dsimp only
    rw [capOffers, if_neg (not_lt.mpr (by exact hoffers)), capClaims,
      if_neg (not_lt.mpr (by exact hclaims))]
  rw [hcaps]
  constructor
  · intro heq
    have hself : y.sweepOffers y.networkNowMs = y := by
      have hoffers := congrArg LobbyState.offers heq
      exact ext' rfl rfl hoffers rfl
    refine ⟨(sweepOffers_eq_self_iff h).mp hself, (sweepClaims_eq_self_iff h).mp ?_⟩
    rw [hself] at heq
    exact heq
  · intro ⟨hleft, hlive⟩
    rw [(sweepOffers_eq_self_iff h).mpr hleft, (sweepClaims_eq_self_iff h).mpr hlive]

-- ======================================================================== the caps

/-- The freshest offer has the greatest rank. -/
def offerRank (o : WaitingOffer) : Nat ×ₗ Nat ×ₗ PeerId :=
  toLex (o.heartbeatMs, toLex (o.version, o.peerId))

/-- The freshest claim has the greatest rank. -/
def claimRank (c : Claim) : Nat ×ₗ Bytes32 := toLex (c.createdMs, c.claimId)

/-- The offers that the cap has room for. -/
def topOffers (x : LobbyState) : List WaitingOffer :=
  (Places.ranked offerRank x.offers).take x.config.maxOffers

theorem card_lastWins_le {V : Type} (key : V → Bytes32) (l : List V) :
    (Recent.lastWins key l).keys.card ≤ l.length := by
  have hsub : (Recent.lastWins key l).keys ⊆ (l.map key).toFinset := by
    intro k hk
    rw [Table.mem_keys_iff, Option.isSome_iff_exists] at hk
    obtain ⟨v, hv⟩ := hk
    obtain ⟨hkey, hmem⟩ := @Recent.held_some _ _ _ key _ _ _ hv
    rw [List.mem_toFinset, ← hkey]
    exact List.mem_map_of_mem hmem
  exact (Finset.card_le_card hsub).trans ((List.toFinset_card_le _).trans (by rw [List.length_map]))

theorem offers_capOffers (hcap : x.config.maxOffers < x.offers.keys.card) :
    x.capOffers.offers = Recent.lastWins WaitingOffer.peerId x.topOffers := by
  unfold capOffers
  rw [if_pos hcap]
  rfl

theorem capOffers_of_le (hcap : x.offers.keys.card ≤ x.config.maxOffers) : x.capOffers = x :=
  if_neg (not_lt.mpr hcap)

theorem card_capOffers_le (x : LobbyState) :
    x.capOffers.offers.keys.card ≤ x.config.maxOffers := by
  by_cases hcap : x.config.maxOffers < x.offers.keys.card
  · rw [offers_capOffers hcap]
    exact (card_lastWins_le _ _).trans (List.length_take_le _ _)
  · rw [capOffers_of_le (not_lt.mp hcap)]
    exact not_lt.mp hcap

theorem card_capClaims_le (x : LobbyState) :
    x.capClaims.claims.keys.card ≤ x.config.maxClaims := by
  unfold capClaims
  by_cases hcap : x.config.maxClaims < x.claims.keys.card
  · rw [if_pos hcap]
    exact (card_lastWins_le Claim.claimId _).trans (List.length_take_le _ _)
  · rw [if_neg hcap]
    exact not_lt.mp hcap

/-- What the cap of the offers keeps under an id. -/
theorem mem_capOffers (hcap : x.config.maxOffers < x.offers.keys.card) :
    o ∈ x.capOffers.offers.get? p ↔ o.peerId = p
      ∧ ∃ k, Places.LastPlaced WaitingOffer.peerId offerRank x.config.maxOffers x.offers k o := by
  rw [offers_capOffers hcap]
  exact Places.held_take_ranked

/-- What the cap of the claims keeps. -/
theorem mem_capClaims : (∃ k, c ∈ x.capClaims.claims.get? k) ↔
    ∃ j, Places.Placed claimRank x.config.maxClaims x.claims j c
      ∧ (x.config.maxClaims < x.claims.keys.card →
        Places.LastPlaced Claim.claimId claimRank x.config.maxClaims x.claims j c) := by
  unfold capClaims
  by_cases hcap : x.config.maxClaims < x.claims.keys.card
  · rw [if_pos hcap]
    constructor
    · rintro ⟨k, hk⟩
      obtain ⟨-, j, hj⟩ := Places.held_take_ranked.mp (show Recent.held Claim.claimId
        ((Places.ranked claimRank x.claims).take x.config.maxClaims) k = some c from hk)
      exact ⟨j, hj.placed, fun _ => hj⟩
    · rintro ⟨j, -, hlast⟩
      have hheld : Recent.held Claim.claimId
          ((Places.ranked claimRank x.claims).take x.config.maxClaims) c.claimId = some c :=
        Places.held_take_ranked.mpr ⟨rfl, j, hlast hcap⟩
      exact ⟨c.claimId, hheld⟩
  · rw [if_neg hcap]
    refine exists_congr fun j => ⟨fun hj => ?_, fun hj => hj.1.stored⟩
    exact ⟨Places.placed_of_card_le (not_lt.mp hcap) hj, fun h => absurd h hcap⟩

@[simp]
theorem config_capOffers : x.capOffers.config = x.config := by
  unfold capOffers
  split
  · rfl
  · rfl

@[simp]
theorem leaves_capOffers : x.capOffers.leaves = x.leaves := by
  unfold capOffers
  split
  · rfl
  · rfl

@[simp]
theorem claims_capOffers : x.capOffers.claims = x.claims := by
  unfold capOffers
  split
  · rfl
  · rfl

@[simp]
theorem config_capClaims : x.capClaims.config = x.config := by
  unfold capClaims
  split
  · rfl
  · rfl

@[simp]
theorem leaves_capClaims : x.capClaims.leaves = x.leaves := by
  unfold capClaims
  split
  · rfl
  · rfl

@[simp]
theorem offers_capClaims : x.capClaims.offers = x.offers := by
  unfold capClaims
  split
  · rfl
  · rfl

-- ================================================================== the first sweep

/-- The lobby without what is dead, before the caps. -/
def swept (s : LobbyState) : LobbyState :=
  (s.sweepOffers s.networkNowMs).sweepClaims s.networkNowMs

theorem cleanup_eq (s : LobbyState) : s.cleanup = s.swept.capOffers.capClaims := rfl

theorem swept_cleanup_of_swept (s : LobbyState) : Swept s.swept s.cleanup :=
  swept_capOffers.trans swept_capClaims

theorem mem_livePeers_iff {n : Nat} : p ∈ y.livePeers n ↔
    ∃ k, ∃ o ∈ y.offers.get? k, y.isLive n o = true ∧ o.peerId = p := by
  unfold livePeers
  simp only [Finset.mem_image, Finset.mem_filter, Table.mem_keys_iff]
  constructor
  · intro ⟨k, ⟨hk, hlive⟩, hp⟩
    obtain ⟨o, ho⟩ := Option.isSome_iff_exists.mp hk
    rw [ho] at hlive hp
    exact ⟨k, o, ho, hlive, hp⟩
  · intro ⟨k, o, ho, hlive, hp⟩
    have ho' : y.offers.get? k = some o := ho
    refine ⟨k, ⟨?_, ?_⟩, ?_⟩
    · rw [ho']
      rfl
    · rw [ho']
      exact hlive
    · rw [ho']
      exact hp

/-- An offer that is neither left nor too old. -/
structure LiveOffer (s : LobbyState) (k : PeerId) (o : WaitingOffer) : Prop where
  stored : o ∈ s.offers.get? k
  standing : s.isLeft k o.version = false
  fresh : s.networkNowMs - o.heartbeatMs ≤ s.config.offerTtlMs

/-- A peer has a live offer, wherever it stands. -/
def Waiting (s : LobbyState) (p : PeerId) : Prop :=
  ∃ k o, s.LiveOffer k o ∧ o.peerId = p ∧ s.isLeft p o.version = false

/-- A claim that is not too old, between peers with live offers. -/
structure LiveClaim (s : LobbyState) (j : Bytes32) (c : Claim) : Prop where
  stored : c ∈ s.claims.get? j
  fresh : s.networkNowMs - c.createdMs ≤ s.config.claimTtlMs
  claimer : s.Waiting c.claimer
  target : s.Waiting c.target

theorem mem_offers_swept : o ∈ s.swept.offers.get? k ↔ s.LiveOffer k o := by
  have hget : s.swept.offers.get? k = (s.offers.get? k).filter fun o => !s.isLeft k o.version
      && decide (s.networkNowMs - o.heartbeatMs ≤ s.config.offerTtlMs) := Table.get?_retain ..
  rw [hget]
  constructor
  · intro h
    obtain ⟨hmem, hkeep⟩ := Option.filter_eq_some_iff.mp h
    rw [Bool.and_eq_true, Bool.not_eq_true', decide_eq_true_eq] at hkeep
    exact ⟨hmem, hkeep.1, hkeep.2⟩
  · intro h
    refine Option.filter_eq_some_iff.mpr ⟨h.stored, ?_⟩
    rw [h.standing, decide_eq_true h.fresh]
    rfl

theorem mem_livePeers_swept : p ∈ s.swept.livePeers s.networkNowMs ↔ s.Waiting p := by
  rw [mem_livePeers_iff]
  have hleft : ∀ q v, s.swept.isLeft q v = s.isLeft q v := fun _ _ => rfl
  constructor
  · rintro ⟨k, o, ho, hlive, rfl⟩
    unfold isLive at hlive
    rw [Bool.and_eq_true, Bool.not_eq_true', hleft] at hlive
    exact ⟨k, o, mem_offers_swept.mp ho, rfl, hlive.1⟩
  · rintro ⟨k, o, ho, rfl, hstands⟩
    refine ⟨k, o, mem_offers_swept.mpr ho, ?_, rfl⟩
    have hfresh : s.networkNowMs - o.heartbeatMs ≤ s.swept.config.offerTtlMs := ho.fresh
    unfold isLive
    rw [hleft, hstands, decide_eq_true hfresh]
    rfl

theorem mem_claims_swept : c ∈ s.swept.claims.get? k ↔ s.LiveClaim k c := by
  have hget : s.swept.claims.get? k = (s.claims.get? k).filter fun c =>
      decide (s.networkNowMs - c.createdMs ≤ s.config.claimTtlMs)
        && decide (c.claimer ∈ s.swept.livePeers s.networkNowMs)
        && decide (c.target ∈ s.swept.livePeers s.networkNowMs) := Table.get?_retain ..
  rw [hget]
  constructor
  · intro h
    obtain ⟨hmem, hkeep⟩ := Option.filter_eq_some_iff.mp h
    rw [Bool.and_eq_true, Bool.and_eq_true, decide_eq_true_eq, decide_eq_true_eq,
      decide_eq_true_eq] at hkeep
    exact ⟨hmem, hkeep.1.1, mem_livePeers_swept.mp hkeep.1.2, mem_livePeers_swept.mp hkeep.2⟩
  · intro h
    refine Option.filter_eq_some_iff.mpr ⟨h.stored, ?_⟩
    rw [decide_eq_true h.fresh, decide_eq_true (mem_livePeers_swept.mpr h.claimer),
      decide_eq_true (mem_livePeers_swept.mpr h.target)]
    rfl

/-- A swept lobby is trim. -/
theorem trim_cleanup (s : LobbyState) : Trim s.cleanup where
  offers k o ho := by
    obtain ⟨k', ho', -⟩ := (swept_cleanup_of_swept s).offers k o ho
    have hfresh := (mem_offers_swept.mp ho').fresh
    have hnow := (swept_cleanup s).now_le
    rw [cleanup_eq, config_capClaims, config_capOffers, ← cleanup_eq]
    exact (Nat.sub_le_sub_right hnow _).trans hfresh
  claims k c hc := by
    obtain ⟨k', hc', -⟩ := (swept_cleanup_of_swept s).claims k c hc
    have hfresh := (mem_claims_swept.mp hc').fresh
    have hnow := (swept_cleanup s).now_le
    rw [cleanup_eq, config_capClaims, config_capOffers, ← cleanup_eq]
    exact (Nat.sub_le_sub_right hnow _).trans hfresh
  fewOffers := by
    rw [cleanup_eq, offers_capClaims, config_capClaims, config_capOffers]
    exact card_capOffers_le _
  fewClaims := by
    rw [cleanup_eq, config_capClaims]
    exact card_capClaims_le _

-- ================================================================= the second sweep

theorem isLeft_cleanup (v : Nat) : s.cleanup.isLeft p v = s.swept.isLeft p v := by
  unfold isLeft
  rw [cleanup_eq, leaves_capClaims, leaves_capOffers]

/-- Below the cap of the offers the second sweep has nothing to do. -/
theorem still_of_few (hcap : s.swept.offers.keys.card ≤ s.swept.config.maxOffers) :
    NoneLeft s.cleanup ∧ ClaimsLive s.cleanup := by
  have hoffers : s.cleanup.offers = s.swept.offers := by
    rw [cleanup_eq, offers_capClaims, capOffers_of_le hcap]
  have hlive : ∀ p, p ∈ s.swept.livePeers s.networkNowMs →
      p ∈ s.cleanup.livePeers s.cleanup.networkNowMs := by
    intro p hp
    obtain ⟨k, o, ho, hlive, hp⟩ := mem_livePeers_iff.mp hp
    unfold isLive at hlive
    rw [Bool.and_eq_true] at hlive
    have ho' : o ∈ s.cleanup.offers.get? k := by
      rw [hoffers]
      exact ho
    refine mem_livePeers_iff.mpr ⟨k, o, ho', ?_, hp⟩
    unfold isLive
    rw [isLeft_cleanup, hlive.1, decide_eq_true ((trim_cleanup s).offers k o ho')]
    rfl
  constructor
  · intro k o ho
    rw [hoffers] at ho
    rw [isLeft_cleanup]
    exact (mem_offers_swept.mp ho).standing
  · intro k c hc
    obtain ⟨k', hc', -⟩ := (swept_cleanup_of_swept s).claims k c hc
    have hclaim := mem_claims_swept.mp hc'
    exact ⟨hlive _ (mem_livePeers_swept.mpr hclaim.claimer),
      hlive _ (mem_livePeers_swept.mpr hclaim.target)⟩

-- ================================================================== what has a place

/-- How many live offers stand before one. -/
noncomputable def offersBefore (s : LobbyState) (k : PeerId) (o : WaitingOffer) : Nat :=
  {k' | ∃ o', s.LiveOffer k' o' ∧ Places.Before offerRank (k', o') (k, o)}.ncard

/-- How many live claims stand before one. -/
noncomputable def claimsBefore (s : LobbyState) (j : Bytes32) (c : Claim) : Nat :=
  {j' | ∃ c', s.LiveClaim j' c' ∧ Places.Before claimRank (j', c') (j, c)}.ncard

/-- One of the freshest live offers, as many as the cap has room for. -/
structure TopOffer (s : LobbyState) (k : PeerId) (o : WaitingOffer) : Prop where
  live : s.LiveOffer k o
  room : s.offersBefore k o < s.config.maxOffers

/-- One of the freshest live claims, as many as the cap has room for. -/
structure TopClaim (s : LobbyState) (j : Bytes32) (c : Claim) : Prop where
  live : s.LiveClaim j c
  room : s.claimsBefore j c < s.config.maxClaims

/-- Of the top offers of one peer the last one. -/
def LastOffer (s : LobbyState) (k : PeerId) (o : WaitingOffer) : Prop :=
  ∀ k' o', s.TopOffer k' o' → o'.peerId = o.peerId →
    k' = k ∨ Places.Before offerRank (k', o') (k, o)

/-- Of the top claims of one id the last one. -/
def LastClaim (s : LobbyState) (j : Bytes32) (c : Claim) : Prop :=
  ∀ j' c', s.TopClaim j' c' → c'.claimId = c.claimId →
    j' = j ∨ Places.Before claimRank (j', c') (j, c)

/-- The top offers are those of peers that did not leave, and hold both peers
of every top claim. A lobby with more live claims than it has room for stores
the top ones under their ids, and then the last one of an id counts. -/
structure Spared (s : LobbyState) : Prop where
  standing : ∀ k o, s.TopOffer k o → s.LastOffer k o → s.isLeft o.peerId o.version = false
  claims : ∀ j c, s.TopClaim j c →
    (s.config.maxClaims < {j | ∃ c, s.LiveClaim j c}.ncard → s.LastClaim j c) →
      (∃ k o, s.TopOffer k o ∧ o.peerId = c.claimer) ∧ ∃ k o, s.TopOffer k o ∧ o.peerId = c.target

theorem placed_offer_iff :
    Places.Placed offerRank s.config.maxOffers s.swept.offers k o ↔ s.TopOffer k o := by
  have hcount : Places.before offerRank s.swept.offers (k, o) = s.offersBefore k o := by
    rw [Places.before_eq_ncard]
    simp only [mem_offers_swept]
    rfl
  constructor
  · rintro ⟨hmem, hroom⟩
    exact ⟨mem_offers_swept.mp hmem, hcount ▸ hroom⟩
  · rintro ⟨hlive, hroom⟩
    exact ⟨mem_offers_swept.mpr hlive, hcount.symm ▸ hroom⟩

theorem placed_claim_iff :
    Places.Placed claimRank s.config.maxClaims s.swept.claims k c ↔ s.TopClaim k c := by
  have hcount : Places.before claimRank s.swept.claims (k, c) = s.claimsBefore k c := by
    rw [Places.before_eq_ncard]
    simp only [mem_claims_swept]
    rfl
  constructor
  · rintro ⟨hmem, hroom⟩
    exact ⟨mem_claims_swept.mp hmem, hcount ▸ hroom⟩
  · rintro ⟨hlive, hroom⟩
    exact ⟨mem_claims_swept.mpr hlive, hcount.symm ▸ hroom⟩

theorem card_offers_swept : s.swept.offers.keys.card = {k | ∃ o, s.LiveOffer k o}.ncard := by
  rw [Places.card_keys_eq_ncard]
  simp only [mem_offers_swept]

theorem card_claims_swept : s.swept.claims.keys.card = {j | ∃ c, s.LiveClaim j c}.ncard := by
  rw [Places.card_keys_eq_ncard]
  simp only [mem_claims_swept]

/-- What a sweep leaves of the offers when there are more than it has room for. -/
theorem mem_offers_cleanup (hcap : s.swept.config.maxOffers < s.swept.offers.keys.card) :
    o ∈ s.cleanup.offers.get? p ↔ o.peerId = p ∧ ∃ k, s.TopOffer k o ∧ s.LastOffer k o := by
  rw [cleanup_eq, offers_capClaims, mem_capOffers hcap]
  refine and_congr_right fun _ => exists_congr fun k => ?_
  constructor
  · rintro ⟨hplaced, hlast⟩
    exact ⟨placed_offer_iff.mp hplaced, fun k' o' htop => hlast k' o' (placed_offer_iff.mpr htop)⟩
  · rintro ⟨htop, hlast⟩
    exact ⟨placed_offer_iff.mpr htop, fun k' o' h => hlast k' o' (placed_offer_iff.mp h)⟩

/-- What a sweep leaves of the claims. -/
theorem mem_claims_cleanup : (∃ k, c ∈ s.cleanup.claims.get? k) ↔
    ∃ j, s.TopClaim j c
      ∧ (s.config.maxClaims < {j | ∃ c, s.LiveClaim j c}.ncard → s.LastClaim j c) := by
  rw [cleanup_eq, mem_capClaims, config_capOffers, claims_capOffers, card_claims_swept]
  refine exists_congr fun j => ?_
  constructor
  · rintro ⟨hplaced, hlast⟩
    exact ⟨placed_claim_iff.mp hplaced, fun hcap j' c' htop =>
      (hlast hcap).last j' c' (placed_claim_iff.mpr htop)⟩
  · rintro ⟨htop, hlast⟩
    have hplaced := placed_claim_iff.mpr htop
    exact ⟨hplaced, fun hcap => ⟨hplaced, fun j' c' h =>
      hlast hcap j' c' (placed_claim_iff.mp h)⟩⟩

/-- Some top offer of a peer is its last one. -/
theorem exists_lastOffer (hcap : s.swept.config.maxOffers < s.swept.offers.keys.card)
    (htop : s.TopOffer k o) :
    ∃ k' o', s.TopOffer k' o' ∧ s.LastOffer k' o' ∧ o'.peerId = o.peerId := by
  have hmem : o ∈ (Places.ranked offerRank s.swept.offers).take s.config.maxOffers :=
    Places.mem_take_ranked.mpr ⟨k, placed_offer_iff.mpr htop⟩
  obtain ⟨o', ho'⟩ := @Recent.held_isSome _ _ _ WaitingOffer.peerId _ _ hmem
  have hget : o' ∈ s.cleanup.offers.get? o.peerId := by
    rw [cleanup_eq, offers_capClaims, offers_capOffers hcap]
    exact ho'
  obtain ⟨hkey, k', htop', hlast⟩ := (mem_offers_cleanup hcap).mp hget
  exact ⟨k', o', htop', hlast, hkey⟩

/-- Over the cap the second sweep has nothing to do when the cap spares the
claims. -/
theorem still_iff_of_many (hcap : s.swept.config.maxOffers < s.swept.offers.keys.card) :
    NoneLeft s.cleanup ∧ ClaimsLive s.cleanup ↔ s.Spared := by
  have hswept : ∀ q v, s.swept.isLeft q v = s.isLeft q v := fun _ _ => rfl
  have hnone : NoneLeft s.cleanup ↔
      ∀ k o, s.TopOffer k o → s.LastOffer k o → s.isLeft o.peerId o.version = false := by
    unfold NoneLeft
    simp only [mem_offers_cleanup hcap, isLeft_cleanup, hswept]
    constructor
    · exact fun h k o htop hlast => h _ o ⟨rfl, k, htop, hlast⟩
    · rintro h _ o ⟨rfl, k, htop, hlast⟩
      exact h k o htop hlast
  -- with nobody left, the live peers are those of the offers at the top
  have hlive : NoneLeft s.cleanup → ∀ p, p ∈ s.cleanup.livePeers s.cleanup.networkNowMs ↔
      ∃ k o, s.TopOffer k o ∧ o.peerId = p := by
    intro hnone p
    rw [mem_livePeers_iff]
    constructor
    · rintro ⟨k, o, ho, -, rfl⟩
      obtain ⟨-, k', htop, -⟩ := (mem_offers_cleanup hcap).mp ho
      exact ⟨k', o, htop, rfl⟩
    · rintro ⟨k, o, htop, rfl⟩
      obtain ⟨k', o', htop', hlast, hkey⟩ := exists_lastOffer hcap htop
      have hmem := (mem_offers_cleanup hcap).mpr ⟨hkey, k', htop', hlast⟩
      refine ⟨o.peerId, o', hmem, ?_, hkey⟩
      unfold isLive
      rw [hkey, hnone _ _ hmem, decide_eq_true ((trim_cleanup s).offers _ _ hmem)]
      rfl
  constructor
  · rintro ⟨hleft, hclaims⟩
    refine ⟨hnone.mp hleft, fun j c htop hlast => ?_⟩
    obtain ⟨k, hk⟩ := mem_claims_cleanup.mpr ⟨j, htop, hlast⟩
    obtain ⟨hclaimer, htarget⟩ := hclaims k c hk
    exact ⟨(hlive hleft _).mp hclaimer, (hlive hleft _).mp htarget⟩
  · intro h
    have hleft := hnone.mpr h.standing
    refine ⟨hleft, fun k c hc => ?_⟩
    obtain ⟨j, htop, hlast⟩ := mem_claims_cleanup.mp ⟨k, hc⟩
    obtain ⟨hclaimer, htarget⟩ := h.claims j c htop hlast
    exact ⟨(hlive hleft _).mpr hclaimer, (hlive hleft _).mpr htarget⟩

/-- **Sweeping twice**: a second sweep changes nothing, and every claim that
stays is between live peers, when the live offers fit their cap, or the
freshest of them hold both peers of the freshest claims. -/
theorem cleanup_idempotent_iff (s : LobbyState) :
    (s.cleanup.cleanup = s.cleanup
      ∧ ∀ k, ∀ c ∈ s.cleanup.claims.get? k,
          c.claimer ∈ s.cleanup.livePeers s.cleanup.networkNowMs
            ∧ c.target ∈ s.cleanup.livePeers s.cleanup.networkNowMs)
    ↔ {k | ∃ o, s.LiveOffer k o}.ncard ≤ s.config.maxOffers ∨ s.Spared := by
  have hboth : (s.cleanup.cleanup = s.cleanup ∧ ClaimsLive s.cleanup)
      ↔ NoneLeft s.cleanup ∧ ClaimsLive s.cleanup := by
    rw [cleanup_eq_self_iff (trim_cleanup s), and_assoc, and_self]
  refine hboth.trans ?_
  rw [← card_offers_swept]
  by_cases hcap : s.swept.offers.keys.card ≤ s.swept.config.maxOffers
  · exact iff_of_true (still_of_few hcap) (.inl hcap)
  · rw [still_iff_of_many (not_le.mp hcap)]
    exact (or_iff_right hcap).symm

/-- An offer of a peer with this heartbeat. -/
def waitingAt (p : PeerId) (heartbeatMs : Nat) : WaitingOffer :=
  ⟨p, [], 1, heartbeatMs, ⟨none, [], true, true⟩, 0, []⟩

/-- Two places, three peers, and a claim of the first on the last. -/
def crowded : LobbyState where
  config := { LobbyConfig.default with maxOffers := 2 }
  leaves := ∅
  offers := (((∅ : Table PeerId WaitingOffer).set 1 (waitingAt 1 3000)).set 2 (waitingAt 2 2000)).set
    3 (waitingAt 3 1000)
  claims := (∅ : Table Bytes32 Claim).set 7 ⟨7, 1, 3, 0, 3000, []⟩

/-- The two places go to the first two peers. -/
theorem topOffers_crowded :
    crowded.swept.topOffers = [waitingAt 1 3000, waitingAt 2 2000] := by
  have hkeys : crowded.swept.offers.keys = [1, 2, 3].toFinset := by decide +kernel
  have hvalues : valuesOf crowded.swept.offers
      = [waitingAt 1 3000, waitingAt 2 2000, waitingAt 3 1000] := by
    unfold valuesOf
    rw [hkeys, (List.toFinset_sort (· ≤ ·) (by decide)).mpr (by decide)]
    rfl
  unfold topOffers Places.ranked
  rw [show Recent.values crowded.swept.offers = valuesOf crowded.swept.offers from rfl, hvalues,
    List.mergeSort_of_pairwise (by decide)]
  rfl

/-- The first sweep evicts the target of the claim, and the second one has the
claim to drop. -/
theorem second_sweep_drops : ∃ s : LobbyState, ∃ c ∈ s.cleanup.claims.get? 7,
    s.cleanup.offers.get? c.target = none ∧ s.cleanup.cleanup ≠ s.cleanup := by
  have hcap : crowded.swept.config.maxOffers < crowded.swept.offers.keys.card := by
    decide +kernel
  refine ⟨crowded, ⟨7, 1, 3, 0, 3000, []⟩, by decide +kernel, ?_, fun heq => ?_⟩
  · rw [cleanup_eq, offers_capClaims, offers_capOffers hcap, topOffers_crowded]
    decide +kernel
  · have hlive := ((cleanup_eq_self_iff (trim_cleanup crowded)).mp heq).2
    obtain ⟨-, htarget⟩ := hlive 7 ⟨7, 1, 3, 0, 3000, []⟩ (by decide +kernel)
    obtain ⟨k, o, ho, -, hpeer⟩ := mem_livePeers_iff.mp htarget
    rw [cleanup_eq, offers_capClaims, offers_capOffers hcap, topOffers_crowded] at ho
    revert hpeer
    exact (List.forall_mem_cons.mpr ⟨by decide, List.forall_mem_singleton.mpr (by decide)⟩ :
      ∀ o ∈ [waitingAt 1 3000, waitingAt 2 2000], o.peerId ≠ 3) o (Recent.held_some ho).2

end LobbyState

end Ruletka.Contract
