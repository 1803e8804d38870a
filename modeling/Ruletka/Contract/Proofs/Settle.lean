/-
Deliveries that settle.

A sweep forgets without a trace, so what a replica holds depends on when a
record came. It does not for a record that no sweep drops, in whatever order
the patches come, once all that carry it came: such a record is sure. And it
does not for one that goes in the end, because something that stays, or the
patch that brings it, sets the clock too late for it, or because what stays
fills the cap. When each record that a sweep of the plain merge leaves is
sure, and each other one goes, every delivery ends in that sweep.
-/
import Ruletka.Contract.Proofs.Delivery

namespace Ruletka.Contract

open Register

namespace LobbyState

variable {s m q a : LobbyState} {Q Q' l ds patches : List LobbyState} {k p : PeerId}
  {o v : WaitingOffer} {j : Bytes32} {c d : Claim} {τ : Nat}

-- =================================================================== what is in play

/-- The start or a patch carries the offer. -/
def HasOffer (s : LobbyState) (Q : List LobbyState) (k : PeerId) (o : WaitingOffer) : Prop :=
  ∃ a ∈ s :: Q, o ∈ a.offers.get? k

def HasMark (s : LobbyState) (Q : List LobbyState) (k : PeerId) (m : LeaveMark) : Prop :=
  ∃ a ∈ s :: Q, m ∈ a.leaves.get? k

def HasClaim (s : LobbyState) (Q : List LobbyState) (j : Bytes32) (c : Claim) : Prop :=
  ∃ a ∈ s :: Q, c ∈ a.claims.get? j

/-- An offer in play of a peer that has not left since. -/
def Stands (s : LobbyState) (Q : List LobbyState) (k : PeerId) (o : WaitingOffer) : Prop :=
  HasOffer s Q k o ∧ (join s Q).isLeft k o.version = false

/-- Both peers of the claim have standing offers. -/
def Met (s : LobbyState) (Q : List LobbyState) (c : Claim) : Prop :=
  (∃ o, Stands s Q c.claimer o) ∧ ∃ o, Stands s Q c.target o

-- ==================================================================== what is sure

/-- With these patches in, no sweep drops the offer: it is not too old for the
latest timestamp in play, and the standing offers before it leave it room. -/
structure OfferKeeps (s : LobbyState) (Q : List LobbyState) (k : PeerId) (o : WaitingOffer) :
    Prop where
  standing : (join s Q).isLeft k o.version = false
  fresh : latest (s :: Q) - o.heartbeatMs ≤ (join s Q).config.offerTtlMs
  room : {k' | k' ≠ k ∧ ∃ v, Stands s Q k' v ∧ Places.Before offerRank (k', v) (k, o)}.ncard
    < (join s Q).config.maxOffers

/-- The best offer of its peer, which keeps once all patches that carry it are
in, whichever others are. -/
structure SureOffer (s : LobbyState) (Q : List LobbyState) (k : PeerId) (o : WaitingOffer) :
    Prop where
  offered : HasOffer s Q k o
  best : ∀ v, HasOffer s Q k v → v.rank ≤ o.rank
  keeps : ∀ Q' ≠ [], (∀ q ∈ Q', q ∈ Q) → (∀ q ∈ Q, o ∈ q.offers.get? k → q ∈ Q') →
    OfferKeeps s Q' k o

/-- With these patches in, no sweep drops the claim: it is not too old, the
offers of both its peers are sure, and the claims before it leave it room. -/
structure ClaimKeeps (s : LobbyState) (Q : List LobbyState) (j : Bytes32) (c : Claim) :
    Prop where
  fresh : latest (s :: Q) - c.createdMs ≤ (join s Q).config.claimTtlMs
  claimer : ∃ o, SureOffer s Q c.claimer o
  target : ∃ o, SureOffer s Q c.target o
  room : {j' | j' ≠ j ∧ ∃ d, HasClaim s Q j' d ∧ Met s Q d
      ∧ Places.Before claimRank (j', d) (j, c)}.ncard < (join s Q).config.maxClaims

/-- A claim that keeps once all patches that carry it are in, whichever others
are. -/
structure SureClaim (s : LobbyState) (Q : List LobbyState) (j : Bytes32) (c : Claim) :
    Prop where
  claimed : HasClaim s Q j c
  keeps : ∀ Q' ≠ [], (∀ q ∈ Q', q ∈ Q) → (∀ q ∈ Q, c ∈ q.claims.get? j → q ∈ Q') →
    ClaimKeeps s Q' j c

theorem SureOffer.congr (h : SureOffer s Q k o) (hQ : ∀ q, q ∈ ds ↔ q ∈ Q) :
    SureOffer s ds k o where
  offered := by
    obtain ⟨a, ha, ho⟩ := h.offered
    exact ⟨a, mem_start_mono (fun q hq => (hQ q).mpr hq) ha, ho⟩
  best v hv := by
    obtain ⟨a, ha, hv⟩ := hv
    exact h.best v ⟨a, mem_start_mono (fun q hq => (hQ q).mp hq) ha, hv⟩
  keeps Q' hne hsub hall := h.keeps Q' hne (fun q hq => (hQ q).mp (hsub q hq))
    fun q hq hmem => hall q ((hQ q).mpr hq) hmem

theorem SureClaim.congr (h : SureClaim s Q j c) (hQ : ∀ q, q ∈ ds ↔ q ∈ Q) :
    SureClaim s ds j c where
  claimed := by
    obtain ⟨a, ha, hc⟩ := h.claimed
    exact ⟨a, mem_start_mono (fun q hq => (hQ q).mpr hq) ha, hc⟩
  keeps Q' hne hsub hall := h.keeps Q' hne (fun q hq => (hQ q).mp (hsub q hq))
    fun q hq hmem => hall q ((hQ q).mpr hq) hmem

/-- Before the last patch an offer is sure that this patch does not carry. -/
theorem SureOffer.tail (h : SureOffer s (l ++ [q]) k o) (hq : o ∉ q.offers.get? k) :
    SureOffer s l k o where
  offered := by
    obtain ⟨a, ha, ho⟩ := h.offered
    rcases mem_start_append ha with ha | rfl
    · exact ⟨a, ha, ho⟩
    · exact absurd ho hq
  best v hv := by
    obtain ⟨a, ha, hv⟩ := hv
    exact h.best v ⟨a, mem_start_mono (fun q hq => List.mem_append_left _ hq) ha, hv⟩
  keeps Q' hne hsub hall := by
    refine h.keeps Q' hne (fun q' hq' => List.mem_append_left _ (hsub q' hq')) ?_
    intro q' hq' hmem
    rcases List.mem_append.mp hq' with hq' | hq'
    · exact hall q' hq' hmem
    · exact absurd (List.mem_singleton.mp hq' ▸ hmem) hq

theorem SureClaim.tail (h : SureClaim s (l ++ [q]) j c) (hq : c ∉ q.claims.get? j) :
    SureClaim s l j c where
  claimed := by
    obtain ⟨a, ha, hc⟩ := h.claimed
    rcases mem_start_append ha with ha | rfl
    · exact ⟨a, ha, hc⟩
    · exact absurd hc hq
  keeps Q' hne hsub hall := by
    refine h.keeps Q' hne (fun q' hq' => List.mem_append_left _ (hsub q' hq')) ?_
    intro q' hq' hmem
    rcases List.mem_append.mp hq' with hq' | hq'
    · exact hall q' hq' hmem
    · exact absurd (List.mem_singleton.mp hq' ▸ hmem) hq

/-- With all patches in, what is sure keeps. -/
theorem SureOffer.keeps_all (h : SureOffer s Q k o) (hne : Q ≠ []) : OfferKeeps s Q k o :=
  h.keeps Q hne (fun _ hq => hq) fun _ hq _ => hq

theorem SureClaim.keeps_all (h : SureClaim s Q j c) (hne : Q ≠ []) : ClaimKeeps s Q j c :=
  h.keeps Q hne (fun _ hq => hq) fun _ hq _ => hq

-- ============================================================== a replica before a sweep

/-- What a replica sweeps when the last patch is in. -/
def merged (s : LobbyState) (l : List LobbyState) (q : LobbyState) : LobbyState :=
  (deliver s l).merge q

theorem deliver_eq_cleanup (l : List LobbyState) (q : LobbyState) :
    deliver s (l ++ [q]) = (merged s l q).cleanup := deliver_append l q

theorem config_merged (l : List LobbyState) (q : LobbyState) :
    (merged s l q).config = (join s (l ++ [q])).config := by
  rw [join_append]
  exact congrArg (LobbyConfig.merge · q.config) (config_deliver l)

theorem leaves_merged (l : List LobbyState) (q : LobbyState) :
    (merged s l q).leaves = (join s (l ++ [q])).leaves := by
  rw [join_append]
  exact congrArg (Table.mergeBy LeaveMark.beats · q.leaves) (leaves_deliver l)

theorem isLeft_merged (l : List LobbyState) (q : LobbyState) (k : PeerId) (version : Nat) :
    (merged s l q).isLeft k version = (join s (l ++ [q])).isLeft k version := by
  unfold isLeft
  rw [leaves_merged]

section Formed

variable (hk : ∀ a ∈ s :: (l ++ [q]), a.Keyed)
  (hu : ∀ a ∈ s :: (l ++ [q]), ∀ b ∈ s :: (l ++ [q]), a.Untied b)

include hk in
theorem drawn_merged : Drawn (s :: (l ++ [q])) (merged s l q) := by
  have hl : Drawn (s :: (l ++ [q])) (deliver s l) := drawn_deliver hk List.mem_cons_self
    fun q' hq' => List.mem_cons_of_mem _ (List.mem_append_left _ hq')
  exact hl.merge (drawn_of_mem (List.mem_cons_of_mem _ (by simp)))

include hk in
theorem keyed_merged : (merged s l q).Keyed := (drawn_merged hk).keyed hk

include hk in
/-- The offers before one in a replica are in play and stand. -/
theorem offersBefore_le (ho : o ∈ (merged s l q).offers.get? k) :
    (merged s l q).offersBefore k o ≤ {k' | k' ≠ k ∧ ∃ v, Stands s (l ++ [q]) k' v
      ∧ Places.Before offerRank (k', v) (k, o)}.ncard := by
  refine Set.ncard_le_ncard ?_ ?_
  · rintro k' ⟨v, hv, hbefore⟩
    refine ⟨?_, v, ⟨(drawn_merged hk).offers k' v hv.stored,
      isLeft_merged l q k' _ ▸ hv.standing⟩, hbefore⟩
    rintro rfl
    rw [Option.some.inj (hv.stored.symm.trans ho)] at hbefore
    exact hbefore.asymm hbefore
  · refine (offerKeys (s :: (l ++ [q]))).finite_toSet.subset ?_
    rintro k' ⟨-, v, ⟨⟨a, ha, hv⟩, -⟩, -⟩
    exact mem_offerKeys ha (Option.isSome_iff_exists.mpr ⟨v, hv⟩)

include hk in
theorem stands_of_waiting (h : (merged s l q).Waiting p) : ∃ v, Stands s (l ++ [q]) p v := by
  obtain ⟨v, hv⟩ := (waiting_iff (keyed_merged hk)).mp h
  exact ⟨v, (drawn_merged hk).offers p v hv.stored, isLeft_merged l q p _ ▸ hv.standing⟩

include hk in
theorem claimsBefore_le (hc : c ∈ (merged s l q).claims.get? j) :
    (merged s l q).claimsBefore j c ≤ {j' | j' ≠ j ∧ ∃ d, HasClaim s (l ++ [q]) j' d
      ∧ Met s (l ++ [q]) d ∧ Places.Before claimRank (j', d) (j, c)}.ncard := by
  refine Set.ncard_le_ncard ?_ ?_
  · rintro j' ⟨d, hd, hbefore⟩
    refine ⟨?_, d, (drawn_merged hk).claims j' d hd.stored,
      ⟨stands_of_waiting hk hd.claimer, stands_of_waiting hk hd.target⟩, hbefore⟩
    rintro rfl
    rw [Option.some.inj (hd.stored.symm.trans hc)] at hbefore
    exact hbefore.asymm hbefore
  · refine (claimKeys (s :: (l ++ [q]))).finite_toSet.subset ?_
    rintro j' ⟨-, d, ⟨a, ha, hd⟩, -, -⟩
    exact mem_claimKeys ha (Option.isSome_iff_exists.mpr ⟨d, hd⟩)

include hk hu in
/-- The best offer of a peer is there if it was, or comes. -/
theorem mem_merged_offers (hbest : ∀ v, HasOffer s (l ++ [q]) k v → v.rank ≤ o.rank)
    (ho : o ∈ (deliver s l).offers.get? k ∨ o ∈ q.offers.get? k) :
    o ∈ (merged s l q).offers.get? k := by
  obtain ⟨w, hw, hle⟩ : ∃ w ∈ (merged s l q).offers.get? k, o.rank ≤ w.rank := by
    rcases ho with ho | ho
    · exact Table.exists_ge_left WaitingOffer.follows ho
    · exact Table.exists_ge_right WaitingOffer.follows ho
  have hdrawn : Drawn (s :: (l ++ [q])) (deliver s l) := drawn_deliver hk List.mem_cons_self
    fun q' hq' => List.mem_cons_of_mem _ (List.mem_append_left _ hq')
  obtain ⟨b, hb, hwb⟩ := (drawn_merged hk).offers k w hw
  obtain ⟨a, ha, hoa⟩ : HasOffer s (l ++ [q]) k o := by
    rcases ho with ho | ho
    · exact hdrawn.offers k o ho
    · exact ⟨q, List.mem_cons_of_mem _ (by simp), ho⟩
  have heq : o = w :=
    (hu a ha b hb).1 k o hoa w hwb (le_antisymm hle (hbest w ⟨b, hb, hwb⟩))
  rw [heq]
  exact hw

include hk hu in
/-- A claim is there if it was, or comes. -/
theorem mem_merged_claims (hc : c ∈ (deliver s l).claims.get? j ∨ c ∈ q.claims.get? j) :
    c ∈ (merged s l q).claims.get? j := by
  obtain ⟨w, hw⟩ : ∃ w, w ∈ (merged s l q).claims.get? j := by
    rcases hc with hc | hc
    · obtain ⟨w, hw, -⟩ := Table.exists_ge_left (u := q.claims) Claim.follows hc
      exact ⟨w, hw⟩
    · obtain ⟨w, hw, -⟩ := Table.exists_ge_right (t := (deliver s l).claims) Claim.follows hc
      exact ⟨w, hw⟩
  have hdrawn : Drawn (s :: (l ++ [q])) (deliver s l) := drawn_deliver hk List.mem_cons_self
    fun q' hq' => List.mem_cons_of_mem _ (List.mem_append_left _ hq')
  obtain ⟨b, hb, hwb⟩ := (drawn_merged hk).claims j w hw
  obtain ⟨a, ha, hca⟩ : HasClaim s (l ++ [q]) j c := by
    rcases hc with hc | hc
    · exact hdrawn.claims j c hc
    · exact ⟨q, List.mem_cons_of_mem _ (by simp), hc⟩
  have heq : c = w := (hu a ha b hb).2.2 j c hca w hwb rfl
  rw [heq]
  exact hw

include hk in
theorem OfferKeeps.live (h : OfferKeeps s (l ++ [q]) k o)
    (ho : o ∈ (merged s l q).offers.get? k) : (merged s l q).LiveOffer k o where
  stored := ho
  standing := by
    rw [isLeft_merged]
    exact h.standing
  fresh := by
    rw [config_merged]
    exact (Nat.sub_le_sub_right (drawn_merged hk).now_le _).trans h.fresh

include hk in
theorem OfferKeeps.top (h : OfferKeeps s (l ++ [q]) k o)
    (ho : o ∈ (merged s l q).offers.get? k) : (merged s l q).TopOffer k o where
  live := h.live hk ho
  room := by
    rw [config_merged]
    exact (offersBefore_le hk ho).trans_lt h.room

end Formed

/-- A list without its last element is drawn from no more. -/
theorem forall_start_init {P : LobbyState → Prop} (h : ∀ a ∈ s :: (l ++ [q]), P a) :
    ∀ a ∈ s :: l, P a :=
  fun a ha => h a (mem_start_mono (fun _ hq => List.mem_append_left _ hq) ha)

/-- **Sure offers**: every replica has them, in whatever order the patches came. -/
theorem SureOffer.mem_deliver (hk : ∀ a ∈ s :: ds, a.Keyed)
    (hu : ∀ a ∈ s :: ds, ∀ b ∈ s :: ds, a.Untied b) (h : SureOffer s ds k o) :
    o ∈ (deliver s ds).offers.get? k := by
  induction ds using List.reverseRecOn with
  | nil =>
      obtain ⟨a, ha, ho⟩ := h.offered
      rw [List.mem_singleton.mp ha] at ho
      exact ho
  | append_singleton l q ih =>
      rw [deliver_eq_cleanup, offer_stays_iff (keyed_merged hk)]
      refine (h.keeps_all (by simp)).top hk (mem_merged_offers hk hu h.best ?_)
      by_cases hq : o ∈ q.offers.get? k
      · exact .inr hq
      · exact .inl (ih (forall_start_init hk)
          (forall_start_init fun a ha => forall_start_init (hu a ha)) (h.tail hq))

/-- A sure offer is there before the last sweep. -/
theorem SureOffer.mem_merged (hk : ∀ a ∈ s :: (l ++ [q]), a.Keyed)
    (hu : ∀ a ∈ s :: (l ++ [q]), ∀ b ∈ s :: (l ++ [q]), a.Untied b)
    (h : SureOffer s (l ++ [q]) k o) : o ∈ (merged s l q).offers.get? k := by
  have ho := h.mem_deliver hk hu
  rw [deliver_eq_cleanup, offer_stays_iff (keyed_merged hk)] at ho
  exact ho.live.stored

theorem SureOffer.waiting (hk : ∀ a ∈ s :: (l ++ [q]), a.Keyed)
    (hu : ∀ a ∈ s :: (l ++ [q]), ∀ b ∈ s :: (l ++ [q]), a.Untied b)
    (h : SureOffer s (l ++ [q]) p o) : (merged s l q).Waiting p :=
  (waiting_iff (keyed_merged hk)).mpr
    ⟨o, (h.keeps_all (by simp)).live hk (h.mem_merged hk hu)⟩

theorem ClaimKeeps.top (hk : ∀ a ∈ s :: (l ++ [q]), a.Keyed)
    (hu : ∀ a ∈ s :: (l ++ [q]), ∀ b ∈ s :: (l ++ [q]), a.Untied b)
    (h : ClaimKeeps s (l ++ [q]) j c) (hc : c ∈ (merged s l q).claims.get? j) :
    (merged s l q).TopClaim j c where
  live := by
    obtain ⟨o, ho⟩ := h.claimer
    obtain ⟨o', ho'⟩ := h.target
    refine ⟨hc, ?_, ho.waiting hk hu, ho'.waiting hk hu⟩
    rw [config_merged]
    exact (Nat.sub_le_sub_right (drawn_merged hk).now_le _).trans h.fresh
  room := by
    rw [config_merged]
    exact (claimsBefore_le hk hc).trans_lt h.room

/-- **Sure claims**: every replica has them. -/
theorem SureClaim.mem_deliver (hk : ∀ a ∈ s :: ds, a.Keyed)
    (hu : ∀ a ∈ s :: ds, ∀ b ∈ s :: ds, a.Untied b) (h : SureClaim s ds j c) :
    c ∈ (deliver s ds).claims.get? j := by
  induction ds using List.reverseRecOn with
  | nil =>
      obtain ⟨a, ha, hc⟩ := h.claimed
      rw [List.mem_singleton.mp ha] at hc
      exact hc
  | append_singleton l q ih =>
      rw [deliver_eq_cleanup, claim_stays_iff (keyed_merged hk)]
      refine (h.keeps_all (by simp)).top hk hu (mem_merged_claims hk hu ?_)
      by_cases hq : c ∈ q.claims.get? j
      · exact .inr hq
      · exact .inl (ih (forall_start_init hk)
          (forall_start_init fun a ha => forall_start_init (hu a ha)) (h.tail hq))

-- ==================================================================== what goes

/-- A timestamp that stays: of a leave mark, or of what a sweep leaves. -/
inductive Lasting (s : LobbyState) : Nat → Prop
  | leave {k : PeerId} {m : LeaveMark} : m ∈ s.leaves.get? k → Lasting s m.leftMs
  | offer {k : PeerId} {o : WaitingOffer} : s.TopOffer k o → Lasting s o.heartbeatMs
  | claim {j : Bytes32} {c : Claim} : s.TopClaim j c → Lasting s c.createdMs

/-- A timestamp that merging a patch sets the clock to at least: what displaces
its record in play is no older. -/
inductive Dates (s : LobbyState) (Q : List LobbyState) (a : LobbyState) : Nat → Prop
  | leave {k : PeerId} {m : LeaveMark} : m ∈ a.leaves.get? k →
      (∀ w, HasMark s Q k w → m.rank ≤ w.rank → m.leftMs ≤ w.leftMs) → Dates s Q a m.leftMs
  | offer {k : PeerId} {o : WaitingOffer} : o ∈ a.offers.get? k →
      (∀ w, HasOffer s Q k w → o.rank ≤ w.rank → o.heartbeatMs ≤ w.heartbeatMs) →
        Dates s Q a o.heartbeatMs
  | claim {j : Bytes32} {c : Claim} : c ∈ a.claims.get? j → Dates s Q a c.createdMs

/-- A record of a patch is too old for what stays, or for the patch itself. -/
def Expires (s : LobbyState) (Q : List LobbyState) (a : LobbyState) (atMs ttlMs : Nat) : Prop :=
  ∃ τ, ((join s Q).Lasting τ ∨ Dates s Q a τ) ∧ ttlMs < τ - atMs

/-- The peer left, or the offer expires. -/
def OfferGoes (s : LobbyState) (Q : List LobbyState) (a : LobbyState) (k : PeerId)
    (o : WaitingOffer) : Prop :=
  (join s Q).isLeft k o.version = true
    ∨ Expires s Q a o.heartbeatMs (join s Q).config.offerTtlMs

/-- Every offer of the peer goes. -/
def Away (s : LobbyState) (Q : List LobbyState) (p : PeerId) : Prop :=
  ∀ a ∈ s :: Q, ∀ o ∈ a.offers.get? p, OfferGoes s Q a p o

/-- What a sweep of the plain merge leaves is sure, and each other offer or
claim goes, or ranks after as many that stay as the cap has room for. -/
structure Clear (s : LobbyState) (patches : List LobbyState) : Prop where
  offers : ∀ k o, (join s patches).TopOffer k o → SureOffer s patches k o
  claims : ∀ j c, (join s patches).TopClaim j c → SureClaim s patches j c
  pastOffers : ∀ k, (∀ o, ¬ (join s patches).TopOffer k o) →
    ∀ a ∈ s :: patches, ∀ v ∈ a.offers.get? k, OfferGoes s patches a k v
      ∨ (join s patches).config.maxOffers
        ≤ {k' | ∃ o, (join s patches).TopOffer k' o
            ∧ Places.Before offerRank (k', o) (k, v)}.ncard
  pastClaims : ∀ j, (∀ c, ¬ (join s patches).TopClaim j c) →
    ∀ a ∈ s :: patches, ∀ d ∈ a.claims.get? j,
      Expires s patches a d.createdMs (join s patches).config.claimTtlMs
        ∨ Away s patches d.claimer ∨ Away s patches d.target
        ∨ (join s patches).config.maxClaims
          ≤ {j' | ∃ c, (join s patches).TopClaim j' c
              ∧ Places.Before claimRank (j', c) (j, d)}.ncard

/-- For each record of another lobby one that is as good. -/
structure Covers (m a : LobbyState) : Prop where
  offers : ∀ k, ∀ o ∈ a.offers.get? k, ∃ w ∈ m.offers.get? k, o.rank ≤ w.rank
  leaves : ∀ k, ∀ l ∈ a.leaves.get? k, ∃ w ∈ m.leaves.get? k, l.rank ≤ w.rank
  claims : ∀ j, ∀ c ∈ a.claims.get? j, ∃ w, w ∈ m.claims.get? j

theorem covers_left (a b : LobbyState) : (a.merge b).Covers a where
  offers _ _ ho := Table.exists_ge_left WaitingOffer.follows ho
  leaves _ _ hl := Table.exists_ge_left LeaveMark.follows hl
  claims _ _ hc := by
    obtain ⟨w, hw, -⟩ := Table.exists_ge_left (u := b.claims) Claim.follows hc
    exact ⟨w, hw⟩

theorem covers_right (a b : LobbyState) : (a.merge b).Covers b where
  offers _ _ ho := Table.exists_ge_right WaitingOffer.follows ho
  leaves _ _ hl := Table.exists_ge_right LeaveMark.follows hl
  claims _ _ hc := by
    obtain ⟨w, hw, -⟩ := Table.exists_ge_right (t := a.claims) Claim.follows hc
    exact ⟨w, hw⟩

/-- The clock is set by whatever covers the patch. -/
theorem Dates.le_now (hu : ∀ a ∈ s :: Q, ∀ b ∈ s :: Q, a.Untied b) (ha : a ∈ s :: Q)
    (hm : Drawn (s :: Q) m) (hcov : m.Covers a) (h : Dates s Q a τ) : τ ≤ m.networkNowMs := by
  cases h with
  | leave hl hfirm =>
      obtain ⟨w, hw, hle⟩ := hcov.leaves _ _ hl
      exact (hfirm w (hm.leaves _ w hw) hle).trans (le_now_of_leave hw)
  | offer ho hfirm =>
      obtain ⟨w, hw, hle⟩ := hcov.offers _ _ ho
      exact (hfirm w (hm.offers _ w hw) hle).trans (le_now_of_offer hw)
  | @claim j c hc =>
      obtain ⟨w, hw⟩ := hcov.claims _ _ hc
      obtain ⟨b, hb, hwb⟩ := hm.claims j w hw
      have heq : c = w := (hu a ha b hb).2.2 j c hc w hwb rfl
      rw [heq]
      exact le_now_of_claim hw

section Settle

variable (hk : ∀ a ∈ s :: patches, a.Keyed)
  (hu : ∀ a ∈ s :: patches, ∀ b ∈ s :: patches, a.Untied b)

theorem mem_start_of_last (hds : ∀ x ∈ l ++ [q], x ∈ patches) : q ∈ s :: patches :=
  List.mem_cons_of_mem _ (hds q (by simp))

include hk in
theorem drawn_merged' (hds : ∀ x ∈ l ++ [q], x ∈ patches) :
    Drawn (s :: patches) (merged s l q) := by
  have hl : Drawn (s :: patches) (deliver s l) := drawn_deliver hk List.mem_cons_self
    fun q' hq' => List.mem_cons_of_mem _ (hds q' (List.mem_append_left _ hq'))
  exact hl.merge (drawn_of_mem (mem_start_of_last hds))

include hk hu in
/-- A live offer of a replica was not too old for the patch that brought it. -/
theorem offer_brought (hds : ∀ x ∈ l ++ [q], x ∈ patches) (hv : (merged s l q).LiveOffer k v) :
    ∃ a ∈ s :: patches, v ∈ a.offers.get? k ∧ ∀ τ, Dates s patches a τ →
      τ - v.heartbeatMs ≤ (join s patches).config.offerTtlMs := by
  have hfresh : ∀ l q τ, (∀ x ∈ l ++ [q], x ∈ patches) → (merged s l q).LiveOffer k v →
      τ ≤ (merged s l q).networkNowMs →
        τ - v.heartbeatMs ≤ (join s patches).config.offerTtlMs := by
    intro l q τ hds hv hτ
    have hlive := hv.fresh
    rw [config_merged] at hlive
    have httl := (ttl_join_mono (s := s) hds).1
    omega
  induction l using List.reverseRecOn generalizing q with
  | nil =>
      rcases mem_mergeBy hv.stored with hvs | hvq
      · exact ⟨s, List.mem_cons_self, hvs, fun τ hτ => hfresh [] q τ hds hv
          (hτ.le_now hu List.mem_cons_self (drawn_merged' hk hds) (covers_left s q))⟩
      · exact ⟨q, mem_start_of_last hds, hvq, fun τ hτ => hfresh [] q τ hds hv
          (hτ.le_now hu (mem_start_of_last hds) (drawn_merged' hk hds) (covers_right s q))⟩
  | append_singleton l q' ih =>
      rcases mem_mergeBy hv.stored with hvt | hvq
      · have hds' : ∀ x ∈ l ++ [q'], x ∈ patches := fun x hx => hds x (List.mem_append_left _ hx)
        rw [deliver_eq_cleanup, offer_stays_iff ((drawn_merged' hk hds').keyed hk)] at hvt
        exact ih hds' hvt.live
      · exact ⟨q, mem_start_of_last hds, hvq, fun τ hτ => hfresh _ q τ hds hv
          (hτ.le_now hu (mem_start_of_last hds) (drawn_merged' hk hds) (covers_right _ q))⟩

include hk hu in
/-- A live claim of a replica was not too old for the patch that brought it. -/
theorem claim_brought (hds : ∀ x ∈ l ++ [q], x ∈ patches) (hd : (merged s l q).LiveClaim j d) :
    ∃ a ∈ s :: patches, d ∈ a.claims.get? j ∧ ∀ τ, Dates s patches a τ →
      τ - d.createdMs ≤ (join s patches).config.claimTtlMs := by
  have hfresh : ∀ l q τ, (∀ x ∈ l ++ [q], x ∈ patches) → (merged s l q).LiveClaim j d →
      τ ≤ (merged s l q).networkNowMs →
        τ - d.createdMs ≤ (join s patches).config.claimTtlMs := by
    intro l q τ hds hd hτ
    have hlive := hd.fresh
    rw [config_merged] at hlive
    have httl := (ttl_join_mono (s := s) hds).2
    omega
  induction l using List.reverseRecOn generalizing q with
  | nil =>
      rcases mem_mergeBy hd.stored with hds' | hdq
      · exact ⟨s, List.mem_cons_self, hds', fun τ hτ => hfresh [] q τ hds hd
          (hτ.le_now hu List.mem_cons_self (drawn_merged' hk hds) (covers_left s q))⟩
      · exact ⟨q, mem_start_of_last hds, hdq, fun τ hτ => hfresh [] q τ hds hd
          (hτ.le_now hu (mem_start_of_last hds) (drawn_merged' hk hds) (covers_right s q))⟩
  | append_singleton l q' ih =>
      rcases mem_mergeBy hd.stored with hdt | hdq
      · have hds' : ∀ x ∈ l ++ [q'], x ∈ patches := fun x hx => hds x (List.mem_append_left _ hx)
        rw [deliver_eq_cleanup, claim_stays_iff ((drawn_merged' hk hds').keyed hk)] at hdt
        exact ih hds' hdt.live
      · exact ⟨q, mem_start_of_last hds, hdq, fun τ hτ => hfresh _ q τ hds hd
          (hτ.le_now hu (mem_start_of_last hds) (drawn_merged' hk hds) (covers_right _ q))⟩

/-- What every replica has before its last sweep, in a clear lobby. -/
structure Settled (s : LobbyState) (patches : List LobbyState) (m : LobbyState) : Prop where
  config : m.config = (join s patches).config
  left : ∀ k version, m.isLeft k version = (join s patches).isLeft k version
  offers : ∀ k o, (join s patches).TopOffer k o → m.TopOffer k o
  claims : ∀ j c, (join s patches).TopClaim j c → m.TopClaim j c
  lasting : ∀ τ, (join s patches).Lasting τ → τ ≤ m.networkNowMs

include hk hu in
theorem Clear.settled (hc : Clear s patches) (hds : Delivers patches (l ++ [q])) :
    Settled s patches (merged s l q) := by
  have hsub : ∀ a ∈ s :: (l ++ [q]), a ∈ s :: patches := fun a ha =>
    mem_start_mono (fun x hx => (hds x).mp hx) ha
  have hk' : ∀ a ∈ s :: (l ++ [q]), a.Keyed := fun a ha => hk a (hsub a ha)
  have hu' : ∀ a ∈ s :: (l ++ [q]), ∀ b ∈ s :: (l ++ [q]), a.Untied b := fun a ha b hb =>
    hu a (hsub a ha) b (hsub b hb)
  have hjoin : join s (l ++ [q]) = join s patches := join_congr
    (fun a ha b hb => hu' a (List.mem_cons_of_mem _ ha) b (List.mem_cons_of_mem _ hb)) hds
  have hoffers : ∀ k o, (join s patches).TopOffer k o → (merged s l q).TopOffer k o := by
    intro k o ho
    have hsure := (hc.offers k o ho).congr hds
    exact (hsure.keeps_all (by simp)).top hk' (hsure.mem_merged hk' hu')
  have hclaims : ∀ j c, (join s patches).TopClaim j c → (merged s l q).TopClaim j c := by
    intro j c hcl
    have hmem := ((hc.claims j c hcl).congr hds).mem_deliver hk' hu'
    rw [deliver_eq_cleanup, claim_stays_iff (keyed_merged hk')] at hmem
    exact hmem
  refine ⟨hjoin ▸ config_merged l q, fun k version => hjoin ▸ isLeft_merged l q k version,
    hoffers, hclaims, fun τ hτ => ?_⟩
  cases hτ with
  | leave hl => exact le_now_of_leave (leaves_merged (s := s) l q ▸ hjoin ▸ hl)
  | offer ho => exact le_now_of_offer (hoffers _ _ ho).live.stored
  | claim hcl => exact le_now_of_claim (hclaims _ _ hcl).live.stored

/-- What goes is not live in a replica that has all patches. -/
theorem Settled.not_live (h : Settled s patches m) (hgoes : OfferGoes s patches a k v)
    (hdates : ∀ τ, Dates s patches a τ →
      τ - v.heartbeatMs ≤ (join s patches).config.offerTtlMs) : ¬ m.LiveOffer k v := by
  intro hv
  rcases hgoes with hleft | ⟨τ, hτ | hτ, hold⟩
  · have hstands := hv.standing
    rw [h.left, hleft] at hstands
    cases hstands
  · have hnow := h.lasting τ hτ
    have hfresh := hv.fresh
    rw [h.config] at hfresh
    omega
  · have hage := hdates τ hτ
    omega

include hk hu in
/-- **Offers**: in a clear lobby every replica that has all patches has the
offers that a sweep of the plain merge leaves, and no others. -/
theorem Clear.top_offer_iff (hc : Clear s patches) (hds : Delivers patches (l ++ [q])) :
    (merged s l q).TopOffer k v ↔ (join s patches).TopOffer k v := by
  have hset := hc.settled hk hu hds
  refine ⟨fun htop => ?_, hset.offers k v⟩
  by_cases hno : ∀ o, ¬ (join s patches).TopOffer k o
  · obtain ⟨a, ha, hva, hdates⟩ := offer_brought hk hu (fun x hx => (hds x).mp hx) htop.live
    rcases hc.pastOffers k hno a ha v hva with hgoes | hfull
    · exact absurd htop.live (hset.not_live hgoes hdates)
    · -- what stays stands before the offer and leaves it no room
      have hroom := htop.room
      rw [hset.config] at hroom
      refine absurd (hfull.trans (Set.ncard_le_ncard ?_ ?_)) (not_le.mpr hroom)
      · rintro k' ⟨o, ho, hbefore⟩
        exact ⟨o, (hset.offers k' o ho).live, hbefore⟩
      · refine (merged s l q).offers.keys.finite_toSet.subset ?_
        rintro k' ⟨o, ho, -⟩
        exact (Table.mem_keys_iff _ _).mpr (Option.isSome_iff_exists.mpr ⟨o, ho.stored⟩)
  · push Not at hno
    obtain ⟨o, ho⟩ := hno
    have hsame := (hset.offers k o ho).live.stored
    rw [Option.some.inj (htop.live.stored.symm.trans hsame)]
    exact ho

include hk hu in
/-- Nobody waits all of whose offers go. -/
theorem Clear.not_waiting (hc : Clear s patches) (hds : Delivers patches (l ++ [q]))
    (haway : Away s patches p) : ¬ (merged s l q).Waiting p := by
  intro hw
  have hsub : ∀ x ∈ l ++ [q], x ∈ patches := fun x hx => (hds x).mp hx
  obtain ⟨v, hv⟩ := (waiting_iff ((drawn_merged' hk hsub).keyed hk)).mp hw
  obtain ⟨a, ha, hva, hdates⟩ := offer_brought hk hu hsub hv
  exact (hc.settled hk hu hds).not_live (haway a ha v hva) hdates hv

include hk hu in
/-- **Claims**: the same of the claims. -/
theorem Clear.top_claim_iff (hc : Clear s patches) (hds : Delivers patches (l ++ [q])) :
    (merged s l q).TopClaim j d ↔ (join s patches).TopClaim j d := by
  have hset := hc.settled hk hu hds
  refine ⟨fun htop => ?_, hset.claims j d⟩
  by_cases hno : ∀ c, ¬ (join s patches).TopClaim j c
  · obtain ⟨a, ha, hda, hdates⟩ := claim_brought hk hu (fun x hx => (hds x).mp hx) htop.live
    rcases hc.pastClaims j hno a ha d hda with ⟨τ, hτ | hτ, hold⟩ | haway | haway | hfull
    · have hnow := hset.lasting τ hτ
      have hfresh := htop.live.fresh
      rw [hset.config] at hfresh
      omega
    · have hage := hdates τ hτ
      omega
    · exact absurd htop.live.claimer (hc.not_waiting hk hu hds haway)
    · exact absurd htop.live.target (hc.not_waiting hk hu hds haway)
    · have hroom := htop.room
      rw [hset.config] at hroom
      refine absurd (hfull.trans (Set.ncard_le_ncard ?_ ?_)) (not_le.mpr hroom)
      · rintro j' ⟨c, hc, hbefore⟩
        exact ⟨c, (hset.claims j' c hc).live, hbefore⟩
      · refine (merged s l q).claims.keys.finite_toSet.subset ?_
        rintro j' ⟨c, hc, -⟩
        exact (Table.mem_keys_iff _ _).mpr (Option.isSome_iff_exists.mpr ⟨c, hc.stored⟩)
  · push Not at hno
    obtain ⟨c, hcl⟩ := hno
    have hsame := (hset.claims j c hcl).live.stored
    rw [Option.some.inj (htop.live.stored.symm.trans hsame)]
    exact hcl

include hk hu in
/-- **Settling**: in a clear lobby every delivery ends in a sweep of the plain
merge. -/
theorem Clear.deliver_eq (hc : Clear s patches) (hds : Delivers patches ds) (hne : ds ≠ []) :
    deliver s ds = (join s patches).cleanup := by
  obtain ⟨l, q, rfl⟩ := (List.eq_nil_or_concat' ds).resolve_left hne
  have hsub : ∀ x ∈ l ++ [q], x ∈ patches := fun x hx => (hds x).mp hx
  have hkm : (merged s l q).Keyed := (drawn_merged' hk hsub).keyed hk
  have hkj : (join s patches).Keyed :=
    (drawn_join List.mem_cons_self fun x hx => List.mem_cons_of_mem _ hx).keyed hk
  have hset := hc.settled hk hu hds
  have hjoin : join s (l ++ [q]) = join s patches := join_congr
    (fun a ha b hb => hu a (List.mem_cons_of_mem _ (hsub a ha)) b
      (List.mem_cons_of_mem _ (hsub b hb))) hds
  rw [deliver_eq_cleanup]
  refine ext' ?_ ?_ ?_ ?_
  · rw [config_cleanup, config_cleanup, hset.config]
  · rw [leaves_cleanup, leaves_cleanup, leaves_merged, hjoin]
  · ext k o
    show o ∈ (merged s l q).cleanup.offers.get? k ↔ o ∈ (join s patches).cleanup.offers.get? k
    rw [offer_stays_iff hkm, offer_stays_iff hkj, hc.top_offer_iff hk hu hds]
  · ext j c
    show c ∈ (merged s l q).cleanup.claims.get? j ↔ c ∈ (join s patches).cleanup.claims.get? j
    rw [claim_stays_iff hkm, claim_stays_iff hkj, hc.top_claim_iff hk hu hds]

include hk hu in
/-- In a clear lobby replicas converge. -/
theorem Clear.converges (hc : Clear s patches) : Converges s patches := by
  intro ds ds' hd hd'
  by_cases hne : patches = []
  · subst hne
    have hnil : ∀ l : List LobbyState, Delivers [] l → l = [] := fun l hl =>
      List.eq_nil_iff_forall_not_mem.mpr fun q hq => List.not_mem_nil ((hl q).mp hq)
    rw [hnil ds hd, hnil ds' hd']
  obtain ⟨p, hp⟩ := List.exists_mem_of_ne_nil _ hne
  rw [hc.deliver_eq hk hu hd (List.ne_nil_of_mem ((hd p).mpr hp)),
    hc.deliver_eq hk hu hd' (List.ne_nil_of_mem ((hd' p).mpr hp))]

end Settle

end LobbyState

end Ruletka.Contract
