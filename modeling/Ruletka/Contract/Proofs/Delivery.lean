/-
Deliveries of patches, and the plain merge beside them.

Merging alone forgets nothing, so the plain merge of a start and some patches
depends on which patches there are, and not on their order. A replica sweeps
after every patch. It has the config and the leave marks of the plain merge;
its offers and claims are in play, and of these a sweep leaves the freshest
live ones.
-/
import Ruletka.Contract.Proofs.Cleanup

namespace Ruletka.Contract

open Register

namespace LobbyState

variable {s t m p : LobbyState} {Q Q' ds U : List LobbyState} {k : PeerId} {o v : WaitingOffer}
  {j : Bytes32} {c : Claim}

/-- Merge and sweep one patch after the other. -/
def deliver (s : LobbyState) (ds : List LobbyState) : LobbyState := ds.foldl update s

/-- Merge only. -/
def join (s : LobbyState) (ds : List LobbyState) : LobbyState := ds.foldl merge s

@[simp]
theorem deliver_append (l : List LobbyState) (p : LobbyState) :
    deliver s (l ++ [p]) = (deliver s l).update p := List.foldl_concat ..

@[simp]
theorem join_append (l : List LobbyState) (p : LobbyState) :
    join s (l ++ [p]) = (join s l).merge p := List.foldl_concat ..

/-- A delivery of the patches in some order, repeats allowed. -/
def Delivers (patches ds : List LobbyState) : Prop := ∀ p, p ∈ ds ↔ p ∈ patches

/-- Any two deliveries end in the same state. -/
def Converges (s : LobbyState) (patches : List LobbyState) : Prop :=
  ∀ ds ds', Delivers patches ds → Delivers patches ds' → deliver s ds = deliver s ds'

-- ============================================================== the plain merge

theorem merge_right_comm {a b : LobbyState} (h : a.Untied b) (z : LobbyState) :
    (z.merge a).merge b = (z.merge b).merge a := by
  rw [merge_assoc, (merge_comm_iff a b).mpr h, ← merge_assoc]

theorem join_perm (hu : ∀ a ∈ ds, ∀ b ∈ ds, a.Untied b) {ds' : List LobbyState}
    (hp : ds.Perm ds') : join s ds = join s ds' :=
  hp.foldl_eq' (fun a ha b hb z => merge_right_comm (hu a ha b hb) z) s

/-- A patch that is merged already adds nothing. -/
theorem join_absorb (hu : ∀ a ∈ ds, ∀ b ∈ ds, a.Untied b) (hp : p ∈ ds) :
    (join s ds).merge p = join s ds := by
  obtain ⟨l, r, rfl⟩ := List.append_of_mem hp
  have hperm : (l ++ p :: r).Perm (l ++ r ++ [p]) := by
    rw [List.append_assoc]
    exact List.Perm.append_left _ (List.perm_append_singleton p r).symm
  rw [join_perm hu hperm, join_append, merge_assoc, merge_self]

theorem join_absorb_all {ds' : List LobbyState} (hu : ∀ a ∈ ds, ∀ b ∈ ds, a.Untied b)
    (hsub : ∀ q ∈ ds', q ∈ ds) : join (join s ds) ds' = join s ds := by
  induction ds' with
  | nil => rfl
  | cons q ds' ih =>
      show join ((join s ds).merge q) ds' = _
      rw [join_absorb hu (hsub q List.mem_cons_self)]
      exact ih fun q' hq' => hsub q' (List.mem_cons_of_mem _ hq')

/-- The plain merge depends on which patches there are, not on their order. -/
theorem join_congr {ds' : List LobbyState} (hu : ∀ a ∈ ds, ∀ b ∈ ds, a.Untied b)
    (h : ∀ q, q ∈ ds ↔ q ∈ ds') : join s ds = join s ds' := by
  have hu' : ∀ a ∈ ds', ∀ b ∈ ds', a.Untied b := fun a ha b hb =>
    hu a ((h a).mpr ha) b ((h b).mpr hb)
  have hboth : ∀ a ∈ ds ++ ds', ∀ b ∈ ds ++ ds', a.Untied b := by
    intro a ha b hb
    refine hu a ?_ b ?_
    · exact (List.mem_append.mp ha).elim id (h a).mpr
    · exact (List.mem_append.mp hb).elim id (h b).mpr
  have happ : ∀ l l', join s (l ++ l') = join (join s l) l' := fun l l' => List.foldl_append ..
  calc join s ds = join (join s ds) ds' := (join_absorb_all hu fun q hq => (h q).mpr hq).symm
    _ = join s (ds ++ ds') := (happ _ _).symm
    _ = join s (ds' ++ ds) := join_perm hboth List.perm_append_comm
    _ = join (join s ds') ds := happ _ _
    _ = join s ds' := join_absorb_all hu' fun q hq => (h q).mp hq

/-- Every record of the plain merge is in play. -/
theorem drawn_join (hs : s ∈ U) (hQ : ∀ q ∈ Q, q ∈ U) : Drawn U (join s Q) := by
  induction Q using List.reverseRecOn with
  | nil => exact drawn_of_mem hs
  | append_singleton l q ih =>
      rw [join_append]
      exact (ih fun q' hq' => hQ q' (List.mem_append_left _ hq')).merge
        (drawn_of_mem (hQ q (List.mem_append_right _ (List.mem_singleton_self q))))

theorem mem_start_append {a q : LobbyState} {l : List LobbyState} (h : a ∈ s :: (l ++ [q])) :
    a ∈ s :: l ∨ a = q := by
  rcases List.mem_cons.mp h with rfl | h
  · exact .inl List.mem_cons_self
  · rcases List.mem_append.mp h with h | h
    · exact .inl (List.mem_cons_of_mem _ h)
    · exact .inr (List.mem_singleton.mp h)

/-- The plain merge holds the best offer in play. -/
theorem exists_offer_join {a : LobbyState} (ha : a ∈ s :: Q) (ho : o ∈ a.offers.get? k) :
    ∃ w ∈ (join s Q).offers.get? k, o.rank ≤ w.rank := by
  induction Q using List.reverseRecOn with
  | nil =>
      rw [List.mem_singleton.mp ha] at ho
      exact ⟨o, ho, le_rfl⟩
  | append_singleton l q ih =>
      rw [join_append]
      rcases mem_start_append ha with ha | rfl
      · obtain ⟨w, hw, hle⟩ := ih ha
        obtain ⟨w', hw', hle'⟩ := Table.exists_ge_left (u := q.offers) WaitingOffer.follows hw
        exact ⟨w', hw', hle.trans hle'⟩
      · exact Table.exists_ge_right WaitingOffer.follows ho

theorem exists_mark_join {a : LobbyState} (ha : a ∈ s :: Q) {l : LeaveMark}
    (hl : l ∈ a.leaves.get? k) : ∃ w ∈ (join s Q).leaves.get? k, l.rank ≤ w.rank := by
  induction Q using List.reverseRecOn with
  | nil =>
      rw [List.mem_singleton.mp ha] at hl
      exact ⟨l, hl, le_rfl⟩
  | append_singleton l q ih =>
      rw [join_append]
      rcases mem_start_append ha with ha | rfl
      · obtain ⟨w, hw, hle⟩ := ih ha
        obtain ⟨w', hw', hle'⟩ := Table.exists_ge_left (u := q.leaves) LeaveMark.follows hw
        exact ⟨w', hw', hle.trans hle'⟩
      · exact Table.exists_ge_right LeaveMark.follows hl

theorem exists_claim_join {a : LobbyState} (ha : a ∈ s :: Q) (hc : c ∈ a.claims.get? j) :
    ∃ d, d ∈ (join s Q).claims.get? j := by
  induction Q using List.reverseRecOn with
  | nil =>
      rw [List.mem_singleton.mp ha] at hc
      exact ⟨c, hc⟩
  | append_singleton l q ih =>
      rw [join_append]
      rcases mem_start_append ha with ha | rfl
      · obtain ⟨d, hd⟩ := ih ha
        obtain ⟨d', hd', -⟩ := Table.exists_ge_left (u := q.claims) Claim.follows hd
        exact ⟨d', hd'⟩
      · obtain ⟨d', hd', -⟩ := Table.exists_ge_right (t := (join s l).claims) Claim.follows hc
        exact ⟨d', hd'⟩

/-- The plain merge knows of everybody who left. -/
theorem isLeft_join_iff {version : Nat} :
    (join s Q).isLeft k version = true ↔ ∃ a ∈ s :: Q, a.isLeft k version = true := by
  unfold isLeft
  simp only [Option.any_eq_true, decide_eq_true_eq]
  constructor
  · rintro ⟨w, hw, hv⟩
    obtain ⟨a, ha, hwa⟩ := (drawn_join List.mem_cons_self fun q hq =>
      List.mem_cons_of_mem s hq).leaves k w hw
    exact ⟨a, ha, w, hwa, hv⟩
  · rintro ⟨a, ha, l, hl, hv⟩
    obtain ⟨w, hw, hrank⟩ := exists_mark_join ha hl
    refine ⟨w, hw, hv.trans ?_⟩
    rcases Prod.Lex.toLex_le_toLex.mp hrank with h | h
    · exact h.le
    · exact h.1.le

theorem mem_start_mono {a : LobbyState} (hsub : ∀ q ∈ Q', q ∈ Q) (ha : a ∈ s :: Q') :
    a ∈ s :: Q :=
  (List.mem_cons.mp ha).elim (fun h => h ▸ List.mem_cons_self)
    fun h => List.mem_cons_of_mem _ (hsub a h)

/-- Who left stays left. -/
theorem isLeft_join_mono {version : Nat} (hsub : ∀ q ∈ Q', q ∈ Q)
    (h : (join s Q').isLeft k version = true) : (join s Q).isLeft k version = true := by
  obtain ⟨a, ha, hleft⟩ := isLeft_join_iff.mp h
  exact isLeft_join_iff.mpr ⟨a, mem_start_mono hsub ha, hleft⟩

theorem latest_mono {U' : List LobbyState} (hsub : ∀ a ∈ U', a ∈ U) : latest U' ≤ latest U := by
  induction U' with
  | nil => exact Nat.zero_le _
  | cons a U' ih =>
      exact max_le (le_latest (hsub a List.mem_cons_self))
        (ih fun b hb => hsub b (List.mem_cons_of_mem _ hb))

/-- Without new configs the config stays. -/
theorem config_join (h : ∀ q ∈ Q, q.config = s.config) : (join s Q).config = s.config := by
  induction Q using List.reverseRecOn with
  | nil => rfl
  | append_singleton l q ih =>
      rw [join_append]
      show (join s l).config.merge q.config = _
      rw [ih fun q' hq' => h q' (List.mem_append_left _ hq'),
        h q (List.mem_append_right _ (List.mem_singleton_self q)), LobbyConfig.merge_self]

/-- More patches only lengthen the times to live. -/
theorem ttl_join_mono (hsub : ∀ q ∈ Q', q ∈ Q) :
    (join s Q').config.offerTtlMs ≤ (join s Q).config.offerTtlMs
      ∧ (join s Q').config.claimTtlMs ≤ (join s Q).config.claimTtlMs := by
  have hge : ∀ a ∈ s :: Q, a.config.offerTtlMs ≤ (join s Q).config.offerTtlMs
      ∧ a.config.claimTtlMs ≤ (join s Q).config.claimTtlMs := by
    clear hsub
    induction Q using List.reverseRecOn with
    | nil =>
        intro a ha
        rw [List.mem_singleton.mp ha]
        exact ⟨le_rfl, le_rfl⟩
    | append_singleton l q ih =>
        intro a ha
        rw [join_append]
        rcases mem_start_append ha with ha | rfl
        · exact ⟨(ih a ha).1.trans (le_max_left _ _), (ih a ha).2.trans (le_max_left _ _)⟩
        · exact ⟨le_max_right _ _, le_max_right _ _⟩
  induction Q' using List.reverseRecOn with
  | nil => exact hge s List.mem_cons_self
  | append_singleton l q ih =>
      obtain ⟨ho, hc⟩ := ih fun q' hq' => hsub q' (List.mem_append_left _ hq')
      obtain ⟨hoq, hcq⟩ := hge q (List.mem_cons_of_mem _
        (hsub q (List.mem_append_right _ (List.mem_singleton_self q))))
      rw [join_append]
      exact ⟨max_le ho hoq, max_le hc hcq⟩

-- ================================================================ a keyed sweep

theorem Drawn.keyed (hU : ∀ a ∈ U, a.Keyed) (hm : Drawn U m) : m.Keyed where
  offers k o ho := by
    obtain ⟨a, ha, ho⟩ := hm.offers k o ho
    exact (hU a ha).offers k o ho
  leaves k l hl := by
    obtain ⟨a, ha, hl⟩ := hm.leaves k l hl
    exact (hU a ha).leaves k l hl
  claims k c hc := by
    obtain ⟨a, ha, hc⟩ := hm.claims k c hc
    exact (hU a ha).claims k c hc

theorem Drawn.cleanup (hk : m.Keyed) (hm : Drawn U m) : Drawn U m.cleanup where
  offers k o ho := by
    obtain ⟨k', ho', hkey⟩ := (swept_cleanup m).offers k o ho
    obtain rfl : k = k' := hkey.elim id fun h => h.trans (hk.offers k' o ho')
    exact hm.offers k o ho'
  leaves k l hl := hm.leaves k l (leaves_cleanup m ▸ hl)
  claims k c hc := by
    obtain ⟨k', hc', hkey⟩ := (swept_cleanup m).claims k c hc
    obtain rfl : k = k' := hkey.elim id fun h => h.trans (hk.claims k' c hc')
    exact hm.claims k c hc'

@[simp]
theorem config_cleanup (m : LobbyState) : m.cleanup.config = m.config := by
  rw [cleanup_eq, config_capClaims, config_capOffers]
  rfl

/-- What a sweep of a keyed lobby leaves of the offers. -/
theorem offer_stays_iff (hk : m.Keyed) : o ∈ m.cleanup.offers.get? k ↔ m.TopOffer k o := by
  by_cases hcap : m.swept.config.maxOffers < m.swept.offers.keys.card
  · rw [mem_offers_cleanup hcap]
    constructor
    · rintro ⟨rfl, k, htop, -⟩
      rw [hk.offers k o htop.live.stored]
      exact htop
    · intro htop
      refine ⟨hk.offers k o htop.live.stored, k, htop, fun k' o' htop' heq => .inl ?_⟩
      rw [← hk.offers k' o' htop'.live.stored, heq, hk.offers k o htop.live.stored]
  · rw [cleanup_eq, offers_capClaims, capOffers_of_le (not_lt.mp hcap)]
    constructor
    · exact fun ho => placed_offer_iff.mp (Places.placed_of_card_le (not_lt.mp hcap) ho)
    · exact fun htop => (placed_offer_iff.mpr htop).stored

/-- What a sweep of a keyed lobby leaves of the claims. -/
theorem claim_stays_iff (hk : m.Keyed) : c ∈ m.cleanup.claims.get? j ↔ m.TopClaim j c := by
  have hid : ∀ i d, d ∈ m.cleanup.claims.get? i → d.claimId = i := by
    intro i d hd
    obtain ⟨i', hd', hkey⟩ := (swept_cleanup m).claims i d hd
    exact hkey.elim (fun h => h ▸ hk.claims i' d hd') Eq.symm
  constructor
  · intro hc
    obtain ⟨i, htop, -⟩ := mem_claims_cleanup.mp ⟨j, hc⟩
    rw [← hid j c hc, hk.claims i c htop.live.stored]
    exact htop
  · intro htop
    obtain ⟨i, hi⟩ := mem_claims_cleanup.mpr ⟨j, htop, fun _ i d htop' heq => .inl (by
      rw [← hk.claims i d htop'.live.stored, heq, hk.claims j c htop.live.stored])⟩
    rw [← hk.claims j c htop.live.stored, hid i c hi]
    exact hi

/-- In a keyed lobby a peer waits with the offer under its own id. -/
theorem waiting_iff (hk : m.Keyed) : m.Waiting k ↔ ∃ o, m.LiveOffer k o := by
  constructor
  · rintro ⟨k', o, ho, rfl, -⟩
    rw [hk.offers k' o ho.stored]
    exact ⟨o, ho⟩
  · rintro ⟨o, ho⟩
    exact ⟨k, o, ho, hk.offers k o ho.stored, ho.standing⟩

-- ================================================================== the replica

theorem config_deliver (ds : List LobbyState) : (deliver s ds).config = (join s ds).config := by
  induction ds using List.reverseRecOn with
  | nil => rfl
  | append_singleton l q ih =>
      rw [deliver_append, join_append]
      exact (config_cleanup _).trans (congrArg (LobbyConfig.merge · q.config) ih)

theorem leaves_deliver (ds : List LobbyState) : (deliver s ds).leaves = (join s ds).leaves := by
  induction ds using List.reverseRecOn with
  | nil => rfl
  | append_singleton l q ih =>
      rw [deliver_append, join_append]
      exact (leaves_cleanup _).trans (congrArg (Table.mergeBy LeaveMark.beats · q.leaves) ih)

/-- A replica holds nothing but what is in play. -/
theorem drawn_deliver (hU : ∀ a ∈ U, a.Keyed) (hs : s ∈ U) (hds : ∀ q ∈ ds, q ∈ U) :
    Drawn U (deliver s ds) := by
  induction ds using List.reverseRecOn with
  | nil => exact drawn_of_mem hs
  | append_singleton l q ih =>
      rw [deliver_append]
      have hm := (ih fun q' hq' => hds q' (List.mem_append_left _ hq')).merge
        (drawn_of_mem (hds q (List.mem_append_right _ (List.mem_singleton_self q))))
      exact hm.cleanup (hm.keyed hU)

end LobbyState

end Ruletka.Contract
