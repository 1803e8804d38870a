/-
Replicas that sweep after every patch.

A clear lobby converges. The other way round the lobbies are plain: they start
without offers and claims, share one config whose caps have room for all, and
the heartbeats of a peer grow with its versions. Of two orders of all the
patches the first one ends with the patch that carries a record, and the
second one with the patch that sets the clock; so the common outcome is what a
sweep of the plain merge leaves, and what that sweep drops has to go with any
patch that comes once more. A claim is dropped as soon as one of its peers does
not wait, and no tombstone brings it back: it is lost if its offers come later,
unless it is sent again after them.
-/
import Ruletka.Contract.Proofs.Settle

namespace Ruletka.Contract

open Register

namespace LobbyState

variable {s m q a p : LobbyState} {Q ds patches : List LobbyState} {k : PeerId}
  {o v w : WaitingOffer} {j : Bytes32} {c : Claim} {τ n : Nat}

-- ================================================================== plain lobbies

/-- A start without offers and claims, patches of its config, caps with room
for all that is in play, and timestamps that do not go back. -/
structure Plain (s : LobbyState) (patches : List LobbyState) : Prop where
  noOffers : s.offers = ∅
  noClaims : s.claims = ∅
  config : ∀ q ∈ patches, q.config = s.config
  fewOffers : (offerKeys (s :: patches)).card ≤ s.config.maxOffers
  fewClaims : (claimKeys (s :: patches)).card ≤ s.config.maxClaims
  offersAge : ∀ k v w, HasOffer s patches k v → HasOffer s patches k w → v.rank ≤ w.rank →
    v.heartbeatMs ≤ w.heartbeatMs
  leavesAge : ∀ k l w, HasMark s patches k l → HasMark s patches k w → l.rank ≤ w.rank →
    l.leftMs ≤ w.leftMs

/-- A set of keys without one of them is smaller. -/
theorem ncard_lt_card {S : Set Bytes32} {F : Finset Bytes32} (hk : k ∈ F)
    (hS : ∀ x ∈ S, x ≠ k ∧ x ∈ F) : S.ncard < F.card := by
  have hsub : S ⊆ (F.erase k : Set Bytes32) := fun x hx =>
    Finset.mem_coe.mpr (Finset.mem_erase.mpr (hS x hx))
  calc S.ncard ≤ (F.erase k : Set Bytes32).ncard := Set.ncard_le_ncard hsub (Finset.finite_toSet _)
    _ = (F.erase k).card := Set.ncard_coe_finset _
    _ < F.card := Finset.card_lt_card (Finset.erase_ssubset hk)

theorem latest_le (h : ∀ a ∈ Q, a.networkNowMs ≤ n) : latest Q ≤ n := by
  induction Q with
  | nil => exact Nat.zero_le _
  | cons a Q ih =>
      exact max_le (h a List.mem_cons_self) (ih fun b hb => h b (List.mem_cons_of_mem _ hb))

theorem exists_latest (s : LobbyState) (Q : List LobbyState) :
    ∃ a ∈ s :: Q, latest (s :: Q) ≤ a.networkNowMs := by
  induction Q generalizing s with
  | nil => exact ⟨s, List.mem_cons_self, max_le le_rfl (Nat.zero_le _)⟩
  | cons q Q ih =>
      obtain ⟨a, ha, hle⟩ := ih q
      rcases le_total a.networkNowMs s.networkNowMs with h | h
      · exact ⟨s, List.mem_cons_self, max_le le_rfl (hle.trans h)⟩
      · exact ⟨a, List.mem_cons_of_mem _ ha, max_le h hle⟩

theorem covers_join (ha : a ∈ s :: Q) : (join s Q).Covers a :=
  ⟨fun _ _ ho => exists_offer_join ha ho, fun _ _ hl => exists_mark_join ha hl,
    fun _ _ hc => exists_claim_join ha hc⟩

/-- The best offer of a peer is the one of the plain merge. -/
theorem rank_le_of_join (hw : w ∈ (join s Q).offers.get? k) (hv : HasOffer s Q k v) :
    v.rank ≤ w.rank := by
  obtain ⟨a, ha, hva⟩ := hv
  obtain ⟨w', hw', hle⟩ := exists_offer_join ha hva
  rw [Option.some.inj (hw.symm.trans hw')]
  exact hle

theorem version_le_of_rank_le (h : v.rank ≤ w.rank) : v.version ≤ w.version := by
  rcases Prod.Lex.toLex_le_toLex.mp h with h | h
  · exact h.le
  · exact h.1.le

theorem isLeft_of_le {version version' : Nat} (h : m.isLeft k version' = true)
    (hle : version ≤ version') : m.isLeft k version = true := by
  unfold isLeft at h ⊢
  obtain ⟨l, hl, hv⟩ := (Option.any_eq_true _ _).mp h
  exact (Option.any_eq_true _ _).mpr ⟨l, hl, decide_eq_true (hle.trans (of_decide_eq_true hv))⟩

section Formed

variable (hk : ∀ a ∈ s :: patches, a.Keyed)
  (hu : ∀ a ∈ s :: patches, ∀ b ∈ s :: patches, a.Untied b)

/-- In a plain lobby a merge sets the clock to that of what it covers. -/
theorem Plain.now_le (hpl : Plain s patches)
    (hu : ∀ a ∈ s :: patches, ∀ b ∈ s :: patches, a.Untied b) (ha : a ∈ s :: patches)
    (hm : Drawn (s :: patches) m) (hcov : m.Covers a) : a.networkNowMs ≤ m.networkNowMs := by
  apply LobbyState.now_le
  · exact fun k o ho => (Dates.offer ho fun w hw hle =>
      hpl.offersAge k o w ⟨a, ha, ho⟩ hw hle).le_now hu ha hm hcov
  · exact fun j c hc => (Dates.claim hc).le_now hu ha hm hcov
  · exact fun k l hl => (Dates.leave hl fun w hw hle =>
      hpl.leavesAge k l w ⟨a, ha, hl⟩ hw hle).le_now hu ha hm hcov

/-- A plain lobby has room for every live offer. -/
theorem Plain.top_offer (hpl : Plain s patches) (hm : Drawn (s :: patches) m)
    (hcfg : m.config = s.config) (ho : m.LiveOffer k o) : m.TopOffer k o := by
  have hcard : m.swept.offers.keys.card ≤ m.config.maxOffers := by
    rw [hcfg]
    refine (Finset.card_le_card fun k' hk' => ?_).trans hpl.fewOffers
    obtain ⟨v, hv⟩ := Option.isSome_iff_exists.mp ((Table.mem_keys_iff _ _).mp hk')
    obtain ⟨a, ha, hva⟩ := hm.offers k' v (mem_offers_swept.mp hv).stored
    exact mem_offerKeys ha (Option.isSome_iff_exists.mpr ⟨v, hva⟩)
  exact placed_offer_iff.mp (Places.placed_of_card_le hcard (mem_offers_swept.mpr ho))

theorem Plain.top_claim (hpl : Plain s patches) (hm : Drawn (s :: patches) m)
    (hcfg : m.config = s.config) (hc : m.LiveClaim j c) : m.TopClaim j c := by
  have hcard : m.swept.claims.keys.card ≤ m.config.maxClaims := by
    rw [hcfg]
    refine (Finset.card_le_card fun j' hj' => ?_).trans hpl.fewClaims
    obtain ⟨d, hd⟩ := Option.isSome_iff_exists.mp ((Table.mem_keys_iff _ _).mp hj')
    obtain ⟨a, ha, hda⟩ := hm.claims j' d (mem_claims_swept.mp hd).stored
    exact mem_claimKeys ha (Option.isSome_iff_exists.mpr ⟨d, hda⟩)
  exact placed_claim_iff.mp (Places.placed_of_card_le hcard (mem_claims_swept.mpr hc))

/-- In a plain lobby the best offer of a peer is sure if it stands and is not too
old for what is in play. -/
theorem Plain.sure_offer (hpl : Plain s patches) (hsub : ∀ q ∈ Q, q ∈ patches)
    (hw : w ∈ (join s Q).offers.get? k) (hstands : (join s Q).isLeft k w.version = false)
    (hfresh : latest (s :: Q) - w.heartbeatMs ≤ s.config.offerTtlMs) :
    SureOffer s Q k w := by
  have hoff : HasOffer s Q k w :=
    (drawn_join List.mem_cons_self fun q hq => List.mem_cons_of_mem s hq).offers k w hw
  refine ⟨hoff, fun v hv => rank_le_of_join hw hv, fun Q' hne hsub' hall => ?_⟩
  have hcfg : (join s Q').config = s.config := config_join fun q hq =>
    hpl.config q (hsub q (hsub' q hq))
  refine ⟨?_, ?_, ?_⟩
  · by_contra hleft
    rw [Bool.not_eq_false] at hleft
    rw [isLeft_join_mono hsub' hleft] at hstands
    cases hstands
  · rw [hcfg]
    have hlatest : latest (s :: Q') ≤ latest (s :: Q) :=
      latest_mono fun a ha => mem_start_mono hsub' ha
    omega
  · rw [hcfg]
    obtain ⟨b, hb, hwb⟩ := hoff
    refine (ncard_lt_card (mem_offerKeys (mem_start_mono hsub hb)
      (Option.isSome_iff_exists.mpr ⟨w, hwb⟩)) ?_).trans_le hpl.fewOffers
    rintro k' ⟨hne, v, ⟨⟨a, ha, hva⟩, -⟩, -⟩
    exact ⟨hne, mem_offerKeys (mem_start_mono hsub (mem_start_mono hsub' ha))
      (Option.isSome_iff_exists.mpr ⟨v, hva⟩)⟩

include hu in
/-- Some patch of a collection sets the clock to the latest timestamp in play. -/
theorem Plain.exists_loud (hpl : Plain s patches) (hk : ∀ a ∈ s :: patches, a.Keyed)
    (hsub : ∀ q ∈ Q, q ∈ patches) (hne : Q ≠ []) :
    ∃ q ∈ Q, latest (s :: Q) ≤ (merged s Q q).networkNowMs := by
  obtain ⟨a, ha, hle⟩ := exists_latest s Q
  have hdrawn : ∀ q ∈ Q, Drawn (s :: patches) (merged s Q q) := by
    intro q hq
    refine drawn_merged' hk fun x hx => ?_
    rcases List.mem_append.mp hx with hx | hx
    · exact hsub x hx
    · exact hsub x (List.mem_singleton.mp hx ▸ hq)
  rcases List.mem_cons.mp ha with rfl | ha
  · -- the start carries nothing but leave marks, which no replica drops
    obtain ⟨q, hq⟩ := List.exists_mem_of_ne_nil _ hne
    refine ⟨q, hq, hle.trans (hpl.now_le hu List.mem_cons_self (hdrawn q hq) ?_)⟩
    refine ⟨fun k o ho => ?_, fun k l hl => ?_, fun j c hc => ?_⟩
    · rw [hpl.noOffers, Table.get?_empty] at ho
      cases ho
    · rw [leaves_merged]
      exact exists_mark_join List.mem_cons_self hl
    · rw [hpl.noClaims, Table.get?_empty] at hc
      cases hc
  · exact ⟨a, ha, hle.trans (hpl.now_le hu (List.mem_cons_of_mem _ (hsub a ha)) (hdrawn a ha)
      (covers_right _ a))⟩

-- ================================================================ the common outcome

variable (hpl : Plain s patches) (hconv : Converges s patches)

/-- The patches, and one of them once more. -/
theorem delivers_again (hp : p ∈ patches) : Delivers patches (patches ++ [p]) := by
  intro q
  rw [List.mem_append, List.mem_singleton]
  exact ⟨fun hq => hq.elim id fun hq => hq ▸ hp, .inl⟩

theorem mem_of_again (hp : p ∈ patches) : ∀ x ∈ patches ++ [p], x ∈ patches :=
  fun x hx => (delivers_again hp x).mp hx

include hconv in
/-- The common outcome is a sweep of itself and any one patch. -/
theorem outcome_eq (hp : p ∈ patches) : deliver s patches = (merged s patches p).cleanup := by
  rw [← deliver_eq_cleanup]
  exact hconv _ _ (fun _ => Iff.rfl) (delivers_again hp)

include hu in
theorem join_again (hp : p ∈ patches) : join s (patches ++ [p]) = join s patches :=
  join_congr (fun a ha b hb => hu a (List.mem_cons_of_mem _ (mem_of_again hp a ha)) b
    (List.mem_cons_of_mem _ (mem_of_again hp b hb))) (delivers_again hp)

include hpl in
theorem config_again (hp : p ∈ patches) : (merged s patches p).config = s.config := by
  rw [config_merged]
  exact config_join fun q hq => hpl.config q (mem_of_again hp q hq)

include hpl hu in
/-- The plain merge has the latest clock. -/
theorem latest_le_join : latest (s :: patches) ≤ (join s patches).networkNowMs :=
  latest_le fun _ ha => hpl.now_le hu ha
    (drawn_join List.mem_cons_self fun _ hq => List.mem_cons_of_mem _ hq) (covers_join ha)

include hk hu hpl in
/-- A live offer of the plain merge that is there at the end is live there. -/
theorem live_again (hp : p ∈ patches) (hlive : (join s patches).LiveOffer k o)
    (ho : o ∈ (merged s patches p).offers.get? k) : (merged s patches p).LiveOffer k o := by
  have hfresh := hlive.fresh
  rw [config_join hpl.config] at hfresh
  have hnow := (drawn_merged' hk (mem_of_again hp)).now_le
  have hlatest := latest_le_join hu hpl
  refine ⟨ho, ?_, ?_⟩
  · rw [isLeft_merged, join_again hu hp]
    exact hlive.standing
  · rw [config_again hpl hp]
    omega

include hu in
theorem mem_again (hk : ∀ a ∈ s :: patches, a.Keyed) (hp : p ∈ patches)
    (hjoin : o ∈ (join s patches).offers.get? k)
    (ho : o ∈ (deliver s patches).offers.get? k ∨ o ∈ p.offers.get? k) :
    o ∈ (merged s patches p).offers.get? k := by
  have hsub : ∀ a ∈ s :: (patches ++ [p]), a ∈ s :: patches := fun a ha =>
    mem_start_mono (mem_of_again hp) ha
  refine mem_merged_offers (fun a ha => hk a (hsub a ha))
    (fun a ha b hb => hu a (hsub a ha) b (hsub b hb)) (fun v hv => ?_) ho
  obtain ⟨a, ha, hva⟩ := hv
  exact rank_le_of_join hjoin ⟨a, hsub a ha, hva⟩

include hk hu hpl hconv in
/-- The outcome has the offers that a sweep of the plain merge leaves. -/
theorem offer_in_outcome (ho : (join s patches).TopOffer k o) :
    o ∈ (deliver s patches).offers.get? k := by
  obtain ⟨a, ha, hoa⟩ := (drawn_join List.mem_cons_self fun q hq =>
    List.mem_cons_of_mem s hq).offers k o ho.live.stored
  rcases List.mem_cons.mp ha with rfl | ha
  · rw [hpl.noOffers, Table.get?_empty] at hoa
    cases hoa
  · have hdrawn := drawn_merged' hk (mem_of_again ha)
    rw [outcome_eq hconv ha, offer_stays_iff (hdrawn.keyed hk)]
    exact hpl.top_offer hdrawn (config_again hpl ha)
      (live_again hk hu hpl ha ho.live (mem_again hu hk ha ho.live.stored (.inr hoa)))

include hk hu hpl hconv in
/-- And no others. -/
theorem top_of_outcome (ho : o ∈ (deliver s patches).offers.get? k) :
    (join s patches).TopOffer k o := by
  have hdrawn : Drawn (s :: patches) (deliver s patches) := drawn_deliver hk List.mem_cons_self
    fun q hq => List.mem_cons_of_mem _ hq
  have hjdrawn : Drawn (s :: patches) (join s patches) :=
    drawn_join List.mem_cons_self fun q hq => List.mem_cons_of_mem _ hq
  obtain ⟨b, hb, hob⟩ := hdrawn.offers k o ho
  have hne : patches ≠ [] := by
    rintro rfl
    rw [List.mem_singleton.mp hb, hpl.noOffers, Table.get?_empty] at hob
    cases hob
  obtain ⟨q, hq, hloud⟩ := hpl.exists_loud hu hk (fun _ hq => hq) hne
  have htop := ho
  rw [outcome_eq hconv hq, offer_stays_iff ((drawn_merged' hk (mem_of_again hq)).keyed hk)]
    at htop
  -- the best offer of the peer is no older, and lives by the same clock
  obtain ⟨w, hw, hrank⟩ := exists_offer_join hb hob
  have hlive : (join s patches).LiveOffer k w := by
    refine ⟨hw, ?_, ?_⟩
    · by_contra hleft
      rw [Bool.not_eq_false] at hleft
      have hstands := htop.live.standing
      rw [isLeft_merged, join_again hu hq,
        isLeft_of_le hleft (version_le_of_rank_le hrank)] at hstands
      cases hstands
    · have hfresh := htop.live.fresh
      rw [config_again hpl hq] at hfresh
      have hage := hpl.offersAge k o w ⟨b, hb, hob⟩ (hjdrawn.offers k w hw) hrank
      have hnow := hjdrawn.now_le
      rw [config_join hpl.config]
      omega
  have hwtop := hpl.top_offer hjdrawn (config_join hpl.config) hlive
  have hwo := offer_in_outcome hk hu hpl hconv hwtop
  rw [Option.some.inj (ho.symm.trans hwo)]
  exact hwtop

include hk hu hpl hconv in
/-- Who waits in the plain merge waits at the end. -/
theorem waiting_again (hp : p ∈ patches) {x : PeerId} (hx : ∃ o, (join s patches).TopOffer x o) :
    (merged s patches p).Waiting x := by
  obtain ⟨o, ho⟩ := hx
  refine (waiting_iff ((drawn_merged' hk (mem_of_again hp)).keyed hk)).mpr ⟨o, ?_⟩
  exact live_again hk hu hpl hp ho.live
    (mem_again hu hk hp ho.live.stored (.inl (offer_in_outcome hk hu hpl hconv ho)))

include hk hpl in
theorem exists_top_of_waiting {x : PeerId} (hx : (join s patches).Waiting x) :
    ∃ o, (join s patches).TopOffer x o := by
  have hjdrawn : Drawn (s :: patches) (join s patches) :=
    drawn_join List.mem_cons_self fun q hq => List.mem_cons_of_mem _ hq
  obtain ⟨o, ho⟩ := (waiting_iff (hjdrawn.keyed hk)).mp hx
  exact ⟨o, hpl.top_offer hjdrawn (config_join hpl.config) ho⟩

include hu in
theorem mem_again_claim (hk : ∀ a ∈ s :: patches, a.Keyed) (hp : p ∈ patches)
    (hc : c ∈ p.claims.get? j) : c ∈ (merged s patches p).claims.get? j := by
  have hsub : ∀ a ∈ s :: (patches ++ [p]), a ∈ s :: patches := fun a ha =>
    mem_start_mono (mem_of_again hp) ha
  exact mem_merged_claims (fun a ha => hk a (hsub a ha))
    (fun a ha b hb => hu a (hsub a ha) b (hsub b hb)) (.inr hc)

include hk hu hpl hconv in
/-- The outcome has the claims that a sweep of the plain merge leaves. -/
theorem claim_in_outcome (hc : (join s patches).TopClaim j c) :
    c ∈ (deliver s patches).claims.get? j := by
  obtain ⟨a, ha, hca⟩ := (drawn_join List.mem_cons_self fun q hq =>
    List.mem_cons_of_mem s hq).claims j c hc.live.stored
  rcases List.mem_cons.mp ha with rfl | ha
  · rw [hpl.noClaims, Table.get?_empty] at hca
    cases hca
  · have hdrawn := drawn_merged' hk (mem_of_again ha)
    rw [outcome_eq hconv ha, claim_stays_iff (hdrawn.keyed hk)]
    refine hpl.top_claim hdrawn (config_again hpl ha) ⟨mem_again_claim hu hk ha hca, ?_, ?_, ?_⟩
    · have hfresh := hc.live.fresh
      rw [config_join hpl.config] at hfresh
      have hnow := hdrawn.now_le
      have hlatest := latest_le_join hu hpl
      rw [config_again hpl ha]
      omega
    · exact waiting_again hk hu hpl hconv ha (exists_top_of_waiting hk hpl hc.live.claimer)
    · exact waiting_again hk hu hpl hconv ha (exists_top_of_waiting hk hpl hc.live.target)

include hk hu hpl hconv in
/-- And no others. -/
theorem top_of_outcome_claim (hc : c ∈ (deliver s patches).claims.get? j) :
    (join s patches).TopClaim j c := by
  have hdrawn : Drawn (s :: patches) (deliver s patches) := drawn_deliver hk List.mem_cons_self
    fun q hq => List.mem_cons_of_mem _ hq
  have hjdrawn : Drawn (s :: patches) (join s patches) :=
    drawn_join List.mem_cons_self fun q hq => List.mem_cons_of_mem _ hq
  obtain ⟨b, hb, hcb⟩ := hdrawn.claims j c hc
  have hne : patches ≠ [] := by
    rintro rfl
    rw [List.mem_singleton.mp hb, hpl.noClaims, Table.get?_empty] at hcb
    cases hcb
  obtain ⟨q, hq, hloud⟩ := hpl.exists_loud hu hk (fun _ hq => hq) hne
  have hmdrawn := drawn_merged' hk (mem_of_again hq)
  have htop := hc
  rw [outcome_eq hconv hq, claim_stays_iff (hmdrawn.keyed hk)] at htop
  have hwaits : ∀ x, (merged s patches q).Waiting x → (join s patches).Waiting x := by
    intro x hx
    obtain ⟨o, ho⟩ := (waiting_iff (hmdrawn.keyed hk)).mp hx
    have hstays : o ∈ (deliver s patches).offers.get? x := by
      rw [outcome_eq hconv hq, offer_stays_iff (hmdrawn.keyed hk)]
      exact hpl.top_offer hmdrawn (config_again hpl hq) ho
    exact (waiting_iff (hjdrawn.keyed hk)).mpr ⟨o, (top_of_outcome hk hu hpl hconv hstays).live⟩
  refine hpl.top_claim hjdrawn (config_join hpl.config) ⟨?_, ?_, ?_, ?_⟩
  · obtain ⟨d, hd⟩ := exists_claim_join hb hcb
    obtain ⟨b', hb', hdb⟩ := hjdrawn.claims j d hd
    have heq : c = d := (hu b hb b' hb').2.2 j c hcb d hdb rfl
    rw [heq]
    exact hd
  · have hfresh := htop.live.fresh
    rw [config_again hpl hq] at hfresh
    have hnow := hjdrawn.now_le
    rw [config_join hpl.config]
    omega
  · exact hwaits _ htop.live.claimer
  · exact hwaits _ htop.live.target

-- ===================================================================== what is sure

include hk in
/-- Without a carrier a claim that is gone stays gone. -/
theorem claim_gone {l rest : List LobbyState} (hds : ∀ q ∈ l ++ rest, q ∈ patches)
    (hgone : c ∉ (deliver s l).claims.get? j) (hno : ∀ q ∈ rest, c ∉ q.claims.get? j) :
    c ∉ (deliver s (l ++ rest)).claims.get? j := by
  induction rest using List.reverseRecOn with
  | nil =>
      rw [List.append_nil]
      exact hgone
  | append_singleton rest q ih =>
      rw [← List.append_assoc] at hds ⊢
      intro hmem
      rw [deliver_eq_cleanup, claim_stays_iff ((drawn_merged' hk hds).keyed hk)] at hmem
      rcases mem_mergeBy hmem.live.stored with h | h
      · exact ih (fun x hx => hds x (List.mem_append_left _ hx))
          (fun x hx => hno x (List.mem_append_left _ hx)) h
      · exact hno q (List.mem_append_right _ (List.mem_singleton_self q)) h

include hk hpl in
/-- A peer that waits when a patch sets the clock to the latest timestamp has
an offer that is sure. -/
theorem sure_of_waiting (hsub : ∀ q ∈ Q, q ∈ patches) (hq : q ∈ Q)
    (hloud : latest (s :: Q) ≤ (merged s Q q).networkNowMs) {x : PeerId}
    (hwaits : (merged s Q q).Waiting x) : ∃ o, SureOffer s Q x o := by
  have hQq : ∀ y ∈ Q ++ [q], y ∈ Q := by
    intro y hy
    rcases List.mem_append.mp hy with hy | hy
    · exact hy
    · exact List.mem_singleton.mp hy ▸ hq
  have hQ : ∀ y ∈ Q ++ [q], y ∈ patches := fun y hy => hsub y (hQq y hy)
  have hdrawn : Drawn (s :: (Q ++ [q])) (merged s Q q) :=
    drawn_merged fun a ha => hk a (mem_start_mono hQ ha)
  obtain ⟨v, hv⟩ := (waiting_iff ((drawn_merged' hk hQ).keyed hk)).mp hwaits
  obtain ⟨b, hb, hvb⟩ := hdrawn.offers x v hv.stored
  have hb' : b ∈ s :: Q := mem_start_mono hQq hb
  obtain ⟨w, hw, hrank⟩ := exists_offer_join hb' hvb
  obtain ⟨b', hb'', hwb⟩ := (drawn_join List.mem_cons_self fun q hq =>
    List.mem_cons_of_mem s hq).offers x w hw
  refine ⟨w, hpl.sure_offer hsub hw ?_ ?_⟩
  · by_contra hleft
    rw [Bool.not_eq_false] at hleft
    have hstands := hv.standing
    rw [isLeft_merged, isLeft_join_mono (fun y hy => List.mem_append_left _ hy)
      (isLeft_of_le hleft (version_le_of_rank_le hrank))] at hstands
    cases hstands
  · have hage := hpl.offersAge x v w ⟨b, mem_start_mono hsub hb', hvb⟩
      ⟨b', mem_start_mono hsub hb'', hwb⟩ hrank
    have hfresh := hv.fresh
    rw [config_merged, config_join fun y hy => hpl.config y (hQ y hy)] at hfresh
    omega

include hk hu hpl hconv in
/-- A claim that stays finds both its peers sure, once all that carry it are
in: otherwise the patch that sets the clock makes it go. -/
theorem peer_sure (hc : (join s patches).TopClaim j c) (hne : Q ≠ [])
    (hsub : ∀ q ∈ Q, q ∈ patches) (hall : ∀ q ∈ patches, c ∈ q.claims.get? j → q ∈ Q)
    {x : PeerId} (hx : x = c.claimer ∨ x = c.target) : ∃ o, SureOffer s Q x o := by
  by_contra hno
  obtain ⟨q, hq, hloud⟩ := hpl.exists_loud hu hk hsub hne
  have hQ : ∀ y ∈ Q ++ [q], y ∈ patches := by
    intro y hy
    rcases List.mem_append.mp hy with hy | hy
    · exact hsub y hy
    · exact List.mem_singleton.mp hy ▸ hsub q hq
  have hmdrawn := drawn_merged' hk hQ
  have hnot : ¬ (merged s Q q).Waiting x :=
    fun hwaits => hno (sure_of_waiting hk hpl hsub hq hloud hwaits)
  -- so the claim is lost in an order that has the other patches later
  let rest := patches.filter fun y => decide (c ∉ y.claims.get? j)
  have hrest : ∀ y ∈ rest, y ∈ patches ∧ c ∉ y.claims.get? j := by
    intro y hy
    obtain ⟨hy, hcy⟩ := List.mem_filter.mp hy
    exact ⟨hy, of_decide_eq_true hcy⟩
  have hdel : Delivers patches ((Q ++ [q]) ++ rest) := by
    intro y
    rw [List.mem_append]
    constructor
    · exact fun hy => hy.elim (hQ y) fun hy => (hrest y hy).1
    · intro hy
      by_cases hcy : c ∈ y.claims.get? j
      · exact .inl (List.mem_append_left _ (hall y hy hcy))
      · exact .inr (List.mem_filter.mpr ⟨hy, decide_eq_true hcy⟩)
  have hgone : c ∉ (deliver s (Q ++ [q])).claims.get? j := by
    intro hmem
    rw [deliver_eq_cleanup, claim_stays_iff (hmdrawn.keyed hk)] at hmem
    rcases hx with rfl | rfl
    · exact hnot hmem.live.claimer
    · exact hnot hmem.live.target
  refine claim_gone hk (fun y hy => (hdel y).mp hy) hgone (fun y hy => (hrest y hy).2) ?_
  rw [hconv _ patches hdel fun _ => Iff.rfl]
  exact claim_in_outcome hk hu hpl hconv hc

include hk hu hpl hconv in
theorem claim_sure (hc : (join s patches).TopClaim j c) : SureClaim s patches j c := by
  have hclaimed := (drawn_join List.mem_cons_self fun q hq =>
    List.mem_cons_of_mem s hq).claims j c hc.live.stored
  refine ⟨hclaimed, fun Q hne hsub hall => ?_⟩
  have hcfg : (join s Q).config = s.config := config_join fun q hq => hpl.config q (hsub q hq)
  refine ⟨?_, peer_sure hk hu hpl hconv hc hne hsub hall (.inl rfl),
    peer_sure hk hu hpl hconv hc hne hsub hall (.inr rfl), ?_⟩
  · have hfresh := hc.live.fresh
    rw [config_join hpl.config] at hfresh
    have hlatest := latest_le_join hu hpl
    have hmono : latest (s :: Q) ≤ latest (s :: patches) :=
      latest_mono fun a ha => mem_start_mono hsub ha
    rw [hcfg]
    omega
  · rw [hcfg]
    obtain ⟨b, hb, hcb⟩ := hclaimed
    refine (ncard_lt_card (mem_claimKeys hb (Option.isSome_iff_exists.mpr ⟨c, hcb⟩))
      ?_).trans_le hpl.fewClaims
    rintro j' ⟨hne, d, ⟨a, ha, hda⟩, -, -⟩
    exact ⟨hne, mem_claimKeys (mem_start_mono hsub ha) (Option.isSome_iff_exists.mpr ⟨d, hda⟩)⟩

-- ====================================================================== what goes

include hk hu hpl hconv in
/-- The clock of the last sweep is set by what stays, or by the last patch. -/
theorem now_again_le (hp : p ∈ patches)
    (h : ∀ τ, (join s patches).Lasting τ ∨ Dates s patches p τ → τ ≤ n) :
    (merged s patches p).networkNowMs ≤ n := by
  have hp' : p ∈ s :: patches := List.mem_cons_of_mem _ hp
  apply LobbyState.now_le
  · intro k o ho
    rcases mem_mergeBy ho with ho | ho
    · exact h _ (.inl (.offer (top_of_outcome hk hu hpl hconv ho)))
    · exact h _ (.inr (.offer ho fun w hw hle => hpl.offersAge k o w ⟨p, hp', ho⟩ hw hle))
  · intro j c hc
    rcases mem_mergeBy hc with hc | hc
    · exact h _ (.inl (.claim (top_of_outcome_claim hk hu hpl hconv hc)))
    · exact h _ (.inr (.claim hc))
  · intro k l hl
    rw [leaves_merged, join_again hu hp] at hl
    exact h _ (.inl (.leave hl))

include hk hu hpl hconv in
/-- Where no offer of a peer stays, each one goes. -/
theorem offer_goes (hno : ∀ o, ¬ (join s patches).TopOffer k o) (ha : a ∈ s :: patches)
    (hv : v ∈ a.offers.get? k) : OfferGoes s patches a k v := by
  rcases List.mem_cons.mp ha with rfl | hp
  · rw [hpl.noOffers, Table.get?_empty] at hv
    cases hv
  by_contra hstays
  unfold OfferGoes at hstays
  push Not at hstays
  obtain ⟨hleft, hexp⟩ := hstays
  have hnone : (deliver s patches).offers.get? k = none :=
    Option.eq_none_iff_forall_not_mem.mpr fun o ho => hno o (top_of_outcome hk hu hpl hconv ho)
  have hmem : v ∈ (merged s patches a).offers.get? k := by
    show v ∈ ((deliver s patches).offers.mergeBy WaitingOffer.beats a.offers).get? k
    rw [Table.get?_mergeBy, hnone, pick_none_left]
    exact hv
  have hdrawn := drawn_merged' hk (mem_of_again hp)
  have hlive : (merged s patches a).LiveOffer k v := by
    refine ⟨hmem, ?_, ?_⟩
    · rw [isLeft_merged, join_again hu hp]
      exact Bool.not_eq_true _ ▸ hleft
    · have hnow := now_again_le hk hu hpl hconv (n := v.heartbeatMs + s.config.offerTtlMs) hp
        fun τ hτ => by
          by_contra hlt
          refine hexp ⟨τ, hτ, ?_⟩
          rw [config_join hpl.config]
          omega
      rw [config_again hpl hp]
      omega
  have hstays : v ∈ (deliver s patches).offers.get? k := by
    rw [outcome_eq hconv hp, offer_stays_iff (hdrawn.keyed hk)]
    exact hpl.top_offer hdrawn (config_again hpl hp) hlive
  rw [hnone] at hstays
  cases hstays

include hk hu hpl hconv in
/-- Where no claim of an id stays, each one goes. -/
theorem claim_goes (hno : ∀ c, ¬ (join s patches).TopClaim j c) (ha : a ∈ s :: patches)
    (hc : c ∈ a.claims.get? j) :
    Expires s patches a c.createdMs (join s patches).config.claimTtlMs
      ∨ Away s patches c.claimer ∨ Away s patches c.target := by
  rcases List.mem_cons.mp ha with rfl | hp
  · rw [hpl.noClaims, Table.get?_empty] at hc
    cases hc
  by_contra hstays
  push Not at hstays
  obtain ⟨hexp, hclaimer, htarget⟩ := hstays
  have hwaits : ∀ x, ¬ Away s patches x → (merged s patches a).Waiting x := by
    intro x hx
    unfold Away at hx
    push Not at hx
    obtain ⟨b, hb, v, hv, hgoes⟩ := hx
    refine waiting_again hk hu hpl hconv hp ?_
    by_contra hnone
    exact hgoes (offer_goes hk hu hpl hconv (fun o ho => hnone ⟨o, ho⟩) hb hv)
  have hdrawn := drawn_merged' hk (mem_of_again hp)
  have hlive : (merged s patches a).LiveClaim j c := by
    refine ⟨mem_again_claim hu hk hp hc, ?_, hwaits _ hclaimer, hwaits _ htarget⟩
    have hnow := now_again_le hk hu hpl hconv (n := c.createdMs + s.config.claimTtlMs) hp
      fun τ hτ => by
        by_contra hlt
        refine hexp ⟨τ, hτ, ?_⟩
        rw [config_join hpl.config]
        omega
    rw [config_again hpl hp]
    omega
  refine hno c (top_of_outcome_claim hk hu hpl hconv ?_)
  rw [outcome_eq hconv hp, claim_stays_iff (hdrawn.keyed hk)]
  exact hpl.top_claim hdrawn (config_again hpl hp) hlive

include hk hu hpl hconv in
/-- A plain lobby that converges is clear. -/
theorem clear_of_converges : Clear s patches where
  offers k o ho := by
    have hfresh := ho.live.fresh
    rw [config_join hpl.config] at hfresh
    have hlatest := latest_le_join hu hpl
    exact hpl.sure_offer (fun _ hq => hq) ho.live.stored ho.live.standing (by omega)
  claims _ _ hc := claim_sure hk hu hpl hconv hc
  pastOffers _ hno _ ha _ hv := .inl (offer_goes hk hu hpl hconv hno ha hv)
  pastClaims _ hno _ ha _ hd := (claim_goes hk hu hpl hconv hno ha hd).imp_right fun h =>
    h.imp_right .inl

end Formed

-- ==================================================================== a clear lobby

/-- The second heartbeat of the peer 1, another peer, and a claim of the one on
the other. -/
def meeting : LobbyState :=
  ((offering (plainOffer 1 2 21000 5)).upsertOffer (plainOffer 2 1 20500 6)).insertClaim
    ⟨7, 1, 2, 9, 21000, []⟩

/-- Two heartbeats of the peer 1 twenty seconds apart, and a peer 3 that is too
old when the second one is in. -/
def evening : List LobbyState :=
  [offering (plainOffer 1 1 1000 5), offering (plainOffer 3 1 2000 7), meeting]

theorem get?_meeting (k : PeerId) : meeting.offers.get? k
    = if k = 2 then some (plainOffer 2 1 20500 6)
      else if k = 1 then some (plainOffer 1 2 21000 5) else none := by
  have hnone : (offering (plainOffer 1 2 21000 5)).offers.get? 2 = none := by decide
  have hoffers : meeting.offers
      = (offering (plainOffer 1 2 21000 5)).offers.set 2 (plainOffer 2 1 20500 6) := by
    unfold meeting upsertOffer
    rw [show (plainOffer 2 1 20500 6).peerId = 2 from rfl, hnone]
    rfl
  rw [hoffers, Table.get?_set, get?_offering]
  rfl

theorem get?_meeting_claims (j : Bytes32) : meeting.claims.get? j
    = if j = 7 then some ⟨7, 1, 2, 9, 21000, []⟩ else none := by
  have hclaims : meeting.claims = (∅ : Table Bytes32 Claim).set 7 ⟨7, 1, 2, 9, 21000, []⟩ := by
    decide +kernel
  rw [hclaims, Table.get?_set, Table.get?_empty]

theorem mem_evening {a : LobbyState} (ha : a ∈ LobbyState.new .default :: evening) :
    a = .new .default ∨ a = offering (plainOffer 1 1 1000 5)
      ∨ a = offering (plainOffer 3 1 2000 7) ∨ a = meeting := by
  simpa [evening] using ha

theorem offers_evening {k : PeerId} {v : WaitingOffer}
    (hv : HasOffer (.new .default) evening k v) :
    (k = 1 ∧ v = plainOffer 1 1 1000 5) ∨ (k = 3 ∧ v = plainOffer 3 1 2000 7)
      ∨ (k = 2 ∧ v = plainOffer 2 1 20500 6) ∨ k = 1 ∧ v = plainOffer 1 2 21000 5 := by
  obtain ⟨a, ha, hv⟩ := hv
  rcases mem_evening ha with rfl | rfl | rfl | rfl
  · cases hv
  · exact .inl (mem_offering hv)
  · exact .inr (.inl (mem_offering hv))
  · rw [get?_meeting] at hv
    split at hv
    case isTrue h => exact .inr (.inr (.inl ⟨h, (Option.some.inj hv).symm⟩))
    case isFalse =>
      split at hv
      case isTrue h => exact .inr (.inr (.inr ⟨h, (Option.some.inj hv).symm⟩))
      case isFalse => cases hv

theorem claims_evening {j : Bytes32} {c : Claim}
    (hc : HasClaim (.new .default) evening j c) :
    j = 7 ∧ c = ⟨7, 1, 2, 9, 21000, []⟩ := by
  obtain ⟨a, ha, hc⟩ := hc
  have hnone : ∀ o, (offering o).claims.get? j = none := fun _ => rfl
  rcases mem_evening ha with rfl | rfl | rfl | rfl
  · cases hc
  · rw [hnone] at hc
    cases hc
  · rw [hnone] at hc
    cases hc
  · rw [get?_meeting_claims] at hc
    split at hc
    case isTrue h => exact ⟨h, (Option.some.inj hc).symm⟩
    case isFalse => cases hc

theorem marks_evening {k : PeerId} {l : LeaveMark} : ¬ HasMark (.new .default) evening k l := by
  rintro ⟨a, ha, hl⟩
  have hnone : ∀ o, (offering o).leaves.get? k = none := fun _ => rfl
  have hmeet : meeting.leaves.get? k = none := rfl
  rcases mem_evening ha with rfl | rfl | rfl | rfl
  · cases hl
  · rw [hnone] at hl
    cases hl
  · rw [hnone] at hl
    cases hl
  · rw [hmeet] at hl
    cases hl

theorem keyed_evening : ∀ a ∈ LobbyState.new .default :: evening, a.Keyed := by
  intro a ha
  refine ⟨fun k o ho => ?_, fun k l hl => absurd ⟨a, ha, hl⟩ marks_evening, fun j c hc => ?_⟩
  · rcases offers_evening ⟨a, ha, ho⟩ with ⟨rfl, rfl⟩ | ⟨rfl, rfl⟩ | ⟨rfl, rfl⟩ | ⟨rfl, rfl⟩
    · rfl
    · rfl
    · rfl
    · rfl
  · obtain ⟨rfl, rfl⟩ := claims_evening ⟨a, ha, hc⟩
    rfl

theorem untied_evening : ∀ a ∈ LobbyState.new .default :: evening,
    ∀ b ∈ LobbyState.new .default :: evening, a.Untied b := by
  intro a ha b hb
  refine ⟨fun k e he v hv hrank => ?_, fun k l hl => absurd ⟨a, ha, hl⟩ marks_evening,
    fun j c hc d hd _ => ?_⟩
  · rcases offers_evening ⟨a, ha, he⟩ with ⟨rfl, rfl⟩ | ⟨rfl, rfl⟩ | ⟨rfl, rfl⟩ | ⟨rfl, rfl⟩
    all_goals
      rcases offers_evening ⟨b, hb, hv⟩ with ⟨h, rfl⟩ | ⟨h, rfl⟩ | ⟨h, rfl⟩ | ⟨h, rfl⟩
      all_goals first
        | rfl
        | exact absurd h (by decide)
        | exact absurd hrank (by decide)
  · rw [(claims_evening ⟨a, ha, hc⟩).2, (claims_evening ⟨b, hb, hd⟩).2]

theorem plain_evening : Plain (.new .default) evening where
  noOffers := rfl
  noClaims := rfl
  config q hq := by
    rcases mem_evening (List.mem_cons_of_mem _ hq) with rfl | rfl | rfl | rfl
    · rfl
    · rfl
    · rfl
    · rfl
  fewOffers := by decide +kernel
  fewClaims := by decide +kernel
  offersAge k v w hv hw hrank := by
    rcases offers_evening hv with ⟨rfl, rfl⟩ | ⟨rfl, rfl⟩ | ⟨rfl, rfl⟩ | ⟨rfl, rfl⟩
    all_goals
      rcases offers_evening hw with ⟨h, rfl⟩ | ⟨h, rfl⟩ | ⟨h, rfl⟩ | ⟨h, rfl⟩
      all_goals first
        | exact absurd h (by decide)
        | exact absurd hrank (by decide)
        | decide
  leavesAge _ _ _ hl := absurd hl marks_evening

theorem now_evening : (join (.new .default) evening).networkNowMs = 21000 := by decide +kernel

theorem latest_evening : latest (.new .default :: evening) = 21000 := by decide +kernel

/-- Nobody leaves. -/
theorem standing_evening {Q : List LobbyState} (hQ : ∀ q ∈ Q, q ∈ evening) {k : PeerId}
    {version : Nat} : (join (.new .default) Q).isLeft k version = false := by
  by_contra hleft
  rw [Bool.not_eq_false, isLeft_join_iff] at hleft
  obtain ⟨a, ha, hleft⟩ := hleft
  obtain ⟨l, hl, -⟩ := (Option.any_eq_true _ _).mp hleft
  exact marks_evening ⟨a, mem_start_mono hQ ha, hl⟩

/-- The two that meet have sure offers wherever the meeting is in. -/
theorem sure_meeting {Q : List LobbyState} (hQ : ∀ q ∈ Q, q ∈ evening) (hmeet : meeting ∈ Q) :
    SureOffer (.new .default) Q 1 (plainOffer 1 2 21000 5)
      ∧ SureOffer (.new .default) Q 2 (plainOffer 2 1 20500 6) := by
  have hsure : ∀ k w, w ∈ meeting.offers.get? k → 20500 ≤ w.heartbeatMs →
      (∀ v, HasOffer (.new .default) evening k v → w.rank ≤ v.rank → v = w) →
        SureOffer (.new .default) Q k w := by
    intro k w hw hage hbest
    obtain ⟨v, hv, hrank⟩ := exists_offer_join (List.mem_cons_of_mem (.new .default) hmeet) hw
    obtain ⟨b, hb, hvb⟩ := (drawn_join List.mem_cons_self fun q hq =>
      List.mem_cons_of_mem (.new .default) hq).offers k v hv
    rw [hbest v ⟨b, mem_start_mono hQ hb, hvb⟩ hrank] at hv
    refine plain_evening.sure_offer hQ hv (standing_evening hQ) ?_
    have hlatest : latest (.new .default :: Q) ≤ 21000 := by
      rw [← latest_evening]
      exact latest_mono fun a ha => mem_start_mono hQ ha
    show _ ≤ 15000
    omega
  constructor
  · refine hsure 1 _ (get?_meeting 1) (by decide) fun v hv hrank => ?_
    rcases offers_evening hv with ⟨-, rfl⟩ | ⟨h, -⟩ | ⟨h, -⟩ | ⟨-, rfl⟩
    · exact absurd hrank (by decide)
    · exact absurd h (by decide)
    · exact absurd h (by decide)
    · rfl
  · refine hsure 2 _ (get?_meeting 2) (by decide) fun v hv hrank => ?_
    rcases offers_evening hv with ⟨h, -⟩ | ⟨h, -⟩ | ⟨-, rfl⟩ | ⟨h, -⟩
    · exact absurd h (by decide)
    · exact absurd h (by decide)
    · rfl
    · exact absurd h (by decide)

theorem top_meeting : (join (.new .default) evening).TopOffer 1 (plainOffer 1 2 21000 5)
    ∧ (join (.new .default) evening).TopOffer 2 (plainOffer 2 1 20500 6) := by
  have hdrawn : Drawn (.new .default :: evening) (join (.new .default) evening) :=
    drawn_join List.mem_cons_self fun q hq => List.mem_cons_of_mem _ hq
  have hcfg : (join (.new .default) evening).config = .default := config_join plain_evening.config
  have htop : ∀ k w, SureOffer (.new .default) evening k w → 20500 ≤ w.heartbeatMs →
      (join (.new .default) evening).TopOffer k w := by
    intro k w hw hage
    obtain ⟨a, ha, hwa⟩ := hw.offered
    obtain ⟨v, hv, hrank⟩ := exists_offer_join ha hwa
    obtain ⟨b, hb, hvb⟩ := hdrawn.offers k v hv
    have heq : w = v := (untied_evening a ha b hb).1 k w hwa v hvb
      (le_antisymm hrank (hw.best v ⟨b, hb, hvb⟩))
    refine plain_evening.top_offer hdrawn hcfg
      ⟨heq ▸ hv, standing_evening fun _ hq => hq, ?_⟩
    rw [now_evening, hcfg]
    show _ ≤ 15000
    omega
  obtain ⟨hone, htwo⟩ := sure_meeting (fun _ hq => hq) (by simp [evening] : meeting ∈ evening)
  exact ⟨htop 1 _ hone (by decide), htop 2 _ htwo (by decide)⟩

theorem clear_evening : Clear (.new .default) evening where
  offers k o ho := by
    have hdrawn : Drawn (.new .default :: evening) (join (.new .default) evening) :=
      drawn_join List.mem_cons_self fun q hq => List.mem_cons_of_mem _ hq
    have hfresh := ho.live.fresh
    rw [now_evening, config_join plain_evening.config] at hfresh
    refine plain_evening.sure_offer (fun _ hq => hq) ho.live.stored ho.live.standing ?_
    rw [latest_evening]
    exact hfresh
  claims j c hc := by
    have hdrawn : Drawn (.new .default :: evening) (join (.new .default) evening) :=
      drawn_join List.mem_cons_self fun q hq => List.mem_cons_of_mem _ hq
    have hclaimed := hdrawn.claims j c hc.live.stored
    refine ⟨hclaimed, fun Q _ hQ hall => ?_⟩
    obtain ⟨rfl, rfl⟩ := claims_evening hclaimed
    obtain ⟨hone, htwo⟩ := sure_meeting hQ (hall meeting (by simp [evening]) rfl)
    have hcfg : (join (.new .default) Q).config = .default :=
      config_join fun q hq => plain_evening.config q (hQ q hq)
    refine ⟨?_, ⟨_, hone⟩, ⟨_, htwo⟩, ?_⟩
    · have hlatest : latest (.new .default :: Q) ≤ 21000 := by
        rw [← latest_evening]
        exact latest_mono fun a ha => mem_start_mono hQ ha
      rw [hcfg]
      show latest (.new .default :: Q) - 21000 ≤ 20000
      omega
    · rw [hcfg]
      refine lt_of_le_of_lt (le_of_eq ((Set.ncard_eq_zero ?_).mpr ?_)) (by decide : 0 < 512)
      · exact Set.Finite.subset (Set.finite_singleton 7) fun j' hj' => by
          obtain ⟨-, d, ⟨a, ha, hd⟩, -⟩ := hj'
          exact (claims_evening ⟨a, mem_start_mono hQ ha, hd⟩).1
      · refine Set.eq_empty_of_forall_notMem ?_
        rintro j' ⟨hne, d, ⟨a, ha, hd⟩, -⟩
        exact hne (claims_evening ⟨a, mem_start_mono hQ ha, hd⟩).1
  pastOffers k hno a ha v hv := by
    rcases offers_evening ⟨a, ha, hv⟩ with ⟨rfl, -⟩ | ⟨rfl, rfl⟩ | ⟨rfl, -⟩ | ⟨rfl, -⟩
    · exact absurd top_meeting.1 (hno _)
    · -- the second heartbeat stays, and the peer 3 is too old for it
      refine .inl (.inr ⟨21000, .inl (.offer top_meeting.1), ?_⟩)
      rw [config_join plain_evening.config]
      decide
    · exact absurd top_meeting.2 (hno _)
    · exact absurd top_meeting.1 (hno _)
  pastClaims j hno a ha d hd := by
    obtain ⟨rfl, rfl⟩ := claims_evening ⟨a, ha, hd⟩
    have hdrawn : Drawn (.new .default :: evening) (join (.new .default) evening) :=
      drawn_join List.mem_cons_self fun q hq => List.mem_cons_of_mem _ hq
    have hcfg : (join (.new .default) evening).config = .default :=
      config_join plain_evening.config
    have hkeyed := hdrawn.keyed keyed_evening
    obtain ⟨c, hc⟩ := exists_claim_join ha hd
    have hsame := (claims_evening (hdrawn.claims 7 c hc)).2
    rw [hsame] at hc
    refine absurd (plain_evening.top_claim hdrawn hcfg ⟨hc, ?_, ?_, ?_⟩) (hno _)
    · rw [now_evening, hcfg]
      decide
    · exact (waiting_iff hkeyed).mpr ⟨_, top_meeting.1.live⟩
    · exact (waiting_iff hkeyed).mpr ⟨_, top_meeting.2.live⟩

theorem foldl_config {α : Type} (f : LobbyState → α → LobbyState)
    (hf : ∀ s a, (f s a).config = s.config) (l : List α) (s : LobbyState) :
    (l.foldl f s).config = s.config := by
  induction l generalizing s with
  | nil => rfl
  | cons a l ih => exact (ih (f s a)).trans (hf s a)

theorem patch_config (delta : LobbyDelta) (config : LobbyConfig) :
    (delta.patch config).config = config := by
  unfold LobbyDelta.patch
  rw [foldl_config, foldl_config, foldl_config]
  · rfl
  · intro s o
    unfold upsertOffer
    split
    · split
      · rfl
      · rfl
    · rfl
  · intro s c
    unfold insertClaim
    split
    · rfl
    · rfl
  · intro s l
    unfold upsertLeave
    split
    · split
      · rfl
      · rfl
    · rfl

/-- Deltas are delivered as their patches are. -/
theorem applyDeltas_eq (s : LobbyState) (deltas : List LobbyDelta) :
    deltas.foldl applyDelta s = deliver s (deltas.map (·.patch s.config)) := by
  induction deltas generalizing s with
  | nil => rfl
  | cons d deltas ih =>
      have hcfg : (s.applyDelta d).config = s.config := by
        show ((s.merge (d.patch s.config)).cleanup).config = s.config
        rw [config_cleanup]
        show s.config.merge (d.patch s.config).config = s.config
        rw [patch_config, LobbyConfig.merge_self]
      rw [List.foldl_cons, ih, hcfg]
      rfl

-- ================================================================= an early claim

/-- The claim of the peer 1 on the peer 2. -/
def plainClaim : Claim := ⟨7, 1, 2, 9, 1500, []⟩

/-- The lobby that was sent one claim. -/
def claiming (c : Claim) : LobbyState := (LobbyState.new .default).insertClaim c

theorem get?_claiming (c : Claim) (k : Bytes32) :
    (claiming c).claims.get? k = if k = c.claimId then some c else none := by
  unfold claiming insertClaim new
  simp

end LobbyState

end Ruletka.Contract
