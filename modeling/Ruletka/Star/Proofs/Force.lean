/-
A muted user moves nobody's reputation.

What a rating mints under the muted reason is no trust, and the bars of a
muted user are neither recorded nor counted. The gifts of `handle_spend_stars`
are the hole: they mint under a reason that raises trust, muted or not.
-/
import Ruletka.Star.Force
import Ruletka.Star.Proofs.Cache
import Ruletka.Star.Proofs.Paid

namespace Ruletka

open Text Ledger

variable {sha256 : String → List UInt8} {codec : Ledger.LineCodec}

-- ========================================================================== trust

theorem trust_of_mint {t : Trust} {ev : StarEvent} (hkind : ev.kind = kindMint)
    (hr : isTrustMintReason ev.reason = false) : applyEventToTrust t ev = t := by
  unfold applyEventToTrust
  rw [hkind, hr, if_neg (by decide), if_neg fun h => h.1 rfl, if_pos (by rfl)]

theorem trust_of_spend {t : Trust} {ev : StarEvent} (h : ev.kind = kindSpend) :
    applyEventToTrust t ev = t := by
  unfold applyEventToTrust
  rw [h, if_neg (by decide), if_pos (by decide)]

/-- A mint under a reason that raises no trust. -/
theorem trust_tryMintFrom {st : Ledger.Store} {w : Ledger.Write} {«from» user : UserId}
    {amount : UInt64} {reason session : String} {stamp : Ledger.Stamp}
    (hr : isTrustMintReason reason = false) :
    (st.tryMintFrom sha256 codec w «from» user amount reason session stamp).2.ledger.trust
      = st.ledger.trust := by
  unfold Store.tryMintFrom
  split
  · rfl
  · unfold Store.tryAppend
    dsimp only
    split
    · rfl
    · rfl
    · dsimp only [Store.withBalance, StarLedger.record]
      exact trust_of_mint rfl hr

theorem TalkHub.trust_ledgerMint (s : TalkHub) (env : Env) (w : Ledger.Write)
    (stamp : Ledger.Stamp) («from» user : UserId) (n : Nat) {reason : String} (session : String)
    (hr : isTrustMintReason reason = false) :
    (s.ledgerMint sha256 codec env w stamp «from» user n reason session).2.store.ledger.trust
      = s.store.ledger.trust := by
  unfold ledgerMint
  dsimp only
  split
  · rfl
  · have htrust := @trust_tryMintFrom sha256 codec s.store w «from» user
      (UInt64.ofNat (s.mintable env user n reason)) reason session stamp hr
    split
    · next hmint =>
      rw [hmint] at htrust
      dsimp only
      split
      · exact htrust
      · rw [CountedHub.store_recordMintDay]
        exact htrust
    · next hmint =>
      rw [hmint] at htrust
      exact htrust

namespace TalkHub

variable {s : TalkHub}

theorem trust_payOne (env : AwardEnv) (user : UserId) (amount : Nat) {reason : String}
    (message : String) (hr : isTrustMintReason reason = false) :
    (s.payOne sha256 codec env user amount reason message).store.ledger.trust
      = s.store.ledger.trust :=
  s.trust_ledgerMint env.toEnv env.write env.stamp "" user amount "" hr

theorem trust_payHour (env : AwardEnv) (t : Talk) :
    (s.payHour sha256 codec env t).store.ledger.trust = s.store.ledger.trust := by
  have hr : isTrustMintReason "mint:hour_bonus" = false := by decide
  unfold payHour
  dsimp only [tell]
  rw [trust_ledgerMint _ _ _ _ _ _ _ _ hr, trust_ledgerMint _ _ _ _ _ _ _ _ hr]

/-- The rewards of a chat that ends are no trust. -/
theorem trust_armStarRating (env : ArmEnv) (id : ConnId) :
    (s.armStarRating sha256 codec env id).store.ledger.trust = s.store.ledger.trust := by
  have hhour : ∀ s : TalkHub, (s.tryAwardHourChatStars sha256 codec env.hour id).store.ledger.trust
      = s.store.ledger.trust := by
    intro s
    unfold tryAwardHourChatStars
    split
    · rfl
    · split_ifs
      · rfl
      · rfl
      · rw [trust_payHour, (claim_same _ _).2.2]
  have hsenior : ∀ s : TalkHub,
      (s.tryAwardSeniorTalkBoost sha256 codec env.senior id).store.ledger.trust
        = s.store.ledger.trust := by
    intro s
    unfold tryAwardSeniorTalkBoost
    split
    · rfl
    · split_ifs
      · rfl
      · rfl
      · split
        · rfl
        · rw [trust_payOne _ _ _ _ (by decide), (claim_same _ _).2.2]
  have hegg : ∀ s : TalkHub, (s.tryAwardOwnerTalkEgg sha256 codec env.egg id).store.ledger.trust
      = s.store.ledger.trust := by
    intro s
    unfold tryAwardOwnerTalkEgg
    split
    · rfl
    · split
      · rfl
      · split
        · rfl
        · split
          · rfl
          · rw [trust_payOne _ _ _ _ (by decide), (claim_same _ _).2.2]
  have hoffer : ∀ s : TalkHub, (s.offerRating env.offer id).store = s.store := by
    intro s
    unfold offerRating
    split
    · rfl
    · dsimp only
      split_ifs <;> rfl
  unfold armStarRating
  dsimp only
  rw [hoffer, hegg, hsenior, hhour]

end TalkHub

-- ===================================================================== the purchase

theorem SimpleHub.userOf_of_get {h : SimpleHub} {id : ConnId} {c : Client}
    (hc : h.get id = some c) : h.userOf id = c.userId := by
  unfold userOf
  rw [hc]
  rfl

namespace StarHub

variable {s : StarHub}

theorem trust_ledgerSpend (env : StarEnv) («from» «to» : UserId) (amount : Nat)
    (reason opId : String) :
    (s.ledgerSpend sha256 codec env «from» «to» amount reason opId).2.store.ledger.trust
      = s.store.ledger.trust := by
  unfold ledgerSpend
  rcases ledgerCall_cases sha256 codec s env.spendWrite
      (.spend «from» «to» (UInt64.ofNat amount) reason opId "" env.spendStamp) with
    ⟨r, store, hsame, hcall, -⟩ | ⟨ev, bal, store, -, hatt, hledger, -, hcall⟩
  · rw [hcall, ← hsame]
  · rw [hcall]
    show store.ledger.trust = _
    rw [hledger]
    exact trust_of_spend (Store.trySpend_event hatt).1

theorem purchase_store (env : StarEnv) (me target : UserId) {kind : EffectKind} (bal : Nat)
    (hk : kind.grantsWalletStar = false) :
    (s.purchase sha256 codec env me target kind bal).store = s.store := by
  obtain ⟨⟨hsame, -⟩, -⟩ := applyEffect_same (s := s) env.toEnv me target kind
  unfold purchase
  rw [hk]
  generalize s.applyEffect env.toEnv me target kind = r at hsame
  obtain ⟨s₁, «until», level, message⟩ := r
  exact hsame

/-- A purchase raises trust only by the star that goes with a gift. -/
theorem trust_handleSpendStars (env : StarEnv) (id : ConnId) (raw effectRaw opRaw : String)
    (hgift : ∀ me target kind, s.purchased sha256 codec env id raw effectRaw opRaw
      = some (me, target, kind) → kind.grantsWalletStar = false) :
    (s.handleSpendStars sha256 codec env id raw effectRaw opRaw).store.ledger.trust
      = s.store.ledger.trust := by
  revert hgift
  unfold handleSpendStars purchased
  cases EffectKind.normalize effectRaw with
  | none => exact fun _ => rfl
  | some kind =>
    cases s.hub.get id with
    | none => exact fun _ => rfl
    | some c =>
      cases s.hub.resolveTargetUserId env.toEnv raw with
      | none => exact fun _ => rfl
      | some target =>
        dsimp only
        split
        · exact fun _ => rfl
        · unfold buy
          split
          · exact fun _ => rfl
          · cases s.spendRefusal env.toEnv id c.userId target kind with
            | some why => exact fun _ => rfl
            | none =>
              have hspend := @trust_ledgerSpend sha256 codec s env c.userId target
                kind.costDuration.1 ("spend:" ++ kind.text) (opIdOf opRaw)
              generalize s.ledgerSpend sha256 codec env c.userId target kind.costDuration.1
                ("spend:" ++ kind.text) (opIdOf opRaw) = out at hspend ⊢
              obtain ⟨r, s'⟩ := out
              cases r with
              | ok bal =>
                intro hgift
                rw [purchase_store _ _ _ _ (hgift _ _ _ rfl)]
                exact hspend
              | error e => cases e <;> exact fun _ => hspend

theorem userOf_purchased {env : StarEnv} {id : ConnId} {raw effectRaw opRaw : String}
    {me target : UserId} {kind : EffectKind}
    (h : s.purchased sha256 codec env id raw effectRaw opRaw = some (me, target, kind)) :
    s.hub.userOf id = me := by
  unfold purchased at h
  split at h
  · next c target' hk hc ht =>
    dsimp only at h
    split_ifs at h
    split at h
    · cases h
      exact SimpleHub.userOf_of_get hc
    · cases h
  · cases h

end StarHub

namespace ForceHub

variable {s s' : ForceHub} {id : ConnId} {user : UserId}

-- ===================================================================== reputation

/-- Bars and mutes have not changed, nor has trust if the condition holds. -/
structure SameForce (P : Prop) (s' s : ForceHub) : Prop where
  trust : P → s'.store.ledger.trust = s.store.ledger.trust
  bars : s'.barsEdgesLast = s.barsEdgesLast
  mutes : s'.socialForceMutedUntil = s.socialForceMutedUntil

variable {P : Prop}

theorem SameForce.refl (s : ForceHub) : SameForce P s s := ⟨fun _ => rfl, rfl, rfl⟩

theorem SameForce.trans {s'' : ForceHub} (h' : SameForce P s'' s') (h : SameForce P s' s) :
    SameForce P s'' s :=
  ⟨fun hp => (h'.trust hp).trans (h.trust hp), h'.bars.trans h.bars, h'.mutes.trans h.mutes⟩

/-- The reputation of a user is the same at any time. -/
structure KeepsStanding (s s' : ForceHub) (user : UserId) : Prop where
  trust : s'.trustFor user = s.trustFor user
  gifters : s'.trustGiftersFor user = s.trustGiftersFor user
  effective : ∀ env, s'.effectiveTrustFor env user = s.effectiveTrustFor env user
  bars : ∀ env window, s'.barsReceivedUnique env user window = s.barsReceivedUnique env user window
  health : ∀ env, s'.socialHealthFor env user = s.socialHealthFor env user

theorem SameForce.muted (h : SameForce P s' s) (env : Env) (user : UserId) :
    s'.isSocialForceMuted env user = s.isSocialForceMuted env user := by
  unfold isSocialForceMuted
  rw [h.mutes]

theorem SameForce.stigma (h : SameForce P s' s) (env : Env) (user : UserId) (cutoff : Nat)
    (key : String) (ts : Nat) :
    s'.Stigma env user cutoff key ts ↔ s.Stigma env user cutoff key ts := by
  unfold Stigma
  rw [h.muted]

theorem SameForce.standing (h : SameForce P s' s) (hp : P) (user : UserId) :
    KeepsStanding s s' user := by
  have hsame := h.trust hp
  have htrust : s'.trustFor user = s.trustFor user := by
    unfold ReportHub.trustFor
    rw [hsame]
  have hgifters : s'.trustGiftersFor user = s.trustGiftersFor user := by
    unfold ReportHub.trustGiftersFor
    rw [hsame]
  have heffective : ∀ env, s'.effectiveTrustFor env user = s.effectiveTrustFor env user := by
    intro env
    unfold ReportHub.effectiveTrustFor ReportHub.decayedTrust
    rw [hsame, htrust, hgifters]
  have hbars : ∀ env window,
      s'.barsReceivedUnique env user window = s.barsReceivedUnique env user window := by
    intro env window
    unfold barsReceivedUnique
    split
    · rfl
    refine congrArg Finset.card ?_
    ext k
    simp only [Finset.mem_filter, h.bars, Option.any_eq_true, decide_eq_true_eq, h.stigma]
  refine ⟨htrust, hgifters, heffective, hbars, fun env => ?_⟩
  unfold socialHealthFor barsGivenUnique
  rw [heffective, hbars, h.bars]

-- ======================================================================== messages

/-- The star that a purchase mints raises no trust. -/
def NoGift (sha256 : String → List UInt8) (codec : Ledger.LineCodec) (s : ForceHub) (id : ConnId) :
    Message → Prop
  | .ratePartner .. => True
  | .spendStars env target effect opId => ∀ me «to» kind,
      s.star.purchased sha256 codec env id target effect opId = some (me, «to», kind) →
        kind.grantsWalletStar = false
  | .other _ deeds => ∀ d ∈ deeds, ∀ env user reason, d ≠ .bans env user reason

theorem SameForce.withStar {t : StarHub}
    (h : P → t.store.ledger.trust = s.store.ledger.trust) : SameForce P (s.withStar t) s :=
  ⟨h, rfl, rfl⟩

theorem SameForce.star (env : StarEnv) (target effect opId : String) :
    SameForce (NoGift sha256 codec s id (.spendStars env target effect opId))
      (s.withStar (s.star.handleSpendStars sha256 codec env id target effect opId)) s :=
  .withStar fun hgift => StarHub.trust_handleSpendStars env id target effect opId hgift

theorem SameForce.handleSpendStars {env : StarEnv} {target effect opId : String}
    (hmuted : s.isSocialForceMuted env.toEnv (s.hub.userOf id) = true) :
    SameForce (NoGift sha256 codec s id (.spendStars env target effect opId))
      (s.handleSpendStars sha256 codec env id target effect opId) s := by
  have hafter := @SameForce.star sha256 codec s id env target effect opId
  unfold ForceHub.handleSpendStars
  dsimp only
  split
  · next me «to» hp =>
    have hme : s.hub.userOf id = me := StarHub.userOf_purchased hp
    rw [hme, ← hafter.muted env.toEnv me] at hmuted
    have hno : ForceHub.recordBarsStigmaEdge
        (s.withStar (s.star.handleSpendStars sha256 codec env id target effect opId)) env.toEnv me
          «to» = (false, s.withStar (s.star.handleSpendStars sha256 codec env id target effect
            opId)) := by
      unfold recordBarsStigmaEdge
      dsimp only
      rw [if_pos hmuted, ite_self]
    rw [hno]
    exact hafter
  · exact hafter

theorem SameForce.rate (s : ForceHub) (id : ConnId) (env : ReportEnv) (me target : UserId)
    (star : Bool) (amount : Nat) (thanks : Bool) :
    SameForce (s.isSocialForceMuted env.toEnv me = true)
      (s.rate sha256 codec env id me target star amount thanks) s := by
  have hto : ∀ (t : ForceHub) («to» u : UserId) b a c d text f,
      SameForce (s.isSocialForceMuted env.toEnv me = true)
        (t.rateResultTo «to» u b a c d text f) t := by
    intro t «to» u b a c d text f
    unfold rateResultTo
    split
    · exact ⟨fun _ => rfl, rfl, rfl⟩
    · exact .refl t
  have hreason : isTrustMintReason "mint:rate_partner_muted" = false := by decide
  unfold ForceHub.rate
  extract_lets maxGift giftN didThanks edge s₁ s₂ reason
  have h₂ : SameForce (s.isSocialForceMuted env.toEnv me = true) s₂ s := by
    unfold s₂
    split <;> exact ⟨fun _ => rfl, rfl, rfl⟩
  have hr : s.isSocialForceMuted env.toEnv me = true → isTrustMintReason reason = false := by
    intro hmuted
    unfold reason
    rw [h₂.muted, if_pos hmuted]
    exact hreason
  clear_value reason s₂
  -- a muted giver mints under a reason that no trust comes with
  split
  next newStars s₃ hgift =>
  have h₃ : SameForce (s.isSocialForceMuted env.toEnv me = true) s₃ s := by
    split at hgift
    · cases hgift
      exact ⟨fun hm => (s₂.toTalkHub.trust_ledgerMint env.toEnv env.write env.stamp me target giftN
        "" (hr hm)).trans (h₂.trust hm), h₂.bars, h₂.mutes⟩
    · cases hgift
      exact h₂
  split
  · exact (hto _ _ _ _ _ _ _ _ _).trans ⟨h₃.trust, h₃.bars, h₃.mutes⟩
  split
  · exact (hto _ _ _ _ _ _ _ _ _).trans ⟨h₃.trust, h₃.bars, h₃.mutes⟩
  · exact ⟨h₃.trust, h₃.bars, h₃.mutes⟩

theorem SameForce.handleRatePartner (s : ForceHub) (id : ConnId) (env : ReportEnv)
    (target : String) (star : Bool) (amount : Nat) (thanks : Bool) :
    SameForce (s.isSocialForceMuted env.toEnv (s.hub.userOf id) = true)
      (s.handleRatePartner sha256 codec env id target star amount thanks) s := by
  unfold ForceHub.handleRatePartner
  dsimp only
  split
  · exact .refl s
  · next c hc =>
    have hrate : ∀ pending, SameForce (s.isSocialForceMuted env.toEnv c.userId = true)
        (ForceHub.rate sha256 codec { s with pendingRate := pending } env id c.userId (trim target)
          star amount thanks) s := by
      intro pending
      have h := @SameForce.rate sha256 codec { s with pendingRate := pending } id env c.userId
        (trim target) star amount thanks
      exact ⟨h.trust, h.bars, h.mutes⟩
    rw [SimpleHub.userOf_of_get hc]
    split
    · exact ⟨fun _ => rfl, rfl, rfl⟩
    split
    · exact ⟨fun _ => rfl, rfl, rfl⟩
    split
    · exact ⟨fun _ => rfl, rfl, rfl⟩
    split
    · exact ⟨fun _ => rfl, rfl, rfl⟩
    split
    · exact ⟨fun _ => rfl, rfl, rfl⟩
    · exact hrate _

theorem SameForce.deeds (deeds : List Deed) :
    SameForce (∀ d ∈ deeds, ∀ env user reason, d ≠ .bans env user reason)
      (deeds.foldl (deed sha256 codec) s) s := by
  induction deeds generalizing s with
  | nil => exact .refl s
  | cons d deeds ih =>
    have hd : SameForce (∀ d' ∈ d :: deeds, ∀ env user reason, d' ≠ .bans env user reason)
        (s.deed sha256 codec d) s := by
      cases d with
      | chatEnds env id => exact ⟨fun _ => TalkHub.trust_armStarRating env id, rfl, rfl⟩
      | bans env user reason =>
        exact ⟨fun hno => absurd rfl (hno _ List.mem_cons_self env user reason), rfl, rfl⟩
      | elsewhere hub => exact ⟨fun _ => rfl, rfl, rfl⟩
    have hrest := ih (s := s.deed sha256 codec d)
    refine SameForce.trans ⟨fun hno => hrest.trust fun d' hd' => ?_, hrest.bars, hrest.mutes⟩ hd
    exact hno d' (List.mem_cons_of_mem _ hd')

/-- What a muted user sends changes nothing that reputation is read from. -/
theorem SameForce.receive {m : Message}
    (hmuted : s.isSocialForceMuted m.env (s.hub.userOf id) = true) :
    SameForce (NoGift sha256 codec s id m) (s.receive sha256 codec id m) s := by
  cases m with
  | ratePartner env target star amount thanks =>
    have h := @SameForce.handleRatePartner sha256 codec s id env target star amount thanks
    exact ⟨fun _ => h.trust hmuted, h.bars, h.mutes⟩
  | spendStars env target effect opId => exact .handleSpendStars hmuted
  | other env deeds => exact .deeds deeds

-- ============================================================================ bars

/-- The ids in the bars keys do not have the character that parts them. -/
def Plain (s : ForceHub) : Prop :=
  ∀ k ∈ s.barsEdgesLast.keys, ∃ f t : UserId,
    k = StarHub.starEdgeKey f t ∧ '|' ∉ f.toList ∧ '|' ∉ t.toList

/-- The state without the bars that a user has placed. -/
def withoutBars (s : ForceHub) (f : UserId) : ForceHub :=
  { s with barsEdgesLast := s.barsEdgesLast.retain fun k _ => !hasPrefix k (f ++ "|") }

/-- A key of plain ids is read as it was written. -/
theorem barrer_of_plain {key : String} {f t f₀ u : UserId} (hk : key = StarHub.starEdgeKey f t)
    (hf : '|' ∉ f.toList) (ht : '|' ∉ t.toList) (hpre : hasPrefix key (f₀ ++ "|") = true)
    (hsuf : hasSuffix key ("|" ++ u) = true) : barrer key u = f₀ := by
  have hlist : key.toList = f.toList ++ '|' :: t.toList := by
    rw [hk, StarHub.starEdgeKey]
    simp
  obtain ⟨r, hr⟩ := List.isPrefixOf_iff_prefix.mp hpre
  obtain ⟨x, hx⟩ := List.isSuffixOf_iff_suffix.mp hsuf
  have hr' : f.toList ++ '|' :: t.toList = f₀.toList ++ '|' :: r := by
    rw [← hlist, ← hr]
    simp
  have hx' : f.toList ++ '|' :: t.toList = x ++ '|' :: u.toList := by
    rw [← hlist, ← hx]
    simp
  obtain ⟨hf₀, -, -⟩ := (List.append_cons_inj_of_notMem hf ht).mp hr'
  obtain ⟨-, -, hu⟩ := (List.append_cons_inj_of_notMem hf ht).mp hx'
  unfold barrer
  have hlen : ("|" ++ u).toList.length = u.toList.length + 1 := by simp
  rw [hlist, hlen, hu]
  have htake : (f.toList ++ '|' :: u.toList).take
      ((f.toList ++ '|' :: u.toList).length - (u.toList.length + 1)) = f.toList := by
    rw [List.length_append, List.length_cons, Nat.add_sub_cancel, List.take_left]
  rw [htake, hf₀, String.ofList_toList]

/-- The bars of a muted user do not count. -/
theorem Plain.bars_of_muted (hs : s.Plain) {env : Env} {f : UserId}
    (hmuted : s.isSocialForceMuted env f = true) (user : UserId) (window : Nat) :
    s.barsReceivedUnique env user window
      = (s.withoutBars f).barsReceivedUnique env user window := by
  unfold barsReceivedUnique
  split
  · rfl
  congr 1
  ext k
  simp only [Finset.mem_filter, withoutBars, Table.mem_keys_iff, Table.get?_retain]
  cases hk : s.barsEdgesLast.get? k with
  | none => simp
  | some ts =>
    have hmem : k ∈ s.barsEdgesLast.keys := by
      rw [Table.mem_keys_iff, hk]
      rfl
    obtain ⟨f', t, hkey, hf, ht⟩ := hs k hmem
    by_cases hpre : hasPrefix k (f ++ "|") = true
    · have hno : ¬ s.Stigma env user (env.unix - window) k ts := by
        rintro ⟨-, hsuf, -, hfree⟩
        rw [barrer_of_plain hkey hf ht hpre hsuf, hmuted] at hfree
        cases hfree
      simp [hpre, hno]
    · simp [hpre, Stigma, isSocialForceMuted]

theorem Plain.of_bars (hs : s.Plain) (h : s'.barsEdgesLast = s.barsEdgesLast) : s'.Plain := by
  unfold Plain
  rw [h]
  exact hs

theorem Plain.recordBars (hs : s.Plain) (env : Env) {f t : UserId} (hf : '|' ∉ f.toList)
    (ht : '|' ∉ t.toList) : (s.recordBarsStigmaEdge env f t).2.Plain := by
  unfold recordBarsStigmaEdge
  dsimp only
  split
  · exact hs
  split
  · exact hs
  split
  · exact hs
  · intro k hk
    have hset : k ∈ (s.barsEdgesLast.set (StarHub.starEdgeKey f t) env.unix).keys := by
      dsimp only at hk
      split at hk
      · rw [Table.mem_keys_iff, Table.get?_retain] at hk
        rw [Table.mem_keys_iff]
        revert hk
        cases (s.barsEdgesLast.set (StarHub.starEdgeKey f t) env.unix).get? k <;> simp
      · exact hk
    rw [Table.mem_keys_iff, Table.get?_set] at hset
    split at hset
    · next he => exact ⟨f, t, he, hf, ht⟩
    · exact hs k ((Table.mem_keys_iff _ k).mpr hset)

theorem bars_maybeFlag (s : ForceHub) (env : Env) (f : UserId) :
    (s.maybeFlagBarsAbuser env f).barsEdgesLast = s.barsEdgesLast := by
  unfold maybeFlagBarsAbuser
  split
  · rfl
  split
  · dsimp only
    split <;> rfl
  · rfl

/-- A purchase of bars is by and for users with plain ids. -/
def PlainBars (sha256 : String → List UInt8) (codec : Ledger.LineCodec) (s : ForceHub)
    (id : ConnId) : Message → Prop
  | .spendStars env target effect opId => ∀ me «to»,
      s.star.purchased sha256 codec env id target effect opId = some (me, «to», .bars) →
        '|' ∉ me.toList ∧ '|' ∉ «to».toList
  | _ => True

theorem Plain.receive (hs : s.Plain) {m : Message} (hm : PlainBars sha256 codec s id m) :
    (s.receive sha256 codec id m).Plain := by
  cases m with
  | ratePartner env target star amount thanks =>
    exact hs.of_bars (SameForce.handleRatePartner s id env target star amount thanks).bars
  | other env deeds => exact hs.of_bars (SameForce.deeds deeds).bars
  | spendStars env target effect opId =>
    have hafter := hs.of_bars (@SameForce.star sha256 codec s id env target effect opId).bars
    unfold ForceHub.receive ForceHub.handleSpendStars
    dsimp only
    split
    · next me «to» hp =>
      obtain ⟨hme, hto⟩ := hm me «to» hp
      have hrec := hafter.recordBars env.toEnv hme hto
      generalize ForceHub.recordBarsStigmaEdge _ env.toEnv me «to» = out at hrec ⊢
      obtain ⟨counted, after⟩ := out
      dsimp only
      split
      · exact hrec.of_bars (bars_maybeFlag _ _ _)
      · exact hrec
    · exact hafter

-- ============================================================================ runs

def forceMachine (sha256 : String → List UInt8) (codec : Ledger.LineCodec) :
    Machine ForceHub ForceEvent where
  start s := s.Plain
  step s e s' := s' = s.step sha256 codec e

/-- A message of a muted user has changed somebody's reputation. -/
def Moved (b : Prop) (s : ForceHub) (e : ForceEvent) (s' : ForceHub) : Prop :=
  b ∨ ∃ id m user, e = .message id m ∧ s.isSocialForceMuted m.env (s.hub.userOf id) = true
    ∧ user ≠ s.hub.userOf id ∧ ¬ KeepsStanding s s' user

/-- A muted user buys no gift and has nobody banned, and bars are between users with
plain ids. -/
def Harmless (sha256 : String → List UInt8) (codec : Ledger.LineCodec) (s : ForceHub) :
    ForceEvent → Prop
  | .message id m => (s.isSocialForceMuted m.env (s.hub.userOf id) = true →
      NoGift sha256 codec s id m) ∧ PlainBars sha256 codec s id m
  | _ => True

theorem Plain.step (hs : s.Plain) {e : ForceEvent} (he : Harmless sha256 codec s e) :
    (s.step sha256 codec e).Plain := by
  cases e with
  | message id m => exact hs.receive he.2
  | tick deeds => exact hs.of_bars (SameForce.deeds deeds).bars
  | setMute env raw secs =>
    refine hs.of_bars ?_
    unfold ForceHub.step adminSetSocialMute
    dsimp only
    split <;> rfl
  | clearMute raw => exact hs
  | ledger w c => exact hs

/-- In every run in which muted users buy no gifts and have nobody banned, no message
of a muted user changes the reputation of another, and the bars of a muted user do not
count. -/
theorem muted_users_move_nothing (sha256 : String → List UInt8) (codec : Ledger.LineCodec)
    {p : ForceHub × Prop} (h : (((forceMachine sha256 codec).watch False Moved).guard
      fun p e => Harmless sha256 codec p.1 e).Reach p) :
    ¬ p.2 ∧ ∀ env f user window, p.1.isSocialForceMuted env f = true →
      p.1.barsReceivedUnique env user window
        = (p.1.withoutBars f).barsReceivedUnique env user window := by
  have hinv : p.1.Plain ∧ ¬ p.2 := by
    refine h.invariant (I := fun p => p.1.Plain ∧ ¬ p.2) ?_ ?_
    · rintro ⟨s, b⟩ ⟨hs, hb⟩
      exact ⟨hs, fun hp => (hb ▸ hp : False)⟩
    · rintro ⟨s, b⟩ e ⟨s', b'⟩ - ⟨hs, hb⟩ ⟨hw, hstep, hmoved⟩
      have hstep : s' = s.step sha256 codec e := hstep
      have hmoved : b' = Moved b s e s' := hmoved
      subst hstep hmoved
      refine ⟨hs.step hw, ?_⟩
      rintro (hold | ⟨id, m, user, rfl, hmuted, -, hno⟩)
      · exact hb hold
      · exact hno ((SameForce.receive hmuted).standing (hw.1 hmuted) user)
  exact ⟨hinv.2, fun env f user window hmuted => hinv.1.bars_of_muted hmuted user window⟩

-- ==================================================================== in a call

/-- A bridge that has just been started. -/
def freshForce : ForceHub :=
  { TalkHub.talkHub (.empty plainSys) with
    starEffects := ∅, noSkipUntil := ∅, pleaseStayLast := ∅, effectOut := []
    barsEdgesLast := ∅, socialForceMutedUntil := ∅, vouchEdges := ∅ }

theorem plain_freshForce : freshForce.Plain := fun _ hk => nomatch hk

def stepPlain : ForceHub → ForceEvent → ForceHub := step (fun _ => []) compactCodec

/-- The first user is in a call and has ten stars. -/
def richInCall (h : SimpleHub) : List ForceEvent :=
  [.message 1 (.other (plainEnv 1) [.elsewhere h]),
    .ledger .ok (.mintFrom "" "u1" 10 "admin:test" "" ⟨"m", 0⟩)]

def mutedFirst : ForceEvent := .setMute (plainEnv 2000) "u1" 3600

/-- The first user buys something for the second. -/
def buys (effect : String) : Message := .spendStars (StarHub.plainStarEnv 2000) "u2" effect "op"

/-- The events one after the other. -/
def played (es : List ForceEvent) : ForceHub := es.foldl stepPlain freshForce

theorem played_snoc (es : List ForceEvent) (e : ForceEvent) :
    played (es ++ [e]) = stepPlain (played es) e := by
  unfold played
  rw [List.foldl_append, List.foldl_cons, List.foldl_nil]

theorem reach_played (es : List ForceEvent) :
    (forceMachine (fun _ => []) compactCodec).Reach (played es) := by
  induction es using List.reverseRecOn with
  | nil => exact .start plain_freshForce
  | append_singleton es e ih => exact ih.step (l := e) (played_snoc es e)

/-- The run, watched, as long as it is harmless. -/
def ReachHarmless (es : List ForceEvent) : Prop :=
  ∃ b, (((forceMachine (fun _ => []) compactCodec).watch False Moved).guard
    fun p e => Harmless (fun _ => []) compactCodec p.1 e).Reach (played es, b)

theorem ReachHarmless.snoc {es : List ForceEvent} {e : ForceEvent} (h : ReachHarmless es)
    (he : Harmless (fun _ => []) compactCodec (played es) e) : ReachHarmless (es ++ [e]) := by
  obtain ⟨b, hreach⟩ := h
  exact ⟨Moved b (played es) e (played (es ++ [e])),
    hreach.step (l := e) ⟨he, played_snoc es e, rfl⟩⟩

theorem reachHarmless_richInCall (h : SimpleHub) : ReachHarmless (richInCall h) := by
  have hstart : ReachHarmless [] := ⟨_, .start ⟨plain_freshForce, rfl⟩⟩
  have hcall : ReachHarmless [.message 1 (.other (plainEnv 1) [.elsewhere h])] := by
    refine hstart.snoc ⟨fun _ d hd env user reason => ?_, trivial⟩
    rw [List.mem_singleton.mp hd]
    exact nofun
  exact hcall.snoc trivial

/-- The first user bars the second, is muted and sends a rating: what it placed is
there and does not count. -/
theorem muted_users_move_nothing_bars : ∃ p,
    (((forceMachine (fun _ => []) compactCodec).watch False Moved).guard
      fun p e => Harmless (fun _ => []) compactCodec p.1 e).Reach p
    ∧ StarHub.starEdgeKey "u1" "u2" ∈ p.1.barsEdgesLast.keys ∧ ¬ p.2
    ∧ p.1.barsReceivedUnique (plainEnv 2000) "u2" barsWindowSecs
      = (p.1.withoutBars "u1").barsReceivedUnique (plainEnv 2000) "u2" barsWindowSecs := by
  let rates : ForceEvent :=
    .message 1 (.ratePartner (ReportHub.plainReportEnv 2000) "u2" true 1 false)
  obtain ⟨w, hw, hp⟩ := @reach_of_replay plainSys 2 StarHub.twoAndOne (fun w =>
    let rich := played (richInCall w.hub)
    let last := played (richInCall w.hub ++ [.message 1 (buys "bars")] ++ [mutedFirst] ++ [rates])
    decide (rich.isSocialForceMuted (plainEnv 2000) (rich.hub.userOf 1) = false
        ∧ rich.star.purchased (fun _ => []) compactCodec (StarHub.plainStarEnv 2000) 1 "u2" "bars"
          "op" = some ("u1", "u2", .bars)
        ∧ StarHub.starEdgeKey "u1" "u2" ∈ last.barsEdgesLast.keys
        ∧ last.isSocialForceMuted (plainEnv 2000) "u1" = true)) (by decide)
  obtain ⟨hfree, hbought, hplaced, hmuted⟩ := of_decide_eq_true hp
  have hbars : ReachHarmless (richInCall w.hub ++ [.message 1 (buys "bars")]) := by
    refine (reachHarmless_richInCall w.hub).snoc ⟨fun h => ?_, fun me «to» h => ?_⟩
    · exact absurd (hfree.symm.trans h) nofun
    · cases hbought.symm.trans h
      exact ⟨by decide, by decide⟩
  obtain ⟨b, hreach⟩ := (hbars.snoc (e := mutedFirst) trivial).snoc (e := rates)
    ⟨fun _ => trivial, trivial⟩
  obtain ⟨hnone, hcount⟩ := muted_users_move_nothing (fun _ => []) compactCodec hreach
  exact ⟨_, hreach, hplaced, hnone, hcount (plainEnv 2000) "u1" "u2" barsWindowSecs hmuted⟩

/-- A muted user gives flowers and raises the trust of the other. -/
theorem muted_gift_raises_trust : ∃ p,
    ((forceMachine (fun _ => []) compactCodec).watch False Moved).Reach p ∧ p.2 := by
  obtain ⟨w, hw, hp⟩ := @reach_of_replay plainSys 2 StarHub.twoAndOne (fun w =>
    let s := played (richInCall w.hub ++ [mutedFirst])
    decide (s.isSocialForceMuted (plainEnv 2000) (s.hub.userOf 1) = true
      ∧ s.hub.userOf 1 = "u1"
      ∧ (stepPlain s (.message 1 (buys "flowers"))).trustFor "u2" ≠ s.trustFor "u2")) (by decide)
  obtain ⟨hmuted, hme, hraised⟩ := of_decide_eq_true hp
  have hwatched : ∃ b, ((forceMachine (fun _ => []) compactCodec).watch False Moved).Reach
      (played (richInCall w.hub ++ [mutedFirst]), b) := (reach_played _).exists_watch
  obtain ⟨b, hreach⟩ := hwatched
  generalize played (richInCall w.hub ++ [mutedFirst]) = s at hmuted hme hraised hreach
  let flowers : ForceEvent := .message 1 (buys "flowers")
  refine ⟨(stepPlain s flowers, Moved b s flowers (stepPlain s flowers)),
    hreach.step (l := flowers) ⟨rfl, rfl⟩, .inr ⟨1, buys "flowers", "u2", rfl, hmuted, ?_, ?_⟩⟩
  · rw [hme]
    decide
  · exact fun h => hraised h.trust

end ForceHub

end Ruletka
