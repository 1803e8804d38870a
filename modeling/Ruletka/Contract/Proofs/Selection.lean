/-
What the selections of a lobby amount to.

Every peer picks the best of those it may claim, by the score of the pair and
then by the id; nothing else of the list matters, and so not its order. Score
and compatibility look at a pair from both sides alike. So the best pair of
all is picked from both of its ends, and no peer is picked back by two.
-/
import Ruletka.Contract.Agent
import Mathlib.Data.Finset.Lattice.Fold
import Mathlib.Data.Finset.Max
import Mathlib.Data.Finset.Prod

namespace Ruletka.Contract

-- ================================================================ both sides alike

theorem eqIgnoreAsciiCase_comm (a b : String) :
    eqIgnoreAsciiCase a b = eqIgnoreAsciiCase b a := by
  unfold eqIgnoreAsciiCase
  exact decide_eq_decide.mpr eq_comm

/-- Compatibility is mutual. -/
theorem Preferences.compatibleWith_comm (a b : Preferences) :
    a.compatibleWith b = b.compatibleWith a := by
  have hmedia : (a.wantsText && b.wantsText || a.wantsVideo && b.wantsVideo)
      = (b.wantsText && a.wantsText || b.wantsVideo && a.wantsVideo) := by
    rw [Bool.and_comm a.wantsText, Bool.and_comm a.wantsVideo]
  have htags : (a.tags.any fun t => b.tags.any fun u => eqIgnoreAsciiCase t u)
      = b.tags.any fun t => a.tags.any fun u => eqIgnoreAsciiCase t u := by
    rw [Bool.eq_iff_iff]
    simp only [List.any_eq_true]
    constructor
    · rintro ⟨t, ht, u, hu, h⟩
      exact ⟨u, hu, t, ht, (eqIgnoreAsciiCase_comm u t).trans h⟩
    · rintro ⟨t, ht, u, hu, h⟩
      exact ⟨u, hu, t, ht, (eqIgnoreAsciiCase_comm u t).trans h⟩
  unfold Preferences.compatibleWith
  refine congrArg₂ (· && ·) (congrArg₂ (· && ·) hmedia ?_) ?_
  · cases a.lang with
    | none => cases b.lang <;> rfl
    | some l =>
        cases b.lang with
        | none => rfl
        | some l' => exact eqIgnoreAsciiCase_comm l l'
  · rw [htags, Bool.or_comm (decide (a.tags = []))]

namespace Ed25519

variable (ed : Ed25519) (epoch : Nat) (alreadyMatched : List PeerId)

theorem pairScore_comm (p q : PeerId) : ed.pairScore p q epoch = ed.pairScore q p epoch := by
  unfold pairScore
  rcases lt_trichotomy p q with h | h | h
  · rw [if_pos h.le, if_neg (not_le.mpr h)]
  · rw [h]
  · rw [if_neg (not_le.mpr h), if_pos h.le]

-- ================================================================= one selection

/-- The offer may be picked by the owner of `o`. -/
structure Eligible (o other : WaitingOffer) : Prop where
  notSelf : other.peerId ≠ o.peerId
  free : other.peerId ∉ alreadyMatched
  compatible : o.prefs.compatibleWith other.prefs = true

/-- Pairs are ranked by score, then by id. -/
def rankOf (x : PeerId × Bytes32) : Lex (Bytes32 × PeerId) := toLex (x.2, x.1)

/-- How the owner of an offer ranks another one. -/
def rank (o other : WaitingOffer) : Lex (Bytes32 × PeerId) :=
  toLex (ed.pairScore o.peerId other.peerId epoch, other.peerId)

variable {ed epoch alreadyMatched}
variable {o a b c : WaitingOffer} {live : List WaitingOffer}

theorem better_of_not_eligible {other : WaitingOffer} (best : Option (PeerId × Bytes32))
    (h : ¬ Eligible alreadyMatched o other) :
    ed.better o.peerId o epoch alreadyMatched best other = best := by
  unfold better
  by_cases hme : other.peerId = o.peerId
  · rw [if_pos hme]
  rw [if_neg hme]
  by_cases hfree : other.peerId ∈ alreadyMatched
  · rw [if_pos hfree]
  rw [if_neg hfree]
  by_cases hc : o.prefs.compatibleWith other.prefs = true
  · exact absurd ⟨hme, hfree, hc⟩ h
  · rw [if_pos (by rw [Bool.eq_false_of_not_eq_true hc]; rfl)]

/-- After a turn the best is the offer or what was best, and no worse than
either. -/
theorem better_of_eligible {other : WaitingOffer} (best : Option (PeerId × Bytes32))
    (h : Eligible alreadyMatched o other) :
    ∃ x, ed.better o.peerId o epoch alreadyMatched best other = some x
      ∧ rankOf x ≤ ed.rank epoch o other ∧ (∀ y ∈ best, rankOf x ≤ rankOf y)
      ∧ (rankOf x = ed.rank epoch o other ∨ x ∈ best) := by
  unfold better
  rw [if_neg h.notSelf, if_neg h.free, if_neg (by rw [h.compatible]; exact Bool.false_ne_true)]
  cases best with
  | none => exact ⟨_, rfl, le_rfl, nofun, .inl rfl⟩
  | some y =>
      obtain ⟨bestId, bestScore⟩ := y
      dsimp only
      have hlt : ed.rank epoch o other < rankOf (bestId, bestScore) ↔
          ed.pairScore o.peerId other.peerId epoch < bestScore
            ∨ ed.pairScore o.peerId other.peerId epoch = bestScore ∧ other.peerId < bestId :=
        Prod.Lex.lt_iff ..
      by_cases hscore : ed.pairScore o.peerId other.peerId epoch < bestScore
      · rw [if_pos hscore]
        refine ⟨_, rfl, le_rfl, fun y hy => ?_, .inl rfl⟩
        cases hy
        exact (hlt.mpr (.inl hscore)).le
      rw [if_neg hscore]
      by_cases htie : ed.pairScore o.peerId other.peerId epoch = bestScore
          ∧ other.peerId < bestId
      · rw [if_pos htie]
        refine ⟨_, rfl, le_rfl, fun y hy => ?_, .inl rfl⟩
        cases hy
        exact (hlt.mpr (.inr htie)).le
      · rw [if_neg htie]
        refine ⟨_, rfl, not_lt.mp fun h => ?_, fun y hy => ?_, .inr rfl⟩
        · exact (hlt.mp h).elim hscore htie
        · cases hy
          exact le_rfl

/-- The loop ends with the best of all eligible offers and of what it started
with. -/
theorem foldl_better (o : WaitingOffer) (live : List WaitingOffer)
    (best : Option (PeerId × Bytes32)) :
    (∀ other ∈ live, Eligible alreadyMatched o other →
      ∃ x ∈ live.foldl (ed.better o.peerId o epoch alreadyMatched) best,
        rankOf x ≤ ed.rank epoch o other)
    ∧ (∀ y ∈ best, ∃ x ∈ live.foldl (ed.better o.peerId o epoch alreadyMatched) best,
        rankOf x ≤ rankOf y)
    ∧ ∀ x ∈ live.foldl (ed.better o.peerId o epoch alreadyMatched) best,
        x ∈ best ∨ ∃ other ∈ live, Eligible alreadyMatched o other
          ∧ rankOf x = ed.rank epoch o other := by
  induction live generalizing best with
  | nil =>
      refine ⟨nofun, fun y hy => ⟨y, hy, le_rfl⟩, fun x hx => .inl hx⟩
  | cons other live ih =>
      obtain ⟨hall, hbest, hfrom⟩ :=
        ih (ed.better o.peerId o epoch alreadyMatched best other)
      rw [List.foldl_cons]
      by_cases he : Eligible alreadyMatched o other
      · obtain ⟨x, hx, hother, hy, hsrc⟩ := @better_of_eligible ed epoch _ _ _ best he
        rw [hx] at hall hbest hfrom ⊢
        obtain ⟨z, hz, hzx⟩ := hbest x rfl
        refine ⟨fun other' hmem he' => ?_, fun y hyb => ⟨z, hz, hzx.trans (hy y hyb)⟩,
          fun w hw => ?_⟩
        · rcases List.mem_cons.mp hmem with rfl | hmem
          · exact ⟨z, hz, hzx.trans hother⟩
          · exact hall other' hmem he'
        · rcases hfrom w hw with hw | ⟨other', hmem, he', heq⟩
          · cases hw
            rcases hsrc with heq | hsrc
            · exact .inr ⟨other, List.mem_cons_self, he, heq⟩
            · exact .inl hsrc
          · exact .inr ⟨other', List.mem_cons_of_mem _ hmem, he', heq⟩
      · rw [better_of_not_eligible best he] at hall hbest hfrom ⊢
        refine ⟨fun other' hmem he' => ?_, hbest, fun w hw => ?_⟩
        · rcases List.mem_cons.mp hmem with rfl | hmem
          · exact absurd he' he
          · exact hall other' hmem he'
        · rcases hfrom w hw with hw | ⟨other', hmem, h⟩
          · exact .inl hw
          · exact .inr ⟨other', List.mem_cons_of_mem _ hmem, h⟩

/-- The pick is the eligible offer of the lowest rank. -/
theorem selectPartner_eq_some_iff {p : PeerId} :
    ed.selectPartner o.peerId o live epoch alreadyMatched = some p ↔
      ∃ other ∈ live, Eligible alreadyMatched o other ∧ other.peerId = p
        ∧ ∀ other' ∈ live, Eligible alreadyMatched o other' →
          ed.rank epoch o other ≤ ed.rank epoch o other' := by
  obtain ⟨hall, -, hfrom⟩ := @foldl_better ed epoch alreadyMatched o live none
  unfold selectPartner
  constructor
  · intro h
    obtain ⟨x, hx, rfl⟩ := Option.map_eq_some_iff.mp h
    obtain hx' | ⟨other, hmem, he, hrank⟩ := hfrom x hx
    · cases hx'
    refine ⟨other, hmem, he, congrArg (fun r => (ofLex r).2) hrank.symm, fun other' hmem' he' => ?_⟩
    obtain ⟨y, hy, hle⟩ := hall other' hmem' he'
    rw [hx] at hy
    cases hy
    rw [← hrank]
    exact hle
  · intro ⟨other, hmem, he, hp, hmin⟩
    obtain ⟨x, hx, hle⟩ := hall other hmem he
    obtain hx' | ⟨other', hmem', he', hrank⟩ := hfrom x hx
    · cases hx'
    have heq : rankOf x = ed.rank epoch o other :=
      le_antisymm hle (hrank ▸ hmin other' hmem' he')
    rw [hx]
    show some x.1 = some p
    rw [← hp]
    exact congrArg (fun r => some (ofLex r).2) heq

/-- The order of the list does not matter to the pick. -/
theorem selectPartner_perm {live' : List WaitingOffer} (h : live.Perm live') :
    ed.selectPartner o.peerId o live epoch alreadyMatched
      = ed.selectPartner o.peerId o live' epoch alreadyMatched := by
  apply Option.ext
  intro p
  rw [selectPartner_eq_some_iff, selectPartner_eq_some_iff]
  simp only [h.mem_iff]

-- ============================================================== mutual selection

theorem wouldSelectEachOther_iff : ed.wouldSelectEachOther a b live epoch alreadyMatched = true ↔
    ed.selectPartner a.peerId a live epoch alreadyMatched = some b.peerId
      ∧ ed.selectPartner b.peerId b live epoch alreadyMatched = some a.peerId := by
  unfold wouldSelectEachOther
  rw [Bool.and_eq_true, decide_eq_true_eq, decide_eq_true_eq]

theorem wouldSelectEachOther_comm (a b : WaitingOffer) :
    ed.wouldSelectEachOther a b live epoch alreadyMatched
      = ed.wouldSelectEachOther b a live epoch alreadyMatched := Bool.and_comm ..

/-- Two offers that may be matched with each other. -/
structure Matchable (alreadyMatched : List PeerId) (a b : WaitingOffer) : Prop where
  ne : a.peerId ≠ b.peerId
  left : a.peerId ∉ alreadyMatched
  right : b.peerId ∉ alreadyMatched
  compatible : a.prefs.compatibleWith b.prefs = true

theorem Matchable.symm (h : Matchable alreadyMatched a b) : Matchable alreadyMatched b a :=
  ⟨h.ne.symm, h.right, h.left, (Preferences.compatibleWith_comm _ _).trans h.compatible⟩

theorem Matchable.eligible (h : Matchable alreadyMatched a b) : Eligible alreadyMatched a b :=
  ⟨h.ne.symm, h.right, h.compatible⟩

/-- Those who select each other may be matched. -/
theorem matchable_of_would (hids : (live.map (·.peerId)).Nodup) (hb : b ∈ live)
    (h : ed.wouldSelectEachOther a b live epoch alreadyMatched = true) :
    Matchable alreadyMatched a b := by
  obtain ⟨hab, hba⟩ := wouldSelectEachOther_iff.mp h
  obtain ⟨b', hb', he, hid, -⟩ := selectPartner_eq_some_iff.mp hab
  obtain ⟨a', -, he', hid', -⟩ := selectPartner_eq_some_iff.mp hba
  have hbb : b' = b := List.inj_on_of_nodup_map hids hb' hb hid
  subst hbb
  exact ⟨he.notSelf.symm, hid' ▸ he'.free, he.free, he.compatible⟩

/-- No two pairs of live offers have one score. -/
def ScoresApart (ed : Ed25519) (live : List WaitingOffer) (epoch : Nat) : Prop :=
  ∀ a ∈ live, ∀ b ∈ live, ∀ c ∈ live, ∀ d ∈ live, a.peerId ≠ b.peerId → c.peerId ≠ d.peerId →
    ed.pairScore a.peerId b.peerId epoch = ed.pairScore c.peerId d.peerId epoch →
    a.peerId = c.peerId ∧ b.peerId = d.peerId ∨ a.peerId = d.peerId ∧ b.peerId = c.peerId

/-- An end of the pair with the lowest score picks the other one. -/
theorem selectPartner_of_least (hscores : ScoresApart ed live epoch) (ha : a ∈ live)
    (hb : b ∈ live) (h : Matchable alreadyMatched a b)
    (hleast : ∀ c ∈ live, Matchable alreadyMatched a c →
      ed.pairScore a.peerId b.peerId epoch ≤ ed.pairScore a.peerId c.peerId epoch) :
    ed.selectPartner a.peerId a live epoch alreadyMatched = some b.peerId := by
  refine selectPartner_eq_some_iff.mpr ⟨b, hb, h.eligible, rfl, fun c hc he => ?_⟩
  have hle := hleast c hc ⟨he.notSelf.symm, h.left, he.free, he.compatible⟩
  rcases hle.lt_or_eq with hlt | heq
  · exact Prod.Lex.le_iff.mpr (.inl hlt)
  · -- one score, so one pair
    refine Prod.Lex.le_iff.mpr (.inr ⟨heq, le_of_eq ?_⟩)
    rcases hscores a ha b hb a ha c hc h.ne he.notSelf.symm heq with ⟨-, hbc⟩ | ⟨hac, -⟩
    · exact hbc
    · exact absurd hac.symm he.notSelf

/-- The matchable pair with the lowest score selects each other. -/
theorem exists_would (hscores : ScoresApart ed live epoch)
    (h : ∃ a ∈ live, ∃ b ∈ live, Matchable alreadyMatched a b) :
    ∃ a ∈ live, ∃ b ∈ live, Matchable alreadyMatched a b
      ∧ ed.wouldSelectEachOther a b live epoch alreadyMatched = true := by
  classical
  let pairs := (live.toFinset ×ˢ live.toFinset).filter fun x => Matchable alreadyMatched x.1 x.2
  have hmem : ∀ a b, (a, b) ∈ pairs ↔ a ∈ live ∧ b ∈ live ∧ Matchable alreadyMatched a b := by
    intro a b
    simp only [pairs, Finset.mem_filter, Finset.mem_product, List.mem_toFinset, and_assoc]
  obtain ⟨a, ha, b, hb, hab⟩ := h
  obtain ⟨⟨a, b⟩, hpair, hleast⟩ := Finset.exists_min_image pairs
    (fun x => ed.pairScore x.1.peerId x.2.peerId epoch) ⟨_, (hmem a b).mpr ⟨ha, hb, hab⟩⟩
  obtain ⟨ha, hb, hab⟩ := (hmem a b).mp hpair
  refine ⟨a, ha, b, hb, hab, wouldSelectEachOther_iff.mpr ⟨?_, ?_⟩⟩
  · exact selectPartner_of_least hscores ha hb hab fun c hc hac =>
      hleast (a, c) ((hmem a c).mpr ⟨ha, hc, hac⟩)
  · refine selectPartner_of_least hscores hb ha hab.symm fun c hc hbc => ?_
    rw [pairScore_comm]
    exact hleast (b, c) ((hmem b c).mpr ⟨hb, hc, hbc⟩)

/-- **Mutual selection**: where two live offers may be matched, two select
each other; those who do may be matched, none is in two such pairs, and the
order in which the offers are listed does not matter. -/
theorem mutual_selection (hids : (live.map (·.peerId)).Nodup)
    (hscores : ScoresApart ed live epoch) :
    ((∃ a ∈ live, ∃ b ∈ live, Matchable alreadyMatched a b) →
      ∃ a ∈ live, ∃ b ∈ live, a ≠ b
        ∧ ed.wouldSelectEachOther a b live epoch alreadyMatched = true)
    ∧ (∀ a ∈ live, ∀ b ∈ live, ed.wouldSelectEachOther a b live epoch alreadyMatched = true →
        Matchable alreadyMatched a b
          ∧ ed.wouldSelectEachOther b a live epoch alreadyMatched = true
          ∧ ∀ c ∈ live, ed.wouldSelectEachOther a c live epoch alreadyMatched = true → c = b)
    ∧ ∀ live', live.Perm live' → ∀ a b, ed.wouldSelectEachOther a b live' epoch alreadyMatched
        = ed.wouldSelectEachOther a b live epoch alreadyMatched := by
  refine ⟨fun h => ?_, fun a _ b hb h => ⟨matchable_of_would hids hb h, ?_, fun c hc hac => ?_⟩,
    fun live' hperm a b => ?_⟩
  · obtain ⟨a, ha, b, hb, hab, hwould⟩ := exists_would hscores h
    exact ⟨a, ha, b, hb, fun heq => hab.ne (congrArg _ heq), hwould⟩
  · rw [wouldSelectEachOther_comm]
    exact h
  · have hb' := (wouldSelectEachOther_iff.mp h).1
    rw [(wouldSelectEachOther_iff.mp hac).1] at hb'
    exact List.inj_on_of_nodup_map hids hc hb (Option.some.inj hb')
  · unfold wouldSelectEachOther
    rw [selectPartner_perm hperm, selectPartner_perm hperm]

/-- A hash that reads the low ends of two ids. -/
def lowEnds : Ed25519 where
  sha256 b := ⟨((b.getD 39 0).toNat + (b.getD 71 0).toNat * 256) % 2 ^ 256,
    Nat.mod_lt _ (Nat.two_pow_pos 256)⟩
  isKey _ := true
  verify _ _ _ := true

/-- Three peers, two of whom speak one language. -/
def threeOffers : List WaitingOffer :=
  [⟨1, [], 1, 0, ⟨some "en", [], true, false⟩, 0, []⟩,
    ⟨2, [], 1, 0, ⟨some "ru", [], true, false⟩, 0, []⟩,
    ⟨3, [], 1, 0, ⟨some "EN", ["chess"], true, true⟩, 0, []⟩]

/-- The two who speak one language select each other. -/
theorem mutual_selection_three : ∃ a ∈ threeOffers, ∃ b ∈ threeOffers, a ≠ b
    ∧ lowEnds.wouldSelectEachOther a b threeOffers 7 [] = true := by
  have hscores : ScoresApart lowEnds threeOffers 7 := by
    unfold ScoresApart
    decide +kernel
  -- texts are compared as lists, which evaluate quickly
  have hlang : eqIgnoreAsciiCase "en" "EN" = true := by
    apply decide_eq_true
    rw [← String.toList_inj, String.toList_map, String.toList_map]
    rfl
  refine (mutual_selection (by decide) hscores).1
    ⟨_, List.mem_cons_self, _, List.mem_cons_of_mem _ (List.mem_cons_of_mem _ List.mem_cons_self),
      by decide, by decide, by decide, ?_⟩
  unfold Preferences.compatibleWith
  dsimp only
  rw [hlang]
  rfl

end Ed25519

end Ruletka.Contract
