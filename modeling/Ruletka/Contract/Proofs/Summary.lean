/-
What a sync by summaries loses.

A sender whose summary is the receiver's sends nothing but its limits. The
summary tells versions and heartbeats, and a merge asks for more where these
are equal: the later of two leave marks stays, and of two offers that of the
higher peer.
-/
import Ruletka.Contract.State
import Ruletka.Contract.Proofs.Merge

namespace Ruletka.Contract

open Register

-- ======================================================================= listings

section Entries

variable {V W : Type} {f : V → W} {t u : Table Bytes32 V}

theorem mem_entriesOf {k : Bytes32} {w : W} :
    (k, w) ∈ entriesOf f t ↔ (t.get? k).map f = some w := by
  unfold entriesOf
  simp only [List.mem_filterMap, Option.map_eq_some_iff, Finset.mem_sort]
  constructor
  · intro ⟨k', _, v, hv, heq⟩
    obtain ⟨rfl, rfl⟩ := Prod.mk.inj heq
    exact ⟨v, hv, rfl⟩
  · intro ⟨v, hv, hw⟩
    exact ⟨k, (Table.mem_keys_iff t k).mpr (by rw [hv]; rfl), v, hv, by rw [hw]⟩

/-- Two maps are listed alike when they hold alike under every key. -/
theorem entriesOf_eq_iff :
    entriesOf f t = entriesOf f u ↔ ∀ k, (t.get? k).map f = (u.get? k).map f := by
  constructor
  · intro h k
    apply Option.ext
    intro w
    rw [← mem_entriesOf, ← mem_entriesOf, h]
  · intro h
    have hkeys : t.keys = u.keys := by
      ext k
      rw [Table.mem_keys_iff, Table.mem_keys_iff, ← Option.isSome_map (f := f), h,
        Option.isSome_map]
    unfold entriesOf
    rw [hkeys]
    apply List.filterMap_congr
    intro k _
    have hk := congrArg (Option.map (Prod.mk k)) (h k)
    rw [Option.map_map, Option.map_map] at hk
    exact hk

/-- Maps with equal listings hold something under the same keys. -/
theorem isSome_of_map_eq {k : Bytes32} (h : (t.get? k).map f = (u.get? k).map f) :
    (t.get? k).isSome = (u.get? k).isSome := by
  rw [← Option.isSome_map (f := f), h, Option.isSome_map]

end Entries

namespace LobbyState

variable {r s : LobbyState}

-- ====================================================================== summaries

/-- The two replicas hold records under the same ids, with equal versions and
heartbeats. -/
structure SameSummary (r s : LobbyState) : Prop where
  offers : ∀ k, (s.offers.get? k).map (fun o => (o.version, o.heartbeatMs))
    = (r.offers.get? k).map fun o => (o.version, o.heartbeatMs)
  claims : s.claims.keys = r.claims.keys
  leaves : ∀ k, (s.leaves.get? k).map (·.version) = (r.leaves.get? k).map (·.version)

theorem summarize_eq_iff : s.summarize = r.summarize ↔ SameSummary r s := by
  unfold summarize
  rw [LobbySummary.mk.injEq, entriesOf_eq_iff, entriesOf_eq_iff]
  constructor
  · intro ⟨ho, hc, hl⟩
    refine ⟨ho, ?_, hl⟩
    ext k
    rw [← Finset.mem_sort (· ≤ ·), hc, Finset.mem_sort]
  · exact fun ⟨ho, hc, hl⟩ => ⟨ho, by rw [hc], hl⟩

/-- The sender has no other leave mark as late as the receiver's, and no other
offer of a higher peer under an id of the receiver. -/
structure NothingLater (r s : LobbyState) : Prop where
  leaves : ∀ k, ∀ m ∈ r.leaves.get? k, ∀ m' ∈ s.leaves.get? k, m' = m ∨ m'.leftMs < m.leftMs
  offers : ∀ k, ∀ o ∈ r.offers.get? k, ∀ o' ∈ s.offers.get? k, o' = o ∨ o'.peerId ≤ o.peerId

/-- The sender's limits are none of the receiver's. -/
structure NothingStricter (r s : LobbyConfig) : Prop where
  maxOffers : r.maxOffers ≤ s.maxOffers
  maxClaims : r.maxClaims ≤ s.maxClaims
  offerTtlMs : s.offerTtlMs ≤ r.offerTtlMs
  claimTtlMs : s.claimTtlMs ≤ r.claimTtlMs
  epochMs : s.epochMs ≤ r.epochMs

theorem config_merge_eq_left_iff {r s : LobbyConfig} :
    r.merge s = r ↔ NothingStricter r s := by
  constructor
  · intro h
    have hf : ∀ {α : Type} (f : LobbyConfig → α), f (r.merge s) = f r := fun f => congrArg f h
    exact ⟨min_eq_left_iff.mp (hf (·.maxOffers)), min_eq_left_iff.mp (hf (·.maxClaims)),
      max_eq_left_iff.mp (hf (·.offerTtlMs)), max_eq_left_iff.mp (hf (·.claimTtlMs)),
      max_eq_left_iff.mp (hf (·.epochMs))⟩
  · intro h
    unfold LobbyConfig.merge
    rw [min_eq_left h.maxOffers, min_eq_left h.maxClaims, max_eq_left h.offerTtlMs,
      max_eq_left h.claimTtlMs, max_eq_left h.epochMs]

-- ================================================================ what a merge adds

/-- A register keeps what it holds unless something else beats it. -/
theorem pick_eq_left_iff {V : Type} {beats : V → V → Bool} {x y : Option V}
    (hsome : y.isSome → x.isSome) :
    pick beats x y = x ↔ ∀ e ∈ x, ∀ v ∈ y, v = e ∨ beats v e = false := by
  cases x with
  | none =>
      cases y with
      | none => simp
      | some v => cases hsome rfl
  | some e =>
      cases y with
      | none => simp
      | some v =>
          simp only [Option.mem_def, Option.some.injEq, forall_eq', pick]
          by_cases hb : beats v e = true
          · rw [if_pos hb, hb]
            simp
          · rw [if_neg hb, Bool.eq_false_of_not_eq_true hb]
            simp

theorem leave_beats_of_version {m m' : LeaveMark} (h : m'.version = m.version) :
    m'.beats m = false ↔ m'.leftMs < m.leftMs := by
  unfold LeaveMark.beats
  rw [h, compare_eq_iff_eq.mpr rfl]
  simp

theorem offer_beats_of_version {o o' : WaitingOffer} (hv : o'.version = o.version)
    (hh : o'.heartbeatMs = o.heartbeatMs) : o'.beats o = false ↔ o'.peerId ≤ o.peerId := by
  unfold WaitingOffer.beats
  rw [hv, hh, compare_eq_iff_eq.mpr rfl, compare_eq_iff_eq.mpr rfl]
  simp

/-- Under equal summaries the sender's records add nothing exactly when none
of them is later. -/
theorem merge_records_iff (h : SameSummary r s) :
    (r.merge s).leaves = r.leaves ∧ (r.merge s).offers = r.offers
      ∧ (r.merge s).claims = r.claims ↔ NothingLater r s := by
  have hleaves : (r.merge s).leaves = r.leaves ↔
      ∀ k, ∀ m ∈ r.leaves.get? k, ∀ m' ∈ s.leaves.get? k, m' = m ∨ m'.leftMs < m.leftMs := by
    rw [Table.ext_get?_iff]
    apply forall_congr'
    intro k
    rw [merge, Table.get?_mergeBy,
      pick_eq_left_iff fun hs => (isSome_of_map_eq (h.leaves k)).symm.trans hs]
    apply forall₂_congr
    intro m hm
    apply forall₂_congr
    intro m' hm'
    have hversion : m'.version = m.version := by
      have hk := h.leaves k
      rw [hm, hm'] at hk
      exact Option.some.inj hk
    rw [leave_beats_of_version hversion]
  have hoffers : (r.merge s).offers = r.offers ↔
      ∀ k, ∀ o ∈ r.offers.get? k, ∀ o' ∈ s.offers.get? k, o' = o ∨ o'.peerId ≤ o.peerId := by
    rw [Table.ext_get?_iff]
    apply forall_congr'
    intro k
    rw [merge, Table.get?_mergeBy,
      pick_eq_left_iff fun hs => (isSome_of_map_eq (h.offers k)).symm.trans hs]
    apply forall₂_congr
    intro o ho
    apply forall₂_congr
    intro o' ho'
    have hk := h.offers k
    rw [ho, ho'] at hk
    obtain ⟨hversion, hheartbeat⟩ := Prod.mk.inj (Option.some.inj hk)
    rw [offer_beats_of_version hversion hheartbeat]
  have hclaims : (r.merge s).claims = r.claims := by
    rw [Table.ext_get?_iff]
    intro k
    rw [merge, Table.get?_mergeBy, pick_eq_left_iff]
    · exact fun _ _ _ _ => .inr rfl
    · rw [← Table.mem_keys_iff, ← Table.mem_keys_iff, h.claims]
      exact id
  rw [hleaves, hoffers]
  exact ⟨fun ⟨hl, ho, _⟩ => ⟨hl, ho⟩, fun hn => ⟨hn.leaves, hn.offers, hclaims⟩⟩

/-- The answer without records changes the limits alone. -/
theorem merge_new (c : LobbyConfig) :
    r.merge (.new c) = { r with config := r.config.merge c } := by
  apply ext'
  · rfl
  · exact Table.ext_get? fun k => (Table.get?_mergeBy ..).trans (pick_none_right _)
  · exact Table.ext_get? fun k => (Table.get?_mergeBy ..).trans (pick_none_right _)
  · exact Table.ext_get? fun k => (Table.get?_mergeBy ..).trans (pick_none_right _)

theorem merge_delta_eq_iff (h : SameSummary r s) :
    r.merge (s.deltaFromSummary r.summarize) = r.merge s ↔ NothingLater r s := by
  unfold deltaFromSummary
  rw [if_pos (summarize_eq_iff.mpr h), merge_new, ← merge_records_iff h]
  constructor
  · intro heq
    rw [← heq]
    exact ⟨rfl, rfl, rfl⟩
  · intro ⟨hl, ho, hc⟩
    exact ext' rfl hl.symm ho.symm hc.symm

theorem merge_eq_left_iff (h : SameSummary r s) :
    r.merge s = r ↔ NothingLater r s ∧ NothingStricter r.config s.config := by
  rw [← merge_records_iff h, ← config_merge_eq_left_iff]
  constructor
  · intro heq
    have hf : ∀ {α : Type} (f : LobbyState → α), f (r.merge s) = f r := fun f => congrArg f heq
    exact ⟨⟨hf (·.leaves), hf (·.offers), hf (·.claims)⟩, hf (·.config)⟩
  · exact fun ⟨⟨hl, ho, hc⟩, hconfig⟩ => ext' hconfig hl ho hc

/-- The state has no offers, claims and leave marks. -/
def NoRecords (s : LobbyState) : Prop := s = .new s.config

theorem NoRecords.nothingLater (h : NoRecords s) : NothingLater r s := by
  have hl : ∀ k, s.leaves.get? k = none := fun k => by rw [h]; exact Table.get?_empty k
  have ho : ∀ k, s.offers.get? k = none := fun k => by rw [h]; exact Table.get?_empty k
  constructor
  · intro k m _ m' hm'
    rw [hl] at hm'
    cases hm'
  · intro k o _ o' ho'
    rw [ho] at ho'
    cases ho'

theorem NoRecords.merge_eq_left_iff (h : NoRecords s) :
    r.merge s = r ↔ NothingStricter r.config s.config := by
  rw [h, merge_new, ← config_merge_eq_left_iff]
  exact ⟨congrArg LobbyState.config, fun hc => ext' hc rfl rfl rfl⟩

theorem noRecords_delta_iff :
    NoRecords (s.deltaFromSummary r.summarize) ↔ SameSummary r s ∨ NoRecords s := by
  unfold deltaFromSummary
  by_cases h : s.summarize = r.summarize
  · rw [if_pos h]
    exact iff_of_true rfl (.inl (summarize_eq_iff.mp h))
  · rw [if_neg h]
    exact (or_iff_right fun hs => h (summarize_eq_iff.mpr hs)).symm

theorem merge_delta_iff : r.merge (s.deltaFromSummary r.summarize) = r.merge s
    ↔ (SameSummary r s → NothingLater r s) := by
  by_cases h : SameSummary r s
  · rw [merge_delta_eq_iff h]
    exact ⟨fun hn _ => hn, fun hn => hn h⟩
  · have hdelta : s.deltaFromSummary r.summarize = s :=
      if_neg fun heq => h (summarize_eq_iff.mp heq)
    rw [hdelta]
    exact iff_of_true rfl fun hs => absurd hs h

/-- **Sync by summary**: the answer to a summary gives the receiver what the
whole state would, unless the summaries are equal and something of the sender
is later all the same. An answer without records says that there is nothing
to get when, on top of this, the sender's limits are none for the receiver. -/
theorem delta_sync_iff (r s : LobbyState) :
    (r.merge (s.deltaFromSummary r.summarize) = r.merge s
        ↔ (SameSummary r s → NothingLater r s))
    ∧ ((r.merge (s.deltaFromSummary r.summarize) = r.merge s
          ∧ (NoRecords (s.deltaFromSummary r.summarize) → r.merge s = r))
        ↔ (SameSummary r s ∨ NoRecords s →
            NothingLater r s ∧ NothingStricter r.config s.config)) := by
  refine ⟨merge_delta_iff, ?_⟩
  rw [merge_delta_iff, noRecords_delta_iff]
  constructor
  · intro ⟨_, hempty⟩ h
    have heq := hempty h
    cases h with
    | inl h => exact (merge_eq_left_iff h).mp heq
    | inr h => exact ⟨h.nothingLater, h.merge_eq_left_iff.mp heq⟩
  · intro h
    refine ⟨fun hs => (h (.inl hs)).1, fun hempty => ?_⟩
    obtain ⟨hlater, hstricter⟩ := h hempty
    cases hempty with
    | inl hs => exact (merge_eq_left_iff hs).mpr ⟨hlater, hstricter⟩
    | inr hs => exact hs.merge_eq_left_iff.mpr hstricter

/-- A lobby that a peer left, at this time of its first offer. -/
def leftAt (leftMs : Nat) : LobbyState :=
  { new .default with leaves := (∅ : Table PeerId LeaveMark).set 1 ⟨1, 1, leftMs, []⟩ }

/-- The later mark does not reach the receiver. -/
theorem later_leave_lost : ∃ r s : LobbyState,
    (r.merge (s.deltaFromSummary r.summarize)).leaves.get? 1 = some ⟨1, 1, 1000, []⟩
    ∧ (r.merge s).leaves.get? 1 = some ⟨1, 1, 2000, []⟩ := by
  have hsame : SameSummary (leftAt 1000) (leftAt 2000) := by
    refine ⟨fun k => rfl, rfl, fun k => ?_⟩
    show ((Table.set ∅ 1 _).get? k).map _ = ((Table.set ∅ 1 _).get? k).map _
    rw [Table.get?_set, Table.get?_set]
    by_cases hk : k = 1
    · rw [if_pos hk, if_pos hk]
      rfl
    · rw [if_neg hk, if_neg hk]
  refine ⟨leftAt 1000, leftAt 2000, ?_, ?_⟩
  · unfold deltaFromSummary
    rw [if_pos (summarize_eq_iff.mpr hsame), merge_new]
    rfl
  · rw [merge, Table.get?_mergeBy]
    rfl

end LobbyState

end Ruletka.Contract
