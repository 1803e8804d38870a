/-
When the ledger knows who gave a user trust.

# Reading an edge

The edges into `user` are the texts that end in a bar and `user`. Every gift
to `user` made one, and one name in front of the bar makes one text, so no
giver is lost by counting. What can go wrong is a text that ends so and was
made by a gift to somebody else, and a giver whose own name ends so, which is
cut off with the end of the edge.

# Counting

The count is a `u32`.
-/
import Ruletka.Ledger.Gifters

namespace Ruletka

namespace Text

theorem hasSuffix_iff (s p : String) : hasSuffix s p = true ↔ p.toList <:+ s.toList :=
  List.isSuffixOf_iff_suffix

/-- With fuel for it nothing is left to cut. -/
theorem cutEnd_done {pat : List Char} (hpat : pat ≠ []) (fuel : Nat) (l : List Char)
    (hfuel : l.length ≤ fuel) : ¬ pat <:+ cutEnd pat fuel l := by
  induction fuel generalizing l with
  | zero =>
      rw [cutEnd, List.length_eq_zero_iff.mp (Nat.le_zero.mp hfuel), List.suffix_nil]
      exact hpat
  | succ fuel ih =>
      rw [cutEnd]
      split_ifs with h
      · apply ih
        have hpos := List.length_pos_iff.mpr hpat
        have hle := (List.isSuffixOf_iff_suffix.mp h).length_le
        rw [List.length_take]
        omega
      · exact fun hsuf => h (List.isSuffixOf_iff_suffix.mpr hsuf)

theorem trimEndMatches_done (s : String) {pat : String} (hpat : pat ≠ "") :
    hasSuffix (trimEndMatches s pat) pat = false := by
  rw [Bool.eq_false_iff, Ne, hasSuffix_iff, trimEndMatches, String.toList_ofList]
  exact cutEnd_done (fun h => hpat (String.toList_eq_nil_iff.mp h)) _ _ (Nat.le_refl _)

/-- One end to cut is cut. -/
theorem trimEndMatches_append {s pat : String} (hs : hasSuffix s pat = false) (hpat : pat ≠ "") :
    trimEndMatches (s ++ pat) pat = s := by
  have hne : pat.toList ≠ [] := fun h => hpat (String.toList_eq_nil_iff.mp h)
  have hnot : pat.toList.isSuffixOf s.toList = false := hs
  have hlen : (s ++ pat).toList.length = (s.toList.length + (pat.toList.length - 1)) + 1 := by
    have := List.length_pos_iff.mpr hne
    rw [String.toList_append, List.length_append]
    omega
  have hcut : (s ++ pat).toList.take ((s ++ pat).toList.length - pat.toList.length)
      = s.toList := by
    rw [String.toList_append, List.length_append, Nat.add_sub_cancel, List.take_left]
  have hend : pat.toList.isSuffixOf (s ++ pat).toList = true := by
    rw [List.isSuffixOf_iff_suffix, String.toList_append]
    exact List.suffix_append _ _
  rw [trimEndMatches, hlen, cutEnd, if_pos hend, hcut]
  cases s.toList.length + (pat.toList.length - 1) with
  | zero => rw [cutEnd, String.ofList_toList]
  | succ n => rw [cutEnd, if_neg (by simp [hnot]), String.ofList_toList]

end Text

namespace Ledger

open Text

-- ====================================================================== the gifts

namespace StarEvent

/-- A mint or an adjust for a reason of trust. -/
def TrustGift (ev : StarEvent) : Prop :=
  (ev.kind = kindMint ∨ ev.kind = kindAdjust) ∧ isTrustMintReason ev.reason = true

instance : DecidablePred TrustGift := fun _ => inferInstanceAs (Decidable (_ ∧ _))

/-- The ledger writes no mint and no adjust of nothing or to nobody. -/
def Written (ev : StarEvent) : Prop :=
  ev.kind = kindMint ∨ ev.kind = kindAdjust → ev.to ≠ "" ∧ ev.amount ≠ 0

/-- A gift from one user to another. -/
def Between (ev : StarEvent) : Prop := ev.TrustGift ∧ ev.from ≠ "" ∧ ev.from ≠ ev.to

instance : DecidablePred Between := fun _ => inferInstanceAs (Decidable (_ ∧ _))

/-- The text of a gift's edge. -/
def edge (ev : StarEvent) : String := ev.from ++ "|" ++ ev.to

end StarEvent

/-- The users who gave the user trust. -/
def giftersOf (events : List StarEvent) (user : String) : Finset String :=
  ((events.filter fun ev => ev.Between ∧ ev.to = user).map StarEvent.from).toFinset

theorem mem_giftersOf {events : List StarEvent} {user f : String} :
    f ∈ giftersOf events user ↔ ∃ ev ∈ events, ev.Between ∧ ev.to = user ∧ ev.from = f := by
  simp only [giftersOf, List.mem_toFinset, List.mem_map, List.mem_filter, decide_eq_true_eq,
    and_assoc]

/-- The ledger after some events. -/
def ledgerOf (events : List StarEvent) : StarLedger := events.foldl StarLedger.record .empty

-- ====================================================================== the edges

/-- An event that is written adds the edge of its gift. -/
theorem edges_record (l : StarLedger) {ev : StarEvent} (hev : ev.Written) (e : String) :
    e ∈ (l.record ev).trust.edges ↔ e ∈ l.trust.edges ∨ ev.Between ∧ e = ev.edge := by
  have htouch : ∀ (t : Trust) who ts, (t.touch who ts).edges = t.edges := by
    intro t who ts
    unfold Trust.touch
    split_ifs <;> rfl
  change e ∈ (applyEventToTrust l.trust ev).edges ↔ _
  unfold applyEventToTrust
  by_cases hclaw : ev.kind = kindClawback
  · have hnot : ¬ ev.Between := by
      rintro ⟨⟨hk | hk, -⟩, -⟩ <;> rw [hclaw] at hk <;> exact absurd hk (by decide)
    rw [if_pos hclaw]
    cases ev.payer with
    | none => simp [hnot]
    | some who =>
        dsimp only
        rw [htouch]
        split_ifs <;> simp [hnot]
  rw [if_neg hclaw]
  by_cases hkind : ev.kind = kindMint ∨ ev.kind = kindAdjust
  · rw [if_neg (by simpa [imp_iff_not_or] using hkind)]
    obtain ⟨hto, hamount⟩ := hev hkind
    cases hreason : isTrustMintReason ev.reason with
    | false => simp [StarEvent.Between, StarEvent.TrustGift, hreason]
    | true =>
        rw [if_neg (by simp [hto, hamount])]
        dsimp only
        rw [htouch]
        by_cases hfrom : ev.from ≠ "" ∧ ev.from ≠ ev.to
        · rw [if_pos hfrom]
          have hbetween : ev.Between := ⟨⟨hkind, hreason⟩, hfrom⟩
          rw [Finset.mem_insert, or_comm]
          simp only [hbetween, true_and, StarEvent.edge]
        · rw [if_neg hfrom]
          simp [StarEvent.Between, hfrom]
  · rw [if_pos (by simpa [not_or] using hkind)]
    simp [StarEvent.Between, StarEvent.TrustGift, hkind]

/-- The edges of the ledger are those of the gifts. -/
theorem mem_edges {events : List StarEvent} (hev : ∀ ev ∈ events, ev.Written) (e : String) :
    e ∈ (ledgerOf events).trust.edges ↔ ∃ ev ∈ events, ev.Between ∧ e = ev.edge := by
  have hfold : ∀ (events : List StarEvent) (l : StarLedger), (∀ ev ∈ events, ev.Written) →
      (e ∈ (events.foldl StarLedger.record l).trust.edges
        ↔ e ∈ l.trust.edges ∨ ∃ ev ∈ events, ev.Between ∧ e = ev.edge) := by
    intro events
    induction events with
    | nil => simp
    | cons ev events ih =>
        intro l hall
        rw [List.foldl_cons, ih _ fun x hx => hall x (List.mem_cons_of_mem _ hx),
          edges_record l (hall ev List.mem_cons_self)]
        simp only [List.mem_cons, exists_eq_or_imp, or_assoc]
  rw [ledgerOf, hfold events _ hev]
  simp [StarLedger.empty]

theorem card_edges_le {events : List StarEvent} (hev : ∀ ev ∈ events, ev.Written) :
    (ledgerOf events).trust.edges.card ≤ events.length := by
  have hsub : (ledgerOf events).trust.edges ⊆ (events.map StarEvent.edge).toFinset := by
    intro e he
    obtain ⟨ev, hmem, -, rfl⟩ := (mem_edges hev e).mp he
    exact List.mem_toFinset.mpr (List.mem_map_of_mem hmem)
  calc (ledgerOf events).trust.edges.card
      ≤ (events.map StarEvent.edge).toFinset.card := Finset.card_le_card hsub
    _ ≤ (events.map StarEvent.edge).length := List.toFinset_card_le _
    _ = events.length := List.length_map _

-- ================================================================== the condition

/-- The edges can be read: one that ends in the user's name is that of a gift to the
user, no giver's own name ends so, and the count fits. -/
structure Legible (events : List StarEvent) (user : String) : Prop where
  own : ∀ ev ∈ events, ev.Between → hasSuffix ev.edge ("|" ++ user) = true →
    ∃ f ∈ giftersOf events user, ev.edge = f ++ "|" ++ user
  whole : ∀ f ∈ giftersOf events user, hasSuffix f ("|" ++ user) = false
  few : (giftersOf events user).card < 2 ^ 32

/-- The count and the list are those of the users who gave trust. -/
structure Exact (events : List StarEvent) (user : String) : Prop where
  count : ((ledgerOf events).trustGifters user).toNat = (giftersOf events user).card
  ids : (ledgerOf events).trustGiverIds user = (giftersOf events user).sort (· ≤ ·)

variable {events : List StarEvent} {user : String}

theorem join_injective (user : String) : Function.Injective fun f : String => f ++ "|" ++ user := by
  intro f g h
  have hlist := congrArg String.toList h
  simp only [String.toList_append, List.append_assoc] at hlist
  exact String.toList_inj.mp (List.append_cancel_right hlist)

/-- Every giver has an edge. -/
theorem joined_subset (hev : ∀ ev ∈ events, ev.Written) :
    ((giftersOf events user).image fun f => f ++ "|" ++ user)
      ⊆ (ledgerOf events).edgesInto user := by
  intro e he
  obtain ⟨f, hf, rfl⟩ := Finset.mem_image.mp he
  obtain ⟨ev, hmem, hbetween, hto, rfl⟩ := mem_giftersOf.mp hf
  refine Finset.mem_filter.mpr ⟨(mem_edges hev _).mpr ⟨ev, hmem, hbetween, ?_⟩, ?_⟩
  · rw [StarEvent.edge, hto]
  · rw [hasSuffix_iff, String.append_assoc, String.toList_append (s := ev.from)]
    exact List.suffix_append _ _

theorem card_joined : ((giftersOf events user).image fun f => f ++ "|" ++ user).card
    = (giftersOf events user).card :=
  Finset.card_image_of_injective _ (join_injective user)

/-- Legible edges are those of the givers. -/
theorem Legible.edgesInto_eq (hev : ∀ ev ∈ events, ev.Written) (h : Legible events user) :
    (ledgerOf events).edgesInto user
      = (giftersOf events user).image fun f => f ++ "|" ++ user := by
  refine Finset.Subset.antisymm ?_ (joined_subset hev)
  intro e he
  obtain ⟨hmem, hsuf⟩ := Finset.mem_filter.mp he
  obtain ⟨ev, hin, hbetween, rfl⟩ := (mem_edges hev e).mp hmem
  obtain ⟨f, hf, hedge⟩ := h.own ev hin hbetween hsuf
  exact Finset.mem_image.mpr ⟨f, hf, hedge.symm⟩

theorem bar_ne_empty (user : String) : "|" ++ user ≠ "" := by
  intro h
  have := congrArg String.length h
  simp at this

theorem Legible.exact (hev : ∀ ev ∈ events, ev.Written) (huser : user ≠ "")
    (h : Legible events user) : Exact events user := by
  have hedges := h.edgesInto_eq hev
  refine ⟨?_, ?_⟩
  · rw [StarLedger.trustGifters, if_neg huser, hedges, card_joined, UInt32.toNat_ofNat']
    exact Nat.mod_eq_of_lt h.few
  · rw [StarLedger.trustGiverIds, if_neg huser, hedges, Finset.image_image]
    congr 1
    ext f
    simp only [Finset.mem_filter, Finset.mem_image, Function.comp_apply]
    have htrim : ∀ g ∈ giftersOf events user,
        trimEndMatches (g ++ "|" ++ user) ("|" ++ user) = g := by
      intro g hg
      rw [String.append_assoc, trimEndMatches_append (h.whole g hg) (bar_ne_empty user)]
    constructor
    · rintro ⟨⟨g, hg, rfl⟩, -⟩
      rwa [htrim g hg]
    · intro hf
      obtain ⟨ev, -, hbetween, hto, hfrom⟩ := mem_giftersOf.mp hf
      exact ⟨⟨f, hf, htrim f hf⟩, hfrom ▸ hbetween.2.1, hfrom ▸ hto ▸ hbetween.2.2⟩

theorem Exact.legible (hev : ∀ ev ∈ events, ev.Written) (huser : user ≠ "")
    (hlen : events.length < 2 ^ 32) (h : Exact events user) : Legible events user := by
  have hle : ((ledgerOf events).edgesInto user).card ≤ events.length :=
    (Finset.card_filter_le _ _).trans (card_edges_le hev)
  have hcard : ((ledgerOf events).edgesInto user).card = (giftersOf events user).card := by
    have hcount := h.count
    rw [StarLedger.trustGifters, if_neg huser, UInt32.toNat_ofNat', Nat.mod_eq_of_lt] at hcount
    · exact hcount
    · exact hle.trans_lt hlen
  refine ⟨?_, ?_, hcard ▸ hle.trans_lt hlen⟩
  · intro ev hin hbetween hsuf
    have heq := Finset.eq_of_subset_of_card_le (@joined_subset events user hev)
      (by rw [card_joined, hcard])
    have hmem : ev.edge ∈ (ledgerOf events).edgesInto user :=
      Finset.mem_filter.mpr ⟨(mem_edges hev _).mpr ⟨ev, hin, hbetween, rfl⟩, hsuf⟩
    rw [← heq] at hmem
    obtain ⟨f, hf, hedge⟩ := Finset.mem_image.mp hmem
    exact ⟨f, hf, hedge.symm⟩
  · intro f hf
    have hmem : f ∈ (ledgerOf events).trustGiverIds user := by
      rw [h.ids]
      exact (Finset.mem_sort _).mpr hf
    rw [StarLedger.trustGiverIds, if_neg huser, Finset.mem_sort, Finset.mem_filter] at hmem
    obtain ⟨e, -, rfl⟩ := Finset.mem_image.mp hmem.1
    exact trimEndMatches_done e (bar_ne_empty user)

-- ==================================================================== the main result

/-- The count and the list of givers are exact when the edges are legible, and for any
sequence that a `u32` can count only then; and while they are, events among others do
not change the count. -/
theorem gifters_exact_iff (events : List StarEvent) (hev : ∀ ev ∈ events, ev.Written)
    (user : String) (huser : user ≠ "") :
    (Legible events user → Exact events user)
      ∧ (events.length < 2 ^ 32 → (Exact events user ↔ Legible events user))
      ∧ ∀ ev : StarEvent, ev.Written → ev.to ≠ user → Legible events user →
          Legible (events ++ [ev]) user →
          (ledgerOf (events ++ [ev])).trustGifters user
            = (ledgerOf events).trustGifters user := by
  refine ⟨fun h => h.exact hev huser, fun hlen => ⟨fun h => h.legible hev huser hlen,
    fun h => h.exact hev huser⟩, fun ev hnew hto h h' => ?_⟩
  have hall : ∀ x ∈ events ++ [ev], x.Written := by
    simpa [or_imp, forall_and] using ⟨hev, hnew⟩
  have hsame : giftersOf (events ++ [ev]) user = giftersOf events user := by
    ext f
    rw [mem_giftersOf, mem_giftersOf]
    simp [or_and_right, exists_or, hto]
  refine UInt32.toNat_inj.mp ?_
  rw [(h'.exact hall huser).count, (h.exact hev huser).count, hsame]

/-- A rating by `from` of `to`. -/
def rating («from» «to» : String) : StarEvent where
  seq := 1
  id := "u1"
  kind := kindMint
  «from» := «from»
  «to» := «to»
  amount := 1
  reason := "mint:rate_partner"
  session := ""
  opId := ""
  ts := 1
  prevHash := ""
  hash := ""

/-- Three givers of one user, one of them twice, and a rating of another. -/
def ratings : List StarEvent :=
  [rating "a" "u", rating "b" "u", rating "c" "v", rating "a" "u", rating "d" "u"]

theorem written_ratings : ∀ ev ∈ ratings, ev.Written := by
  intro ev hev
  simp only [ratings, List.mem_cons, List.not_mem_nil, or_false] at hev
  rcases hev with rfl | rfl | rfl | rfl | rfl <;> exact fun _ => by decide

/-- The list is that of the three, and stays so when `v` is rated again. -/
theorem gifters_exact_iff_rating :
    Exact ratings "u" ∧ giftersOf ratings "u" = {"a", "b", "d"}
      ∧ (ledgerOf (ratings ++ [rating "a" "v"])).trustGifters "u"
        = (ledgerOf ratings).trustGifters "u" := by
  have hlegible : Legible ratings "u" := ⟨by decide, by decide, by decide⟩
  have hmore : Legible (ratings ++ [rating "a" "v"]) "u" := ⟨by decide, by decide, by decide⟩
  obtain ⟨hexact, -, hsame⟩ := gifters_exact_iff ratings written_ratings "u" (by decide)
  exact ⟨hexact hlegible, by decide,
    hsame (rating "a" "v") (fun _ => by decide) (by decide) hlegible hmore⟩

/-- A rating of `b|u` counts for `u`, and names a user that does not exist. -/
theorem rating_of_other_counts :
    giftersOf [rating "a" "b|u"] "u" = ∅
      ∧ (ledgerOf [rating "a" "b|u"]).trustGifters "u" = 1
      ∧ (ledgerOf [rating "a" "b|u"]).trustGiverIds "u" = ["a|b"] := by
  decide +kernel

end Ledger

end Ruletka
