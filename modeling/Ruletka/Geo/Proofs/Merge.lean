/-
When the answer depends on no order.

A vote may end in a draw, and then the last entry of the map's iteration
wins; among hits of one weight the last of the list gives country and region;
and the shown form of a city is that of its last heavy hit, or of its first.
So the answer depends on no order exactly when no two codes draw, and those
that may give country, region and city say the same. What may come out for
some order (`Outcome`) is told by the hits alone, and all of it comes out.
-/
import Mathlib.Data.List.Find
import Mathlib.Data.List.Forall2
import Mathlib.Algebra.Ring.Nat
import Ruletka.Geo.Merge

namespace Ruletka.Geo

variable {T : CityTables} {hits hits' : List ProviderHit}

-- ======================================================================= the hints

/-- No site code has a blank in it. -/
theorem hintPairs_blank : ∀ p ∈ hintPairs, p.1.toList ≠ [] ∧ ' ' ∉ p.1.toList := by
  decide +kernel

theorem hasInfix_joinedBlob {p : String} (hp : p.toList ≠ []) (hblank : ' ' ∉ p.toList) :
    Text.hasInfix (Text.upper (joinedBlob hits)) p = true
      ↔ ∃ h ∈ hits, Text.hasInfix (Text.upper h.hintBlob) p = true := by
  have hupper : ∀ s, (Text.upper s).toList = s.toList.map Char.toUpper :=
    fun s => String.toList_ofList
  simp only [Text.hasInfix_iff, hupper]
  unfold joinedBlob
  rw [String.toList_intercalate, List.map_map]
  show p.toList <:+: List.map _ ([' '].intercalate _) ↔ _
  rw [Text.infix_map_intercalate_iff rfl hp hblank]
  simp only [List.mem_map, exists_exists_and_eq_and, Function.comp_apply]

/-- The hint is the same in every order of the hits. -/
theorem hintCity_perm (h : hits'.Perm hits) :
    hintCityFromBlob (joinedBlob hits') = hintCityFromBlob (joinedBlob hits) := by
  have hparts : ∀ p ∈ hintPairs, Text.hasInfix (Text.upper (joinedBlob hits')) p.1
      = Text.hasInfix (Text.upper (joinedBlob hits)) p.1 := by
    intro p hp
    obtain ⟨hne, hblank⟩ := hintPairs_blank p hp
    rw [Bool.eq_iff_iff, hasInfix_joinedBlob hne hblank, hasInfix_joinedBlob hne hblank]
    simp only [h.mem_iff]
  unfold hintCityFromBlob
  rw [List.find?_congr hparts]

theorem applyOrgCityHints_perm (h : hits'.Perm hits) :
    (applyOrgCityHints T hits').Perm (applyOrgCityHints T hits) := by
  unfold applyOrgCityHints
  rw [hintCity_perm h]
  split
  · exact h
  · exact h.map _

/-- An order of the images comes of one of the elements. -/
theorem exists_perm_of_map {f : ProviderHit → ProviderHit} {m : List ProviderHit}
    (h : m.Perm (hits.map f)) : ∃ hits' : List ProviderHit, hits'.Perm hits ∧ hits'.map f = m := by
  have hall : List.Forall₂ (fun a b => f a = b) hits (hits.map f) := by
    rw [List.forall₂_map_right_iff]
    exact List.forall₂_same.mpr fun _ _ => rfl
  have hcomp := congrFun (congrFun (List.forall₂_comp_perm_eq_perm_comp_forall₂
    (r := fun a b => f a = b)) hits) m
  obtain ⟨hits', hperm, hforall⟩ := hcomp.mp ⟨hits.map f, hall, h.symm⟩
  refine ⟨hits', hperm.symm, ?_⟩
  rw [← List.forall₂_eq_eq_eq, List.forall₂_map_left_iff]
  exact hforall

/-- Every order of the hinted hits comes of an order of the hits. -/
theorem exists_perm_hinted {m : List ProviderHit} (h : m.Perm (applyOrgCityHints T hits)) :
    ∃ hits' : List ProviderHit, hits'.Perm hits ∧ applyOrgCityHints T hits' = m := by
  unfold applyOrgCityHints at h
  split at h
  · next hnone =>
      refine ⟨m, h, ?_⟩
      unfold applyOrgCityHints
      rw [hintCity_perm h, hnone]
  · next city hcity =>
      obtain ⟨hits', hperm, hmap⟩ := exists_perm_of_map h
      refine ⟨hits', hperm, ?_⟩
      unfold applyOrgCityHints
      rw [hintCity_perm hperm, hcity]
      exact hmap

-- ======================================================================= the votes

/-- The votes for a key. -/
def votesFor (vote : ProviderHit → Option String) (hits : List ProviderHit) (k : String) : Nat :=
  ((hits.filter fun h => vote h = some k).map (·.weight.toNat)).sum % 2 ^ 32

/-- A key somebody votes for, and none has more votes. -/
def Wins (vote : ProviderHit → Option String) (hits : List ProviderHit) (k : String) : Prop :=
  (∃ h ∈ hits, vote h = some k)
    ∧ ∀ h ∈ hits, ∀ k' ∈ vote h, votesFor vote hits k' ≤ votesFor vote hits k

instance (vote : ProviderHit → Option String) (hits : List ProviderHit) (k : String) :
    Decidable (Wins vote hits k) := inferInstanceAs (Decidable (_ ∧ _))

theorem votesFor_perm (h : hits'.Perm hits) (vote : ProviderHit → Option String) (k : String) :
    votesFor vote hits' k = votesFor vote hits k := by
  unfold votesFor
  rw [((h.filter _).map _).sum_eq]

theorem Wins.perm {vote : ProviderHit → Option String} {k : String} (h : hits'.Perm hits)
    (hk : Wins vote hits' k) : Wins vote hits k := by
  unfold Wins at hk ⊢
  simp only [votesFor_perm h, h.mem_iff] at hk
  exact hk

theorem addWeight_sum (l : List ProviderHit) (h : ProviderHit) :
    addWeight ((l.map (·.weight.toNat)).sum % 2 ^ 32) h
      = ((l ++ [h]).map (·.weight.toNat)).sum % 2 ^ 32 := by
  unfold addWeight
  rw [List.map_append, List.sum_append, Nat.mod_add_mod]
  rfl

/-- What a count of weights makes of some ballots. -/
theorem counted_weight {V : Type} {weight : V → Nat} {count : Option V → ProviderHit → V}
    (hcount : ∀ v h, weight (count v h) = addWeight ((v.map weight).getD 0) h)
    (l : List ProviderHit) : ((counted count l).map weight).getD 0
      = (l.map (·.weight.toNat)).sum % 2 ^ 32 := by
  induction l using List.reverseRecOn with
  | nil => rfl
  | append_singleton l h ih =>
      rw [counted_concat, Option.map_some, Option.getD_some, hcount, ih, addWeight_sum]

section

variable {V : Type} {weight : V → Nat} {count : Option V → ProviderHit → V}
  {vote : ProviderHit → Option String}

/-- The entries none is above are those of the winning keys. -/
theorem greatest_tally_iff
    (hcount : ∀ v h, weight (count v h) = addWeight ((v.map weight).getD 0) h) (k : String)
    (v : V) : (tally vote count hits).Greatest weight k v
      ↔ Wins vote hits k ∧ counted count (hits.filter fun h => vote h = some k) = some v := by
  have hweight : ∀ k v, (tally vote count hits).get? k = some v →
      weight v = votesFor vote hits k := by
    intro k v hv
    have hsum := counted_weight hcount (hits.filter fun h => vote h = some k)
    rw [← get?_tally, hv] at hsum
    exact hsum
  have hvoted : ∀ k, (∃ v, (tally vote count hits).get? k = some v)
      ↔ ∃ h ∈ hits, vote h = some k := by
    intro k
    rw [← Option.ne_none_iff_exists', Ne, get?_tally_eq_none_iff]
    simp only [not_forall, not_not, exists_prop]
  constructor
  · intro h
    obtain ⟨hget, hmax⟩ := h
    refine ⟨⟨(hvoted k).mp ⟨v, hget⟩, ?_⟩, by rw [← get?_tally, hget]⟩
    intro h hh k' hk'
    obtain ⟨v', hv'⟩ := (hvoted k').mpr ⟨h, hh, hk'⟩
    rw [← hweight k v hget, ← hweight k' v' hv']
    exact hmax k' v' hv'
  · intro h
    obtain ⟨⟨-, hmax⟩, hget⟩ := h
    rw [← get?_tally] at hget
    refine ⟨hget, fun k' v' hv' => ?_⟩
    obtain ⟨h, hh, hk'⟩ := (hvoted k').mp ⟨v', hv'⟩
    rw [hweight k v hget, hweight k' v' hv']
    exact hmax h hh k' hk'

end

theorem codeVote_count (v : Option Nat) (h : ProviderHit) :
    id (addWeight (v.getD 0) h) = addWeight ((v.map id).getD 0) h := by
  rw [Option.map_id]
  rfl

theorem countCity_count (v : Option (Nat × String)) (h : ProviderHit) :
    (countCity v h).1 = addWeight ((v.map (·.1)).getD 0) h := by
  cases v with
  | none => rfl
  | some e => rfl

-- ==================================================================== the shown form

/-- A hit of a city that may give the shown form: one of some weight, or any
where there is none. -/
def Shown (ballots : List ProviderHit) (h : ProviderHit) : Prop :=
  h ∈ ballots ∧ (2 ≤ h.weight ∨ ∀ h' ∈ ballots, ¬ 2 ≤ h'.weight)

theorem shown_of_counted (l : List ProviderHit) : ∀ e, counted countCity l = some e →
    ∃ h, Shown l h ∧ cleanPlace h.city = e.2 := by
  induction l using List.reverseRecOn with
  | nil => exact fun e he => nomatch he
  | append_singleton l a ih =>
      intro e he
      rw [counted_concat] at he
      obtain rfl := Option.some.inj he
      show ∃ h, Shown (l ++ [a]) h ∧ cleanPlace h.city = if 2 ≤ a.weight then cleanPlace a.city
        else ((counted countCity l).getD (0, cleanPlace a.city)).2
      by_cases ha : 2 ≤ a.weight
      · exact ⟨a, ⟨List.mem_append_right _ (List.mem_singleton_self a), .inl ha⟩, (if_pos ha).symm⟩
      rw [if_neg ha]
      have hlast : ∀ h' ∈ l ++ [a], (∀ h ∈ l, ¬ 2 ≤ h.weight) → ¬ 2 ≤ h'.weight := by
        intro h' hh' hl
        obtain hh' | hh' := List.mem_append.mp hh'
        · exact hl h' hh'
        · rw [List.mem_singleton.mp hh']
          exact ha
      cases hl : counted countCity l with
      | none =>
          rw [counted_eq_none_iff] at hl
          subst hl
          exact ⟨a, ⟨List.mem_singleton_self a, .inr fun h' hh' => hlast h' hh' nofun⟩, rfl⟩
      | some e =>
          obtain ⟨h, ⟨hmem, hheavy⟩, hcity⟩ := ih e hl
          refine ⟨h, ⟨List.mem_append_left _ hmem, hheavy.imp_right ?_⟩, hcity⟩
          exact fun hnone h' hh' => hlast h' hh' hnone

/-- The last hit of some weight gives the form. -/
theorem counted_heavy_last (l : List ProviderHit) {h : ProviderHit} (hheavy : 2 ≤ h.weight) :
    ((counted countCity (l ++ [h])).map (·.2)) = some (cleanPlace h.city) := by
  rw [counted_concat]
  exact congrArg some (if_pos hheavy)

/-- Without any the first one does. -/
theorem counted_light_first (l : List ProviderHit) {h : ProviderHit}
    (hlight : ∀ h' ∈ h :: l, ¬ 2 ≤ h'.weight) :
    ((counted countCity (h :: l)).map (·.2)) = some (cleanPlace h.city) := by
  induction l using List.reverseRecOn with
  | nil => exact congrArg some (ite_self _)
  | append_singleton l a ih =>
      have ih := ih fun h' hh' => hlight h' (List.mem_append_left [a] hh')
      rw [← List.cons_append, counted_concat]
      obtain ⟨e, he, hcity⟩ := Option.map_eq_some_iff.mp ih
      rw [he, ← hcity]
      refine congrArg some (if_neg ?_)
      exact hlight a (List.mem_append_right (h :: l) (List.mem_singleton_self a))

-- ==================================================================== what comes out

/-- A heaviest hit of a country among those with a field. -/
def Leads (field : ProviderHit → String) (code : String) (hits : List ProviderHit)
    (h : ProviderHit) : Prop :=
  (h ∈ hits ∧ h.code = code ∧ field h ≠ "")
    ∧ ∀ h' ∈ hits, h'.code = code → field h' ≠ "" → h'.weight.toNat ≤ h.weight.toNat

/-- A hit that may give the city of a country. -/
def Shows (T : CityTables) (code : String) (hits : List ProviderHit) (h : ProviderHit) : Prop :=
  ∃ k, Wins (cityVote T code) hits k
    ∧ Shown (hits.filter fun h => cityVote T code h = some k) h

/-- What a field may come out as. -/
def FieldOf (field : ProviderHit → String) (code : String) (hits : List ProviderHit)
    (last x : String) : Prop :=
  (∃ h, Leads field code hits h ∧ field h = x)
    ∨ (∀ h ∈ hits, h.code = code → field h = "") ∧ x = last

/-- What may come out for some orders. -/
structure Outcome (T : CityTables) (hits : List ProviderHit) (g : GeoLoc) : Prop where
  code : Wins codeVote hits g.code
  country : FieldOf (·.country) g.code hits g.code g.country
  region : FieldOf (·.region) g.code hits "" g.region
  city : (∃ h, Shows T g.code hits h ∧ cleanPlace h.city = g.city)
    ∨ (∀ h ∈ hits, cityVote T g.code h = none)
      ∧ g.city = (hintCityFromBlob (joinedBlob hits)).getD ""

theorem heaviest_fieldOf (field : ProviderHit → String) (code last : String) :
    FieldOf field code hits last ((heaviest field code hits).getD last) := by
  unfold heaviest
  cases hl : lastMax (·.weight.toNat)
      (hits.filter fun h => h.code = code ∧ field h ≠ "") with
  | none =>
      rw [lastMax_eq_none_iff, List.filter_eq_nil_iff] at hl
      refine .inr ⟨fun h hh hcode => ?_, rfl⟩
      by_contra hfield
      exact hl h hh (decide_eq_true ⟨hcode, hfield⟩)
  | some h =>
      obtain ⟨hmem, hmax⟩ := lastMax_spec hl
      obtain ⟨hh, hcode⟩ := List.mem_filter.mp hmem
      refine .inl ⟨h, ⟨⟨hh, of_decide_eq_true hcode⟩, fun h' hh' hcode' hfield' => ?_⟩, rfl⟩
      exact hmax h' (List.mem_filter.mpr ⟨hh', decide_eq_true ⟨hcode', hfield'⟩⟩)

/-- A city that is voted for has a form. -/
theorem cleanPlace_of_cityVote {code k : String} {h : ProviderHit}
    (hk : cityVote T code h = some k) : cleanPlace h.city ≠ "" := by
  intro hnone
  unfold cityVote at hk
  dsimp only at hk
  rw [if_pos (.inr hnone)] at hk
  cases hk

theorem Shows.city_ne {code : String} {h : ProviderHit} (hs : Shows T code hits h) :
    cleanPlace h.city ≠ "" := by
  obtain ⟨k, -, hmem, -⟩ := hs
  exact cleanPlace_of_cityVote (of_decide_eq_true (List.mem_filter.mp hmem).2)

/-- The city of a country, in an order of its cities. -/
def cityOf (T : CityTables) (cities : IterOrder String) (code : String)
    (hits : List ProviderHit) : String :=
  let city := ((lastMax (·.2.1) ((cityVotes T code hits).iterate cities)).map (·.2.2)).getD ""
  if city = "" then (hintCityFromBlob (joinedBlob hits)).getD "" else city

theorem cityOf_spec (cities : IterOrder String) (code : String) :
    (∃ h, Shows T code hits h ∧ cleanPlace h.city = cityOf T cities code hits)
      ∨ (∀ h ∈ hits, cityVote T code h = none)
        ∧ cityOf T cities code hits = (hintCityFromBlob (joinedBlob hits)).getD "" := by
  unfold cityOf
  cases hl : lastMax (fun p => p.2.1) ((cityVotes T code hits).iterate cities) with
  | none =>
      refine .inr ⟨fun h hh => ?_, if_pos rfl⟩
      have hnone := (Table.lastMax_iterate_eq_none_iff Prod.fst).mp hl
      by_contra hvote
      obtain ⟨k, hk⟩ := Option.ne_none_iff_exists'.mp hvote
      exact get?_tally_eq_none_iff.mp (hnone k) h hh hk
  | some p =>
      have hgreatest := Table.greatest_of_lastMax Prod.fst hl
      obtain ⟨hwins, hcount⟩ := (greatest_tally_iff countCity_count p.1 p.2).mp hgreatest
      obtain ⟨h, hshown, hcity⟩ := shown_of_counted _ _ hcount
      have hshows : Shows T code hits h := ⟨p.1, hwins, hshown⟩
      refine .inl ⟨h, hshows, ?_⟩
      dsimp only
      rw [Option.map_some, Option.getD_some, if_neg (hcity ▸ hshows.city_ne), hcity]

/-- The answer where a code comes first. -/
theorem mergeHits_some {codes : IterOrder String} (cities : IterOrder String) {p : String × Nat}
    (h : lastMax (·.2) ((codeVotes hits).iterate codes) = some p)
    (hsize : p.1.utf8ByteSize = 2) : mergeHits T codes cities hits
      = some ⟨p.1, (heaviest (·.country) p.1 hits).getD p.1, cityOf T cities p.1 hits,
        (heaviest (·.region) p.1 hits).getD ""⟩ := by
  unfold mergeHits guard
  rw [h]
  show ((if p.1.utf8ByteSize = 2 then pure () else failure : Option Unit) >>= fun _ => _) = _
  rw [if_pos hsize]
  rfl

theorem Wins.size {k : String} (h : Wins codeVote hits k) : k.utf8ByteSize = 2 := by
  obtain ⟨⟨h, -, hk⟩, -⟩ := h
  unfold codeVote at hk
  split at hk
  · next hsize => exact Option.some.inj hk ▸ hsize
  · cases hk

/-- What comes out is among it. -/
theorem mergeHits_outcome (T : CityTables) (codes cities : IterOrder String)
    (hits : List ProviderHit) :
    mergeHits T codes cities hits = none ∧ (∀ h ∈ hits, codeVote h = none)
      ∨ ∃ g, mergeHits T codes cities hits = some g ∧ Outcome T hits g := by
  cases hl : lastMax (·.2) ((codeVotes hits).iterate codes) with
  | none =>
      have hnone := (Table.lastMax_iterate_eq_none_iff id).mp hl
      refine .inl ⟨by unfold mergeHits; rw [hl]; rfl, fun h hh => ?_⟩
      by_contra hvote
      obtain ⟨k, hk⟩ := Option.ne_none_iff_exists'.mp hvote
      exact get?_tally_eq_none_iff.mp (hnone k) h hh hk
  | some p =>
      have hgreatest := Table.greatest_of_lastMax id hl
      obtain ⟨hwins, -⟩ := (greatest_tally_iff codeVote_count p.1 p.2).mp hgreatest
      refine .inr ⟨_, mergeHits_some cities hl hwins.size, hwins, ?_, ?_, ?_⟩
      · exact heaviest_fieldOf _ _ _
      · exact heaviest_fieldOf _ _ _
      · exact cityOf_spec cities p.1

-- ==================================================================== the condition

/-- No two codes draw, and the hits that may give country, region and city
give the same one. -/
structure Decided (T : CityTables) (hits : List ProviderHit) : Prop where
  code : ∀ c c', Wins codeVote hits c → Wins codeVote hits c' → c = c'
  country : ∀ c, Wins codeVote hits c → ∀ h h', Leads (·.country) c hits h →
    Leads (·.country) c hits h' → h.country = h'.country
  region : ∀ c, Wins codeVote hits c → ∀ h h', Leads (·.region) c hits h →
    Leads (·.region) c hits h' → h.region = h'.region
  city : ∀ c, Wins codeVote hits c → ∀ h h', Shows T c hits h → Shows T c hits h' →
    cleanPlace h.city = cleanPlace h'.city

theorem Leads.perm {field : ProviderHit → String} {code : String} {h : ProviderHit}
    (hp : hits'.Perm hits) (hl : Leads field code hits' h) : Leads field code hits h := by
  unfold Leads at hl ⊢
  simp only [hp.mem_iff] at hl
  exact hl

theorem Shows.perm {code : String} {h : ProviderHit} (hp : hits'.Perm hits)
    (hs : Shows T code hits' h) : Shows T code hits h := by
  obtain ⟨k, hwins, hshown⟩ := hs
  refine ⟨k, hwins.perm hp, ?_⟩
  unfold Shown at hshown ⊢
  simp only [(hp.filter _).mem_iff] at hshown
  exact hshown

theorem FieldOf.perm {field : ProviderHit → String} {code last x : String}
    (hp : hits'.Perm hits) (hf : FieldOf field code hits' last x) :
    FieldOf field code hits last x := by
  obtain ⟨h, hl, hx⟩ | ⟨hnone, hx⟩ := hf
  · exact .inl ⟨h, hl.perm hp, hx⟩
  · exact .inr ⟨fun h hh => hnone h (hp.mem_iff.mpr hh), hx⟩

/-- What may come out is the same in every order of the hits. -/
theorem Outcome.perm {g : GeoLoc} (hp : hits'.Perm hits) (ho : Outcome T hits' g) :
    Outcome T hits g where
  code := ho.code.perm hp
  country := ho.country.perm hp
  region := ho.region.perm hp
  city := by
    obtain ⟨h, hs, hcity⟩ | ⟨hnone, hcity⟩ := ho.city
    · exact .inl ⟨h, hs.perm hp, hcity⟩
    · rw [hintCity_perm hp] at hcity
      exact .inr ⟨fun h hh => hnone h (hp.mem_iff.mpr hh), hcity⟩

theorem FieldOf.unique {field : ProviderHit → String} {code last x y : String}
    (hsame : ∀ h h', Leads field code hits h → Leads field code hits h' → field h = field h')
    (hx : FieldOf field code hits last x) (hy : FieldOf field code hits last y) : x = y := by
  obtain ⟨h, hl, hx⟩ | ⟨hnone, hx⟩ := hx
  · obtain ⟨h', hl', hy⟩ | ⟨hnone, -⟩ := hy
    · rw [← hx, ← hy]
      exact hsame h h' hl hl'
    · exact absurd (hnone h hl.1.1 hl.1.2.1) hl.1.2.2
  · obtain ⟨h', hl', -⟩ | ⟨-, hy⟩ := hy
    · exact absurd (hnone h' hl'.1.1 hl'.1.2.1) hl'.1.2.2
    · rw [hx, hy]

theorem Shows.vote {code : String} {h : ProviderHit} (hs : Shows T code hits h) :
    ¬ ∀ h ∈ hits, cityVote T code h = none := by
  intro hnone
  obtain ⟨k, ⟨⟨h, hh, hk⟩, -⟩, -⟩ := hs
  rw [hnone h hh] at hk
  cases hk

/-- Only one thing may come out of decided hits. -/
theorem Decided.unique (hd : Decided T hits) {g g' : GeoLoc} (ho : Outcome T hits g)
    (ho' : Outcome T hits g') : g = g' := by
  have hcode : g.code = g'.code := hd.code _ _ ho.code ho'.code
  obtain ⟨code, country, city, region⟩ := g
  obtain ⟨code', country', city', region'⟩ := g'
  obtain rfl : code = code' := hcode
  obtain rfl : country = country' := ho.country.unique (hd.country _ ho.code) ho'.country
  obtain rfl : region = region' := ho.region.unique (hd.region _ ho.code) ho'.region
  have hcity : city = city' := by
    obtain ⟨h, hs, hcity⟩ | ⟨hnone, hcity⟩ := ho.city
    · obtain ⟨h', hs', hcity'⟩ | ⟨hnone, -⟩ := ho'.city
      · exact (hcity.symm.trans (hd.city _ ho.code h h' hs hs')).trans hcity'
      · exact absurd hnone hs.vote
    · obtain ⟨h', hs', -⟩ | ⟨-, hcity'⟩ := ho'.city
      · exact absurd hnone hs'.vote
      · exact hcity.trans hcity'.symm
  rw [hcity]

-- ================================================================== all that comes out

/-- Every winning code comes first in some order. -/
theorem mergeHits_endingIn {c : String} (hc : Wins codeVote hits c)
    (codes cities : IterOrder String) : mergeHits T (codes.endingIn c) cities hits
      = some ⟨c, (heaviest (·.country) c hits).getD c, cityOf T cities c hits,
        (heaviest (·.region) c hits).getD ""⟩ := by
  obtain ⟨h, hh, hk⟩ := hc.1
  have hsome : ∃ v, (codeVotes hits).get? c = some v := by
    rw [← Option.ne_none_iff_exists']
    exact fun hnone => get?_tally_eq_none_iff.mp hnone h hh hk
  obtain ⟨v, hv⟩ := hsome
  have hgreatest := (greatest_tally_iff codeVote_count c v).mpr
    ⟨hc, (get?_tally hits c).symm.trans hv⟩
  exact mergeHits_some cities (hgreatest.lastMax codes) hc.size

theorem perm_erase_concat {h : ProviderHit} (hh : h ∈ hits) :
    (hits.erase h ++ [h]).Perm hits :=
  (List.perm_append_singleton h _).trans (List.perm_cons_erase hh).symm

/-- A heaviest hit that comes last gives the field. -/
theorem heaviest_concat {field : ProviderHit → String} {code : String} {h : ProviderHit}
    (hl : Leads field code hits h) :
    heaviest field code (hits.erase h ++ [h]) = some (field h) := by
  unfold heaviest
  rw [List.filter_append, List.filter_cons_of_pos
    (p := fun h => decide (h.code = code ∧ field h ≠ "")) (decide_eq_true hl.1.2),
    List.filter_nil, lastMax_concat, Option.map_some]
  intro x hx
  obtain ⟨hmem, hfield⟩ := List.mem_filter.mp hx
  have hfield := of_decide_eq_true hfield
  exact hl.2 x (List.mem_of_mem_erase hmem) hfield.1 hfield.2

/-- A hit that may give the city gives it in some order. -/
theorem exists_cityOf {code : String} {h : ProviderHit} (hs : Shows T code hits h)
    (cities : IterOrder String) : ∃ (hits' : List ProviderHit) (cities' : IterOrder String),
      hits'.Perm hits ∧ cityOf T cities' code hits' = cleanPlace h.city := by
  obtain ⟨k, hwins, hshown⟩ := hs
  obtain ⟨hmem, hheavy⟩ := hshown
  obtain ⟨hh, hvote⟩ := List.mem_filter.mp hmem
  have hfound : ∃ hits' : List ProviderHit, hits'.Perm hits
      ∧ (counted countCity (hits'.filter fun h => cityVote T code h = some k)).map (·.2)
        = some (cleanPlace h.city) := by
    obtain hheavy | hlight := hheavy
    · refine ⟨hits.erase h ++ [h], perm_erase_concat hh, ?_⟩
      rw [List.filter_append,
        List.filter_cons_of_pos (p := fun h => decide (cityVote T code h = some k)) hvote,
        List.filter_nil]
      exact counted_heavy_last _ hheavy
    · refine ⟨h :: hits.erase h, (List.perm_cons_erase hh).symm, ?_⟩
      have hfirst : (h :: hits.erase h).filter (fun h => cityVote T code h = some k)
          = h :: (hits.erase h).filter fun h => cityVote T code h = some k :=
        List.filter_cons_of_pos (p := fun h => decide (cityVote T code h = some k)) hvote
      rw [hfirst]
      apply counted_light_first
      intro h' hh'
      apply hlight
      rw [← hfirst] at hh'
      exact (((List.perm_cons_erase hh).symm.filter _).mem_iff).mp hh'
  obtain ⟨hits', hperm, hform⟩ := hfound
  obtain ⟨e, he, hcity⟩ := Option.map_eq_some_iff.mp hform
  have hgreatest := (greatest_tally_iff countCity_count k e).mpr ⟨hwins.perm hperm.symm, he⟩
  refine ⟨hits', cities.endingIn k, hperm, ?_⟩
  unfold cityOf
  rw [show lastMax (fun p => p.2.1) ((cityVotes T code hits').iterate (cities.endingIn k))
    = some (k, e) from hgreatest.lastMax cities]
  dsimp only
  rw [Option.map_some, Option.getD_some, hcity,
    if_neg (cleanPlace_of_cityVote (of_decide_eq_true hvote))]

-- ======================================================================== any order

/-- The answer is the same for every order of the hits and of both maps. -/
def OrderFree (T : CityTables) (hits : List ProviderHit) : Prop :=
  ∀ hits' : List ProviderHit, hits'.Perm hits → ∀ codes cities codes' cities',
    locate T codes cities hits = locate T codes' cities' hits'

/-- An answer that depends on no order is that of every order of the hinted
hits. -/
theorem OrderFree.merge (h : OrderFree T hits) {m m' : List ProviderHit}
    (hm : m.Perm (applyOrgCityHints T hits)) (hm' : m'.Perm (applyOrgCityHints T hits))
    (codes cities codes' cities' : IterOrder String) :
    mergeHits T codes cities m = mergeHits T codes' cities' m' := by
  obtain ⟨l, hl, hlm⟩ := exists_perm_hinted hm
  obtain ⟨l', hl', hlm'⟩ := exists_perm_hinted hm'
  have hfirst := h l hl codes cities codes cities
  have hsecond := h l' hl' codes cities codes' cities'
  unfold locate at hfirst hsecond
  rw [hlm] at hfirst
  rw [hlm'] at hsecond
  exact hfirst.symm.trans hsecond

theorem OrderFree.code (h : OrderFree T hits) {c c' : String}
    (hc : Wins codeVote (applyOrgCityHints T hits) c)
    (hc' : Wins codeVote (applyOrgCityHints T hits) c') : c = c' := by
  have hsame := h.merge (List.Perm.refl _) (List.Perm.refl _) (.endingIn .listed c) .listed
    (.endingIn .listed c') .listed
  rw [mergeHits_endingIn hc, mergeHits_endingIn hc'] at hsame
  exact congrArg GeoLoc.code (Option.some.inj hsame)

/-- Two hits that may give the country or the region give the same. -/
theorem OrderFree.field (h : OrderFree T hits) {c : String} {field : ProviderHit → String}
    (read : GeoLoc → String) (last : String)
    (hread : ∀ m cities, Wins codeVote m c → (mergeHits T (.endingIn .listed c) cities m).map read
      = some ((heaviest field c m).getD last))
    (hc : Wins codeVote (applyOrgCityHints T hits) c) {a a' : ProviderHit}
    (ha : Leads field c (applyOrgCityHints T hits) a)
    (ha' : Leads field c (applyOrgCityHints T hits) a') : field a = field a' := by
  have hp := perm_erase_concat ha.1.1
  have hp' := perm_erase_concat ha'.1.1
  have hsame := congrArg (Option.map read) (h.merge hp hp' (.endingIn .listed c) .listed
    (.endingIn .listed c) .listed)
  rw [hread _ _ (hc.perm hp.symm), hread _ _ (hc.perm hp'.symm), heaviest_concat ha,
    heaviest_concat ha'] at hsame
  exact Option.some.inj hsame

theorem OrderFree.city (h : OrderFree T hits) {c : String}
    (hc : Wins codeVote (applyOrgCityHints T hits) c) {a a' : ProviderHit}
    (ha : Shows T c (applyOrgCityHints T hits) a) (ha' : Shows T c (applyOrgCityHints T hits) a') :
    cleanPlace a.city = cleanPlace a'.city := by
  obtain ⟨m, cities, hp, hcity⟩ := exists_cityOf ha .listed
  obtain ⟨m', cities', hp', hcity'⟩ := exists_cityOf ha' .listed
  have hsame := h.merge hp hp' (.endingIn .listed c) cities (.endingIn .listed c) cities'
  rw [mergeHits_endingIn (hc.perm hp.symm), mergeHits_endingIn (hc.perm hp'.symm)] at hsame
  exact (hcity.symm.trans (congrArg GeoLoc.city (Option.some.inj hsame))).trans hcity'

/-- **Order**: the answer depends on no order exactly when the hinted hits
are decided. -/
theorem order_free_iff (T : CityTables) (hits : List ProviderHit) :
    OrderFree T hits ↔ Decided T (applyOrgCityHints T hits) := by
  constructor
  · intro h
    refine ⟨fun c c' hc hc' => h.code hc hc', ?_, ?_, ?_⟩
    · intro c hc a a' ha ha'
      refine h.field GeoLoc.country c (fun m cities hm => ?_) hc ha ha'
      rw [mergeHits_endingIn hm]
      rfl
    · intro c hc a a' ha ha'
      refine h.field GeoLoc.region "" (fun m cities hm => ?_) hc ha ha'
      rw [mergeHits_endingIn hm]
      rfl
    · exact fun c hc a a' ha ha' => h.city hc ha ha'
  · intro hd hits' hp codes cities codes' cities'
    have hperm := applyOrgCityHints_perm (T := T) hp
    unfold locate
    obtain ⟨hnone, hvote⟩ | ⟨g, hg, ho⟩ :=
      mergeHits_outcome T codes cities (applyOrgCityHints T hits)
    · obtain ⟨hnone', -⟩ | ⟨g', -, ho'⟩ :=
        mergeHits_outcome T codes' cities' (applyOrgCityHints T hits')
      · rw [hnone, hnone']
      · obtain ⟨h, hh, hk⟩ := (ho'.code.perm hperm).1
        rw [hvote h hh] at hk
        cases hk
    · obtain ⟨-, hvote'⟩ | ⟨g', hg', ho'⟩ :=
        mergeHits_outcome T codes' cities' (applyOrgCityHints T hits')
      · obtain ⟨h, hh, hk⟩ := ho.code.1
        rw [hvote' h (hperm.mem_iff.mpr hh)] at hk
        cases hk
      · rw [hg, hg', hd.unique ho (ho'.perm hperm)]

-- ============================================================================ a draw

/-- The tables of Unicode, on ASCII. -/
def asciiTables : CityTables := ⟨Text.lower, Char.isAlphanum⟩

/-- A provider that names a country and nothing else. -/
def countryHit (weight : UInt8) (code country : String) : ProviderHit :=
  ⟨weight, code, country, "", "", ""⟩

/-- Two providers of weight two name two countries. -/
def drawnHits : List ProviderHit := [countryHit 2 "CA" "Canada", countryHit 2 "US" "United States"]

/-- The map's iteration decides between the two countries. -/
theorem drawn_country : ¬ OrderFree asciiTables drawnHits := by
  have hca : Wins codeVote (applyOrgCityHints asciiTables drawnHits) "CA" := by
    decide +kernel
  have hus : Wins codeVote (applyOrgCityHints asciiTables drawnHits) "US" := by
    decide +kernel
  intro h
  exact absurd (h.code hca hus) (by decide)

end Ruletka.Geo
