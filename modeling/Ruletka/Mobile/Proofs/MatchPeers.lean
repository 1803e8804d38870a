/-
One tile for each person.

The rows of a message are of different people, and so are the rows the phone
shows. In their union a listed row replaces the first shown row of its
person. A tile is doubled exactly when a listed row is of the same person as
both of the first two shown rows, and no other row moves one of them away.
-/
import Mathlib.Data.List.Basic
import Ruletka.Mobile.MatchPeers

namespace Ruletka.Mobile

variable {T : CaseMaps}

-- ========================================================================= sameness

theorem peerIdsLooseMatch_iff (a b : String) : peerIdsLooseMatch T a b = true
    ↔ ¬ (normalizePeerIdKey T a = [] ∨ normalizePeerIdKey T b = [])
      ∧ (normalizePeerIdKey T a = normalizePeerIdKey T b
        ∨ shortIdLength ≤ (normalizePeerIdKey T a).length
          ∧ shortIdLength ≤ (normalizePeerIdKey T b).length
          ∧ (normalizePeerIdKey T a).take shortIdLength
            = (normalizePeerIdKey T b).take shortIdLength
        ∨ shortIdLength ≤ (normalizePeerIdKey T a).length
          ∧ normalizePeerIdKey T a <:+: normalizePeerIdKey T b
        ∨ shortIdLength ≤ (normalizePeerIdKey T b).length
          ∧ normalizePeerIdKey T b <:+: normalizePeerIdKey T a) := by
  unfold peerIdsLooseMatch
  dsimp only
  split
  · next hnone => simp [hnone]
  · next hsome => rw [decide_eq_true_iff, and_iff_right hsome]

theorem peerIdsLooseMatch_comm (a b : String) :
    peerIdsLooseMatch T a b = peerIdsLooseMatch T b a := by
  rw [Bool.eq_iff_iff, peerIdsLooseMatch_iff, peerIdsLooseMatch_iff]
  constructor
  · grind
  · grind

theorem normalizePeerIdKey_trim (s : String) :
    normalizePeerIdKey T (trim s) = normalizePeerIdKey T s := by
  unfold normalizePeerIdKey trim
  rw [Text.trimBy_trimBy]

/-- Blanks around an id make no difference. -/
theorem peerIdsLooseMatch_trim (a b : String) :
    peerIdsLooseMatch T (trim a) b = peerIdsLooseMatch T a b := by
  unfold peerIdsLooseMatch
  rw [normalizePeerIdKey_trim]

theorem sameExtraPerson_comm (a b : PeerPick) :
    sameExtraPerson T a b = sameExtraPerson T b a := by
  unfold sameExtraPerson
  rw [Bool.eq_iff_iff]
  simp only [decide_eq_true_eq, peerIdsLooseMatch_comm (trim a.peerId)]
  constructor
  · grind
  · grind

/-- No two rows are of one person. -/
def Distinct (T : CaseMaps) (rows : List PeerPick) : Prop :=
  rows.Pairwise fun a b => sameExtraPerson T a b = false

instance (rows : List PeerPick) : Decidable (Distinct T rows) :=
  inferInstanceAs (Decidable (rows.Pairwise _))

/-- No row is the first partner's. -/
def NoPrimary (T : CaseMaps) (primary : String) (rows : List PeerPick) : Prop :=
  ∀ p ∈ rows, peerIdsLooseMatch T p.peerId primary = false

/-- An id that is not told apart from the first partner's is close to no
other spelling of it. -/
theorem loose_of_not_isPrimary {primary id : String} (h : isPrimary T (trim primary) id = false) :
    peerIdsLooseMatch T id primary = false := by
  rw [peerIdsLooseMatch_comm, ← peerIdsLooseMatch_trim, peerIdsLooseMatch_comm]
  unfold isPrimary at h
  by_cases hnone : trim primary = ""
  · have hkey : normalizePeerIdKey T "" = [] := if_pos T.lower_empty
    rw [hnone, ← Bool.not_eq_true, peerIdsLooseMatch_iff]
    exact fun hloose => hloose.1 (.inr hkey)
  · have hneither : ¬ (id = trim primary ∨ peerIdsLooseMatch T id (trim primary) = true) :=
      fun hor => decide_eq_false_iff_not.mp h ⟨hnone, hor⟩
    exact Bool.eq_false_of_not_eq_true fun hloose => hneither (.inr hloose)

theorem loose_of_isExtra {primary : String} {p : PeerPick}
    (h : isExtra T (trim primary) p = true) :
    peerIdsLooseMatch T p.peerId primary = false := by
  rw [← peerIdsLooseMatch_trim]
  exact loose_of_not_isPrimary (Bool.eq_false_of_not_eq_true (of_decide_eq_true h).2)

-- ================================================================ the listed extras

/-- The loop keeps the rows apart, and takes two at most. -/
theorem pickExtras_spec {primary : String} (rows : List PeerPick) :
    ∀ out : List PeerPick, Distinct T out → NoPrimary T primary out →
      out.length < maxExtraPeers →
      Distinct T (pickExtras T (trim primary) out rows)
        ∧ NoPrimary T primary (pickExtras T (trim primary) out rows)
        ∧ (pickExtras T (trim primary) out rows).length ≤ maxExtraPeers := by
  induction rows with
  | nil =>
      intro out hdistinct hprimary hlength
      exact ⟨hdistinct, hprimary, hlength.le⟩
  | cons p rest ih =>
      intro out hdistinct hprimary hlength
      unfold pickExtras
      split
      · exact ih out hdistinct hprimary hlength
      split
      · exact ih out hdistinct hprimary hlength
      next hother =>
      split
      · exact ih out hdistinct hprimary hlength
      next hnew =>
      have hdistinct' : Distinct T (out ++ [p]) := by
        refine List.pairwise_append.mpr ⟨hdistinct, List.pairwise_singleton _ _, ?_⟩
        intro a ha b hb
        rw [List.mem_singleton.mp hb]
        exact Bool.eq_false_of_not_eq_true fun hsame => hnew (List.any_eq_true.mpr ⟨a, ha, hsame⟩)
      have hprimary' : NoPrimary T primary (out ++ [p]) := by
        intro a ha
        obtain ha | ha := List.mem_append.mp ha
        · exact hprimary a ha
        · rw [List.mem_singleton.mp ha]
          exact loose_of_not_isPrimary (Bool.eq_false_of_not_eq_true hother)
      have hlength' : (out ++ [p]).length = out.length + 1 := List.length_append
      split
      · exact ⟨hdistinct', hprimary', by omega⟩
      · exact ih _ hdistinct' hprimary' (by omega)

theorem extraPeersFromMatch_spec (msg : ServerMatched) (primary : String) :
    Distinct T (extraPeersFromMatch T msg primary)
      ∧ NoPrimary T primary (extraPeersFromMatch T msg primary)
      ∧ (extraPeersFromMatch T msg primary).length ≤ maxExtraPeers :=
  pickExtras_spec _ [] .nil (fun _ h => absurd h List.not_mem_nil) Nat.zero_lt_two

-- ======================================================================== the union

theorem placeExtra_nil (replace : Bool) (p : PeerPick) : placeExtra T replace [] p = [p] := rfl

theorem placeExtra_cons (replace : Bool) (q : PeerPick) (out : List PeerPick) (p : PeerPick) :
    placeExtra T replace (q :: out) p
      = if sameExtraPerson T q p then (if replace then p else q) :: out
        else q :: placeExtra T replace out p := by
  unfold placeExtra
  rw [List.findIdx?_cons]
  by_cases hsame : sameExtraPerson T q p = true
  · rw [if_pos hsame, if_pos hsame]
    cases replace
    · rfl
    · rfl
  · rw [if_neg hsame, if_neg hsame]
    cases out.findIdx? (sameExtraPerson T · p) with
    | none => rfl
    | some i =>
        cases replace
        · rfl
        · rfl

theorem placeExtra_of_new {replace : Bool} {out : List PeerPick} {p : PeerPick}
    (h : ∀ q ∈ out, sameExtraPerson T q p = false) : placeExtra T replace out p = out ++ [p] := by
  unfold placeExtra
  rw [List.findIdx?_eq_none_iff.mpr h]

theorem foldl_addExtra (primary : String) (replace : Bool) (rows : List PeerPick) :
    ∀ out : List PeerPick, rows.foldl (addExtra T primary replace) out
      = (rows.filter (isExtra T primary)).foldl (placeExtra T replace) out := by
  intro out
  rw [List.foldl_filter]
  rfl

/-- Rows of different people all find a place. -/
theorem foldl_placeExtra_distinct (replace : Bool) (rows : List PeerPick) :
    ∀ out : List PeerPick, Distinct T (out ++ rows) →
      rows.foldl (placeExtra T replace) out = out ++ rows := by
  induction rows with
  | nil =>
      intro out _
      exact (List.append_nil out).symm
  | cons p rest ih =>
      intro out h
      have hnew : ∀ q ∈ out, sameExtraPerson T q p = false :=
        fun q hq => (List.pairwise_append.mp h).2.2 q hq p List.mem_cons_self
      rw [List.foldl_cons, placeExtra_of_new hnew, ih, List.append_assoc, List.singleton_append]
      rw [List.append_assoc]
      exact h

/-- A listed row is of one person with both of the first two shown rows: the
first listed row, while the other does not replace the second shown row, or
the other, while the first replaces neither. -/
def Doubled (T : CaseMaps) : List PeerPick → List PeerPick → Prop
  | q₁ :: q₂ :: _, p₁ :: more =>
      sameExtraPerson T q₁ p₁ = true ∧ sameExtraPerson T q₂ p₁ = true
          ∧ (∀ p₂ ∈ more, sameExtraPerson T q₂ p₂ = false)
        ∨ sameExtraPerson T q₁ p₁ = false ∧ sameExtraPerson T q₂ p₁ = false
          ∧ ∃ p₂ ∈ more, sameExtraPerson T q₁ p₂ = true ∧ sameExtraPerson T q₂ p₂ = true
  | _, _ => False

instance : (shown listed : List PeerPick) → Decidable (Doubled T shown listed)
  | _ :: _ :: _, _ :: _ => inferInstanceAs (Decidable (_ ∨ _))
  | [], _ => .isFalse id
  | [_], _ => .isFalse id
  | _ :: _ :: _, [] => .isFalse id

theorem not_doubled_nil (shown : List PeerPick) : ¬ Doubled T shown [] := by
  cases shown with
  | nil => exact id
  | cons q₁ rest =>
      cases rest with
      | nil => exact id
      | cons q₂ rest => exact id

theorem placeExtra_two (q₁ q₂ : PeerPick) (rest : List PeerPick) (p : PeerPick) :
    placeExtra T true (q₁ :: q₂ :: rest) p
      = if sameExtraPerson T q₁ p then p :: q₂ :: rest
        else if sameExtraPerson T q₂ p then q₁ :: p :: rest
        else q₁ :: q₂ :: placeExtra T true rest p := by
  rw [placeExtra_cons, placeExtra_cons]
  split
  · rfl
  split
  · rfl
  · rfl

theorem distinct_two (a b : PeerPick) (rest : List PeerPick) :
    Distinct T ((a :: b :: rest).take maxExtraPeers) ↔ sameExtraPerson T a b = false := by
  show ([a, b].Pairwise fun a b => sameExtraPerson T a b = false) ↔ _
  rw [List.pairwise_pair]

/-- Two shown rows and a listed one. -/
theorem distinct_place_one {q₁ q₂ p : PeerPick} {rest : List PeerPick}
    (hq : sameExtraPerson T q₁ q₂ = false) :
    Distinct T ((placeExtra T true (q₁ :: q₂ :: rest) p).take maxExtraPeers)
      ↔ ¬ (sameExtraPerson T q₁ p = true ∧ sameExtraPerson T q₂ p = true) := by
  rw [placeExtra_two]
  by_cases h₁ : sameExtraPerson T q₁ p = true
  · rw [if_pos h₁, distinct_two, sameExtraPerson_comm, ← Bool.not_eq_true]
    exact not_congr (and_iff_right h₁).symm
  · rw [if_neg h₁]
    refine iff_of_true ?_ fun h => h₁ h.1
    by_cases h₂ : sameExtraPerson T q₂ p = true
    · rw [if_pos h₂, distinct_two]
      exact Bool.eq_false_of_not_eq_true h₁
    · rw [if_neg h₂, distinct_two]
      exact hq

/-- One shown row and the listed ones. -/
theorem distinct_place_all {q : PeerPick} {p₁ : PeerPick} {more : List PeerPick}
    (hlisted : Distinct T (p₁ :: more)) (htwo : (p₁ :: more).length ≤ maxExtraPeers) :
    Distinct T (((p₁ :: more).foldl (placeExtra T true) [q]).take maxExtraPeers) := by
  rw [List.foldl_cons, placeExtra_cons]
  by_cases h₁ : sameExtraPerson T q p₁ = true
  · rw [if_pos h₁, if_pos rfl, foldl_placeExtra_distinct true more [p₁] hlisted]
    exact hlisted.sublist (List.take_sublist _ _)
  rw [if_neg h₁, placeExtra_nil]
  match more, htwo with
  | [], _ => exact (distinct_two q p₁ []).mpr (Bool.eq_false_of_not_eq_true h₁)
  | [p₂], _ =>
      have h₁' := Bool.eq_false_of_not_eq_true h₁
      have h₁₂ : sameExtraPerson T p₁ p₂ = false :=
        List.rel_of_pairwise_cons hlisted List.mem_cons_self
      rw [List.foldl_cons, List.foldl_nil, distinct_place_one h₁', h₁₂]
      exact fun h => Bool.false_ne_true h.2

/-- Two shown rows and two listed ones. -/
theorem distinct_place_both {q₁ q₂ p₁ p₂ : PeerPick} {rest : List PeerPick}
    (hq : sameExtraPerson T q₁ q₂ = false) (hp : sameExtraPerson T p₁ p₂ = false) :
    Distinct T
        ((placeExtra T true (placeExtra T true (q₁ :: q₂ :: rest) p₁) p₂).take maxExtraPeers)
      ↔ ¬ Doubled T (q₁ :: q₂ :: rest) [p₁, p₂] := by
  unfold Doubled
  simp only [List.mem_singleton, forall_eq, exists_eq_left]
  rw [placeExtra_two]
  by_cases h₁ : sameExtraPerson T q₁ p₁ = true
  · -- the first listed row stands where the first shown one was
    rw [if_pos h₁, placeExtra_two, if_neg (Bool.not_eq_true _ ▸ hp)]
    by_cases h₂ : sameExtraPerson T q₂ p₂ = true
    · rw [if_pos h₂, distinct_two]
      simp [hp, h₁, h₂]
    · rw [if_neg h₂, distinct_two, sameExtraPerson_comm]
      simp [h₁, Bool.eq_false_of_not_eq_true h₂]
  rw [if_neg h₁]
  by_cases h₂ : sameExtraPerson T q₂ p₁ = true
  · -- it stands where the second was
    have h₁' := Bool.eq_false_of_not_eq_true h₁
    rw [if_pos h₂, distinct_place_one h₁', hp, h₁', h₂]
    simp
  · -- it stands behind both, and only the other may double
    have h₁' := Bool.eq_false_of_not_eq_true h₁
    have h₂' := Bool.eq_false_of_not_eq_true h₂
    rw [if_neg h₂, distinct_place_one hq, h₁', h₂']
    simp

/-- The first two of the rows that stay. -/
theorem distinct_union_iff {shown listed : List PeerPick} (hshown : Distinct T shown)
    (hlisted : Distinct T listed) (htwo : listed.length ≤ maxExtraPeers) :
    Distinct T ((listed.foldl (placeExtra T true) shown).take maxExtraPeers)
      ↔ ¬ Doubled T shown listed := by
  match listed, htwo with
  | [], _ => exact iff_of_true (hshown.sublist (List.take_sublist _ _)) (not_doubled_nil shown)
  | p₁ :: more, htwo =>
  match shown with
  | [] =>
      have hall : (p₁ :: more).foldl (placeExtra T true) [] = p₁ :: more :=
        foldl_placeExtra_distinct true _ [] hlisted
      rw [hall]
      exact iff_of_true (hlisted.sublist (List.take_sublist _ _)) id
  | [q] => exact iff_of_true (distinct_place_all hlisted htwo) id
  | q₁ :: q₂ :: rest =>
      have hq : sameExtraPerson T q₁ q₂ = false :=
        List.rel_of_pairwise_cons hshown List.mem_cons_self
      match more, htwo with
      | [], _ =>
          rw [List.foldl_cons, List.foldl_nil, distinct_place_one hq]
          simp [Doubled]
      | [p₂], _ =>
          have hp := List.rel_of_pairwise_cons hlisted List.mem_cons_self
          rw [List.foldl_cons, List.foldl_cons, List.foldl_nil]
          exact distinct_place_both hq hp

theorem mem_placeExtra {replace : Bool} {out : List PeerPick} {p q : PeerPick}
    (h : q ∈ placeExtra T replace out p) : q ∈ out ∨ q = p := by
  unfold placeExtra at h
  split at h
  · split at h
    · exact (List.mem_or_eq_of_mem_set h)
    · exact .inl h
  · obtain h | h := List.mem_append.mp h
    · exact .inl h
    · exact .inr (List.mem_singleton.mp h)

theorem mem_foldl_placeExtra {replace : Bool} {rows : List PeerPick} {q : PeerPick} :
    ∀ {out : List PeerPick}, q ∈ rows.foldl (placeExtra T replace) out → q ∈ out ∨ q ∈ rows := by
  induction rows with
  | nil =>
      intro out h
      exact .inl h
  | cons p rest ih =>
      intro out h
      obtain h | h := ih h
      · obtain h | rfl := mem_placeExtra h
        · exact .inl h
        · exact .inr List.mem_cons_self
      · exact .inr (List.mem_cons_of_mem _ h)

-- ======================================================================= the result

/-- Two tiles at most, of different people, none of them the first partner. -/
structure OneTile (T : CaseMaps) (primary : String) (rows : List PeerPick) : Prop where
  size : rows.length ≤ maxExtraPeers
  primary : NoPrimary T primary rows
  distinct : Distinct T rows

theorem OneTile.nil (primary : String) : OneTile T primary [] :=
  ⟨Nat.zero_le _, fun _ h => absurd h List.not_mem_nil, .nil⟩

theorem OneTile.take {primary : String} {rows : List PeerPick} (hprimary : NoPrimary T primary rows)
    (hdistinct : Distinct T rows) : OneTile T primary (rows.take maxExtraPeers) :=
  ⟨List.length_take_le _ _, fun p hp => hprimary p (List.mem_of_mem_take hp),
    hdistinct.sublist (List.take_sublist _ _)⟩

theorem noPrimary_filter (primary : String) (rows : List PeerPick) :
    NoPrimary T primary (rows.filter (isExtra T (trim primary))) :=
  fun _ hp => loose_of_isExtra (List.mem_filter.mp hp).2

/-- A message without extras gives nobody two tiles. -/
theorem oneTile_of_nil (o : OmitOpts) (hprev : Distinct T (o.prevExtras.getD [])) :
    OneTile T o.primaryId (extrasAfterOmitPrimary T [] o) := by
  unfold extrasAfterOmitPrimary
  dsimp only
  rw [if_neg (not_not_intro rfl)]
  split
  · exact .nil _
  split
  · exact .nil _
  split
  · exact .nil _
  split
  · exact .take (noPrimary_filter _ _) (hprev.filter _)
  split
  · exact .nil _
  split
  · exact .nil _
  next hother =>
  refine ⟨Nat.le_succ 1, ?_, List.pairwise_singleton _ _⟩
  intro p hp
  rw [List.mem_singleton.mp hp]
  exact loose_of_not_isPrimary (Bool.eq_false_of_not_eq_true hother)

/-- The rows that are joined: those shown and those listed, without the first
partner's. -/
def joined (T : CaseMaps) (o : OmitOpts) (rows : List PeerPick) : List PeerPick :=
  rows.filter (isExtra T (trim o.primaryId))

/-- The union of different people with different people. -/
theorem union_eq {extras : List PeerPick} {o : OmitOpts} (hsome : extras ≠ [])
    (hmatched : o.wasMatched = true) (hkeep : o.keepListed3rd ≠ some false)
    (hprev : Distinct T (o.prevExtras.getD [])) :
    extrasAfterOmitPrimary T extras o = ((joined T o extras).foldl (placeExtra T true)
      (joined T o (o.prevExtras.getD []))).take maxExtraPeers := by
  have hshown : (joined T o (o.prevExtras.getD [])).foldl (placeExtra T false) []
      = joined T o (o.prevExtras.getD []) :=
    foldl_placeExtra_distinct false _ [] (hprev.filter _)
  unfold extrasAfterOmitPrimary
  dsimp only
  rw [if_pos hsome, if_neg (by simp [hmatched, hkeep]), foldl_addExtra, foldl_addExtra]
  exact congrArg (fun shown => List.take maxExtraPeers
    ((joined T o extras).foldl (placeExtra T true) shown)) hshown

/-- **Tiles**: nobody gets two tiles, unless a listed row is of one person
with both of the first two shown rows. -/
theorem one_tile_iff (msg : ServerMatched) (o : OmitOpts)
    (hprev : Distinct T (o.prevExtras.getD [])) :
    OneTile T o.primaryId
        (extrasAfterOmitPrimary T (extraPeersFromMatch T msg o.primaryId) o)
      ↔ ¬ (o.wasMatched = true ∧ o.keepListed3rd ≠ some false
        ∧ Doubled T (joined T o (o.prevExtras.getD []))
          (joined T o (extraPeersFromMatch T msg o.primaryId))) := by
  obtain ⟨hdistinct, hprimary, hsize⟩ := @extraPeersFromMatch_spec T msg o.primaryId
  generalize extraPeersFromMatch T msg o.primaryId = extras at *
  by_cases hsome : extras = []
  · subst hsome
    exact iff_of_true (oneTile_of_nil o hprev) fun h => not_doubled_nil _ h.2.2
  by_cases hplain : o.wasMatched = true ∧ o.keepListed3rd ≠ some false
  · rw [union_eq hsome hplain.1 hplain.2 hprev, ← and_assoc, and_iff_right hplain]
    have hlisted : Distinct T (joined T o extras) := hdistinct.filter _
    have hunion := distinct_union_iff (hprev.filter (isExtra T (trim o.primaryId))) hlisted
      ((List.length_filter_le _ _).trans hsize)
    refine Iff.trans ⟨fun h => h.distinct, fun h => ⟨List.length_take_le _ _, ?_, h⟩⟩ hunion
    intro p hp
    obtain hp | hp := mem_foldl_placeExtra (List.mem_of_mem_take hp)
    · exact noPrimary_filter _ _ p hp
    · exact noPrimary_filter _ _ p hp
  · have hslice : extrasAfterOmitPrimary T extras o = extras.take maxExtraPeers := by
      unfold extrasAfterOmitPrimary
      dsimp only
      rw [if_pos hsome, if_pos]
      cases hmatched : o.wasMatched with
      | false => rfl
      | true => simpa [hmatched] using hplain
    rw [hslice, ← and_assoc]
    exact iff_of_true (.take hprimary hdistinct) fun h => hplain h.1

-- ============================================================ a person on two tiles

/-- The case maps, on ASCII. -/
def asciiMaps : CaseMaps := ⟨Text.lower, Text.upper, rfl⟩

/-- A phone that shows a row known by its peer id alone and a row of a user. -/
def shownTwo : OmitOpts where
  wasMatched := true
  prevSecondary := "aaaaaaaa"
  prevExtras := some [placeholderExtra "aaaaaaaa", ⟨"bbbbbbbb", "laptop", "LAPTOP22"⟩]
  listedIds := ["aaaaaaaa"]
  primaryId := "cccccccc"
  keepListed3rd := some true

/-- A match that lists a user under the first of the two peer ids. -/
def listsUser (user : String) : ServerMatched :=
  ⟨some [some { peer_id := some "aaaaaaaa", user_id := some user }]⟩

/-- The user of the second row is listed under the peer id of the first. -/
theorem one_person_two_tiles : Distinct asciiMaps (shownTwo.prevExtras.getD [])
    ∧ ¬ OneTile asciiMaps shownTwo.primaryId (extrasAfterOmitPrimary asciiMaps
      (extraPeersFromMatch asciiMaps (listsUser "laptop") shownTwo.primaryId) shownTwo) := by
  have hrows : ¬ Distinct asciiMaps (extrasAfterOmitPrimary asciiMaps
      (extraPeersFromMatch asciiMaps (listsUser "laptop") shownTwo.primaryId) shownTwo) := by
    decide +kernel
  exact ⟨by decide +kernel, fun h => hrows h.distinct⟩

/-- Somebody else is listed under it. -/
theorem one_tile_phone : OneTile asciiMaps shownTwo.primaryId (extrasAfterOmitPrimary asciiMaps
    (extraPeersFromMatch asciiMaps (listsUser "phone") shownTwo.primaryId) shownTwo) := by
  have hdistinct : Distinct asciiMaps (shownTwo.prevExtras.getD []) := by decide +kernel
  exact (one_tile_iff _ shownTwo hdistinct).mpr (by decide +kernel)

end Ruletka.Mobile
