/-
Keyed entries of which the newest are kept.

A log is a list of entries; of two entries under one key the later one
counts. Its contents are listed by a rank that tells all keys apart, oldest
first, and only the newest `n` of them stay. What stays is decided by the
rank alone: an entry stays when fewer than `n` others are newer.
-/
import Ruletka.Lib.Table
import Mathlib.Data.Finset.Sort

namespace Ruletka.Recent

variable {K V R : Type} [LinearOrder K] [LinearOrder R]

/-- The last entry under every key. -/
def lastWins (key : V → K) (l : List V) : Table K V :=
  l.foldl (fun t v => t.set (key v) v) ∅

/-- The values in the order of the keys. -/
def values (t : Table K V) : List V := (t.keys.sort (· ≤ ·)).filterMap t.get?

/-- The values, oldest first. -/
def ranked (rank : V → R) (t : Table K V) : List V :=
  (values t).mergeSort fun v w => decide (rank v ≤ rank w)

/-- Drop from the front what exceeds `n`. -/
def lastN (n : Nat) (l : List V) : List V := l.drop (l.length - n)

/-- The newest `n` entries of a log. -/
def newest (key : V → K) (rank : V → R) (n : Nat) (l : List V) : List V :=
  lastN n (ranked rank (lastWins key l))

variable {key : V → K} {rank : V → R}

-- ===================================================================== the entries

/-- The entry a log holds under a key. -/
def held (key : V → K) (l : List V) (k : K) : Option V := (lastWins key l).get? k

theorem held_append_singleton (l : List V) (v : V) (k : K) :
    held key (l ++ [v]) k = if k = key v then some v else held key l k := by
  unfold held lastWins
  rw [List.foldl_append, List.foldl_cons, List.foldl_nil, Table.get?_set]

theorem held_nil (k : K) : held key ([] : List V) k = none := Table.get?_empty k

theorem held_append (l m : List V) (k : K) :
    held key (l ++ m) k = (held key m k <|> held key l k) := by
  induction m using List.reverseRecOn with
  | nil =>
      rw [List.append_nil, held_nil]
      rfl
  | append_singleton m v ih =>
      rw [← List.append_assoc, held_append_singleton, held_append_singleton, ih]
      split
      · rfl
      · rfl

/-- An entry is held under its own key, and comes from the log. -/
theorem held_some {l : List V} {k : K} {v : V} (h : held key l k = some v) :
    key v = k ∧ v ∈ l := by
  induction l using List.reverseRecOn with
  | nil =>
      rw [held_nil] at h
      cases h
  | append_singleton l w ih =>
      rw [held_append_singleton] at h
      split at h
      case isTrue hk =>
        cases h
        exact ⟨hk.symm, List.mem_append_right _ List.mem_cons_self⟩
      case isFalse =>
        obtain ⟨hkey, hmem⟩ := ih h
        exact ⟨hkey, List.mem_append_left _ hmem⟩

theorem held_isSome {l : List V} {v : V} (hv : v ∈ l) : ∃ w, held key l (key v) = some w := by
  induction l using List.reverseRecOn with
  | nil => cases hv
  | append_singleton l w ih =>
      rw [held_append_singleton]
      split
      case isTrue => exact ⟨w, rfl⟩
      case isFalse hk =>
        rcases List.mem_append.mp hv with hv | hv
        · exact ih hv
        · rw [List.mem_singleton] at hv
          exact absurd (congrArg key hv) hk

theorem mem_ranked {l : List V} {v : V} :
    v ∈ ranked rank (lastWins key l) ↔ held key l (key v) = some v := by
  unfold ranked values
  rw [List.mem_mergeSort, List.mem_filterMap]
  constructor
  · rintro ⟨k, -, hk⟩
    rwa [(held_some hk).1]
  · intro h
    refine ⟨key v, ?_, h⟩
    rw [Finset.mem_sort, Table.mem_keys_iff]
    exact Option.isSome_iff_exists.mpr ⟨v, h⟩

-- ======================================================================= the order

/-- Entries with different keys differ in rank. -/
def Separates (key : V → K) (rank : V → R) : Prop := ∀ v w, rank v = rank w → key v = key w

theorem nodup_values (l : List V) : (values (lastWins key l)).Nodup := by
  unfold values
  refine List.Nodup.filterMap ?_ (Finset.sort_nodup _ _)
  intro k k' v hk hk'
  have held : held key l k = some v := hk
  have held' : Recent.held key l k' = some v := hk'
  rw [← (held_some held).1, ← (held_some held').1]

theorem sorted_mergeSort (l : List V) :
    (l.mergeSort fun v w => decide (rank v ≤ rank w)).Pairwise fun v w => rank v ≤ rank w := by
  have h := @List.pairwise_mergeSort _ (fun v w => decide (rank v ≤ rank w))
    (fun a b c hab hbc => by
      rw [decide_eq_true_eq] at hab hbc ⊢
      exact hab.trans hbc)
    (fun a b => by
      rw [Bool.or_eq_true, decide_eq_true_eq, decide_eq_true_eq]
      exact le_total _ _) l
  exact h.imp fun h => by rwa [decide_eq_true_eq] at h

/-- Strictly older first. -/
theorem sorted_ranked (hs : Separates key rank) (l : List V) :
    (ranked rank (lastWins key l)).Pairwise fun v w => rank v < rank w := by
  have hle : (ranked rank (lastWins key l)).Pairwise fun v w => rank v ≤ rank w :=
    sorted_mergeSort (values (lastWins key l))
  have hnd : (ranked rank (lastWins key l)).Nodup :=
    (List.mergeSort_perm _ _).nodup_iff.mpr (nodup_values l)
  refine (hle.and hnd).imp_of_mem ?_
  rintro v w hv hw ⟨hvw, hne⟩
  refine lt_of_le_of_ne hvw fun heq => hne ?_
  have hk := hs v w heq
  have hv' := mem_ranked.mp hv
  rw [hk, mem_ranked.mp hw] at hv'
  exact (Option.some.inj hv').symm

/-- How many entries are newer. -/
def newer (key : V → K) (rank : V → R) (l : List V) (v : V) : Nat :=
  ((ranked rank (lastWins key l)).filter fun w => decide (rank v < rank w)).length

theorem newer_le_length {l : List V} {v : V} : newer key rank l v ≤ l.length := by
  unfold newer
  refine (List.length_filter_le _ _).trans ?_
  have hnd : (ranked rank (lastWins key l)).Nodup :=
    (List.mergeSort_perm _ _).nodup_iff.mpr (nodup_values l)
  exact (List.subperm_of_subset hnd fun w hw => (held_some (mem_ranked.mp hw)).2).length_le

theorem mem_lastN_of_pairwise {l : List V} (hl : l.Pairwise fun v w => rank v < rank w)
    {n : Nat} {v : V} :
    v ∈ lastN n l ↔ v ∈ l ∧ (l.filter fun w => decide (rank v < rank w)).length < n := by
  induction l with
  | nil => simp [lastN]
  | cons w l ih =>
      obtain ⟨hw, hl⟩ := List.pairwise_cons.mp hl
      have ih := ih hl
      unfold lastN at ih ⊢
      by_cases hn : n ≤ l.length
      · have hdrop : (w :: l).drop ((w :: l).length - n) = l.drop (l.length - n) := by
          rw [List.length_cons, Nat.succ_sub hn, List.drop_succ_cons]
        rw [hdrop, ih]
        constructor
        · rintro ⟨hv, hlt⟩
          refine ⟨List.mem_cons_of_mem _ hv, ?_⟩
          rwa [List.filter_cons_of_neg (by simpa using (hw v hv).le)]
        · rintro ⟨hv, hlt⟩
          rcases List.mem_cons.mp hv with rfl | hv
          · -- everything after the head is newer than it
            rw [List.filter_cons_of_neg (by simp), List.filter_eq_self.mpr
              (by simpa using hw)] at hlt
            omega
          · rw [List.filter_cons_of_neg (by simpa using (hw v hv).le)] at hlt
            exact ⟨hv, hlt⟩
      · have hdrop : (w :: l).length - n = 0 := by
          rw [List.length_cons]
          omega
        rw [hdrop, List.drop_zero]
        refine ⟨fun hv => ⟨hv, ?_⟩, fun h => h.1⟩
        have hlen : ((w :: l).filter fun u => decide (rank v < rank u)).length
            < (w :: l).length := by
          refine List.length_filter_lt_length_iff_exists.mpr ⟨v, hv, ?_⟩
          simp
        rw [List.length_cons] at hlen
        omega

/-- An entry stays when fewer than `n` are newer. -/
theorem mem_newest (hs : Separates key rank) {n : Nat} {l : List V} {v : V} :
    v ∈ newest key rank n l ↔ held key l (key v) = some v ∧ newer key rank l v < n := by
  unfold newest newer
  rw [mem_lastN_of_pairwise (sorted_ranked hs l), mem_ranked]

/-- Logs that keep the same entries keep them in the same order. -/
theorem newest_congr (hs : Separates key rank) {n m : Nat} {l l' : List V}
    (h : ∀ v, v ∈ newest key rank n l ↔ v ∈ newest key rank m l') :
    newest key rank n l = newest key rank m l' := by
  have hsort : ∀ n l, (newest key rank n l).Pairwise fun v w => rank v < rank w :=
    fun n l => (sorted_ranked hs l).sublist (List.drop_sublist _ _)
  have hnd : ∀ n l, (newest key rank n l).Nodup := fun n l => (hsort n l).imp fun h heq =>
    absurd (heq ▸ h) (lt_irrefl _)
  have hperm := (List.perm_ext_iff_of_nodup (hnd n l) (hnd m l')).mpr h
  exact hperm.eq_of_pairwise (fun v w _ _ hvw hwv => absurd hvw hwv.asymm) (hsort n l)
    (hsort m l')

theorem newest_eq_nil_iff (hs : Separates key rank) {n : Nat} (hn : 0 < n) {l : List V} :
    newest key rank n l = [] ↔ l = [] := by
  constructor
  · intro h
    by_contra hne
    obtain ⟨v, hv⟩ := List.exists_mem_of_ne_nil l hne
    obtain ⟨w, hw⟩ : ∃ w, held key l (key v) = some w := held_isSome hv
    have hlen : (newest key rank n l).length = 0 := by rw [h]; rfl
    unfold newest lastN at hlen
    rw [List.length_drop] at hlen
    have hpos : 0 < (ranked rank (lastWins key l)).length := by
      refine List.length_pos_of_mem (a := w) (mem_ranked.mpr ?_)
      rwa [(held_some hw).1]
    omega
  · rintro rfl
    refine List.eq_nil_iff_forall_not_mem.mpr fun v hv => ?_
    have h := ((mem_newest hs).mp hv).1
    rw [held_nil] at h
    cases h

theorem mem_of_mem_newest (hs : Separates key rank) {n : Nat} {l : List V} {v : V}
    (hv : v ∈ newest key rank n l) : v ∈ l :=
  (held_some ((mem_newest hs).mp hv).1).2

-- ==================================================================== comparisons

/-- A log holds an entry: nothing later stands under its key. -/
def Holds (key : V → K) (l : List V) (v : V) : Prop := held key l (key v) = some v

theorem holds_held {l : List V} {k : K} {v : V} (h : held key l k = some v) : Holds key l v := by
  unfold Holds
  rwa [(held_some h).1]

theorem newer_le {l l' : List V} {v : V}
    (h : ∀ u, Holds key l' u → rank v < rank u → Holds key l u) :
    newer key rank l' v ≤ newer key rank l v := by
  unfold newer
  have hnd : (ranked rank (lastWins key l')).Nodup :=
    (List.mergeSort_perm _ _).nodup_iff.mpr (nodup_values l')
  refine (List.subperm_of_subset (hnd.filter _) fun u hu => ?_).length_le
  obtain ⟨hmem, hlt⟩ := List.mem_filter.mp hu
  rw [decide_eq_true_eq] at hlt
  exact List.mem_filter.mpr ⟨mem_ranked.mpr (h u (mem_ranked.mp hmem) hlt), by simpa using hlt⟩

theorem newer_anti {l : List V} {v u : V} (h : rank v < rank u) :
    newer key rank l u ≤ newer key rank l v := by
  unfold newer
  refine (List.monotone_filter_right _ fun w hw => ?_).length_le
  rw [decide_eq_true_eq] at hw ⊢
  exact h.trans hw

/-- Entries that only one log holds do not count when they are too old to
stay: the newest of them above `v` has `n` above it that both hold. -/
theorem newer_lt_of {n : Nat} {l l' : List V} {v : V} (hv : newer key rank l v < n)
    (h : ∀ u, Holds key l' u → ¬ Holds key l u → n ≤ newer key rank l' u) :
    newer key rank l' v < n := by
  classical
  by_cases hbad : ∃ u, Holds key l' u ∧ rank v < rank u ∧ ¬ Holds key l u
  · let bad := ((ranked rank (lastWins key l')).filter fun u =>
      decide (rank v < rank u ∧ ¬ Holds key l u)).toFinset
    have hmem : ∀ u, u ∈ bad ↔ Holds key l' u ∧ rank v < rank u ∧ ¬ Holds key l u := by
      intro u
      rw [List.mem_toFinset, List.mem_filter, mem_ranked, decide_eq_true_eq]
      rfl
    obtain ⟨u, hu⟩ := hbad
    obtain ⟨top, htop, hmax⟩ := bad.exists_max_image rank ⟨u, (hmem u).mpr hu⟩
    obtain ⟨hholds, hlt, hnot⟩ := (hmem top).mp htop
    have habove : newer key rank l' top ≤ newer key rank l top := by
      refine newer_le fun w hw htw => ?_
      by_contra hno
      exact absurd htw (not_lt.mpr (hmax w ((hmem w).mpr ⟨hw, hlt.trans htw, hno⟩)))
    have hanti : newer key rank l top ≤ newer key rank l v := newer_anti hlt
    have hold := h top hholds hnot
    omega
  · push Not at hbad
    exact lt_of_le_of_lt (newer_le fun u hu hlt => hbad u hu hlt) hv

/-- Logs keep the same when what only one of them holds is too old in it. -/
theorem newest_eq_of (hs : Separates key rank) {n : Nat} {l l' : List V}
    (h : ∀ u, Holds key l u → ¬ Holds key l' u → n ≤ newer key rank l u)
    (h' : ∀ u, Holds key l' u → ¬ Holds key l u → n ≤ newer key rank l' u) :
    newest key rank n l = newest key rank n l' := by
  refine newest_congr hs fun v => ?_
  rw [mem_newest hs, mem_newest hs]
  constructor
  · rintro ⟨hv, hlt⟩
    refine ⟨?_, newer_lt_of hlt h'⟩
    by_contra hno
    exact absurd (h v hv hno) (not_le.mpr hlt)
  · rintro ⟨hv, hlt⟩
    refine ⟨?_, newer_lt_of hlt h⟩
    by_contra hno
    exact absurd (h' v hv hno) (not_le.mpr hlt)

-- =========================================================================== laws

theorem held_newest (hs : Separates key rank) {n : Nat} {l : List V} {k : K} {v : V} :
    held key (newest key rank n l) k = some v
      ↔ held key l k = some v ∧ newer key rank l v < n := by
  constructor
  · intro h
    obtain ⟨rfl, hmem⟩ := held_some h
    exact (mem_newest hs).mp hmem
  · rintro ⟨h, hlt⟩
    obtain rfl := (held_some h).1
    obtain ⟨w, hw⟩ : ∃ w, held key (newest key rank n l) (key v) = some w :=
      held_isSome ((mem_newest hs).mpr ⟨h, hlt⟩)
    obtain ⟨hkey, hmem⟩ := held_some hw
    have hheld := ((mem_newest hs).mp hmem).1
    rw [hkey, h] at hheld
    rw [hw, hheld]

/-- Where two logs differ on a key, neither entry is among the newest of both
logs together. -/
def Settled (key : V → K) (rank : V → R) (n : Nat) (l m : List V) : Prop :=
  ∀ k, ∀ x ∈ held key l k, ∀ y ∈ held key m k, x ≠ y →
    n ≤ newer key rank (l ++ m) y ∧ n ≤ newer key rank (m ++ l) x

theorem Settled.symm {n : Nat} {l m : List V} (h : Settled key rank n l m) :
    Settled key rank n m l := fun k x hx y hy hne => (h k y hy x hx hne.symm).symm

theorem Settled.outdated {n : Nat} {l m : List V} (h : Settled key rank n l m) {u : V}
    (hu : Holds key (l ++ m) u) (hno : ¬ Holds key (m ++ l) u) :
    n ≤ newer key rank (l ++ m) u := by
  unfold Holds at hu hno
  rw [held_append] at hu hno
  cases hl : held key l (key u) with
  | none =>
      rw [hl] at hu hno
      cases hm : held key m (key u) with
      | none =>
          rw [hm] at hu
          cases hu
      | some y =>
          rw [hm] at hu hno
          exact absurd hu hno
  | some x =>
      rw [hl] at hu hno
      cases hm : held key m (key u) with
      | none =>
          rw [hm] at hu
          exact absurd hu hno
      | some y =>
          rw [hm] at hu
          obtain rfl : y = u := Option.some.inj hu
          exact (h _ x hl y hm fun heq => hno (congrArg some heq)).1

theorem newest_comm_iff (hs : Separates key rank) (n : Nat) (l m : List V) :
    newest key rank n (l ++ m) = newest key rank n (m ++ l) ↔ Settled key rank n l m := by
  constructor
  · have one : ∀ l m : List V, newest key rank n (l ++ m) = newest key rank n (m ++ l) →
        ∀ k, ∀ x ∈ held key l k, ∀ y ∈ held key m k, x ≠ y →
          n ≤ newer key rank (l ++ m) y := by
      intro l m h k x hx y hy hne
      by_contra hlt
      have hheld : held key (l ++ m) k = some y := by
        rw [held_append, hy]
        rfl
      have hkept := (held_newest hs).mpr ⟨hheld, not_le.mp hlt⟩
      rw [h] at hkept
      have hother := ((held_newest hs).mp hkept).1
      rw [held_append, hx] at hother
      exact hne (Option.some.inj hother)
    intro h k x hx y hy hne
    exact ⟨one l m h k x hx y hy hne, one m l h.symm k y hy x hx hne.symm⟩
  · intro h
    exact newest_eq_of hs (fun u => h.outdated) (fun u => h.symm.outdated)

/-- What was merged in is merged in again without a change. -/
theorem newest_absorb (hs : Separates key rank) (n : Nat) (l m : List V) :
    newest key rank n (newest key rank n (l ++ m) ++ m) = newest key rank n (l ++ m) := by
  refine newest_eq_of hs (fun u hu hno => absurd ?_ hno) (fun u hu hno => ?_)
  · unfold Holds at hu ⊢
    rw [held_append] at hu ⊢
    cases hm : held key m (key u) with
    | some y =>
        rw [hm] at hu
        exact hu
    | none =>
        rw [hm] at hu
        have hl := ((held_newest hs).mp hu).1
        rwa [held_append, hm] at hl
  · by_contra hlt
    refine hno ?_
    unfold Holds at hu ⊢
    rw [held_append]
    cases hm : held key m (key u) with
    | some y =>
        rw [held_append, hm] at hu
        exact hu
    | none => exact (held_newest hs).mpr ⟨hu, not_le.mp hlt⟩

/-- What an inner merge drops would be dropped at the end, and uncovers
nothing. -/
structure Kept (key : V → K) (rank : V → R) (n₁ n₂ n : Nat) (a b c : List V) : Prop where
  left : ∀ u, Holds key (a ++ b) u → held key c (key u) = none →
    n₁ ≤ newer key rank (a ++ b) u → n ≤ newer key rank (a ++ b ++ c) u
  right : ∀ u, Holds key (b ++ c) u → n₂ ≤ newer key rank (b ++ c) u →
    n ≤ newer key rank (a ++ b ++ c) u ∧ ∀ x ∈ held key a (key u), x = u

theorem Kept.newest_left (hs : Separates key rank) {n₁ n₂ n : Nat} {a b c : List V}
    (h : Kept key rank n₁ n₂ n a b c) :
    newest key rank n (newest key rank n₁ (a ++ b) ++ c) = newest key rank n (a ++ b ++ c) := by
  refine newest_eq_of hs (fun u hu hno => absurd ?_ hno) (fun u hu hno => ?_)
  · unfold Holds at hu ⊢
    rw [held_append] at hu ⊢
    cases hc : held key c (key u) with
    | some y =>
        rw [hc] at hu
        exact hu
    | none =>
        rw [hc] at hu
        exact ((held_newest hs).mp hu).1
  · unfold Holds at hu hno
    rw [held_append] at hu hno
    cases hc : held key c (key u) with
    | some y =>
        rw [hc] at hu hno
        exact absurd hu hno
    | none =>
        rw [hc] at hu hno
        by_cases hlt : newer key rank (a ++ b) u < n₁
        · exact absurd ((held_newest hs).mpr ⟨hu, hlt⟩) hno
        · exact h.left u hu hc (not_lt.mp hlt)

theorem Kept.newest_right (hs : Separates key rank) {n₁ n₂ n : Nat} {a b c : List V}
    (h : Kept key rank n₁ n₂ n a b c) :
    newest key rank n (a ++ newest key rank n₂ (b ++ c)) = newest key rank n (a ++ b ++ c) := by
  rw [List.append_assoc]
  have hright := h.right
  rw [List.append_assoc] at hright
  refine newest_eq_of hs (fun u hu hno => absurd ?_ hno) (fun u hu hno => ?_)
  · unfold Holds at hu ⊢
    rw [held_append] at hu ⊢
    cases hbc : held key (b ++ c) (key u) with
    | none =>
        cases hn : held key (newest key rank n₂ (b ++ c)) (key u) with
        | none =>
            rw [hn] at hu
            exact hu
        | some y =>
            rw [((held_newest hs).mp hn).1] at hbc
            cases hbc
    | some y =>
        by_cases hlt : newer key rank (b ++ c) y < n₂
        · rw [(held_newest hs).mpr ⟨hbc, hlt⟩] at hu
          exact hu
        · -- the entry that was dropped is the one below it
          cases hn : held key (newest key rank n₂ (b ++ c)) (key u) with
          | some z =>
              obtain ⟨hz, hlt'⟩ := (held_newest hs).mp hn
              cases hbc.symm.trans hz
              exact absurd hlt' hlt
          | none =>
              rw [hn] at hu
              have hy := hright y (holds_held hbc) (not_lt.mp hlt)
              rw [(held_some hbc).1] at hy
              exact congrArg some (hy.2 u hu).symm
  · unfold Holds at hu hno
    rw [held_append] at hu hno
    cases hbc : held key (b ++ c) (key u) with
    | none =>
        rw [hbc] at hu
        cases hn : held key (newest key rank n₂ (b ++ c)) (key u) with
        | none =>
            rw [hn] at hno
            exact absurd hu hno
        | some y =>
            rw [((held_newest hs).mp hn).1] at hbc
            cases hbc
    | some y =>
        rw [hbc] at hu
        obtain rfl : y = u := Option.some.inj hu
        by_cases hlt : newer key rank (b ++ c) y < n₂
        · rw [(held_newest hs).mpr ⟨hbc, hlt⟩] at hno
          exact absurd rfl hno
        · exact (hright y hbc (not_lt.mp hlt)).1

/-- Under `Kept` the order of merging does not matter. -/
theorem Kept.newest_assoc (hs : Separates key rank) {n₁ n₂ n : Nat} {a b c : List V}
    (h : Kept key rank n₁ n₂ n a b c) :
    newest key rank n (newest key rank n₁ (a ++ b) ++ c)
      = newest key rank n (a ++ newest key rank n₂ (b ++ c)) :=
  (h.newest_left hs).trans (h.newest_right hs).symm

/-- No key has two different entries. -/
def Agree (key : V → K) (l m : List V) : Prop :=
  ∀ k, ∀ x ∈ held key l k, ∀ y ∈ held key m k, x = y

theorem kept_of_agree {n : Nat} {a b c : List V} (hab : Agree key a b) (hac : Agree key a c)
    (hbc : Agree key b c) : Kept key rank n n n a b c where
  left u hu hc hn := by
    refine hn.trans (newer_le fun w hw _ => ?_)
    unfold Holds at hw ⊢
    rw [held_append]
    cases hcw : held key c (key w) with
    | none => exact hw
    | some z =>
        rw [held_append] at hw
        refine congrArg some ?_
        cases hbw : held key b (key w) with
        | some y =>
            rw [hbw] at hw
            cases hw
            exact (hbc _ _ hbw z hcw).symm
        | none =>
            rw [hbw] at hw
            exact (hac _ w hw z hcw).symm
  right u hu hn := by
    constructor
    · refine hn.trans (newer_le fun w hw _ => ?_)
      unfold Holds at hw ⊢
      rw [List.append_assoc, held_append, hw]
      rfl
    · intro x hx
      unfold Holds at hu
      rw [held_append] at hu
      cases hcu : held key c (key u) with
      | some z =>
          rw [hcu] at hu
          cases hu
          exact hac _ x hx _ hcu
      | none =>
          rw [hcu] at hu
          exact hab _ x hx _ hu

-- ================================================================= ranked by the key

section Keyed

variable {n : Nat}

omit [LinearOrder K] in
theorem separates_self : Separates key key := fun _ _ h => h

/-- Newer entries under every one of these keys are no fewer. -/
theorem newer_le_of_keys {l l' : List V} {v : V}
    (h : ∀ u, Holds key l u → key v < key u → ∃ w, Holds key l' w ∧ key w = key u) :
    newer key key l v ≤ newer key key l' v := by
  have hnd : (((ranked key (lastWins key l)).filter fun u => decide (key v < key u)).map
      key).Nodup :=
    List.pairwise_map.mpr (((sorted_ranked separates_self l).sublist List.filter_sublist).imp
      fun h => h.ne)
  have hsub : ((ranked key (lastWins key l)).filter fun u => decide (key v < key u)).map key
      ⊆ ((ranked key (lastWins key l')).filter fun u => decide (key v < key u)).map key := by
    intro k hk
    obtain ⟨u, hu, rfl⟩ := List.mem_map.mp hk
    obtain ⟨hmem, hlt⟩ := List.mem_filter.mp hu
    rw [decide_eq_true_eq] at hlt
    obtain ⟨w, hw, hkey⟩ := h u (mem_ranked.mp hmem) hlt
    refine List.mem_map.mpr ⟨w, List.mem_filter.mpr ⟨mem_ranked.mpr hw, ?_⟩, hkey⟩
    rw [decide_eq_true_eq, hkey]
    exact hlt
  have hle := (List.subperm_of_subset hnd hsub).length_le
  rwa [List.length_map, List.length_map] at hle

/-- What was dropped before an entry was written is dropped after it. -/
theorem newest_append_singleton (n : Nat) (l : List V) (m : V) :
    newest key key n (newest key key n l ++ [m]) = newest key key n (l ++ [m]) := by
  refine newest_eq_of separates_self (fun u hu hno => absurd ?_ hno) fun u hu hno => ?_
  · unfold Holds at hu ⊢
    rw [held_append_singleton] at hu ⊢
    split
    case isTrue hk => rwa [if_pos hk] at hu
    case isFalse hk =>
      rw [if_neg hk] at hu
      exact ((held_newest separates_self).mp hu).1
  · unfold Holds at hu hno
    rw [held_append_singleton] at hu hno
    split at hu
    case isTrue hk => exact absurd (by rw [if_pos hk]; exact hu) hno
    case isFalse hk =>
      rw [if_neg hk] at hno
      have hold : n ≤ newer key key l u := by
        by_contra hlt
        exact hno ((held_newest separates_self).mpr ⟨hu, not_le.mp hlt⟩)
      refine hold.trans (newer_le_of_keys fun w hw _ => ?_)
      obtain ⟨w', hw'⟩ : ∃ w', held key (l ++ [m]) (key w) = some w' :=
        held_isSome (List.mem_append_left [m] (held_some hw).2)
      exact ⟨w', holds_held hw', (held_some hw').1⟩

/-- The newest of sorted rows and one more: put it in the place of the row
with its key, sort, and drop from the front. -/
theorem newest_insert {rows : List V} (hrows : rows.Pairwise fun v w => key v < key w) (m : V) :
    newest key key n (rows ++ [m]) = lastN n
      ((rows.filter (fun v => key v ≠ key m) ++ [m]).mergeSort fun v w => key v ≤ key w) := by
  unfold newest
  congr 1
  have hinj : ∀ v ∈ rows, ∀ w ∈ rows, key v = key w → v = w := by
    have hnd : (rows.map key).Nodup := List.pairwise_map.mpr (hrows.imp fun h => h.ne)
    exact fun v hv w hw => List.inj_on_of_nodup_map hnd hv hw
  have hheld : ∀ v, held key rows (key v) = some v ↔ v ∈ rows := by
    refine fun v => ⟨fun h => (held_some h).2, fun hv => ?_⟩
    obtain ⟨w, hw⟩ : ∃ w, held key rows (key v) = some w := held_isSome hv
    rw [hw, hinj w (held_some hw).2 v hv (held_some hw).1]
  have hsorted : (ranked key (lastWins key (rows ++ [m]))).Pairwise fun v w => key v < key w :=
    sorted_ranked separates_self _
  have hnd : (rows.filter (fun v => key v ≠ key m) ++ [m]).Nodup := by
    refine List.nodup_append.mpr ⟨?_, List.nodup_singleton m, fun v hv w hw heq => ?_⟩
    · exact (hrows.imp fun h heq => h.ne (congrArg key heq)).sublist List.filter_sublist
    · rw [List.mem_singleton.mp hw] at heq
      exact of_decide_eq_true (List.mem_filter.mp hv).2 (congrArg key heq)
  have hperm : (ranked key (lastWins key (rows ++ [m]))).Perm
      ((rows.filter (fun v => key v ≠ key m) ++ [m]).mergeSort fun v w => key v ≤ key w) := by
    refine ((List.perm_ext_iff_of_nodup (hsorted.imp fun h heq => h.ne (congrArg key heq))
      hnd).mpr fun v => ?_).trans (List.mergeSort_perm _ _).symm
    rw [mem_ranked, held_append_singleton, List.mem_append, List.mem_filter, List.mem_singleton]
    split
    case isTrue hk =>
      constructor
      · exact fun h => .inr (Option.some.inj h).symm
      · rintro (h | h)
        · exact absurd hk (of_decide_eq_true h.2)
        · rw [h]
    case isFalse hk =>
      rw [hheld]
      constructor
      · exact fun h => .inl ⟨h, decide_eq_true hk⟩
      · rintro (h | h)
        · exact h.1
        · exact absurd (congrArg key h) hk
  have hle : ((rows.filter (fun v => key v ≠ key m) ++ [m]).mergeSort
      fun v w => key v ≤ key w).Pairwise fun v w => key v ≤ key w := sorted_mergeSort _
  refine hperm.eq_of_pairwise (fun v w hv hw hvw hwv => ?_) (hsorted.imp fun h => h.le) hle
  have heq := le_antisymm hvw hwv
  have hv' := mem_ranked.mp hv
  rw [heq, mem_ranked.mp (hperm.mem_iff.mpr hw)] at hv'
  exact (Option.some.inj hv').symm

/-- An entry with no room is older than all that stay, and they are `n`. -/
theorem newest_full {l : List V} {v : V} (h : n ≤ newer key key l v) :
    (newest key key n l).length = n ∧ ∀ w ∈ newest key key n l, key v < key w := by
  constructor
  · have hlen : newer key key l v ≤ (ranked key (lastWins key l)).length :=
      List.length_filter_le _ _
    unfold newest lastN
    rw [List.length_drop]
    omega
  · intro w hw
    have hlt := ((mem_newest separates_self).mp hw).2
    by_contra hle
    have hanti : newer key key l v ≤ newer key key l w := by
      rcases (not_lt.mp hle).lt_or_eq with h | h
      · exact newer_anti h
      · unfold newer
        rw [h]
    omega

/-- The entry with the greatest key is newest of all. -/
theorem newer_eq_zero {l : List V} {v : V} (h : ∀ w ∈ l, key w ≤ key v) :
    newer key key l v = 0 := by
  unfold newer
  rw [List.length_eq_zero_iff, List.filter_eq_nil_iff]
  intro w hw
  rw [decide_eq_true_eq]
  exact not_lt.mpr (h w (held_some (mem_ranked.mp hw)).2)

end Keyed

end Ruletka.Recent
