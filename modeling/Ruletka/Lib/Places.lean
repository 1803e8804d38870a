/-
The first places of a keyed table.

The values of a table stand in line by rank, the greatest first. The sort is
stable, so of two values of one rank the one with the lesser key stands before
the other, and the line is that of a strict order on the entries. Hence a value
has one of the first `n` places exactly when fewer than `n` entries stand
before it, which is read off the table without sorting it.
-/
import Ruletka.Lib.Recent
import Mathlib.Data.Set.Card

namespace Ruletka.Places

variable {K V R : Type} [LinearOrder K] [LinearOrder R]

/-- One entry stands before another. -/
def Before (rank : V → R) (a b : K × V) : Prop :=
  rank b.2 < rank a.2 ∨ rank b.2 = rank a.2 ∧ a.1 < b.1

instance (rank : V → R) (a b : K × V) : Decidable (Before rank a b) :=
  inferInstanceAs (Decidable (_ ∨ _))

/-- How many entries of a table stand before one. -/
def before (rank : V → R) (t : Table K V) (a : K × V) : Nat :=
  (t.keys.filter fun k => (t.get? k).any fun v => decide (Before rank (k, v) a)).card

/-- The values in line. -/
def ranked (rank : V → R) (t : Table K V) : List V :=
  (Recent.values t).mergeSort fun v w => decide (rank w ≤ rank v)

variable {rank : V → R} {t : Table K V} {a b c : K × V}

theorem Before.asymm (h : Before rank a b) : ¬ Before rank b a := by
  rintro (hlt | ⟨heq, hk⟩)
  · rcases h with hlt' | ⟨heq', -⟩
    · exact hlt.asymm hlt'
    · exact hlt.ne' heq'
  · rcases h with hlt' | ⟨-, hk'⟩
    · exact hlt'.ne' heq
    · exact hk.asymm hk'

-- ======================================================================== counts

/-- The keys of a table that meet a condition on their entries. -/
theorem card_filter_keys {p : K → V → Prop} [∀ k v, Decidable (p k v)] :
    (t.keys.filter fun k => (t.get? k).any fun v => decide (p k v)).card
      = {k | ∃ v ∈ t.get? k, p k v}.ncard := by
  rw [← Set.ncard_coe_finset]
  congr 1
  ext k
  rw [Finset.mem_coe, Finset.mem_filter, Table.mem_keys_iff, Option.any_eq_true]
  constructor
  · rintro ⟨-, v, hv, hp⟩
    exact ⟨v, hv, of_decide_eq_true hp⟩
  · rintro ⟨v, hv, hp⟩
    exact ⟨Option.isSome_iff_exists.mpr ⟨v, hv⟩, v, hv, decide_eq_true hp⟩

theorem before_eq_ncard : before rank t a = {k | ∃ v ∈ t.get? k, Before rank (k, v) a}.ncard :=
  card_filter_keys

theorem card_keys_eq_ncard (t : Table K V) : t.keys.card = {k | ∃ v, v ∈ t.get? k}.ncard := by
  have h : t.keys.card = {k | ∃ v ∈ t.get? k, True}.ncard := by
    rw [← card_filter_keys]
    congr 1
    refine (Finset.filter_eq_self.mpr fun k hk => ?_).symm
    obtain ⟨v, hv⟩ := Option.isSome_iff_exists.mp ((Table.mem_keys_iff _ _).mp hk)
    rw [hv]
    rfl
  simpa using h

-- ===================================================================== the line

/-- The entries in the order of the keys. -/
def entries (t : Table K V) : List (K × V) :=
  (t.keys.sort (· ≤ ·)).filterMap fun k => (t.get? k).map (k, ·)

/-- The entries in line. -/
def line (rank : V → R) (t : Table K V) : List (K × V) :=
  (entries t).mergeSort fun a b => decide (rank b.2 ≤ rank a.2)

theorem mem_entries : a ∈ entries t ↔ a.2 ∈ t.get? a.1 := by
  unfold entries
  rw [List.mem_filterMap]
  constructor
  · rintro ⟨k, -, hk⟩
    obtain ⟨v, hv, rfl⟩ := Option.map_eq_some_iff.mp hk
    exact hv
  · intro ha
    refine ⟨a.1, ?_, ?_⟩
    · rw [Finset.mem_sort, Table.mem_keys_iff]
      exact Option.isSome_iff_exists.mpr ⟨a.2, ha⟩
    · rw [show t.get? a.1 = some a.2 from ha]
      rfl

theorem map_entries (t : Table K V) : (entries t).map Prod.snd = Recent.values t := by
  unfold entries Recent.values
  rw [List.map_filterMap]
  refine List.filterMap_congr fun k _ => ?_
  rw [Option.map_map]
  exact Option.map_id'

theorem pairwise_entries (t : Table K V) : (entries t).Pairwise fun a b => a.1 < b.1 := by
  unfold entries
  have hsort : (t.keys.sort (· ≤ ·)).Pairwise (· < ·) := (Finset.sortedLT_sort t.keys).pairwise
  refine List.pairwise_filterMap.mpr (hsort.imp fun {k k'} hlt => ?_)
  intro a ha b hb
  obtain ⟨v, -, rfl⟩ := Option.map_eq_some_iff.mp ha
  obtain ⟨w, -, rfl⟩ := Option.map_eq_some_iff.mp hb
  exact hlt

theorem map_line (rank : V → R) (t : Table K V) : (line rank t).map Prod.snd = ranked rank t := by
  unfold line ranked
  rw [List.map_mergeSort (s := fun v w => decide (rank w ≤ rank v)) fun _ _ _ _ => rfl,
    map_entries]

theorem mem_line : a ∈ line rank t ↔ a.2 ∈ t.get? a.1 := by
  unfold line
  rw [List.mem_mergeSort, mem_entries]

theorem nodup_line (rank : V → R) (t : Table K V) : (line rank t).Nodup :=
  (List.mergeSort_perm _ _).nodup_iff.mpr ((pairwise_entries t).imp fun hlt heq =>
    hlt.ne (congrArg Prod.fst heq))

omit [LinearOrder K] in
/-- Of two entries of a list without repeats one comes before the other. -/
theorem not_swapped {l : List (K × V)} (hl : l.Nodup) (hab : [a, b].Sublist l) :
    ¬ [b, a].Sublist l := by
  induction l with
  | nil => cases hab
  | cons x l ih =>
      obtain ⟨hx, hl⟩ := List.nodup_cons.mp hl
      intro hba
      cases hab with
      | cons _ hab =>
          cases hba with
          | cons _ hba => exact ih hl hab hba
          | cons_cons _ hba => exact hx (hab.subset (by simp))
      | cons_cons _ hab =>
          cases hba with
          | cons _ hba => exact hx (hba.subset (by simp))
          | cons_cons _ hba => exact hx (hba.subset (by simp))

/-- **The line**: every entry stands before those that follow. -/
theorem pairwise_line (rank : V → R) (t : Table K V) : (line rank t).Pairwise (Before rank) := by
  let le : K × V → K × V → Bool := fun a b => decide (rank b.2 ≤ rank a.2)
  have htrans : ∀ a b c, le a b = true → le b c = true → le a c = true := by
    intro a b c hab hbc
    exact decide_eq_true ((of_decide_eq_true hbc).trans (of_decide_eq_true hab))
  have htotal : ∀ a b, (le a b || le b a) = true := by
    intro a b
    rw [Bool.or_eq_true, decide_eq_true_eq, decide_eq_true_eq]
    exact le_total _ _
  have hsorted : (line rank t).Pairwise fun a b => le a b = true :=
    List.pairwise_mergeSort htrans htotal (entries t)
  refine List.pairwise_of_forall_sublist fun {a b} hab => ?_
  have hle : rank b.2 ≤ rank a.2 := of_decide_eq_true (hsorted.forall_sublist hab)
  rcases hle.lt_or_eq with hlt | heq
  · exact .inl hlt
  refine .inr ⟨heq, ?_⟩
  have ha : a ∈ line rank t := hab.subset (by simp)
  have hb : b ∈ line rank t := hab.subset (by simp)
  have hne : a.1 ≠ b.1 := by
    intro hk
    have hv : a.2 ∈ t.get? b.1 := hk ▸ mem_line.mp ha
    have hsame : a = b := Prod.ext hk (Option.some.inj (hv.symm.trans (mem_line.mp hb)))
    exact not_swapped (nodup_line rank t) hab (hsame ▸ hab)
  by_contra hnot
  -- in the order of the keys the other came first, and the sort is stable
  have hlt : b.1 < a.1 := lt_of_le_of_ne (not_lt.mp hnot) hne.symm
  have : Std.Antisymm fun a b : K × V => a.1 < b.1 := ⟨fun _ _ h h' => absurd h' h.asymm⟩
  have hsub : [b, a].Subperm (entries t) := by
    refine List.subperm_of_subset ?_ ?_
    · exact List.nodup_cons.mpr ⟨by simpa using fun h : b = a => hne (h ▸ rfl), by simp⟩
    · intro x hx
      rcases List.mem_pair.mp hx with rfl | rfl
      · exact mem_entries.mpr (mem_line.mp hb)
      · exact mem_entries.mpr (mem_line.mp ha)
  have hpair : [b, a].Sublist (entries t) :=
    List.sublist_of_subperm_of_pairwise hsub (List.pairwise_pair.mpr hlt) (pairwise_entries t)
  exact not_swapped (nodup_line rank t) hab
    (List.pair_sublist_mergeSort htrans htotal (decide_eq_true heq.ge) hpair)

-- ==================================================================== the places

/-- An element of a strictly ordered list is among the first `n` when fewer
than `n` come before it. -/
theorem mem_take_iff {α : Type} {r : α → α → Prop} [DecidableRel r]
    (hasymm : ∀ a b, r a b → ¬ r b a) {l : List α} (hl : l.Pairwise r) {n : Nat} {a : α} :
    a ∈ l.take n ↔ a ∈ l ∧ (l.filter fun b => decide (r b a)).length < n := by
  induction l generalizing n with
  | nil => simp
  | cons x l ih =>
      obtain ⟨hx, hl⟩ := List.pairwise_cons.mp hl
      cases n with
      | zero => simp
      | succ n =>
          rw [List.take_succ_cons, List.mem_cons, ih hl, List.mem_cons]
          constructor
          · rintro (rfl | ⟨ha, hlt⟩)
            · refine ⟨.inl rfl, ?_⟩
              rw [List.filter_eq_nil_iff.mpr]
              · exact Nat.succ_pos n
              · intro b hb
                rw [decide_eq_true_eq]
                rcases List.mem_cons.mp hb with rfl | hb
                · exact fun h => hasymm _ _ h h
                · exact hasymm _ _ (hx b hb)
            · refine ⟨.inr ha, ?_⟩
              rw [List.filter_cons_of_pos (by simpa using hx a ha), List.length_cons]
              exact Nat.succ_lt_succ hlt
          · rintro ⟨rfl | ha, hlt⟩
            · exact .inl rfl
            · rw [List.filter_cons_of_pos (by simpa using hx a ha), List.length_cons] at hlt
              exact .inr ⟨ha, Nat.lt_of_succ_lt_succ hlt⟩

/-- The entries that stand before one, counted in line. -/
theorem length_before (rank : V → R) (t : Table K V) (a : K × V) :
    ((line rank t).filter fun b => decide (Before rank b a)).length = before rank t a := by
  unfold before
  have hnd : (((line rank t).filter fun b => decide (Before rank b a)).map Prod.fst).Nodup := by
    refine List.Nodup.map_on ?_ ((nodup_line rank t).filter _)
    intro b hb c hc hk
    have hbt := mem_line.mp (List.mem_filter.mp hb).1
    have hct := mem_line.mp (List.mem_filter.mp hc).1
    rw [hk] at hbt
    exact Prod.ext hk (Option.some.inj (hbt.symm.trans hct))
  rw [← List.length_map (f := Prod.fst), ← List.toFinset_card_of_nodup hnd]
  congr 1
  ext k
  rw [List.mem_toFinset, List.mem_map, Finset.mem_filter, Table.mem_keys_iff,
    Option.any_eq_true]
  constructor
  · rintro ⟨b, hb, rfl⟩
    obtain ⟨hmem, hbefore⟩ := List.mem_filter.mp hb
    have hbt := mem_line.mp hmem
    exact ⟨Option.isSome_iff_exists.mpr ⟨b.2, hbt⟩, b.2, hbt, hbefore⟩
  · rintro ⟨-, v, hv, hbefore⟩
    exact ⟨(k, v), List.mem_filter.mpr ⟨mem_line.mpr hv, hbefore⟩, rfl⟩

/-- A value of the table with one of the first `n` places. -/
structure Placed (rank : V → R) (n : Nat) (t : Table K V) (k : K) (v : V) : Prop where
  stored : v ∈ t.get? k
  room : before rank t (k, v) < n

theorem mem_take_line {n : Nat} :
    a ∈ (line rank t).take n ↔ Placed rank n t a.1 a.2 := by
  rw [mem_take_iff (fun _ _ h => h.asymm) (pairwise_line rank t), mem_line, length_before]
  exact ⟨fun h => ⟨h.1, h.2⟩, fun h => ⟨h.stored, h.room⟩⟩

/-- **Places**: the first `n` values are those with fewer than `n` before them. -/
theorem mem_take_ranked {n : Nat} {v : V} :
    v ∈ (ranked rank t).take n ↔ ∃ k, Placed rank n t k v := by
  rw [← map_line, ← List.map_take, List.mem_map]
  constructor
  · rintro ⟨a, ha, rfl⟩
    exact ⟨a.1, mem_take_line.mp ha⟩
  · rintro ⟨k, hk⟩
    exact ⟨(k, v), mem_take_line.mpr hk, rfl⟩

/-- Everything has a place when there are no more entries than places. -/
theorem placed_of_card_le {n : Nat} (hn : t.keys.card ≤ n) {k : K} {v : V} (hv : v ∈ t.get? k) :
    Placed rank n t k v := by
  refine ⟨hv, lt_of_lt_of_le (Finset.card_lt_card ?_) hn⟩
  have hk : k ∈ t.keys := (Table.mem_keys_iff _ _).mpr (Option.isSome_iff_exists.mpr ⟨v, hv⟩)
  refine (Finset.ssubset_iff_of_subset (Finset.filter_subset _ _)).mpr ⟨k, hk, fun hmem => ?_⟩
  obtain ⟨w, hw, hbefore⟩ := (Option.any_eq_true _ _).mp (Finset.mem_filter.mp hmem).2
  cases hw.symm.trans hv
  exact (of_decide_eq_true hbefore).asymm (of_decide_eq_true hbefore)

/-- The last of those with a place that have an id of their own in common. -/
structure LastPlaced {I : Type} (key : V → I) (rank : V → R) (n : Nat) (t : Table K V) (k : K)
    (v : V) : Prop where
  placed : Placed rank n t k v
  last : ∀ k' v', Placed rank n t k' v' → key v' = key v →
    k' = k ∨ Before rank (k', v') (k, v)

/-- Of a list of entries in line the last one with an id is held under it. -/
theorem held_map_iff {I : Type} [LinearOrder I] {key : V → I} {l : List (K × V)}
    (hl : l.Pairwise (Before rank)) {i : I} {v : V} :
    Recent.held key (l.map Prod.snd) i = some v ↔
      ∃ k, (k, v) ∈ l ∧ key v = i
        ∧ ∀ b ∈ l, key b.2 = i → b = (k, v) ∨ Before rank b (k, v) := by
  induction l using List.reverseRecOn with
  | nil =>
      rw [List.map_nil, Recent.held_nil]
      simp
  | append_singleton l x ih =>
      obtain ⟨hl, -, hx⟩ := List.pairwise_append.mp hl
      rw [List.map_append, List.map_singleton, Recent.held_append_singleton]
      have hbefore : ∀ b ∈ l, Before rank b x := fun b hb => hx b hb x (List.mem_singleton_self x)
      split
      · next hi =>
        constructor
        · intro hv
          cases hv
          refine ⟨x.1, List.mem_append_right _ (List.mem_singleton_self _), hi.symm,
            fun b hb _ => ?_⟩
          rcases List.mem_append.mp hb with hb | hb
          · exact .inr (hbefore b hb)
          · exact .inl (List.mem_singleton.mp hb)
        · rintro ⟨k, hk, -, hlast⟩
          rcases List.mem_append.mp hk with hk | hk
          · have hx := List.mem_append_right l (List.mem_singleton_self x)
            rcases hlast x hx hi.symm with rfl | h
            · rfl
            · exact absurd (hbefore _ hk) h.asymm
          · cases List.mem_singleton.mp hk
            rfl
      · next hi =>
        rw [ih hl]
        refine exists_congr fun k => ?_
        constructor
        · rintro ⟨hk, hkey, hlast⟩
          refine ⟨List.mem_append_left _ hk, hkey, fun b hb hbi => ?_⟩
          rcases List.mem_append.mp hb with hb | hb
          · exact hlast b hb hbi
          · cases List.mem_singleton.mp hb
            exact absurd hbi.symm hi
        · rintro ⟨hk, hkey, hlast⟩
          refine ⟨?_, hkey, fun b hb => hlast b (List.mem_append_left _ hb)⟩
          rcases List.mem_append.mp hk with hk | hk
          · exact hk
          · cases List.mem_singleton.mp hk
            exact absurd hkey.symm hi

/-- **Places under an id**: what is held under an id, when the first `n` values
are stored under their own ids one after the other. -/
theorem held_take_ranked {I : Type} [LinearOrder I] {key : V → I} {n : Nat} {i : I} {v : V} :
    Recent.held key ((ranked rank t).take n) i = some v ↔
      key v = i ∧ ∃ k, LastPlaced key rank n t k v := by
  have hline := (pairwise_line rank t).sublist (List.take_sublist n _)
  rw [← map_line, ← List.map_take, held_map_iff hline]
  constructor
  · rintro ⟨k, hk, rfl, hlast⟩
    refine ⟨rfl, k, mem_take_line.mp hk, fun k' v' hplaced hkey => ?_⟩
    refine (hlast (k', v') (mem_take_line.mpr hplaced) hkey).imp_left fun heq => ?_
    exact congrArg Prod.fst heq
  · rintro ⟨rfl, k, hplaced, hlast⟩
    refine ⟨k, mem_take_line.mpr hplaced, rfl, fun b hb hkey => ?_⟩
    have hb' := mem_take_line.mp hb
    refine (hlast b.1 b.2 hb' hkey).imp_left fun hk => ?_
    have hv : b.2 ∈ t.get? k := hk ▸ hb'.stored
    exact Prod.ext hk (Option.some.inj (hv.symm.trans hplaced.stored))

end Ruletka.Places
