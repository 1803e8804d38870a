/-
Votes: a table of what was cast, and the greatest entry in some order.

A `tally` folds ballots into a table under the keys they vote for; under a
key stands what the ballots for it make, in their order. `lastMax` is the
greatest of a list, the last one of several. Over a table the order is that
of its hash (`IterOrder`), and every greatest entry is the last one in some
order.
-/
import Ruletka.Lib.Table

namespace Ruletka

variable {α K V : Type}

-- ==================================================================== the greatest

/-- `Iterator::max_by_key`. -/
def lastMax (key : α → Nat) : List α → Option α
  | [] => none
  | a :: l => some (l.foldl (fun best x => if key best ≤ key x then x else best) a)

variable {key : α → Nat}

theorem lastMax_eq_none_iff {l : List α} : lastMax key l = none ↔ l = [] := by
  cases l with
  | nil => exact iff_of_true rfl rfl
  | cons a l => exact iff_of_false nofun nofun

theorem foldl_max_spec (l : List α) : ∀ a : α,
    let m := l.foldl (fun best x => if key best ≤ key x then x else best) a
    m ∈ a :: l ∧ ∀ x ∈ a :: l, key x ≤ key m := by
  induction l with
  | nil =>
      intro a
      refine ⟨List.mem_cons_self, fun x hx => ?_⟩
      rw [List.mem_singleton.mp hx]
      exact le_rfl
  | cons b l ih =>
      intro a
      dsimp only
      rw [List.foldl_cons]
      split
      · next hle =>
          obtain ⟨hmem, hmax⟩ := ih b
          refine ⟨List.mem_cons_of_mem _ hmem, fun x hx => ?_⟩
          obtain rfl | hx := List.mem_cons.mp hx
          · exact hle.trans (hmax b List.mem_cons_self)
          · exact hmax x hx
      · next hlt =>
          obtain ⟨hmem, hmax⟩ := ih a
          refine ⟨?_, fun x hx => ?_⟩
          · obtain hm | hm := List.mem_cons.mp hmem
            · rw [hm]
              exact List.mem_cons_self
            · exact List.mem_cons_of_mem _ (List.mem_cons_of_mem _ hm)
          obtain rfl | hx := List.mem_cons.mp hx
          · exact hmax x List.mem_cons_self
          obtain rfl | hx := List.mem_cons.mp hx
          · exact (Nat.le_of_not_le hlt).trans (hmax a List.mem_cons_self)
          · exact hmax x (List.mem_cons_of_mem _ hx)

/-- The greatest is an element, and none is greater. -/
theorem lastMax_spec {l : List α} {m : α} (h : lastMax key l = some m) :
    m ∈ l ∧ ∀ x ∈ l, key x ≤ key m := by
  cases l with
  | nil => cases h
  | cons a l =>
      cases h
      exact foldl_max_spec l a

/-- Of several greatest ones it is the last. -/
theorem lastMax_concat {l : List α} {m : α} (h : ∀ x ∈ l, key x ≤ key m) :
    lastMax key (l ++ [m]) = some m := by
  cases l with
  | nil => rfl
  | cons a l =>
      unfold lastMax
      rw [List.cons_append]
      dsimp only
      rw [List.foldl_append, List.foldl_cons, List.foldl_nil,
        if_pos (h _ (foldl_max_spec l a).1)]

-- ======================================================================= the table

variable [DecidableEq K]

/-- The table of the ballots, each cast under its key. -/
def tally (vote : α → Option K) (count : Option V → α → V) (l : List α) : Table K V :=
  l.foldl (fun t a => match vote a with
    | some k => t.set k (count (t.get? k) a)
    | none => t) ∅

/-- What the ballots for one key make. -/
def counted (count : Option V → α → V) (l : List α) : Option V :=
  l.foldl (fun v a => some (count v a)) none

variable {vote : α → Option K} {count : Option V → α → V}

/-- Under a key stand the ballots for it. -/
theorem get?_tally (l : List α) (k : K) : (tally vote count l).get? k
    = counted count (l.filter fun a => vote a = some k) := by
  unfold tally counted
  suffices ∀ t : Table K V, (l.foldl (fun t a => match vote a with
      | some k => t.set k (count (t.get? k) a)
      | none => t) t).get? k
        = (l.filter fun a => vote a = some k).foldl (fun v a => some (count v a)) (t.get? k) by
    rw [this, Table.get?_empty]
  induction l with
  | nil => exact fun t => rfl
  | cons a l ih =>
      intro t
      rw [List.foldl_cons, ih]
      cases ha : vote a with
      | none => rw [List.filter_cons_of_neg (by simp [ha])]
      | some k' =>
          dsimp only
          rw [Table.get?_set]
          by_cases hk : k = k'
          · subst hk
            rw [List.filter_cons_of_pos (by simp [ha]), if_pos rfl, List.foldl_cons]
          · rw [List.filter_cons_of_neg (by simpa [ha] using Ne.symm hk), if_neg hk]

theorem counted_concat (l : List α) (a : α) :
    counted count (l ++ [a]) = some (count (counted count l) a) := by
  unfold counted
  rw [List.foldl_append]
  rfl

theorem counted_eq_none_iff {l : List α} : counted count l = none ↔ l = [] := by
  obtain rfl | ⟨l, a, rfl⟩ := List.eq_nil_or_concat l
  · exact iff_of_true rfl rfl
  · rw [List.concat_eq_append, counted_concat]
    exact iff_of_false nofun (List.append_ne_nil_of_right_ne_nil _ (List.cons_ne_nil _ _))

/-- A key nobody votes for has no entry. -/
theorem get?_tally_eq_none_iff {l : List α} {k : K} :
    (tally vote count l).get? k = none ↔ ∀ a ∈ l, vote a ≠ some k := by
  rw [get?_tally, counted_eq_none_iff, List.filter_eq_nil_iff]
  simp only [decide_eq_true_eq, ne_eq]

-- =================================================================== the iteration

/-- The entries of a table as a loop over it meets them. -/
def Table.iterate (o : IterOrder K) (t : Table K V) : List (K × V) :=
  (o.run t.keys).filterMap fun k => (t.get? k).map (Prod.mk k)

theorem Table.mem_iterate {o : IterOrder K} {t : Table K V} {p : K × V} :
    p ∈ t.iterate o ↔ t.get? p.1 = some p.2 := by
  unfold iterate
  rw [List.mem_filterMap]
  constructor
  · intro h
    obtain ⟨k, -, hk⟩ := h
    obtain ⟨v, hv, rfl⟩ := Option.map_eq_some_iff.mp hk
    exact hv
  · intro h
    refine ⟨p.1, ?_, by rw [h]; rfl⟩
    rw [o.mem_run, mem_keys_iff, h]
    rfl

namespace IterOrder

/-- Some order. -/
noncomputable def listed : IterOrder K where
  run := Finset.toList
  mem_run _ _ := Finset.mem_toList
  nodup_run := Finset.nodup_toList

/-- The order with one element moved to the end. -/
def endingIn (o : IterOrder K) (k : K) : IterOrder K where
  run s := (o.run s).filter (· ≠ k) ++ if k ∈ s then [k] else []
  mem_run s a := by
    rw [List.mem_append, List.mem_filter, o.mem_run]
    by_cases ha : a = k
    · subst ha
      by_cases hs : a ∈ s
      · simp [hs]
      · simp [hs]
    · by_cases hs : k ∈ s
      · simp [ha, hs]
      · simp [ha, hs]
  nodup_run s := by
    refine List.Nodup.append ((o.nodup_run s).filter _) ?_ ?_
    · split
      · exact List.nodup_singleton k
      · exact List.nodup_nil
    · intro a ha hk
      split at hk
      · rw [List.mem_singleton.mp hk] at ha
        exact absurd (List.mem_filter.mp ha).2 (by simp)
      · exact absurd hk List.not_mem_nil

end IterOrder

/-- Every entry comes last in some order. -/
theorem Table.iterate_endingIn (o : IterOrder K) {t : Table K V} {k : K} {v : V}
    (h : t.get? k = some v) : ∃ l, t.iterate (o.endingIn k) = l ++ [(k, v)] := by
  have hk : k ∈ t.keys := by
    rw [mem_keys_iff, h]
    rfl
  unfold iterate IterOrder.endingIn
  dsimp only
  rw [if_pos hk, List.filterMap_append]
  exact ⟨_, congrArg _ (by rw [List.filterMap_cons, h]; rfl)⟩

/-- An entry none is above. -/
def Table.Greatest (weight : V → Nat) (t : Table K V) (k : K) (v : V) : Prop :=
  t.get? k = some v ∧ ∀ k' v', t.get? k' = some v' → weight v' ≤ weight v

variable {weight : V → Nat} {t : Table K V}

/-- The winner of a loop is a greatest entry. -/
theorem Table.greatest_of_lastMax (weight : V → Nat) {o : IterOrder K} {p : K × V}
    (h : lastMax (fun p => weight p.2) (t.iterate o) = some p) : t.Greatest weight p.1 p.2 := by
  obtain ⟨hmem, hmax⟩ := lastMax_spec h
  refine ⟨mem_iterate.mp hmem, fun k' v' hv' => ?_⟩
  exact hmax (k', v') (mem_iterate.mpr hv')

/-- Every greatest entry wins in some order. -/
theorem Table.Greatest.lastMax {k : K} {v : V} (h : t.Greatest weight k v) (o : IterOrder K) :
    lastMax (fun p => weight p.2) (t.iterate (o.endingIn k)) = some (k, v) := by
  obtain ⟨l, hl⟩ := Table.iterate_endingIn o h.1
  rw [hl]
  apply lastMax_concat
  intro p hp
  refine h.2 p.1 p.2 (mem_iterate (o := o.endingIn k) |>.mp ?_)
  rw [hl]
  exact List.mem_append_left _ hp

theorem Table.lastMax_iterate_eq_none_iff (weight : V → Nat) {o : IterOrder K} :
    Ruletka.lastMax (fun p => weight p.2) (t.iterate o) = none ↔ ∀ k, t.get? k = none := by
  rw [lastMax_eq_none_iff, List.eq_nil_iff_forall_not_mem]
  constructor
  · intro h k
    by_contra hk
    obtain ⟨v, hv⟩ := Option.ne_none_iff_exists'.mp hk
    exact h (k, v) (mem_iterate.mpr hv)
  · intro h p hp
    have hget := mem_iterate.mp hp
    rw [h p.1] at hget
    cases hget

end Ruletka
