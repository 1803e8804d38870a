/-
Counting under names, and under one more for the rest.

A tally counts what it is given under each key, up to a largest value. One
that names at most `n` keys gives a name to each key that comes while there
is room, and counts every later one under a key for the rest. What stands in
it depends on the list of keys alone: the first `n` different keys are filed
under themselves, whenever they come.
-/
import Ruletka.Lib.Table
import Mathlib.Data.List.Basic

namespace Ruletka.Tally

variable {K : Type} [DecidableEq K]

-- ===================================================================== adding up to

/-- The sum, or the largest value. -/
def addUpTo (top a b : Nat) : Nat := min (a + b) top

theorem addUpTo_min (top a b : Nat) : addUpTo top (min a top) b = min (a + b) top := by
  unfold addUpTo
  omega

/-- What a table shows of a count. -/
def shown (top m : Nat) : Option Nat := if m = 0 then none else some (min m top)

theorem shown_succ (top m : Nat) :
    shown top (m + 1) = some (addUpTo top ((shown top m).getD 0) 1) := by
  unfold shown addUpTo
  rw [if_neg (Nat.succ_ne_zero m)]
  split
  case isTrue h => rw [h, Option.getD_none]
  case isFalse => rw [Option.getD_some, ← addUpTo_min]; rfl

theorem shown_eq_none {top m : Nat} : shown top m = none ↔ m = 0 := by
  unfold shown
  split
  case isTrue h => exact iff_of_true rfl h
  case isFalse h => exact iff_of_false (Option.some_ne_none _) h

-- ======================================================================= the counts

/-- One more under a key. -/
def bump (top : Nat) (t : Table K Nat) (k : K) : Table K Nat :=
  t.set k (addUpTo top ((t.get? k).getD 0) 1)

/-- The keys other than the one for the rest. -/
def named (rest : K) (t : Table K Nat) : Finset K := t.keys.filter (· ≠ rest)

/-- One more under a key, if it has a name or there is room for one, and else
under the rest. -/
def bumpNamed (top n : Nat) (rest : K) (t : Table K Nat) (k : K) : Table K Nat :=
  match t.get? k with
  | some v => t.set k (addUpTo top v 1)
  | none => if (named rest t).card < n then t.set k 1 else bump top t rest

/-- A table that shows how often each key is in a list. -/
def Counts (top : Nat) (t : Table K Nat) (l : List K) : Prop :=
  ∀ k, t.get? k = shown top (l.count k)

theorem counts_nil (top : Nat) : Counts top (∅ : Table K Nat) [] := fun k => Table.get?_empty k

theorem Counts.bump {top : Nat} {t : Table K Nat} {l : List K} (h : Counts top t l) (k : K) :
    Counts top (bump top t k) (l ++ [k]) := by
  intro k'
  unfold Tally.bump
  rw [Table.get?_set, h k, List.count_append]
  split
  case isTrue hk => rw [hk, List.count_singleton_self, shown_succ]
  case isFalse hk => rw [List.count_singleton, if_neg (by simpa using Ne.symm hk), h k']; rfl

-- ======================================================================== the names

/-- The first keys of a list that differ. -/
def firstNamed (n : Nat) (rest : K) (l : List K) : List K :=
  ((l.filter (· ≠ rest)).eraseDups).take n

/-- Where a key of a list is counted. -/
def filed (n : Nat) (rest : K) (l : List K) (k : K) : K :=
  if k ∈ firstNamed n rest l then k else rest

section Names

variable {n : Nat} {rest k : K} {l : List K}

theorem mem_of_mem_firstNamed (h : k ∈ firstNamed n rest l) : k ∈ l ∧ k ≠ rest := by
  have hmem := List.mem_filter.mp (List.mem_eraseDups.mp (List.mem_of_mem_take h))
  exact ⟨hmem.1, of_decide_eq_true hmem.2⟩

/-- While there is room every key has a name. -/
theorem mem_firstNamed_of_room (hn : (firstNamed n rest l).length < n) (hk : k ∈ l)
    (hrest : k ≠ rest) : k ∈ firstNamed n rest l := by
  unfold firstNamed at hn ⊢
  rw [List.length_take] at hn
  rw [List.take_of_length_le (by omega), List.mem_eraseDups, List.mem_filter]
  exact ⟨hk, decide_eq_true hrest⟩

theorem eraseDups_append_singleton (l : List K) (k : K) :
    (l ++ [k]).eraseDups = if k ∈ l then l.eraseDups else l.eraseDups ++ [k] := by
  rw [List.eraseDups_append]
  split
  case isTrue hk => simp [List.removeAll, hk]
  case isFalse hk => simp [List.removeAll, hk, List.eraseDups_cons]

theorem nodup_eraseDups (l : List K) : l.eraseDups.Nodup := by
  induction l using List.reverseRecOn with
  | nil => exact List.nodup_nil
  | append_singleton l k ih =>
      rw [eraseDups_append_singleton]
      split
      case isTrue => exact ih
      case isFalse hk =>
        refine List.nodup_append.mpr ⟨ih, List.nodup_singleton k, fun k' hk' j hj heq => ?_⟩
        rw [List.mem_singleton.mp hj] at heq
        exact hk (List.mem_eraseDups.mp (heq ▸ hk'))

/-- A key that has come before, or comes when there is no room, changes no
name. -/
theorem firstNamed_append_old (h : k = rest ∨ k ∈ l ∨ n ≤ (firstNamed n rest l).length) :
    firstNamed n rest (l ++ [k]) = firstNamed n rest l := by
  unfold firstNamed at h ⊢
  rw [List.filter_append]
  by_cases hrest : k = rest
  · rw [List.filter_cons_of_neg (by simpa using hrest), List.filter_nil, List.append_nil]
  · rw [List.filter_cons_of_pos (by simpa using hrest), List.filter_nil,
      eraseDups_append_singleton]
    split
    case isTrue => rfl
    case isFalse hk =>
      have hnew : k ∉ l := fun hl => hk (List.mem_filter.mpr ⟨hl, decide_eq_true hrest⟩)
      have hfull := (h.resolve_left hrest).resolve_left hnew
      rw [List.length_take] at hfull
      rw [List.take_append_of_le_length (by omega)]

theorem firstNamed_append_new (hrest : k ≠ rest) (hk : k ∉ l)
    (hn : (firstNamed n rest l).length < n) :
    firstNamed n rest (l ++ [k]) = firstNamed n rest l ++ [k] := by
  unfold firstNamed at hn ⊢
  rw [List.length_take] at hn
  have hnew : k ∉ l.filter (· ≠ rest) := fun h => hk (List.mem_filter.mp h).1
  rw [List.filter_append, List.filter_cons_of_pos (by simpa using hrest), List.filter_nil,
    eraseDups_append_singleton, if_neg hnew, List.take_of_length_le, List.take_of_length_le]
  · omega
  · rw [List.length_append, List.length_singleton]
    omega

theorem filed_append_old (h : k = rest ∨ k ∈ l ∨ n ≤ (firstNamed n rest l).length) :
    filed n rest (l ++ [k]) = filed n rest l := by
  funext k'
  unfold filed
  rw [firstNamed_append_old h]

/-- A new name moves nothing that came before. -/
theorem map_filed_append_new (hrest : k ≠ rest) (hk : k ∉ l)
    (hn : (firstNamed n rest l).length < n) :
    (l ++ [k]).map (filed n rest (l ++ [k])) = l.map (filed n rest l) ++ [k] := by
  have hnames := firstNamed_append_new hrest hk hn
  rw [List.map_append]
  congr 1
  · refine List.map_congr_left fun k' hk' => ?_
    have hne : k' ≠ k := fun heq => hk (heq ▸ hk')
    unfold filed
    simp [hnames, hne]
  · unfold filed
    simp [hnames]

end Names

-- ======================================================================== the tally

/-- A table that shows how often the first keys come, and how often any other. -/
def CountsNamed (top n : Nat) (rest : K) (t : Table K Nat) (l : List K) : Prop :=
  Counts top t (l.map (filed n rest l))

theorem countsNamed_nil (top n : Nat) (rest : K) :
    CountsNamed top n rest (∅ : Table K Nat) [] := counts_nil top

section Tally

variable {top n : Nat} {rest : K} {t : Table K Nat} {l : List K}

theorem CountsNamed.get?_eq_none (h : CountsNamed top n rest t l) {k : K} :
    t.get? k = none ↔ k ∉ l.map (filed n rest l) := by
  rw [h k, shown_eq_none, List.count_eq_zero]

/-- The names in the table. -/
theorem CountsNamed.named (h : CountsNamed top n rest t l) :
    named rest t = (firstNamed n rest l).toFinset := by
  ext k
  unfold Tally.named
  rw [Finset.mem_filter, Table.mem_keys_iff, List.mem_toFinset, Option.isSome_iff_ne_none, Ne,
    h.get?_eq_none, not_not, List.mem_map]
  constructor
  · rintro ⟨⟨k', -, hk'⟩, hrest⟩
    unfold filed at hk'
    split at hk'
    case isTrue hin => exact hk' ▸ hin
    case isFalse => exact absurd hk'.symm hrest
  · intro hk
    obtain ⟨hl, hrest⟩ := mem_of_mem_firstNamed hk
    exact ⟨⟨k, hl, if_pos hk⟩, hrest⟩

theorem CountsNamed.card (h : CountsNamed top n rest t l) :
    (Tally.named rest t).card = (firstNamed n rest l).length := by
  rw [h.named, List.toFinset_card_of_nodup]
  exact (nodup_eraseDups _).sublist (List.take_sublist _ _)

theorem CountsNamed.bumpNamed (htop : 0 < top) (h : CountsNamed top n rest t l) (k : K) :
    CountsNamed top n rest (bumpNamed top n rest t k) (l ++ [k]) := by
  have hset : ∀ k', t.get? k' = none → t.set k' 1 = bump top t k' := by
    intro k' hk'
    unfold bump addUpTo
    rw [hk', Option.getD_none, Nat.zero_add, min_eq_left htop]
  unfold Tally.bumpNamed
  rw [h.card]
  cases hv : t.get? k with
  | some v =>
      -- the key has a name already, or is the one for the rest
      have hin : k = rest ∨ k ∈ firstNamed n rest l := by
        have hmem : k ∈ l.map (filed n rest l) := by
          by_contra hno
          rw [h.get?_eq_none.mpr hno] at hv
          cases hv
        obtain ⟨k', -, hk'⟩ := List.mem_map.mp hmem
        unfold filed at hk'
        split at hk'
        case isTrue hin => exact .inr (hk' ▸ hin)
        case isFalse => exact .inl hk'.symm
      have hold : k = rest ∨ k ∈ l ∨ n ≤ (firstNamed n rest l).length :=
        hin.imp_right fun hin => .inl (mem_of_mem_firstNamed hin).1
      have hself : filed n rest l k = k := by
        unfold filed
        split
        case isTrue => rfl
        case isFalse hno => exact (hin.resolve_right hno).symm
      have hbump : t.set k (addUpTo top v 1) = bump top t k := by
        unfold bump
        rw [hv, Option.getD_some]
      unfold CountsNamed
      dsimp only
      rw [filed_append_old hold, List.map_append, List.map_singleton, hself, hbump]
      exact Counts.bump h k
  | none =>
      have hno := h.get?_eq_none.mp hv
      by_cases hroom : (firstNamed n rest l).length < n
      · rw [if_pos hroom, hset k hv]
        by_cases hrest : k = rest
        · have hself : filed n rest l k = k := by
            unfold filed
            split
            case isTrue => rfl
            case isFalse => exact hrest.symm
          unfold CountsNamed
          rw [filed_append_old (.inl hrest), List.map_append, List.map_singleton, hself]
          exact Counts.bump h k
        · have hnew : k ∉ l := by
            intro hl
            have hin := mem_firstNamed_of_room hroom hl hrest
            exact hno (List.mem_map.mpr ⟨k, hl, if_pos hin⟩)
          unfold CountsNamed
          rw [map_filed_append_new hrest hnew hroom]
          exact Counts.bump h k
      · have hout : filed n rest l k = rest := by
          unfold filed
          split
          case isTrue hin =>
            exact absurd (List.mem_map.mpr ⟨k, (mem_of_mem_firstNamed hin).1, if_pos hin⟩ :
              k ∈ l.map (filed n rest l)) hno
          case isFalse => rfl
        unfold CountsNamed
        rw [if_neg hroom, filed_append_old (.inr (.inr (not_lt.mp hroom))), List.map_append,
          List.map_singleton, hout]
        exact Counts.bump h rest

end Tally

end Ruletka.Tally
