/-
Finite maps with an in-place update, and hash iteration as an explicit
choice.

# Maps

A `Table K V` is Mathlib's `Finmap` at a constant family: lookup, insert
and erase are Mathlib's. What it lacks is the update of an entry that may
be absent (`modify`), and one-line readings of every operation as an
`if` on the key, which is the form every proof over a table uses.

# Iteration

A hash set has no order of its own, yet code loops over it, takes its
first element or indexes the collected vector. `IterOrder` is one such
order for every set: any duplicate-free listing of the members. Code that
iterates takes the order as an argument, so a theorem over every
`IterOrder` holds for whatever the hasher does.
-/
import Mathlib.Data.Finmap
import Mathlib.Data.List.Sort

namespace Ruletka

-- ============================================================ sorted listings

section Sorted

variable {K : Type} [LinearOrder K]

-- Sorting by `≤` asks for these three. With a name and a priority of their
-- own they are what instance search finds, whatever a module imports.

instance (priority := 1100) transLe : IsTrans K (· ≤ ·) := ⟨fun _ _ _ => le_trans⟩

instance (priority := 1100) antisymmLe : Std.Antisymm fun x y : K => x ≤ y :=
  ⟨fun _ _ => le_antisymm⟩

instance (priority := 1100) totalLe : Std.Total fun x y : K => x ≤ y := ⟨le_total⟩

end Sorted

-- ====================================================================== tables

/-- Finite maps from keys to values. -/
abbrev Table (K V : Type) : Type := Finmap fun _ : K => V

namespace Table

variable {K V : Type} [DecidableEq K]

/-- The value stored under a key. -/
def get? (t : Table K V) (k : K) : Option V := t.lookup k

/-- Store a value under a key, replacing any earlier one. -/
def set (t : Table K V) (k : K) (v : V) : Table K V := t.insert k v

/-- Drop a key. -/
def del (t : Table K V) (k : K) : Table K V := t.erase k

/-- Rewrite the value under a key; an absent key stays absent. -/
def modify (t : Table K V) (k : K) (f : V → V) : Table K V :=
  match t.get? k with
  | some v => t.set k (f v)
  | none => t

/-- `HashMap::retain`. -/
def retain (t : Table K V) (p : K → V → Bool) : Table K V where
  entries := t.entries.filter fun e => p e.1 e.2
  nodupKeys := by
    have ht := t.nodupKeys
    rw [← Multiset.nodup_keys] at ht ⊢
    exact Multiset.nodup_of_le (Multiset.map_le_map (Multiset.filter_le _ _)) ht

/-- Rewrite every value or drop it: `HashMap::retain` with a mutable value. -/
def filterMap (t : Table K V) (f : K → V → Option V) : Table K V where
  entries := t.entries.filterMap fun e => (f e.1 e.2).map (Sigma.mk e.1)
  nodupKeys := by
    have ht := t.nodupKeys
    rw [← Multiset.nodup_keys] at ht ⊢
    refine Multiset.nodup_of_le ?_ ht
    generalize t.entries = s
    induction s using Multiset.induction_on with
    | empty => exact le_rfl
    | cons e s ih =>
      rw [Multiset.filterMap_cons]
      cases f e.1 e.2 with
      | none =>
        have ih' : Multiset.map Sigma.fst _ ≤ Multiset.map Sigma.fst s := ih
        simp only [Multiset.keys, Option.map_none, Option.getD_none, zero_add, Multiset.map_cons]
        exact ih'.trans (Multiset.le_cons_self _ _)
      | some v => simpa [Multiset.keys] using ih

@[simp, grind =]
theorem get?_empty (k : K) : (∅ : Table K V).get? k = none :=
  Finmap.lookup_empty k

@[simp, grind =]
theorem get?_set (t : Table K V) (k : K) (v : V) (x : K) :
    (t.set k v).get? x = if x = k then some v else t.get? x := by
  unfold get? set
  split
  case isTrue h => rw [h]; exact Finmap.lookup_insert t
  case isFalse h => exact Finmap.lookup_insert_of_ne t h

@[simp, grind =]
theorem get?_del (t : Table K V) (k x : K) :
    (t.del k).get? x = if x = k then none else t.get? x := by
  unfold get? del
  split
  case isTrue h => rw [h]; exact Finmap.lookup_erase k t
  case isFalse h => exact Finmap.lookup_erase_ne h

@[simp, grind =]
theorem get?_modify (t : Table K V) (k : K) (f : V → V) (x : K) :
    (t.modify k f).get? x = if x = k then (t.get? x).map f else t.get? x := by
  unfold modify
  split
  case h_1 v hv =>
    rw [get?_set]
    split
    case isTrue h => rw [h, hv]; rfl
    case isFalse => rfl
  case h_2 hv =>
    split
    case isTrue h => rw [h, hv]; rfl
    case isFalse => rfl

theorem get?_retain (t : Table K V) (p : K → V → Bool) (k : K) :
    (t.retain p).get? k = (t.get? k).filter (p k) := by
  ext v
  unfold get?
  simp only [Finmap.lookup_eq_some_iff, retain, Multiset.mem_filter,
    Option.filter_eq_some_iff]

theorem get?_filterMap (t : Table K V) (f : K → V → Option V) (k : K) :
    (t.filterMap f).get? k = (t.get? k).bind (f k) := by
  ext v
  unfold get?
  simp only [Finmap.lookup_eq_some_iff, filterMap, Multiset.mem_filterMap,
    Option.map_eq_some_iff, Option.bind_eq_some_iff]
  constructor
  · rintro ⟨⟨k', u⟩, hu, v', hv, heq⟩
    cases heq
    exact ⟨u, hu, hv⟩
  · rintro ⟨u, hu, hv⟩
    exact ⟨⟨k, u⟩, hu, v, hv, rfl⟩

theorem mem_keys_iff (t : Table K V) (k : K) :
    k ∈ t.keys ↔ (t.get? k).isSome := by
  rw [Finmap.mem_keys, Finmap.mem_iff, Option.isSome_iff_exists]
  rfl

end Table

/-- One iteration order for every finite set: some duplicate-free listing
of its members. -/
structure IterOrder (α : Type) where
  /-- the members in the order the loop meets them -/
  run : Finset α → List α
  mem_run : ∀ s a, a ∈ run s ↔ a ∈ s
  nodup_run : ∀ s, (run s).Nodup

namespace IterOrder

variable {α : Type}

attribute [simp] IterOrder.mem_run

theorem length_run (o : IterOrder α) [DecidableEq α] (s : Finset α) :
    (o.run s).length = s.card := by
  have hs : (o.run s).toFinset = s := by
    ext a
    rw [List.mem_toFinset, o.mem_run]
  rw [← List.toFinset_card_of_nodup (o.nodup_run s), hs]

@[simp]
theorem run_empty (o : IterOrder α) [DecidableEq α] : o.run ∅ = [] := by
  have hlen : (o.run ∅).length = 0 := by rw [o.length_run, Finset.card_empty]
  exact List.length_eq_zero_iff.mp hlen

/-- The increasing order, which concrete runs use. -/
def increasing : IterOrder Nat where
  run s := Quot.liftOn s.val (fun l => l.insertionSort (· ≤ ·)) fun _ _ h =>
    List.Perm.eq_of_pairwise
      (fun _ _ _ _ hab hba => Nat.le_antisymm hab hba)
      (List.pairwise_insertionSort _ _) (List.pairwise_insertionSort _ _)
      ((List.perm_insertionSort _ _).trans
        (h.trans (List.perm_insertionSort _ _).symm))
  mem_run s a := by
    obtain ⟨⟨l⟩, hl⟩ := s
    exact List.mem_insertionSort _
  nodup_run s := by
    obtain ⟨⟨l⟩, hl⟩ := s
    exact (List.perm_insertionSort _ l).nodup_iff.mpr hl

end IterOrder

end Ruletka
