/-
Self-delimiting byte formats.

A frame writes a value and reads it back from the front of whatever follows
it. Frames of parts make frames of the whole, so a record's frame is spelled
like the record.
-/
import Ruletka.Lib.Table
import Mathlib.Data.Finset.Sort
import Mathlib.Algebra.Ring.Nat

namespace Ruletka

/-- A format that finds its own end. -/
structure Frame (α : Type) where
  put : α → List UInt8
  get : List UInt8 → Option (α × List UInt8)
  get_put : ∀ a rest, get (put a ++ rest) = some (a, rest)

namespace Frame

variable {α β : Type}

/-- A number as that many ones and a zero. -/
def getNat : List UInt8 → Option (Nat × List UInt8)
  | [] => none
  | b :: rest =>
      if b = 0 then some (0, rest) else (getNat rest).map fun p => (p.1 + 1, p.2)

def nat : Frame Nat where
  put n := List.replicate n 1 ++ [0]
  get := getNat
  get_put n rest := by
    induction n with
    | zero => rfl
    | succ n ih =>
        rw [List.append_assoc] at ih
        rw [List.append_assoc, List.replicate_succ, List.cons_append]
        unfold getNat
        rw [if_neg (by decide), ih]
        rfl

/-- The frame of another spelling of the same values. -/
def map (f : Frame α) (make : α → β) (back : β → α) (h : ∀ b, make (back b) = b) : Frame β where
  put b := f.put (back b)
  get bytes := (f.get bytes).map fun p => (make p.1, p.2)
  get_put b rest := by
    rw [f.get_put, Option.map_some, h]

def pair (f : Frame α) (g : Frame β) : Frame (α × β) where
  put p := f.put p.1 ++ g.put p.2
  get bytes := (f.get bytes).bind fun p => (g.get p.2).map fun q => ((p.1, q.1), q.2)
  get_put p rest := by
    rw [List.append_assoc, f.get_put, Option.bind_some, g.get_put]
    rfl

/-- Read `n` values. -/
def getMany (f : Frame α) : Nat → List UInt8 → Option (List α × List UInt8)
  | 0, bytes => some ([], bytes)
  | n + 1, bytes =>
      (f.get bytes).bind fun p => (getMany f n p.2).map fun q => (p.1 :: q.1, q.2)

theorem getMany_put (f : Frame α) (l : List α) (rest : List UInt8) :
    getMany f l.length (l.flatMap f.put ++ rest) = some (l, rest) := by
  induction l with
  | nil => rfl
  | cons a l ih =>
      rw [List.length_cons, List.flatMap_cons, List.append_assoc]
      unfold getMany
      rw [f.get_put, Option.bind_some, ih]
      rfl

/-- The length, then the values. -/
def list (f : Frame α) : Frame (List α) where
  put l := nat.put l.length ++ l.flatMap f.put
  get bytes := (nat.get bytes).bind fun p => getMany f p.1 p.2
  get_put l rest := by
    rw [List.append_assoc, nat.get_put, Option.bind_some, getMany_put]

def option (f : Frame α) : Frame (Option α) :=
  (list f).map List.head? Option.toList fun o => by cases o <;> rfl

def fin (n : Nat) [NeZero n] : Frame (Fin n) := nat.map (Fin.ofNat n) Fin.val fun i => by
  ext
  exact Nat.mod_eq_of_lt i.isLt

/-- The characters by their numbers. -/
def string : Frame String :=
  (list (nat.map Char.ofNat Char.toNat Char.ofNat_toNat)).map String.ofList String.toList
    fun _ => String.ofList_toList

def bool : Frame Bool := nat.map (fun n => n = 1) Bool.toNat fun b => by cases b <;> rfl

def byte : Frame UInt8 := nat.map UInt8.ofNat UInt8.toNat fun _ => UInt8.ofNat_toNat

end Frame

namespace Table

variable {K V : Type} [LinearOrder K]

/-- The entries in the order of the keys. -/
def pairs (t : Table K V) : List (K × V) :=
  (t.keys.sort (· ≤ ·)).filterMap fun k => (t.get? k).map (Prod.mk k)

/-- Store entries one after the other. -/
def ofPairs (l : List (K × V)) (t : Table K V) : Table K V :=
  l.foldl (fun t p => t.set p.1 p.2) t

theorem mem_pairs {t : Table K V} {p : K × V} : p ∈ t.pairs ↔ t.get? p.1 = some p.2 := by
  unfold pairs
  rw [List.mem_filterMap]
  constructor
  · rintro ⟨k, -, hk⟩
    obtain ⟨v, hv, rfl⟩ := Option.map_eq_some_iff.mp hk
    exact hv
  · intro h
    refine ⟨p.1, ?_, by rw [h]; rfl⟩
    rw [Finset.mem_sort, mem_keys_iff]
    exact Option.isSome_iff_exists.mpr ⟨p.2, h⟩

theorem get?_ofPairs {t : Table K V} {l : List (K × V)}
    (hl : ∀ p ∈ l, t.get? p.1 = some p.2) (t₀ : Table K V) (k : K) :
    (ofPairs l t₀).get? k = if k ∈ l.map Prod.fst then t.get? k else t₀.get? k := by
  induction l generalizing t₀ with
  | nil => rfl
  | cons p l ih =>
      obtain ⟨hp, hl⟩ := List.forall_mem_cons.mp hl
      change (ofPairs l (t₀.set p.1 p.2)).get? k = _
      rw [ih hl, get?_set, List.map_cons]
      by_cases hk : k = p.1
      · simp only [hk, hp, if_true, ite_self, List.mem_cons, true_or]
      · rw [if_neg hk]
        simp only [List.mem_cons, hk, false_or]

theorem ofPairs_pairs (t : Table K V) : ofPairs t.pairs ∅ = t := by
  refine Finmap.ext_lookup fun k => ?_
  change (ofPairs t.pairs ∅).get? k = t.get? k
  rw [get?_ofPairs fun p hp => mem_pairs.mp hp]
  split
  case isTrue => rfl
  case isFalse hk =>
    rw [get?_empty]
    cases hv : t.get? k with
    | none => rfl
    | some v => exact absurd (List.mem_map.mpr ⟨(k, v), mem_pairs.mpr hv, rfl⟩) hk

end Table

/-- A map as the list of its entries. -/
def Frame.table {K V : Type} [LinearOrder K] (f : Frame K) (g : Frame V) : Frame (Table K V) :=
  (f.pair g).list.map (fun l => Table.ofPairs l ∅) Table.pairs Table.ofPairs_pairs

end Ruletka
