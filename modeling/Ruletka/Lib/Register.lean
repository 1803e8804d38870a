/-
Registers that keep the better of two values, and maps of them.

A register merges by asking whether the incoming value beats the one it
holds. When the answer follows a rank, and ties always go the same way, the
merge is associative and idempotent whichever way they go; it is commutative
exactly for values that are not different ones of equal rank.
-/
import Ruletka.Lib.Table

namespace Ruletka

namespace Register

variable {V R : Type}

/-- What a register holds after a merge. -/
def pick (beats : V → V → Bool) : Option V → Option V → Option V
  | held, none => held
  | none, some v => some v
  | some e, some v => if beats v e then some v else some e

variable {beats : V → V → Bool}

@[simp]
theorem pick_none_right (x : Option V) : pick beats x none = x := by cases x <;> rfl

@[simp]
theorem pick_none_left (x : Option V) : pick beats none x = x := by cases x <;> rfl

theorem pick_self (x : Option V) : pick beats x x = x := by
  cases x with
  | none => rfl
  | some v => exact ite_self _

theorem pick_choice (x y : Option V) : pick beats x y = x ∨ pick beats x y = y := by
  cases x with
  | none => exact .inr (pick_none_left y)
  | some e =>
      cases y with
      | none => exact .inl rfl
      | some v =>
          by_cases h : beats v e = true
          · exact .inr (if_pos h)
          · exact .inl (if_neg h)

/-- Who beats whom follows a rank, and all ties go to one side. -/
structure Follows [LinearOrder R] (beats : V → V → Bool) (rank : V → R) (tie : Bool) : Prop where
  beats_iff : ∀ v e, beats v e = true ↔ rank e < rank v ∨ (rank e = rank v ∧ tie = true)

variable [LinearOrder R] {rank : V → R} {tie : Bool}

theorem Follows.of_lt (hf : Follows beats rank tie) {v e : V} (h : rank e < rank v) :
    beats v e = true := (hf.beats_iff v e).mpr (.inl h)

theorem Follows.of_gt (hf : Follows beats rank tie) {v e : V} (h : rank v < rank e) :
    beats v e = false := by
  rw [← Bool.not_eq_true, hf.beats_iff]
  rintro (hlt | ⟨heq, -⟩)
  · exact absurd (h.trans hlt) (lt_irrefl _)
  · exact absurd heq.symm h.ne

theorem Follows.of_eq (hf : Follows beats rank tie) {v e : V} (h : rank e = rank v) :
    beats v e = tie := by
  rw [Bool.eq_iff_iff, hf.beats_iff]
  constructor
  · rintro (hlt | ⟨-, ht⟩)
    · exact absurd h hlt.ne
    · exact ht
  · exact fun ht => .inr ⟨h, ht⟩

/-- What is kept has at least the rank of both. -/
theorem Follows.rank_le (hf : Follows beats rank tie) {e v m : V}
    (hm : pick beats (some e) (some v) = some m) : rank e ≤ rank m ∧ rank v ≤ rank m := by
  change (if beats v e then some v else some e) = some m at hm
  split at hm
  case isTrue h =>
    cases hm
    refine ⟨?_, le_rfl⟩
    rcases (hf.beats_iff _ _).mp h with h | ⟨h, -⟩
    · exact h.le
    · exact h.le
  case isFalse h =>
    cases hm
    refine ⟨le_rfl, not_lt.mp fun hlt => h (hf.of_lt hlt)⟩

/-- A merge holds something of at least the rank of what was held. -/
theorem Follows.exists_ge_left (hf : Follows beats rank tie) {e : V} {x y : Option V}
    (he : e ∈ x) : ∃ m ∈ pick beats x y, rank e ≤ rank m := by
  rw [show x = some e from he]
  cases y with
  | none => exact ⟨e, rfl, le_rfl⟩
  | some v =>
      obtain ⟨m, hm⟩ : ∃ m, pick beats (some e) (some v) = some m := by
        rcases @pick_choice V beats (some e) (some v) with h | h
        · exact ⟨e, h⟩
        · exact ⟨v, h⟩
      exact ⟨m, hm, (hf.rank_le hm).1⟩

/-- A merge holds something of at least the rank of what came in. -/
theorem Follows.exists_ge_right (hf : Follows beats rank tie) {v : V} {x y : Option V}
    (hv : v ∈ y) : ∃ m ∈ pick beats x y, rank v ≤ rank m := by
  rw [show y = some v from hv]
  cases x with
  | none => exact ⟨v, rfl, le_rfl⟩
  | some e =>
      obtain ⟨m, hm⟩ : ∃ m, pick beats (some e) (some v) = some m := by
        rcases @pick_choice V beats (some e) (some v) with h | h
        · exact ⟨e, h⟩
        · exact ⟨v, h⟩
      exact ⟨m, hm, (hf.rank_le hm).2⟩

theorem pick_assoc (hf : Follows beats rank tie) (x y z : Option V) :
    pick beats (pick beats x y) z = pick beats x (pick beats y z) := by
  cases x with
  | none => rw [pick_none_left, pick_none_left]
  | some a =>
    cases y with
    | none => rw [pick_none_right, pick_none_left]
    | some b =>
      cases z with
      | none => rw [pick_none_right, pick_none_right]
      | some c =>
        have hab := hf.beats_iff b a
        have hbc := hf.beats_iff c b
        have hac := hf.beats_iff c a
        simp only [pick]
        -- the one inconsistent answer is ruled out by transitivity of the rank
        by_cases h₁ : beats b a = true
        · by_cases h₂ : beats c b = true
          · have h₃ : beats c a = true := by
              rw [hac]
              rcases hab.mp h₁ with hlt | ⟨heq, ht⟩
              · rcases hbc.mp h₂ with hlt' | ⟨heq', -⟩
                · exact .inl (hlt.trans hlt')
                · exact .inl (heq' ▸ hlt)
              · rw [heq]
                exact hbc.mp h₂
            simp [h₁, h₂, h₃]
          · simp [h₁, h₂]
        · by_cases h₂ : beats c b = true
          · simp [h₁, h₂]
          · have h₃ : ¬ beats c a = true := by
              intro h
              have hba : rank b ≤ rank a := not_lt.mp fun hlt => h₁ (hf.of_lt hlt)
              have hcb : rank c ≤ rank b := not_lt.mp fun hlt => h₂ (hf.of_lt hlt)
              rcases hac.mp h with hlt | ⟨heq, ht⟩
              · exact absurd (hcb.trans hba) (not_le.mpr hlt)
              · have hab' : rank a = rank b := le_antisymm (heq ▸ hcb) hba
                exact h₁ (hab.mpr (.inr ⟨hab', ht⟩))
            simp [h₁, h₂, h₃]

/-- A merge depends on the order of the two exactly for different values of
equal rank. -/
theorem pick_comm_iff (hf : Follows beats rank tie) (x y : Option V) :
    pick beats x y = pick beats y x ↔ ∀ e ∈ x, ∀ v ∈ y, rank e = rank v → e = v := by
  cases x with
  | none => simp
  | some e =>
    cases y with
    | none => simp
    | some v =>
      simp only [Option.mem_def, Option.some.injEq, forall_eq', pick]
      rcases lt_trichotomy (rank e) (rank v) with hlt | heq | hgt
      · rw [hf.of_lt hlt, hf.of_gt hlt]
        simp [hlt.ne]
      · rw [hf.of_eq heq, hf.of_eq heq.symm]
        cases tie with
        | false => simp [heq]
        | true => simp [heq, eq_comm]
      · rw [hf.of_gt hgt, hf.of_lt hgt]
        simp [hgt.ne']

end Register

namespace Table

open Register

variable {K V R : Type} [DecidableEq K] {beats : V → V → Bool}

@[ext]
theorem ext_get? {t u : Table K V} (h : ∀ k, t.get? k = u.get? k) : t = u :=
  Finmap.ext_lookup h

/-- Insert every entry of another map that is absent here or beats what is
here. -/
def mergeBy (beats : V → V → Bool) (t u : Table K V) : Table K V :=
  (u.retain fun k v => (t.get? k).all (beats v)) ∪ t

@[simp]
theorem get?_mergeBy (t u : Table K V) (k : K) :
    (t.mergeBy beats u).get? k = pick beats (t.get? k) (u.get? k) := by
  have hret : (u.retain fun k v => (t.get? k).all (beats v)).get? k
      = (u.get? k).filter fun v => (t.get? k).all (beats v) := get?_retain ..
  unfold mergeBy
  change Finmap.lookup k (_ ∪ t) = _
  cases hr : (u.retain fun k v => (t.get? k).all (beats v)).get? k with
  | some v =>
      rw [Finmap.lookup_union_left (Finmap.mem_of_lookup_eq_some hr)]
      change get? _ k = _
      rw [hr]
      obtain ⟨hu, hb⟩ := Option.filter_eq_some_iff.mp (hret.symm.trans hr)
      rw [hu]
      cases ht : t.get? k with
      | none => rfl
      | some e =>
          rw [ht] at hb
          exact (if_pos hb).symm
  | none =>
      rw [Finmap.lookup_union_right (Finmap.lookup_eq_none.mp hr)]
      change t.get? k = _
      cases hu : u.get? k with
      | none => rw [pick_none_right]
      | some v =>
          rw [hret, hu] at hr
          cases ht : t.get? k with
          | none =>
              rw [ht] at hr
              cases hr
          | some e =>
              rw [ht] at hr
              have hb : ¬ beats v e = true := by
                intro hb
                simp [Option.filter, hb] at hr
              exact (if_neg hb).symm

theorem mergeBy_self (t : Table K V) : t.mergeBy beats t = t := by
  ext k
  rw [get?_mergeBy, pick_self]

theorem mergeBy_assoc [LinearOrder R] {rank : V → R} {tie : Bool} (hf : Follows beats rank tie)
    (t u w : Table K V) :
    (t.mergeBy beats u).mergeBy beats w = t.mergeBy beats (u.mergeBy beats w) := by
  ext k
  rw [get?_mergeBy, get?_mergeBy, get?_mergeBy, get?_mergeBy, pick_assoc hf]

theorem exists_ge_left [LinearOrder R] {rank : V → R} {tie : Bool} (hf : Follows beats rank tie)
    {t u : Table K V} {k : K} {e : V} (he : e ∈ t.get? k) :
    ∃ m ∈ (t.mergeBy beats u).get? k, rank e ≤ rank m := by
  rw [get?_mergeBy]
  exact hf.exists_ge_left he

theorem exists_ge_right [LinearOrder R] {rank : V → R} {tie : Bool} (hf : Follows beats rank tie)
    {t u : Table K V} {k : K} {v : V} (hv : v ∈ u.get? k) :
    ∃ m ∈ (t.mergeBy beats u).get? k, rank v ≤ rank m := by
  rw [get?_mergeBy]
  exact hf.exists_ge_right hv

/-- No key has two different values of equal rank. -/
def Untied [LinearOrder R] (rank : V → R) (t u : Table K V) : Prop :=
  ∀ k, ∀ e ∈ t.get? k, ∀ v ∈ u.get? k, rank e = rank v → e = v

theorem mergeBy_comm_iff [LinearOrder R] {rank : V → R} {tie : Bool}
    (hf : Follows beats rank tie) (t u : Table K V) :
    t.mergeBy beats u = u.mergeBy beats t ↔ Untied rank t u := by
  constructor
  · intro h k
    rw [← pick_comm_iff hf, ← get?_mergeBy, ← get?_mergeBy, h]
  · intro h
    ext k
    rw [get?_mergeBy, get?_mergeBy, (pick_comm_iff hf _ _).mpr (h k)]

end Table

end Ruletka
