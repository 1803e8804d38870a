/-
Sliding windows of times.

A limiter keeps a queue of times, drops its front once that left the window,
and admits a new time while the queue is shorter than a cap. The queue may
hold more times than those admitted; what counts is that it covers them:
no time still in the window is missing. Then every window holds at most the
cap, wherever it starts.
-/
import Mathlib.Data.List.Basic

namespace Ruletka

namespace Window

variable {w cap now now' : Nat} {q l : List Nat}

/-- Drop the front of a queue while it is out of the window. -/
def prune (q : List Nat) (now w : Nat) : List Nat :=
  q.dropWhile fun t => w ≤ now - t

/-- How many times of a list are within the window that ends now. -/
def recent (w now : Nat) (l : List Nat) : Nat :=
  l.countP fun t => now - t < w

/-- Pruning drops nothing that a later window holds. -/
theorem recent_prune (h : now' ≤ now) : recent w now (prune q now' w) = recent w now q := by
  unfold prune recent
  induction q with
  | nil => rfl
  | cons t q ih =>
    rw [List.dropWhile_cons]
    split
    case isTrue ht =>
      have hout : ¬ now - t < w := by
        have := of_decide_eq_true ht
        omega
      rw [ih, List.countP_cons_of_neg (by simpa using hout)]
    case isFalse => rfl

theorem recent_le_length : recent w now l ≤ l.length := List.countP_le_length

theorem recent_append (l₁ l₂ : List Nat) :
    recent w now (l₁ ++ l₂) = recent w now l₁ + recent w now l₂ := List.countP_append

theorem recent_cons (t : Nat) (l : List Nat) :
    recent w now (t :: l) = recent w now l + recent w now [t] := by
  rw [← List.singleton_append, recent_append, Nat.add_comm]

/-- From now on no window that ends holds more of a list than of the queue. -/
def Covers (w now : Nat) (q l : List Nat) : Prop :=
  ∀ later, now ≤ later → recent w later l ≤ recent w later q

theorem Covers.later (hc : Covers w now q l) (h : now ≤ now') : Covers w now' q l :=
  fun _ hl => hc _ (Nat.le_trans h hl)

theorem Covers.prune (hc : Covers w now q l) : Covers w now (prune q now w) l := by
  intro later hl
  rw [recent_prune hl]
  exact hc later hl

/-- A queue kept in no order is pruned by a filter. -/
theorem recent_retain (h : now' ≤ now) :
    recent w now (q.filter fun t => now' - t < w) = recent w now q := by
  unfold recent
  rw [List.countP_filter]
  refine List.countP_congr fun t _ => ?_
  simp only [Bool.and_eq_true, decide_eq_true_eq]
  omega

theorem Covers.retain (hc : Covers w now q l) :
    Covers w now (q.filter fun t => now - t < w) l := by
  intro later hl
  rw [recent_retain hl]
  exact hc later hl

/-- The queue may grow by anything. -/
theorem Covers.append (hc : Covers w now q l) (q' : List Nat) : Covers w now (q ++ q') l := by
  intro later hl
  rw [recent_append]
  exact Nat.le_trans (hc later hl) (Nat.le_add_right _ _)

/-- A time goes into the queue and into the list. -/
theorem Covers.push (hc : Covers w now q l) (t : Nat) : Covers w now (q ++ [t]) (t :: l) := by
  intro later hl
  rw [recent_append, recent_cons]
  exact Nat.add_le_add_right (hc later hl) _

/-- A queue shorter than the cap leaves room in the window that ends now. -/
theorem Covers.recent_lt (hc : Covers w now q l) (hq : (Window.prune q now w).length < cap) :
    recent w now l < cap := by
  have hcov := hc.prune now (Nat.le_refl now)
  have hlen : recent w now (Window.prune q now w) ≤ (Window.prune q now w).length :=
    recent_le_length
  omega

/-- Every half-open window of the length `w` holds at most `cap` times. -/
def Bounded (w cap : Nat) (l : List Nat) : Prop :=
  ∀ x, (l.countP fun t => x ≤ t ∧ t < x + w) ≤ cap

theorem bounded_nil : Bounded w cap [] := fun _ => Nat.zero_le _

/-- A time no earlier than all others is admitted while there is room. -/
theorem Bounded.cons (hl : Bounded w cap l) (hr : recent w now l < cap) :
    Bounded w cap (now :: l) := by
  intro x
  by_cases hx : x ≤ now ∧ now < x + w
  · rw [List.countP_cons_of_pos (by simpa using hx)]
    -- what the window holds besides lies in the one that ends now
    have hle : (l.countP fun t => x ≤ t ∧ t < x + w) ≤ recent w now l := by
      refine List.countP_mono_left fun t _ ht => ?_
      simp only [decide_eq_true_eq] at ht ⊢
      omega
    omega
  · rw [List.countP_cons_of_neg (by simpa using hx)]
    exact hl x

-- ============================================================== queues of admissions

/-- In order, what is left is what the window holds. -/
theorem length_prune (hq : q.Pairwise (· ≤ ·)) : (prune q now w).length = recent w now q := by
  unfold prune recent
  induction q with
  | nil => rfl
  | cons t q ih =>
    rw [List.pairwise_cons] at hq
    rw [List.dropWhile_cons]
    split
    case isTrue ht =>
      have hout : ¬ now - t < w := by
        have := of_decide_eq_true ht
        omega
      rw [ih hq.2, List.countP_cons_of_neg (by simpa using hout)]
    case isFalse ht =>
      have hin : now - t < w := by
        simpa using ht
      -- the later ones are younger still
      refine (List.countP_eq_length.mpr fun s hs => ?_).symm
      refine decide_eq_true ?_
      cases hs with
      | head => exact hin
      | tail _ hs =>
          have := hq.1 s hs
          omega

/-- A queue in order that holds what was admitted, as far as it matters from
now on, of a list that no window holds too much of. -/
structure Admitted (w cap now : Nat) (q l : List Nat) : Prop where
  sorted : q.Pairwise (· ≤ ·)
  past : ∀ t ∈ q, t ≤ now
  same : ∀ later, now ≤ later → recent w later q = recent w later l
  bounded : Bounded w cap l

theorem admitted_nil : Admitted w cap now [] [] where
  sorted := .nil
  past := fun _ ht => nomatch ht
  same := fun _ _ => rfl
  bounded := bounded_nil

theorem Admitted.later (h : Admitted w cap now q l) (hle : now ≤ now') :
    Admitted w cap now' q l where
  sorted := h.sorted
  past := fun t ht => Nat.le_trans (h.past t ht) hle
  same := fun later hl => h.same later (Nat.le_trans hle hl)
  bounded := h.bounded

theorem Admitted.prune (h : Admitted w cap now q l) : Admitted w cap now (prune q now w) l where
  sorted := h.sorted.sublist (List.dropWhile_sublist _)
  past := fun t ht => h.past t ((List.dropWhile_sublist _).mem ht)
  same := fun later hl => (recent_prune hl).trans (h.same later hl)
  bounded := h.bounded

/-- A pruned queue is as long as the window is full. -/
theorem Admitted.length_prune (h : Admitted w cap now q l) :
    (Window.prune q now w).length = recent w now l :=
  (Window.length_prune h.sorted).trans (h.same now (Nat.le_refl now))

/-- The time of the call goes to the end of the queue and into the list. -/
theorem Admitted.push (h : Admitted w cap now q l) (hr : recent w now l < cap) :
    Admitted w cap now (q ++ [now]) (now :: l) where
  sorted := by
    refine List.pairwise_append.mpr ⟨h.sorted, List.pairwise_singleton _ _, fun s hs t ht => ?_⟩
    rw [List.mem_singleton.mp ht]
    exact h.past s hs
  past := by
    intro t ht
    rw [List.mem_append, List.mem_singleton] at ht
    obtain ht | ht := ht
    · exact h.past t ht
    · exact Nat.le_of_eq ht
  same := by
    intro later hl
    rw [recent_append, recent_cons now l, h.same later hl]
  bounded := h.bounded.cons hr

/-- No window that ends now holds more than the cap. -/
theorem Bounded.recent_le (hl : Bounded w cap l) (hpast : ∀ t ∈ l, t ≤ now) :
    recent w now l ≤ cap := by
  refine Nat.le_trans (List.countP_mono_left fun t ht h => ?_) (hl (now + 1 - w))
  have := hpast t ht
  simp only [decide_eq_true_eq] at h ⊢
  omega

end Window

end Ruletka
