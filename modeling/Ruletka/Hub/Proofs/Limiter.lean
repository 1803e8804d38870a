/-
The sliding window of a limiter.

A limiter begins with an empty queue and is asked at times that do not go
back. Its queue is in order and holds the calls it let through, as far as
they are within the window of the last call or younger. So a refusal means
that the window that ends with the call is full, and no window of that
length is ever more than full, wherever it begins.
-/
import Ruletka.Hub.Requeue
import Ruletka.Lib.Window

namespace Ruletka

namespace SimpleHub

/-- A limiter's queue, and the times of the calls it let through, the latest
first. -/
structure Limited where
  queue : List Instant
  passed : List Instant

namespace Limited

variable {most window now : Nat} {s : Limited}

/-- `ClientLimiter::new`. -/
def new : Limited := ⟨[], []⟩

/-- The answer to a call. -/
def allows (s : Limited) (most window now : Nat) : Bool :=
  (allow s.queue most window now).2

/-- What a call leaves. -/
def call (most window : Nat) (s : Limited) (now : Nat) : Limited where
  queue := (allow s.queue most window now).1
  passed := if s.allows most window now then now :: s.passed else s.passed

/-- What calls at these times leave. -/
def calls (most window : Nat) (times : List Nat) : Limited :=
  times.foldl (call most window) new

/-- How many of these times are between two, both included. -/
def countIn (a b : Nat) (times : List Nat) : Nat := times.countP fun t => a ≤ t ∧ t ≤ b

-- ======================================================================== one call

/-- A strict comparison at the edge is a window of one tick more. -/
theorem prune_eq (q : List Instant) : prune q window now = Window.prune q now (window + 1) := rfl

theorem allows_iff :
    s.allows most window now = true ↔ (Window.prune s.queue now (window + 1)).length < most := by
  unfold allows allow
  rw [prune_eq]
  dsimp only
  split
  case isTrue h => exact iff_of_false Bool.false_ne_true (Nat.not_lt.mpr h)
  case isFalse h => exact iff_of_true rfl (Nat.lt_of_not_le h)

theorem queue_call : (s.call most window now).queue
    = if s.allows most window now then Window.prune s.queue now (window + 1) ++ [now]
      else Window.prune s.queue now (window + 1) := by
  unfold call allows allow
  rw [prune_eq]
  dsimp only
  split
  · rfl
  · rfl

/-- The state fits the calls so far, the last of which was no later than `now`. -/
def Fits (most window now : Nat) (s : Limited) : Prop :=
  Window.Admitted (window + 1) most now s.queue s.passed ∧ ∀ t ∈ s.passed, t ≤ now

theorem Fits.later (h : s.Fits most window now) {now' : Nat} (hle : now ≤ now') :
    s.Fits most window now' :=
  ⟨h.1.later hle, fun t ht => Nat.le_trans (h.2 t ht) hle⟩

/-- A call is let through when the window that ends with it has room. -/
theorem Fits.allows_iff (h : s.Fits most window now) :
    s.allows most window now = true ↔ Window.recent (window + 1) now s.passed < most := by
  rw [Limited.allows_iff, h.1.length_prune]

/-- **Step**: a call keeps the state fitting. -/
theorem Fits.call (h : s.Fits most window now) : (s.call most window now).Fits most window now := by
  have hqueue := @queue_call most window now s
  by_cases hok : s.allows most window now = true
  · rw [if_pos hok] at hqueue
    have hpassed : (s.call most window now).passed = now :: s.passed := if_pos hok
    unfold Fits
    rw [hqueue, hpassed]
    refine ⟨h.1.prune.push (h.allows_iff.mp hok), fun t ht => ?_⟩
    cases ht with
    | head => exact Nat.le_refl now
    | tail _ ht => exact h.2 t ht
  · rw [if_neg hok] at hqueue
    have hpassed : (s.call most window now).passed = s.passed := if_neg hok
    unfold Fits
    rw [hqueue, hpassed]
    exact ⟨h.1.prune, h.2⟩

-- ======================================================================= all calls

theorem calls_append_singleton (times : List Nat) (now : Instant) :
    calls most window (times ++ [now]) = (calls most window times).call most window now := by
  unfold calls
  rw [List.foldl_append]
  rfl

/-- **Run**: the state fits after calls at times that do not go back. -/
theorem calls_fits {times : List Nat} (hsorted : times.Pairwise (· ≤ ·))
    (hpast : ∀ t ∈ times, t ≤ now) : (calls most window times).Fits most window now := by
  induction times using List.reverseRecOn generalizing now with
  | nil => exact ⟨Window.admitted_nil, fun _ ht => nomatch ht⟩
  | append_singleton times last ih =>
    obtain ⟨hsorted, -, hlast⟩ := List.pairwise_append.mp hsorted
    rw [calls_append_singleton]
    have hfits := (ih hsorted fun t ht => hlast t ht last List.mem_cons_self).call
    exact hfits.later (hpast last (List.mem_append_right _ List.mem_cons_self))

/-- Only calls pass. -/
theorem passed_sublist (times : List Nat) :
    (calls most window times).passed.Sublist times.reverse := by
  induction times using List.reverseRecOn with
  | nil => exact .slnil
  | append_singleton times last ih =>
    rw [calls_append_singleton, List.reverse_append]
    unfold call
    dsimp only
    split
    · exact ih.cons_cons last
    · exact ih.cons last

theorem countIn_le_of_bounded {times : List Nat} (h : Window.Bounded (window + 1) most times)
    (x : Nat) : countIn x (x + window) times ≤ most := by
  refine Nat.le_trans (List.countP_mono_left fun t _ ht => ?_) (h x)
  rw [decide_eq_true_eq] at ht ⊢
  exact ⟨ht.1, Nat.lt_succ_of_le ht.2⟩

theorem Fits.countIn_now (h : s.Fits most window now) :
    countIn (now - window) now s.passed = Window.recent (window + 1) now s.passed := by
  refine List.countP_congr fun t ht => ?_
  have hle : t ≤ now := h.2 t ht
  rw [decide_eq_true_eq, decide_eq_true_eq]
  omega

/-- **Sliding window**: no window of the length holds more than the cap of
the calls that pass; a call is refused exactly when the window that ends with
it holds the cap; and calls that keep within the rate all pass. -/
theorem sliding_window {times : List Nat} (hsorted : times.Pairwise (· ≤ ·)) :
    (∀ x, countIn x (x + window) (calls most window times).passed ≤ most)
    ∧ (∀ before now after, times = before ++ now :: after →
        ((calls most window before).allows most window now = false
          ↔ countIn (now - window) now (calls most window before).passed = most))
    ∧ ((∀ x, countIn x (x + window) times ≤ most) →
        ∀ before now after, times = before ++ now :: after →
          (calls most window before).allows most window now = true) := by
  -- the calls before one of them, and what they leave
  have hbefore : ∀ before now after, times = before ++ now :: after →
      before.Pairwise (· ≤ ·) ∧ ∀ t ∈ before, t ≤ now := by
    intro before now after heq
    obtain ⟨hs, -, hle⟩ := List.pairwise_append.mp (heq ▸ hsorted)
    exact ⟨hs, fun t ht => hle t ht now List.mem_cons_self⟩
  have hrefused : ∀ before now after, times = before ++ now :: after →
      ((calls most window before).allows most window now = false
        ↔ countIn (now - window) now (calls most window before).passed = most) := by
    intro before now after heq
    obtain ⟨hs, hpast⟩ := hbefore before now after heq
    have hfits := @calls_fits most window now before hs hpast
    have hle := hfits.1.bounded.recent_le hfits.2
    rw [Bool.eq_false_iff, ne_eq, hfits.allows_iff, hfits.countIn_now]
    omega
  refine ⟨fun x => ?_, hrefused, fun hrate before now after heq => ?_⟩
  · obtain ⟨last, hlast⟩ : ∃ last, ∀ t ∈ times, t ≤ last :=
      ⟨times.toFinset.sup id, fun t ht => Finset.le_sup (f := id) (List.mem_toFinset.mpr ht)⟩
    exact countIn_le_of_bounded (calls_fits hsorted hlast).1.bounded x
  · by_contra hno
    have hfull := (hrefused before now after heq).mp (Bool.eq_false_of_not_eq_true hno)
    -- the calls that passed and the refused one are in the window that ends with it
    have hsub : countIn (now - window) now (calls most window before).passed
        ≤ countIn (now - window) (now - window + window) before := by
      refine Nat.le_trans (passed_sublist before).countP_le ?_
      rw [List.countP_reverse]
      refine List.countP_mono_left fun t _ ht => ?_
      rw [decide_eq_true_eq] at ht ⊢
      omega
    have hcount : countIn (now - window) (now - window + window) (before ++ now :: after)
        = countIn (now - window) (now - window + window) before
          + (countIn (now - window) (now - window + window) after + 1) := by
      refine List.countP_append.trans (congrArg _ (List.countP_cons_of_pos ?_))
      rw [decide_eq_true_eq]
      omega
    have hwindow := hrate (now - window)
    rw [heq, hcount] at hwindow
    omega

/-- One call in five ticks: the second call at once is refused, and so is the
one at the edge of the window. -/
theorem sliding_window_edge :
    (∀ x, countIn x (x + 5) (calls 1 5 [0, 0, 5, 6]).passed ≤ 1)
      ∧ (calls 1 5 [0, 0, 5, 6]).passed = [6, 0] :=
  ⟨(@sliding_window 1 5 [0, 0, 5, 6] (by decide)).1, by decide⟩

end Limited

end SimpleHub

end Ruletka
