/-
Folding a list until an element says stop.

A reader of a log takes entries one by one and ends early in two ways: it
stops at an entry it does not accept and keeps what it has, or it gives up
and returns nothing. `scan` is that fold. Reading a longer log is reading
the first part and, only if the reader got through it, reading on.
-/

namespace Ruletka

/-- What one entry does to a reader. -/
inductive Verdict (σ : Type) where
  | go (s : σ)
  /-- stop here, keeping the state -/
  | halt
  /-- no result at all -/
  | abort
  deriving DecidableEq, Repr

variable {σ α : Type}

/-- Read entries until one says stop; the flag tells whether none did. -/
def scan (f : σ → α → Verdict σ) : σ → List α → Option (σ × Bool)
  | s, [] => some (s, true)
  | s, a :: l => match f s a with
    | .go s' => scan f s' l
    | .halt => some (s, false)
    | .abort => none

variable {f : σ → α → Verdict σ}

/-- What every entry that is taken keeps, reading keeps. -/
theorem scan_invariant {I : σ → Prop} (hgo : ∀ s a s', I s → f s a = .go s' → I s')
    {l : List α} {s s' : σ} {b : Bool} (hs : I s) (h : scan f s l = some (s', b)) : I s' := by
  induction l generalizing s with
  | nil =>
      rw [scan] at h
      cases h
      exact hs
  | cons a l ih =>
      rw [scan] at h
      cases hf : f s a with
      | go s₁ =>
          rw [hf] at h
          exact ih (hgo s a s₁ hs hf) h
      | halt =>
          rw [hf] at h
          cases h
          exact hs
      | abort =>
          rw [hf] at h
          cases h

/-- The rest of a log is read by a reader that got through the first part. -/
theorem scan_append (l l' : List α) (s : σ) :
    scan f s (l ++ l') = match scan f s l with
      | some (s', true) => scan f s' l'
      | r => r := by
  induction l generalizing s with
  | nil => rfl
  | cons a l ih =>
      rw [List.cons_append, scan, scan]
      cases f s a with
      | go s' => exact ih s'
      | halt => rfl
      | abort => rfl

theorem scan_append_of_through {l l' : List α} {s s' : σ} (h : scan f s l = some (s', true)) :
    scan f s (l ++ l') = scan f s' l' := by
  rw [scan_append, h]

theorem scan_append_of_halted {l l' : List α} {s s' : σ}
    (h : scan f s l = some (s', false)) : scan f s (l ++ l') = some (s', false) := by
  rw [scan_append, h]

end Ruletka
