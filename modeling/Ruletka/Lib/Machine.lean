/-
Machines that take one labelled step at a time.

A `Machine` has start states and steps under labels. Two ways to change one
keep its states: `guard` drops the steps whose label does not meet a
condition on the state before it, and `watch` adds a variable that records
the history and decides nothing. An invariant is proved once, at the start
and over a step, and holds in every state reached; a concrete run is a list
of labels fed to a computable step (`follow`).
-/

namespace Ruletka

/-- Start states and labelled steps. -/
structure Machine (S L : Type) where
  start : S → Prop
  step : S → L → S → Prop

namespace Machine

variable {S L G : Type} {M : Machine S L}

/-- The states some run ends in. -/
inductive Reach (M : Machine S L) : S → Prop where
  | start {s : S} : M.start s → Reach M s
  | step {s s' : S} {l : L} : Reach M s → M.step s l s' → Reach M s'

/-- What holds at the start and over every step from a reached state holds
in every reached state. -/
theorem Reach.invariant {I : S → Prop} (hstart : ∀ s, M.start s → I s)
    (hstep : ∀ s l s', M.Reach s → I s → M.step s l s' → I s') {s : S}
    (h : M.Reach s) : I s := by
  induction h with
  | start h => exact hstart _ h
  | step hr hs ih => exact hstep _ _ _ hr ih hs

/-- The machine that goes on from a state. -/
def onward (M : Machine S L) (s : S) : Machine S L := { M with start := (· = s) }

theorem Reach.onward {s s' : S} (h : M.Reach s) (h' : (M.onward s).Reach s') : M.Reach s' := by
  induction h' with
  | start heq =>
      cases heq
      exact h
  | step _ hs ih => exact .step ih hs

-- =================================================================== conditions

/-- Only the steps that meet a condition on the state before them. -/
def guard (M : Machine S L) (C : S → L → Prop) : Machine S L where
  start := M.start
  step s l s' := C s l ∧ M.step s l s'

theorem Reach.of_guard {C : S → L → Prop} {s : S} (h : (M.guard C).Reach s) : M.Reach s := by
  induction h with
  | start h => exact .start h
  | step _ hs ih => exact .step ih hs.2

-- ====================================================================== history

/-- The machine with a variable that each step updates. -/
def watch (M : Machine S L) (g₀ : G) (update : G → S → L → S → G) : Machine (S × G) L where
  start p := M.start p.1 ∧ p.2 = g₀
  step p l p' := M.step p.1 l p'.1 ∧ p'.2 = update p.2 p.1 l p'.1

/-- Watching hides no state. -/
theorem Reach.exists_watch {g₀ : G} {update : G → S → L → S → G} {s : S} (h : M.Reach s) :
    ∃ g, (M.watch g₀ update).Reach (s, g) := by
  induction h with
  | start h => exact ⟨g₀, .start ⟨h, rfl⟩⟩
  | @step s s' l _ hs ih =>
      obtain ⟨g, hg⟩ := ih
      exact ⟨update g s l s', .step hg ⟨hs, rfl⟩⟩

/-- A computable step of the watched machine. -/
def watchNext (next : S → L → Option S) (update : G → S → L → S → G) (p : S × G) (l : L) :
    Option (S × G) :=
  (next p.1 l).map fun s' => (s', update p.2 p.1 l s')

theorem watchNext_step {next : S → L → Option S} {update : G → S → L → S → G} {g₀ : G}
    (hnext : ∀ s l s', next s l = some s' → M.step s l s') (p : S × G) (l : L) (p' : S × G)
    (h : watchNext next update p l = some p') : (M.watch g₀ update).step p l p' := by
  obtain ⟨s', hs, rfl⟩ := Option.map_eq_some_iff.mp h
  exact ⟨hnext _ _ _ hs, rfl⟩

-- ================================================================ concrete runs

/-- Feed a list of labels to a computable step. -/
def follow (next : S → L → Option S) : S → List L → Option S
  | s, [] => some s
  | s, l :: ls => (next s l).bind fun s' => follow next s' ls

/-- A computable step of the guarded machine. -/
def guardNext (C : S → L → Prop) [∀ s l, Decidable (C s l)] (next : S → L → Option S) (s : S)
    (l : L) : Option S :=
  if C s l then next s l else none

theorem guardNext_step {C : S → L → Prop} [∀ s l, Decidable (C s l)] {next : S → L → Option S}
    (hnext : ∀ s l s', next s l = some s' → M.step s l s') (s : S) (l : L) (s' : S)
    (h : guardNext C next s l = some s') : (M.guard C).step s l s' := by
  unfold guardNext at h
  split at h
  · next hC => exact ⟨hC, hnext s l s' h⟩
  · cases h

/-- A run the computable step accepts ends in a reached state. -/
theorem follow_reach {next : S → L → Option S}
    (hnext : ∀ s l s', next s l = some s' → M.step s l s') :
    ∀ (ls : List L) {s s' : S}, M.Reach s → follow next s ls = some s' → M.Reach s'
  | [], s, s', hs, h => by
      cases h
      exact hs
  | l :: ls, s, s', hs, h => by
      rw [follow] at h
      obtain ⟨s₁, h₁, h⟩ := Option.bind_eq_some_iff.mp h
      exact follow_reach hnext ls (hs.step (hnext s l s₁ h₁)) h

/-- A run that ends where a test passes reaches such a state. -/
theorem exists_reach {next : S → L → Option S}
    (hnext : ∀ s l s', next s l = some s' → M.step s l s') {s₀ : S} (h₀ : M.start s₀)
    {ls : List L} {p : S → Bool} (h : (follow next s₀ ls).any p = true) :
    ∃ s, M.Reach s ∧ p s = true := by
  obtain ⟨s, hs, hp⟩ := (Option.any_eq_true _ _).mp h
  exact ⟨s, follow_reach hnext ls (.start h₀) hs, hp⟩

end Machine

end Ruletka
