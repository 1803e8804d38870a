/-
Friendships, requests and blocks as directed edges.

Two friends have both edges; a request is one edge, and so is a block. The
ties are in order when friendship goes both ways and is with another, a
request is to somebody else who is no friend, and over a block in either
direction there is neither friendship nor request. Each operation keeps them
in order under what it asks of the pair: a request must be to another, and
neither of the two has blocked the other.
-/
import Mathlib.Data.Finset.Prod

namespace Ruletka

/-- The edges among users. -/
structure Ties (U : Type) where
  friends : Finset (U × U)
  requests : Finset (U × U)
  blocks : Finset (U × U)

namespace Ties

variable {U : Type} [DecidableEq U]

/-- Either of two users has blocked the other. -/
def Parted (t : Ties U) (a b : U) : Prop := (a, b) ∈ t.blocks ∨ (b, a) ∈ t.blocks

/-- Ties in order. -/
structure Sound (t : Ties U) : Prop where
  symm : ∀ a b, (a, b) ∈ t.friends → (b, a) ∈ t.friends
  irrefl : ∀ a, (a, a) ∉ t.friends
  requests_ne : ∀ a b, (a, b) ∈ t.requests → a ≠ b
  requests_apart : ∀ a b, (a, b) ∈ t.requests → (a, b) ∉ t.friends
  blocks_friends : ∀ a b, (a, b) ∈ t.blocks → (a, b) ∉ t.friends
  blocks_requests : ∀ a b, (a, b) ∈ t.blocks → (a, b) ∉ t.requests ∧ (b, a) ∉ t.requests

/-- Take back the requests of a pair. -/
def clear (t : Ties U) (a b : U) : Ties U :=
  { t with requests := (t.requests.erase (a, b)).erase (b, a) }

/-- Make a pair friends. -/
def befriend (t : Ties U) (a b : U) : Ties U :=
  { t.clear a b with friends := insert (a, b) (insert (b, a) t.friends) }

/-- End what ties a pair. -/
def part (t : Ties U) (a b : U) : Ties U :=
  { t.clear a b with friends := (t.friends.erase (a, b)).erase (b, a) }

/-- File a request. -/
def request (t : Ties U) (a b : U) : Ties U := { t with requests := insert (a, b) t.requests }

/-- Block a user, which ends what ties the pair. -/
def block (t : Ties U) (a b : U) : Ties U :=
  { t.part a b with blocks := insert (a, b) t.blocks }

/-- Lift a block. -/
def unblock (t : Ties U) (a b : U) : Ties U := { t with blocks := t.blocks.erase (a, b) }

variable {t : Ties U} {a b : U}

omit [DecidableEq U] in
theorem Sound.empty : (⟨∅, ∅, ∅⟩ : Ties U).Sound where
  symm _ _ h := absurd h (Finset.notMem_empty _)
  irrefl _ := Finset.notMem_empty _
  requests_ne _ _ h := absurd h (Finset.notMem_empty _)
  requests_apart _ _ h := absurd h (Finset.notMem_empty _)
  blocks_friends _ _ h := absurd h (Finset.notMem_empty _)
  blocks_requests _ _ h := absurd h (Finset.notMem_empty _)

theorem mem_clear {p : U × U} :
    p ∈ (t.clear a b).requests ↔ p ≠ (b, a) ∧ p ≠ (a, b) ∧ p ∈ t.requests := by
  unfold clear
  rw [Finset.mem_erase, Finset.mem_erase]

theorem mem_part {p : U × U} :
    p ∈ (t.part a b).friends ↔ p ≠ (b, a) ∧ p ≠ (a, b) ∧ p ∈ t.friends := by
  unfold part
  rw [Finset.mem_erase, Finset.mem_erase]

theorem mem_befriend {p : U × U} :
    p ∈ (t.befriend a b).friends ↔ p = (a, b) ∨ p = (b, a) ∨ p ∈ t.friends := by
  unfold befriend
  rw [Finset.mem_insert, Finset.mem_insert]

theorem Sound.clear (h : t.Sound) (a b : U) : (t.clear a b).Sound where
  symm := h.symm
  irrefl := h.irrefl
  requests_ne x y hxy := h.requests_ne x y (mem_clear.mp hxy).2.2
  requests_apart x y hxy := h.requests_apart x y (mem_clear.mp hxy).2.2
  blocks_friends := h.blocks_friends
  blocks_requests x y hxy := ⟨fun hr => (h.blocks_requests x y hxy).1 (mem_clear.mp hr).2.2,
    fun hr => (h.blocks_requests x y hxy).2 (mem_clear.mp hr).2.2⟩

theorem Sound.part (h : t.Sound) (a b : U) : (t.part a b).Sound where
  symm x y hxy := by
    obtain ⟨hba, hab, hf⟩ := mem_part.mp hxy
    refine mem_part.mpr ⟨fun he => hab ?_, fun he => hba ?_, h.symm x y hf⟩
    · rw [(Prod.mk.inj he).1, (Prod.mk.inj he).2]
    · rw [(Prod.mk.inj he).1, (Prod.mk.inj he).2]
  irrefl x hx := h.irrefl x (mem_part.mp hx).2.2
  requests_ne := (h.clear a b).requests_ne
  requests_apart x y hxy hf := (h.clear a b).requests_apart x y hxy (mem_part.mp hf).2.2
  blocks_friends x y hxy hf := h.blocks_friends x y hxy (mem_part.mp hf).2.2
  blocks_requests := (h.clear a b).blocks_requests

/-- Friends have no request left between them. -/
theorem Sound.befriend (h : t.Sound) (hne : a ≠ b) (hparted : ¬ t.Parted a b) :
    (t.befriend a b).Sound where
  symm x y hxy := by
    rcases mem_befriend.mp hxy with he | he | hf
    · cases he
      exact mem_befriend.mpr (.inr (.inl rfl))
    · cases he
      exact mem_befriend.mpr (.inl rfl)
    · exact mem_befriend.mpr (.inr (.inr (h.symm x y hf)))
  irrefl x hx := by
    rcases mem_befriend.mp hx with he | he | hf
    · exact hne ((Prod.mk.inj he).1.symm.trans (Prod.mk.inj he).2)
    · exact hne ((Prod.mk.inj he).2.symm.trans (Prod.mk.inj he).1)
    · exact h.irrefl x hf
  requests_ne := (h.clear a b).requests_ne
  requests_apart x y hxy hf := by
    obtain ⟨hba, hab, hr⟩ := mem_clear.mp hxy
    rcases mem_befriend.mp hf with he | he | hf
    · exact hab he
    · exact hba he
    · exact h.requests_apart x y hr hf
  blocks_friends x y hxy hf := by
    rcases mem_befriend.mp hf with he | he | hf
    · cases he
      exact hparted (.inl hxy)
    · cases he
      exact hparted (.inr hxy)
    · exact h.blocks_friends x y hxy hf
  blocks_requests := (h.clear a b).blocks_requests

theorem Sound.request (h : t.Sound) (hne : a ≠ b) (hparted : ¬ t.Parted a b)
    (hfriends : (a, b) ∉ t.friends) : (t.request a b).Sound where
  symm := h.symm
  irrefl := h.irrefl
  requests_ne x y hxy := by
    rcases Finset.mem_insert.mp hxy with he | hr
    · cases he
      exact hne
    · exact h.requests_ne x y hr
  requests_apart x y hxy := by
    rcases Finset.mem_insert.mp hxy with he | hr
    · cases he
      exact hfriends
    · exact h.requests_apart x y hr
  blocks_friends := h.blocks_friends
  blocks_requests x y hxy := by
    refine ⟨fun hr => ?_, fun hr => ?_⟩
    · rcases Finset.mem_insert.mp hr with he | hr
      · cases he
        exact hparted (.inl hxy)
      · exact (h.blocks_requests x y hxy).1 hr
    · rcases Finset.mem_insert.mp hr with he | hr
      · cases he
        exact hparted (.inr hxy)
      · exact (h.blocks_requests x y hxy).2 hr

theorem Sound.block (h : t.Sound) (a b : U) : (t.block a b).Sound where
  symm := (h.part a b).symm
  irrefl := (h.part a b).irrefl
  requests_ne := (h.part a b).requests_ne
  requests_apart := (h.part a b).requests_apart
  blocks_friends x y hxy := by
    rcases Finset.mem_insert.mp hxy with he | hb
    · exact fun hf => (mem_part.mp hf).2.1 he
    · exact (h.part a b).blocks_friends x y hb
  blocks_requests x y hxy := by
    rcases Finset.mem_insert.mp hxy with he | hb
    · cases he
      exact ⟨fun hr => (mem_clear.mp hr).2.1 rfl, fun hr => (mem_clear.mp hr).1 rfl⟩
    · exact (h.part a b).blocks_requests x y hb

theorem Sound.unblock (h : t.Sound) (a b : U) : (t.unblock a b).Sound where
  symm := h.symm
  irrefl := h.irrefl
  requests_ne := h.requests_ne
  requests_apart := h.requests_apart
  blocks_friends x y hxy := h.blocks_friends x y (Finset.mem_of_mem_erase hxy)
  blocks_requests x y hxy := h.blocks_requests x y (Finset.mem_of_mem_erase hxy)

end Ties

end Ruletka
