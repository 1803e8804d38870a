/-
Clocks, and the records in play.

A lobby has no clock of its own: the latest timestamp of its records is the
time it sweeps by. A record is in play when one of the states that are merged
carries it, and merging brings in no other.
-/
import Ruletka.Contract.Proofs.Merge

namespace Ruletka.Contract

open Register

namespace LobbyState

variable {s m : LobbyState} {U : List LobbyState}

-- ======================================================================= the clock

theorem le_now_of_offer {k : Bytes32} {o : WaitingOffer} (h : o ∈ s.offers.get? k) :
    o.heartbeatMs ≤ s.networkNowMs := by
  have hk := Finset.le_sup (f := fun k => ((s.offers.get? k).map (·.heartbeatMs)).getD 0)
    ((Table.mem_keys_iff _ _).mpr (Option.isSome_iff_exists.mpr ⟨o, h⟩))
  rw [show s.offers.get? k = some o from h] at hk
  exact hk.trans ((le_max_left _ _).trans (le_max_left _ _))

theorem le_now_of_claim {k : Bytes32} {c : Claim} (h : c ∈ s.claims.get? k) :
    c.createdMs ≤ s.networkNowMs := by
  have hk := Finset.le_sup (f := fun k => ((s.claims.get? k).map (·.createdMs)).getD 0)
    ((Table.mem_keys_iff _ _).mpr (Option.isSome_iff_exists.mpr ⟨c, h⟩))
  rw [show s.claims.get? k = some c from h] at hk
  exact hk.trans ((le_max_right _ _).trans (le_max_left _ _))

theorem le_now_of_leave {k : Bytes32} {m : LeaveMark} (h : m ∈ s.leaves.get? k) :
    m.leftMs ≤ s.networkNowMs := by
  have hk := Finset.le_sup (f := fun k => ((s.leaves.get? k).map (·.leftMs)).getD 0)
    ((Table.mem_keys_iff _ _).mpr (Option.isSome_iff_exists.mpr ⟨m, h⟩))
  rw [show s.leaves.get? k = some m from h] at hk
  exact hk.trans (le_max_right _ _)

/-- The clock is set by the records. -/
theorem now_le {n : Nat} (ho : ∀ k, ∀ o ∈ s.offers.get? k, o.heartbeatMs ≤ n)
    (hc : ∀ k, ∀ c ∈ s.claims.get? k, c.createdMs ≤ n)
    (hl : ∀ k, ∀ m ∈ s.leaves.get? k, m.leftMs ≤ n) : s.networkNowMs ≤ n := by
  have hsup : ∀ {V : Type} (t : Table Bytes32 V) (f : V → Nat),
      (∀ k, ∀ v ∈ t.get? k, f v ≤ n) → (t.keys.sup fun k => ((t.get? k).map f).getD 0) ≤ n := by
    intro V t f hle
    refine Finset.sup_le fun k _ => ?_
    cases hv : t.get? k with
    | none => exact Nat.zero_le _
    | some v => exact hle k v hv
  exact max_le (max_le (hsup _ _ ho) (hsup _ _ hc)) (hsup _ _ hl)

-- ============================================================== the records in play

/-- The peers with an offer in play. -/
def offerKeys (U : List LobbyState) : Finset PeerId :=
  U.foldr (fun a ks => a.offers.keys ∪ ks) ∅

/-- The claims in play. -/
def claimKeys (U : List LobbyState) : Finset Bytes32 :=
  U.foldr (fun a ks => a.claims.keys ∪ ks) ∅

/-- The latest timestamp in play. -/
def latest (U : List LobbyState) : Nat := U.foldr (fun a t => max a.networkNowMs t) 0

theorem mem_offerKeys {k : PeerId} {a : LobbyState} (ha : a ∈ U)
    (hk : (a.offers.get? k).isSome) : k ∈ offerKeys U := by
  induction U with
  | nil => cases ha
  | cons b U ih =>
      refine Finset.mem_union.mpr ?_
      rcases List.mem_cons.mp ha with rfl | ha
      · exact .inl ((Table.mem_keys_iff _ _).mpr hk)
      · exact .inr (ih ha)

theorem mem_claimKeys {k : Bytes32} {a : LobbyState} (ha : a ∈ U)
    (hk : (a.claims.get? k).isSome) : k ∈ claimKeys U := by
  induction U with
  | nil => cases ha
  | cons b U ih =>
      refine Finset.mem_union.mpr ?_
      rcases List.mem_cons.mp ha with rfl | ha
      · exact .inl ((Table.mem_keys_iff _ _).mpr hk)
      · exact .inr (ih ha)

theorem le_latest {a : LobbyState} (ha : a ∈ U) : a.networkNowMs ≤ latest U := by
  induction U with
  | nil => cases ha
  | cons b U ih =>
      rcases List.mem_cons.mp ha with rfl | ha
      · exact le_max_left _ _
      · exact (ih ha).trans (le_max_right _ _)

/-- Every record of a state is in play under its key. -/
structure Drawn (U : List LobbyState) (m : LobbyState) : Prop where
  offers : ∀ k, ∀ o ∈ m.offers.get? k, ∃ a ∈ U, o ∈ a.offers.get? k
  leaves : ∀ k, ∀ l ∈ m.leaves.get? k, ∃ a ∈ U, l ∈ a.leaves.get? k
  claims : ∀ k, ∀ c ∈ m.claims.get? k, ∃ a ∈ U, c ∈ a.claims.get? k

theorem drawn_of_mem (hm : m ∈ U) : Drawn U m :=
  ⟨fun _ _ ho => ⟨m, hm, ho⟩, fun _ _ hl => ⟨m, hm, hl⟩, fun _ _ hc => ⟨m, hm, hc⟩⟩

theorem mem_mergeBy {V : Type} {beats : V → V → Bool} {t u : Table Bytes32 V} {k : Bytes32}
    {v : V} (hv : v ∈ (t.mergeBy beats u).get? k) : v ∈ t.get? k ∨ v ∈ u.get? k := by
  rw [Table.get?_mergeBy] at hv
  rcases @pick_choice V beats (t.get? k) (u.get? k) with h | h
  · exact .inl (h ▸ hv)
  · exact .inr (h ▸ hv)

theorem Drawn.merge (hs : Drawn U s) (hm : Drawn U m) : Drawn U (s.merge m) where
  offers k o ho := (mem_mergeBy ho).elim (hs.offers k o) (hm.offers k o)
  leaves k l hl := (mem_mergeBy hl).elim (hs.leaves k l) (hm.leaves k l)
  claims k c hc := (mem_mergeBy hc).elim (hs.claims k c) (hm.claims k c)

/-- Nothing in play is later than the latest timestamp. -/
theorem Drawn.now_le (hm : Drawn U m) : m.networkNowMs ≤ latest U := by
  apply LobbyState.now_le
  · intro k o ho
    obtain ⟨a, ha, ho⟩ := hm.offers k o ho
    exact (le_now_of_offer ho).trans (le_latest ha)
  · intro k c hc
    obtain ⟨a, ha, hc⟩ := hm.claims k c hc
    exact (le_now_of_claim hc).trans (le_latest ha)
  · intro k l hl
    obtain ⟨a, ha, hl⟩ := hm.leaves k l hl
    exact (le_now_of_leave hl).trans (le_latest ha)

end LobbyState

end Ruletka.Contract
