/-
The merge of lobby states.

The three maps merge like registers: offers and leave marks by a rank,
strict for the one and not for the other, claims by who came first. So the
merge is associative and idempotent, and it is commutative exactly for
states that do not hold different records on a tie.
-/
import Ruletka.Contract.State

namespace Ruletka.Contract

open Register

-- ======================================================================= the ranks

/-- Version, heartbeat and peer id, in this order. -/
def WaitingOffer.rank (o : WaitingOffer) : Nat ×ₗ Nat ×ₗ PeerId :=
  toLex (o.version, toLex (o.heartbeatMs, o.peerId))

def LeaveMark.rank (m : LeaveMark) : Nat ×ₗ Nat := toLex (m.version, m.leftMs)

/-- All claims under one id are equal in rank. -/
def Claim.rank (_ : Claim) : Unit := ()

theorem WaitingOffer.follows : Follows WaitingOffer.beats WaitingOffer.rank false where
  beats_iff v e := by
    unfold WaitingOffer.beats WaitingOffer.rank
    simp only [Prod.Lex.toLex_lt_toLex, Bool.false_eq_true, and_false, or_false]
    rcases lt_trichotomy v.version e.version with h | h | h
    · rw [compare_lt_iff_lt.mpr h]
      simp [h.ne', not_lt.mpr h.le]
    · rw [compare_eq_iff_eq.mpr h]
      rcases lt_trichotomy v.heartbeatMs e.heartbeatMs with h' | h' | h'
      · rw [compare_lt_iff_lt.mpr h']
        simp [h, h'.ne', not_lt.mpr h'.le]
      · rw [compare_eq_iff_eq.mpr h']
        simp [h, h']
      · rw [compare_gt_iff_gt.mpr h']
        simp [h, h']
    · rw [compare_gt_iff_gt.mpr h]
      simp [h]

theorem LeaveMark.follows : Follows LeaveMark.beats LeaveMark.rank true where
  beats_iff v e := by
    unfold LeaveMark.beats LeaveMark.rank
    simp only [Prod.Lex.toLex_lt_toLex, toLex_inj, Prod.mk.injEq, and_true]
    rcases lt_trichotomy v.version e.version with h | h | h
    · rw [compare_lt_iff_lt.mpr h]
      simp [h.ne', not_lt.mpr h.le]
    · rw [compare_eq_iff_eq.mpr h]
      simp [h, le_iff_lt_or_eq]
    · rw [compare_gt_iff_gt.mpr h]
      simp [h]

theorem Claim.follows : Follows Claim.beats Claim.rank false where
  beats_iff v e := by simp [Claim.beats, Claim.rank]

-- ======================================================================== the laws

namespace LobbyConfig

theorem merge_comm (a b : LobbyConfig) : a.merge b = b.merge a := by
  unfold merge
  simp only [min_comm, max_comm]

theorem merge_assoc (a b c : LobbyConfig) : (a.merge b).merge c = a.merge (b.merge c) := by
  unfold merge
  simp only [min_assoc, max_assoc]

theorem merge_self (a : LobbyConfig) : a.merge a = a := by
  unfold merge
  simp only [min_self, max_self]

end LobbyConfig

namespace LobbyState

/-- No two different records of the two states tie: offers of equal version,
heartbeat and peer, leave marks of equal version and time, and claims, all
under one key. -/
def Untied (a b : LobbyState) : Prop :=
  Table.Untied WaitingOffer.rank a.offers b.offers
    ∧ Table.Untied LeaveMark.rank a.leaves b.leaves ∧ Table.Untied Claim.rank a.claims b.claims

theorem merge_self (a : LobbyState) : a.merge a = a :=
  ext' (LobbyConfig.merge_self _) (Table.mergeBy_self _) (Table.mergeBy_self _)
    (Table.mergeBy_self _)

theorem merge_assoc (a b c : LobbyState) : (a.merge b).merge c = a.merge (b.merge c) :=
  ext' (LobbyConfig.merge_assoc _ _ _) (Table.mergeBy_assoc LeaveMark.follows _ _ _)
    (Table.mergeBy_assoc WaitingOffer.follows _ _ _) (Table.mergeBy_assoc Claim.follows _ _ _)

theorem merge_comm_iff (a b : LobbyState) : a.merge b = b.merge a ↔ a.Untied b := by
  unfold Untied
  rw [← Table.mergeBy_comm_iff WaitingOffer.follows, ← Table.mergeBy_comm_iff LeaveMark.follows,
    ← Table.mergeBy_comm_iff Claim.follows]
  constructor
  · intro h
    exact ⟨congrArg LobbyState.offers h, congrArg LobbyState.leaves h,
      congrArg LobbyState.claims h⟩
  · rintro ⟨ho, hl, hm⟩
    exact ext' (LobbyConfig.merge_comm _ _) hl ho hm

/-- **Merge**: the laws of a semilattice hold of three states exactly when the
first two do not tie; only commutativity can fail. -/
theorem merge_semilattice_iff (a b c : LobbyState) :
    (a.merge b = b.merge a ∧ (a.merge b).merge c = a.merge (b.merge c) ∧ a.merge a = a)
      ↔ a.Untied b :=
  ⟨fun h => (merge_comm_iff a b).mp h.1,
    fun h => ⟨(merge_comm_iff a b).mpr h, merge_assoc a b c, merge_self a⟩⟩

-- ===================================================================== conflicts

/-- An offer of the peer 1, with this seed. -/
def plainOffer (peer : PeerId) (version heartbeatMs : Nat) (seed : Bytes32) : WaitingOffer :=
  ⟨peer, [], version, heartbeatMs, ⟨none, [], true, false⟩, seed, []⟩

/-- The lobby that was sent one offer. -/
def offering (o : WaitingOffer) : LobbyState := (LobbyState.new .default).upsertOffer o

/-- Every record is kept under its own id. -/
structure Keyed (s : LobbyState) : Prop where
  offers : ∀ k, ∀ o ∈ s.offers.get? k, o.peerId = k
  leaves : ∀ k, ∀ m ∈ s.leaves.get? k, m.peerId = k
  claims : ∀ k, ∀ c ∈ s.claims.get? k, c.claimId = k

theorem get?_offering (o : WaitingOffer) (k : PeerId) :
    (offering o).offers.get? k = if k = o.peerId then some o else none := by
  unfold offering upsertOffer new
  simp

/-- The lobby holds that offer and no other. -/
theorem mem_offering {o o' : WaitingOffer} {k : PeerId} (ho : o' ∈ (offering o).offers.get? k) :
    k = o.peerId ∧ o' = o := by
  rw [get?_offering] at ho
  split at ho
  case isTrue hk => exact ⟨hk, (Option.some.inj ho).symm⟩
  case isFalse => cases ho

theorem keyed_offering (o : WaitingOffer) : (offering o).Keyed where
  offers k o' ho := by
    obtain ⟨rfl, rfl⟩ := mem_offering ho
    rfl
  leaves k m hm := by cases hm
  claims k c hc := by cases hc

/-- Each replica keeps its own of two offers that tie. -/
theorem merge_conflict : ∃ a b : LobbyState, a.Keyed ∧ b.Keyed ∧ a.merge b ≠ b.merge a := by
  refine ⟨offering (plainOffer 1 1 1000 5), offering (plainOffer 1 1 1000 6), keyed_offering _,
    keyed_offering _, fun h => ?_⟩
  have hoffer := congrArg (fun s : LobbyState => s.offers.get? 1) h
  revert hoffer
  decide

end LobbyState

end Ruletka.Contract
