/-
Whom the federated path matches.

`try_match` passes over entries with a banned or a blocked member
(`entries_compatible`). The federated path is a second matcher: a claim of
another hub takes the first free solo waiter of the room, and the answer to a
claim of ours is applied to the client it was made for. Neither looks at bans
or blocks, and the second does not look at the queue or the room again, which
may have changed while the claim was under way.
-/
import Ruletka.Hub.Run

namespace Ruletka.SimpleHub

variable {h h' : SimpleHub} {env : Env}

/-- The client got into a federated match. -/
def Federates (h h' : SimpleHub) (id : ConnId) : Prop :=
  h.fedByClient.get? id = none ∧ (h'.fedByClient.get? id).isSome = true

/-- The client may be matched with a user of another hub in a room: neither bans
nor blocks stand against it. -/
structure MayMeet (h : SimpleHub) (env : Env) (id : ConnId) (user : UserId) : Prop where
  banned : h.isMatchBannedConn env id = false
  blocked : ∀ c, h.get id = some c → h.isBlockedPairUid c.userId user = false

/-- The client waits in the queue of a room by itself, and may be matched with a
user of another hub. -/
structure Suits (h : SimpleHub) (env : Env) (room : String) (user : UserId) (id : ConnId) :
    Prop where
  queued : .solo id ∈ h.queue
  waits : h.phaseOf id = some .waiting
  room : h.roomOf id = room
  meets : h.MayMeet env id user

instance (env : Env) (id : ConnId) (user : UserId) : Decidable (h.MayMeet env id user) :=
  decidable_of_iff (h.isMatchBannedConn env id = false
      ∧ (h.get id).all (fun c => !h.isBlockedPairUid c.userId user) = true) <| by
    constructor
    · rintro ⟨hb, hk⟩
      refine ⟨hb, fun c hc => ?_⟩
      simpa [hc] using hk
    · rintro ⟨hb, hk⟩
      refine ⟨hb, ?_⟩
      cases hc : h.get id with
      | none => rfl
      | some c => simpa using hk c hc

-- ==================================================================== the two paths

@[simp]
theorem fedByClient_startFederatedMatch (id : ConnId) (sid : SessionId × String)
    (remote : FedPeerDesc) (base : String) (o : Bool) :
    (h.startFederatedMatch env id sid remote base o).fedByClient = h.fedByClient.set id sid.1 :=
  rfl

/-- A match by the federated path is that of the client it was called for. -/
theorem federates_startFederatedMatch {id x : ConnId} {sid : SessionId × String}
    {remote : FedPeerDesc} {base : String} {o : Bool} (hfree : h.fedByClient.get? id = none) :
    h.Federates ((h.dequeueClient id).startFederatedMatch env id sid remote base o) x ↔ x = id := by
  unfold Federates
  rw [fedByClient_startFederatedMatch, Table.get?_set]
  constructor
  · rintro ⟨hnone, hsome⟩
    by_contra hne
    rw [if_neg hne] at hsome
    have hsame : (h.dequeueClient id).fedByClient.get? x = h.fedByClient.get? x := rfl
    rw [hsame, hnone] at hsome
    cases hsome
  · rintro rfl
    exact ⟨hfree, by simp⟩

theorem not_federates_self {x : ConnId} : ¬ h.Federates h x := by
  rintro ⟨hnone, hsome⟩
  rw [hnone] at hsome
  cases hsome

/-- A free solo waiter of a room waits there by itself, without a match on
another hub. -/
theorem freeSoloWaiter_spec {room : String} {id : ConnId}
    (hf : h.freeSoloWaiter env room = some id) :
    .solo id ∈ h.queue ∧ h.phaseOf id = some .waiting ∧ h.roomOf id = room
      ∧ h.fedByClient.get? id = none := by
  obtain ⟨e, he, hid⟩ := List.exists_of_findSome?_eq_some hf
  cases e with
  | solo x =>
    simp only at hid
    split at hid
    · next ht =>
      cases hid
      simp only [Bool.and_eq_true, decide_eq_true_eq, Option.isNone_iff_eq_none] at ht
      exact ⟨he, ht.1.1.2, ht.1.1.1.1, ht.1.2⟩
    · cases hid
  | _ => cases hid

/-- A claim of another hub is taken up. -/
def ClaimTaken (h : SimpleHub) (env : Env) (req : ClaimRequest) (id : ConnId) : Prop :=
  normalizeBase req.callerBaseUrl ≠ "" ∧ req.remotePeer.peerId ≠ ""
    ∧ h.freeSoloWaiter env (normalizeRoom req.room) = some id

/-- A claim that is taken up matches the first free waiter. -/
theorem federates_federationClaim {req : ClaimRequest} {x : ConnId} :
    h.Federates (h.federationClaim env req) x ↔ h.ClaimTaken env req x := by
  unfold federationClaim ClaimTaken
  simp only
  by_cases hbad : normalizeBase req.callerBaseUrl = "" ∨ req.remotePeer.peerId = ""
  · rw [if_pos (by simpa using hbad)]
    refine iff_of_false not_federates_self ?_
    rintro ⟨hb, hp, -⟩
    exact hbad.elim hb hp
  · obtain ⟨hb, hp⟩ := not_or.mp hbad
    rw [if_neg (by simpa using hbad)]
    cases hf : h.freeSoloWaiter env (normalizeRoom req.room) with
    | none => exact iff_of_false not_federates_self (by rintro ⟨-, -, h⟩; cases h)
    | some id =>
      refine (federates_startFederatedMatch (freeSoloWaiter_spec hf).2.2.2).trans ?_
      constructor
      · rintro rfl
        exact ⟨hb, hp, rfl⟩
      · rintro ⟨-, -, h⟩
        exact (Option.some.inj h).symm

/-- The answer to a claim is applied: its client waits and has no match on
another hub. -/
def AnswerTaken (h : SimpleHub) (id : ConnId) : Prop :=
  h.phaseOf id = some .waiting ∧ h.fedByClient.get? id = none

theorem federates_federationApplyClaim {id x : ConnId} {base : String} {resp : ClaimResponse} :
    h.Federates (h.federationApplyClaim env id base resp) x ↔ h.AnswerTaken id ∧ x = id := by
  unfold federationApplyClaim AnswerTaken
  by_cases hw : h.phaseOf id = some .waiting ∧ h.fedByClient.get? id = none
  · rw [if_neg (by simp [hw.1, hw.2])]
    exact (federates_startFederatedMatch hw.2).trans (by simp [hw])
  · rw [if_pos]
    · exact iff_of_false not_federates_self fun h => hw h.1
    · by_contra hno
      simp only [Bool.or_eq_true, decide_eq_true_eq, not_or, Bool.not_eq_true,
        Option.isSome_eq_false_iff, Option.isNone_iff_eq_none, not_not] at hno
      exact hw hno

/-- Both paths match clients that suit just when the client they take, as they
find it, is one that `try_match` would not pass over: the first free waiter of
the room for a claim, which is queued there; for an answer also that the client
is still queued in the room it was claimed for. -/
theorem federated_match_respects (h : SimpleHub) (env : Env) :
    (∀ req, (∀ id, h.Federates (h.federationClaim env req) id →
        h.Suits env (normalizeRoom req.room) req.remotePeer.userId id)
      ↔ ∀ id, h.ClaimTaken env req id → h.MayMeet env id req.remotePeer.userId)
    ∧ ∀ id base resp room, (∀ x, h.Federates (h.federationApplyClaim env id base resp) x →
        h.Suits env room resp.claimedPeer.userId x)
      ↔ (h.AnswerTaken id → .solo id ∈ h.queue ∧ h.roomOf id = room
          ∧ h.MayMeet env id resp.claimedPeer.userId) := by
  constructor
  · intro req
    constructor
    · intro hs id ht
      exact (hs id (federates_federationClaim.mpr ht)).meets
    · intro hm id hf
      have ht := federates_federationClaim.mp hf
      obtain ⟨hq, hw, hr, -⟩ := freeSoloWaiter_spec ht.2.2
      exact ⟨hq, hw, hr, hm id ht⟩
  · intro id base resp room
    constructor
    · intro hs ht
      have := hs id (federates_federationApplyClaim.mpr ⟨ht, rfl⟩)
      exact ⟨this.queued, this.room, this.meets⟩
    · intro hm x hf
      obtain ⟨ht, rfl⟩ := federates_federationApplyClaim.mp hf
      obtain ⟨hq, hr, hmeet⟩ := hm ht
      exact ⟨hq, ht.1, hr, hmeet⟩

-- ==================================================================== a blocked claim

/-- A user blocks one of another hub and then waits. -/
def blockedClaim : List Input := script
  [(0, .connect 1 "9.9.9.1"),
   (1, .frame 1 (.hello ⟨"u1", "", "", "", [], false, ""⟩)),
   (2, .frame 1 (.blockUser "ffffeeeeccccdddd")),
   (3, .frame 1 (.spin ""))]

/-- The claim for the blocked user. -/
def strangerClaim : ClaimRequest :=
  ⟨"", "https://other", ⟨"p9", "s9", "ffffeeeeccccdddd"⟩⟩

/-- The blocked user's hub claims the waiter, and gets it. -/
theorem blocked_user_claims : ∃ w, (hubMachine plainSys).Reach w ∧ ∃ env req,
    ¬ ∀ id, w.hub.Federates (w.hub.federationClaim env req) id →
      w.hub.Suits env (normalizeRoom req.room) req.remotePeer.userId id := by
  obtain ⟨w, hw, hp⟩ := @reach_of_replay plainSys 2 blockedClaim (fun w =>
    decide (w.hub.fedByClient.get? 1 = none
      ∧ ((w.hub.federationClaim (plainEnv 4) strangerClaim).fedByClient.get? 1).isSome = true
      ∧ ¬ w.hub.MayMeet (plainEnv 4) 1 "ffffeeeeccccdddd")) (by decide +kernel)
  obtain ⟨hnone, hsome, hno⟩ := of_decide_eq_true hp
  exact ⟨w, hw, plainEnv 4, strangerClaim, fun h => hno (h 1 ⟨hnone, hsome⟩).meets⟩

end Ruletka.SimpleHub
