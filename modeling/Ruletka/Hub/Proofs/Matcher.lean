/-
What the pairing loop of `try_match` does to a queue.

Two slots are `Matchable` when the loop may pair them. The loop only pairs
matchable slots, it starts a session for each pair it takes out, and it
stops with no two matchable slots left.

# The argument

One turn has three outcomes (`matchTurn_cases`): it drops a dead slot, it
rotates a slot that nothing behind it is matchable with, or it pairs. A
pairing makes its members `Matched` and touches nobody else, so it never
makes two other slots matchable (`Matchable.of_quiet`). That carries both
halves: every pairing of a run is judged on the records its members had
when the run began, and a slot once rotated past stays unmatchable with
what was behind it.

The budget covers one full pass. With `todo` slots not yet looked at, the
loop has at least `todo + queue` steps left, so neither the budget nor the
early break stops it before `todo` is empty.
-/
import Ruletka.Hub.Proofs.Books
import Ruletka.Hub.Run

namespace Ruletka

namespace QueueEntry

/-- A leftover slot of three. -/
def IsParty3 : QueueEntry → Prop
  | .party3 _ _ _ => True
  | _ => False

end QueueEntry

theorem queueShapeOk_comm (e f : QueueEntry) : queueShapeOk e f = queueShapeOk f e := by
  cases e <;> cases f <;> rfl

theorem exists_mem_queueEntryIds (e : QueueEntry) : ∃ x, x ∈ queueEntryIds e := by
  cases e <;> exact ⟨_, List.mem_cons_self⟩

namespace SimpleHub

variable {h : SimpleHub} {env : Env}

-- ================================================================== matchable

/-- All members wait, were heard of lately, and pass the face gate. -/
structure Ready (h : SimpleHub) (env : Env) (e : QueueEntry) : Prop where
  waiting : h.queueEntryWaitingOk e = true
  fresh : h.queueEntryFresh env e = true
  face : h.queueEntryFaceOk env e = true

/-- The loop may pair the two slots. -/
structure Matchable (h : SimpleHub) (env : Env) (e f : QueueEntry) : Prop where
  room : h.queueEntryRoom e = h.queueEntryRoom f
  left : h.Ready env e
  right : h.Ready env f
  compatible : h.entriesCompatible env e f = true
  /-- not a pair that parted moments ago -/
  cooled : ¬ (h.isLastPartnerRematch e f = true ∧ h.recentlyUnmatched env e f = true)

theorem isBlockedPairUid_comm (u v : UserId) :
    h.isBlockedPairUid u v = h.isBlockedPairUid v u := by
  unfold isBlockedPairUid
  grind

theorem isBlockedPairConn_comm (a b : ConnId) :
    h.isBlockedPairConn a b = h.isBlockedPairConn b a := by
  unfold isBlockedPairConn
  cases h.get a with
  | none => cases h.get b <;> rfl
  | some ca =>
      cases h.get b with
      | none => rfl
      | some cb => exact isBlockedPairUid_comm ca.userId cb.userId

theorem entriesCompatible_iff {e f : QueueEntry} :
    h.entriesCompatible env e f = true ↔ queueShapeOk e f = true
      ∧ (∀ a ∈ queueEntryIds e, h.isMatchBannedConn env a = false)
      ∧ (∀ b ∈ queueEntryIds f, h.isMatchBannedConn env b = false)
      ∧ ∀ a ∈ queueEntryIds e, ∀ b ∈ queueEntryIds f, h.isBlockedPairConn a b = false := by
  obtain ⟨a, ha⟩ := exists_mem_queueEntryIds e
  unfold entriesCompatible
  simp only [Bool.and_eq_true, List.all_eq_true, Bool.not_eq_true']
  constructor
  · rintro ⟨hs, hall⟩
    exact ⟨hs, fun x hx => (hall x hx).1, fun y hy => ((hall a ha).2 y hy).1,
      fun x hx y hy => ((hall x hx).2 y hy).2⟩
  · rintro ⟨hs, hl, hr, hb⟩
    exact ⟨hs, fun x hx => ⟨hl x hx, fun y hy => ⟨hr y hy, hb x hx y hy⟩⟩⟩

theorem entriesCompatible_comm (e f : QueueEntry) :
    h.entriesCompatible env e f = true → h.entriesCompatible env f e = true := by
  rw [entriesCompatible_iff, entriesCompatible_iff]
  rintro ⟨hs, hl, hr, hb⟩
  refine ⟨by rw [queueShapeOk_comm]; exact hs, hr, hl, fun a ha b hb' => ?_⟩
  rw [isBlockedPairConn_comm]
  exact hb b hb' a ha

theorem isLastPartnerRematch_comm (e f : QueueEntry) :
    h.isLastPartnerRematch e f = h.isLastPartnerRematch f e := by
  cases e with
  | solo a =>
      cases f with
      | solo b => exact Bool.or_comm _ _
      | party _ _ => rfl
      | party3 _ _ _ => rfl
  | party _ _ => cases f <;> rfl
  | party3 _ _ _ => cases f <;> rfl

theorem recentlyUnmatched_comm (e f : QueueEntry) :
    h.recentlyUnmatched env e f = h.recentlyUnmatched env f e := by
  unfold recentlyUnmatched
  rw [List.any_append, List.any_append]
  exact Bool.or_comm _ _

theorem Matchable.symm {e f : QueueEntry} (hm : h.Matchable env e f) :
    h.Matchable env f e where
  room := hm.room.symm
  left := hm.right
  right := hm.left
  compatible := entriesCompatible_comm _ _ hm.compatible
  cooled := by
    rw [isLastPartnerRematch_comm, recentlyUnmatched_comm]
    exact hm.cooled

theorem not_strangerPartyBlocks2v2 {e f : QueueEntry} (hs : queueShapeOk e f = true) :
    strangerPartyBlocks2v2 e f = false := by
  cases e <;> cases f <;> first | rfl | cases hs

theorem isCandidate_iff {first e : QueueEntry} :
    h.isCandidate env first e = true ↔ h.queueEntryRoom first = h.queueEntryRoom e
      ∧ h.Ready env e ∧ h.entriesCompatible env first e = true := by
  unfold isCandidate
  simp only [Bool.and_eq_true, decide_eq_true_eq, Bool.not_eq_true']
  constructor
  · rintro ⟨⟨⟨⟨⟨hroom, hw⟩, hf⟩, hface⟩, hc⟩, -⟩
    exact ⟨hroom.symm, ⟨hw, hf, hface⟩, hc⟩
  · rintro ⟨hroom, ⟨hw, hf, hface⟩, hc⟩
    exact ⟨⟨⟨⟨⟨hroom.symm, hw⟩, hf⟩, hface⟩, hc⟩,
      not_strangerPartyBlocks2v2 (entriesCompatible_iff.mp hc).1⟩

-- =================================================================== the scan

/-- The indices a scan has kept, in order of preference. -/
def Candidates.indices (c : Candidates) : List Nat :=
  (c.bestSoft.map (·.1)).toList ++ c.fallback.toList ++ c.rematch.toList

theorem Candidates.found_eq_head (c : Candidates) : c.found = c.indices.head? := by
  obtain ⟨b, f, r⟩ := c
  cases b <;> cases f <;> cases r <;> rfl

/-- A slot that is not matchable leaves the candidates alone. -/
theorem scanEntry_skip {first e : QueueEntry} (hr : h.Ready env first)
    (hn : ¬ h.Matchable env first e) (acc : Candidates) (i : Nat) :
    h.scanEntry env first acc e i = acc := by
  unfold scanEntry
  by_cases hc : h.isCandidate env first e = true
  · obtain ⟨hroom, hready, hcomp⟩ := isCandidate_iff.mp hc
    have hhot : h.isLastPartnerRematch first e = true
        ∧ h.recentlyUnmatched env first e = true := by
      by_contra hcool
      exact hn ⟨hroom, hr, hready, hcomp, hcool⟩
    simp [hc, hhot.1, hhot.2]
  · simp [hc]

theorem Candidates.mem_offerSoft {c : Candidates} {i j : Nat} {rank : Int}
    (hj : j ∈ (c.offerSoft i rank).indices) : j ∈ c.indices ∨ j = i := by
  obtain ⟨b, f, r⟩ := c
  unfold offerSoft at hj
  cases b with
  | none =>
      simp [indices] at hj ⊢
      tauto
  | some p =>
      simp only at hj
      split at hj
      · exact .inl hj
      · simp [indices] at hj ⊢
        tauto

theorem Candidates.offerSoft_ne_nil (c : Candidates) (i : Nat) (rank : Int) :
    (c.offerSoft i rank).indices ≠ [] := by
  obtain ⟨b, f, r⟩ := c
  unfold offerSoft
  cases b with
  | none => simp [indices]
  | some p =>
      simp only
      split
      · simp [indices]
      · simp [indices]

/-- A matchable slot is kept, unless a better one was. -/
theorem scanEntry_keep {first e : QueueEntry} (hm : h.Matchable env first e)
    (acc : Candidates) (i : Nat) :
    (h.scanEntry env first acc e i).indices ≠ []
      ∧ ∀ j ∈ (h.scanEntry env first acc e i).indices, j ∈ acc.indices ∨ j = i := by
  have hc := isCandidate_iff.mpr ⟨hm.room, hm.right, hm.compatible⟩
  unfold scanEntry
  rw [hc]
  simp only [Bool.not_true, Bool.false_eq_true, if_false]
  split
  · next hlast =>
    have hcool : h.recentlyUnmatched env first e = false := by
      have := hm.cooled
      simpa [hlast] using this
    obtain ⟨b, f, r⟩ := acc
    rw [hcool]
    cases r with
    | none =>
        simp [Candidates.indices]
        tauto
    | some k => simpa [Candidates.indices] using fun j => Or.inl
  split
  · exact ⟨Candidates.offerSoft_ne_nil _ _ _, fun j hj => Candidates.mem_offerSoft hj⟩
  · obtain ⟨b, f, r⟩ := acc
    cases f with
    | none =>
        simp [Candidates.indices]
        tauto
    | some k => simpa [Candidates.indices] using fun j => Or.inl

/-- The candidates after a scan: they are matchable, and there are some if
anything is. -/
structure Scanned (h : SimpleHub) (env : Env) (first : QueueEntry)
    (seen : List (QueueEntry × Nat)) (c : Candidates) : Prop where
  sound : ∀ i ∈ c.indices, ∃ e, (e, i) ∈ seen ∧ h.Matchable env first e
  complete : c.indices = [] → ∀ p ∈ seen, ¬ h.Matchable env first p.1

theorem Scanned.nil (first : QueueEntry) : h.Scanned env first [] Candidates.none where
  sound i hi := by simp [Candidates.indices, Candidates.none] at hi
  complete _ p hp := by simp at hp

theorem Scanned.step {first e : QueueEntry} {i : Nat} {seen : List (QueueEntry × Nat)}
    {c : Candidates} (hr : h.Ready env first) (hs : h.Scanned env first seen c) :
    h.Scanned env first (seen ++ [(e, i)]) (h.scanEntry env first c e i) := by
  by_cases hm : h.Matchable env first e
  · obtain ⟨hne, hmem⟩ := scanEntry_keep hm c i
    refine ⟨fun j hj => ?_, fun hnil => absurd hnil hne⟩
    rcases hmem j hj with hold | rfl
    · obtain ⟨f, hf, hfm⟩ := hs.sound j hold
      exact ⟨f, List.mem_append_left _ hf, hfm⟩
    · exact ⟨e, List.mem_append_right _ List.mem_cons_self, hm⟩
  · rw [scanEntry_skip hr hm]
    refine ⟨fun j hj => ?_, fun hnil p hp => ?_⟩
    · obtain ⟨f, hf, hfm⟩ := hs.sound j hj
      exact ⟨f, List.mem_append_left _ hf, hfm⟩
    · rcases List.mem_append.mp hp with hp | hp
      · exact hs.complete hnil p hp
      · rw [List.mem_singleton.mp hp]
        exact hm

theorem Scanned.run {first : QueueEntry} (hr : h.Ready env first)
    (l : List (QueueEntry × Nat)) {seen : List (QueueEntry × Nat)} {c : Candidates}
    (hs : h.Scanned env first seen c) :
    h.Scanned env first (seen ++ l)
      (l.foldl (fun acc (e, i) => h.scanEntry env first acc e i) c) := by
  induction l generalizing seen c with
  | nil => simpa using hs
  | cons p l ih =>
      have := ih (hs.step (e := p.1) (i := p.2) hr)
      rwa [List.append_assoc] at this

/-- The scan of the whole queue. -/
theorem scanned_queue {first : QueueEntry} (hr : h.Ready env first) :
    h.Scanned env first h.queue.zipIdx
      (h.queue.zipIdx.foldl (fun acc (e, i) => h.scanEntry env first acc e i)
        Candidates.none) :=
  Scanned.run hr _ (Scanned.nil first)

theorem findSecond_some {first : QueueEntry} {i : Nat} (hr : h.Ready env first)
    (hf : h.findSecond env first = some i) :
    ∃ second, h.queue[i]? = some second ∧ h.Matchable env first second := by
  rw [findSecond, Candidates.found_eq_head] at hf
  obtain ⟨e, he, hm⟩ := (scanned_queue hr).sound i (List.mem_of_head? hf)
  exact ⟨e, List.mem_zipIdx_iff_getElem?.mp he, hm⟩

theorem findSecond_none {first : QueueEntry} (hr : h.Ready env first)
    (hf : h.findSecond env first = none) : ∀ e ∈ h.queue, ¬ h.Matchable env first e := by
  rw [findSecond, Candidates.found_eq_head, List.head?_eq_none_iff] at hf
  intro e he
  obtain ⟨i, hi⟩ := List.mem_iff_getElem?.mp he
  exact (scanned_queue hr).complete hf (e, i) (List.mem_zipIdx_iff_getElem?.mpr hi)

-- =============================================================== what it reads

/-- What the scan reads outside of the records. -/
structure SameRules (h k : SimpleHub) : Prop where
  sys : k.sys = h.sys
  blocks : k.blocks = h.blocks
  bans : k.matchBans = h.matchBans
  ipBans : k.matchIpBans = h.matchIpBans

namespace SameRules

variable {k l : SimpleHub}

theorem refl (h : SimpleHub) : SameRules h h := ⟨rfl, rfl, rfl, rfl⟩

theorem trans (h₁ : SameRules h k) (h₂ : SameRules k l) : SameRules h l where
  sys := h₂.sys.trans h₁.sys
  blocks := h₂.blocks.trans h₁.blocks
  bans := h₂.bans.trans h₁.bans
  ipBans := h₂.ipBans.trans h₁.ipBans

theorem modify (x : ConnId) (f : Client → Client) : SameRules h (h.modify x f) :=
  ⟨rfl, rfl, rfl, rfl⟩

theorem setQueue (q : List QueueEntry) : SameRules h (h.setQueue q) :=
  ⟨rfl, rfl, rfl, rfl⟩

theorem dequeueClient (x : ConnId) : SameRules h (h.dequeueClient x) :=
  ⟨rfl, rfl, rfl, rfl⟩

/-- Messages and a lobby notice. -/
theorem announce (msgs : List (ConnId × ServerMsg)) :
    SameRules h ((h.emit msgs).broadcastLobbyInfo env) := ⟨rfl, rfl, rfl, rfl⟩

theorem linkPartyVsSolo (sid : SessionId) (s a b : ConnId) :
    SameRules h (h.linkPartyVsSolo env sid s a b) :=
  ((modify _ _).trans (modify _ _)).trans (modify _ _)

end SameRules

/-- The members of a slot have the same records. -/
def SameRecords (h k : SimpleHub) (e : QueueEntry) : Prop :=
  ∀ x ∈ queueEntryIds e, k.get x = h.get x

/-- What the search reads of a record. -/
structure Sought where
  phase : Phase
  room : String
  userId : UserId
  clientIp : String
  lastRx : Instant
  face : Option FaceGate
  waitStarted : Option Instant
  lastPartner : Option ConnId
  lastUnmatchAt : Option Instant

def sought (c : Client) : Sought :=
  ⟨c.phase, c.room, c.userId, c.clientIp, c.lastRx, c.face, c.waitStarted, c.lastPartner,
    c.lastUnmatchAt⟩

/-- The members of a slot are the same to the search. -/
def SameSought (h k : SimpleHub) (e : QueueEntry) : Prop :=
  ∀ x ∈ queueEntryIds e, (k.get x).map sought = (h.get x).map sought

theorem SameRecords.sought {k : SimpleHub} {e : QueueEntry} (he : SameRecords h k e) :
    SameSought h k e := fun x hx => congrArg (Option.map SimpleHub.sought) (he x hx)

/-- A reading of the record is one of what is sought. -/
theorem read_sought {β : Type} {o o' : Option Client} (f : Sought → β)
    (ho : o.map sought = o'.map sought) :
    o.map (fun c => f (sought c)) = o'.map fun c => f (sought c) := by
  have hf := congrArg (Option.map f) ho
  rw [Option.map_map, Option.map_map] at hf
  exact hf

theorem phaseOf_congr {k : SimpleHub} {x : ConnId}
    (hx : (k.get x).map sought = (h.get x).map sought) : k.phaseOf x = h.phaseOf x :=
  read_sought Sought.phase hx

theorem roomOf_congr {k : SimpleHub} {x : ConnId}
    (hx : (k.get x).map sought = (h.get x).map sought) : k.roomOf x = h.roomOf x :=
  congrArg (·.getD "") (read_sought Sought.room hx)

theorem clientRxFresh_congr {k : SimpleHub} {x : ConnId}
    (hx : (k.get x).map sought = (h.get x).map sought) :
    k.clientRxFresh env x = h.clientRxFresh env x := by
  have hrx := read_sought Sought.lastRx hx
  unfold clientRxFresh
  exact (Option.any_map).symm.trans
    ((congrArg (Option.any fun t => decide (env.elapsed t < secs staleWaiterSecs)) hrx).trans
      Option.any_map)

theorem clientFaceOk_congr {k : SimpleHub} {x : ConnId} (hr : SameRules h k)
    (hx : (k.get x).map sought = (h.get x).map sought) :
    k.clientFaceOk env x = h.clientFaceOk env x := by
  have hface := read_sought (fun s => (s.face, s.waitStarted)) hx
  unfold clientFaceOk
  rw [hr.sys]
  cases hk : k.get x with
  | none =>
      rw [hk] at hface
      rw [Option.map_eq_none_iff.mp hface.symm]
  | some c =>
      rw [hk] at hface
      obtain ⟨c', hc', heq⟩ := Option.map_eq_some_iff.mp hface.symm
      obtain ⟨hgate, hwait⟩ : c'.face = c.face ∧ c'.waitStarted = c.waitStarted :=
        Prod.mk.injEq _ _ _ _ ▸ heq
      rw [hc']
      dsimp only
      rw [hgate, hwait]

theorem ready_congr {k : SimpleHub} {e : QueueEntry} (hr : SameRules h k)
    (he : SameSought h k e) (hk : k.Ready env e) : h.Ready env e where
  waiting := by
    have hw := hk.waiting
    simp only [queueEntryWaitingOk, List.all_eq_true, decide_eq_true_eq] at hw ⊢
    intro x hx
    rw [← phaseOf_congr (he x hx)]
    exact hw x hx
  fresh := by
    have hf := hk.fresh
    simp only [queueEntryFresh, List.all_eq_true] at hf ⊢
    intro x hx
    rw [← clientRxFresh_congr (he x hx)]
    exact hf x hx
  face := by
    have hf := hk.face
    simp only [queueEntryFaceOk, List.all_eq_true] at hf ⊢
    intro x hx
    rw [← clientFaceOk_congr hr (he x hx)]
    exact hf x hx

theorem room_congr {k : SimpleHub} {e : QueueEntry} (he : SameSought h k e) :
    k.queueEntryRoom e = h.queueEntryRoom e := by
  cases e with
  | solo a => exact roomOf_congr (he a List.mem_cons_self)
  | party a b => exact roomOf_congr (he a List.mem_cons_self)
  | party3 a b c => exact roomOf_congr (he a List.mem_cons_self)

theorem isMatchBannedConn_congr {k : SimpleHub} {x : ConnId} (hr : SameRules h k)
    (hx : (k.get x).map sought = (h.get x).map sought) :
    k.isMatchBannedConn env x = h.isMatchBannedConn env x := by
  have hwho := read_sought (fun s => (s.userId, s.clientIp)) hx
  unfold isMatchBannedConn isMatchBanned isIpBanned
  rw [hr.bans, hr.ipBans]
  cases hk : k.get x with
  | none =>
      rw [hk] at hwho
      rw [Option.map_eq_none_iff.mp hwho.symm]
  | some c =>
      rw [hk] at hwho
      obtain ⟨c', hc', heq⟩ := Option.map_eq_some_iff.mp hwho.symm
      obtain ⟨huser, hip⟩ : c'.userId = c.userId ∧ c'.clientIp = c.clientIp :=
        Prod.mk.injEq _ _ _ _ ▸ heq
      rw [hc', Option.any_some, Option.any_some, huser, hip]

theorem isBlockedPairConn_congr {k : SimpleHub} {x y : ConnId} (hr : SameRules h k)
    (hx : (k.get x).map sought = (h.get x).map sought)
    (hy : (k.get y).map sought = (h.get y).map sought) :
    k.isBlockedPairConn x y = h.isBlockedPairConn x y := by
  have hux : (k.get x).map (·.userId) = (h.get x).map (·.userId) := read_sought Sought.userId hx
  have huy : (k.get y).map (·.userId) = (h.get y).map (·.userId) := read_sought Sought.userId hy
  have hblocked : ∀ u v, k.isBlockedPairUid u v = h.isBlockedPairUid u v := by
    intro u v
    unfold isBlockedPairUid
    rw [hr.blocks]
  unfold isBlockedPairConn
  cases hkx : k.get x with
  | none =>
    rw [hkx] at hux
    rw [Option.map_eq_none_iff.mp hux.symm]
  | some c =>
    rw [hkx] at hux
    obtain ⟨d, hd, huser⟩ := Option.map_eq_some_iff.mp hux.symm
    rw [hd]
    cases hky : k.get y with
    | none =>
      rw [hky] at huy
      rw [Option.map_eq_none_iff.mp huy.symm]
    | some c' =>
      rw [hky] at huy
      obtain ⟨d', hd', huser'⟩ := Option.map_eq_some_iff.mp huy.symm
      rw [hd']
      dsimp only
      rw [hblocked, huser, huser']

theorem lastPartnerOf_congr {k : SimpleHub} {x : ConnId}
    (hx : (k.get x).map sought = (h.get x).map sought) :
    k.lastPartnerOf x = h.lastPartnerOf x := by
  have hread : ∀ o : Option Client, o.bind Client.lastPartner
      = (o.map fun c => c.lastPartner).join := by
    intro o
    cases o with
    | none => rfl
    | some c => rfl
  unfold lastPartnerOf
  rw [hread, hread]
  exact congrArg Option.join (read_sought Sought.lastPartner hx)

theorem isLastPartnerRematch_congr {k : SimpleHub} {e f : QueueEntry}
    (he : SameSought h k e) (hf : SameSought h k f) :
    k.isLastPartnerRematch e f = h.isLastPartnerRematch e f := by
  have hl : ∀ x ∈ queueEntryIds e, k.lastPartnerOf x = h.lastPartnerOf x :=
    fun x hx => lastPartnerOf_congr (he x hx)
  have hr : ∀ x ∈ queueEntryIds f, k.lastPartnerOf x = h.lastPartnerOf x :=
    fun x hx => lastPartnerOf_congr (hf x hx)
  cases e with
  | solo a =>
      have ha := hl a List.mem_cons_self
      cases f with
      | solo b => rw [isLastPartnerRematch, ha, hr b List.mem_cons_self, isLastPartnerRematch]
      | party b c =>
          rw [isLastPartnerRematch, ha, hr b List.mem_cons_self,
            hr c (List.mem_cons_of_mem _ List.mem_cons_self), isLastPartnerRematch]
      | party3 _ _ _ => rfl
  | party a b =>
      cases f with
      | solo c =>
          rw [isLastPartnerRematch, hl a List.mem_cons_self,
            hl b (List.mem_cons_of_mem _ List.mem_cons_self), hr c List.mem_cons_self,
            isLastPartnerRematch]
      | party _ _ => rfl
      | party3 _ _ _ => rfl
  | party3 _ _ _ => cases f <;> rfl

theorem recentlyUnmatched_congr {k : SimpleHub} {e f : QueueEntry}
    (he : SameSought h k e) (hf : SameSought h k f) :
    k.recentlyUnmatched env e f = h.recentlyUnmatched env e f := by
  have hread : ∀ o : Option Client, o.bind Client.lastUnmatchAt
      = (o.map fun c => c.lastUnmatchAt).join := by
    intro o
    cases o with
    | none => rfl
    | some c => rfl
  have hx : ∀ x ∈ queueEntryIds e ++ queueEntryIds f,
      (k.get x).bind (·.lastUnmatchAt) = (h.get x).bind (·.lastUnmatchAt) := by
    intro x hx
    rw [hread, hread]
    refine congrArg Option.join (read_sought Sought.lastUnmatchAt ?_)
    rcases List.mem_append.mp hx with hx | hx
    · exact he x hx
    · exact hf x hx
  unfold recentlyUnmatched
  rw [Bool.eq_iff_iff, List.any_eq_true, List.any_eq_true]
  exact exists_congr fun x => and_congr_right fun hmem => by rw [hx x hmem]

/-- Matchability only reads the rules and what is sought of the members. -/
theorem Matchable.congr {k : SimpleHub} {e f : QueueEntry} (hr : SameRules h k)
    (he : SameSought h k e) (hf : SameSought h k f) (hm : k.Matchable env e f) :
    h.Matchable env e f where
  room := by
    rw [← room_congr he, ← room_congr hf]
    exact hm.room
  left := ready_congr hr he hm.left
  right := ready_congr hr hf hm.right
  compatible := by
    obtain ⟨hs, hl, hb, hblock⟩ := entriesCompatible_iff.mp hm.compatible
    refine entriesCompatible_iff.mpr ⟨hs, fun a ha => ?_, fun b hb' => ?_, fun a ha b hb' => ?_⟩
    · rw [← isMatchBannedConn_congr hr (he a ha)]
      exact hl a ha
    · rw [← isMatchBannedConn_congr hr (hf b hb')]
      exact hb b hb'
    · rw [← isBlockedPairConn_congr hr (he a ha) (hf b hb')]
      exact hblock a ha b hb'
  cooled := by
    rw [← isLastPartnerRematch_congr he hf, ← recentlyUnmatched_congr he hf]
    exact hm.cooled

-- =============================================================== what it writes

/-- The members sit in one session with each other; nobody else is touched. -/
structure Seated (h k : SimpleHub) (sid : SessionId) (ms : List ConnId) : Prop where
  others : ∀ x, x ∉ ms → k.get x = h.get x
  members : ∀ x ∈ ms, ∃ c, k.get x = some c ∧ c.phase = .matched ∧ c.sessionId = some sid
  peers : ms.Nodup → ∀ x ∈ ms, ∀ y, y ∈ k.peersOf x ↔ y ∈ ms ∧ y ≠ x

theorem Seated.of_get {h' k k' : SimpleHub} {sid : SessionId} {ms : List ConnId}
    (hs : Seated h k sid ms) (hh : ∀ x, h'.get x = h.get x) (hk : ∀ x, k'.get x = k.get x) :
    Seated h' k' sid ms where
  others x hx := by
    rw [hk, hh]
    exact hs.others x hx
  members x hx := by
    rw [hk]
    exact hs.members x hx
  peers hnd x hx y := by
    unfold peersOf
    rw [hk]
    exact hs.peers hnd x hx y

/-- A session starts for these members: only their slots leave the queue. -/
structure Links (h k : SimpleHub) (ms : List ConnId) : Prop where
  rules : SameRules h k
  seated : ∃ sid, Seated h k sid ms
  queue : ∃ p : QueueEntry → Bool, k.queue = h.queue.filter p
    ∧ ∀ e, (∀ x ∈ queueEntryIds e, x ∉ ms) → p e = true

/-- Every listed connection waits. -/
def AllWaiting (h : SimpleHub) (ms : List ConnId) : Prop :=
  ∀ x ∈ ms, h.phaseOf x = some .waiting

theorem queueEntryWaitingOk_iff {e : QueueEntry} :
    h.queueEntryWaitingOk e = true ↔ h.AllWaiting (queueEntryIds e) := by
  simp [queueEntryWaitingOk, AllWaiting]

theorem phaseOf_eq_some {x : ConnId} {p : Phase} :
    h.phaseOf x = some p ↔ ∃ c, h.get x = some c ∧ c.phase = p := Option.map_eq_some_iff

theorem AllWaiting.has {ms : List ConnId} (hw : h.AllWaiting ms) {x : ConnId} (hx : x ∈ ms) :
    ∃ c, h.get x = some c :=
  have ⟨c, hc, _⟩ := phaseOf_eq_some.mp (hw x hx)
  ⟨c, hc⟩

theorem AllWaiting.takeWaitStarted {ms : List ConnId} (hw : h.AllWaiting ms) (y : ConnId) :
    (h.takeWaitStarted y).AllWaiting ms := by
  intro x hx
  obtain ⟨c, hc, hp⟩ := phaseOf_eq_some.mp (hw x hx)
  refine phaseOf_eq_some.mpr ?_
  by_cases hxy : x = y
  · exact ⟨{ c with waitStarted := none }, by simp [SimpleHub.takeWaitStarted, hxy, hxy ▸ hc], hp⟩
  · exact ⟨c, by simp [SimpleHub.takeWaitStarted, hxy, hc], hp⟩

/-- Reading the wait time of a member first changes nothing of this. -/
theorem Links.of_takeWaitStarted {k : SimpleHub} {ms : List ConnId} {y : ConnId} (hy : y ∈ ms)
    (hl : Links (h.takeWaitStarted y) k ms) : Links h k ms where
  rules := (SameRules.modify y _).trans hl.rules
  seated := by
    obtain ⟨sid, hs⟩ := hl.seated
    refine ⟨sid, fun x hx => ?_, hs.members, hs.peers⟩
    rw [hs.others x hx]
    have hxy : x ≠ y := fun heq => hx (heq ▸ hy)
    simp [takeWaitStarted, hxy]
  queue := hl.queue

theorem seated_linkSolo {a b : ConnId} (env : Env) (hw : h.AllWaiting [a, b]) (sid : SessionId) :
    Seated h (h.linkSolo env sid a b) sid [a, b] := by
  obtain ⟨ca, hca⟩ := hw.has (x := a) (by simp)
  obtain ⟨cb, hcb⟩ := hw.has (x := b) (by simp)
  unfold linkSolo
  refine ⟨fun x hx => ?_, fun x hx => ?_, fun hnd x hx => ?_⟩
  · grind
  · grind
  · obtain ⟨c, hc⟩ := hw.has hx
    intro y
    unfold peersOf
    grind

theorem seated_linkPartyVsSolo {s a b : ConnId} (env : Env) (hw : h.AllWaiting [s, a, b])
    (sid : SessionId) : Seated h (h.linkPartyVsSolo env sid s a b) sid [s, a, b] := by
  obtain ⟨cs, hcs⟩ := hw.has (x := s) (by simp)
  obtain ⟨ca, hca⟩ := hw.has (x := a) (by simp)
  obtain ⟨cb, hcb⟩ := hw.has (x := b) (by simp)
  unfold linkPartyVsSolo Client.joinTrio Client.setMatched Client.clearSdp
  refine ⟨fun x hx => ?_, fun x hx => ?_, fun hnd x hx => ?_⟩
  · grind
  · grind
  · intro y
    simp only [List.nodup_cons, List.mem_cons, List.not_mem_nil, or_false, not_or] at hnd hx
    rcases hx with rfl | rfl | rfl
    · simp [peersOf, *]
      grind
    · simp [peersOf, *]
      grind
    · simp [peersOf, *]
      grind

theorem seated_linkPartyVsParty {a1 a2 b1 b2 : ConnId} (env : Env)
    (hw : h.AllWaiting [a1, a2, b1, b2])
    (sid : SessionId) :
    Seated h (h.linkPartyVsParty env sid a1 a2 b1 b2) sid [a1, a2, b1, b2] := by
  obtain ⟨c1, hc1⟩ := hw.has (x := a1) (by simp)
  obtain ⟨c2, hc2⟩ := hw.has (x := a2) (by simp)
  obtain ⟨d1, hd1⟩ := hw.has (x := b1) (by simp)
  obtain ⟨d2, hd2⟩ := hw.has (x := b2) (by simp)
  unfold linkPartyVsParty Client.setMatched Client.clearSdp
  refine ⟨fun x hx => ?_, fun x hx => ?_, fun hnd x hx => ?_⟩
  · grind
  · grind
  · intro y
    simp only [List.nodup_cons, List.mem_cons, List.not_mem_nil, or_false, not_or] at hnd hx
    rcases hx with rfl | rfl | rfl | rfl
    · simp [peersOf, *]
      grind
    · simp [peersOf, *]
      grind
    · simp [peersOf, *]
      grind
    · simp [peersOf, *]
      grind

theorem links_startSoloMatch {a b : ConnId} (hw : h.AllWaiting [a, b]) :
    Links h (h.startSoloMatch env a b) [a, b] := by
  have ha : h.phaseOf a = some .waiting := hw a (by simp)
  have hb : h.phaseOf b = some .waiting := hw b (by simp)
  unfold startSoloMatch
  rw [if_neg (by simp [ha]), if_neg (by simp [ha, hb])]
  refine ⟨⟨rfl, rfl, rfl, rfl⟩, ⟨(h.makeSessionId env [h.peerIdOf a, h.peerIdOf b]).1, ?_⟩,
    fun e => b ∉ queueEntryIds e && a ∉ queueEntryIds e, ?_, fun e he => ?_⟩
  · refine (seated_linkSolo (h := (h.dequeueClient a).dequeueClient b) env hw _).of_get ?_ ?_
    · exact fun _ => rfl
    · exact fun _ => rfl
  · simp [linkSolo]
  · simp only [decide_not, Bool.and_eq_true, Bool.not_eq_true', decide_eq_false_iff_not]
    exact ⟨fun hbe => he b hbe (by simp), fun hae => he a hae (by simp)⟩

theorem links_startPartyVsSolo {s a b : ConnId} (hw : h.AllWaiting [s, a, b]) :
    Links h (h.startPartyVsSolo env s a b) [s, a, b] := by
  unfold startPartyVsSolo
  have hrules : ∀ sid msgs, SameRules h
      ((((((h.dequeueClient s).dequeueClient a).dequeueClient b).linkPartyVsSolo env sid s a
        b).emit msgs).broadcastLobbyInfo env) := fun sid msgs =>
    (((SameRules.dequeueClient s).trans (.dequeueClient a)).trans (.dequeueClient b)).trans
      ((SameRules.linkPartyVsSolo sid s a b).trans (.announce msgs))
  refine ⟨hrules _ _,
    ⟨(h.makeSessionId env [h.peerIdOf s, h.peerIdOf a, h.peerIdOf b, "party"]).1, ?_⟩,
    fun e => b ∉ queueEntryIds e && (a ∉ queueEntryIds e && s ∉ queueEntryIds e), ?_,
    fun e he => ?_⟩
  · refine (seated_linkPartyVsSolo (h := ((h.dequeueClient s).dequeueClient a).dequeueClient b)
      env hw _).of_get ?_ ?_
    · exact fun _ => rfl
    · exact fun _ => rfl
  · simp [linkPartyVsSolo]
  · simp only [decide_not, Bool.and_eq_true, Bool.not_eq_true', decide_eq_false_iff_not]
    exact ⟨fun hbe => he b hbe (by simp), fun hae => he a hae (by simp),
      fun hse => he s hse (by simp)⟩

theorem links_startPartyVsParty {a1 a2 b1 b2 : ConnId} (hw : h.AllWaiting [a1, a2, b1, b2]) :
    Links h (h.startPartyVsParty env a1 a2 b1 b2) [a1, a2, b1, b2] := by
  unfold startPartyVsParty
  refine ⟨⟨rfl, rfl, rfl, rfl⟩, ⟨(h.makeSessionId env
    [h.peerIdOf a1, h.peerIdOf a2, h.peerIdOf b1, h.peerIdOf b2, "2v2"]).1, ?_⟩,
    fun _ => true, ?_, fun _ _ => rfl⟩
  · refine (seated_linkPartyVsParty env hw _).of_get ?_ ?_
    · exact fun _ => rfl
    · exact fun _ => rfl
  · simp [linkPartyVsParty]

theorem Links.perm {k : SimpleHub} {ms ms' : List ConnId} (hl : Links h k ms)
    (hp : ms.Perm ms') : Links h k ms' where
  rules := hl.rules
  seated := by
    obtain ⟨sid, hs⟩ := hl.seated
    refine ⟨sid, fun x hx => hs.others x (mt hp.mem_iff.mp hx),
      fun x hx => hs.members x (hp.mem_iff.mpr hx), fun hnd x hx y => ?_⟩
    rw [hs.peers (hp.nodup_iff.mpr hnd) x (hp.mem_iff.mpr hx) y, hp.mem_iff]
  queue := by
    obtain ⟨p, hq, hkeep⟩ := hl.queue
    exact ⟨p, hq, fun e he => hkeep e fun x hx => mt hp.mem_iff.mp (he x hx)⟩

theorem partyAlreadyIn1v2_of_waiting {a b : ConnId} (hw : h.AllWaiting [a, b]) :
    h.partyAlreadyIn1v2 a b = false := by
  unfold partyAlreadyIn1v2
  rw [List.any_eq_false]
  intro x hx
  obtain ⟨c, hc, hp⟩ := phaseOf_eq_some.mp (hw x hx)
  simp [hc, hp]

/-- Pairing a solo with a party starts their 1v2. -/
theorem links_pairTrio {s a b : ConnId} (hs : h.AllWaiting [s]) (hab : h.AllWaiting [a, b]) :
    Links h (h.pairEntries env (.solo s) (.party a b)) [s, a, b] := by
  have hw : h.AllWaiting [s, a, b] := by
    intro x hx
    rcases List.mem_cons.mp hx with rfl | hx
    · exact hs x (by simp)
    · exact hab x hx
  rw [pairEntries, partyAlreadyIn1v2_of_waiting hab, if_neg Bool.false_ne_true]
  refine .of_takeWaitStarted (y := s) (by simp) (.of_takeWaitStarted (y := a) (by simp)
    (.of_takeWaitStarted (y := b) (by simp) ?_))
  exact links_startPartyVsSolo (((hw.takeWaitStarted s).takeWaitStarted a).takeWaitStarted b)

/-- Pairing two slots of waiting clients starts a session of exactly their
members: the branches that requeue are never taken. -/
theorem links_pairEntries {first second : QueueEntry} (hs : queueShapeOk first second = true)
    (hf : h.AllWaiting (queueEntryIds first)) (hsec : h.AllWaiting (queueEntryIds second)) :
    Links h (h.pairEntries env first second)
      (queueEntryIds first ++ queueEntryIds second) := by
  have hw : h.AllWaiting (queueEntryIds first ++ queueEntryIds second) := by
    intro x hx
    rcases List.mem_append.mp hx with hx | hx
    · exact hf x hx
    · exact hsec x hx
  cases first with
  | solo a =>
      cases second with
      | solo b =>
          have ha : h.phaseOf a = some .waiting := hf a (by simp [queueEntryIds])
          have hb : h.phaseOf b = some .waiting := hsec b (by simp [queueEntryIds])
          rw [pairEntries, if_pos (by simp [ha, hb])]
          refine .of_takeWaitStarted (y := a) (by simp [queueEntryIds])
            (.of_takeWaitStarted (y := b) (by simp [queueEntryIds]) ?_)
          exact links_startSoloMatch ((hw.takeWaitStarted a).takeWaitStarted b)
      | party b c => exact links_pairTrio hf hsec
      | party3 _ _ _ => cases hs
  | party a b =>
      cases second with
      | solo s =>
          have hl : Links h (h.pairEntries env (.solo s) (.party a b)) [s, a, b] :=
            links_pairTrio hsec hf
          have hperm : [s, a, b].Perm [a, b, s] := @List.perm_append_comm _ [s] [a, b]
          exact hl.perm hperm
      | party c d =>
          rw [pairEntries]
          refine .of_takeWaitStarted (y := a) (by simp [queueEntryIds])
            (.of_takeWaitStarted (y := b) (by simp [queueEntryIds])
              (.of_takeWaitStarted (y := c) (by simp [queueEntryIds])
                (.of_takeWaitStarted (y := d) (by simp [queueEntryIds]) ?_)))
          exact links_startPartyVsParty ((((hw.takeWaitStarted a).takeWaitStarted
            b).takeWaitStarted c).takeWaitStarted d)
      | party3 _ _ _ => cases hs
  | party3 _ _ _ => cases hs

/-- A slot whose members wait after a session start has no member in it. -/
theorem Links.disjoint_of_waiting {k : SimpleHub} {ms : List ConnId} {e : QueueEntry}
    (hl : Links h k ms) (hw : k.queueEntryWaitingOk e = true) : ∀ x ∈ queueEntryIds e, x ∉ ms := by
  obtain ⟨sid, hs⟩ := hl.seated
  intro x hx hms
  obtain ⟨c, hc, hp, -⟩ := hs.members x hms
  have hx' := queueEntryWaitingOk_iff.mp hw x hx
  rw [phaseOf, hc, Option.map_some, hp] at hx'
  cases hx'

theorem Links.sameRecords {k : SimpleHub} {ms : List ConnId} {e : QueueEntry}
    (hl : Links h k ms) (he : ∀ x ∈ queueEntryIds e, x ∉ ms) : SameRecords h k e := by
  obtain ⟨sid, hs⟩ := hl.seated
  exact fun x hx => hs.others x (he x hx)

/-- A session start makes no two slots matchable. -/
theorem Links.matchable {k : SimpleHub} {ms : List ConnId} {e f : QueueEntry}
    (hl : Links h k ms) (hm : k.Matchable env e f) : h.Matchable env e f :=
  hm.congr hl.rules (hl.sameRecords (hl.disjoint_of_waiting hm.left.waiting)).sought
    (hl.sameRecords (hl.disjoint_of_waiting hm.right.waiting)).sought

-- =================================================================== one turn

/-- One turn of the loop on the slot at the head. -/
inductive Turn (env : Env) (steps : Nat) (h : SimpleHub) (first : QueueEntry)
    (rest : List QueueEntry) : SimpleHub × Bool → Prop where
  /-- the slot is dead -/
  | drop (hdead : first.IsParty3 ∨ h.queueEntryWaitingOk first = false) :
      Turn env steps h first rest (h.setQueue rest, true)
  /-- nothing behind the slot is matchable with it -/
  | rotate (hw : h.queueEntryWaitingOk first = true) (hp : ¬ first.IsParty3)
      (hnone : ∀ e ∈ rest, ¬ h.Matchable env first e) :
      Turn env steps h first rest
        (h.setQueue (rest ++ [first]), (rest ++ [first]).length ≤ steps)
  /-- a session starts -/
  | pair {i : Nat} {second : QueueEntry} (hi : rest[i]? = some second)
      (hm : h.Matchable env first second) :
      Turn env steps h first rest
        ((h.setQueue (rest.eraseIdx i)).pairEntries env first second, true)

/-- Replacing the queue changes no record and no rule. -/
theorem matchable_setQueue {q : List QueueEntry} {e f : QueueEntry} :
    (h.setQueue q).Matchable env e f ↔ h.Matchable env e f :=
  ⟨fun hm => hm.congr (.setQueue q) (fun _ _ => rfl) (fun _ _ => rfl),
    fun hm => Matchable.congr (h := h.setQueue q) (k := h) ⟨rfl, rfl, rfl, rfl⟩ (fun _ _ => rfl)
      (fun _ _ => rfl) hm⟩

/-- A turn on a slot that is not a leftover of three. -/
theorem turn_live {steps : Nat} {first : QueueEntry} {rest : List QueueEntry}
    (hp : ¬ first.IsParty3) : Turn env steps h first rest
      (if !h.queueEntryWaitingOk first then (h.setQueue rest, true)
       else if !h.queueEntryFresh env first then
        (h.setQueue (rest ++ [first]), (rest ++ [first]).length ≤ steps)
       else if !h.queueEntryFaceOk env first then
        (h.setQueue (rest ++ [first]), (rest ++ [first]).length ≤ steps)
       else match (h.setQueue rest).findSecond env first with
        | none => (h.setQueue (rest ++ [first]), (rest ++ [first]).length ≤ steps)
        | some i =>
          match rest[i]? with
          | none => (h.setQueue rest, true)
          | some second => ((h.setQueue (rest.eraseIdx i)).pairEntries env first second, true)) := by
  by_cases hw : h.queueEntryWaitingOk first = true
  case neg =>
    rw [Bool.not_eq_true] at hw
    rw [hw]
    exact .drop (.inr hw)
  rw [hw]
  by_cases hf : h.queueEntryFresh env first = true
  case neg =>
    rw [Bool.not_eq_true] at hf
    rw [hf]
    refine .rotate hw hp fun e _ hm => ?_
    rw [hm.left.fresh] at hf
    cases hf
  rw [hf]
  by_cases hface : h.queueEntryFaceOk env first = true
  case neg =>
    rw [Bool.not_eq_true] at hface
    rw [hface]
    refine .rotate hw hp fun e _ hm => ?_
    rw [hm.left.face] at hface
    cases hface
  rw [hface]
  have hr : (h.setQueue rest).Ready env first := ⟨hw, hf, hface⟩
  cases hfind : (h.setQueue rest).findSecond env first with
  | none =>
      refine .rotate hw hp fun e he hm => ?_
      exact findSecond_none hr hfind e he (matchable_setQueue.mpr hm)
  | some i =>
      obtain ⟨second, hi, hm⟩ := findSecond_some hr hfind
      rw [queue_setQueue] at hi
      show Turn env steps h first rest (match rest[i]? with
        | none => (h.setQueue rest, true)
        | some second => ((h.setQueue (rest.eraseIdx i)).pairEntries env first second, true))
      rw [hi]
      exact .pair hi (matchable_setQueue.mp hm)

theorem matchTurn_cases (h : SimpleHub) (env : Env) (steps : Nat) (first : QueueEntry)
    (rest : List QueueEntry) :
    Turn env steps h first rest ((h.setQueue rest).matchTurn env steps first) := by
  cases first with
  | solo a => exact turn_live id
  | party a b => exact turn_live id
  | party3 a b c => exact .drop (.inl trivial)

-- =================================================================== the loop

/-- The rest of the loop after a turn. -/
def afterTurn (env : Env) (steps : Nat) (r : SimpleHub × Bool) : SimpleHub :=
  if r.2 then matchLoop env steps r.1 else r.1

theorem matchLoop_cons {steps : Nat} {first : QueueEntry} {rest : List QueueEntry}
    (hq : h.queue = first :: rest) :
    matchLoop env (steps + 1) h
      = afterTurn env steps ((h.setQueue rest).matchTurn env steps first) := by
  rw [matchLoop, hq]
  dsimp only
  unfold afterTurn
  rcases (h.setQueue rest).matchTurn env steps first with ⟨k, _ | _⟩
  · rfl
  · rfl

theorem matchLoop_nil {steps : Nat} (hq : h.queue = []) : matchLoop env steps h = h := by
  cases steps with
  | zero => rfl
  | succ n => rw [matchLoop, hq]

/-- No two slots of the list are matchable. -/
def Unmatchable (h : SimpleHub) (env : Env) (q : List QueueEntry) : Prop :=
  q.Pairwise fun e f => ¬ h.Matchable env e f

theorem Unmatchable.sublist {q q' : List QueueEntry} (hu : h.Unmatchable env q)
    (hs : q'.Sublist q) : h.Unmatchable env q' := List.Pairwise.sublist hs hu

/-- The first slot goes to the end. -/
theorem Unmatchable.rotate {first : QueueEntry} {rest : List QueueEntry}
    (hu : h.Unmatchable env (first :: rest)) :
    (h.setQueue (rest ++ [first])).Unmatchable env (rest ++ [first]) := by
  obtain ⟨hfirst, hrest⟩ := List.pairwise_cons.mp hu
  refine List.pairwise_append.mpr ⟨?_, List.pairwise_singleton _ _, ?_⟩
  · exact hrest.imp fun hn hm => hn (matchable_setQueue.mp hm)
  · intro e he f hf hm
    rw [List.mem_singleton.mp hf] at hm
    exact hfirst e he (matchable_setQueue.mp hm.symm)

/-- The first slot is dropped. -/
theorem Unmatchable.drop {first : QueueEntry} {rest : List QueueEntry}
    (hu : h.Unmatchable env (first :: rest)) : (h.setQueue rest).Unmatchable env rest :=
  (List.pairwise_cons.mp hu).2.imp fun hn hm => hn (matchable_setQueue.mp hm)

/-- The slots of `past` were looked at: nothing is matchable with them. -/
structure Swept (h : SimpleHub) (env : Env) (todo past : List QueueEntry) : Prop where
  queue : h.queue = todo ++ past
  settled : h.Unmatchable env past
  across : ∀ e ∈ todo, ∀ f ∈ past, ¬ h.Matchable env e f

/-- With an unmatchable queue the loop only drops and rotates. -/
theorem unmatchable_matchLoop (steps : Nat) (hu : h.Unmatchable env h.queue) :
    (matchLoop env steps h).Unmatchable env (matchLoop env steps h).queue := by
  induction steps generalizing h with
  | zero => exact hu
  | succ n ih =>
      cases hq : h.queue with
      | nil => rwa [matchLoop_nil hq]
      | cons first rest =>
          rw [hq] at hu
          rw [matchLoop_cons hq]
          generalize hr : (h.setQueue rest).matchTurn env n first = r
          have ht := matchTurn_cases h env n first rest
          rw [hr] at ht
          cases ht with
          | drop hdead => exact ih hu.drop
          | rotate hw hp hnone =>
              unfold afterTurn
              split
              · exact ih hu.rotate
              · exact hu.rotate
          | pair hi hm =>
              exact absurd hm ((List.pairwise_cons.mp hu).1 _ (List.mem_of_getElem? hi))

theorem Swept.drop {first : QueueEntry} {todo past : List QueueEntry}
    (hs : h.Swept env (first :: todo) past) :
    (h.setQueue (todo ++ past)).Swept env todo past where
  queue := rfl
  settled := hs.settled.imp fun hn hm => hn (matchable_setQueue.mp hm)
  across e he f hf hm :=
    hs.across e (List.mem_cons_of_mem _ he) f hf (matchable_setQueue.mp hm)

theorem Swept.rotate {first : QueueEntry} {todo past : List QueueEntry}
    (hs : h.Swept env (first :: todo) past)
    (hnone : ∀ e ∈ todo ++ past, ¬ h.Matchable env first e) :
    (h.setQueue (todo ++ past ++ [first])).Swept env todo (past ++ [first]) where
  queue := List.append_assoc _ _ _
  settled := by
    refine List.pairwise_append.mpr ⟨?_, List.pairwise_singleton _ _, ?_⟩
    · exact hs.settled.imp fun hn hm => hn (matchable_setQueue.mp hm)
    · intro e he f hf hm
      rw [List.mem_singleton.mp hf] at hm
      exact hnone e (List.mem_append_right _ he) (matchable_setQueue.mp hm.symm)
  across e he f hf hm := by
    have hm := matchable_setQueue.mp hm
    rcases List.mem_append.mp hf with hf | hf
    · exact hs.across e (List.mem_cons_of_mem _ he) f hf hm
    · rw [List.mem_singleton.mp hf] at hm
      exact hnone e (List.mem_append_left _ he) hm.symm

/-- A session start shortens both parts of the queue. -/
theorem Swept.links {k : SimpleHub} {todo past : List QueueEntry} {ms : List ConnId}
    (hs : h.Swept env todo past) (hl : Links h k ms) :
    ∃ todo' past', k.Swept env todo' past' ∧ todo'.Sublist todo ∧ past'.Sublist past := by
  obtain ⟨p, hq, -⟩ := hl.queue
  refine ⟨todo.filter p, past.filter p, ⟨?_, ?_, ?_⟩, List.filter_sublist, List.filter_sublist⟩
  · rw [hq, hs.queue, List.filter_append]
  · exact (hs.settled.sublist List.filter_sublist).imp fun hn hm => hn (hl.matchable hm)
  · intro e he f hf hm
    exact hs.across e (List.mem_of_mem_filter he) f (List.mem_of_mem_filter hf)
      (hl.matchable hm)

/-- The slot found lies in the part not looked at yet. -/
theorem Swept.erase {first second : QueueEntry} {todo past : List QueueEntry} {i : Nat}
    (hs : h.Swept env (first :: todo) past) (hi : (todo ++ past)[i]? = some second)
    (hm : h.Matchable env first second) :
    (h.setQueue ((todo ++ past).eraseIdx i)).Swept env (todo.eraseIdx i) past := by
  have hlt : i < todo.length := by
    by_contra hge
    rw [List.getElem?_append_right (by omega)] at hi
    exact hs.across first List.mem_cons_self second (List.mem_of_getElem? hi) hm
  refine ⟨?_, ?_, fun e he f hf hm => ?_⟩
  · rw [queue_setQueue, List.eraseIdx_append_of_lt_length hlt]
  · exact hs.settled.imp fun hn hm => hn (matchable_setQueue.mp hm)
  · exact hs.across e (List.mem_cons_of_mem _ (List.mem_of_mem_eraseIdx he)) f hf
      (matchable_setQueue.mp hm)

/-- The pairing of two matchable slots is a session start. -/
theorem Matchable.links {first second : QueueEntry} (hm : h.Matchable env first second) :
    Links h (h.pairEntries env first second) (queueEntryIds first ++ queueEntryIds second) :=
  links_pairEntries (entriesCompatible_iff.mp hm.compatible).1
    (queueEntryWaitingOk_iff.mp hm.left.waiting) (queueEntryWaitingOk_iff.mp hm.right.waiting)

/-- With steps for one pass over what is left, the loop ends unmatchable:
induction on the steps, one pass being `todo`. -/
theorem swept_matchLoop {steps : Nat} {todo past : List QueueEntry}
    (hs : h.Swept env todo past) (hsteps : todo.length + h.queue.length ≤ steps) :
    (matchLoop env steps h).Unmatchable env (matchLoop env steps h).queue := by
  induction steps generalizing h todo past with
  | zero =>
      have htodo : todo = [] := List.length_eq_zero_iff.mp (by omega)
      have hu : h.Unmatchable env h.queue := by
        rw [hs.queue, htodo]
        exact hs.settled
      exact unmatchable_matchLoop 0 hu
  | succ n ih =>
      cases todo with
      | nil =>
          refine unmatchable_matchLoop _ ?_
          rw [hs.queue]
          exact hs.settled
      | cons first todo =>
          have hq : h.queue = first :: (todo ++ past) := hs.queue
          have hlen : h.queue.length = todo.length + past.length + 1 := by simp [hq]
          rw [List.length_cons, hlen] at hsteps
          rw [matchLoop_cons hq]
          generalize hr : (h.setQueue (todo ++ past)).matchTurn env n first = r
          have ht := matchTurn_cases h env n first (todo ++ past)
          rw [hr] at ht
          cases ht with
          | drop hdead =>
              refine ih hs.drop ?_
              rw [queue_setQueue, List.length_append]
              omega
          | rotate hw hp hnone =>
              have hgo : (todo ++ past ++ [first]).length ≤ n := by
                simp only [List.length_append, List.length_cons, List.length_nil]
                omega
              unfold afterTurn
              rw [decide_eq_true hgo, if_pos rfl]
              refine ih (hs.rotate hnone) ?_
              simp only [queue_setQueue, List.length_append, List.length_cons, List.length_nil]
              omega
          | @pair i second hi hm =>
              have hl := (matchable_setQueue (q := (todo ++ past).eraseIdx i)).mpr hm |>.links
              obtain ⟨todo', past', hs', htodo, hpast⟩ := (hs.erase hi hm).links hl
              refine ih hs' ?_
              have h₁ := htodo.length_le
              have h₂ := hpast.length_le
              have h₃ := List.length_eraseIdx_le todo i
              rw [hs'.queue, List.length_append]
              omega

theorem unmatchable_rematch : (h.rematch env).Unmatchable env (h.rematch env).queue := by
  have hs : h.Swept env h.queue [] :=
    ⟨(List.append_nil _).symm, List.Pairwise.nil, fun _ _ _ hf => absurd hf List.not_mem_nil⟩
  exact swept_matchLoop hs (by omega)

/-- **When `try_match` returns, no two slots left in the queue are
matchable.** -/
theorem tryMatch_maximal {n : Nat} {h' : SimpleHub} (ht : tryMatch env n h = some h') :
    h'.queue.Pairwise fun e f => ¬ h'.Matchable env e f := by
  cases n with
  | zero => cases ht
  | succ n =>
      obtain ⟨k, -, hk⟩ := Option.bind_eq_some_iff.mp ht
      cases hk
      exact unmatchable_rematch

/-- Two strangers are matched; one of them stops and spins again. -/
def partedRun : List Input := script
  [(0, .connect 1 ""), (0, .connect 2 ""), (1, .frame 1 (.spin "")),
    (1, .frame 2 (.spin "")), (6000, .frame 1 .stop), (6500, .frame 1 (.spin ""))]

/-- A second later both are still in the queue. -/
theorem tryMatch_maximal_parted : ∃ w h', (hubMachine plainSys).Reach w
    ∧ tryMatch (plainEnv 7000) 1 w.hub = some h' ∧ h'.queue = [.solo 2, .solo 1]
    ∧ h'.queue.Pairwise fun e f => ¬ h'.Matchable (plainEnv 7000) e f := by
  obtain ⟨w, hw, hp⟩ := @reach_of_replay plainSys 2 partedRun
    (fun w => (tryMatch (plainEnv 7000) 1 w.hub).any fun h' : SimpleHub =>
      decide (h'.queue = [.solo 2, .solo 1])) (by decide)
  obtain ⟨h', ht, hq⟩ := (Option.any_eq_true _ _).mp hp
  exact ⟨w, h', hw, ht, of_decide_eq_true hq, tryMatch_maximal ht⟩

-- ================================================================ the pairings

/-- The slots are disjoint and name nobody twice. -/
def WellQueued (h : SimpleHub) : Prop := (h.queue.flatMap queueEntryIds).Nodup

instance (h : SimpleHub) : Decidable h.WellQueued :=
  inferInstanceAs (Decidable (List.Nodup _))

/-- A pairing of the loop: the hub before it, the two slots, the hub after. -/
structure Pairing where
  hub : SimpleHub
  first : QueueEntry
  second : QueueEntry
  after : SimpleHub

/-- Everybody in the two slots. -/
def Pairing.members (p : Pairing) : List ConnId :=
  queueEntryIds p.first ++ queueEntryIds p.second

/-- A run of the loop with its pairings, in order. -/
inductive MatchRun (env : Env) : SimpleHub → List Pairing → SimpleHub → Prop where
  | stop (h : SimpleHub) : MatchRun env h [] h
  | drop {h h' : SimpleHub} {first : QueueEntry} {rest : List QueueEntry} {log : List Pairing}
      (hq : h.queue = first :: rest)
      (hdead : first.IsParty3 ∨ h.queueEntryWaitingOk first = false)
      (hrun : MatchRun env (h.setQueue rest) log h') : MatchRun env h log h'
  | rotate {h h' : SimpleHub} {first : QueueEntry} {rest : List QueueEntry}
      {log : List Pairing} (hq : h.queue = first :: rest)
      (hrun : MatchRun env (h.setQueue (rest ++ [first])) log h') : MatchRun env h log h'
  | pair {h k h' : SimpleHub} {first second : QueueEntry} {rest : List QueueEntry} {i : Nat}
      {log : List Pairing} (hq : h.queue = first :: rest) (hi : rest[i]? = some second)
      (hm : h.Matchable env first second)
      (hk : k = (h.setQueue (rest.eraseIdx i)).pairEntries env first second)
      (hrun : MatchRun env k log h') : MatchRun env h (⟨h, first, second, k⟩ :: log) h'

/-- The loop is such a run, whatever its budget. -/
theorem matchLoop_run (env : Env) (steps : Nat) (h : SimpleHub) :
    ∃ log, MatchRun env h log (matchLoop env steps h) := by
  induction steps generalizing h with
  | zero => exact ⟨[], .stop h⟩
  | succ n ih =>
      cases hq : h.queue with
      | nil =>
          rw [matchLoop_nil hq]
          exact ⟨[], .stop h⟩
      | cons first rest =>
          rw [matchLoop_cons hq]
          generalize hr : (h.setQueue rest).matchTurn env n first = r
          have ht := matchTurn_cases h env n first rest
          rw [hr] at ht
          cases ht with
          | drop hdead =>
              obtain ⟨log, hlog⟩ := ih (h.setQueue rest)
              exact ⟨log, .drop hq hdead hlog⟩
          | rotate hw hp hnone =>
              unfold afterTurn
              split
              · obtain ⟨log, hlog⟩ := ih (h.setQueue (rest ++ [first]))
                exact ⟨log, .rotate hq hlog⟩
              · exact ⟨[], .rotate hq (.stop _)⟩
          | @pair i second hi hm =>
              obtain ⟨log, hlog⟩ := ih ((h.setQueue (rest.eraseIdx i)).pairEntries env
                first second)
              exact ⟨_, .pair hq hi hm rfl hlog⟩

/-- What is asked of a pairing: it takes two slots of the queue that fit,
their members all wait and pass every check, and afterwards exactly they sit
in one session. -/
structure Pairing.Sound (env : Env) (p : Pairing) : Prop where
  queued : p.first ∈ p.hub.queue ∧ p.second ∈ p.hub.queue ∧ p.first ≠ p.second
  shape : queueShapeOk p.first p.second = true
  distinct : p.members.Nodup
  waiting : ∀ x ∈ p.members, p.hub.phaseOf x = some .waiting
  fresh : ∀ x ∈ p.members, p.hub.clientRxFresh env x = true
  face : ∀ x ∈ p.members, p.hub.clientFaceOk env x = true
  unbanned : ∀ x ∈ p.members, p.hub.isMatchBannedConn env x = false
  unblocked : ∀ a ∈ queueEntryIds p.first, ∀ b ∈ queueEntryIds p.second,
    p.hub.isBlockedPairConn a b = false
  joined : ∃ sid, ∀ x ∈ p.members, ∃ c, p.after.get x = some c ∧ c.phase = .matched
    ∧ c.sessionId = some sid
  faces : ∀ x ∈ p.members, ∀ y, y ∈ p.after.peersOf x ↔ y ∈ p.members ∧ y ≠ x
  others : ∀ x, x ∉ p.members → p.after.get x = p.hub.get x

theorem Matchable.members {e f : QueueEntry} (hm : h.Matchable env e f) :
    ∀ x ∈ queueEntryIds e ++ queueEntryIds f, h.phaseOf x = some .waiting
      ∧ h.clientRxFresh env x = true ∧ h.clientFaceOk env x = true
      ∧ h.isMatchBannedConn env x = false := by
  obtain ⟨-, hl, hr, -⟩ := entriesCompatible_iff.mp hm.compatible
  intro x hx
  rcases List.mem_append.mp hx with hx | hx
  · exact ⟨queueEntryWaitingOk_iff.mp hm.left.waiting x hx,
      List.all_eq_true.mp hm.left.fresh x hx, List.all_eq_true.mp hm.left.face x hx, hl x hx⟩
  · exact ⟨queueEntryWaitingOk_iff.mp hm.right.waiting x hx,
      List.all_eq_true.mp hm.right.fresh x hx, List.all_eq_true.mp hm.right.face x hx, hr x hx⟩

theorem WellQueued.pair_nodup {first second : QueueEntry} {rest : List QueueEntry}
    (hw : h.WellQueued) (hq : h.queue = first :: rest) (hs : second ∈ rest) :
    (queueEntryIds first ++ queueEntryIds second).Nodup := by
  have hsub : [first, second].Sublist h.queue := by
    rw [hq]
    exact (List.singleton_sublist.mpr hs).cons_cons first
  have hnd := List.Nodup.sublist (hsub.flatMap queueEntryIds) hw
  simpa using hnd

/-- Slots in the queue of a well-formed hub share nobody. -/
theorem WellQueued.disjoint {e f : QueueEntry} (hw : h.WellQueued) (he : e ∈ h.queue)
    (hf : f ∈ h.queue) (hne : f ≠ e) : ∀ x ∈ queueEntryIds e, x ∉ queueEntryIds f := by
  have hpair := (List.nodup_flatMap.mp hw).2
  have hsymm : Std.Symm (Function.onFun List.Disjoint queueEntryIds) :=
    ⟨fun _ _ hd => hd.symm⟩
  have hd := hpair.forall he hf hne.symm
  exact fun x hx hxf => hd hx hxf

theorem ne_of_nodup_append {first second : QueueEntry}
    (hnd : (queueEntryIds first ++ queueEntryIds second).Nodup) : first ≠ second := by
  rintro rfl
  obtain ⟨x, hx⟩ := exists_mem_queueEntryIds first
  exact List.disjoint_of_nodup_append hnd hx hx

/-- **Step**: a pairing of a well-formed queue is sound. -/
theorem sound_pairing {first second : QueueEntry} {rest : List QueueEntry} {i : Nat}
    (hw : h.WellQueued) (hq : h.queue = first :: rest) (hi : rest[i]? = some second)
    (hm : h.Matchable env first second) :
    Pairing.Sound env
      ⟨h, first, second, (h.setQueue (rest.eraseIdx i)).pairEntries env first second⟩ := by
  have hsec : second ∈ rest := List.mem_of_getElem? hi
  have hnd := hw.pair_nodup hq hsec
  have hl := (matchable_setQueue (q := rest.eraseIdx i)).mpr hm |>.links
  obtain ⟨sid, hseat⟩ := hl.seated
  obtain ⟨hshape, -, -, hblock⟩ := entriesCompatible_iff.mp hm.compatible
  exact
    { queued := by
        rw [hq]
        exact ⟨List.mem_cons_self, List.mem_cons_of_mem _ hsec, ne_of_nodup_append hnd⟩
      shape := hshape
      distinct := hnd
      waiting := fun x hx => (hm.members x hx).1
      fresh := fun x hx => (hm.members x hx).2.1
      face := fun x hx => (hm.members x hx).2.2.1
      unbanned := fun x hx => (hm.members x hx).2.2.2
      unblocked := hblock
      joined := ⟨sid, hseat.members⟩
      faces := hseat.peers hnd
      others := hseat.others }

theorem WellQueued.shrink {q : List QueueEntry} (hw : h.WellQueued)
    (hs : (q.flatMap queueEntryIds).Subperm (h.queue.flatMap queueEntryIds)) :
    (h.setQueue q).WellQueued := by
  obtain ⟨l, hp, hl⟩ := hs
  exact hp.nodup_iff.mp (List.Nodup.sublist hl hw)

theorem Links.wellQueued {k : SimpleHub} {ms : List ConnId} (hl : Links h k ms)
    (hw : h.WellQueued) : k.WellQueued := by
  obtain ⟨p, hq, -⟩ := hl.queue
  unfold WellQueued
  rw [hq]
  exact List.Nodup.sublist (List.filter_sublist.flatMap queueEntryIds) hw

theorem WellQueued.tail {first : QueueEntry} {rest : List QueueEntry} (hw : h.WellQueued)
    (hq : h.queue = first :: rest) : (h.setQueue rest).WellQueued := by
  refine hw.shrink (List.Sublist.subperm ?_)
  rw [hq]
  exact (List.sublist_cons_self first rest).flatMap queueEntryIds

/-- **Run**: every pairing of a run from a well-formed queue is sound. -/
theorem MatchRun.sound {h h' : SimpleHub} {log : List Pairing} (hrun : MatchRun env h log h')
    (hw : h.WellQueued) : ∀ p ∈ log, p.Sound env := by
  induction hrun with
  | stop h => exact fun p hp => absurd hp List.not_mem_nil
  | drop hq hdead hrun ih => exact ih (hw.tail hq)
  | @rotate h h' first rest log hq hrun ih =>
      refine ih (hw.shrink (List.Perm.subperm ?_))
      rw [hq]
      exact (@List.perm_append_comm _ rest [first]).flatMap_right queueEntryIds
  | @pair h k h' first second rest i log hq hi hm hk hrun ih =>
      subst hk
      have herase : (h.setQueue (rest.eraseIdx i)).WellQueued := by
        refine hw.shrink (List.Sublist.subperm ?_)
        rw [hq]
        exact ((List.eraseIdx_sublist rest i).trans
          (List.sublist_cons_self first rest)).flatMap queueEntryIds
      have hl := (matchable_setQueue (q := rest.eraseIdx i)).mpr hm |>.links
      intro p hp
      rcases List.mem_cons.mp hp with rfl | hp
      · exact sound_pairing hw hq hi hm
      · exact ih (hl.wellQueued herase) p hp

/-- No other slot of the queue shares a member with this one. -/
def Apart (h : SimpleHub) (e : QueueEntry) : Prop :=
  ∀ f ∈ h.queue, f ≠ e → ∀ x ∈ queueEntryIds e, x ∉ queueEntryIds f

theorem WellQueued.apart {e : QueueEntry} (hw : h.WellQueued) (he : e ∈ h.queue) : h.Apart e :=
  fun _ hf hne => hw.disjoint he hf hne

theorem Apart.mono {k : SimpleHub} {e : QueueEntry} (ha : h.Apart e)
    (hs : ∀ f ∈ k.queue, f ∈ h.queue) : k.Apart e :=
  fun f hf => ha f (hs f hf)

/-- A slot that no pairing of the run uses keeps its members' records, and
stays in the queue unless it is dead. -/
theorem MatchRun.unused {h h' : SimpleHub} {log : List Pairing} (hrun : MatchRun env h log h')
    {e : QueueEntry} (ha : h.Apart e) (hun : ∀ p ∈ log, p.first ≠ e ∧ p.second ≠ e) :
    SameRecords h h' e ∧ (e ∈ h.queue → h.queueEntryWaitingOk e = true → ¬ e.IsParty3 →
      e ∈ h'.queue) := by
  induction hrun with
  | stop h => exact ⟨fun _ _ => rfl, fun he _ _ => he⟩
  | @drop h h' first rest log hq hdead hrun ih =>
      have hsub : ∀ f ∈ rest, f ∈ h.queue := fun f hf => hq ▸ List.mem_cons_of_mem _ hf
      obtain ⟨hsame, hstay⟩ := ih (ha.mono hsub) hun
      refine ⟨hsame, fun he hwait hp => hstay ?_ hwait hp⟩
      rw [hq] at he
      rcases List.mem_cons.mp he with rfl | he
      · rcases hdead with hthree | hwait'
        · exact absurd hthree hp
        · rw [hwait] at hwait'
          cases hwait'
      · exact he
  | @rotate h h' first rest log hq hrun ih =>
      have hsub : ∀ f, f ∈ rest ++ [first] ↔ f ∈ h.queue := by
        intro f
        rw [hq, List.mem_append, List.mem_singleton, List.mem_cons, or_comm]
      obtain ⟨hsame, hstay⟩ := ih (ha.mono fun f hf => (hsub f).mp hf) hun
      exact ⟨hsame, fun he hwait hp => hstay ((hsub e).mpr he) hwait hp⟩
  | @pair h k h' first second rest i log hq hi hm hk hrun ih =>
      subst hk
      obtain ⟨hfirst, hsecond⟩ := hun _ List.mem_cons_self
      have hl := (matchable_setQueue (q := rest.eraseIdx i)).mpr hm |>.links
      have hsec : second ∈ h.queue := hq ▸ List.mem_cons_of_mem _ (List.mem_of_getElem? hi)
      have hout : ∀ x ∈ queueEntryIds e, x ∉ queueEntryIds first ++ queueEntryIds second := by
        intro x hx hmem
        rcases List.mem_append.mp hmem with hmem | hmem
        · exact ha first (hq ▸ List.mem_cons_self) hfirst x hx hmem
        · exact ha second hsec hsecond x hx hmem
      have hsame₁ : SameRecords h ((h.setQueue (rest.eraseIdx i)).pairEntries env first second) e :=
        hl.sameRecords hout
      obtain ⟨p, hqueue, hkeep⟩ := hl.queue
      have hsub : ∀ f ∈ ((h.setQueue (rest.eraseIdx i)).pairEntries env first second).queue,
          f ∈ h.queue := by
        intro f hf
        rw [hqueue] at hf
        exact hq ▸ List.mem_cons_of_mem _ (List.mem_of_mem_eraseIdx (List.mem_of_mem_filter hf))
      obtain ⟨hsame₂, hstay⟩ := ih (ha.mono hsub) fun p hp => hun p (List.mem_cons_of_mem _ hp)
      refine ⟨fun x hx => (hsame₂ x hx).trans (hsame₁ x hx), fun he hwait hp => hstay ?_ ?_ hp⟩
      · rw [hq] at he
        have hrest : e ∈ rest := (List.mem_cons.mp he).resolve_left (Ne.symm hfirst)
        obtain ⟨j, hj⟩ := List.mem_iff_getElem?.mp hrest
        have hij : j ≠ i := by
          rintro rfl
          rw [hi] at hj
          exact hsecond (Option.some.inj hj)
        rw [hqueue]
        exact List.mem_filter.mpr ⟨List.mem_eraseIdx_iff_getElem?.mpr ⟨j, hij, hj⟩, hkeep e hout⟩
      · refine queueEntryWaitingOk_iff.mpr fun x hx => ?_
        have hx' := queueEntryWaitingOk_iff.mp hwait x hx
        rwa [phaseOf, hsame₁ x hx]

end SimpleHub

end Ruletka
