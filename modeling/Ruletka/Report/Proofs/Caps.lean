/-
How often one reporter, or one network, convicts on its own.

Each cap is a queue of times that is pruned when its own key is touched, and
both ban paths feed the queues of bans. So a queue may lag behind, and may
hold times of bans that do not count; but it covers those that do, and a ban
by the session path is let through only while the pruned queue is short.
-/
import Ruletka.Report.Proofs.Ladder

namespace Ruletka

open GenitalLedger

variable {book : Table UserId (List Offense)} {g : GenitalLedger} {log : List LadderCall}

-- ===================================================================== the queues

namespace GenitalLedger

theorem get?_noteAll (times : Table String (List Nat)) (keys : Finset String) (nowMs : Nat)
    (k : String) : ((noteAll times keys nowMs).get? k).getD []
      = (times.get? k).getD [] ++ if k ∈ keys then [nowMs] else [] := by
  have hfold : ∀ (ks : List String), ks.Nodup → ∀ times : Table String (List Nat),
      ((ks.foldl (fun t k => t.set k ((t.get? k).getD [] ++ [nowMs])) times).get? k).getD []
        = (times.get? k).getD [] ++ if k ∈ ks then [nowMs] else [] := by
    intro ks
    induction ks with
    | nil => intro _ times; simp
    | cons a ks ih =>
      intro hnd times
      obtain ⟨ha, hnd⟩ := List.nodup_cons.mp hnd
      rw [List.foldl_cons, ih hnd, Table.get?_set]
      by_cases hk : k = a
      · subst hk
        rw [if_pos rfl, if_neg ha, if_pos List.mem_cons_self]
        simp
      · rw [if_neg hk]
        simp [hk]
  have hsort := hfold (keys.sort (· ≤ ·)) (Finset.sort_nodup _ _) times
  unfold noteAll
  simpa only [Finset.mem_sort] using hsort

variable {target : UserId} {hit : Hit} {nowMs : Nat}

theorem uidQueue_withHit (x : UserId) : (g.withHit target hit nowMs).uidQueue x
    = if x = hit.reporterUid then prune (g.uidQueue x) nowMs dayMs else g.uidQueue x := by
  show ((g.triggeredByUid.set _ _).get? x).getD [] = _
  rw [Table.get?_set]
  by_cases hx : x = hit.reporterUid
  · rw [if_pos hx, if_pos hx, hx]
    rfl
  · rw [if_neg hx, if_neg hx]
    rfl

theorem clusterQueue_withHit (x : String) : (g.withHit target hit nowMs).clusterQueue x
    = if x = hit.reporterCluster then prune (g.clusterQueue x) nowMs dayMs
      else g.clusterQueue x := by
  show ((g.triggeredByCluster.set _ _).get? x).getD [] = _
  rw [Table.get?_set]
  by_cases hx : x = hit.reporterCluster
  · rw [if_pos hx, if_pos hx, hx]
    rfl
  · rw [if_neg hx, if_neg hx]
    rfl

theorem uidQueue_convict (path : String) (uids clusters : Finset String) (x : UserId) :
    (g.convict target path uids clusters nowMs).1.uidQueue x
      = g.uidQueue x ++ if x ∈ uids then [nowMs] else [] := get?_noteAll _ _ _ _

theorem clusterQueue_convict (path : String) (uids clusters : Finset String) (x : String) :
    (g.convict target path uids clusters nowMs).1.clusterQueue x
      = g.clusterQueue x ++ if x ∈ clusters then [nowMs] else [] := get?_noteAll _ _ _ _

end GenitalLedger

-- ====================================================================== the times

/-- The times of the calls that pass a test, the latest first. -/
def timesOf (log : List LadderCall) (p : LadderCall → Bool) : List Nat :=
  (log.filter p).map (·.nowMs)

theorem timesOf_cons (c : LadderCall) (p : LadderCall → Bool) :
    timesOf (c :: log) p = if p c then c.nowMs :: timesOf log p else timesOf log p := by
  unfold timesOf
  rw [List.filter_cons]
  split
  · rfl
  · rfl

/-- An accepted hit of the reporter. -/
def LadderCall.acceptedOf (uid : UserId) (c : LadderCall) : Bool :=
  c.accepted && c.hit.reporterUid = uid

/-- A ban by the session path on a hit of the reporter. -/
def LadderCall.sessionBanOf (uid : UserId) (c : LadderCall) : Bool :=
  c.bannedBy "session" && c.hit.reporterUid = uid

/-- A ban by the session path on a hit out of the cluster. -/
def LadderCall.sessionBanIn (cluster : String) (c : LadderCall) : Bool :=
  c.bannedBy "session" && c.hit.reporterCluster = cluster

def hourMs : Nat := 3600 * 1000

/-- The queue covers the times of the calls that pass a test, and these fit
the cap in every window. -/
structure Limits (w cap : Nat) (q : List Nat) (log : List LadderCall) (p : LadderCall → Bool) :
    Prop where
  covers : ∀ now, (∀ c ∈ log, c.nowMs ≤ now) → Window.Covers w now q (timesOf log p)
  bounded : Window.Bounded w cap (timesOf log p)

section limits

variable {w cap : Nat} {q : List Nat} {p : LadderCall → Bool} {c : LadderCall}

theorem limits_nil : Limits w cap q [] p where
  covers _ _ _ _ := Nat.zero_le _
  bounded := Window.bounded_nil

/-- A call that does not count: the queue is pruned or not, and may grow. -/
theorem Limits.skip (hl : Limits w cap q log p) (hlater : ∀ d ∈ log, d.nowMs ≤ c.nowMs)
    (hp : p c = false) {q' : List Nat} (hq : q' = q ∨ q' = Window.prune q c.nowMs w)
    (more : List Nat) : Limits w cap (q' ++ more) (c :: log) p := by
  rw [← Bool.not_eq_true] at hp
  constructor
  · intro now hnow
    rw [timesOf_cons, if_neg hp]
    have hcov : Window.Covers w c.nowMs q' (timesOf log p) := by
      rcases hq with rfl | rfl
      · exact hl.covers _ hlater
      · exact (hl.covers _ hlater).prune
    exact (hcov.append more).later (hnow c List.mem_cons_self)
  · rw [timesOf_cons, if_neg hp]
    exact hl.bounded

/-- A call that does not count and leaves the queue as it is. -/
theorem Limits.keep (hl : Limits w cap q log p) (hlater : ∀ d ∈ log, d.nowMs ≤ c.nowMs)
    (hp : p c = false) : Limits w cap q (c :: log) p := by
  have h := hl.skip hlater hp (.inl rfl) []
  rwa [List.append_nil] at h

/-- A call that does not count and only prunes. -/
theorem Limits.pruned (hl : Limits w cap q log p) (hlater : ∀ d ∈ log, d.nowMs ≤ c.nowMs)
    (hp : p c = false) : Limits w cap (Window.prune q c.nowMs w) (c :: log) p := by
  have h := hl.skip hlater hp (.inr rfl) []
  rwa [List.append_nil] at h

/-- A call that counts finds the pruned queue short, and goes into it. -/
theorem Limits.count (hl : Limits w cap q log p) (hlater : ∀ d ∈ log, d.nowMs ≤ c.nowMs)
    (hp : p c = true) (hcap : (Window.prune q c.nowMs w).length < cap) :
    Limits w cap (Window.prune q c.nowMs w ++ [c.nowMs]) (c :: log) p := by
  have hcov := hl.covers _ hlater
  constructor
  · intro now hnow
    rw [timesOf_cons, if_pos hp]
    exact (hcov.prune.push c.nowMs).later (hnow c List.mem_cons_self)
  · rw [timesOf_cons, if_pos hp]
    exact hl.bounded.cons (hcov.recent_lt hcap)

end limits

-- ======================================================================== the run

/-- What holds of the three queues after every call. -/
structure Capped (g : GenitalLedger) (log : List LadderCall) : Prop where
  rate : ∀ uid, Limits hourMs reporterRatePerHour ((g.rate.get? uid).getD []) log
    (LadderCall.acceptedOf uid)
  uid : ∀ uid, Limits dayMs reporterBanCap24h (g.uidQueue uid) log (LadderCall.sessionBanOf uid)
  cluster : ∀ k, Limits dayMs clusterBanCap24h (g.clusterQueue k) log (LadderCall.sessionBanIn k)

section step

variable {target : UserId} {hit : Hit} {guards : Guards} {nowMs : Nat} {c : LadderCall}
  {r : GenitalLedger × Decision}

/-- The rate of a reporter over one call. -/
theorem rate_step (hr : Recording g target hit guards nowMs r) (hhit : c.hit = hit)
    (hnow : c.nowMs = nowMs) (hans : c.answer = r.2) (hlater : ∀ d ∈ log, d.nowMs ≤ c.nowMs)
    (x : UserId) (hl : Limits hourMs reporterRatePerHour ((g.rate.get? x).getD []) log
      (LadderCall.acceptedOf x)) :
    Limits hourMs reporterRatePerHour ((r.1.rate.get? x).getD []) (c :: log)
      (LadderCall.acceptedOf x) := by
  subst hhit hnow
  -- the queue of an accepted hit, whatever is decided on it
  have hacc : (g.rateQueue c.hit.reporterUid c.nowMs).length < reporterRatePerHour →
      c.accepted = true → Limits hourMs reporterRatePerHour
        (((g.rate.set c.hit.reporterUid (g.rateQueue c.hit.reporterUid c.nowMs
          ++ [c.nowMs])).get? x).getD []) (c :: log) (LadderCall.acceptedOf x) := by
    intro hroom hacc
    rw [Table.get?_set]
    by_cases hx : x = c.hit.reporterUid
    · subst hx
      rw [if_pos rfl]
      exact hl.count hlater (by unfold LadderCall.acceptedOf; simp [hacc]) hroom
    · rw [if_neg hx]
      exact hl.keep hlater (by unfold LadderCall.acceptedOf; simp [Ne.symm hx])
  cases hr with
  | rate =>
      have hp : c.acceptedOf x = false := by
        unfold LadderCall.acceptedOf LadderCall.accepted
        rw [hans]
        rfl
      show Limits _ _ (((g.rate.set _ _).get? x).getD []) _ _
      rw [Table.get?_set]
      by_cases hx : x = c.hit.reporterUid
      · subst hx
        rw [if_pos rfl]
        exact hl.pruned hlater hp
      · rw [if_neg hx]
        exact hl.keep hlater hp
  | cross hroom => exact hacc hroom (accepted_of_ban hans)
  | session hroom => exact hacc hroom (accepted_of_ban hans)
  | counted why hroom => exact hacc hroom (by unfold LadderCall.accepted; rw [hans])

/-- A queue of bans once a hit is counted: pruned if it is the hit's own. -/
theorem Limits.withHit {α : Type} [DecidableEq α] {cap : Nat} {queue : α → List Nat} {own : α}
    {p : LadderCall → Bool} {x : α} (hl : Limits dayMs cap (queue x) log p)
    (hlater : ∀ d ∈ log, d.nowMs ≤ c.nowMs) (hp : p c = false) (more : List Nat) :
    Limits dayMs cap ((if x = own then Window.prune (queue x) c.nowMs dayMs else queue x) ++ more)
      (c :: log) p := by
  by_cases hx : x = own
  · rw [if_pos hx]
    exact hl.skip hlater hp (.inr rfl) more
  · rw [if_neg hx]
    exact hl.skip hlater hp (.inl rfl) more

/-- A queue of bans over a conviction by one key alone. -/
theorem Limits.convict {α : Type} [DecidableEq α] {cap : Nat} {queue : α → List Nat} {own : α}
    {p : LadderCall → Bool} {x : α} (hl : Limits dayMs cap (queue x) log p)
    (hlater : ∀ d ∈ log, d.nowMs ≤ c.nowMs) (hp : p c = decide (own = x))
    (hcap : (Window.prune (queue own) c.nowMs dayMs).length < cap) :
    Limits dayMs cap ((if x = own then Window.prune (queue x) c.nowMs dayMs else queue x)
      ++ if x ∈ ({own} : Finset α) then [c.nowMs] else []) (c :: log) p := by
  by_cases hx : x = own
  · subst hx
    rw [if_pos rfl, if_pos (Finset.mem_singleton_self _)]
    exact hl.count hlater (hp.trans (decide_eq_true rfl)) hcap
  · rw [if_neg hx, if_neg (fun hmem => hx (Finset.mem_singleton.mp hmem)), List.append_nil]
    exact hl.keep hlater (hp.trans (decide_eq_false (Ne.symm hx)))

/-- Nobody over a cap convicts alone. -/
theorem room_of_soloOk (hs : g.soloOk hit guards nowMs = true) :
    (Window.prune (g.uidQueue hit.reporterUid) nowMs dayMs).length < reporterBanCap24h
      ∧ (Window.prune (g.clusterQueue hit.reporterCluster) nowMs dayMs).length
        < clusterBanCap24h := by
  unfold soloOk at hs
  rw [Bool.and_eq_true, Bool.not_eq_true'] at hs
  have hcap : (decide (reporterBanCap24h
      ≤ (Window.prune (g.uidQueue hit.reporterUid) nowMs dayMs).length)
    || decide (clusterBanCap24h
      ≤ (Window.prune (g.clusterQueue hit.reporterCluster) nowMs dayMs).length)) = false := hs.2
  rw [Bool.or_eq_false_iff, decide_eq_false_iff_not, decide_eq_false_iff_not] at hcap
  omega

/-- A queue of bans by a name of the hit: what touches it, and whom it stops
from convicting alone. -/
structure BanQueue (name : Hit → String) (queue : GenitalLedger → String → List Nat)
    (cap : Nat) : Prop where
  rate : ∀ (g : GenitalLedger) rate x, queue { g with rate := rate } x = queue g x
  withHit : ∀ (g : GenitalLedger) target hit nowMs x, queue (g.withHit target hit nowMs) x
    = if x = name hit then Window.prune (queue g x) nowMs dayMs else queue g x
  convict : ∀ (g : GenitalLedger) target path uids clusters nowMs, ∃ names : Finset String,
    (∀ x, queue (g.convict target path uids clusters nowMs).1 x
      = queue g x ++ if x ∈ names then [nowMs] else [])
    ∧ ∀ hit : Hit, uids = {hit.reporterUid} → clusters = {hit.reporterCluster} →
      names = {name hit}
  room : ∀ (g : GenitalLedger) hit guards nowMs, g.soloOk hit guards nowMs = true →
    (Window.prune (queue g (name hit)) nowMs dayMs).length < cap

theorem uidBans : BanQueue Hit.reporterUid GenitalLedger.uidQueue reporterBanCap24h where
  rate _ _ _ := rfl
  withHit _ _ _ _ x := uidQueue_withHit x
  convict _ _ path uids clusters _ :=
    ⟨uids, uidQueue_convict path uids clusters, fun _ hu _ => hu⟩
  room _ _ _ _ hs := (room_of_soloOk hs).1

theorem clusterBans :
    BanQueue Hit.reporterCluster GenitalLedger.clusterQueue clusterBanCap24h where
  rate _ _ _ := rfl
  withHit _ _ _ _ x := clusterQueue_withHit x
  convict _ _ path uids clusters _ :=
    ⟨clusters, clusterQueue_convict path uids clusters, fun _ _ hk => hk⟩
  room _ _ _ _ hs := (room_of_soloOk hs).2

/-- The bans by the session path behind a name, over one call. -/
theorem BanQueue.step {name : Hit → String} {queue : GenitalLedger → String → List Nat}
    {cap : Nat} (hq : BanQueue name queue cap) (hr : Recording g target hit guards nowMs r)
    (hhit : c.hit = hit) (hnow : c.nowMs = nowMs) (hans : c.answer = r.2)
    (hlater : ∀ d ∈ log, d.nowMs ≤ c.nowMs) (x : String)
    (hl : Limits dayMs cap (queue g x) log fun c => c.bannedBy "session" && name c.hit = x) :
    Limits dayMs cap (queue r.1 x) (c :: log)
      fun c => c.bannedBy "session" && name c.hit = x := by
  subst hhit hnow
  have hp : ∀ d, c.answer = d → (∀ b, d = .ban b → b.path ≠ "session") →
      (c.bannedBy "session" && decide (name c.hit = x)) = false := by
    intro d hd hno
    unfold LadderCall.bannedBy
    rw [hd]
    cases d with
    | reject => rfl
    | counted => rfl
    | ban b => simp [hno b rfl]
  cases hr with
  | rate =>
      rw [hq.rate]
      exact hl.keep hlater (hp _ hans nofun)
  | cross =>
      obtain ⟨names, hnames, -⟩ := hq.convict (g.withHit target c.hit c.nowMs) target "cross"
        ((g.fileWith target c.hit c.nowMs).map (·.reporterUid)).toFinset
        (voiceClusters (g.fileWith target c.hit c.nowMs) c.hit guards) c.nowMs
      rw [hnames, hq.withHit]
      refine hl.withHit hlater (hp _ hans fun b hb => ?_) _
      cases hb
      show "cross" ≠ "session"
      decide
  | session _ _ hs =>
      obtain ⟨names, hnames, hown⟩ := hq.convict (g.withHit target c.hit c.nowMs) target
        "session" {c.hit.reporterUid} {c.hit.reporterCluster} c.nowMs
      rw [hnames, hq.withHit, hown c.hit rfl rfl]
      refine hl.convict hlater ?_ (hq.room g _ _ _ hs)
      unfold LadderCall.bannedBy
      rw [hans]
      rfl
  | counted why =>
      rw [hq.withHit, ← List.append_nil (if x = name c.hit then _ else _)]
      exact hl.withHit hlater (hp _ hans nofun) []

end step

theorem LadderLog.capped (h : LadderLog book g log) : Capped g log := by
  induction h with
  | start => exact ⟨fun _ => limits_nil, fun _ => limits_nil, fun _ => limits_nil⟩
  | overturn _ _ _ ih => exact ⟨ih.rate, ih.uid, ih.cluster⟩
  | gc _ _ ih => exact ⟨ih.rate, ih.uid, ih.cluster⟩
  | @record g log target hit guards nowMs _ hlater ih =>
      have hc := record_cases g target hit guards nowMs
      exact ⟨fun x => rate_step hc rfl rfl rfl hlater x (ih.rate x),
        fun x => uidBans.step hc rfl rfl rfl hlater x (ih.uid x),
        fun x => clusterBans.step hc rfl rfl rfl hlater x (ih.cluster x)⟩

/-- **The caps**: over every run no reporter is behind more than three bans by
the session path, and no cluster behind more than six, in any day, and no
reporter has more than ten hits accepted in any hour, wherever the day and
the hour start. -/
theorem reporters_capped (h : LadderLog book g log) :
    (∀ uid, Window.Bounded dayMs reporterBanCap24h (timesOf log (LadderCall.sessionBanOf uid)))
    ∧ (∀ k, Window.Bounded dayMs clusterBanCap24h (timesOf log (LadderCall.sessionBanIn k)))
    ∧ ∀ uid, Window.Bounded hourMs reporterRatePerHour
        (timesOf log (LadderCall.acceptedOf uid)) :=
  ⟨fun uid => (h.capped.uid uid).bounded, fun k => (h.capped.cluster k).bounded,
    fun uid => (h.capped.rate uid).bounded⟩

/-- Two accepted hits and one ban. -/
theorem reporters_capped_two :
    timesOf twoHits (LadderCall.acceptedOf "a") = [4000, 1000]
    ∧ timesOf twoHits (LadderCall.sessionBanOf "a") = [4000]
    ∧ (∀ uid, Window.Bounded dayMs reporterBanCap24h
        (timesOf twoHits (LadderCall.sessionBanOf uid)))
    ∧ (∀ k, Window.Bounded dayMs clusterBanCap24h
        (timesOf twoHits (LadderCall.sessionBanIn k)))
    ∧ ∀ uid, Window.Bounded hourMs reporterRatePerHour
        (timesOf twoHits (LadderCall.acceptedOf uid)) :=
  ⟨by decide, by decide, reporters_capped ladderLog_twoHits⟩

end Ruletka
