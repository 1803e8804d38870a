/-
What `record` does to the ledger.

One inversion lemma names the four ends of a call: over the rate, a ban by
either path, or a hit that is only counted. What the later modules need of a
call they take from its cases and from the equations for the two ledgers in
them, the one with the hit counted and the one with the evidence spent.
-/
import Ruletka.Report.Genital

namespace Ruletka

namespace GenitalLedger

variable {g : GenitalLedger} {target t : UserId} {hit : Hit} {guards : Guards} {nowMs : Nat}

theorem hitsOf_set (l : List Hit) (x : UserId) :
    hitsOf { g with hits := g.hits.set target l } x = if x = target then l else g.hitsOf x := by
  unfold hitsOf
  rw [Table.get?_set]
  by_cases hx : x = target
  · rw [if_pos hx, if_pos hx]
    rfl
  · rw [if_neg hx, if_neg hx]

theorem hitsOf_convict (path : String) (uids clusters : Finset String) (x : UserId) :
    (g.convict target path uids clusters nowMs).1.hitsOf x
      = if x = target then [] else g.hitsOf x := by
  show ((g.hits.del target).get? x).getD [] = _
  rw [Table.get?_del]
  by_cases hx : x = target
  · rw [if_pos hx, if_pos hx]
    rfl
  · rw [if_neg hx, if_neg hx]
    rfl

/-- The offense a conviction adds. -/
theorem offensesOf_convict (g : GenitalLedger) (target : UserId) (nowMs : Nat) (path : String)
    (uids clusters : Finset String) (x : UserId) :
    ∃ o : Offense, o.reporterClusters = clusters
      ∧ (g.convict target path uids clusters nowMs).1.offensesOf x
        = if x = target then g.offensesOf target ++ [o] else g.offensesOf x := by
  refine ⟨⟨nowMs / 1000, (g.nextLevel target clusters (nowMs / 1000)).1, path, uids, clusters,
    false⟩, rfl, ?_⟩
  show ((g.offenses.set target _).get? x).getD [] = _
  rw [Table.get?_set]
  by_cases hx : x = target
  · rw [if_pos hx, if_pos hx]
    rfl
  · rw [if_neg hx, if_neg hx]
    rfl

/-- With one cluster behind every offense, the ladder is on its first step. -/
theorem nextLevel_first {cluster : String} {clusters : Finset String} (nowSecs : Nat)
    (ho : ∀ o ∈ g.offensesOf target, o.reporterClusters ⊆ {cluster})
    (hc : clusters ⊆ {cluster}) :
    g.nextLevel target clusters nowSecs = (1, ladderFirstSecs, false) := by
  have hfold : ∀ (l : List Offense) (s : Finset String), s ⊆ {cluster} →
      (∀ o ∈ l, o.reporterClusters ⊆ {cluster}) →
      l.foldl (fun s o => s ∪ o.reporterClusters) s ⊆ {cluster} := by
    intro l
    induction l with
    | nil => exact fun s hs _ => hs
    | cons o l ih =>
        intro s hs hl
        exact ih _ (Finset.union_subset hs (hl o List.mem_cons_self))
          fun o ho => hl o (List.mem_cons_of_mem _ ho)
  have hsub := hfold (g.priorOffenses target nowSecs) clusters hc
    fun o hmem => ho o (List.mem_of_mem_filter hmem)
  have hcard := Finset.card_le_card hsub
  rw [Finset.card_singleton] at hcard
  unfold nextLevel
  dsimp only
  have hzero : min (min ((g.priorOffenses target nowSecs).length + 1)
      ((g.priorOffenses target nowSecs).foldl (fun s o => s ∪ o.reporterClusters)
        clusters).card - 1) 2 = 0 := by omega
  rw [hzero]
  rfl

/-- What `record` leaves of the books about a user. -/
structure Recorded (target : UserId) (cluster : String) (g' : GenitalLedger) (d : Decision) :
    Prop where
  hits : ∀ h ∈ g'.hitsOf target, h.reporterCluster = cluster
  offenses : ∀ o ∈ g'.offensesOf target, o.reporterClusters ⊆ {cluster}
  step : ∀ b, d = .ban b → b.secs = ladderFirstSecs ∧ b.permanent = false

theorem convict_spec {cluster : String} {path : String} {uids clusters : Finset String}
    (ho : ∀ o ∈ g.offensesOf target, o.reporterClusters ⊆ {cluster})
    (hc : clusters ⊆ {cluster}) :
    Recorded target cluster (g.convict target path uids clusters nowMs).1
      (g.convict target path uids clusters nowMs).2 where
  hits h hh := by
    rw [hitsOf_convict, if_pos rfl] at hh
    cases hh
  offenses o hmem := by
    obtain ⟨o', ho', hoff⟩ := offensesOf_convict g target nowMs path uids clusters target
    rw [hoff, if_pos rfl] at hmem
    rcases List.mem_append.mp hmem with hmem | hmem
    · exact ho o hmem
    · rw [List.mem_singleton.mp hmem, ho']
      exact hc
  step b hb := by
    have hlevel := nextLevel_first (nowMs / 1000) ho hc
    have hb' : Decision.ban ⟨(g.nextLevel target clusters (nowMs / 1000)).1,
      (g.nextLevel target clusters (nowMs / 1000)).2.1,
      (g.nextLevel target clusters (nowMs / 1000)).2.2, path, clusters⟩ = .ban b := hb
    rw [hlevel] at hb'
    cases hb'
    exact ⟨rfl, rfl⟩

/-- One cluster is never two voices. -/
theorem crossReady_one {cluster : String} {list : List Hit}
    (hl : ∀ h ∈ list, h.reporterCluster = cluster) : crossReady list hit guards = false := by
  have hsub : voiceClusters list hit guards ⊆ {cluster} := by
    intro c hc
    obtain ⟨h, hh, rfl⟩ := List.mem_map.mp (List.mem_toFinset.mp hc)
    exact Finset.mem_singleton.mpr (hl h (List.mem_of_mem_filter hh))
  have hcard := Finset.card_le_card hsub
  rw [Finset.card_singleton] at hcard
  unfold crossReady
  rw [Bool.and_eq_false_iff]
  exact .inl (decide_eq_false (by omega))

/-- **Effect**: a hit of the one cluster keeps the books to it, and a ban of
it is the first step of the ladder. -/
theorem record_spec {cluster : String}
    (hh : ∀ h ∈ g.hitsOf target, h.reporterCluster = cluster)
    (ho : ∀ o ∈ g.offensesOf target, o.reporterClusters ⊆ {cluster})
    (hc : hit.reporterCluster = cluster) :
    Recorded target cluster (g.record target hit guards nowMs).1
      (g.record target hit guards nowMs).2 := by
  unfold record
  dsimp only
  split
  · exact ⟨hh, ho, fun b hb => by cases hb⟩
  have hlist : ∀ h ∈ (g.hitsOf target).filter (fun h => nowMs - h.atMs < hitTtlMs) ++ [hit],
      h.reporterCluster = cluster := by
    intro h hmem
    rcases List.mem_append.mp hmem with hmem | hmem
    · exact hh h (List.mem_of_mem_filter hmem)
    · rw [List.mem_singleton.mp hmem]
      exact hc
  rw [if_neg (by
    show ¬ crossReady ((g.hitsOf target).filter (fun h => nowMs - h.atMs < hitTtlMs) ++ [hit])
      hit guards = true
    rw [crossReady_one hlist]
    exact Bool.false_ne_true)]
  split
  · refine convict_spec (fun o hmem => ho o hmem) ?_
    rw [hc]
  · refine ⟨fun h hmem => ?_, fun o hmem => ho o hmem, fun b hb => by cases hb⟩
    rw [hitsOf_set, if_pos rfl] at hmem
    exact hlist h hmem

/-- A hit about somebody else leaves these books alone. -/
theorem record_other (ht : t ≠ target) :
    (g.record target hit guards nowMs).1.hitsOf t = g.hitsOf t
      ∧ (g.record target hit guards nowMs).1.offensesOf t = g.offensesOf t := by
  have hconvict : ∀ (g' : GenitalLedger) (path : String) (uids clusters : Finset String),
      (g'.convict target path uids clusters nowMs).1.hitsOf t = g'.hitsOf t
        ∧ (g'.convict target path uids clusters nowMs).1.offensesOf t = g'.offensesOf t := by
    intro g' path uids clusters
    obtain ⟨o, -, hoff⟩ := offensesOf_convict g' target nowMs path uids clusters t
    rw [hitsOf_convict, hoff, if_neg ht, if_neg ht]
    exact ⟨rfl, rfl⟩
  have hset : ∀ (g' : GenitalLedger) (l : List Hit),
      hitsOf { g' with hits := g'.hits.set target l } t = g'.hitsOf t := by
    intro g' l
    rw [hitsOf_set, if_neg ht]
  unfold record
  dsimp only
  split
  · exact ⟨rfl, rfl⟩
  split
  · rw [(hconvict _ _ _ _).1, (hconvict _ _ _ _).2]
    exact ⟨hset _ _, rfl⟩
  split
  · rw [(hconvict _ _ _ _).1, (hconvict _ _ _ _).2]
    exact ⟨hset _ _, rfl⟩
  · exact ⟨hset _ _, rfl⟩

/-- Overturning marks offenses and moves nothing else. -/
theorem mem_overturnRecent {nowSecs : Nat} {x : UserId} {o : Offense}
    (ho : o ∈ (g.overturnRecent target nowSecs).offensesOf x) :
    ∃ o' ∈ g.offensesOf x, o = o' ∨ o = { o' with overturned := true } := by
  have hget : (g.overturnRecent target nowSecs).offensesOf x
      = ((if x = target then (g.offenses.get? x).map fun l => l.map fun o =>
          if !o.overturned && running o nowSecs then { o with overturned := true } else o
        else g.offenses.get? x).getD []) := by
    unfold offensesOf overturnRecent
    rw [Table.get?_modify]
  rw [hget] at ho
  by_cases hx : x = target
  · rw [if_pos hx] at ho
    unfold offensesOf
    cases hl : g.offenses.get? x with
    | none =>
        rw [hl] at ho
        cases ho
    | some l =>
        rw [hl] at ho
        obtain ⟨o', ho', rfl⟩ := List.mem_map.mp ho
        split
        · exact ⟨o', ho', .inr rfl⟩
        · exact ⟨o', ho', .inl rfl⟩
  · rw [if_neg hx] at ho
    exact ⟨o, ho, .inl rfl⟩

/-- The offense is not yet to be dropped. -/
def young (now : Nat) (o : Offense) : Bool := now - o.at < offenseTtlSecs

/-- What is left of an emptied list is the empty list, whether or not its key stays. -/
theorem offensesOf_gc (g : GenitalLedger) (now : Nat) (t : UserId) :
    (g.gc now).offensesOf t = (g.offensesOf t).filter (young now) := by
  unfold offensesOf gc
  dsimp only
  rw [Table.get?_filterMap]
  cases g.offenses.get? t with
  | none => rfl
  | some l =>
      dsimp only [Option.bind_some, Option.getD_some]
      change _ = l.filter fun o => now - o.at < offenseTtlSecs
      cases l.filter fun o => now - o.at < offenseTtlSecs with
      | nil => rfl
      | cons o l => rfl

/-- Dropping old offenses adds none. -/
theorem mem_gc {nowSecs : Nat} {x : UserId} {o : Offense}
    (ho : o ∈ (g.gc nowSecs).offensesOf x) : o ∈ g.offensesOf x := by
  rw [offensesOf_gc] at ho
  exact List.mem_of_mem_filter ho

theorem offensesOf_overturnRecent {cluster : String} {nowSecs : Nat} {x : UserId}
    (ho : ∀ o ∈ g.offensesOf x, o.reporterClusters ⊆ {cluster}) :
    ∀ o ∈ (g.overturnRecent target nowSecs).offensesOf x, o.reporterClusters ⊆ {cluster} := by
  intro o hmem
  obtain ⟨o', ho', rfl | rfl⟩ := mem_overturnRecent hmem
  · exact ho o ho'
  · exact ho o' ho'

-- ============================================================= the ends of a call

/-- The reporter's hits of the last hour. -/
def rateQueue (g : GenitalLedger) (uid : UserId) (nowMs : Nat) : List Nat :=
  prune ((g.rate.get? uid).getD []) nowMs (3600 * 1000)

def uidQueue (g : GenitalLedger) (uid : UserId) : List Nat := (g.triggeredByUid.get? uid).getD []

def clusterQueue (g : GenitalLedger) (cluster : String) : List Nat :=
  (g.triggeredByCluster.get? cluster).getD []

/-- The hits on file once a hit is counted. -/
def fileWith (g : GenitalLedger) (target : UserId) (hit : Hit) (nowMs : Nat) : List Hit :=
  (g.hitsOf target).filter (fun h => nowMs - h.atMs < hitTtlMs) ++ [hit]

/-- The ledger once a hit is counted, before anything is decided. -/
def withHit (g : GenitalLedger) (target : UserId) (hit : Hit) (nowMs : Nat) : GenitalLedger :=
  { g with
    rate := g.rate.set hit.reporterUid (g.rateQueue hit.reporterUid nowMs ++ [nowMs])
    triggeredByUid := g.triggeredByUid.set hit.reporterUid
      (prune (g.uidQueue hit.reporterUid) nowMs dayMs)
    triggeredByCluster := g.triggeredByCluster.set hit.reporterCluster
      (prune (g.clusterQueue hit.reporterCluster) nowMs dayMs)
    hits := g.hits.set target (g.fileWith target hit nowMs) }

/-- The reporter alone may convict. -/
def soloOk (g : GenitalLedger) (hit : Hit) (guards : Guards) (nowMs : Nat) : Bool :=
  !guards.targetSenior && !guards.mutualFeud && !g.reporterOverturned hit.reporterUid
    && !(g.capReached hit.reporterUid hit.reporterCluster nowMs).2

/-- The ends of a call of `record`. -/
inductive Recording (g : GenitalLedger) (target : UserId) (hit : Hit) (guards : Guards)
    (nowMs : Nat) : GenitalLedger × Decision → Prop where
  | rate : reporterRatePerHour ≤ (g.rateQueue hit.reporterUid nowMs).length →
      Recording g target hit guards nowMs
        ({ g with rate := g.rate.set hit.reporterUid (g.rateQueue hit.reporterUid nowMs) },
          .reject "rate")
  | cross : (g.rateQueue hit.reporterUid nowMs).length < reporterRatePerHour →
      crossReady (g.fileWith target hit nowMs) hit guards = true →
      Recording g target hit guards nowMs ((g.withHit target hit nowMs).convict target "cross"
        ((g.fileWith target hit nowMs).map (·.reporterUid)).toFinset
        (voiceClusters (g.fileWith target hit nowMs) hit guards) nowMs)
  | session : (g.rateQueue hit.reporterUid nowMs).length < reporterRatePerHour →
      crossReady (g.fileWith target hit nowMs) hit guards = false →
      g.soloOk hit guards nowMs = true →
      Recording g target hit guards nowMs ((g.withHit target hit nowMs).convict target "session"
        {hit.reporterUid} {hit.reporterCluster} nowMs)
  | counted (why : String) : (g.rateQueue hit.reporterUid nowMs).length < reporterRatePerHour →
      crossReady (g.fileWith target hit nowMs) hit guards = false →
      Recording g target hit guards nowMs (g.withHit target hit nowMs, .counted why)

theorem record_cases (g : GenitalLedger) (target : UserId) (hit : Hit) (guards : Guards)
    (nowMs : Nat) : Recording g target hit guards nowMs (g.record target hit guards nowMs) := by
  unfold record
  dsimp only
  split
  case isTrue hr => exact .rate hr
  case isFalse hr =>
    have hr' : (g.rateQueue hit.reporterUid nowMs).length < reporterRatePerHour :=
      Nat.lt_of_not_le hr
    split
    case isTrue hx => exact .cross hr' hx
    case isFalse hx =>
      have hx' : crossReady (g.fileWith target hit nowMs) hit guards = false :=
        Bool.eq_false_of_not_eq_true hx
      split
      case isTrue hs =>
        rw [Bool.and_eq_true] at hs
        exact .session hr' hx' hs.2
      case isFalse => exact .counted _ hr' hx'

-- ============================================================ the two ledgers

@[simp]
theorem offensesOf_withHit (hit : Hit) (x : UserId) :
    (g.withHit target hit nowMs).offensesOf x = g.offensesOf x := rfl

@[simp]
theorem priorOffenses_withHit (hit : Hit) (x : UserId) (nowSecs : Nat) :
    (g.withHit target hit nowMs).priorOffenses x nowSecs = g.priorOffenses x nowSecs := rfl

theorem hitsOf_withHit (hit : Hit) (x : UserId) :
    (g.withHit target hit nowMs).hitsOf x
      = if x = target then g.fileWith target hit nowMs else g.hitsOf x :=
  hitsOf_set _ x

/-- The ban of a conviction. -/
theorem convict_ban (path : String) (uids clusters : Finset String) :
    (g.convict target path uids clusters nowMs).2
      = .ban ⟨(g.nextLevel target clusters (nowMs / 1000)).1,
          (g.nextLevel target clusters (nowMs / 1000)).2.1,
          (g.nextLevel target clusters (nowMs / 1000)).2.2, path, clusters⟩ := rfl

/-- The clusters of an offense and of those it adds to. -/
def clustersWith (prior : List Offense) (clusters : Finset String) : Finset String :=
  prior.foldl (fun s o => s ∪ o.reporterClusters) clusters

theorem subset_clustersWith (prior : List Offense) (clusters : Finset String) :
    clusters ⊆ clustersWith prior clusters := by
  unfold clustersWith
  induction prior generalizing clusters with
  | nil => exact Finset.Subset.refl _
  | cons o prior ih => exact Finset.subset_union_left.trans (ih _)

/-- The steps of the ladder, and the clusters each of them takes. -/
theorem nextLevel_cases (g : GenitalLedger) (target : UserId) (clusters : Finset String)
    (nowSecs : Nat) :
    g.nextLevel target clusters nowSecs = (1, ladderFirstSecs, false)
    ∨ g.nextLevel target clusters nowSecs = (2, ladderSecondSecs, false)
      ∧ 2 ≤ (clustersWith (g.priorOffenses target nowSecs) clusters).card
    ∨ g.nextLevel target clusters nowSecs = (3, 0, true)
      ∧ 3 ≤ (clustersWith (g.priorOffenses target nowSecs) clusters).card := by
  unfold nextLevel clustersWith
  dsimp only
  generalize hm : min (min ((g.priorOffenses target nowSecs).length + 1)
      ((g.priorOffenses target nowSecs).foldl (fun s o => s ∪ o.reporterClusters)
        clusters).card - 1) 2 = m
  obtain _ | _ | m := m
  · exact .inl rfl
  · exact .inr (.inl ⟨rfl, by omega⟩)
  · exact .inr (.inr ⟨rfl, by omega⟩)

/-- The ladder climbs no higher than there are clusters. -/
theorem nextLevel_le (clusters : Finset String) (hne : clusters.Nonempty) (nowSecs : Nat) :
    (g.nextLevel target clusters nowSecs).1
      ≤ (clustersWith (g.priorOffenses target nowSecs) clusters).card := by
  obtain hlevel | ⟨hlevel, hcard⟩ | ⟨hlevel, hcard⟩ := g.nextLevel_cases target clusters nowSecs
  · rw [hlevel]
    exact Finset.card_pos.mpr (hne.mono (subset_clustersWith _ _))
  · rwa [hlevel]
  · rwa [hlevel]

end GenitalLedger

end Ruletka
