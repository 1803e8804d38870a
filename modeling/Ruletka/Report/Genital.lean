/-
The ladder of the on-device detector: hits, offenses, and what a hit decides.

This is the pure module of the source: no sockets, no clock. Iterating a set
of clusters only feeds counts and a sorted list, so the clusters of an
offense are a finite set here.
-/
import Ruletka.Hub.State
import Mathlib.Data.Finset.Sort
import Mathlib.Data.String.Basic

namespace Ruletka

/-- What a hit rests on. -/
inductive HitKind where
  | detector
  /-- the lite fallback -/
  | pornOnly
  deriving DecidableEq, Repr

structure Hit where
  reporterUid : UserId
  reporterCluster : String
  sessionId : SessionId
  kind : HitKind
  atMs : Nat
  deriving DecidableEq, Repr

/-- What the hub knows about this reporter and target. -/
structure Guards where
  targetSenior : Bool
  mutualFeud : Bool
  deriving DecidableEq, Repr

structure Offense where
  «at» : Nat
  level : Nat
  path : String
  reporterUids : Finset UserId
  reporterClusters : Finset String
  overturned : Bool
  deriving DecidableEq

/-- Level one to three; zero seconds when permanent. -/
structure Ban where
  level : Nat
  secs : Nat
  permanent : Bool
  path : String
  reporterClusters : Finset String
  deriving DecidableEq

inductive Decision where
  | reject (why : String)
  | counted (why : String)
  | ban (b : Ban)
  deriving DecidableEq

/-- `GenitalLedger`. -/
structure GenitalLedger where
  offenses : Table UserId (List Offense)
  /-- recent hits by target -/
  hits : Table UserId (List Hit)
  /-- hit times by reporter -/
  rate : Table UserId (List Nat)
  /-- times a reporter's hits triggered a ban -/
  triggeredByUid : Table UserId (List Nat)
  triggeredByCluster : Table String (List Nat)

namespace GenitalLedger

def hitTtlMs : Nat := 30 * 60 * 1000
def minHitGapMs : Nat := 2000
def reporterRatePerHour : Nat := 10
def reporterBanCap24h : Nat := 3
def clusterBanCap24h : Nat := 6
def offenseTtlSecs : Nat := 180 * 24 * 3600
def ladderFirstSecs : Nat := 24 * 3600
def ladderSecondSecs : Nat := 7 * 24 * 3600
def dayMs : Nat := 24 * 3600 * 1000

def empty : GenitalLedger := ⟨∅, ∅, ∅, ∅, ∅⟩

variable (g : GenitalLedger)

/-- Drop what left the window. -/
def prune (q : List Nat) (nowMs windowMs : Nat) : List Nat :=
  q.dropWhile fun t => windowMs ≤ nowMs - t

def hitsOf (target : UserId) : List Hit := (g.hits.get? target).getD []

def offensesOf (target : UserId) : List Offense := (g.offenses.get? target).getD []

/-- The reporter was behind an offense that an operator overturned. -/
def reporterOverturned (reporter : UserId) : Bool :=
  decide (∃ t ∈ g.offenses.keys,
    (g.offensesOf t).any fun o => o.overturned && reporter ∈ o.reporterUids)

/-- The target sent a hit about the reporter lately. -/
def reportedBack (target reporter : UserId) (nowMs : Nat) : Bool :=
  (g.hitsOf reporter).any fun h => h.reporterUid = target && nowMs - h.atMs < hitTtlMs

/-- Too many bans in a day; the windows are pruned on the way. -/
def capReached (uid : UserId) (cluster : String) (nowMs : Nat) : GenitalLedger × Bool :=
  let u := prune ((g.triggeredByUid.get? uid).getD []) nowMs dayMs
  let c := prune ((g.triggeredByCluster.get? cluster).getD []) nowMs dayMs
  ({ g with
      triggeredByUid := g.triggeredByUid.set uid u
      triggeredByCluster := g.triggeredByCluster.set cluster c },
    reporterBanCap24h ≤ u.length || clusterBanCap24h ≤ c.length)

/-- The offenses a new one adds to. -/
def priorOffenses (target : UserId) (nowSecs : Nat) : List Offense :=
  (g.offensesOf target).filter fun o => !o.overturned && nowSecs - o.at < offenseTtlSecs

/-- Level, seconds and permanence of a new offense. -/
def nextLevel (target : UserId) (newClusters : Finset String) (nowSecs : Nat) :
    Nat × Nat × Bool :=
  let prior := g.priorOffenses target nowSecs
  let clusters := prior.foldl (fun s o => s ∪ o.reporterClusters) newClusters
  match min (min (prior.length + 1) clusters.card - 1) 2 with
  | 0 => (1, ladderFirstSecs, false)
  | 1 => (2, ladderSecondSecs, false)
  | _ => (3, 0, true)

/-- Append a time under every key of a set. -/
def noteAll (times : Table String (List Nat)) (keys : Finset String) (nowMs : Nat) :
    Table String (List Nat) :=
  (keys.sort (· ≤ ·)).foldl (fun t k => t.set k ((t.get? k).getD [] ++ [nowMs])) times

/-- Spend the evidence on a ban. -/
def convict (target : UserId) (path : String) (uids clusters : Finset String) (nowMs : Nat) :
    GenitalLedger × Decision :=
  let g := { g with
    hits := g.hits.del target
    triggeredByUid := noteAll g.triggeredByUid uids nowMs
    triggeredByCluster := noteAll g.triggeredByCluster clusters nowMs }
  let nowSecs := nowMs / 1000
  let (level, secs, permanent) := g.nextLevel target clusters nowSecs
  ({ g with offenses := g.offenses.set target (g.offensesOf target ++
      [⟨nowSecs, level, path, uids, clusters, false⟩]) },
    .ban ⟨level, secs, permanent, path, clusters⟩)

/-- The reporter's own detector hits in this match. -/
def sessionHits (list : List Hit) (hit : Hit) : List Hit :=
  list.filter fun h => h.reporterUid = hit.reporterUid && h.sessionId = hit.sessionId
    && h.kind = .detector

/-- The same viewer confirmed twice in one match. -/
def sessionReady (list : List Hit) (hit : Hit) (nowMs : Nat) : Bool :=
  hit.kind = .detector && 2 ≤ (sessionHits list hit).length
    && (sessionHits list hit).any fun h => minHitGapMs ≤ nowMs - h.atMs

/-- The hits that count as voices on the cross path. -/
def voices (list : List Hit) (hit : Hit) (guards : Guards) : List Hit :=
  list.filter fun h => !(guards.mutualFeud && h.reporterUid = hit.reporterUid)

def voiceClusters (list : List Hit) (hit : Hit) (guards : Guards) : Finset String :=
  ((voices list hit guards).map (·.reporterCluster)).toFinset

/-- Two clusters agree, one of them by the detector. -/
def crossReady (list : List Hit) (hit : Hit) (guards : Guards) : Bool :=
  2 ≤ (voiceClusters list hit guards).card
    && (voices list hit guards).any (·.kind = .detector)

/-- Count one validated hit and decide. -/
def record (target : UserId) (hit : Hit) (guards : Guards) (nowMs : Nat) :
    GenitalLedger × Decision :=
  let q := prune ((g.rate.get? hit.reporterUid).getD []) nowMs (3600 * 1000)
  if reporterRatePerHour ≤ q.length then
    ({ g with rate := g.rate.set hit.reporterUid q }, .reject "rate")
  else
    let g := { g with rate := g.rate.set hit.reporterUid (q ++ [nowMs]) }
    let overturned := g.reporterOverturned hit.reporterUid
    let (g, capped) := g.capReached hit.reporterUid hit.reporterCluster nowMs
    let list := (g.hitsOf target).filter (fun h => nowMs - h.atMs < hitTtlMs) ++ [hit]
    let g := { g with hits := g.hits.set target list }
    let soloOk := !guards.targetSenior && !guards.mutualFeud && !overturned && !capped
    let ready := sessionReady list hit nowMs
    if crossReady list hit guards then
      g.convict target "cross" (list.map (·.reporterUid)).toFinset
        (voiceClusters list hit guards) nowMs
    else if ready && soloOk then
      g.convict target "session" {hit.reporterUid} {hit.reporterCluster} nowMs
    else
      (g, .counted
        (if !ready then "counted"
         else if guards.targetSenior then "needs_second_reporter_senior"
         else if guards.mutualFeud then "needs_second_reporter_feud"
         else if overturned then "needs_second_reporter_overturned"
         else "needs_second_reporter_cap"))

/-- The ban of an offense still runs. -/
def running (o : Offense) (nowSecs : Nat) : Bool :=
  3 ≤ o.level || nowSecs < o.at + (if max o.level 1 = 1 then ladderFirstSecs else ladderSecondSecs)

/-- `overturn_recent`, without the count. -/
def overturnRecent (target : UserId) (nowSecs : Nat) : GenitalLedger :=
  { g with offenses := g.offenses.modify target fun l => l.map fun o =>
      if !o.overturned && running o nowSecs then { o with overturned := true } else o }

/-- `overturn_recent` counts an offense. -/
def overturns (target : UserId) (nowSecs : Nat) : Bool :=
  (g.offensesOf target).any fun o => !o.overturned && running o nowSecs

/-- Drop the offenses older than their time, and the lists that are empty. -/
def gc (nowSecs : Nat) : GenitalLedger :=
  { g with offenses := g.offenses.filterMap fun _ l =>
      match l.filter fun o => nowSecs - o.at < offenseTtlSecs with
      | [] => none
      | o :: l => some (o :: l) }

end GenitalLedger

end Ruletka
