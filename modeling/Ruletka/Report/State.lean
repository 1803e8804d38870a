/-
The books behind a report: who reported whom, how much a reporter counts,
and what the reporters on file amount to.

A `ReportHub` is the hub together with these books and the star ledger, out
of which the reputation of reporters and targets is read. Seconds are those
of the wall clock. The old star counts, kept for the friends file, the logs
and the moderators' webhook are left out.
-/
import Ruletka.Hub.Moderation
import Ruletka.Ledger.Attempt
import Ruletka.Report.Genital
import Mathlib.Algebra.BigOperators.Group.Finset.Basic

namespace Ruletka

open Text

/-- A report of a minor, one a reporter. -/
structure UnderageReport where
  reporterUid : UserId
  cluster : String
  established : Bool
  «at» : Nat
  deriving DecidableEq, Repr

/-- The hub with the books that reports read and write. -/
structure ReportHub where
  hub : SimpleHub
  store : Ledger.Store
  /-- by target, everybody who ever reported it -/
  reportReporters : Table UserId (Finset UserId)
  reportRecent : Table UserId (List Nat)
  underageReports : Table UserId (List UnderageReport)
  explicitAiHits : Table UserId (List Nat)
  genital : GenitalLedger

/-- What an event sees of the world, with the write of a ledger append. -/
structure ReportEnv extends Env where
  write : Ledger.Write
  stamp : Ledger.Stamp

namespace ReportHub

def trustedReporterStars : Nat := 100
def seniorReporterStars : Nat := 250
def trustedReportWeight : Nat := 2
def seniorReportWeight : Nat := 3
def trustedMinGifters : Nat := 5
def seniorMinGifters : Nat := 12
def trustDecayStartDays : Nat := 45
def trustDecayFullDays : Nat := 180
def trustDecayMaxPct : Nat := 50
def reportMinWalletStars : Nat := 5
def reportMinGifters : Nat := 2
def reportRaidWindowSecs : Nat := 15 * 60
def reportRaidSpikeN : Nat := 6
def reportRaidBanCapSecs : Nat := 48 * 3600
def reportPermanentMinReporters : Nat := 3
def daySecs : Nat := 24 * 3600
def underageWindowSecs : Nat := 7 * daySecs
def underageHoldSecs : Nat := daySecs
def underageBanPoints : Nat := 4
def underageBanClusters : Nat := 2

variable (s : ReportHub) (env : ReportEnv)

-- ================================================================= reputation

/-- Spendable balance. -/
def starsFor (user : UserId) : Nat := (s.store.ledger.balance user).toNat

/-- Raw trust of peer gifts. -/
def trustFor (user : UserId) : Nat :=
  if user = "" then 0 else ((s.store.ledger.trust.scores.get? user).getD 0).toNat

/-- Distinct peers who gifted the user: edges that end in its name. -/
def trustGiftersFor (user : UserId) : Nat :=
  if user = "" then 0
  else (s.store.ledger.trust.edges.filter fun e => hasSuffix e ("|" ++ user)).card

/-- Soft idle decay of raw trust. -/
def decayedTrust (user : UserId) (raw : Nat) : Nat :=
  if raw = 0 ∨ user = "" then 0
  else
    let last := ((s.store.ledger.trust.lastTs.get? user).getD 0).toNat
    if last = 0 ∨ env.unix ≤ last then raw
    else
      let days := (env.unix - last) / daySecs
      if days < trustDecayStartDays then raw
      else
        let span := max (trustDecayFullDays - trustDecayStartDays) 1
        let overdue := min (days - trustDecayStartDays) span
        let lostPct := trustDecayMaxPct * overdue / span
        raw * (100 - lostPct) / 100

/-- Decayed trust, below a tier for want of gifters. -/
def effectiveTrustFor (user : UserId) : Nat :=
  let decayed := s.decayedTrust env user (s.trustFor user)
  let g := s.trustGiftersFor user
  if g < trustedMinGifters then min decayed (trustedReporterStars - 1)
  else if g < seniorMinGifters then min decayed (seniorReporterStars - 1)
  else decayed

def reportWeightFor (reporter : UserId) : Nat :=
  let trust := s.effectiveTrustFor env reporter
  if seniorReporterStars ≤ trust then seniorReportWeight
  else if trustedReporterStars ≤ trust then trustedReportWeight
  else 1

/-- Extra score needed against a target of high trust. -/
def targetReputationShield (trust : Nat) : Nat :=
  if seniorReporterStars ≤ trust then 3
  else if trustedReporterStars ≤ trust then 1
  else 0

-- ================================================================== reporters

/-- Praise from two gifters, or five stars: an established reporter. -/
def reporterCountsTowardBan (reporter : UserId) (underage : Bool) : Bool :=
  if underage then true
  else if reporter = "" then false
  else if 0 < s.effectiveTrustFor env reporter
      ∧ reportMinGifters ≤ s.trustGiftersFor reporter then true
  else reportMinWalletStars ≤ s.starsFor reporter

/-- The /24 of an IPv4 address, else the address; empty when private. -/
def reporterIpCluster (raw : String) : String :=
  let ip := trim (String.ofList ((trim raw).toList.takeWhile (· ≠ '%')))
  if ip = "" || hasPrefix ip "10." || hasPrefix ip "192.168." || hasPrefix ip "127."
      || ip = "::1" then ""
  else match ip.toList.splitOn '.' with
    | [a, b, c, _] => String.ofList (a ++ '.' :: b ++ '.' :: c)
    | _ => ip

/-- The network of a reporter, or the reporter itself. -/
def reporterClusterKey (reporter : UserId) : String :=
  let live := ((s.hub.byUser.get? reporter).bind s.hub.get).map (·.clientIp)
  let ip := (live.or (s.hub.userLastIp.get? reporter)).getD ""
  let pfx := reporterIpCluster ip
  if pfx = "" then "uid:" ++ reporter else "net:" ++ pfx

/-- Everybody on file against a target. -/
def reportersOf (target : UserId) : Finset UserId :=
  (s.reportReporters.get? target).getD ∅

/-- The target has reported the reporter before. -/
def mutualFeud (reporter target : UserId) : Bool := target ∈ s.reportersOf reporter

/-- What a reporter contributes to an automatic ban of a target. -/
def reportWeightAgainst (reporter target : UserId) (underage : Bool) : Nat :=
  if reporter = "" ∨ reporter = target then 0
  else if underage then s.reportWeightFor env reporter
  else if !s.reporterCountsTowardBan env reporter false then 0
  else if s.mutualFeud reporter target then 0
  else if seniorReporterStars ≤ s.effectiveTrustFor env reporter
      ∧ seniorReporterStars ≤ s.effectiveTrustFor env target then 0
  else 1

/-- The reporters on file whose vote counts. -/
def votersOf (target : UserId) (underage : Bool) : Finset UserId :=
  (s.reportersOf target).filter fun u => 0 < s.reportWeightAgainst env u target underage

/-- Distinct counting reporters; those of one network are one vote, except
about minors. -/
def countingReportersForTarget (target : UserId) (underage : Bool) : Nat :=
  if underage then (s.votersOf env target true).card
  else ((s.votersOf env target false).image s.reporterClusterKey).card

def reportScoreForTarget (target : UserId) (underage : Bool) : Nat :=
  if underage then ∑ u ∈ s.reportersOf target, s.reportWeightAgainst env u target true
  else s.countingReportersForTarget env target false

-- =================================================================== the books

/-- `drain(..len - 64)`. -/
def keepLast64 {α : Type} (l : List α) : List α := l.drop (l.length - 64)

/-- File a reporter against a target. -/
def fileReporter (reporter target : UserId) : ReportHub :=
  { s with reportReporters :=
      s.reportReporters.set target (insert reporter (s.reportersOf target)) }

/-- The reports on a target in the raid window, with this one. -/
def recentReports (target : UserId) : List Nat :=
  keepLast64 ((((s.reportRecent.get? target).getD []) ++ [env.unix]).filter fun t =>
    env.unix - t ≤ reportRaidWindowSecs)

def noteReportTime (target : UserId) : ReportHub :=
  { s with reportRecent := s.reportRecent.set target (s.recentReports env target) }

def explicitAiRecent (target : UserId) : Bool :=
  ((s.explicitAiHits.get? target).getD []).any fun t => env.unix - t < underageWindowSecs

def noteExplicitAiHit (target : UserId) : ReportHub :=
  let hits := ((s.explicitAiHits.get? target).getD []).filter fun t =>
    env.unix - t < underageWindowSecs
  { s with explicitAiHits :=
      s.explicitAiHits.set target (keepLast64 (hits ++ [env.unix])) }

def underageReportsOf (target : UserId) : List UnderageReport :=
  (s.underageReports.get? target).getD []

def underageReportRecent (target : UserId) : Bool :=
  (s.underageReportsOf target).any fun r => env.unix - r.at < underageWindowSecs

/-- The points of each cluster: its best reporter in the window. -/
def clusterPoints (reports : List UnderageReport) (now : Nat) : Table String Nat :=
  (reports.filter fun r => now - r.at < underageWindowSecs).foldl (fun best r =>
    best.set r.cluster (max ((best.get? r.cluster).getD 0) (if r.established then 2 else 1))) ∅

/-- The reports about a minor make a ban, not just a hold. -/
def underageAction (reports : List UnderageReport) (explicitAiRecent : Bool) (now : Nat) :
    Bool :=
  let best := clusterPoints reports now
  let points := ∑ c ∈ best.keys, (best.get? c).getD 0
  (underageBanClusters ≤ best.keys.card && underageBanPoints ≤ points)
    || (1 ≤ best.keys.card && explicitAiRecent)

/-- `underage_action` with all it returns: the action, the clusters counted
and their points. -/
def underageVerdict (reports : List UnderageReport) (explicitAiRecent : Bool) (now : Nat) :
    Bool × Nat × Nat :=
  let best := clusterPoints reports now
  (underageAction reports explicitAiRecent now, best.keys.card,
    ∑ c ∈ best.keys, (best.get? c).getD 0)

/-- Replace the reporter's entry, or add one. -/
def upsert (r : UnderageReport) : List UnderageReport → List UnderageReport
  | [] => [r]
  | q :: l => if q.reporterUid = r.reporterUid then r :: l else q :: upsert r l

/-- Record a report of a minor; the flag says ban instead of hold. -/
def noteUnderageReport (target reporter : UserId) : ReportHub × Bool :=
  let r : UnderageReport :=
    ⟨reporter, s.reporterClusterKey reporter, s.reporterCountsTowardBan env reporter false,
      env.unix⟩
  let list := (s.underageReportsOf target).filter fun r =>
    env.unix - r.at < underageWindowSecs
  let list := keepLast64 (upsert r list)
  ({ s with underageReports := s.underageReports.set target list },
    underageAction list (s.explicitAiRecent env target) env.unix)

end ReportHub

end Ruletka
