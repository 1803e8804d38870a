/-
`handle_report_user` and `handle_genital_hit` with their books: the
verdicts that the hub alone takes from outside (Hub/Moderation.lean) are
computed here.
-/
import Ruletka.Report.State

namespace Ruletka

open Text

namespace ReportHub

/-- `eq_ignore_ascii_case`. -/
def isReason (reason kind : String) : Bool := lower reason = lower kind

/-- Score needed and ban seconds. -/
def reportSeverity (reason : String) : Nat × Nat :=
  match lower (trim reason) with
  | "underage" => (1, 30 * daySecs)
  | "explicit" | "explicit_ai" => (3, 90 * daySecs)
  | "harassment" | "hate" => (3, 14 * daySecs)
  | "spam" | "scam" => (4, 7 * daySecs)
  | _ => (4, 3 * daySecs)

def minUniqueReporters (reason : String) : Nat :=
  match lower (trim reason) with
  | "underage" => 1
  | "explicit" | "explicit_ai" => 3
  | "harassment" | "hate" => 3
  | "spam" | "scam" => 4
  | _ => 4

/-- Change the hub only. -/
def onHub (s : ReportHub) (f : SimpleHub → SimpleHub) : ReportHub :=
  { s with hub := f s.hub }

variable (sha256 : String → List UInt8) (codec : Ledger.LineCodec)

-- =================================================================== clawback

/-- Some of a quantity, at least one, at most a cap. -/
def burnOf (amount pct cap : Nat) : Nat :=
  let burn := amount * pct / 100
  min (min (if 0 < amount ∧ burn = 0 then 1 else burn) cap) amount

/-- Burn a quarter of the balance and a third of the trust of a banned user. -/
def clawbackOnBan (s : ReportHub) (env : ReportEnv) (user : UserId) (banReason : String) :
    ReportHub :=
  let bal := s.starsFor user
  let trust := s.trustFor user
  let burnBal := burnOf bal 25 100
  let burnTrust := burnOf trust 35 80
  if user = "" ∨ (bal = 0 ∧ trust = 0) ∨ (burnBal = 0 ∧ burnTrust = 0) then s
  else
    let r := takeChars 32 (String.ofList (banReason.toList.filter fun c =>
      c.isAlphanum || c = '_' || c = '-'))
    let reason := "clawback:ban:" ++ (if r = "" then "report" else r)
    let op := "claw|" ++ user ++ "|" ++ toString env.unix ++ "|" ++ takeChars 24 reason
    { s with store := (s.store.tryClawback sha256 codec env.write user (UInt64.ofNat burnBal)
        (UInt64.ofNat burnTrust) reason op env.stamp).2 }

-- ================================================================ the decision

/-- What the books make of a report. -/
structure Weighing where
  countingReps : Nat
  scoreOk : Bool
  diversityOk : Bool
  raidSpike : Bool
  /-- a pause after one report of a minor -/
  underageHold : Bool
  banSecs : Nat

/-- File the report and weigh everybody on file. -/
def weigh (s : ReportHub) (env : ReportEnv) (reporter user : UserId) (reason : String) :
    ReportHub × Weighing :=
  let (threshold, banSecs) := reportSeverity reason
  let isAi := isReason reason "explicit_ai"
  let isUnderage := isReason reason "underage"
  let shield := targetReputationShield (s.effectiveTrustFor env user)
  let s := s.fileReporter reporter user
  let score := s.reportScoreForTarget env user isUnderage
  let s := s.noteReportTime env user
  let raidSpike := !isUnderage && reportRaidSpikeN ≤ ((s.reportRecent.get? user).getD []).length
  let threshold := threshold + (if isAi then 1 else 0) + (if isUnderage then 0 else shield)
  let counting := s.countingReportersForTarget env user isUnderage
  if isUnderage then
    let (s, ban) := s.noteUnderageReport env user reporter
    (s, ⟨counting, true, true, raidSpike, !ban, if ban then banSecs else underageHoldSecs⟩)
  else
    let s := if isAi then s.noteExplicitAiHit env user else s
    -- explicit_ai on someone already reported as a minor
    let combo := isAi && s.underageReportRecent env user
    (s, ⟨counting, threshold ≤ score || combo, minUniqueReporters reason ≤ counting || combo,
      raidSpike, false, if combo then max banSecs (reportSeverity "underage").2 else banSecs⟩)

/-- A second explicit strike by three reporters, outside of a raid. -/
def escalates (w : Weighing) (reason : String) (prev : Nat) : Bool :=
  (isReason reason "explicit" || isReason reason "explicit_ai") && 0 < prev
    && reportPermanentMinReporters ≤ w.countingReps && !w.raidSpike

/-- The deadline of the ban, if there is one. -/
def sentence (env : ReportEnv) (w : Weighing) (reason : String) (prev : Nat) : Option Nat :=
  if w.scoreOk && w.diversityOk then
    let banSecs := if w.raidSpike then min w.banSecs reportRaidBanCapSecs else w.banSecs
    some (if escalates w reason prev then SimpleHub.permanentBanUntil else env.unix + banSecs)
  else none

/-- What the reporter reads. -/
def reportStatus (s : ReportHub) (env : ReportEnv) (w : Weighing) (banned : Bool)
    (reporter user : UserId) (reason : String) (prev : Nat) : String :=
  let isUnderage := isReason reason "underage"
  let applied := s.reportWeightAgainst env reporter user isUnderage
  let peerBlocked := !isUnderage && seniorReporterStars ≤ s.effectiveTrustFor env reporter
    && seniorReporterStars ≤ s.effectiveTrustFor env user
  let feud := !isUnderage && s.mutualFeud reporter user
  if banned && w.underageHold then "report received — user paused while we review"
  else if banned && escalates w reason prev then
    "report received — user permanently restricted"
  else if banned && w.raidSpike then
    "report received — user restricted (short; raid-like spike)"
  else if banned then "report received — user restricted"
  else if applied = 0 && !isUnderage && !feud && !peerBlocked then
    "report received — logged; need ★≥5 or praise from 2+ people to count toward auto-ban"
  else if feud then "report received — mutual reports don't auto-ban either side"
  else if peerBlocked then
    "report received — seniors cannot auto-ban each other (needs broader consensus)"
  else if w.raidSpike then
    "report received — many reports in a short window; needs more independent reporters"
  else if !isUnderage && applied < s.reportWeightFor env reporter then
    "report received — each person counts as one toward restriction (stars don't amplify bans)"
  else "report received — thank you (flags/politics alone are not ban grounds)"

/-- A ban by report: the book, the clawback, and the target leaves. -/
def banByReport (s : ReportHub) (env : ReportEnv) (user : UserId) (reason : String)
    (deadline : Nat) (hold : Bool) : ReportHub :=
  let s := s.onHub fun h => { h with matchBans := h.matchBans.set user deadline }
  let s := if hold then s else s.clawbackOnBan sha256 codec env user reason
  s.onHub fun h => match h.byUser.get? user with
    | some tid => h.kickBanned env.toEnv [.matched] tid "restricted due to reports"
        "temporarily restricted due to reports"
    | none => h

/-- A report by anybody but the operator. -/
def scoredReport (s : ReportHub) (env : ReportEnv) (id : ConnId) (reporter user : UserId)
    (reason : String) : ReportHub :=
  let prev := s.hub.banUntil user
  let (filed, w) := s.weigh env reporter user reason
  let deadline := (sentence env w reason prev).filter (prev < ·)
  let after := match deadline with
    | some deadline => filed.banByReport sha256 codec env user reason deadline w.underageHold
    | none => filed
  let text := s.reportStatus env w deadline.isSome reporter user reason prev
  after.onHub fun h => (h.status id text).send id
    (.reportResult (deadline.isSome && !w.underageHold))

/-- The operator's report: a permanent ban of user and address, and kicks. -/
def priorityReport (s : ReportHub) (env : ReportEnv) (id : ConnId) (reporter user : UserId)
    (reason : String) : ReportHub :=
  let s := s.fileReporter reporter user
  let raised := user ≠ "" ∧ s.hub.banUntil user < SimpleHub.permanentBanUntil
  let s := if raised then s.clawbackOnBan sha256 codec env user reason else s
  s.onHub fun h => h.priorityReport env.toEnv id user

/-- The reports of the last hour. -/
def recentOwn (env : ReportEnv) (c : Client) : List Instant :=
  c.reportTimes.filter fun t => env.elapsed t < secs 3600

/-- The reason as it is filed. -/
def filedReason (reason : String) : String :=
  let reason := takeChars 64 (trim reason)
  if reason = "" then "other" else reason

/-- `handle_report_user`. -/
def handleReportUser (s : ReportHub) (env : ReportEnv) (id : ConnId) (raw reason : String) :
    ReportHub :=
  match s.hub.resolveTargetUserId env.toEnv raw with
  | none => s.onHub (·.sendError id "cannot report — partner id unknown")
  | some user =>
    match s.hub.get id with
    | none => s
    | some c =>
      if c.userId = user then s.onHub (·.sendError id "cannot report yourself")
      else if SimpleHub.reportRatePerHour ≤ (recentOwn env c).length then
        s.onHub fun h => (h.modify id fun c => { c with reportTimes := recentOwn env c }).sendError
          id "too many reports — try again later"
      else
        let s := s.onHub (·.modify id fun c =>
          { c with reportTimes := recentOwn env c ++ [env.now] })
        if SimpleHub.isPriorityModReporter c.userId c.shortId c.friendCode then
          s.priorityReport sha256 codec env id c.userId user (filedReason reason)
        else s.scoredReport sha256 codec env id c.userId user (filedReason reason)

-- ============================================================== detector hits

/-- `GenitalHit`; the scores that floats decide come as `scoreReject`. -/
structure GenitalHitIn where
  targetUserId : String
  kind : String
  frames : Nat
  window : Nat
  scoreReject : Option String

def parseKind (kind : String) : Option HitKind :=
  match trim kind with
  | "detector" => some .detector
  | "porn_only" => some .pornOnly
  | _ => none

/-- The hit's own numbers are refused. -/
def hitReject (hit : GenitalHitIn) : Option String :=
  if (parseKind hit.kind).isNone then some "bad_kind"
  else if hit.frames < 2 ∨ hit.window < hit.frames ∨ 5 < hit.window then some "bad_window"
  else hit.scoreReject

/-- `save_genital_book`: what is written has no offenses past their time. -/
def saveGenitalBook (s : ReportHub) (env : ReportEnv) : ReportHub :=
  { s with genital := s.genital.gc env.unix }

/-- A ban by the ladder: the books, then the hub moves the viewers on. -/
def banByHit (s : ReportHub) (env : ReportEnv) (id tid : ConnId) (target : UserId) (b : Ban) :
    ReportHub :=
  (((s.clawbackOnBan sha256 codec env target "genitals").noteExplicitAiHit env
    target).saveGenitalBook env).onHub
      fun h => h.genitalBan env.toEnv id tid target b.secs b.permanent

/-- `handle_genital_hit`; its clock is the wall clock in milliseconds. -/
def handleGenitalHit (s : ReportHub) (env : ReportEnv) (id : ConnId) (hit : GenitalHitIn) :
    ReportHub :=
  let target := takeChars 80 (trim hit.targetUserId)
  let reporter := s.hub.userOf id
  let refuse := fun why => s.onHub (·.send id (.genitalHitResult false false why))
  if s.hub.isMatchBannedConn env.toEnv id then refuse "reporter_banned"
  else match hitReject hit, parseKind hit.kind with
    | some why, _ => refuse why
    | none, none => refuse "bad_kind"
    | none, some kind => match s.hub.genitalBinding env.toEnv id target with
      | .error why => refuse why
      | .ok (tid, sid) =>
        if s.hub.isMatchBanned env.toEnv target then refuse "already_banned"
        else
          let guards : Guards :=
            { targetSenior := seniorReporterStars ≤ s.effectiveTrustFor env target
              mutualFeud := s.genital.reportedBack target reporter env.unixMs
                || s.mutualFeud reporter target }
          let (g, decision) := s.genital.record target
            ⟨reporter, s.reporterClusterKey reporter, sid, kind, env.unixMs⟩ guards env.unixMs
          let s := { s with genital := g }
          match decision with
          | .reject why => s.onHub (·.send id (.genitalHitResult false false why))
          | .counted why => s.onHub (·.send id (.genitalHitResult true false why))
          | .ban b => s.banByHit sha256 codec env id tid target b

-- =================================================================== operator

/-- `admin_unban` with the detector's books. -/
def adminUnban (s : ReportHub) (env : ReportEnv) (raw : String) : ReportHub :=
  { s with
    hub := s.hub.adminUnban raw
    genital := if trim raw = "" then s.genital
      else if s.genital.overturns (trim raw) env.unix then
        (s.genital.overturnRecent (trim raw) env.unix).gc env.unix
      else s.genital }

end ReportHub

end Ruletka
