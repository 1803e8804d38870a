/-
The handlers of reports and detector hits with the one thing they do that
can panic: the short form of the target's id in the moderators' texts,
twelve bytes of it and an ellipsis.

A handler runs under the hub's lock, so a panic leaves the state as the
handler has written it so far. The four places that shorten an id stand
between two writes; an `Ending` says at which of them a call stops.
-/
import Ruletka.Report.Handle

namespace Ruletka

open Text

/-- How a call ends: it returns, or it panics and leaves a state behind. -/
inductive Ending (σ : Type) where
  | returned (s : σ)
  | panicked (s : σ)

/-- The call came back. -/
def Ending.Returns {σ : Type} : Ending σ → Prop
  | .returned _ => True
  | .panicked _ => False

/-- The short form of an id in the texts for the moderators. -/
def shortForm (user : UserId) : Option String :=
  if 14 < user.utf8ByteSize then (sliceTo user 12).map (· ++ "…") else some user

/-- Shorten an id between two writes. -/
def shortening {σ : Type} (user : UserId) (before after : σ) : Ending σ :=
  match shortForm user with
  | some _ => .returned after
  | none => .panicked before

namespace SimpleHub

/-- What the operator's report does to the people. -/
def priorityKicks (h : SimpleHub) (env : Env) (user : UserId) : SimpleHub :=
  let ip := h.reportedIp user
  let h := h.applyPriorityModBan user ip
  let kick := fun (h : SimpleHub) (tid : ConnId) =>
    h.kickBanned env [.matched, .waiting] tid "restricted by operator"
      "permanently restricted"
  let h := match h.byUser.get? user with
    | some tid => kick h tid
    | none => h
  let banIp := trim ip
  let others := if banIp = "" then []
    else env.mapOrder.run (h.connsWhere (·.clientIp = banIp))
  others.foldl (fun h cid =>
    if (h.get cid).any (·.userId = user) then h else kick h cid) h

theorem priorityReport_eq (h : SimpleHub) (env : Env) (id : ConnId) (user : UserId) :
    h.priorityReport env id user
      = (h.priorityKicks env user).status id "report received — user restricted" := rfl

end SimpleHub

namespace ReportHub

variable (sha256 : String → List UInt8) (codec : Ledger.LineCodec)

/-- The operator's report: the id is shortened once everybody is kicked. -/
def tryPriorityReport (s : ReportHub) (env : ReportEnv) (id : ConnId) (reporter user : UserId)
    (reason : String) : Ending ReportHub :=
  let filed := s.fileReporter reporter user
  let raised := user ≠ "" ∧ s.hub.banUntil user < SimpleHub.permanentBanUntil
  let clawed := if raised then filed.clawbackOnBan sha256 codec env user reason else filed
  shortening user (clawed.onHub fun h => h.priorityKicks env.toEnv user)
    (s.priorityReport sha256 codec env id reporter user reason)

/-- Any other report: the id is shortened once a ban is in the book, before
the target is kicked, and when many report who are not diverse enough. -/
def tryScoredReport (s : ReportHub) (env : ReportEnv) (id : ConnId) (reporter user : UserId)
    (reason : String) : Ending ReportHub :=
  let prev := s.hub.banUntil user
  let (filed, w) := s.weigh env reporter user reason
  let after := s.scoredReport sha256 codec env id reporter user reason
  match (sentence env w reason prev).filter (prev < ·) with
  | some deadline =>
      let banned := filed.onHub fun h => { h with matchBans := h.matchBans.set user deadline }
      let clawed := if w.underageHold then banned
        else banned.clawbackOnBan sha256 codec env user reason
      shortening user clawed after
  | none =>
      if w.raidSpike && w.scoreOk && !w.diversityOk then shortening user filed after
      else .returned after

/-- `handle_report_user`, up to its end or a panic. -/
def tryReportUser (s : ReportHub) (env : ReportEnv) (id : ConnId) (raw reason : String) :
    Ending ReportHub :=
  match s.hub.resolveTargetUserId env.toEnv raw with
  | none => .returned (s.onHub (·.sendError id "cannot report — partner id unknown"))
  | some user =>
    match s.hub.get id with
    | none => .returned s
    | some c =>
      if c.userId = user then .returned (s.onHub (·.sendError id "cannot report yourself"))
      else if SimpleHub.reportRatePerHour ≤ (recentOwn env c).length then
        .returned (s.onHub fun h => (h.modify id fun c =>
          { c with reportTimes := recentOwn env c }).sendError id
            "too many reports — try again later")
      else
        let s := s.onHub (·.modify id fun c =>
          { c with reportTimes := recentOwn env c ++ [env.now] })
        if SimpleHub.isPriorityModReporter c.userId c.shortId c.friendCode then
          s.tryPriorityReport sha256 codec env id c.userId user (filedReason reason)
        else s.tryScoredReport sha256 codec env id c.userId user (filedReason reason)

/-- A ban by the ladder: the id is shortened once the books are written,
before the viewers are moved on. -/
def tryBanByHit (s : ReportHub) (env : ReportEnv) (id tid : ConnId) (target : UserId)
    (b : Ban) : Ending ReportHub :=
  let deadline := if b.permanent then SimpleHub.permanentBanUntil else env.unix + b.secs
  let banned := s.onHub (·.raiseBan target deadline)
  let noted := ((banned.clawbackOnBan sha256 codec env target "genitals").noteExplicitAiHit env
    target).saveGenitalBook env
  shortening target noted (s.banByHit sha256 codec env id tid target b)

/-- The ledger's answer to a hit that is let in. -/
def hitAnswer (s : ReportHub) (env : ReportEnv) (id : ConnId) (target : UserId)
    (sid : SessionId) (kind : HitKind) : GenitalLedger × Decision :=
  let reporter := s.hub.userOf id
  let guards : Guards :=
    { targetSenior := seniorReporterStars ≤ s.effectiveTrustFor env target
      mutualFeud := s.genital.reportedBack target reporter env.unixMs
        || s.mutualFeud reporter target }
  s.genital.record target ⟨reporter, s.reporterClusterKey reporter, sid, kind, env.unixMs⟩
    guards env.unixMs

/-- `handle_genital_hit`, up to its end or a panic. -/
def tryGenitalHit (s : ReportHub) (env : ReportEnv) (id : ConnId) (hit : GenitalHitIn) :
    Ending ReportHub :=
  let target := takeChars 80 (trim hit.targetUserId)
  let refuse := fun why => Ending.returned (s.onHub (·.send id (.genitalHitResult false false why)))
  if s.hub.isMatchBannedConn env.toEnv id then refuse "reporter_banned"
  else match hitReject hit, parseKind hit.kind with
    | some why, _ => refuse why
    | none, none => refuse "bad_kind"
    | none, some kind => match s.hub.genitalBinding env.toEnv id target with
      | .error why => refuse why
      | .ok (tid, sid) =>
        if s.hub.isMatchBanned env.toEnv target then refuse "already_banned"
        else
          let (g, decision) := s.hitAnswer env id target sid kind
          let s := { s with genital := g }
          match decision with
          | .reject why => .returned (s.onHub (·.send id (.genitalHitResult false false why)))
          | .counted why => .returned (s.onHub (·.send id (.genitalHitResult true false why)))
          | .ban b => s.tryBanByHit sha256 codec env id tid target b

end ReportHub

end Ruletka
