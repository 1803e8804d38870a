/-
A report that does not count.

A reporter of weight zero adds nothing to the score of its target, but the
handler weighs everybody on file again and acts on the outcome. So such a
report is inert exactly when those on file do not carry a ban of their own
that outlasts the present one.
-/
import Ruletka.Report.Proofs.Bans
import Ruletka.Hub.Run
import Ruletka.Ledger.Line

namespace Ruletka

namespace ReportHub

variable {s : ReportHub} {env : ReportEnv} {sha256 : String → List UInt8}
  {codec : Ledger.LineCodec}

-- ================================================================= the voters

theorem reportersOf_fileReporter (r t x : UserId) :
    (s.fileReporter r t).reportersOf x
      = if x = t then insert r (s.reportersOf t) else s.reportersOf x := by
  unfold reportersOf fileReporter
  rw [Table.get?_set]
  by_cases hx : x = t
  · rw [if_pos hx, if_pos hx]
    rfl
  · rw [if_neg hx, if_neg hx]

/-- Filing a report against a target changes nobody's weight against it. -/
theorem reportWeightAgainst_fileReporter (r t u : UserId) :
    (s.fileReporter r t).reportWeightAgainst env u t false
      = s.reportWeightAgainst env u t false := by
  by_cases hu : u = t
  · unfold reportWeightAgainst
    rw [if_pos (.inr hu), if_pos (.inr hu)]
  · have hfeud : (s.fileReporter r t).mutualFeud u t = s.mutualFeud u t := by
      unfold mutualFeud
      rw [reportersOf_fileReporter, if_neg hu]
    unfold reportWeightAgainst
    rw [hfeud]
    rfl

/-- A reporter of weight zero is no voter. -/
theorem votersOf_fileReporter {r t : UserId} (hw : s.reportWeightAgainst env r t false = 0) :
    (s.fileReporter r t).votersOf env t false = s.votersOf env t false := by
  ext u
  unfold votersOf
  rw [Finset.mem_filter, Finset.mem_filter, reportWeightAgainst_fileReporter,
    reportersOf_fileReporter, if_pos rfl, Finset.mem_insert]
  constructor
  · rintro ⟨rfl | hu, hpos⟩
    · omega
    · exact ⟨hu, hpos⟩
  · rintro ⟨hu, hpos⟩
    exact ⟨.inr hu, hpos⟩

theorem countingReportersForTarget_fileReporter {r t : UserId}
    (hw : s.reportWeightAgainst env r t false = 0) :
    (s.fileReporter r t).countingReportersForTarget env t false
      = s.countingReportersForTarget env t false := by
  unfold countingReportersForTarget
  rw [votersOf_fileReporter hw]
  rfl

theorem reportWeightAgainst_noteReportTime (t u x : UserId) (b : Bool) :
    (s.noteReportTime env t).reportWeightAgainst env u x b
      = s.reportWeightAgainst env u x b := rfl

theorem countingReportersForTarget_noteReportTime (t x : UserId) (b : Bool) :
    (s.noteReportTime env t).countingReportersForTarget env x b
      = s.countingReportersForTarget env x b := by
  unfold countingReportersForTarget votersOf
  simp only [reportWeightAgainst_noteReportTime]
  rfl

-- ================================================================ the decision

/-- A reason of its own bar: not about a minor, not of the detector. -/
structure Ordinary (reason : String) : Prop where
  underage : isReason reason "underage" = false
  explicitAi : isReason reason "explicit_ai" = false

/-- This report would be one of many in a short time. -/
def raided (s : ReportHub) (env : ReportEnv) (user : UserId) : Bool :=
  reportRaidSpikeN ≤ (s.recentReports env user).length

/-- What those on file make of an ordinary reason. -/
def onFile (s : ReportHub) (env : ReportEnv) (user : UserId) (reason : String) : Weighing where
  countingReps := s.countingReportersForTarget env user false
  scoreOk := (reportSeverity reason).1 + targetReputationShield (s.effectiveTrustFor env user)
    ≤ s.countingReportersForTarget env user false
  diversityOk := minUniqueReporters reason ≤ s.countingReportersForTarget env user false
  raidSpike := s.raided env user
  underageHold := false
  banSecs := (reportSeverity reason).2

theorem weigh_of_weightless {reporter user : UserId} {reason : String} (ho : Ordinary reason)
    (hw : s.reportWeightAgainst env reporter user false = 0) :
    s.weigh env reporter user reason
      = ((s.fileReporter reporter user).noteReportTime env user, s.onFile env user reason) := by
  have hcount : ((s.fileReporter reporter user).noteReportTime env
      user).countingReportersForTarget env user false
      = s.countingReportersForTarget env user false := by
    rw [countingReportersForTarget_noteReportTime, countingReportersForTarget_fileReporter hw]
  have hscore : (s.fileReporter reporter user).reportScoreForTarget env user false
      = s.countingReportersForTarget env user false := by
    unfold reportScoreForTarget
    rw [if_neg Bool.false_ne_true, countingReportersForTarget_fileReporter hw]
  unfold weigh onFile raided
  rw [ho.underage, ho.explicitAi]
  simp only [hcount, hscore]
  simp [noteReportTime, recentReports, fileReporter]

/-- The ban that those on file carry for a reason, if they do. -/
def carried (s : ReportHub) (env : ReportEnv) (user : UserId) (reason : String) : Option Nat :=
  sentence env (s.onFile env user reason) reason (s.hub.banUntil user)

/-- Those on file reach the bar of the reason, and the ban it carries, from
now, outlasts the present one. -/
def FileBans (s : ReportHub) (env : ReportEnv) (user : UserId) (reason : String) : Prop :=
  ∃ d, s.carried env user reason = some d ∧ s.hub.banUntil user < d

instance (s : ReportHub) (env : ReportEnv) (user : UserId) (reason : String) :
    Decidable (s.FileBans env user reason) :=
  match h : s.carried env user reason with
  | none => .isFalse fun ⟨_, hd, _⟩ => by simp [h] at hd
  | some d => if hd : s.hub.banUntil user < d then .isTrue ⟨d, h, hd⟩
      else .isFalse fun ⟨_, he, hlt⟩ => hd (Option.some.inj (h.symm.trans he) ▸ hlt)

-- =================================================================== the frame

/-- The bans of the hub and the star ledger. -/
def Untouched (s s' : ReportHub) : Prop :=
  s'.hub.matchBans = s.hub.matchBans ∧ s'.hub.matchIpBans = s.hub.matchIpBans
    ∧ s'.store = s.store

theorem untouched_iff {s' : ReportHub} :
    Untouched s s' ↔ bansOf s'.hub = bansOf s.hub ∧ s'.store = s.store := by
  unfold Untouched bansOf
  rw [Prod.mk.injEq, and_assoc]

/-- **Effect**: an ordinary report of weight zero leaves the bans and the
ledger alone unless those on file ban. -/
theorem scoredReport_of_weightless (s : ReportHub) (env : ReportEnv)
    (sha256 : String → List UInt8) (codec : Ledger.LineCodec) (id : ConnId)
    (reporter user : UserId) {reason : String} (ho : Ordinary reason)
    (hw : s.reportWeightAgainst env reporter user false = 0) :
    Untouched s (s.scoredReport sha256 codec env id reporter user reason)
      ↔ ¬ s.FileBans env user reason := by
  unfold scoredReport
  rw [weigh_of_weightless ho hw]
  have hsentence : sentence env (s.onFile env user reason) reason (s.hub.banUntil user)
      = s.carried env user reason := rfl
  dsimp only
  rw [hsentence, untouched_iff]
  cases hcar : (s.carried env user reason).filter (s.hub.banUntil user < ·) with
  | none =>
      have hno : ¬ s.FileBans env user reason := by
        rintro ⟨d, hd, hlt⟩
        rw [hd, Option.filter_some, if_pos (decide_eq_true hlt)] at hcar
        cases hcar
      refine iff_of_true ⟨?_, rfl⟩ hno
      simp only [onHub, bansOf_send, bansOf_status]
      rfl
  | some d =>
      obtain ⟨hd, hlt⟩ := Option.filter_eq_some_iff.mp hcar
      refine iff_of_false (fun hu => ?_) (not_not.mpr ⟨d, hd, of_decide_eq_true hlt⟩)
      have hbans := hu.1
      simp only [onHub, bansOf_send, bansOf_status, bansOf_banByReport] at hbans
      have hget : (s.hub.matchBans.set user d).get? user = s.hub.matchBans.get? user :=
        congrArg (fun b => Table.get? b.1 user) hbans
      have hban : s.hub.banUntil user = d := by
        unfold SimpleHub.banUntil
        rw [← hget, Table.get?_set, if_pos rfl]
        rfl
      have hlt := of_decide_eq_true hlt
      omega

/-- The hub once a report is counted against its reporter's hour. -/
def noteOwnReport (s : ReportHub) (env : ReportEnv) (id : ConnId) : ReportHub :=
  s.onHub (·.modify id fun c => { c with reportTimes := recentOwn env c ++ [env.now] })

theorem untouched_noteOwnReport {id : ConnId} {s' : ReportHub} :
    Untouched (s.noteOwnReport env id) s' ↔ Untouched s s' := Iff.rfl

theorem reporterClusterKey_noteOwnReport (id : ConnId) :
    (s.noteOwnReport env id).reporterClusterKey = s.reporterClusterKey := by
  have hip : ∀ x, ((s.noteOwnReport env id).hub.get x).map (·.clientIp)
      = (s.hub.get x).map (·.clientIp) := by
    intro x
    show ((s.hub.modify id _).get x).map _ = _
    rw [SimpleHub.get_modify]
    split
    · rw [Option.map_map]
      rfl
    · rfl
  funext u
  unfold reporterClusterKey
  have hlive : ((s.noteOwnReport env id).hub.byUser.get? u).bind
        (fun x => ((s.noteOwnReport env id).hub.get x).map (·.clientIp))
      = (s.hub.byUser.get? u).bind fun x => (s.hub.get x).map (·.clientIp) := by
    simp only [hip]
    rfl
  simp only [Option.map_bind]
  exact congrArg (fun o : Option String =>
    let ip := (o.or (s.hub.userLastIp.get? u)).getD ""
    if reporterIpCluster ip = "" then "uid:" ++ u else "net:" ++ reporterIpCluster ip) hlive

theorem fileBans_noteOwnReport {id : ConnId} {user : UserId} {reason : String} :
    (s.noteOwnReport env id).FileBans env user reason ↔ s.FileBans env user reason := by
  have hcount : (s.noteOwnReport env id).countingReportersForTarget env user false
      = s.countingReportersForTarget env user false := by
    unfold countingReportersForTarget
    rw [reporterClusterKey_noteOwnReport]
    rfl
  have honFile : (s.noteOwnReport env id).onFile env user reason
      = s.onFile env user reason := by
    unfold onFile
    rw [hcount]
    rfl
  unfold FileBans carried
  rw [honFile]
  rfl

/-- **A report that does not count is inert exactly when those on file do not
ban.** The reporter may be refused first: it is the target, or it filed too
many reports within the hour. -/
theorem weightless_report_inert_iff {id : ConnId} {raw reason : String} {c : Client}
    {user : UserId} (hres : s.hub.resolveTargetUserId env.toEnv raw = some user)
    (hc : s.hub.get id = some c) (ho : Ordinary (filedReason reason))
    (hmod : SimpleHub.isPriorityModReporter c.userId c.shortId c.friendCode = false)
    (hw : s.reportWeightAgainst env c.userId user false = 0) :
    Untouched s (s.handleReportUser sha256 codec env id raw reason)
      ↔ c.userId = user ∨ SimpleHub.reportRatePerHour ≤ (recentOwn env c).length
        ∨ ¬ s.FileBans env user (filedReason reason) := by
  unfold handleReportUser
  simp only [hres, hc]
  by_cases hself : c.userId = user
  · rw [if_pos hself]
    exact iff_of_true ⟨rfl, rfl, rfl⟩ (.inl hself)
  rw [if_neg hself]
  by_cases hrate : SimpleHub.reportRatePerHour ≤ (recentOwn env c).length
  · rw [if_pos hrate]
    exact iff_of_true ⟨rfl, rfl, rfl⟩ (.inr (.inl hrate))
  rw [if_neg hrate, hmod, if_neg Bool.false_ne_true]
  have hrep := (s.noteOwnReport env id).scoredReport_of_weightless env sha256 codec id
    c.userId user ho hw
  rw [untouched_noteOwnReport, fileBans_noteOwnReport] at hrep
  have hall : (c.userId = user ∨ SimpleHub.reportRatePerHour ≤ (recentOwn env c).length
      ∨ ¬ s.FileBans env user (filedReason reason))
      ↔ ¬ s.FileBans env user (filedReason reason) := by
    rw [or_iff_right hself, or_iff_right hrate]
  rw [hall]
  exact hrep

-- ============================================================== a concrete file

/-- Three users with five stars each. -/
def starredLedger : Ledger.StarLedger :=
  { Ledger.StarLedger.empty with
    balances := ((((∅ : Table String UInt64).set "u1" 5).set "u2" 5).set "u3" 5) }

/-- Nothing on file yet. -/
def blank (h : SimpleHub) : ReportHub :=
  ⟨h, ⟨starredLedger, .empty⟩, ∅, ∅, ∅, ∅, .empty⟩

/-- A moment, with appends that go through. -/
def plainReportEnv (now : Instant) : ReportEnv :=
  { plainEnv now with write := .ok, stamp := ⟨"id", 0⟩ }

/-- Four clients of four networks. -/
def fourConnect : List Input := script
  [(0, .connect 1 "203.0.113.1"), (0, .connect 2 "198.51.100.2"),
    (0, .connect 3 "192.0.2.3"), (0, .connect 4 "233.252.0.4")]

/-- A user who is not online. -/
def absentUser : UserId := "ffffeeeeccccdddd"

/-- A report of the absent user for hate. -/
def reportHate (s : ReportHub) (now : Instant) (id : ConnId) : ReportHub :=
  s.handleReportUser (fun _ => []) Ledger.compactCodec (plainReportEnv now) id absentUser "hate"

/-- The fourth client may report the absent user, and has no weight, a minute
later. -/
def weightlessFourth (s : ReportHub) : Bool :=
  s.hub.resolveTargetUserId (plainReportEnv 60000).toEnv absentUser = some absentUser
    && (s.hub.get 4).any (fun c => c.userId = "u4"
      && !SimpleHub.isPriorityModReporter c.userId c.shortId c.friendCode)
    && s.reportWeightAgainst (plainReportEnv 60000) "u4" absentUser false = 0

theorem weightlessFourth_iff {s : ReportHub} (h : weightlessFourth s = true) :
    s.hub.resolveTargetUserId (plainReportEnv 60000).toEnv absentUser = some absentUser
      ∧ ∃ c, s.hub.get 4 = some c
        ∧ SimpleHub.isPriorityModReporter c.userId c.shortId c.friendCode = false
        ∧ s.reportWeightAgainst (plainReportEnv 60000) c.userId absentUser false = 0 := by
  simp only [weightlessFourth, Bool.and_eq_true, decide_eq_true_eq, Option.any_eq_true,
    Bool.not_eq_true'] at h
  obtain ⟨⟨hres, c, hc, huser, hmod⟩, hw⟩ := h
  exact ⟨hres, c, hc, hmod, huser ▸ hw⟩

theorem ordinary_hate : Ordinary (filedReason "hate") := ⟨by decide, by decide⟩

/-- Two established users are on file, one short of a ban; the fourth client's
report a minute later is inert. -/
theorem weightless_report_inert_iff_blank : ∃ w, (hubMachine plainSys).Reach w
    ∧ ∃ s : ReportHub, s = ((blank w.hub).reportHate 0 1).reportHate 0 2
      ∧ s.reportersOf absentUser = {"u1", "u2"}
      ∧ Untouched s (s.reportHate 60000 4) := by
  obtain ⟨w, hw, hp⟩ := @reach_of_replay plainSys 2 fourConnect (fun w =>
    let s := ((blank w.hub).reportHate 0 1).reportHate 0 2
    weightlessFourth s && decide (s.reportersOf absentUser = {"u1", "u2"})
      && !decide (s.FileBans (plainReportEnv 60000) absentUser (filedReason "hate")))
    (by decide)
  simp only [Bool.and_eq_true, decide_eq_true_eq, Bool.not_eq_true', decide_eq_false_iff_not]
    at hp
  obtain ⟨⟨hfour, hfile⟩, hbans⟩ := hp
  obtain ⟨hres, c, hc, hmod, hweight⟩ := weightlessFourth_iff hfour
  exact ⟨w, hw, _, rfl, hfile, (weightless_report_inert_iff hres hc ordinary_hate hmod
    hweight).mpr (.inr (.inr hbans))⟩

/-- Three established users have a target banned; the fourth client, who
does not count, reports it a minute later and the ban is a minute longer. -/
theorem weightless_report_extends : ∃ w, (hubMachine plainSys).Reach w
    ∧ ∃ s : ReportHub, s = (((blank w.hub).reportHate 0 1).reportHate 0 2).reportHate 0 3
      ∧ weightlessFourth s = true ∧ Ordinary (filedReason "hate")
      ∧ ¬ Untouched s (s.reportHate 60000 4) := by
  obtain ⟨w, hw, hp⟩ := @reach_of_replay plainSys 2 fourConnect (fun w =>
    let s := (((blank w.hub).reportHate 0 1).reportHate 0 2).reportHate 0 3
    weightlessFourth s && decide (s.hub.matchBans.get? absentUser = some 1209600)
      && decide ((s.reportHate 60000 4).hub.matchBans.get? absentUser = some 1209660))
    (by decide)
  simp only [Bool.and_eq_true, decide_eq_true_eq] at hp
  obtain ⟨⟨hfour, hbefore⟩, hafter⟩ := hp
  refine ⟨w, hw, _, rfl, hfour, ordinary_hate, fun hu => ?_⟩
  rw [hu.1, hbefore] at hafter
  cases hafter

end ReportHub

end Ruletka
