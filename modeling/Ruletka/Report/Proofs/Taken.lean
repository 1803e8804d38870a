/-
A report is filed exactly when it is taken.

The log of `Ruletka.Hub.Reports` counts the reports that get past the checks
of `handle_report_user`. These are the ones whose reporter goes on file
against the target; any other report leaves the file as it is.
-/
import Ruletka.Report.Proofs.Accuser
import Ruletka.Hub.Proofs.Reports

namespace Ruletka

namespace ReportHub

variable {s : ReportHub} {env : ReportEnv} {sha256 : String → List UInt8}
  {codec : Ledger.LineCodec} {reporter user : UserId} {raw reason : String} {id : ConnId}

theorem reporters_dossier (s : ReportHub) (t : UserId) :
    (s.dossier t).reporters = s.reportersOf t := rfl

theorem reportersOf_filed_self :
    (s.filed env reporter user).reportersOf user = insert reporter (s.reportersOf user) := by
  show (s.fileReporter reporter user).reportersOf user = _
  rw [reportersOf_file, if_pos rfl]

theorem reportersOf_weigh :
    (s.weigh env reporter user reason).1.reportersOf user
      = insert reporter (s.reportersOf user) := by
  rw [read_weigh (·.reportersOf user) (fun _ => rfl) fun _ => rfl]
  exact reportersOf_filed_self

theorem reportersOf_scoredReport :
    (s.scoredReport sha256 codec env id reporter user reason).reportersOf user
      = insert reporter (s.reportersOf user) := by
  obtain ⟨ban, -, hd⟩ := dossier_scoredReport s env sha256 codec user reporter user reason id
  rw [← reporters_dossier, hd]
  dsimp only
  rw [reporters_dossier, reportersOf_weigh]

theorem reportersOf_priorityReport :
    (s.priorityReport sha256 codec env id reporter user reason).reportersOf user
      = insert reporter (s.reportersOf user) := by
  have hfile : (s.fileReporter reporter user).reportersOf user
      = insert reporter (s.reportersOf user) := by
    rw [reportersOf_file, if_pos rfl]
  have hhub : ∀ (s' : ReportHub) f, (s'.onHub f).reportersOf user = s'.reportersOf user :=
    fun _ _ => rfl
  unfold priorityReport
  dsimp only
  rw [hhub, ← hfile]
  split
  · rw [← reporters_dossier, dossier_clawbackOnBan, reporters_dossier]
  · rfl

/-- A report that is taken puts its reporter on file. -/
theorem files_of_taken {r : TakenReport} (hr : s.hub.reportOf env.toEnv id raw = some r) :
    ∃ user, s.hub.resolveTargetUserId env.toEnv raw = some user
      ∧ (s.handleReportUser sha256 codec env id raw reason).reportersOf user
        = insert r.reporter (s.reportersOf user) := by
  unfold SimpleHub.reportOf at hr
  unfold handleReportUser
  cases hu : s.hub.resolveTargetUserId env.toEnv raw with
  | none =>
      rw [hu] at hr
      cases hr
  | some user =>
      rw [hu] at hr
      refine ⟨user, rfl, ?_⟩
      cases hc : s.hub.get id with
      | none =>
          rw [hc] at hr
          cases hr
      | some c =>
          rw [hc] at hr
          dsimp only at hr ⊢
          split at hr
          · cases hr
          next hself =>
          split at hr
          · cases hr
          next hrate =>
          cases hr
          rw [if_neg hself]
          unfold recentOwn
          rw [if_neg hrate]
          split
          · exact reportersOf_priorityReport
          · exact reportersOf_scoredReport

/-- A report that is not taken leaves the file. -/
theorem unfiled_of_not_taken (hr : s.hub.reportOf env.toEnv id raw = none) :
    (s.handleReportUser sha256 codec env id raw reason).reportReporters = s.reportReporters := by
  unfold SimpleHub.reportOf at hr
  unfold handleReportUser
  split
  · rfl
  next user hu =>
  rw [hu] at hr
  split
  · rfl
  next c hc =>
  rw [hc] at hr
  dsimp only at hr
  split
  · rfl
  next hself =>
  rw [if_neg hself] at hr
  unfold recentOwn
  split
  · rfl
  · next hrate =>
    rw [if_neg hrate] at hr
    cases hr

end ReportHub

end Ruletka
