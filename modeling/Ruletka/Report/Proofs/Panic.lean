/-
Which reports and detector hits crash the hub.

An id of more than fourteen bytes is cut at byte twelve, wherever that
falls. The handlers come back exactly when no call that alerts the
moderators is about an id that cannot be cut there; a call that comes back
has done what the handler without panics does.
-/
import Ruletka.Hub.Run
import Ruletka.Report.Panic
import Ruletka.Report.Proofs.Inert

namespace Ruletka

open Text

-- ============================================================== shortening

/-- The id is short, or byte twelve of it begins a character. -/
def Cuttable (user : UserId) : Prop :=
  user.utf8ByteSize ≤ 14 ∨ String.Pos.Raw.IsValid user ⟨12⟩

theorem shortForm_isSome_iff (user : UserId) : (shortForm user).isSome ↔ Cuttable user := by
  unfold shortForm Cuttable sliceTo
  by_cases hlong : 14 < user.utf8ByteSize
  · rw [if_pos hlong, Option.isSome_map, ← String.Pos.Raw.isValid_eq_true_iff]
    by_cases hv : String.Pos.Raw.isValid user ⟨12⟩ = true
    · simp [hv]
    · simp only [hv]
      simpa using hlong
  · rw [if_neg hlong]
    exact iff_of_true rfl (Or.inl (not_lt.mp hlong))

theorem shortening_returns_iff {σ : Type} (user : UserId) (before after : σ) :
    (shortening user before after).Returns ↔ Cuttable user := by
  rw [← shortForm_isSome_iff]
  unfold shortening
  cases shortForm user with
  | none => exact iff_of_false (fun h => h) Bool.false_ne_true
  | some t => exact iff_of_true trivial rfl

theorem eq_of_shortening {σ : Type} {user : UserId} {before after s : σ}
    (h : shortening user before after = .returned s) : s = after := by
  unfold shortening at h
  split at h
  · cases h
    rfl
  · cases h

namespace ReportHub

variable {s t : ReportHub} {env : ReportEnv} {sha256 : String → List UInt8}
  {codec : Ledger.LineCodec} {id : ConnId}

-- ================================================================== reports

/-- A report that bans, or that looks like a raid: the moderators hear of it. -/
def Alerts (s : ReportHub) (env : ReportEnv) (reporter user : UserId) (reason : String) : Prop :=
  let prev := s.hub.banUntil user
  let w := (s.weigh env reporter user reason).2
  ((sentence env w reason prev).filter (prev < ·)).isSome = true
    ∨ (w.raidSpike && w.scoreOk && !w.diversityOk) = true

/-- A report about this user that is let in and that the moderators hear of. -/
def ReportAlerts (s : ReportHub) (env : ReportEnv) (id : ConnId) (raw reason : String)
    (user : UserId) : Prop :=
  s.hub.resolveTargetUserId env.toEnv raw = some user
    ∧ ∃ c, s.hub.get id = some c ∧ c.userId ≠ user
      ∧ (recentOwn env c).length < SimpleHub.reportRatePerHour
      ∧ (SimpleHub.isPriorityModReporter c.userId c.shortId c.friendCode = true
        ∨ (s.noteOwnReport env id).Alerts env c.userId user (filedReason reason))

theorem tryScoredReport_returns_iff (reporter user : UserId) (reason : String) :
    (s.tryScoredReport sha256 codec env id reporter user reason).Returns
      ↔ (s.Alerts env reporter user reason → Cuttable user) := by
  unfold tryScoredReport Alerts
  dsimp only
  split
  · next deadline hd =>
    rw [shortening_returns_iff, hd]
    exact ⟨fun hc _ => hc, fun hc => hc (Or.inl rfl)⟩
  · next hd =>
    rw [hd]
    split
    · next hraid =>
      rw [shortening_returns_iff]
      exact ⟨fun hc _ => hc, fun hc => hc (Or.inr hraid)⟩
    · next hraid =>
      refine iff_of_true trivial ?_
      rintro (hban | hspike)
      · cases hban
      · exact absurd hspike hraid

/-- A report that is let in alerts about its target only. -/
theorem reportAlerts_iff {raw reason : String} {user u : UserId} {c : Client}
    (hres : s.hub.resolveTargetUserId env.toEnv raw = some user) (hc : s.hub.get id = some c)
    (hne : c.userId ≠ user) (hrate : (recentOwn env c).length < SimpleHub.reportRatePerHour) :
    s.ReportAlerts env id raw reason u ↔ u = user
      ∧ (SimpleHub.isPriorityModReporter c.userId c.shortId c.friendCode = true
        ∨ (s.noteOwnReport env id).Alerts env c.userId user (filedReason reason)) := by
  unfold ReportAlerts
  constructor
  · rintro ⟨hu, c', hc', -, -, halert⟩
    cases hres.symm.trans hu
    cases hc.symm.trans hc'
    exact ⟨rfl, halert⟩
  · rintro ⟨rfl, halert⟩
    exact ⟨hres, c, hc, hne, hrate, halert⟩

/-- A report that is refused alerts nobody. -/
theorem not_reportAlerts {raw reason : String} {user u : UserId} {c : Client}
    (hres : s.hub.resolveTargetUserId env.toEnv raw = some user) (hc : s.hub.get id = some c)
    (hno : c.userId = user ∨ SimpleHub.reportRatePerHour ≤ (recentOwn env c).length) :
    ¬ s.ReportAlerts env id raw reason u := by
  rintro ⟨hu, c', hc', hne, hlt, -⟩
  cases hres.symm.trans hu
  cases hc.symm.trans hc'
  exact hno.elim hne (not_le.mpr hlt)

/-- A report comes back unless it alerts the moderators to an id that cannot
be cut. -/
theorem tryReportUser_returns_iff (raw reason : String) :
    (s.tryReportUser sha256 codec env id raw reason).Returns
      ↔ ∀ user, s.ReportAlerts env id raw reason user → Cuttable user := by
  unfold tryReportUser
  cases hres : s.hub.resolveTargetUserId env.toEnv raw with
  | none =>
      refine iff_of_true trivial fun u hu => ?_
      cases hres.symm.trans hu.1
  | some user =>
    cases hc : s.hub.get id with
    | none =>
        refine iff_of_true trivial ?_
        rintro u ⟨-, c, hc', -⟩
        cases hc.symm.trans hc'
    | some c =>
      dsimp only
      split
      · next hself =>
        exact iff_of_true trivial fun u hu => absurd hu (not_reportAlerts hres hc (.inl hself))
      · next hne =>
        split
        · next hrate =>
          exact iff_of_true trivial fun u hu => absurd hu (not_reportAlerts hres hc (.inr hrate))
        · next hrate =>
          simp only [reportAlerts_iff hres hc hne (not_le.mp hrate), and_imp, forall_eq]
          split
          · next hmod =>
            rw [tryPriorityReport, shortening_returns_iff]
            exact ⟨fun hcut _ => hcut, fun hcut => hcut (Or.inl hmod)⟩
          · next hmod =>
            refine (tryScoredReport_returns_iff _ _ _).trans ?_
            simp only [hmod, Bool.false_eq_true, false_or]
            rfl

/-- A report that comes back has done what `handleReportUser` does. -/
theorem eq_of_tryReportUser {raw reason : String}
    (h : s.tryReportUser sha256 codec env id raw reason = .returned t) :
    t = s.handleReportUser sha256 codec env id raw reason := by
  have hscored : ∀ (s : ReportHub) (r u : UserId) (f : String),
      s.tryScoredReport sha256 codec env id r u f = .returned t
        → t = s.scoredReport sha256 codec env id r u f := by
    intro s r u f h
    unfold tryScoredReport at h
    dsimp only at h
    split at h
    · exact eq_of_shortening h
    · split at h
      · exact eq_of_shortening h
      · cases h
        rfl
  revert h
  unfold tryReportUser handleReportUser
  cases s.hub.resolveTargetUserId env.toEnv raw with
  | none =>
      rintro ⟨⟩
      rfl
  | some user =>
    cases s.hub.get id with
    | none =>
        rintro ⟨⟩
        rfl
    | some c =>
      dsimp only
      split
      · rintro ⟨⟩
        rfl
      · split
        · rintro ⟨⟩
          rfl
        · split
          · exact eq_of_shortening
          · exact hscored _ _ _ _

-- ============================================================ detector hits

/-- A hit on this user that is let in and that the ledger answers with a ban. -/
def HitAlerts (s : ReportHub) (env : ReportEnv) (id : ConnId) (hit : GenitalHitIn)
    (user : UserId) : Prop :=
  user = takeChars 80 (trim hit.targetUserId)
    ∧ s.hub.isMatchBannedConn env.toEnv id = false ∧ hitReject hit = none
    ∧ ∃ kind tid sid b, parseKind hit.kind = some kind
      ∧ s.hub.genitalBinding env.toEnv id user = .ok (tid, sid)
      ∧ s.hub.isMatchBanned env.toEnv user = false
      ∧ (s.hitAnswer env id user sid kind).2 = .ban b

/-- A hit comes back unless it bans a user whose id cannot be cut. -/
theorem tryGenitalHit_returns_iff (hit : GenitalHitIn) :
    (s.tryGenitalHit sha256 codec env id hit).Returns
      ↔ ∀ user, s.HitAlerts env id hit user → Cuttable user := by
  unfold tryGenitalHit HitAlerts
  simp only [and_imp, forall_eq]
  split
  · next hban =>
    refine iff_of_true trivial fun hno => ?_
    rw [hban] at hno
    cases hno
  · next hban =>
    split
    · next why hwhy =>
      refine iff_of_true trivial fun _ hno => ?_
      rw [hwhy] at hno
      cases hno
    · next hno hkind =>
      refine iff_of_true trivial ?_
      rintro - - ⟨kind, tid, sid, b, hk, -⟩
      cases hkind.symm.trans hk
    · next kind hlet hkind =>
      split
      · next why hbind =>
        refine iff_of_true trivial ?_
        rintro - - ⟨kind', tid, sid, b, -, hb, -⟩
        cases hbind.symm.trans hb
      · next tid sid hbind =>
        split
        · next halready =>
          refine iff_of_true trivial ?_
          rintro - - ⟨kind', tid', sid', b, -, -, hb, -⟩
          cases halready.symm.trans hb
        · next hnot =>
          have hanswer : ∀ d, (s.hitAnswer env id (takeChars 80 (trim hit.targetUserId)) sid
              kind).2 = d → ((∃ kind' tid' sid' b, parseKind hit.kind = some kind'
                ∧ s.hub.genitalBinding env.toEnv id (takeChars 80 (trim hit.targetUserId))
                  = .ok (tid', sid')
                ∧ s.hub.isMatchBanned env.toEnv (takeChars 80 (trim hit.targetUserId)) = false
                ∧ (s.hitAnswer env id (takeChars 80 (trim hit.targetUserId)) sid' kind').2
                  = .ban b) ↔ ∃ b, d = .ban b) := by
            rintro d rfl
            constructor
            · rintro ⟨kind', tid', sid', b, hk, hb, -, hd⟩
              cases hkind.symm.trans hk
              cases hbind.symm.trans hb
              exact ⟨b, hd⟩
            · rintro ⟨b, hd⟩
              exact ⟨kind, tid, sid, b, hkind, hbind, Bool.eq_false_iff.mpr hnot, hd⟩
          split
          · next why hd =>
            refine iff_of_true trivial fun _ _ hb => ?_
            obtain ⟨b, hb⟩ := (hanswer _ hd).mp hb
            cases hb
          · next why hd =>
            refine iff_of_true trivial fun _ _ hb => ?_
            obtain ⟨b, hb⟩ := (hanswer _ hd).mp hb
            cases hb
          · next b hd =>
            rw [tryBanByHit, shortening_returns_iff]
            refine ⟨fun hcut _ _ _ => hcut, fun hcut => ?_⟩
            exact hcut (Bool.eq_false_iff.mpr hban) hlet ((hanswer _ hd).mpr ⟨b, rfl⟩)

theorem eq_of_tryBanByHit {tid : ConnId} {target : UserId} {b : Ban}
    (h : s.tryBanByHit sha256 codec env id tid target b = .returned t) :
    t = s.banByHit sha256 codec env id tid target b := by
  unfold tryBanByHit at h
  exact eq_of_shortening h

/-- A hit that comes back has done what `handleGenitalHit` does. -/
theorem eq_of_tryGenitalHit {hit : GenitalHitIn}
    (h : s.tryGenitalHit sha256 codec env id hit = .returned t) :
    t = s.handleGenitalHit sha256 codec env id hit := by
  revert h
  unfold tryGenitalHit handleGenitalHit
  dsimp only
  split
  · rintro ⟨⟩
    rfl
  · cases hitReject hit with
    | some why =>
        rintro ⟨⟩
        rfl
    | none =>
      cases parseKind hit.kind with
      | none =>
          rintro ⟨⟩
          rfl
      | some kind =>
        cases s.hub.genitalBinding env.toEnv id (takeChars 80 (trim hit.targetUserId)) with
        | error why =>
            rintro ⟨⟩
            rfl
        | ok b =>
          obtain ⟨tid, sid⟩ := b
          dsimp only
          split
          · rintro ⟨⟩
            rfl
          · unfold hitAnswer
            dsimp only
            generalize s.genital.record _ _ _ _ = r
            obtain ⟨g, decision⟩ := r
            cases decision with
            | reject why =>
                rintro ⟨⟩
                rfl
            | counted why =>
                rintro ⟨⟩
                rfl
            | ban b =>
                intro h
                exact eq_of_tryBanByHit h

/-- **Crashes**: reports and hits come back exactly when they alert the
moderators only to ids that are short or can be cut at byte twelve. -/
theorem accusations_return_iff (s : ReportHub) (env : ReportEnv) (id : ConnId)
    (sha256 : String → List UInt8) (codec : Ledger.LineCodec) :
    (∀ raw reason, (s.tryReportUser sha256 codec env id raw reason).Returns
      ↔ ∀ user, s.ReportAlerts env id raw reason user → Cuttable user)
    ∧ ∀ hit, (s.tryGenitalHit sha256 codec env id hit).Returns
      ↔ ∀ user, s.HitAlerts env id hit user → Cuttable user :=
  ⟨tryReportUser_returns_iff, tryGenitalHit_returns_iff⟩

/-- Seven characters of two bytes behind one of one byte. -/
def cyrillicUser : UserId := "aяяяяяяя"

/-- The second of two connections takes that id, and they are matched. -/
def cyrillicMatch : List Input := script
  [(0, .connect 1 ""), (0, .connect 2 ""),
    (1, .frame 2 (.hello ⟨cyrillicUser, "", "any", "", [], false, ""⟩)),
    (2, .frame 1 (.spin "")), (2, .frame 2 (.spin ""))]

/-- One report of a minor, and the hub is left with the ban in the book and
the banned user in its match. -/
theorem report_crashes : ∃ w, (hubMachine plainSys).Reach w
    ∧ ∃ t : ReportHub, (blank w.hub).tryReportUser (fun _ => []) Ledger.compactCodec
        (plainReportEnv 3000) 1 cyrillicUser "underage" = .panicked t
      ∧ t.hub.matchBans.get? cyrillicUser = some 86403
      ∧ t.hub.phaseOf 2 = some .matched ∧ t.hub.partnerOf 1 = some 2 := by
  obtain ⟨w, hw, hp⟩ := @reach_of_replay plainSys 2 cyrillicMatch (fun w =>
    match (blank w.hub).tryReportUser (fun _ => []) Ledger.compactCodec (plainReportEnv 3000) 1
        cyrillicUser "underage" with
    | .returned _ => false
    | .panicked t => decide (t.hub.matchBans.get? cyrillicUser = some 86403
        ∧ t.hub.phaseOf 2 = some .matched ∧ t.hub.partnerOf 1 = some 2))
    (by decide +kernel)
  split at hp
  · cases hp
  · next t ht => exact ⟨w, hw, t, ht, of_decide_eq_true hp⟩

end ReportHub

end Ruletka
