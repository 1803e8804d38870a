/-
Who can ban for good.

A permanent ban comes of three networks that agree, of the detector's ladder
when three clusters stand behind it, or of one report by the operator's
account. `is_priority_mod_reporter` knows that account by its friend code,
its short id or its user id, and of these a client picks the last itself: any
user id in which the token occurs will do.
-/
import Ruletka.Report.Proofs.Accuser
import Ruletka.Report.Proofs.Inert

namespace Ruletka

open Text

namespace ReportHub

variable {s : ReportHub} {env : ReportEnv} {sha256 : String → List UInt8}
  {codec : Ledger.LineCodec} {reporter user : UserId} {reason : String}

/-- What writes the bans, the operator's own ban apart, and everything else the
hub does. -/
inductive BanMove where
  | report (env : ReportEnv) (id : ConnId) (raw reason : String)
  | hit (env : ReportEnv) (id : ConnId) (hit : GenitalHitIn)
  | unban (env : ReportEnv) (raw : String)
  | unbanIp (raw : String)
  | elsewhere (hub : SimpleHub) (store : Ledger.Store)

/-- The clock of a move that can ban for a time. -/
def BanMove.now : BanMove → Nat
  | .report env .. | .hit env .. => env.unix
  | _ => 0

/-- Everything else leaves the bans alone. -/
def Admits (s : ReportHub) : BanMove → Prop
  | .elsewhere hub _ => bansOf hub = bansOf s.hub
  | _ => True

/-- The books after a move. -/
def move (sha256 : String → List UInt8) (codec : Ledger.LineCodec) (s : ReportHub) :
    BanMove → ReportHub
  | .report env id raw reason => s.handleReportUser sha256 codec env id raw reason
  | .hit env id hit => s.handleGenitalHit sha256 codec env id hit
  | .unban env raw => s.adminUnban env raw
  | .unbanIp raw => s.onHub (·.adminUnbanIp raw)
  | .elsewhere hub store => { s with hub := hub, store := store }

/-- A move imposes a permanent ban of a user: the deadline that means for good,
while it is further off than the longest ban for a time. -/
structure OutlawsUser (m : BanMove) (s s' : ReportHub) (t : UserId) : Prop where
  before : s.hub.banUntil t < SimpleHub.permanentBanUntil
  after : SimpleHub.permanentBanUntil ≤ s'.hub.banUntil t
  further : m.now + 90 * daySecs < SimpleHub.permanentBanUntil

/-- A move bans an address, which is always for good. -/
def OutlawsIp (s s' : ReportHub) (ip : String) : Prop :=
  ∃ d, s'.hub.matchIpBans.get? ip = some d ∧ s.hub.matchIpBans.get? ip ≠ some d

/-- A move imposes a permanent ban. -/
def Outlaws (m : BanMove) (s s' : ReportHub) : Prop :=
  (∃ t, OutlawsUser m s s' t) ∨ ∃ ip, OutlawsIp s s' ip

/-- The networks of the reporters that count against a target, once the report
of `id` by this reporter is filed. -/
def votingNetworks (s : ReportHub) (env : ReportEnv) (id : ConnId) (reporter target : UserId) :
    Finset String :=
  ((((s.noteOwnReport env id).filed env reporter target).votersOf env target false).image
    ((s.noteOwnReport env id).filed env reporter target).reporterClusterKey)

/-- What is behind a permanent ban: three networks, three clusters of the
ladder, or a reporter that `grants` lets ban alone. -/
def Backed (grants : Client → Prop) (s : ReportHub) : BanMove → Prop
  | .report env id raw _ => ∃ c user, s.hub.get id = some c
      ∧ s.hub.resolveTargetUserId env.toEnv raw = some user
      ∧ (grants c ∨ 3 ≤ (s.votingNetworks env id c.userId user).card)
  | .hit env id hit => ∃ tid sid kind b, parseKind hit.kind = some kind
      ∧ s.hub.genitalBinding env.toEnv id (takeChars 80 (trim hit.targetUserId)) = .ok (tid, sid)
      ∧ (s.hitRecord env id (takeChars 80 (trim hit.targetUserId)) kind sid).2 = .ban b
        ∧ 3 ≤ (GenitalLedger.clustersWith (s.genital.priorOffenses
            (takeChars 80 (trim hit.targetUserId)) (env.unixMs / 1000)) b.reporterClusters).card
  | _ => False

-- ==================================================================== the reports

theorem banSecs_weigh (s : ReportHub) (env : ReportEnv) (reporter user : UserId)
    (reason : String) : (s.weigh env reporter user reason).2.banSecs ≤ 90 * daySecs := by
  have hday : underageHoldSecs ≤ 90 * daySecs := by decide
  have hr := reportSeverity_le reason
  have hu := reportSeverity_le "underage"
  cases hun : isReason reason "underage" with
  | true =>
    obtain ⟨n, hw⟩ := weigh_underage s env reporter user hun
    rw [hw]
    dsimp only
    split
    · exact hr
    · exact hday
  | false =>
    obtain ⟨ok, raid, hw⟩ := weigh_other s env reporter user hun
    rw [hw]
    dsimp only
    split
    · exact max_le hr hu
    · exact hr

/-- A second strike for good rests on three counting networks. -/
theorem escalates_backed {prev : Nat}
    (he : escalates (s.weigh env reporter user reason).2 reason prev = true) :
    3 ≤ (s.filed env reporter user).countingReportersForTarget env user false := by
  cases hun : isReason reason "underage" with
  | true =>
    rw [escalates_underage hun] at he
    cases he
  | false =>
    obtain ⟨ok, raid, hw⟩ := weigh_other s env reporter user hun
    rw [hw] at he
    unfold escalates at he
    simp only [Bool.and_eq_true, decide_eq_true_eq] at he
    exact he.1.2

/-- A report by anybody else writes the ban of its target, and no other. -/
theorem bansOf_scoredReport (id : ConnId) :
    bansOf (s.scoredReport sha256 codec env id reporter user reason).hub = bansOf s.hub
      ∨ ∃ d, sentence env (s.weigh env reporter user reason).2 reason (s.hub.banUntil user) = some d
        ∧ bansOf (s.scoredReport sha256 codec env id reporter user reason).hub
          = (s.hub.matchBans.set user d, s.hub.matchIpBans) := by
  have hhub : (s.weigh env reporter user reason).1.hub = s.hub := hub_weigh
  unfold scoredReport
  generalize s.weigh env reporter user reason = p at hhub ⊢
  obtain ⟨f, w⟩ := p
  dsimp only at hhub ⊢
  dsimp only [onHub]
  rw [bansOf_send, bansOf_status]
  cases hd : (sentence env w reason (s.hub.banUntil user)).filter (s.hub.banUntil user < ·) with
  | none =>
    left
    dsimp only
    rw [hhub]
  | some d =>
    obtain ⟨hsome, -⟩ := Option.filter_eq_some_iff.mp hd
    right
    refine ⟨d, hsome, ?_⟩
    dsimp only
    rw [bansOf_banByReport, hhub]

theorem banUntil_of_bansOf {h h' : SimpleHub} (hb : bansOf h' = bansOf h) (t : UserId) :
    h'.banUntil t = h.banUntil t :=
  congrArg (fun m : Table UserId Nat => (m.get? t).getD 0) (congrArg Prod.fst hb)

theorem not_outlaws_of_bansOf {m : BanMove} {s' : ReportHub} (hb : bansOf s'.hub = bansOf s.hub) :
    ¬ Outlaws m s s' := by
  rintro (⟨t, ht⟩ | ⟨ip, d, hd, hno⟩)
  · exact Nat.not_le.mpr ht.before (banUntil_of_bansOf hb t ▸ ht.after)
  · have hip : s'.hub.matchIpBans = s.hub.matchIpBans := congrArg Prod.snd hb
    exact hno (hip ▸ hd)

/-- A report that bans for good rests on three networks. -/
theorem scoredReport_backed {id : ConnId} {t : UserId}
    (hclock : env.unix + 90 * daySecs < SimpleHub.permanentBanUntil)
    (hlow : s.hub.banUntil t < SimpleHub.permanentBanUntil)
    (hhigh : SimpleHub.permanentBanUntil
      ≤ (s.scoredReport sha256 codec env id reporter user reason).hub.banUntil t) :
    3 ≤ (s.filed env reporter user).countingReportersForTarget env user false := by
  have hcases := @bansOf_scoredReport s env sha256 codec reporter user reason id
  generalize s.scoredReport sha256 codec env id reporter user reason = s' at hhigh hcases
  rcases hcases with hb | ⟨d, hd, hb⟩
  · rw [banUntil_of_bansOf hb] at hhigh
    exact absurd hhigh (Nat.not_le.mpr hlow)
  · have hban : s'.hub.banUntil t = if t = user then d else s.hub.banUntil t := by
      have hm : s'.hub.matchBans = s.hub.matchBans.set user d := congrArg Prod.fst hb
      unfold SimpleHub.banUntil
      rw [hm, Table.get?_set]
      split
      · rfl
      · rfl
    rw [hban] at hhigh
    by_cases ht : t = user
    · rw [if_pos ht] at hhigh
      cases he : escalates (s.weigh env reporter user reason).2 reason (s.hub.banUntil user) with
      | true => exact escalates_backed he
      | false =>
        have hle : d ≤ env.unix + 90 * daySecs := (sentence_le he hd).2.trans
          (Nat.add_le_add_left (banSecs_weigh s env reporter user reason) _)
        exact absurd hhigh (Nat.not_le.mpr (hle.trans_lt hclock))
    · rw [if_neg ht] at hhigh
      exact absurd hhigh (Nat.not_le.mpr hlow)

theorem matchIpBans_scoredReport (id : ConnId) :
    (s.scoredReport sha256 codec env id reporter user reason).hub.matchIpBans
      = s.hub.matchIpBans := by
  have hcases := @bansOf_scoredReport s env sha256 codec reporter user reason id
  generalize s.scoredReport sha256 codec env id reporter user reason = s' at hcases ⊢
  rcases hcases with hb | ⟨d, -, hb⟩
  · exact congrArg Prod.snd hb
  · exact congrArg Prod.snd hb

/-- A report is refused, or the operator's, or weighed. -/
theorem handleReportUser_cases (id : ConnId) (raw reason : String) :
    bansOf (s.handleReportUser sha256 codec env id raw reason).hub = bansOf s.hub
      ∨ ∃ c user, s.hub.get id = some c ∧ s.hub.resolveTargetUserId env.toEnv raw = some user
        ∧ (SimpleHub.isPriorityModReporter c.userId c.shortId c.friendCode = true
          ∨ s.handleReportUser sha256 codec env id raw reason
            = (s.noteOwnReport env id).scoredReport sha256 codec env id c.userId user
                (filedReason reason)) := by
  unfold handleReportUser
  cases hres : s.hub.resolveTargetUserId env.toEnv raw with
  | none => exact .inl rfl
  | some user =>
    cases hc : s.hub.get id with
    | none => exact .inl rfl
    | some c =>
      dsimp only
      split
      · exact .inl rfl
      split
      · exact .inl rfl
      refine .inr ⟨c, user, rfl, rfl, ?_⟩
      split
      · next hmod => exact .inl hmod
      · exact .inr rfl

/-- The step of a report: a permanent ban of a user or an address is backed. -/
theorem report_backed {id : ConnId} {raw reason : String}
    (himp : Outlaws (.report env id raw reason) s
      (s.handleReportUser sha256 codec env id raw reason)) :
    Backed (fun c => SimpleHub.isPriorityModReporter c.userId c.shortId c.friendCode = true) s
      (.report env id raw reason) := by
  rcases @handleReportUser_cases s env sha256 codec id raw reason with
    hb | ⟨c, user, hc, hres, hmod | heq⟩
  · exact absurd himp (not_outlaws_of_bansOf hb)
  · exact ⟨c, user, hc, hres, .inl hmod⟩
  · refine ⟨c, user, hc, hres, .inr ?_⟩
    rw [heq] at himp
    rcases himp with ⟨t, ht⟩ | ⟨ip, d, hd, hno⟩
    · exact scoredReport_backed ht.further ht.before ht.after
    · rw [matchIpBans_scoredReport] at hd
      exact absurd hd hno

-- ======================================================================= the hits

/-- The ladder bans for good on three clusters, and else for a week at most. -/
theorem nextLevel_permanent (g : GenitalLedger) (target : UserId) (clusters : Finset String)
    (nowSecs : Nat) :
    ((g.nextLevel target clusters nowSecs).2.2 = true →
      3 ≤ (GenitalLedger.clustersWith (g.priorOffenses target nowSecs) clusters).card)
    ∧ (g.nextLevel target clusters nowSecs).2.1 ≤ GenitalLedger.ladderSecondSecs := by
  obtain hlevel | ⟨hlevel, -⟩ | ⟨hlevel, hcard⟩ := g.nextLevel_cases target clusters nowSecs
  · rw [hlevel]
    exact ⟨fun h => absurd h Bool.false_ne_true, by decide⟩
  · rw [hlevel]
    exact ⟨fun h => absurd h Bool.false_ne_true, le_rfl⟩
  · rw [hlevel]
    exact ⟨fun _ => hcard, Nat.zero_le _⟩

/-- A ban of the ladder is for good with three clusters behind it. -/
theorem record_permanent {g : GenitalLedger} {target : UserId} {hit : Hit} {guards : Guards}
    {nowMs : Nat} {b : Ban} (hb : (g.record target hit guards nowMs).2 = .ban b) :
    (b.permanent = true → 3 ≤ (GenitalLedger.clustersWith
      (g.priorOffenses target (nowMs / 1000)) b.reporterClusters).card)
    ∧ b.secs ≤ GenitalLedger.ladderSecondSecs := by
  have hc := GenitalLedger.record_cases g target hit guards nowMs
  generalize g.record target hit guards nowMs = r at hc hb
  cases hc with
  | rate => cases hb
  | cross =>
    cases hb
    exact nextLevel_permanent _ _ _ _
  | session =>
    cases hb
    exact nextLevel_permanent _ _ _ _
  | counted => cases hb

theorem bansOf_banByHit (id tid : ConnId) (b : Ban) :
    bansOf (s.banByHit sha256 codec env id tid user b).hub
      = bansOf (s.hub.raiseBan user (if b.permanent then SimpleHub.permanentBanUntil
          else env.unix + b.secs)) := by
  unfold banByHit
  dsimp only [onHub]
  rw [bansOf_genitalBan, hub_saveGenitalBook, hub_noteExplicitAiHit, hub_clawbackOnBan]

/-- The step of a hit: a permanent ban of a user is backed, and no address is
banned. -/
theorem hit_backed {id : ConnId} {hit : GenitalHitIn} {grants : Client → Prop}
    (himp : Outlaws (.hit env id hit) s (s.handleGenitalHit sha256 codec env id hit)) :
    Backed grants s (.hit env id hit) := by
  rcases @handleGenitalHit_cases sha256 codec s env id hit with
    ⟨why, heq⟩ | ⟨tid, sid, kind, ⟨g, d⟩, hkind, hbound, hr, heq⟩
  · rw [heq] at himp
    exact absurd himp (not_outlaws_of_bansOf (bansOf_send ..))
  rw [heq] at himp
  cases d with
  | reject why => exact absurd himp (not_outlaws_of_bansOf (bansOf_send ..))
  | counted why => exact absurd himp (not_outlaws_of_bansOf (bansOf_send ..))
  | ban b =>
    have hb : (s.hitRecord env id (takeChars 80 (trim hit.targetUserId)) kind sid).2 = .ban b :=
      congrArg Prod.snd hr
    obtain ⟨hperm, hsecs⟩ := record_permanent hb
    cases hp : b.permanent with
    | true => exact ⟨tid, sid, kind, b, hkind, hbound, hb, hperm hp⟩
    | false =>
      dsimp only at himp
      generalize hs' : ({ s with genital := g } : ReportHub).banByHit sha256 codec env id tid
        (takeChars 80 (trim hit.targetUserId)) b = s' at himp
      have hbans : bansOf s'.hub = bansOf (s.hub.raiseBan (takeChars 80 (trim hit.targetUserId))
          (env.unix + b.secs)) := by
        rw [← hs', bansOf_banByHit, hp]
        rfl
      rcases himp with ⟨t, ht⟩ | ⟨ip, d, hd, hno⟩
      · have hlt : env.unix + b.secs < SimpleHub.permanentBanUntil := by
          refine lt_of_le_of_lt (Nat.add_le_add_left (hsecs.trans ?_) _) ht.further
          decide
        have hafter := ht.after
        rw [banUntil_of_bansOf hbans, banUntil_raiseBan] at hafter
        by_cases htarget : t = takeChars 80 (trim hit.targetUserId)
        · rw [if_pos htarget, ← htarget] at hafter
          exact absurd hafter (Nat.not_le.mpr (max_lt ht.before hlt))
        · rw [if_neg htarget] at hafter
          exact absurd hafter (Nat.not_le.mpr ht.before)
      · have hip : s'.hub.matchIpBans = s.hub.matchIpBans :=
          (congrArg Prod.snd hbans).trans (matchIpBans_raiseBan ..)
        exact absurd (hip ▸ hd) hno

-- ==================================================================== the authority

theorem not_outlaws_unban (raw : String) : ¬ Outlaws (.unban env raw) s (s.adminUnban env raw) := by
  have hhub : (s.adminUnban env raw).hub = s.hub.adminUnban raw := by rw [adminUnban]
  rintro (⟨t, ht⟩ | ⟨ip, d, hd, hno⟩)
  · have hafter := ht.after
    rw [hhub] at hafter
    exact Nat.not_le.mpr ht.before (hafter.trans (banUntil_adminUnban s.hub raw))
  · rw [hhub] at hd
    unfold SimpleHub.adminUnban at hd
    dsimp only at hd
    split at hd
    · exact hno hd
    · rw [Table.get?_retain] at hd
      exact hno (Option.filter_eq_some_iff.mp hd).1

theorem not_outlaws_unbanIp (raw : String) :
    ¬ Outlaws (.unbanIp raw) s (s.onHub (·.adminUnbanIp raw)) := by
  have hbans : (s.hub.adminUnbanIp raw).matchBans = s.hub.matchBans := by
    unfold SimpleHub.adminUnbanIp
    dsimp only
    split
    · rfl
    · rfl
  rintro (⟨t, ht⟩ | ⟨ip, d, hd, hno⟩)
  · have hban : (s.onHub (·.adminUnbanIp raw)).hub.banUntil t = s.hub.banUntil t :=
      congrArg (fun m : Table UserId Nat => (m.get? t).getD 0) hbans
    exact Nat.not_le.mpr ht.before (hban ▸ ht.after)
  · dsimp only [onHub] at hd
    unfold SimpleHub.adminUnbanIp at hd
    dsimp only at hd
    split at hd
    · exact hno hd
    · rw [Table.get?_del] at hd
      split at hd
      · cases hd
      · exact hno hd

/-- **A permanent ban has authority behind it**: three counting networks, three
clusters of the ladder, or a reporter that the operator's token is on, be it
in a user id of the reporter's own choice. -/
theorem permanent_ban_authority {m : BanMove} (ha : s.Admits m)
    (ho : Outlaws m s (s.move sha256 codec m)) :
    Backed (fun c => SimpleHub.isPriorityModReporter c.userId c.shortId c.friendCode = true)
      s m := by
  cases m with
  | report env id raw reason =>
    rw [move] at ho
    exact report_backed ho
  | hit env id hit =>
    rw [move] at ho
    exact hit_backed ho
  | unban env raw => exact absurd ho (not_outlaws_unban raw)
  | unbanIp raw => exact absurd ho (not_outlaws_unbanIp raw)
  | elsewhere hub store => exact absurd ho (not_outlaws_of_bansOf ha)

-- =================================================================== a chosen name

/-- A client that says it is the operator. -/
def namedAsOperator : List Input := script
  [(0, .connect 1 "203.0.113.1"),
    (1, .frame 1 (.hello ⟨"2AFEE934", "", "", "", [], false, ""⟩))]

/-- Its one report of a user who is not online. -/
def operatorsReport : BanMove := .report (plainReportEnv 10000) 1 absentUser "spam"

/-- The books after it. -/
def afterReport (h : SimpleHub) : ReportHub :=
  (blank h).move (fun _ => []) Ledger.compactCodec operatorsReport

/-- A friend code that is the operator's. -/
def HasOperatorCode (c : Client) : Prop := upper (trim c.friendCode) = SimpleHub.priorityModToken

instance (c : Client) : Decidable (HasOperatorCode c) := inferInstanceAs (Decidable (_ = _))

/-- The user is banned for good by one reporter without the operator's code. -/
def bannedAlone (h : SimpleHub) : Bool :=
  decide ((blank h).hub.banUntil absentUser < SimpleHub.permanentBanUntil
      ∧ SimpleHub.permanentBanUntil ≤ (afterReport h).hub.banUntil absentUser
      ∧ operatorsReport.now + 90 * daySecs < SimpleHub.permanentBanUntil)
    && decide (h.resolveTargetUserId (plainReportEnv 10000).toEnv absentUser = some absentUser)
    && (h.get 1).all fun c => !decide (HasOperatorCode c)
      && decide (((blank h).votingNetworks (plainReportEnv 10000) 1 c.userId absentUser).card < 3)

theorem outlaws_of_bannedAlone {h : SimpleHub} (hb : bannedAlone h = true) :
    Outlaws operatorsReport (blank h) (afterReport h) := by
  simp only [bannedAlone, Bool.and_eq_true, decide_eq_true_eq] at hb
  exact .inl ⟨absentUser, hb.1.1.1, hb.1.1.2.1, hb.1.1.2.2⟩

/-- A report of the absent user for nudity. -/
def explicitReport (now : Instant) (id : ConnId) : BanMove :=
  .report (plainReportEnv now) id absentUser "explicit"

/-- The books once three established users of three networks have reported. -/
def reportedThrice (h : SimpleHub) : ReportHub :=
  [explicitReport 0 1, explicitReport 0 2, explicitReport 0 3].foldl
    (fun s m => s.move (fun _ => []) Ledger.compactCodec m) (blank h)

/-- A fourth report is from no operator and turns their ban into one for good. -/
def bannedByThree (h : SimpleHub) : Bool :=
  let s := reportedThrice h
  let s' := s.move (fun _ => []) Ledger.compactCodec (explicitReport 60000 4)
  decide (0 < s.hub.banUntil absentUser
      ∧ s.hub.banUntil absentUser < SimpleHub.permanentBanUntil
      ∧ SimpleHub.permanentBanUntil ≤ s'.hub.banUntil absentUser
      ∧ (explicitReport 60000 4).now + 90 * daySecs < SimpleHub.permanentBanUntil)
    && decide (s.hub.resolveTargetUserId (plainReportEnv 60000).toEnv absentUser
      = some absentUser)
    && (s.hub.get 4).all fun c =>
      !SimpleHub.isPriorityModReporter c.userId c.shortId c.friendCode

/-- The operator's word is enough for a ban, and is behind it; and so are the
networks of three who count. -/
theorem permanent_ban_authority_operator : (∃ w, (hubMachine plainSys).Reach w
    ∧ Backed (fun c => SimpleHub.isPriorityModReporter c.userId c.shortId c.friendCode = true)
      (blank w.hub) operatorsReport)
    ∧ ∃ w, (hubMachine plainSys).Reach w
      ∧ ∃ c, (reportedThrice w.hub).hub.get 4 = some c
        ∧ 3 ≤ ((reportedThrice w.hub).votingNetworks (plainReportEnv 60000) 4 c.userId
          absentUser).card := by
  constructor
  · obtain ⟨w, hw, hp⟩ := @reach_of_replay plainSys 2 namedAsOperator
      (fun w => bannedAlone w.hub) (by decide +kernel)
    exact ⟨w, hw, permanent_ban_authority trivial (outlaws_of_bannedAlone hp)⟩
  · obtain ⟨w, hw, hp⟩ := @reach_of_replay plainSys 2 fourConnect
      (fun w => bannedByThree w.hub) (by decide +kernel)
    simp only [bannedByThree, Bool.and_eq_true, decide_eq_true_eq] at hp
    obtain ⟨⟨⟨-, hbefore, hafter, hfurther⟩, hres⟩, hall⟩ := hp
    have hmove : (reportedThrice w.hub).Admits (explicitReport 60000 4) := trivial
    obtain ⟨c, user, hc, hres', hback⟩ := permanent_ban_authority hmove
      (.inl ⟨absentUser, hbefore, hafter, hfurther⟩)
    rw [hc, Option.all_some, Bool.not_eq_true'] at hall
    have huser : user = absentUser := Option.some.inj (hres'.symm.trans hres)
    refine ⟨w, hw, c, hc, ?_⟩
    rw [huser] at hback
    exact hback.resolve_left fun hmod => absurd (hall.symm.trans hmod) Bool.false_ne_true

/-- A client names itself by the operator's token, and its one report bans for
good: its friend code is another, and nobody else reported. -/
theorem chosen_name_bans : ∃ w, (hubMachine plainSys).Reach w
    ∧ Outlaws operatorsReport (blank w.hub) (afterReport w.hub)
    ∧ ¬ Backed HasOperatorCode (blank w.hub) operatorsReport := by
  obtain ⟨w, hw, hp⟩ := @reach_of_replay plainSys 2 namedAsOperator (fun w => bannedAlone w.hub)
    (by decide +kernel)
  refine ⟨w, hw, outlaws_of_bannedAlone hp, ?_⟩
  simp only [bannedAlone, Bool.and_eq_true, decide_eq_true_eq] at hp
  obtain ⟨⟨-, hres⟩, hall⟩ := hp
  rintro ⟨c, user, hc, hres', hback⟩
  have huser : user = absentUser := Option.some.inj (hres'.symm.trans hres)
  have hget : w.hub.get 1 = some c := hc
  rw [hget, Option.all_some, Bool.and_eq_true, decide_eq_true_eq] at hall
  rcases hback with hcode | hvotes
  · simp [hcode] at hall
  · rw [huser] at hvotes
    omega

end ReportHub

end Ruletka
