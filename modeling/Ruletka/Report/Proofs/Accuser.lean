/-
What one accuser can do to a target.

All reports and detector hits about a target come from one user, seen in one
network. The books about the target then never hold more than one voice:
one reporter, one report of a minor, hits and offenses of one cluster. So no
score is reached, the cross path stays shut and the ladder stays on its
first step, and what is left is the pause after a report of a minor. The one
exception is by design: a report of a minor together with a detector hit
makes a ban at once, and both may come from the same user.

# Layout

The `Dossier` is everything the books hold about the target. Each handler
has one lemma about the dossier of its target and one about the others; the
invariant `OneVoice` is about a dossier and the time of the last accusation.
-/
import Ruletka.Report.Proofs.Hits
import Ruletka.Report.Proofs.Inert
import Ruletka.Hub.Run

namespace Ruletka

namespace ReportHub

open Text

variable {s : ReportHub} {env : ReportEnv} {sha256 : String → List UInt8}
  {codec : Ledger.LineCodec} {t user reporter : UserId} {reason : String}

-- ================================================================= the dossier

/-- Everything the books hold about a user. -/
structure Dossier where
  reporters : Finset UserId
  underage : List UnderageReport
  explicitAi : List Nat
  hits : List Hit
  offenses : List Offense
  ban : Nat

def explicitAiOf (s : ReportHub) (t : UserId) : List Nat := (s.explicitAiHits.get? t).getD []

def dossier (s : ReportHub) (t : UserId) : Dossier where
  reporters := s.reportersOf t
  underage := s.underageReportsOf t
  explicitAi := s.explicitAiOf t
  hits := s.genital.hitsOf t
  offenses := s.genital.offensesOf t
  ban := s.hub.banUntil t

/-- The hub writes no book but the bans. -/
theorem dossier_onHub_of_ban {f : SimpleHub → SimpleHub}
    (hf : (f s.hub).banUntil t = s.hub.banUntil t) : (s.onHub f).dossier t = s.dossier t := by
  show Dossier.mk _ _ _ _ _ ((f s.hub).banUntil t) = _
  rw [hf]
  rfl

theorem dossier_onHub {f : SimpleHub → SimpleHub}
    (hf : (f s.hub).matchBans = s.hub.matchBans) : (s.onHub f).dossier t = s.dossier t :=
  dossier_onHub_of_ban (congrArg (fun b : Table UserId Nat => (b.get? t).getD 0) hf)

theorem banUntil_raiseBan (h : SimpleHub) (deadline : Nat) :
    (h.raiseBan user deadline).banUntil t
      = if t = user then max (h.banUntil user) deadline else h.banUntil t := by
  unfold SimpleHub.raiseBan
  by_cases hd : h.banUntil user < deadline
  · rw [if_pos hd]
    show ((h.matchBans.set user deadline).get? t).getD 0 = _
    rw [Table.get?_set]
    by_cases ht : t = user
    · rw [if_pos ht, if_pos ht, max_eq_right hd.le]
      rfl
    · rw [if_neg ht, if_neg ht]
      rfl
  · rw [if_neg hd]
    by_cases ht : t = user
    · rw [if_pos ht, ht, max_eq_left (by omega)]
    · rw [if_neg ht]

theorem underageReportsOf_set (l : List UnderageReport) :
    underageReportsOf { s with underageReports := s.underageReports.set user l } t
      = if t = user then l else s.underageReportsOf t := by
  unfold underageReportsOf
  rw [Table.get?_set]
  by_cases ht : t = user
  · rw [if_pos ht, if_pos ht]
    rfl
  · rw [if_neg ht, if_neg ht]

theorem explicitAiOf_set (l : List Nat) :
    explicitAiOf { s with explicitAiHits := s.explicitAiHits.set user l } t
      = if t = user then l else s.explicitAiOf t := by
  unfold explicitAiOf
  rw [Table.get?_set]
  by_cases ht : t = user
  · rw [if_pos ht, if_pos ht]
    rfl
  · rw [if_neg ht, if_neg ht]

theorem reportersOf_file (r : UserId) :
    (s.fileReporter r user).reportersOf t
      = if t = user then insert r (s.reportersOf user) else s.reportersOf t := by
  unfold reportersOf fileReporter
  rw [Table.get?_set]
  by_cases ht : t = user
  · rw [if_pos ht, if_pos ht]
    rfl
  · rw [if_neg ht, if_neg ht]

-- ==================================================================== one voice

/-- The dossier holds the voice of one user in one cluster, and no more than
ninety days since its last accusation; a day unless a report of a minor met
a detector hit. -/
structure OneVoice (u : UserId) (cluster : String) (last : Nat) (mixed : Prop) (d : Dossier) :
    Prop where
  reporters : d.reporters ⊆ {u}
  underage : ∀ r ∈ d.underage, r.reporterUid = u
  single : d.underage.length ≤ 1
  hits : ∀ h ∈ d.hits, h.reporterCluster = cluster
  offenses : ∀ o ∈ d.offenses, o.reporterClusters ⊆ {cluster}
  bounded : d.ban ≤ last + 90 * daySecs
  day : ¬ mixed → d.ban ≤ last + daySecs

theorem OneVoice.later {u : UserId} {cluster : String} {last last' : Nat} {mixed : Prop}
    {d : Dossier} (hv : OneVoice u cluster last mixed d) (hl : last ≤ last') {mixed' : Prop}
    (hm : mixed → mixed') : OneVoice u cluster last' mixed' d where
  reporters := hv.reporters
  underage := hv.underage
  single := hv.single
  hits := hv.hits
  offenses := hv.offenses
  bounded := hv.bounded.trans (by omega)
  day hn := (hv.day (mt hm hn)).trans (by omega)

-- ============================================================= reports of minors

theorem upsert_single {u : UserId} {r : UnderageReport} {l : List UnderageReport}
    (hr : r.reporterUid = u) (hl : ∀ q ∈ l, q.reporterUid = u) (hlen : l.length ≤ 1) :
    upsert r l = [r] := by
  cases l with
  | nil => rfl
  | cons q l =>
      have hnil : l = [] := List.length_eq_zero_iff.mp (by simpa using hlen)
      rw [upsert, if_pos ((hl q List.mem_cons_self).trans hr.symm), hnil]

theorem clusterPoints_single (r : UnderageReport) (now : Nat) :
    (clusterPoints [r] now).keys.card ≤ 1 := by
  unfold clusterPoints
  by_cases hr : now - r.at < underageWindowSecs
  · rw [List.filter_cons_of_pos (by simpa using hr)]
    show ((∅ : Table String Nat).set r.cluster _).keys.card ≤ 1
    refine (Finset.card_le_card (t := {r.cluster}) fun k hk => ?_).trans (by simp)
    have hk' := Finmap.mem_keys.mp hk
    rw [Table.set, Finmap.mem_insert] at hk'
    rcases hk' with rfl | hk'
    · exact Finset.mem_singleton_self _
    · exact absurd hk' (Finmap.notMem_empty)
  · rw [List.filter_cons_of_neg (by simpa using hr)]
    simp [Finmap.keys_empty]

/-- One report of a minor bans only together with a detector hit. -/
theorem underageAction_single {r : UnderageReport} {ai : Bool} {now : Nat}
    (hb : underageAction [r] ai now = true) : ai = true := by
  have hcard := clusterPoints_single r now
  unfold underageAction at hb
  simp only [Bool.or_eq_true, Bool.and_eq_true, decide_eq_true_eq] at hb
  rcases hb with ⟨htwo, -⟩ | ⟨-, hai⟩
  · have : underageBanClusters = 2 := rfl
    omega
  · exact hai

-- ================================================================ the sentence

/-- A reason that the bar takes for a report of a minor and the handler does
not: blanks behind it survived the cut. -/
def Padded (reason : String) : Prop :=
  lower (trim reason) = "underage" ∧ isReason reason "underage" = false

/-- The report of a minor meets a detector hit of the last days, or the
other way round. -/
def Mixes (s : ReportHub) (env : ReportEnv) (t : UserId) (reason : String) : Prop :=
  (isReason reason "underage" = true ∧ s.explicitAiRecent env t = true)
    ∨ (isReason reason "explicit_ai" = true ∧ s.underageReportRecent env t = true)

theorem reportSeverity_le (reason : String) : (reportSeverity reason).2 ≤ 90 * daySecs := by
  unfold reportSeverity
  split
  · show 30 * daySecs ≤ 90 * daySecs
    omega
  · exact le_rfl
  · exact le_rfl
  · show 14 * daySecs ≤ 90 * daySecs
    omega
  · show 14 * daySecs ≤ 90 * daySecs
    omega
  · show 7 * daySecs ≤ 90 * daySecs
    omega
  · show 7 * daySecs ≤ 90 * daySecs
    omega
  · show 3 * daySecs ≤ 90 * daySecs
    omega

theorem minUniqueReporters_of_not_underage {reason : String}
    (hr : lower (trim reason) ≠ "underage") :
    3 ≤ minUniqueReporters reason := by
  unfold minUniqueReporters
  split
  · next heq => exact absurd heq hr
  · exact le_rfl
  · exact le_rfl
  · exact le_rfl
  · exact le_rfl
  · omega
  · omega
  · omega

/-- One reporter on file is at most one vote. -/
theorem countingReportersForTarget_le_one {u : UserId} (hr : s.reportersOf t ⊆ {u}) :
    s.countingReportersForTarget env t false ≤ 1 := by
  have hvoters : s.votersOf env t false ⊆ {u} := (Finset.filter_subset _ _).trans hr
  calc s.countingReportersForTarget env t false
      ≤ (s.votersOf env t false).card := Finset.card_image_le
    _ ≤ ({u} : Finset UserId).card := Finset.card_le_card hvoters
    _ = 1 := Finset.card_singleton u

/-- The deadline of a ban without escalation. -/
theorem sentence_le {w : Weighing} {prev d : Nat} (he : escalates w reason prev = false)
    (hd : sentence env w reason prev = some d) :
    w.diversityOk = true ∧ d ≤ env.unix + w.banSecs := by
  unfold sentence at hd
  dsimp only at hd
  rw [he, if_neg Bool.false_ne_true] at hd
  split at hd
  · next hok =>
    rw [Bool.and_eq_true] at hok
    cases hd
    refine ⟨hok.2, ?_⟩
    split
    · have := min_le_left w.banSecs reportRaidBanCapSecs
      omega
    · exact le_rfl
  · cases hd

/-- The books once a report is filed and its time noted. -/
def filed (s : ReportHub) (env : ReportEnv) (reporter user : UserId) : ReportHub :=
  (s.fileReporter reporter user).noteReportTime env user

theorem weigh_underage (s : ReportHub) (env : ReportEnv) (reporter user : UserId)
    (hu : isReason reason "underage" = true) :
    ∃ n, s.weigh env reporter user reason
      = (((s.filed env reporter user).noteUnderageReport env user reporter).1,
        ⟨n, true, true, false,
          !((s.filed env reporter user).noteUnderageReport env user reporter).2,
          if ((s.filed env reporter user).noteUnderageReport env user reporter).2
            then (reportSeverity reason).2 else underageHoldSecs⟩) := by
  refine ⟨(s.filed env reporter user).countingReportersForTarget env user true, ?_⟩
  unfold weigh
  simp only [hu, Bool.not_true, Bool.false_and, if_true]
  rfl

theorem weigh_other (s : ReportHub) (env : ReportEnv) (reporter user : UserId)
    (hu : isReason reason "underage" = false) :
    ∃ ok raid, s.weigh env reporter user reason
      = (if isReason reason "explicit_ai" then (s.filed env reporter user).noteExplicitAiHit env
            user else s.filed env reporter user,
        ⟨(s.filed env reporter user).countingReportersForTarget env user false, ok,
          minUniqueReporters reason
            ≤ (s.filed env reporter user).countingReportersForTarget env user false
            || (isReason reason "explicit_ai" && s.underageReportRecent env user), raid, false,
          if (isReason reason "explicit_ai" && s.underageReportRecent env user) = true
            then max (reportSeverity reason).2 (reportSeverity "underage").2
            else (reportSeverity reason).2⟩) := by
  unfold weigh
  cases hai : isReason reason "explicit_ai" with
  | true =>
      simp only [hu, Bool.true_and, Bool.false_eq_true, if_true, if_false]
      exact ⟨_, _, rfl⟩
  | false =>
      simp only [hu, Bool.false_and, Bool.false_eq_true, if_false]
      exact ⟨_, _, rfl⟩

/-- What the two notes leave alone is as filing left it. -/
theorem read_weigh {α : Type} (f : ReportHub → α)
    (hunder : ∀ s' : ReportHub, f (s'.noteUnderageReport env user reporter).1 = f s')
    (hai : ∀ s' : ReportHub, f (s'.noteExplicitAiHit env user) = f s') :
    f (s.weigh env reporter user reason).1 = f (s.filed env reporter user) := by
  cases hu : isReason reason "underage" with
  | true =>
      obtain ⟨n, hw⟩ := weigh_underage s env reporter user hu
      rw [hw]
      exact hunder _
  | false =>
      obtain ⟨ok, raid, hw⟩ := weigh_other s env reporter user hu
      rw [hw]
      split
      · exact hai _
      · rfl

-- ============================================================ the scored report

theorem ban_dossier : (s.dossier t).ban = s.hub.banUntil t := rfl

theorem hub_weigh : (s.weigh env reporter user reason).1.hub = s.hub :=
  read_weigh (·.hub) (fun _ => rfl) fun _ => rfl

theorem dossier_clawbackOnBan :
    (s.clawbackOnBan sha256 codec env user reason).dossier t = s.dossier t := by
  unfold clawbackOnBan
  dsimp only
  split
  · rfl
  · rfl

theorem dossier_banByReport (deadline : Nat) (hold : Bool) :
    (s.banByReport sha256 codec env user reason deadline hold).dossier t
      = { s.dossier t with ban := if t = user then deadline else (s.dossier t).ban } := by
  have hclaw : ∀ s' : ReportHub, (if hold then s' else s'.clawbackOnBan sha256 codec env user
      reason).dossier t = s'.dossier t := by
    intro s'
    split
    · rfl
    · exact dossier_clawbackOnBan
  have hset : (s.onHub fun h => { h with matchBans := h.matchBans.set user deadline }).dossier t
      = { s.dossier t with ban := if t = user then deadline else (s.dossier t).ban } := by
    show Dossier.mk _ _ _ _ _ (((s.hub.matchBans.set user deadline).get? t).getD 0) = _
    rw [Table.get?_set]
    by_cases ht : t = user
    · rw [if_pos ht, if_pos ht]
      rfl
    · rw [if_neg ht, if_neg ht]
      rfl
  unfold banByReport
  dsimp only
  rw [dossier_onHub, hclaw, hset]
  split
  · exact matchBans_of_bansOf (bansOf_kickBanned ..)
  · rfl

/-- A report files, and its ban is the sentence if that outlasts the present
one. -/
theorem dossier_scoredReport (s : ReportHub) (env : ReportEnv) (sha256 : String → List UInt8)
    (codec : Ledger.LineCodec) (t reporter user : UserId) (reason : String) (id : ConnId) :
    ∃ ban, (ban = s.hub.banUntil t ∨ (t = user
        ∧ sentence env (s.weigh env reporter user reason).2 reason (s.hub.banUntil user)
          = some ban))
      ∧ (s.scoredReport sha256 codec env id reporter user reason).dossier t
        = { (s.weigh env reporter user reason).1.dossier t with ban := ban } := by
  have hhub : (s.weigh env reporter user reason).1.hub = s.hub := hub_weigh
  unfold scoredReport
  generalize s.weigh env reporter user reason = p at hhub ⊢
  obtain ⟨f, w⟩ := p
  have hban : (f.dossier t).ban = s.hub.banUntil t := by
    rw [ban_dossier, hhub]
  dsimp only
  rw [dossier_onHub (matchBans_of_bansOf (by rw [bansOf_send, bansOf_status]))]
  cases hd : (sentence env w reason (s.hub.banUntil user)).filter
      (s.hub.banUntil user < ·) with
  | none =>
      refine ⟨_, .inl rfl, ?_⟩
      rw [← hban]
  | some d =>
      obtain ⟨hsome, -⟩ := Option.filter_eq_some_iff.mp hd
      dsimp only
      rw [dossier_banByReport]
      by_cases ht : t = user
      · rw [if_pos ht]
        exact ⟨d, .inr ⟨ht, hsome⟩, rfl⟩
      · rw [if_neg ht, hban]
        exact ⟨_, .inl rfl, rfl⟩

/-- A report by the one accuser adds no second voice. -/
theorem reportersOf_filed (env : ReportEnv) {u : UserId} (hr : s.reportersOf t ⊆ {u}) :
    (s.filed env u t).reportersOf t ⊆ {u} := by
  show (s.fileReporter u t).reportersOf t ⊆ {u}
  rw [reportersOf_file, if_pos rfl]
  exact Finset.insert_subset (Finset.mem_singleton_self u) hr

/-- The one entry about a minor is the new one. -/
theorem noteUnderageReport_single (s : ReportHub) (env : ReportEnv) {u : UserId}
    (hu : ∀ r ∈ s.underageReportsOf t, r.reporterUid = u)
    (hlen : (s.underageReportsOf t).length ≤ 1) :
    ∃ r : UnderageReport, r.reporterUid = u
      ∧ (s.noteUnderageReport env t u).1.underageReportsOf t = [r]
      ∧ (s.noteUnderageReport env t u).2
        = underageAction [r] (s.explicitAiRecent env t) env.unix := by
  have hups := upsert_single (r := ⟨u, s.reporterClusterKey u,
      s.reporterCountsTowardBan env u false, env.unix⟩) rfl
    (fun q hq => hu q (List.mem_of_mem_filter
      (p := fun r => decide (env.unix - r.at < underageWindowSecs)) hq))
    ((List.length_filter_le _ _).trans hlen)
  refine ⟨⟨u, s.reporterClusterKey u, s.reporterCountsTowardBan env u false, env.unix⟩, rfl,
    ?_, ?_⟩
  · unfold noteUnderageReport
    dsimp only
    rw [underageReportsOf_set, if_pos rfl, hups]
    rfl
  · unfold noteUnderageReport
    dsimp only
    rw [hups]
    rfl

theorem escalates_underage {w : Weighing} {prev : Nat}
    (hu : isReason reason "underage" = true) : escalates w reason prev = false := by
  have hlow : lower reason = lower "underage" := of_decide_eq_true hu
  have h₁ : isReason reason "explicit" = false := by
    unfold isReason
    rw [hlow]
    decide
  have h₂ : isReason reason "explicit_ai" = false := by
    unfold isReason
    rw [hlow]
    decide
  unfold escalates
  rw [h₁, h₂]
  rfl

theorem escalates_few {w : Weighing} {prev : Nat} (hw : w.countingReps ≤ 1) :
    escalates w reason prev = false := by
  have hthree : decide (reportPermanentMinReporters ≤ w.countingReps) = false := by
    have : reportPermanentMinReporters = 3 := rfl
    exact decide_eq_false (by omega)
  unfold escalates
  rw [hthree, Bool.and_false, Bool.false_and]

/-- A report of a minor by the one accuser. -/
theorem OneVoice.reportMinor {u : UserId} {cluster : String} {last : Nat} {mixed : Prop}
    {id : ConnId} (hv : OneVoice u cluster last mixed (s.dossier t)) (hl : last ≤ env.unix)
    (hu : isReason reason "underage" = true) :
    OneVoice u cluster env.unix (mixed ∨ Mixes s env t reason)
      ((s.scoredReport sha256 codec env id u t reason).dossier t) := by
  obtain ⟨n, hw⟩ := weigh_underage s env u t hu
  obtain ⟨r, hr, hlist, hact⟩ := noteUnderageReport_single (s.filed env u t) env hv.underage
    hv.single
  obtain ⟨ban, hban, hd⟩ := dossier_scoredReport s env sha256 codec t u t reason id
  rw [hw] at hban hd
  rw [hd]
  have hlater : OneVoice u cluster env.unix (mixed ∨ Mixes s env t reason) (s.dossier t) :=
    hv.later hl .inl
  have hbooks : ∀ ban, ban ≤ env.unix + 90 * daySecs →
      (¬ (mixed ∨ Mixes s env t reason) → ban ≤ env.unix + daySecs) →
      OneVoice u cluster env.unix (mixed ∨ Mixes s env t reason)
        { ((s.filed env u t).noteUnderageReport env t u).1.dossier t with ban := ban } :=
    fun ban hban hday =>
    { reporters := reportersOf_filed env hv.reporters
      underage := fun q hq => by
        change q ∈ ((s.filed env u t).noteUnderageReport env t u).1.underageReportsOf t at hq
        rw [hlist] at hq
        rw [List.mem_singleton.mp hq, hr]
      single := by
        show (((s.filed env u t).noteUnderageReport env t u).1.underageReportsOf t).length ≤ 1
        rw [hlist]
        exact le_rfl
      hits := hv.hits
      offenses := hv.offenses
      bounded := hban
      day := hday }
  rcases hban with rfl | ⟨-, hsent⟩
  · exact hbooks _ hlater.bounded hlater.day
  obtain ⟨-, hle⟩ := sentence_le (escalates_underage hu) hsent
  refine hbooks ban ?_ fun hn => ?_
  · refine hle.trans (Nat.add_le_add_left ?_ _)
    dsimp only
    split
    · exact reportSeverity_le reason
    · show daySecs ≤ 90 * daySecs
      omega
  · have hhold : ((s.filed env u t).noteUnderageReport env t u).2 = false := by
      rw [← Bool.not_eq_true]
      intro hact'
      rw [hact] at hact'
      exact hn (.inr (.inl ⟨hu, underageAction_single hact'⟩))
    dsimp only at hle
    rw [hhold, if_neg Bool.false_ne_true] at hle
    exact hle

/-- Any other report by the one accuser. -/
theorem OneVoice.reportOther {u : UserId} {cluster : String} {last : Nat} {mixed : Prop}
    {id : ConnId} (hv : OneVoice u cluster last mixed (s.dossier t)) (hl : last ≤ env.unix)
    (hu : isReason reason "underage" = false) (hp : ¬ Padded reason) :
    OneVoice u cluster env.unix (mixed ∨ Mixes s env t reason)
      ((s.scoredReport sha256 codec env id u t reason).dossier t) := by
  obtain ⟨ok, raid, hw⟩ := weigh_other s env u t hu
  obtain ⟨ban, hban, hd⟩ := dossier_scoredReport s env sha256 codec t u t reason id
  have hcount : (s.filed env u t).countingReportersForTarget env t false ≤ 1 :=
    countingReportersForTarget_le_one (reportersOf_filed env hv.reporters)
  rw [hw] at hban hd
  rw [hd]
  have hlater : OneVoice u cluster env.unix (mixed ∨ Mixes s env t reason) (s.dossier t) :=
    hv.later hl .inl
  have hbooks : ∀ ban, ban ≤ env.unix + 90 * daySecs →
      (¬ (mixed ∨ Mixes s env t reason) → ban ≤ env.unix + daySecs) →
      OneVoice u cluster env.unix (mixed ∨ Mixes s env t reason)
        { (if isReason reason "explicit_ai" then (s.filed env u t).noteExplicitAiHit env t
            else s.filed env u t).dossier t with ban := ban } := by
    intro ban hban hday
    have hr := reportersOf_filed env hv.reporters
    split
    · exact ⟨hr, hv.underage, hv.single, hv.hits, hv.offenses, hban, hday⟩
    · exact ⟨hr, hv.underage, hv.single, hv.hits, hv.offenses, hban, hday⟩
  rcases hban with rfl | ⟨-, hsent⟩
  · exact hbooks _ hlater.bounded hlater.day
  obtain ⟨hdiv, hle⟩ := sentence_le (escalates_few hcount) hsent
  -- too few for any bar, so a detector hit met a report of a minor
  have hcombo : (isReason reason "explicit_ai" && s.underageReportRecent env t) = true := by
    have hmin : 3 ≤ minUniqueReporters reason :=
      minUniqueReporters_of_not_underage fun hl => hp ⟨hl, hu⟩
    have hfew : decide (minUniqueReporters reason
        ≤ (s.filed env u t).countingReportersForTarget env t false) = false :=
      decide_eq_false (by omega)
    simp only [hfew, Bool.false_or] at hdiv
    exact hdiv
  rw [Bool.and_eq_true] at hcombo
  refine hbooks ban ?_ fun hn => absurd (.inr (.inr hcombo)) hn
  refine hle.trans (Nat.add_le_add_left ?_ _)
  dsimp only
  split
  · exact max_le (reportSeverity_le _) (reportSeverity_le _)
  · exact reportSeverity_le _

/-- **Step**: a report of the target by its one accuser. -/
theorem OneVoice.report {u : UserId} {cluster : String} {last : Nat} {mixed : Prop} {id : ConnId}
    (hv : OneVoice u cluster last mixed (s.dossier t)) (hl : last ≤ env.unix)
    (hp : ¬ Padded reason) :
    OneVoice u cluster env.unix (mixed ∨ Mixes s env t reason)
      ((s.scoredReport sha256 codec env id u t reason).dossier t) := by
  cases hu : isReason reason "underage" with
  | true => exact hv.reportMinor hl hu
  | false => exact hv.reportOther hl hu hp

-- ============================================================ about somebody else

theorem dossier_fileReporter (s : ReportHub) (reporter : UserId) (ht : t ≠ user) :
    (s.fileReporter reporter user).dossier t = s.dossier t := by
  show Dossier.mk ((s.fileReporter reporter user).reportersOf t) _ _ _ _ _ = _
  rw [reportersOf_file, if_neg ht]
  rfl

theorem dossier_filed (s : ReportHub) (env : ReportEnv) (reporter : UserId) (ht : t ≠ user) :
    (s.filed env reporter user).dossier t = s.dossier t := dossier_fileReporter s reporter ht

theorem dossier_weigh (ht : t ≠ user) :
    (s.weigh env reporter user reason).1.dossier t = s.dossier t := by
  have hunder : ∀ s' : ReportHub,
      (s'.noteUnderageReport env user reporter).1.dossier t = s'.dossier t := by
    intro s'
    show Dossier.mk _ ((s'.noteUnderageReport env user reporter).1.underageReportsOf t) _ _ _ _
      = _
    unfold noteUnderageReport
    dsimp only
    rw [underageReportsOf_set, if_neg ht]
    rfl
  have hai : ∀ s' : ReportHub, (s'.noteExplicitAiHit env user).dossier t = s'.dossier t := by
    intro s'
    show Dossier.mk _ _ ((s'.noteExplicitAiHit env user).explicitAiOf t) _ _ _ = _
    unfold noteExplicitAiHit
    dsimp only
    rw [explicitAiOf_set, if_neg ht]
    rfl
  rw [read_weigh (·.dossier t) hunder hai]
  exact dossier_filed s env reporter ht

theorem dossier_scoredReport_other (id : ConnId) (ht : t ≠ user) :
    (s.scoredReport sha256 codec env id reporter user reason).dossier t = s.dossier t := by
  obtain ⟨ban, hban, hd⟩ := dossier_scoredReport s env sha256 codec t reporter user reason id
  have hkeep : ban = s.hub.banUntil t := hban.resolve_right fun hsome => ht hsome.1
  rw [hd, dossier_weigh ht, hkeep]
  rfl

/-- An operator's ban of somebody else. -/
theorem banUntil_priorityReport (h : SimpleHub) (env : Env) (id : ConnId) (ht : t ≠ user) :
    (h.priorityReport env id user).banUntil t = h.banUntil t := by
  have hip : ∀ (h : SimpleHub) (ip : String), (h.raiseIpBan user ip).matchBans
      = h.matchBans := by
    intro h ip
    unfold SimpleHub.raiseIpBan
    split
    · rfl
    · rfl
  have hkick : ∀ (h : SimpleHub) (cid : ConnId), bansOf (if (h.get cid).any (·.userId = user)
      then h else h.kickBanned env [.matched, .waiting] cid "restricted by operator"
        "permanently restricted") = bansOf h := by
    intro h cid
    split
    · rfl
    · exact bansOf_kickBanned ..
  have hmod : ((h.applyPriorityModBan user (h.reportedIp user))).banUntil t = h.banUntil t := by
    unfold SimpleHub.applyPriorityModBan
    dsimp only
    unfold SimpleHub.banUntil
    rw [hip]
    split
    · show (h.raiseBan user SimpleHub.permanentBanUntil).banUntil t = _
      rw [banUntil_raiseBan, if_neg ht]
      rfl
    · rfl
  rw [← hmod]
  unfold SimpleHub.banUntil
  refine congrArg (fun b : Table UserId Nat => (b.get? t).getD 0) (matchBans_of_bansOf ?_)
  unfold SimpleHub.priorityReport
  dsimp only
  rw [bansOf_status, bansOf_foldl _ hkick]
  split
  · exact bansOf_kickBanned ..
  · rfl

theorem dossier_priorityReport (id : ConnId) (ht : t ≠ user) :
    (s.priorityReport sha256 codec env id reporter user reason).dossier t = s.dossier t := by
  have hhub : ∀ s' : ReportHub, (s'.onHub fun h => h.priorityReport env.toEnv id user).dossier t
      = s'.dossier t := by
    intro s'
    exact dossier_onHub_of_ban (banUntil_priorityReport _ _ _ ht)
  unfold priorityReport
  dsimp only
  rw [hhub]
  split
  · rw [dossier_clawbackOnBan, dossier_fileReporter s reporter ht]
  · exact dossier_fileReporter s reporter ht

-- ================================================================ detector hits

/-- A detector hit names the target. -/
def GenitalHitIn.About (hit : GenitalHitIn) (t : UserId) : Prop :=
  t = takeChars 80 (trim hit.targetUserId)

instance (hit : GenitalHitIn) (t : UserId) : Decidable (hit.About t) :=
  inferInstanceAs (Decidable (_ = _))

/-- What a hit is weighed against. -/
def guardsOn (s : ReportHub) (env : ReportEnv) (reporter target : UserId) : Guards where
  targetSenior := seniorReporterStars ≤ s.effectiveTrustFor env target
  mutualFeud := s.genital.reportedBack target reporter env.unixMs || s.mutualFeud reporter target

/-- What the ladder answers to a hit of `id` in this match. -/
def hitRecord (s : ReportHub) (env : ReportEnv) (id : ConnId) (target : UserId) (kind : HitKind)
    (sid : SessionId) : GenitalLedger × Decision :=
  s.genital.record target
    ⟨s.hub.userOf id, s.reporterClusterKey (s.hub.userOf id), sid, kind, env.unixMs⟩
    (s.guardsOn env (s.hub.userOf id) target) env.unixMs

/-- A hit that the handler lets through to the ladder, or a refusal. -/
theorem handleGenitalHit_cases (s : ReportHub) (env : ReportEnv) (id : ConnId)
    (hit : GenitalHitIn) :
    (∃ why, s.handleGenitalHit sha256 codec env id hit
        = s.onHub (·.send id (.genitalHitResult false false why)))
      ∨ ∃ tid sid kind r, parseKind hit.kind = some kind
          ∧ s.hub.genitalBinding env.toEnv id (takeChars 80 (trim hit.targetUserId))
            = .ok (tid, sid)
          ∧ s.hitRecord env id (takeChars 80 (trim hit.targetUserId)) kind sid = r
          ∧ s.handleGenitalHit sha256 codec env id hit
            = match r.2 with
              | .reject why => { s with genital := r.1 }.onHub
                  (·.send id (.genitalHitResult false false why))
              | .counted why => { s with genital := r.1 }.onHub
                  (·.send id (.genitalHitResult true false why))
              | .ban b => { s with genital := r.1 }.banByHit sha256 codec env id tid
                  (takeChars 80 (trim hit.targetUserId)) b := by
  unfold handleGenitalHit
  dsimp only
  split
  · exact .inl ⟨_, rfl⟩
  split
  · exact .inl ⟨_, rfl⟩
  · exact .inl ⟨_, rfl⟩
  next kind _ hkind =>
  split
  · exact .inl ⟨_, rfl⟩
  next tid sid hbound =>
  split
  · exact .inl ⟨_, rfl⟩
  · refine .inr ⟨tid, sid, kind, _, hkind, hbound, rfl, ?_⟩
    unfold hitRecord guardsOn
    generalize s.genital.record _ _ _ _ = r
    obtain ⟨g, d⟩ := r
    cases d
    · rfl
    · rfl
    · rfl

/-- The ladder's ban of a target. -/
theorem dossier_banByHit (id tid : ConnId) (b : Ban) :
    ((s.banByHit sha256 codec env id tid user b).dossier t).ban
      = if t = user then max (s.hub.banUntil user)
          (if b.permanent then SimpleHub.permanentBanUntil else env.unix + b.secs)
        else s.hub.banUntil t := by
  rw [← banUntil_raiseBan]
  show ((((s.clawbackOnBan sha256 codec env user "genitals").noteExplicitAiHit env
    user).hub.genitalBan env.toEnv id tid user b.secs b.permanent).matchBans.get? t).getD 0 = _
  rw [matchBans_genitalBan, hub_noteExplicitAiHit, hub_clawbackOnBan]
  rfl

theorem offensesOf_saveGenitalBook (s : ReportHub) (env : ReportEnv) (t : UserId) :
    (s.saveGenitalBook env).genital.offensesOf t
      = (s.genital.offensesOf t).filter (GenitalLedger.young env.unix) :=
  GenitalLedger.offensesOf_gc s.genital env.unix t

/-- The ladder's ban moves the deadline and the detector times, and drops old
offenses. -/
theorem dossier_banByHit_eq (id tid : ConnId) (b : Ban) :
    ∃ ai, (s.banByHit sha256 codec env id tid user b).dossier t
      = { s.dossier t with
          offenses := (s.genital.offensesOf t).filter (GenitalLedger.young env.unix)
          explicitAi := ai
          ban := ((s.banByHit sha256 codec env id tid user b).dossier t).ban } := by
  refine ⟨((s.banByHit sha256 codec env id tid user b).dossier t).explicitAi, ?_⟩
  have hclaw : (s.clawbackOnBan sha256 codec env user "genitals").dossier t = s.dossier t :=
    dossier_clawbackOnBan
  have hgenital : (s.clawbackOnBan sha256 codec env user "genitals").genital.offensesOf t
      = s.genital.offensesOf t := congrArg Dossier.offenses hclaw
  rw [← hclaw, ← hgenital, ← offensesOf_saveGenitalBook _ env]
  rfl

theorem OneVoice.banByHit {u : UserId} {cluster : String} {last last' : Nat} {mixed : Prop}
    {id tid : ConnId} {b : Ban} (hv : OneVoice u cluster last mixed (s.dossier t))
    (hl : last ≤ last') (hb : t = user → env.unix ≤ last'
      ∧ b.secs = GenitalLedger.ladderFirstSecs ∧ b.permanent = false) :
    OneVoice u cluster last' mixed
      ((s.banByHit sha256 codec env id tid user b).dossier t) := by
  have hlater := hv.later hl fun hm : mixed => hm
  have hbound : (s.dossier t).ban ≤ last' + 90 * daySecs := hlater.bounded
  have hle : ((s.banByHit sha256 codec env id tid user b).dossier t).ban
      ≤ max (s.dossier t).ban (last' + daySecs) := by
    rw [dossier_banByHit id tid b]
    split
    · next ht =>
      obtain ⟨hunix, hsecs, hperm⟩ := hb ht
      rw [hsecs, hperm, if_neg Bool.false_ne_true, ht]
      exact max_le_max le_rfl (Nat.add_le_add_right hunix _)
    · exact le_max_left _ _
  obtain ⟨ai, hd⟩ : ∃ ai, (s.banByHit sha256 codec env id tid user b).dossier t = _ :=
    dossier_banByHit_eq id tid b
  rw [hd]
  refine ⟨hv.reporters, hv.underage, hv.single, hv.hits,
    fun o ho => hv.offenses o (List.mem_of_mem_filter ho), ?_, fun hn => ?_⟩
  · refine hle.trans (max_le hbound (Nat.add_le_add_left ?_ _))
    omega
  · exact hle.trans (max_le (hlater.day hn) le_rfl)

/-- The books after a hit is recorded, and the ban it may make. -/
theorem OneVoice.recorded {u : UserId} {cluster : String} {last : Nat} {mixed : Prop}
    {target : UserId} {hit : Hit} {guards : Guards} {nowMs : Nat}
    (hv : OneVoice u cluster last mixed (s.dossier t))
    (hc : t = target → hit.reporterCluster = cluster) :
    OneVoice u cluster last mixed
        (dossier { s with genital := (s.genital.record target hit guards nowMs).1 } t)
      ∧ (t = target → ∀ b, (s.genital.record target hit guards nowMs).2 = .ban b →
        b.secs = GenitalLedger.ladderFirstSecs ∧ b.permanent = false) := by
  by_cases ht : t = target
  · subst ht
    have hspec : GenitalLedger.Recorded t cluster (s.genital.record t hit guards nowMs).1
        (s.genital.record t hit guards nowMs).2 :=
      GenitalLedger.record_spec hv.hits hv.offenses (hc rfl)
    exact ⟨⟨hv.reporters, hv.underage, hv.single, hspec.hits, hspec.offenses, hv.bounded,
      hv.day⟩, fun _ => hspec.step⟩
  · obtain ⟨hhits, hoffenses⟩ : (s.genital.record target hit guards nowMs).1.hitsOf t = _
        ∧ (s.genital.record target hit guards nowMs).1.offensesOf t = _ :=
      GenitalLedger.record_other ht
    refine ⟨⟨hv.reporters, hv.underage, hv.single, ?_, ?_, hv.bounded, hv.day⟩,
      fun h => absurd h ht⟩
    · show ∀ h ∈ (s.genital.record target hit guards nowMs).1.hitsOf t,
        h.reporterCluster = cluster
      rw [hhits]
      exact hv.hits
    · show ∀ o ∈ (s.genital.record target hit guards nowMs).1.offensesOf t,
        o.reporterClusters ⊆ {cluster}
      rw [hoffenses]
      exact hv.offenses

/-- **Step**: a detector hit, about anybody; about the target its sender
speaks in the one cluster. -/
theorem OneVoice.hit {u : UserId} {cluster : String} {last last' : Nat} {mixed : Prop}
    {id : ConnId} {hit : GenitalHitIn} (hv : OneVoice u cluster last mixed (s.dossier t))
    (hl : last ≤ last') (hc : hit.About t → env.unix ≤ last'
      ∧ s.reporterClusterKey (s.hub.userOf id) = cluster) :
    OneVoice u cluster last' mixed
      ((s.handleGenitalHit sha256 codec env id hit).dossier t) := by
  rcases handleGenitalHit_cases s env id hit with
    ⟨why, hrefuse⟩ | ⟨tid, sid, kind, r, -, -, hr, hrecord⟩
  · rw [hrefuse, dossier_onHub rfl]
    exact hv.later hl fun hm => hm
  have hcluster : t = takeChars 80 (trim hit.targetUserId) →
      s.reporterClusterKey (s.hub.userOf id) = cluster := fun ht => (hc ht).2
  have hrecorded : OneVoice u cluster last mixed (dossier { s with genital := (s.hitRecord env id
        (takeChars 80 (trim hit.targetUserId)) kind sid).1 } t)
      ∧ (hit.About t → ∀ b, (s.hitRecord env id (takeChars 80 (trim hit.targetUserId)) kind
          sid).2 = .ban b → b.secs = GenitalLedger.ladderFirstSecs ∧ b.permanent = false) := by
    unfold hitRecord GenitalHitIn.About
    generalize hh : (⟨s.hub.userOf id, s.reporterClusterKey (s.hub.userOf id), sid, kind,
      env.unixMs⟩ : Hit) = h
    have hown : h.reporterCluster = s.reporterClusterKey (s.hub.userOf id) := by rw [← hh]
    exact hv.recorded fun ht => hown.trans (hcluster ht)
  obtain ⟨hbooks, hstep⟩ := hrecorded
  rw [hr] at hbooks hstep
  rw [hrecord]
  cases hd : r.2 with
  | reject why =>
      dsimp only
      rw [dossier_onHub rfl]
      exact hbooks.later hl fun hm => hm
  | counted why =>
      dsimp only
      rw [dossier_onHub rfl]
      exact hbooks.later hl fun hm => hm
  | ban b => exact hbooks.banByHit hl fun ht => ⟨(hc ht).1, hstep ht b hd⟩

-- ==================================================================== reports

/-- A report about the target is filed: its sender is not refused. -/
def files (s : ReportHub) (env : ReportEnv) (id : ConnId) (raw : String) (t : UserId) : Bool :=
  decide (s.hub.resolveTargetUserId env.toEnv raw = some t)
    && (s.hub.get id).any fun c => c.userId ≠ t
      && (recentOwn env c).length < SimpleHub.reportRatePerHour

/-- Whoever reports the target is the one accuser, an ordinary user who
spells a report of a minor out. -/
def Accuses (s : ReportHub) (env : ReportEnv) (id : ConnId) (raw reason : String)
    (t u : UserId) : Prop :=
  s.hub.resolveTargetUserId env.toEnv raw = some t → ∀ c, s.hub.get id = some c →
    c.userId = u ∧ SimpleHub.isPriorityModReporter c.userId c.shortId c.friendCode = false
      ∧ ¬ Padded (filedReason reason)

instance (reason : String) : Decidable (Padded reason) := inferInstanceAs (Decidable (_ ∧ _))

instance (s : ReportHub) (env : ReportEnv) (t : UserId) (reason : String) :
    Decidable (Mixes s env t reason) := inferInstanceAs (Decidable (_ ∨ _))

/-- **Step**: a report about anybody, by the one accuser when it is about
the target. -/
theorem OneVoice.reported {u : UserId} {cluster : String} {last last' : Nat} {mixed : Prop}
    {id : ConnId} {raw : String} (hv : OneVoice u cluster last mixed (s.dossier t))
    (hl : last ≤ last')
    (hu : s.hub.resolveTargetUserId env.toEnv raw = some t → last' = env.unix)
    (ha : s.Accuses env id raw reason t u) :
    OneVoice u cluster last'
      (mixed ∨ (s.files env id raw t = true ∧ Mixes s env t (filedReason reason)))
      ((s.handleReportUser sha256 codec env id raw reason).dossier t) := by
  have hlater := hv.later hl fun hm : mixed => Or.inl
    (b := s.files env id raw t = true ∧ Mixes s env t (filedReason reason)) hm
  unfold handleReportUser
  cases hres : s.hub.resolveTargetUserId env.toEnv raw with
  | none =>
      dsimp only
      rw [dossier_onHub rfl]
      exact hlater
  | some user =>
    cases hc : s.hub.get id with
    | none => exact hlater
    | some c =>
      dsimp only
      split
      · rw [dossier_onHub rfl]
        exact hlater
      next hself =>
      split
      · rw [dossier_onHub rfl]
        exact hlater
      next hrate =>
      have hnoted : ∀ f : Client → Client,
          (s.onHub (·.modify id f)).dossier t = s.dossier t := fun f => dossier_onHub rfl
      by_cases ht : t = user
      · subst ht
        obtain ⟨rfl, hmod, hp⟩ := ha hres c hc
        have hfiles : s.files env id raw t = true := by
          unfold files
          rw [hres, hc]
          simpa [hself] using hrate
        rw [hmod, if_neg Bool.false_ne_true]
        rw [← hnoted fun c => { c with reportTimes := recentOwn env c ++ [env.now] }] at hv
        rw [hu hres] at hl ⊢
        exact (hv.report hl hp).later le_rfl fun hm => hm.imp_right fun h => ⟨hfiles, h⟩
      · split
        · rw [dossier_priorityReport id ht, hnoted]
          exact hlater
        · rw [dossier_scoredReport_other id ht, hnoted]
          exact hlater

-- =================================================================== pardons

theorem dossier_adminUnban (s : ReportHub) (env : ReportEnv) (raw : String) (t : UserId) :
    (s.adminUnban env raw).dossier t
      = { s.dossier t with
          hits := (s.adminUnban env raw).genital.hitsOf t
          offenses := (s.adminUnban env raw).genital.offensesOf t
          ban := (s.hub.adminUnban raw).banUntil t } := by
  unfold adminUnban
  generalize s.hub.adminUnban raw = hub
  rfl

/-- An operator's pardon raises no ban. -/
theorem banUntil_adminUnban (h : SimpleHub) (raw : String) :
    (h.adminUnban raw).banUntil t ≤ h.banUntil t := by
  unfold SimpleHub.adminUnban
  dsimp only
  split
  · exact le_rfl
  · show ((h.matchBans.del (trim raw)).get? t).getD 0 ≤ (h.matchBans.get? t).getD 0
    rw [Table.get?_del]
    split
    · exact Nat.zero_le _
    · exact le_rfl

theorem hitsOf_adminUnban (raw : String) :
    (s.adminUnban env raw).genital.hitsOf t = s.genital.hitsOf t := by
  unfold adminUnban
  dsimp only
  split
  · rfl
  · split
    · rfl
    · rfl

theorem offensesOf_adminUnban (raw : String) {cluster : String}
    (ho : ∀ o ∈ s.genital.offensesOf t, o.reporterClusters ⊆ {cluster}) :
    ∀ o ∈ (s.adminUnban env raw).genital.offensesOf t, o.reporterClusters ⊆ {cluster} := by
  unfold adminUnban
  dsimp only
  split
  · exact ho
  · split
    · exact fun o hmem =>
        GenitalLedger.offensesOf_overturnRecent ho o (GenitalLedger.mem_gc hmem)
    · exact ho

/-- **Step**: a pardon of anybody. -/
theorem OneVoice.unban {u : UserId} {cluster : String} {last : Nat} {mixed : Prop}
    (hv : OneVoice u cluster last mixed (s.dossier t)) (env : ReportEnv) (raw : String) :
    OneVoice u cluster last mixed ((s.adminUnban env raw).dossier t) := by
  have hban : (s.hub.adminUnban raw).banUntil t ≤ s.hub.banUntil t :=
    banUntil_adminUnban _ _
  have hoffenses : ∀ o ∈ (s.adminUnban env raw).genital.offensesOf t,
      o.reporterClusters ⊆ {cluster} := offensesOf_adminUnban raw hv.offenses
  rw [dossier_adminUnban, hitsOf_adminUnban]
  generalize (s.hub.adminUnban raw).banUntil t = ban at hban ⊢
  generalize (s.adminUnban env raw).genital.offensesOf t = offenses at hoffenses ⊢
  exact ⟨hv.reporters, hv.underage, hv.single, hv.hits, hoffenses, hban.trans hv.bounded,
    fun hn => hban.trans (hv.day hn)⟩

-- =================================================================== the trial

/-- What happens to a target: accusations, an operator's pardon, and
everything else the hub does, which writes no book about the target. -/
inductive Move where
  | report (env : ReportEnv) (id : ConnId) (raw reason : String)
  | hit (env : ReportEnv) (id : ConnId) (hit : GenitalHitIn)
  | unban (env : ReportEnv) (raw : String)
  | elsewhere (hub : SimpleHub) (store : Ledger.Store)

/-- The books, the time of the last accusation of the target, and whether a
report of a minor has met a detector hit. -/
structure Trial where
  books : ReportHub
  last : Nat
  mixed : Bool

/-- The accusations of `t` come from `u` in one network. -/
def Trial.Admits (t u : UserId) (cluster : String) (q : Trial) : Move → Prop
  | .report env id raw reason =>
      q.last ≤ env.unix ∧ q.books.Accuses env id raw reason t u
  | .hit env id hit => q.last ≤ env.unix ∧ (hit.About t →
      q.books.hub.userOf id = u ∧ q.books.reporterClusterKey u = cluster)
  | .unban _ _ => True
  | .elsewhere hub _ => hub.banUntil t = q.books.hub.banUntil t

/-- One move, with the history of the target. -/
def Trial.next (sha256 : String → List UInt8) (codec : Ledger.LineCodec) (t : UserId)
    (q : Trial) : Move → Trial
  | .report env id raw reason =>
      { books := q.books.handleReportUser sha256 codec env id raw reason
        last := if q.books.hub.resolveTargetUserId env.toEnv raw = some t then env.unix
          else q.last
        mixed := q.mixed || (q.books.files env id raw t
          && decide (Mixes q.books env t (filedReason reason))) }
  | .hit env id hit =>
      { q with
        books := q.books.handleGenitalHit sha256 codec env id hit
        last := if hit.About t then env.unix else q.last }
  | .unban env raw => { q with books := q.books.adminUnban env raw }
  | .elsewhere hub store => { q with books := { q.books with hub := hub, store := store } }

/-- Before the first accusation nothing is on file. -/
def trialMachine (sha256 : String → List UInt8) (codec : Ledger.LineCodec) (t u : UserId)
    (cluster : String) : Machine Trial Move where
  start q := q.books.dossier t = ⟨∅, [], [], [], [], 0⟩ ∧ q.last = 0 ∧ q.mixed = false
  step q m q' := q.Admits t u cluster m ∧ q' = q.next sha256 codec t m

/-- **Step**: one move of the trial. -/
theorem OneVoice.next {u : UserId} {cluster : String} {q : Trial} {m : Move}
    (hv : OneVoice u cluster q.last (q.mixed = true) (q.books.dossier t))
    (hadm : q.Admits t u cluster m) :
    OneVoice u cluster (q.next sha256 codec t m).last ((q.next sha256 codec t m).mixed = true)
      ((q.next sha256 codec t m).books.dossier t) := by
  cases m with
  | report env id raw reason =>
      obtain ⟨hl, ha⟩ := hadm
      dsimp only [Trial.next]
      rw [Bool.or_eq_true, Bool.and_eq_true, decide_eq_true_eq]
      refine hv.reported ?_ (fun hres => if_pos hres) ha
      split
      · exact hl
      · exact le_rfl
  | hit env id hit =>
      obtain ⟨hl, hu⟩ := hadm
      dsimp only [Trial.next]
      refine hv.hit ?_ fun ht => ?_
      · split
        · exact hl
        · exact le_rfl
      · obtain ⟨huser, hcluster⟩ := hu ht
        rw [if_pos ht, huser]
        exact ⟨le_rfl, hcluster⟩
  | unban env raw =>
      dsimp only [Trial.next]
      exact hv.unban env raw
  | elsewhere hub store =>
      dsimp only [Trial.next]
      have hban : hub.banUntil t = q.books.hub.banUntil t := hadm
      exact {
        reporters := hv.reporters
        underage := hv.underage
        single := hv.single
        hits := hv.hits
        offenses := hv.offenses
        bounded := hban.le.trans hv.bounded
        day := fun hn => hban.le.trans (hv.day hn) }

/-- **Invariant**: the dossier of the target holds one voice. -/
theorem oneVoice_trial {u : UserId} {cluster : String} {q : Trial}
    (hq : (trialMachine sha256 codec t u cluster).Reach q) :
    OneVoice u cluster q.last (q.mixed = true) (q.books.dossier t) := by
  induction hq with
  | @start q h =>
      obtain ⟨hd, hl, hm⟩ := h
      rw [hd]
      exact ⟨Finset.empty_subset _, by simp, Nat.zero_le _, by simp, by simp, Nat.zero_le _,
        fun _ => Nat.zero_le _⟩
  | @step q q' m hr hs ih =>
      obtain ⟨hadm, rfl⟩ := hs
      exact ih.next hadm

/-- **One accuser has a target paused for a day at most**, counted from the
last accusation, unless a report of a minor meets a detector hit within a
week; then it is ninety days at most. It is never for good. -/
theorem single_accuser_bounded {u : UserId} {cluster : String} {q : Trial}
    (hq : (trialMachine sha256 codec t u cluster).Reach q) :
    (q.mixed = false → q.books.hub.banUntil t ≤ q.last + daySecs)
      ∧ q.books.hub.banUntil t ≤ q.last + 90 * daySecs
      ∧ (q.last + 90 * daySecs < SimpleHub.permanentBanUntil →
        q.books.hub.banUntil t < SimpleHub.permanentBanUntil) := by
  have hv := oneVoice_trial hq
  have hbound : q.books.hub.banUntil t ≤ q.last + 90 * daySecs := hv.bounded
  refine ⟨fun hm => hv.day ?_, hbound, hbound.trans_lt⟩
  rw [hm]
  exact Bool.false_ne_true

-- ============================================================ a concrete trial

/-- A trial of the absent user over a fresh file. -/
def trialOver (h : SimpleHub) : Trial := ⟨blank h, 0, false⟩

/-- The first client reports the absent user. -/
def reportAbsent (now : Instant) (reason : String) : Move :=
  .report (plainReportEnv now) 1 absentUser reason

/-- The first client goes by `u1` and is no operator. -/
def ordinaryFirst (s : ReportHub) : Bool :=
  (s.hub.get 1).any fun c => c.userId = "u1"
    && !SimpleHub.isPriorityModReporter c.userId c.shortId c.friendCode

theorem admits_of_ordinaryFirst {q : Trial} {now : Instant} (hl : q.last ≤ now / 1000)
    (h : ordinaryFirst q.books = true) (hp : ¬ Padded (filedReason reason)) :
    q.Admits t "u1" "net:203.0.113" (reportAbsent now reason) := by
  refine ⟨hl, fun _ c hc => ?_⟩
  unfold ordinaryFirst at h
  rw [hc, Option.any_some, Bool.and_eq_true, Bool.not_eq_true', decide_eq_true_eq] at h
  exact ⟨h.1, h.2, hp⟩

theorem start_trialOver {h : SimpleHub} (hb : h.banUntil absentUser = 0) :
    (trialMachine sha256 codec absentUser "u1" "net:203.0.113").start (trialOver h) := by
  refine ⟨?_, rfl, rfl⟩
  show Dossier.mk _ _ _ _ _ (h.banUntil absentUser) = _
  rw [hb]
  rfl

theorem not_padded_underage : ¬ Padded (filedReason "underage") := by decide

theorem not_padded_explicit_ai : ¬ Padded (filedReason "explicit_ai") := by decide

/-- The trial with concrete hashes and lines. -/
def plainTrial : Machine Trial Move :=
  trialMachine (fun _ => []) Ledger.compactCodec absentUser "u1" "net:203.0.113"

/-- A report of a minor pauses the absent user for a day. -/
theorem single_accuser_bounded_paused : ∃ q, plainTrial.Reach q
    ∧ q.books.hub.banUntil absentUser = 86400 ∧ q.mixed = false
    ∧ q.books.hub.banUntil absentUser ≤ q.last + daySecs := by
  obtain ⟨w, hw, hp⟩ := @reach_of_replay plainSys 2 fourConnect (fun w =>
    let q := (trialOver w.hub).next (fun _ => []) Ledger.compactCodec absentUser
      (reportAbsent 0 "underage")
    ordinaryFirst (trialOver w.hub).books && decide (w.hub.banUntil absentUser = 0)
      && decide (q.books.hub.banUntil absentUser = 86400) && !q.mixed)
    (by decide)
  simp only [Bool.and_eq_true, decide_eq_true_eq, Bool.not_eq_true'] at hp
  obtain ⟨⟨⟨hfirst, hstart⟩, hban⟩, hmixed⟩ := hp
  have hq : plainTrial.Reach ((trialOver w.hub).next (fun _ => []) Ledger.compactCodec
      absentUser (reportAbsent 0 "underage")) :=
    .step (.start (start_trialOver hstart))
      ⟨admits_of_ordinaryFirst le_rfl hfirst not_padded_underage, rfl⟩
  exact ⟨_, hq, hban, hmixed, (single_accuser_bounded hq).1 hmixed⟩

/-- A detector report and then a report of a minor, by the same user at
once: the absent user is banned for thirty days. -/
theorem single_accuser_exceeds_day : ∃ q, plainTrial.Reach q
    ∧ q.last + daySecs < q.books.hub.banUntil absentUser := by
  obtain ⟨w, hw, hp⟩ := @reach_of_replay plainSys 2 fourConnect (fun w =>
    let q₁ := (trialOver w.hub).next (fun _ => []) Ledger.compactCodec absentUser
      (reportAbsent 0 "explicit_ai")
    let q₂ := q₁.next (fun _ => []) Ledger.compactCodec absentUser (reportAbsent 0 "underage")
    ordinaryFirst (trialOver w.hub).books && decide (w.hub.banUntil absentUser = 0)
      && ordinaryFirst q₁.books && decide (q₁.last = 0)
      && decide (q₂.last + daySecs < q₂.books.hub.banUntil absentUser))
    (by decide)
  simp only [Bool.and_eq_true, decide_eq_true_eq] at hp
  obtain ⟨⟨⟨⟨hfirst, hstart⟩, hagain⟩, hlast⟩, hexceeds⟩ := hp
  have hq : plainTrial.Reach ((trialOver w.hub).next (fun _ => []) Ledger.compactCodec
      absentUser (reportAbsent 0 "explicit_ai")) :=
    .step (.start (start_trialOver hstart))
      ⟨admits_of_ordinaryFirst le_rfl hfirst not_padded_explicit_ai, rfl⟩
  exact ⟨_, .step hq ⟨admits_of_ordinaryFirst hlast.le hagain not_padded_underage, rfl⟩,
    hexceeds⟩

end ReportHub

end Ruletka
