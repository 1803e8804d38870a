/-
What dropping old offenses does to the ladder.

The level of a new offense counts standing offenses that are younger than the
time to live, so it never meets one that was dropped. The loss of the solo
path has no such bound: it lasts as long as an overturned offense of the
reporter is on the book, and with the last of them it is forgotten.
-/
import Ruletka.Report.Proofs.Ladder

namespace Ruletka

/-- The ban a decision gives, if it gives one. -/
def Decision.banned : Decision → Option Ban
  | .ban b => some b
  | _ => none

namespace GenitalLedger

variable {g : GenitalLedger} {target : UserId} {hit : Hit} {guards : Guards}
  {now later nowMs : Nat}

-- ====================================================================== the book

/-- Dropping takes no standing offense from a later reader. -/
theorem priorOffenses_gc (hl : now ≤ later) (target : UserId) :
    (g.gc now).priorOffenses target later = g.priorOffenses target later := by
  unfold priorOffenses
  rw [offensesOf_gc, List.filter_filter]
  apply List.filter_congr
  intro o _
  have hyoung : later - o.at < offenseTtlSecs → young now o = true := fun h => by
    unfold young
    rw [decide_eq_true_eq]
    omega
  by_cases hlate : later - o.at < offenseTtlSecs
  · rw [hyoung hlate, Bool.and_true]
  · rw [decide_eq_false hlate, Bool.and_false, Bool.false_and]

theorem nextLevel_gc (hl : now ≤ later) (target : UserId) (clusters : Finset String) :
    (g.gc now).nextLevel target clusters later = g.nextLevel target clusters later := by
  unfold nextLevel
  rw [priorOffenses_gc hl]

theorem reporterOverturned_iff (reporter : UserId) : g.reporterOverturned reporter = true ↔
    ∃ t, ∃ o ∈ g.offensesOf t, o.overturned = true ∧ reporter ∈ o.reporterUids := by
  unfold reporterOverturned
  rw [decide_eq_true_eq]
  simp only [List.any_eq_true, Bool.and_eq_true, decide_eq_true_eq]
  constructor
  · intro ⟨t, _, ho⟩
    exact ⟨t, ho⟩
  · intro ⟨t, o, ho, hover⟩
    refine ⟨t, ?_, o, ho, hover⟩
    rw [Table.mem_keys_iff]
    cases hget : g.offenses.get? t with
    | some l => rfl
    | none =>
        unfold offensesOf at ho
        rw [hget] at ho
        cases ho

/-- The reporter is behind an overturned offense, and each of them is old
enough to be dropped. -/
def Forgotten (g : GenitalLedger) (now : Nat) (reporter : UserId) : Prop :=
  g.reporterOverturned reporter = true
    ∧ ∀ t, ∀ o ∈ g.offensesOf t, o.overturned = true → reporter ∈ o.reporterUids →
      offenseTtlSecs ≤ now - o.at

theorem reporterOverturned_gc (reporter : UserId) :
    (g.gc now).reporterOverturned reporter = true ↔
      g.reporterOverturned reporter = true ∧ ¬ g.Forgotten now reporter := by
  rw [reporterOverturned_iff]
  constructor
  · intro ⟨t, o, ho, hover, hmem⟩
    rw [offensesOf_gc, List.mem_filter] at ho
    have hyoung := of_decide_eq_true ho.2
    refine ⟨reporterOverturned_iff reporter |>.mpr ⟨t, o, ho.1, hover, hmem⟩, fun hold => ?_⟩
    have := hold.2 t o ho.1 hover hmem
    omega
  · intro ⟨hover, hyoung⟩
    unfold Forgotten at hyoung
    push Not at hyoung
    obtain ⟨t, o, ho, hov, hmem, hlt⟩ := hyoung hover
    refine ⟨t, o, ?_, hov, hmem⟩
    rw [offensesOf_gc]
    exact List.mem_filter.mpr ⟨ho, decide_eq_true hlt⟩

theorem reporterOverturned_gc_eq {reporter : UserId} (hf : ¬ g.Forgotten now reporter) :
    (g.gc now).reporterOverturned reporter = g.reporterOverturned reporter := by
  rw [Bool.eq_iff_iff, reporterOverturned_gc]
  exact ⟨fun h => h.1, fun h => ⟨h, hf⟩⟩

-- ====================================================================== the call

/-- The ban that a call ends in, given whether its reporter may convict
alone. -/
def bannedIf (g : GenitalLedger) (target : UserId) (hit : Hit) (guards : Guards) (nowMs : Nat)
    (solo : Bool) : Option Ban :=
  if reporterRatePerHour ≤ (g.rateQueue hit.reporterUid nowMs).length then none
  else if crossReady (g.fileWith target hit nowMs) hit guards then
    ((g.withHit target hit nowMs).convict target "cross"
      ((g.fileWith target hit nowMs).map (·.reporterUid)).toFinset
      (voiceClusters (g.fileWith target hit nowMs) hit guards) nowMs).2.banned
  else if sessionReady (g.fileWith target hit nowMs) hit nowMs && solo then
    ((g.withHit target hit nowMs).convict target "session" {hit.reporterUid}
      {hit.reporterCluster} nowMs).2.banned
  else none

theorem banned_record (g : GenitalLedger) (target : UserId) (hit : Hit) (guards : Guards)
    (nowMs : Nat) : (g.record target hit guards nowMs).2.banned
      = g.bannedIf target hit guards nowMs (g.soloOk hit guards nowMs) := by
  unfold record bannedIf
  dsimp only
  by_cases hr : reporterRatePerHour ≤ (g.rateQueue hit.reporterUid nowMs).length
  · rw [if_pos hr, if_pos (by exact hr)]
    rfl
  rw [if_neg hr, if_neg (by exact hr)]
  by_cases hx : crossReady (g.fileWith target hit nowMs) hit guards = true
  · rw [if_pos hx, if_pos (by exact hx)]
    rfl
  rw [if_neg hx, if_neg (by exact hx)]
  by_cases hs : (sessionReady (g.fileWith target hit nowMs) hit nowMs
      && g.soloOk hit guards nowMs) = true
  · rw [if_pos hs, if_pos (by exact hs)]
    rfl
  · rw [if_neg hs, if_neg (by exact hs)]
    rfl

/-- Apart from what is remembered of the reporter, dropping old offenses
leaves no mark on a call. -/
theorem bannedIf_gc (hl : now ≤ nowMs / 1000) (solo : Bool) :
    (g.gc now).bannedIf target hit guards nowMs solo
      = g.bannedIf target hit guards nowMs solo := by
  have hconvict : ∀ path uids clusters,
      (((g.gc now).withHit target hit nowMs).convict target path uids clusters nowMs).2.banned
        = ((g.withHit target hit nowMs).convict target path uids clusters nowMs).2.banned := by
    intro path uids clusters
    rw [convict_ban, convict_ban, nextLevel_withHit, nextLevel_withHit, nextLevel_gc hl]
  unfold bannedIf
  rw [hconvict, hconvict]
  rfl

/-- The two viewers' agreement is missing, and the reporter's own hits in the
match would do. -/
def RestsOnSolo (g : GenitalLedger) (target : UserId) (hit : Hit) (guards : Guards)
    (nowMs : Nat) : Prop :=
  (g.rateQueue hit.reporterUid nowMs).length < reporterRatePerHour
    ∧ crossReady (g.fileWith target hit nowMs) hit guards = false
    ∧ sessionReady (g.fileWith target hit nowMs) hit nowMs = true

theorem bannedIf_true_eq_false_iff : g.bannedIf target hit guards nowMs true
      = g.bannedIf target hit guards nowMs false ↔ ¬ g.RestsOnSolo target hit guards nowMs := by
  unfold bannedIf RestsOnSolo
  by_cases hr : reporterRatePerHour ≤ (g.rateQueue hit.reporterUid nowMs).length
  · rw [if_pos hr, if_pos hr]
    exact ⟨fun _ h => Nat.not_lt.mpr hr h.1, fun _ => rfl⟩
  rw [if_neg hr, if_neg hr]
  by_cases hx : crossReady (g.fileWith target hit nowMs) hit guards = true
  · rw [if_pos hx, if_pos hx]
    exact ⟨fun _ h => Bool.false_ne_true (h.2.1.symm.trans hx), fun _ => rfl⟩
  rw [if_neg hx, if_neg hx, Bool.and_true, Bool.and_false, if_neg Bool.false_ne_true]
  by_cases hs : sessionReady (g.fileWith target hit nowMs) hit nowMs = true
  · rw [if_pos hs, convict_ban]
    exact ⟨nofun, fun h => absurd ⟨Nat.lt_of_not_le hr, Bool.eq_false_of_not_eq_true hx, hs⟩ h⟩
  · rw [if_neg hs]
    exact ⟨fun _ h => hs h.2.2, fun _ => rfl⟩

/-- Nothing but an overturned offense of the reporter keeps the hit from
convicting by the session path. -/
def LacksOnlyTrust (g : GenitalLedger) (target : UserId) (hit : Hit) (guards : Guards)
    (nowMs : Nat) : Prop :=
  g.RestsOnSolo target hit guards nowMs
    ∧ guards.targetSenior = false ∧ guards.mutualFeud = false
    ∧ (g.capReached hit.reporterUid hit.reporterCluster nowMs).2 = false

/-- The ledger that forgot lets the reporter convict alone where the other
did not, when this is all that was in the way. -/
theorem soloOk_gc_ne_iff : (g.gc now).soloOk hit guards nowMs ≠ g.soloOk hit guards nowMs ↔
    g.Forgotten now hit.reporterUid ∧ guards.targetSenior = false ∧ guards.mutualFeud = false
      ∧ (g.capReached hit.reporterUid hit.reporterCluster nowMs).2 = false := by
  have hcap : ((g.gc now).capReached hit.reporterUid hit.reporterCluster nowMs).2
      = (g.capReached hit.reporterUid hit.reporterCluster nowMs).2 := rfl
  unfold soloOk
  by_cases hold : g.Forgotten now hit.reporterUid
  · have hgone : (g.gc now).reporterOverturned hit.reporterUid = false := by
      rw [← Bool.not_eq_true, reporterOverturned_gc]
      exact fun h => h.2 hold
    rw [hcap, hgone, hold.1]
    cases guards.targetSenior <;> cases guards.mutualFeud
      <;> cases (g.capReached hit.reporterUid hit.reporterCluster nowMs).2 <;> simp [hold]
  · rw [hcap, reporterOverturned_gc_eq hold]
    exact ⟨fun h => absurd rfl h, fun h => absurd h.1 hold⟩

/-- **Forgetting**: dropping old offenses first changes no level, and it
changes the ban a call ends in when the reporter's last overturned offense
goes with them and nothing else speaks against the session path. -/
theorem gc_unobservable_iff (g : GenitalLedger) (target : UserId) (hit : Hit) (guards : Guards)
    (hl : now ≤ nowMs / 1000) :
    ((∀ t clusters later, now ≤ later →
        (g.gc now).nextLevel t clusters later = g.nextLevel t clusters later)
      ∧ ((g.gc now).record target hit guards nowMs).2.banned
        = (g.record target hit guards nowMs).2.banned)
    ↔ ¬ (g.Forgotten now hit.reporterUid ∧ g.LacksOnlyTrust target hit guards nowMs) := by
  have hlevel : ∀ t clusters later, now ≤ later →
      (g.gc now).nextLevel t clusters later = g.nextLevel t clusters later :=
    fun t clusters later hlater => nextLevel_gc hlater t clusters
  rw [and_iff_right hlevel, banned_record, banned_record, bannedIf_gc hl]
  have hsolo := @soloOk_gc_ne_iff g hit guards now nowMs
  by_cases hne : (g.gc now).soloOk hit guards nowMs = g.soloOk hit guards nowMs
  · rw [hne]
    refine ⟨fun _ ⟨hold, _, hrest⟩ => hsolo.mpr ⟨hold, hrest⟩ hne, fun _ => rfl⟩
  · have hdiffer : g.bannedIf target hit guards nowMs ((g.gc now).soloOk hit guards nowMs)
          = g.bannedIf target hit guards nowMs (g.soloOk hit guards nowMs)
        ↔ ¬ g.RestsOnSolo target hit guards nowMs := by
      rw [← bannedIf_true_eq_false_iff]
      cases hb : g.soloOk hit guards nowMs with
      | false => rw [Bool.eq_true_of_not_eq_false (fun h => hne (h.trans hb.symm))]
      | true =>
          rw [Bool.eq_false_of_not_eq_true (fun h => hne (h.trans hb.symm))]
          exact eq_comm
    obtain ⟨hold, hrest⟩ := hsolo.mp hne
    rw [hdiffer]
    exact ⟨fun h ⟨_, hready, _⟩ => h hready, fun h hready => h ⟨hold, hready, hrest⟩⟩

/-- A ledger where an operator overturned the ban of `"m"` half a year ago,
and the reporter behind it has one hit on file against `"t"`. -/
def pardonedLongAgo : GenitalLedger :=
  { withBook ((∅ : Table UserId (List Offense)).set "m"
      [⟨0, 1, "session", {"r"}, {"k"}, true⟩]) with
    hits := (∅ : Table UserId (List Hit)).set "t"
      [⟨"r", "k", "s", .detector, offenseTtlSecs * 1000⟩] }

/-- The second hit of the pair. -/
def secondHit : Hit := ⟨"r", "k", "s", .detector, offenseTtlSecs * 1000 + 3000⟩

/-- The hit needs a second reporter, and right after a drop it bans alone. -/
theorem gc_observable : ∃ (g : GenitalLedger) (target : UserId) (hit : Hit) (guards : Guards)
    (now nowMs : Nat), now ≤ nowMs / 1000
      ∧ (g.record target hit guards nowMs).2 = .counted "needs_second_reporter_overturned"
      ∧ ((g.gc now).record target hit guards nowMs).2
        = .ban ⟨1, ladderFirstSecs, false, "session", {"k"}⟩ :=
  ⟨pardonedLongAgo, "t", secondHit, ⟨false, false⟩, offenseTtlSecs,
    offenseTtlSecs * 1000 + 3000, by decide, by decide +kernel, by decide +kernel⟩

/-- A second earlier the offense stays on the book. -/
theorem gc_unobservable_early :
    ((pardonedLongAgo.gc (offenseTtlSecs - 1)).record "t" secondHit ⟨false, false⟩
        (offenseTtlSecs * 1000 + 3000)).2.banned
      = (pardonedLongAgo.record "t" secondHit ⟨false, false⟩
        (offenseTtlSecs * 1000 + 3000)).2.banned := by
  refine ((gc_unobservable_iff pardonedLongAgo "t" secondHit ⟨false, false⟩
    (by decide)).mpr fun ⟨hold, _⟩ => ?_).2
  have hmem : (⟨0, 1, "session", {"r"}, {"k"}, true⟩ : Offense)
      ∈ pardonedLongAgo.offensesOf "m" := by decide +kernel
  exact absurd (hold.2 "m" _ hmem rfl (by decide)) (by decide)

end GenitalLedger

end Ruletka
