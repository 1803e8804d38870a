/-
Hits that a reporter made in a feud with the target.

The cross path leaves out the hits of the reporter at hand while it is in a
feud. It asks the guards of this call only, and the hits on file do not know
the guards they came with. So a hit made in a feud is a voice on anybody
else's call for as long as it is on file: with none on file no call can count
one, and with one on file the next call may be banned on it.
-/
import Ruletka.Report.Proofs.Ladder

namespace Ruletka

open GenitalLedger

variable {book : Table UserId (List Offense)} {g : GenitalLedger} {log : List LadderCall}

/-- A property of every call of a log and the calls before it. -/
def EachCall (P : List LadderCall → LadderCall → Prop) : List LadderCall → Prop
  | [] => True
  | c :: log => P log c ∧ EachCall P log

/-- **Run**: what follows for every call on a ledger follows for all of a log. -/
theorem EachCall.imp {P Q : List LadderCall → LadderCall → Prop}
    (hPQ : ∀ g log target hit guards nowMs, LadderLog book g log →
      P log (g.callOf target hit guards nowMs) → Q log (g.callOf target hit guards nowMs))
    (h : LadderLog book g log) (hP : EachCall P log) : EachCall Q log := by
  induction h with
  | start => trivial
  | overturn _ _ _ ih => exact ih hP
  | gc _ _ ih => exact ih hP
  | record target hit guards nowMs h _ ih =>
      exact ⟨hPQ _ _ target hit guards nowMs h hP.1, ih hP.2⟩

namespace LadderCall

/-- Two clusters agree, one of them by the detector. -/
def Agree (calls : List LadderCall) : Prop :=
  2 ≤ ((calls.map (·.hit.reporterCluster)).toFinset).card
    ∧ ∃ c ∈ calls, c.hit.kind = .detector

instance (calls : List LadderCall) : Decidable (Agree calls) := inferInstanceAs (Decidable (_ ∧ _))

/-- The hits that the call takes for voices. -/
def voices (log : List LadderCall) (c : LadderCall) : List LadderCall :=
  (weighed log c).filter fun d =>
    !(c.guards.mutualFeud && d.hit.reporterUid = c.hit.reporterUid)

/-- The hits it weighs that were recorded without a feud. -/
def unfeuded (log : List LadderCall) (c : LadderCall) : List LadderCall :=
  (weighed log c).filter fun d => !d.guards.mutualFeud

/-- Every fresh hit on file that was recorded in a feud is one that the call
leaves out: its own reporter's, while that one is in a feud. -/
def Clear (log : List LadderCall) (c : LadderCall) : Prop :=
  ∀ d ∈ freshCalls (onFile c.target log) c.nowMs, d.guards.mutualFeud = true →
    c.guards.mutualFeud = true ∧ d.hit.reporterUid = c.hit.reporterUid

/-- A ban by the cross path counts no hit that was recorded in a feud: it has
two clusters and a detector without them. -/
def SoundlyCrossed (log : List LadderCall) (c : LadderCall) : Prop :=
  c.bannedBy "cross" = true →
    (∀ d ∈ voices log c, d.guards.mutualFeud = false) ∧ Agree (unfeuded log c)

end LadderCall

open LadderCall

/-- The voices of the ledger are those of the log. -/
theorem crossReady_iff {target : UserId} {hit : Hit} {guards : Guards} {nowMs : Nat}
    (h : LadderLog book g log) : crossReady (g.fileWith target hit nowMs) hit guards = true
      ↔ Agree (LadderCall.voices log (g.callOf target hit guards nowMs)) := by
  have hfile := @fileWith_eq g log target hit guards nowMs (h.hitsOf target)
  have hvoices : GenitalLedger.voices (g.fileWith target hit nowMs) hit guards
      = (LadderCall.voices log (g.callOf target hit guards nowMs)).map (·.hit) := by
    unfold GenitalLedger.voices LadderCall.voices
    rw [hfile, List.filter_map]
    rfl
  unfold crossReady voiceClusters Agree
  rw [hvoices, List.map_map, Bool.and_eq_true, decide_eq_true_eq, List.any_eq_true]
  simp only [List.mem_map, decide_eq_true_eq, exists_exists_and_eq_and]
  rfl

/-- A call ends in a ban by the cross path when it is let through and its
voices agree. -/
theorem bannedBy_cross_iff {target : UserId} {hit : Hit} {guards : Guards} {nowMs : Nat}
    (h : LadderLog book g log) : (g.callOf target hit guards nowMs).bannedBy "cross" = true
      ↔ (g.callOf target hit guards nowMs).accepted = true
        ∧ Agree (LadderCall.voices log (g.callOf target hit guards nowMs)) := by
  rw [← crossReady_iff h]
  have hc := record_cases g target hit guards nowMs
  have hans : (g.callOf target hit guards nowMs).answer = (g.record target hit guards nowMs).2 :=
    rfl
  unfold LadderCall.bannedBy LadderCall.accepted
  rw [hans]
  generalize g.record target hit guards nowMs = r at hc
  cases hc with
  | rate => simp
  | cross _ hx => simp [convict_ban, hx]
  | session _ hx => simp [convict_ban, hx]
  | counted why _ hx => simp [hx]

/-- More hits agree when some of them do. -/
theorem LadderCall.Agree.mono {calls more : List LadderCall} (hsub : ∀ c ∈ calls, c ∈ more)
    (h : Agree calls) : Agree more := by
  obtain ⟨htwo, c, hc, hkind⟩ := h
  refine ⟨htwo.trans (Finset.card_le_card fun k hk => ?_), c, hsub c hc, hkind⟩
  rw [List.mem_toFinset, List.mem_map] at hk ⊢
  obtain ⟨d, hd, rfl⟩ := hk
  exact ⟨d, hsub d hd, rfl⟩

/-- A clear call has no voice that was recorded in a feud. -/
theorem voices_of_clear {c : LadderCall} (h : Clear log c) {d : LadderCall}
    (hd : d ∈ voices log c) : d.guards.mutualFeud = false := by
  obtain ⟨hweighed, hkept⟩ := List.mem_filter.mp hd
  by_contra hfeud
  rw [Bool.not_eq_false] at hfeud
  have hout : c.guards.mutualFeud = true ∧ d.hit.reporterUid = c.hit.reporterUid := by
    rcases List.mem_append.mp hweighed with hfile | hown
    · exact h d hfile hfeud
    · rw [List.mem_singleton.mp hown] at hfeud ⊢
      exact ⟨hfeud, rfl⟩
  rw [hout.1, hout.2] at hkept
  simp at hkept

/-- **Step**: a clear call bans soundly. -/
theorem soundlyCrossed_of_clear {target : UserId} {hit : Hit} {guards : Guards} {nowMs : Nat}
    (h : LadderLog book g log) (hclear : Clear log (g.callOf target hit guards nowMs)) :
    SoundlyCrossed log (g.callOf target hit guards nowMs) := by
  intro hban
  obtain ⟨-, hagree⟩ := (bannedBy_cross_iff h).mp hban
  refine ⟨fun d hd => voices_of_clear hclear hd, hagree.mono fun d hd => ?_⟩
  refine List.mem_filter.mpr ⟨(List.mem_filter.mp hd).1, ?_⟩
  rw [voices_of_clear hclear hd]
  rfl

/-- A reporter without a history is let through. -/
theorem accepted_of_new {target : UserId} {hit : Hit} {guards : Guards} {nowMs : Nat}
    (hnew : g.rate.get? hit.reporterUid = none) :
    (g.callOf target hit guards nowMs).accepted = true := by
  have hqueue : g.rateQueue hit.reporterUid nowMs = [] := by
    unfold rateQueue
    rw [hnew]
    rfl
  have hc := record_cases g target hit guards nowMs
  have hans : (g.callOf target hit guards nowMs).answer = (g.record target hit guards nowMs).2 :=
    rfl
  unfold LadderCall.accepted
  rw [hans]
  generalize g.record target hit guards nowMs = r at hc
  cases hc with
  | rate hr =>
      rw [hqueue] at hr
      exact absurd hr (by decide)
  | cross => rw [convict_ban]
  | session => rw [convict_ban]
  | counted => rfl

/-- With a hit of a feud on file somebody new may be the second voice. -/
theorem exists_unsound {target : UserId} {nowMs : Nat} (h : LadderLog book g log) {d : LadderCall}
    (hd : d ∈ freshCalls (onFile target log) nowMs) (hfeud : d.guards.mutualFeud = true) :
    ∃ hit, ¬ SoundlyCrossed log (g.callOf target hit ⟨false, false⟩ nowMs) := by
  obtain ⟨uid, huid⟩ := Infinite.exists_notMem_finset g.rate.keys
  obtain ⟨cluster, hcluster⟩ := Infinite.exists_notMem_finset {d.hit.reporterCluster}
  rw [Finset.mem_singleton] at hcluster
  have hnew : g.rate.get? uid = none := by
    rw [Table.mem_keys_iff, Bool.not_eq_true, Option.isSome_eq_false_iff] at huid
    exact Option.isNone_iff_eq_none.mp huid
  refine ⟨⟨uid, cluster, "", .detector, nowMs⟩, fun hsound => ?_⟩
  generalize hcall : g.callOf target ⟨uid, cluster, "", .detector, nowMs⟩ ⟨false, false⟩ nowMs = c
    at hsound
  have hvoices : voices log c = weighed log c := by
    rw [← hcall]
    exact List.filter_eq_self.mpr fun _ _ => rfl
  have hdv : d ∈ voices log c := by
    rw [hvoices, ← hcall]
    exact List.mem_append_left _ hd
  have hcv : c ∈ voices log c := by
    rw [hvoices]
    exact List.mem_append_right _ (List.mem_singleton_self c)
  have hagree : Agree (voices log c) := by
    refine ⟨?_, c, hcv, by rw [← hcall]; rfl⟩
    have hpair : ({d.hit.reporterCluster, c.hit.reporterCluster} : Finset String)
        ⊆ ((voices log c).map (·.hit.reporterCluster)).toFinset := by
      intro k hk
      rw [List.mem_toFinset, List.mem_map]
      rcases Finset.mem_insert.mp hk with rfl | hk
      · exact ⟨d, hdv, rfl⟩
      · rw [Finset.mem_singleton.mp hk]
        exact ⟨c, hcv, rfl⟩
    rw [← Finset.card_pair (a := d.hit.reporterCluster) (b := c.hit.reporterCluster) fun heq => ?_]
    · exact Finset.card_le_card hpair
    · rw [← hcall] at heq
      exact hcluster heq.symm
  have hban : c.bannedBy "cross" = true := by
    rw [← hcall] at hagree ⊢
    exact (bannedBy_cross_iff h).mpr ⟨accepted_of_new hnew, hagree⟩
  have hfree := (hsound hban).1 d hdv
  rw [hfeud] at hfree
  cases hfree

/-- **Feuds**: in a run whose calls are all clear every ban by the cross path
is sound; and whatever call comes next on a target is sound exactly when no
fresh hit on file against it was recorded in a feud. -/
theorem feud_never_convicts (h : LadderLog book g log) :
    (EachCall Clear log → EachCall SoundlyCrossed log)
      ∧ ∀ target nowMs,
        (∀ hit guards, SoundlyCrossed log (g.callOf target hit guards nowMs))
          ↔ ∀ d ∈ freshCalls (onFile target log) nowMs, d.guards.mutualFeud = false := by
  refine ⟨EachCall.imp (fun _ _ _ _ _ _ h => soundlyCrossed_of_clear h) h,
    fun target nowMs => ⟨fun hsound d hd => ?_, fun hfree hit guards => ?_⟩⟩
  · by_contra hfeud
    rw [Bool.not_eq_false] at hfeud
    obtain ⟨hit, hunsound⟩ := exists_unsound h hd hfeud
    exact hunsound (hsound hit ⟨false, false⟩)
  · refine soundlyCrossed_of_clear h fun d hd hfeud => ?_
    rw [hfree d hd] at hfeud
    cases hfeud

/-- The guard of a reporter that the target has reported. -/
def inFeud : Guards := ⟨false, true⟩

/-- The ledger after a hit of a reporter in a feud with the target. -/
def feudHit : GenitalLedger :=
  ((withBook ∅).record "t" (detectorHit "a" "s" 1000) inFeud 1000).1

theorem ladderLog_feudHit :
    LadderLog ∅ feudHit [(withBook ∅).callOf "t" (detectorHit "a" "s" 1000) inFeud 1000] :=
  LadderLog.start.record _ _ _ _ fun c hc => by cases hc

/-- The ledger after a hit of another reporter, when that one is too old. -/
def laterHit : GenitalLedger :=
  (feudHit.record "t" (detectorHit "b" "s2" 2000000) noGuards 2000000).1

/-- A hit in a feud, and two others that come when it is too old. -/
def lateHits : List LadderCall :=
  [laterHit.callOf "t" (detectorHit "c" "s3" 2060000) noGuards 2060000,
    feudHit.callOf "t" (detectorHit "b" "s2" 2000000) noGuards 2000000,
    (withBook ∅).callOf "t" (detectorHit "a" "s" 1000) inFeud 1000]

/-- The hit of the feud is off the file, and the two others ban. -/
theorem feud_never_convicts_late : EachCall SoundlyCrossed lateHits
    ∧ ∃ c ∈ lateHits, c.bannedBy "cross" = true := by
  have hlog : LadderLog ∅
      (laterHit.record "t" (detectorHit "c" "s3" 2060000) noGuards 2060000).1 lateHits := by
    refine (ladderLog_feudHit.record _ _ _ _ fun c hc => ?_).record _ _ _ _ fun c hc => ?_
    · rw [List.mem_singleton.mp hc]
      show 1000 ≤ 2000000
      omega
    · rcases List.mem_pair.mp hc with rfl | rfl
      · show 2000000 ≤ 2060000
        omega
      · show 1000 ≤ 2060000
        omega
  refine ⟨(feud_never_convicts hlog).1 ⟨?_, ?_, ?_, trivial⟩, _, List.mem_cons_self, by decide⟩
  · unfold Clear
    decide
  · unfold Clear
    decide
  · unfold Clear
    decide

/-- The one hit of another reporter then bans by the cross path, on two
clusters of which one is that of the feud. -/
theorem feud_convicts : ∃ c d, LadderLog ∅ (feudHit.record "t" (detectorHit "b" "s2" 60000)
      noGuards 60000).1 [c, d] ∧ d.guards.mutualFeud = true ∧ c.guards.mutualFeud = false
    ∧ c.bannedBy "cross" = true ∧ ¬ Agree (unfeuded [d] c) := by
  refine ⟨_, _, ladderLog_feudHit.record _ _ _ _ fun c hc => ?_, rfl, rfl, by decide, by decide⟩
  rw [List.mem_singleton.mp hc]
  show 1000 ≤ 60000
  omega

end Ruletka
