/-
How far the ladder of the detector climbs.

The level of a new offense is the number of standing offenses or the number
of clusters behind them, whichever is less. So a target that one cluster
alone accuses stays on the first step, and each step further takes one more
cluster. The ledger forgets who sent a hit with which guards; the log
remembers, and `onFile` recovers the hits on file from it.
-/
import Ruletka.Report.Ladder
import Ruletka.Report.Proofs.Hits

namespace Ruletka

open GenitalLedger

variable {book : Table UserId (List Offense)} {g : GenitalLedger} {log : List LadderCall}

-- ================================================================ what is on file

/-- A call about somebody else leaves the file alone. -/
theorem onFile_other {c : LadderCall} {t : UserId} (ht : t ≠ c.target) :
    onFile t (c :: log) = onFile t log := if_neg (Ne.symm ht)

theorem onFile_reject {c : LadderCall} {why : String} (hc : c.answer = .reject why) :
    onFile c.target (c :: log) = onFile c.target log := by
  rw [onFile, if_pos rfl, hc]

theorem onFile_counted {c : LadderCall} {why : String} (hc : c.answer = .counted why) :
    onFile c.target (c :: log) = freshCalls (onFile c.target log) c.nowMs ++ [c] := by
  rw [onFile, if_pos rfl, hc]

theorem onFile_ban {c : LadderCall} {b : Ban} (hc : c.answer = .ban b) :
    onFile c.target (c :: log) = [] := by
  rw [onFile, if_pos rfl, hc]

theorem accepted_of_ban {c : LadderCall} {b : Ban} (hc : c.answer = .ban b) :
    c.accepted = true := by
  unfold LadderCall.accepted
  rw [hc]

/-- What is on file was recorded against the target and accepted. -/
theorem mem_onFile {t : UserId} {c : LadderCall} (hc : c ∈ onFile t log) :
    c ∈ log ∧ c.target = t ∧ c.accepted = true := by
  induction log with
  | nil => cases hc
  | cons d log ih =>
      have hlater : c ∈ onFile t log → c ∈ d :: log ∧ c.target = t ∧ c.accepted = true :=
        fun hc => ⟨List.mem_cons_of_mem _ (ih hc).1, (ih hc).2⟩
      by_cases ht : t = d.target
      · subst ht
        cases hd : d.answer with
        | reject why =>
            rw [onFile_reject hd] at hc
            exact hlater hc
        | counted why =>
            rw [onFile_counted hd] at hc
            rcases List.mem_append.mp hc with hc | hc
            · exact hlater (List.mem_of_mem_filter hc)
            · rw [List.mem_singleton.mp hc]
              exact ⟨List.mem_cons_self, rfl, by unfold LadderCall.accepted; rw [hd]⟩
        | ban b =>
            rw [onFile_ban hd] at hc
            cases hc
      · rw [onFile_other ht] at hc
        exact hlater hc

/-- The hits that a call weighs: those on file that are fresh, and its own. -/
def weighed (log : List LadderCall) (c : LadderCall) : List LadderCall :=
  freshCalls (onFile c.target log) c.nowMs ++ [c]

/-- A call weighs the fresh hits that the ledger holds. -/
theorem fileWith_eq {target : UserId} {hit : Hit} {guards : Guards} {nowMs : Nat}
    (hon : g.hitsOf target = (onFile target log).map (·.hit)) :
    g.fileWith target hit nowMs
      = (weighed log (g.callOf target hit guards nowMs)).map (·.hit) := by
  unfold fileWith weighed freshCalls
  rw [hon, List.filter_map, List.map_append]
  rfl

/-- What the ledger holds against a target are the hits on file in the log. -/
theorem LadderLog.hitsOf (h : LadderLog book g log) (t : UserId) :
    g.hitsOf t = (onFile t log).map (·.hit) := by
  induction h generalizing t with
  | start => rfl
  | overturn _ _ _ ih => exact ih t
  | gc _ _ ih => exact ih t
  | @record g log target hit guards nowMs _ _ ih =>
      have hfile := @fileWith_eq g log target hit guards nowMs (ih target)
      have hc := record_cases g target hit guards nowMs
      generalize hcall : g.callOf target hit guards nowMs = c at hfile
      have htarget : c.target = target := by rw [← hcall]; rfl
      have hanswer : c.answer = (g.record target hit guards nowMs).2 := by rw [← hcall]; rfl
      generalize g.record target hit guards nowMs = r at hc hanswer
      by_cases ht : t = target
      · subst ht
        subst htarget
        cases hc with
        | rate =>
            rw [onFile_reject hanswer]
            exact ih _
        | cross =>
            rw [onFile_ban hanswer, hitsOf_convict, if_pos rfl]
            rfl
        | session =>
            rw [onFile_ban hanswer, hitsOf_convict, if_pos rfl]
            rfl
        | counted =>
            rw [onFile_counted hanswer, hitsOf_withHit, if_pos rfl, hfile]
            rfl
      · rw [onFile_other (htarget ▸ ht), ← ih]
        cases hc with
        | rate => rfl
        | cross => rw [hitsOf_convict, if_neg ht, hitsOf_withHit, if_neg ht]
        | session => rw [hitsOf_convict, if_neg ht, hitsOf_withHit, if_neg ht]
        | counted => rw [hitsOf_withHit, if_neg ht]

-- ======================================================================= levels

/-- A call that ends in a ban books the offense with the level of the ban,
and the ban is the next step over the standing offenses. -/
structure Convicts (g : GenitalLedger) (c : LadderCall) (g' : GenitalLedger) (b : Ban) : Prop where
  level : b.level = (g.nextLevel c.target b.reporterClusters (c.nowMs / 1000)).1
  some_cluster : b.reporterClusters.Nonempty
  booked : ∃ uids, g'.offensesOf c.target = g.offensesOf c.target ++
    [⟨c.nowMs / 1000, b.level, b.path, uids, b.reporterClusters, false⟩]

theorem nextLevel_withHit (target : UserId) (hit : Hit) (nowMs : Nat) (clusters : Finset String)
    (nowSecs : Nat) : (g.withHit target hit nowMs).nextLevel target clusters nowSecs
      = g.nextLevel target clusters nowSecs := rfl

theorem offensesOf_convict_self (g : GenitalLedger) (target : UserId) (path : String)
    (uids clusters : Finset String) (nowMs : Nat) :
    (g.convict target path uids clusters nowMs).1.offensesOf target = g.offensesOf target ++
      [⟨nowMs / 1000, (g.nextLevel target clusters (nowMs / 1000)).1, path, uids, clusters,
        false⟩] := by
  show ((g.offenses.set target _).get? target).getD [] = _
  rw [Table.get?_set, if_pos rfl]
  rfl

/-- A call that bans nobody books nothing. -/
theorem record_books {target : UserId} {hit : Hit} {guards : Guards} {nowMs : Nat} {d : Decision}
    (hd : (g.record target hit guards nowMs).2 = d) (hno : ∀ b, d ≠ .ban b) (x : UserId) :
    (g.record target hit guards nowMs).1.offensesOf x = g.offensesOf x := by
  have hc := record_cases g target hit guards nowMs
  generalize g.record target hit guards nowMs = r at hc hd
  cases hc with
  | rate => rfl
  | cross => exact absurd hd.symm (hno _)
  | session => exact absurd hd.symm (hno _)
  | counted => rfl

theorem record_convicts {target : UserId} {hit : Hit} {guards : Guards} {nowMs : Nat} {b : Ban}
    (hb : (g.record target hit guards nowMs).2 = .ban b) :
    Convicts g (g.callOf target hit guards nowMs) (g.record target hit guards nowMs).1 b := by
  have hc := record_cases g target hit guards nowMs
  generalize hcall : g.callOf target hit guards nowMs = c
  have htarget : c.target = target := by rw [← hcall]; rfl
  have hnow : c.nowMs = nowMs := by rw [← hcall]; rfl
  subst htarget hnow
  generalize g.record c.target hit guards c.nowMs = r at hc hb
  cases hc with
  | rate => cases hb
  | cross _ hx =>
      cases hb
      refine ⟨rfl, ?_, _, offensesOf_convict_self ..⟩
      unfold crossReady at hx
      rw [Bool.and_eq_true, decide_eq_true_eq] at hx
      exact Finset.card_pos.mp (Nat.lt_of_lt_of_le Nat.two_pos hx.1)
  | session =>
      cases hb
      exact ⟨rfl, Finset.singleton_nonempty _, _, offensesOf_convict_self ..⟩
  | counted => cases hb

/-- Every offense was booked by a call. -/
theorem LadderLog.booked (h : LadderLog ∅ g log) {t : UserId} {o : Offense}
    (ho : o ∈ g.offensesOf t) : ∃ c ∈ log, c.Books t o := by
  induction h generalizing o with
  | start => cases ho
  | overturn target nowSecs _ ih =>
      obtain ⟨o', ho', rfl | rfl⟩ := mem_overturnRecent ho
      · exact ih ho'
      · exact @ih o' ho'
  | gc nowSecs _ ih => exact ih (mem_gc ho)
  | @record g log target hit guards nowMs _ _ ih =>
      have hold : o ∈ g.offensesOf t →
          ∃ c ∈ g.callOf target hit guards nowMs :: log, c.Books t o := by
        intro ho
        obtain ⟨c, hc, hbooks⟩ := ih ho
        exact ⟨c, List.mem_cons_of_mem _ hc, hbooks⟩
      by_cases ht : t = target
      · subst ht
        cases hd : (g.record t hit guards nowMs).2 with
        | ban b =>
            obtain ⟨uids, hbooked⟩ := (record_convicts hd).booked
            have ho' : o ∈ (g.record t hit guards nowMs).1.offensesOf
              (g.callOf t hit guards nowMs).target := ho
            rw [hbooked] at ho'
            rcases List.mem_append.mp ho' with ho' | ho'
            · exact hold ho'
            · rw [List.mem_singleton.mp ho']
              exact ⟨_, List.mem_cons_self, rfl, b, hd, rfl, rfl, rfl, rfl⟩
        | reject why => exact hold (record_books hd nofun t ▸ ho)
        | counted why => exact hold (record_books hd nofun t ▸ ho)
      · exact hold ((record_other ht).2 ▸ ho)

/-- Against a target that one cluster alone accuses there are only bans of the
first step, by the session path. -/
theorem LadderLog.one_cluster (h : LadderLog ∅ g log) {t : UserId} {k : String}
    (hk : ∀ c ∈ log, c.target = t → c.accepted = true → c.hit.reporterCluster = k) :
    (∀ o ∈ g.offensesOf t, o.reporterClusters ⊆ {k})
      ∧ ∀ c ∈ log, c.target = t → ∀ b, c.answer = .ban b → b.level = 1 ∧ b.path = "session" := by
  induction h with
  | start =>
      refine ⟨fun o ho => ?_, fun c hc => by cases hc⟩
      cases ho
  | overturn target nowSecs _ ih =>
      exact ⟨offensesOf_overturnRecent (ih hk).1, (ih hk).2⟩
  | gc nowSecs _ ih => exact ⟨fun o ho => (ih hk).1 o (mem_gc ho), (ih hk).2⟩
  | @record g log target hit guards nowMs h _ ih =>
      obtain ⟨hbook, hlog⟩ := ih fun c hc => hk c (List.mem_cons_of_mem _ hc)
      by_cases ht : t = target
      · subst ht
        have hcall := hk _ List.mem_cons_self rfl
        have hhits : ∀ h' ∈ g.hitsOf t, h'.reporterCluster = k := by
          intro h' hh'
          rw [h.hitsOf] at hh'
          obtain ⟨c, hc, rfl⟩ := List.mem_map.mp hh'
          obtain ⟨hc, hct, hacc⟩ := mem_onFile hc
          exact hk c (List.mem_cons_of_mem _ hc) hct hacc
        have hcluster : ∀ b, (g.record t hit guards nowMs).2 = .ban b →
            hit.reporterCluster = k := fun b hb => hcall (accepted_of_ban hb)
        have hnew : ∀ b, (g.record t hit guards nowMs).2 = .ban b →
            b.level = 1 ∧ b.path = "session" := by
          intro b hb
          have hkb := hcluster b hb
          have hc := record_cases g t hit guards nowMs
          generalize g.record t hit guards nowMs = r at hc hb
          cases hc with
          | rate => cases hb
          | cross _ hx =>
              -- all voices are of the one cluster
              have hone : ∀ h' ∈ g.fileWith t hit nowMs, h'.reporterCluster = k := by
                intro h' hh'
                rcases List.mem_append.mp hh' with hh' | hh'
                · exact hhits h' (List.mem_of_mem_filter hh')
                · rw [List.mem_singleton.mp hh']
                  exact hkb
              rw [crossReady_one hone] at hx
              cases hx
          | session =>
              rw [convict_ban, nextLevel_withHit, hkb,
                nextLevel_first _ hbook (Finset.Subset.refl _)] at hb
              cases hb
              exact ⟨rfl, rfl⟩
          | counted => cases hb
        refine ⟨?_, fun c hc hct b hb => ?_⟩
        · cases hd : (g.record t hit guards nowMs).2 with
          | reject why =>
              rw [record_books hd nofun]
              exact hbook
          | counted why =>
              rw [record_books hd nofun]
              exact hbook
          | ban b => exact (record_spec hhits hbook (hcluster b hd)).offenses
        · rcases List.mem_cons.mp hc with rfl | hc
          · exact hnew b hb
          · exact hlog c hc hct b hb
      · refine ⟨?_, fun c hc hct => ?_⟩
        · rw [(record_other ht).2]
          exact hbook
        · rcases List.mem_cons.mp hc with rfl | hc
          · exact absurd hct.symm ht
          · exact hlog c hc hct

/-- A ban is no higher than there are clusters behind it and the standing
offenses of the target. -/
theorem LadderLog.level_le (h : LadderLog book g log) {c : LadderCall} (hc : c ∈ log) {b : Ban}
    (hb : c.answer = .ban b) : b.level ≤ (c.allClusters b).card := by
  induction h with
  | start => cases hc
  | overturn _ _ _ ih => exact ih hc
  | gc _ _ ih => exact ih hc
  | @record g log target hit guards nowMs _ _ ih =>
      rcases List.mem_cons.mp hc with rfl | hc
      · have hconv := record_convicts hb
        rw [hconv.level]
        exact nextLevel_le _ hconv.some_cluster _
      · exact ih hc

/-- What a call adds to are the offenses of its target that stood when it was
made: neither overturned nor past their time. -/
theorem LadderLog.prior_iff (h : LadderLog book g log) {c : LadderCall} (hc : c ∈ log) :
    ∃ g' log', LadderLog book g' log' ∧ (c :: log') <:+ log ∧ ∀ o, o ∈ c.prior ↔
      o ∈ g'.offensesOf c.target ∧ o.overturned = false
        ∧ c.nowMs / 1000 - o.at < offenseTtlSecs := by
  induction h with
  | start => cases hc
  | overturn _ _ _ ih => exact ih hc
  | gc _ _ ih => exact ih hc
  | @record g log target hit guards nowMs h _ ih =>
      rcases List.mem_cons.mp hc with rfl | hc
      · refine ⟨g, log, h, List.suffix_refl _, fun o => ?_⟩
        show o ∈ g.priorOffenses target (nowMs / 1000) ↔ _
        unfold priorOffenses
        rw [List.mem_filter, Bool.and_eq_true, Bool.not_eq_true', decide_eq_true_eq]
        rfl
      · obtain ⟨g', log', h', hsuf, hprior⟩ := ih hc
        exact ⟨g', log', h', hsuf.trans (List.suffix_cons _ _), hprior⟩

/-- **The ladder**: a target that one cluster alone accuses is banned by the
session path and on the first step only; and whoever is banned on a step has
at least as many clusters against it, over the new offense and those that stood
when the call was made. -/
theorem ladder_bounded (h : LadderLog ∅ g log) :
    (∀ t k, (∀ c ∈ log, c.target = t → c.accepted = true → c.hit.reporterCluster = k) →
      (∀ c ∈ log, c.target = t → ∀ b, c.answer = .ban b → b.level = 1 ∧ b.path = "session")
        ∧ ∀ o ∈ g.offensesOf t, o.level = 1 ∧ o.path = "session")
    ∧ (∀ c ∈ log, ∀ b, c.answer = .ban b → b.level ≤ (c.allClusters b).card)
    ∧ (∀ c ∈ log, ∃ g' log', LadderLog ∅ g' log' ∧ (c :: log') <:+ log ∧ ∀ o, o ∈ c.prior ↔
        o ∈ g'.offensesOf c.target ∧ o.overturned = false
          ∧ c.nowMs / 1000 - o.at < offenseTtlSecs)
    ∧ ∀ t, ∀ o ∈ g.offensesOf t, ∃ c ∈ log, c.Books t o := by
  refine ⟨fun t k hk => ?_, fun c hc b hb => h.level_le hc hb, fun c hc => h.prior_iff hc,
    fun t o ho => h.booked ho⟩
  obtain ⟨-, hbans⟩ := h.one_cluster hk
  refine ⟨hbans, fun o ho => ?_⟩
  obtain ⟨c, hc, hct, b, hb, -, hlevel, hpath, -⟩ := h.booked ho
  rw [hlevel, hpath]
  exact hbans c hc hct b hb

/-- A hit of the detector by a reporter in its own network. -/
def detectorHit (uid sid : String) (atMs : Nat) : Hit :=
  ⟨uid, "uid:" ++ uid, sid, .detector, atMs⟩

/-- No guard is up. -/
def noGuards : Guards := ⟨false, false⟩

/-- The ledger after one hit. -/
def oneHit : GenitalLedger :=
  ((withBook ∅).record "t" (detectorHit "a" "s" 1000) noGuards 1000).1

/-- The calls of two hits of one reporter in one match, three seconds apart. -/
def twoHits : List LadderCall :=
  [oneHit.callOf "t" (detectorHit "a" "s" 4000) noGuards 4000,
    (withBook ∅).callOf "t" (detectorHit "a" "s" 1000) noGuards 1000]

theorem ladderLog_twoHits :
    LadderLog ∅ (oneHit.record "t" (detectorHit "a" "s" 4000) noGuards 4000).1 twoHits := by
  have hfirst : LadderLog ∅ oneHit
      [(withBook ∅).callOf "t" (detectorHit "a" "s" 1000) noGuards 1000] :=
    LadderLog.start.record _ _ _ _ fun c hc => by cases hc
  refine hfirst.record _ _ _ _ fun c hc => ?_
  rw [List.mem_singleton.mp hc]
  show 1000 ≤ 4000
  omega

/-- The second hit bans on the first step. -/
theorem ladder_bounded_two : (∃ c ∈ twoHits, ∃ b, c.answer = .ban b)
    ∧ (∀ c ∈ twoHits, c.target = "t" → ∀ b, c.answer = .ban b → b.level = 1 ∧ b.path = "session")
    ∧ ∀ c ∈ twoHits, ∀ b, c.answer = .ban b → b.level ≤ (c.allClusters b).card := by
  have hbounded := ladder_bounded ladderLog_twoHits
  refine ⟨⟨_, List.mem_cons_self, ⟨1, ladderFirstSecs, false, "session", {"uid:a"}⟩, ?_⟩, ?_,
    hbounded.2.1⟩
  · decide
  · refine (hbounded.1 "t" "uid:a" fun c hc _ _ => ?_).1
    rcases List.mem_pair.mp hc with rfl | rfl
    · rfl
    · rfl

end Ruletka
