/-
The report rate.

What the log has of a connection in the last hour is on the record of that
connection, as long as the record is there, and a record begins with a fresh
connection. So a connection gets no more than its eight an hour; with a second
connection begins a second count, and only the sum of them tells whether the
user is within the rate.
-/
import Ruletka.Hub.Reports
import Ruletka.Hub.Proofs.Handlers
import Ruletka.Lib.Window

namespace Ruletka

-- ==================================================================== the records

/-- When the reports of a connection were taken. -/
def timesOn (log : List TakenReport) (x : ConnId) : List Instant :=
  (log.filter (·.conn = x)).map TakenReport.at

/-- When the reports of a user were taken. -/
def timesBy (log : List TakenReport) (u : UserId) : List Instant :=
  (log.filter (·.reporter = u)).map TakenReport.at

namespace Books

/-- The young reports that the log has of a connection, its record has. -/
def Recalls (log : List TakenReport) (now : Instant) (b : Books) : Prop :=
  ∀ x g, b.badge x = some g → Window.Covers (secs 3600) now g.reports (timesOn log x)

variable {log : List TakenReport} {now : Instant} {b : Books}

theorem Recalls.later (h : b.Recalls log now) {now' : Instant} (hle : now ≤ now') :
    b.Recalls log now' :=
  fun x g hg => (h x g hg).later hle

/-- Only the report times of a badge matter. -/
theorem Recalls.of_badge (h : b.Recalls log now) {b' : Books}
    (hbadge : ∀ x g, b'.badge x = some g → ∃ g', b.badge x = some g' ∧ g.reports = g'.reports) :
    b'.Recalls log now := by
  intro x g hg
  obtain ⟨g', hg', heq⟩ := hbadge x g hg
  rw [heq]
  exact h x g' hg'

/-- A change of one badge that leaves its report times. -/
theorem Recalls.rewrite (h : b.Recalls log now) {b' : Books} {x : ConnId} {f : Badge → Badge}
    (hf : ∀ g, (f g).reports = g.reports)
    (hb : ∀ y, b'.badge y = if y = x then (b.badge y).map f else b.badge y) :
    b'.Recalls log now := by
  refine h.of_badge fun y g hg => ?_
  obtain ⟨g', hg', rfl | rfl⟩ := badge_rewritten hb hg
  · exact ⟨g', hg', hf g'⟩
  · exact ⟨_, hg', rfl⟩

theorem kept_recalls (log : List TakenReport) (now : Instant) (env : Env) :
    Kept env (Recalls log now) where
  erase b x h := by
    refine h.of_badge fun y g hg => ?_
    rw [badge_erase] at hg
    split at hg
    · cases hg
    · exact ⟨g, hg, rfl⟩
  park b x t h := h.rewrite (x := x) (f := fun g => { g with wsHoldUntil := some t })
    (fun _ => rfl) fun _ => rfl
  unpark b x h := h.rewrite (x := x) (f := fun g => { g with wsHoldUntil := none })
    (fun _ => rfl) (badge_unpark b x)
  charge b x h := h.rewrite (f := fun g => { g with messages := (g.enroll b.sys env).1 })
    (fun _ => rfl) (badge_charge b env x)
  identify b k x raw _ h := h.rewrite (x := x)
    (f := fun g => { g with userId := k.helloUserId x raw,
                            friendCode := b.sys.friendCodeFor (k.helloUserId x raw) })
    (fun _ => rfl) fun _ => rfl

/-- The record of a new connection is empty, and so is the log of it. -/
theorem Recalls.enroll (h : b.Recalls log now) {x : ConnId} (hx : ∀ r ∈ log, r.conn ≠ x) :
    (b.enroll x).Recalls log now := by
  intro y g hg
  unfold Books.enroll at hg
  dsimp only at hg
  split at hg
  · next hy =>
    subst hy
    have hnone : timesOn log y = [] := by
      unfold timesOn
      rw [List.filter_eq_nil_iff.mpr fun r hr => by simpa using hx r hr]
      rfl
    rw [hnone]
    exact fun t ht => Nat.zero_le _
  · exact h y g hg

/-- The records once a report is on one of them. -/
theorem Recalls.report (h : b.Recalls log now) {x : ConnId} {ts : List Instant}
    {new : Option TakenReport} (hnew : ∀ r ∈ new, r.conn = x)
    (hts : ∀ g, b.badge x = some g →
      Window.Covers (secs 3600) now ts (timesOn (new.toList ++ log) x)) :
    (b.report x ts).Recalls (new.toList ++ log) now := by
  intro y g hg
  unfold Books.report at hg
  dsimp only at hg
  split at hg
  · next hy =>
    subst hy
    obtain ⟨g', hg', rfl⟩ := Option.map_eq_some_iff.mp hg
    exact hts g' hg'
  · next hy =>
    have hother : timesOn (new.toList ++ log) y = timesOn log y := by
      unfold timesOn
      rw [List.filter_append, List.filter_eq_nil_iff.mpr, List.nil_append]
      intro r hr
      have hr := hnew r (Option.mem_toList.mp hr)
      rw [hr]
      simpa using fun heq : x = y => hy heq.symm
    rw [hother]
    exact h y g hg

end Books

namespace SimpleHub

variable {h h' k : SimpleHub} {env : Env} {log : List TakenReport}

-- ====================================================================== one report

/-- The reports of the last hour. -/
def lastHour (env : Env) (ts : List Instant) : List Instant :=
  ts.filter fun t => env.elapsed t < secs 3600

theorem length_lastHour (ts : List Instant) :
    (lastHour env ts).length = Window.recent (secs 3600) env.now ts :=
  List.countP_eq_length_filter.symm

/-- A report that is taken: under the rate, and written on the record. -/
theorem reportOf_some {x : ConnId} {raw : String} {r : TakenReport}
    (hr : k.reportOf env x raw = some r) :
    ∃ c, k.get x = some c ∧ r = ⟨x, c.userId, env.now⟩
      ∧ Window.recent (secs 3600) env.now c.reportTimes < reportRatePerHour
      ∧ k.reportsAfter env x raw = lastHour env c.reportTimes ++ [env.now] := by
  unfold reportOf at hr
  unfold reportsAfter
  cases hu : k.resolveTargetUserId env raw with
  | none =>
      rw [hu] at hr
      cases hr
  | some user =>
      rw [hu] at hr
      cases hc : k.get x with
      | none =>
          rw [hc] at hr
          cases hr
      | some c =>
          rw [hc] at hr
          dsimp only at hr ⊢
          split at hr
          · cases hr
          next hself =>
          split at hr
          · cases hr
          next hrate =>
          cases hr
          rw [if_neg hself, if_neg hrate]
          have hrate : (lastHour env c.reportTimes).length < reportRatePerHour :=
            Nat.not_le.mp hrate
          rw [length_lastHour] at hrate
          exact ⟨c, rfl, rfl, hrate, rfl⟩

/-- A report that is not taken leaves what is young on the record. -/
theorem reportOf_none {x : ConnId} {raw : String} {c : Client} (hc : k.get x = some c)
    (hr : k.reportOf env x raw = none) :
    k.reportsAfter env x raw = c.reportTimes
      ∨ k.reportsAfter env x raw = lastHour env c.reportTimes := by
  unfold reportOf at hr
  unfold reportsAfter
  rw [hc] at hr ⊢
  cases hu : k.resolveTargetUserId env raw with
  | none => exact Or.inl rfl
  | some user =>
      rw [hu] at hr
      dsimp only at hr ⊢
      split at hr
      · next hself => exact Or.inl (if_pos hself)
      next hself =>
      split at hr
      · next hrate =>
        rw [if_neg hself, if_pos hrate]
        exact Or.inr rfl
      · cases hr

/-- The log takes the report that the record takes. -/
theorem recalls_handleReportUser (hk : k.books.Recalls log env.now) (x : ConnId)
    (raw reason : String) :
    (k.handleReportUser env x raw reason).books.Recalls
      ((k.reportOf env x raw).toList ++ log) env.now := by
  rw [books_handleReportUser]
  refine hk.report (fun r hr => ?_) fun g hg => ?_
  · obtain ⟨c, -, rfl, -⟩ := reportOf_some hr
    rfl
  · obtain ⟨c, hc, rfl⟩ := Option.map_eq_some_iff.mp hg
    have hold : Window.Covers (secs 3600) env.now c.reportTimes (timesOn log x) := hk x _ hg
    cases hr : k.reportOf env x raw with
    | none =>
        rcases reportOf_none hc hr with hafter | hafter
        · rw [hafter]
          exact hold
        · rw [hafter]
          exact hold.retain
    | some r =>
        obtain ⟨c', hc', rfl, -, hafter⟩ := reportOf_some hr
        cases hc.symm.trans hc'
        have hnew : timesOn ((some (⟨x, c.userId, env.now⟩ : TakenReport)).toList ++ log) x
            = env.now :: timesOn log x := by
          simp [timesOn]
        rw [hnew, hafter]
        exact hold.retain.push env.now

end SimpleHub

-- ==================================================================== the invariant

/-- The log is of connections that were, the records recall it, and no user
has more than eight reports in an hour. -/
structure Counted (p : World × List TakenReport) : Prop where
  conns : ∀ r ∈ p.2, r.conn ∈ p.1.used
  recalls : p.1.hub.books.Recalls p.2 p.1.now
  bounded : ∀ u, Window.Bounded (secs 3600) SimpleHub.reportRatePerHour (timesBy p.2 u)

namespace SimpleHub

variable {sys : Sys} {p p' : World × List TakenReport} {i : Input}

theorem used_after (w : World) (i : Input) (hub : SimpleHub) : w.used ⊆ (w.after i hub).used := by
  intro x hx
  unfold World.after
  dsimp only
  split
  · exact Finset.mem_insert_of_mem hx
  · exact hx

/-- The last hour's reports of one kind, by their times. -/
theorem length_recentReports (log : List TakenReport) (now : Instant) (kind : TakenReport → Bool) :
    ((recentReports log now).filter kind).length
      = Window.recent (secs 3600) now ((log.filter kind).map TakenReport.at) := by
  have hsub : ∀ a b c : Nat, 0 < c → (a < b + c ↔ a - b < c) := by omega
  unfold recentReports Window.recent
  rw [List.filter_filter, List.countP_map, List.countP_filter, List.countP_eq_length_filter]
  refine congrArg List.length (List.filter_congr fun r _ => ?_)
  have hwindow := hsub now r.at (secs 3600) (by decide)
  rw [Bool.and_comm, Function.comp_apply, decide_eq_decide.mpr hwindow]

/-- A report that is taken leaves every user under the rate: its connection has
room, and then its user has. -/
theorem bounded_taken {k : SimpleHub} {env : Env} {log : List TakenReport} {x : ConnId}
    {raw : String}
    (hb : ∀ u, Window.Bounded (secs 3600) reportRatePerHour (timesBy log u))
    (hk : k.books.Recalls log env.now)
    (hroom : ∀ c, k.get x = some c →
      Window.recent (secs 3600) env.now (timesBy log c.userId) < reportRatePerHour
        ∨ reportRatePerHour ≤ Window.recent (secs 3600) env.now (timesOn log x)) (u : UserId) :
    Window.Bounded (secs 3600) reportRatePerHour
      (timesBy ((k.reportOf env x raw).toList ++ log) u) := by
  cases hr : k.reportOf env x raw with
  | none => exact hb u
  | some r =>
      obtain ⟨c, hc, rfl, hrate, -⟩ := reportOf_some hr
      by_cases hu : c.userId = u
      · have hnew : timesBy ((some (⟨x, c.userId, env.now⟩ : TakenReport)).toList ++ log) u
            = env.now :: timesBy log u := by
          simp [timesBy, hu]
        -- what the log has of the connection is on its record, which has room
        have hrecord : Window.recent (secs 3600) env.now (timesOn log x)
            ≤ Window.recent (secs 3600) env.now c.reportTimes :=
          hk x c.badge (by simp [books, hc]) env.now le_rfl
        have huser : Window.recent (secs 3600) env.now (timesBy log c.userId)
            < reportRatePerHour :=
          (hroom c hc).resolve_right (Nat.not_le.mpr (hrecord.trans_lt hrate))
        rw [hu] at huser
        rw [hnew]
        exact (hb u).cons huser
      · have hold : timesBy ((some (⟨x, c.userId, env.now⟩ : TakenReport)).toList ++ log) u
            = timesBy log u := by
          simp [timesBy, hu]
        rw [hold]
        exact hb u

/-- An event of which no report is taken. -/
theorem counted_quiet (hC : Counted p) {n : Nat} {hub : SimpleHub}
    (hnone : p.1.hub.takenBy i.env n i.event = none)
    (hr : hub.books.Recalls p.2 i.env.now) :
    Counted (p.1.after i hub, (p.1.hub.takenBy i.env n i.event).toList ++ p.2) := by
  rw [hnone]
  exact ⟨fun r hr => used_after _ _ _ (hC.conns r hr), hr, hC.bounded⟩

/-- A report by a user within the rate, whose handler is reached in the state
`k`: the sweep before it renames nobody. -/
theorem counted_report (hC : Counted p) {k : SimpleHub} {x : ConnId} {target reason : String}
    (he : i.event = .frame x (.reportUser target reason)) (hroom : WithinRate p i)
    (hx : x ∈ p.1.used) (hk : k.books.Recalls p.2 i.env.now)
    (husers : ∀ y g, k.books.badge y = some g →
      ∃ g', p.1.hub.books.badge y = some g' ∧ g.userId = g'.userId) :
    Counted (p.1.after i (k.handleReportUser i.env x target reason),
      (k.reportOf i.env x target).toList ++ p.2) := by
  unfold WithinRate at hroom
  rw [he] at hroom
  refine ⟨fun r hr => ?_, recalls_handleReportUser hk x target reason,
    bounded_taken hC.bounded hk fun c hc => ?_⟩
  · rcases List.mem_append.mp hr with hr | hr
    · obtain ⟨c, -, rfl, -⟩ := reportOf_some (Option.mem_toList.mp hr)
      exact used_after _ _ _ hx
    · exact used_after _ _ _ (hC.conns r hr)
  · obtain ⟨g', hg', huser⟩ := husers x c.badge (by simp [books, hc])
    have hname : p.1.hub.userOf x = c.userId := by
      obtain ⟨c', hc', rfl⟩ := Option.map_eq_some_iff.mp hg'
      unfold userOf
      rw [hc']
      exact huser.symm
    rw [← hname]
    have hby : _ = Window.recent (secs 3600) i.env.now (timesBy p.2 (p.1.hub.userOf x)) :=
      length_recentReports p.2 i.env.now (·.reporter = p.1.hub.userOf x)
    have hon : _ = Window.recent (secs 3600) i.env.now (timesOn p.2 x) :=
      length_recentReports p.2 i.env.now (·.conn = x)
    rw [← hby, ← hon]
    exact hroom

/-- **Step**: a report by a user within the rate stays under it, and a
connection that is full takes none. -/
theorem counted_step (hC : Counted p) (hroom : WithinRate p i)
    (hs : (reportMachine sys).step p i p') : Counted p' := by
  obtain ⟨⟨hnow, hpromised⟩, n, hub, hs, rfl⟩ := hs
  have hrecalls : p.1.hub.books.Recalls p.2 i.env.now := hC.recalls.later hnow
  have hkept := Books.kept_recalls p.2 i.env.now i.env
  by_cases hframe : ∃ x msg, i.event = .frame x msg
  · obtain ⟨x, msg, he⟩ := hframe
    rw [he] at hs hpromised
    obtain ⟨k, go, hpre, hn, husers, hk, hcase⟩ := frame_keeps hkept hrecalls hs
    by_cases hreport : ∃ target reason, msg = .reportUser target reason
    · obtain ⟨target, reason, rfl⟩ := hreport
      rcases hcase with ⟨rfl, rfl⟩ | ⟨rfl, hd⟩
      · refine counted_quiet hC ?_ hk
        rw [he]
        simp only [takenBy, hpre]
      have htaken : p.1.hub.takenBy i.env n i.event = k.reportOf i.env x target := by
        rw [he]
        simp only [takenBy, hpre]
      cases hd
      rw [htaken]
      exact counted_report hC he hroom hpromised.1 hk husers
    · have hnone : p.1.hub.takenBy i.env n i.event = none := by
        rw [he]
        cases msg with
        | reportUser target reason => exact absurd ⟨target, reason, rfl⟩ hreport
        | _ => rfl
      refine counted_quiet hC hnone ?_
      rcases hcase with ⟨-, rfl⟩ | ⟨-, hd⟩
      · exact hk
      by_cases hm : msg.keepsBooks = true ∨ ∃ m, msg = .hello m
      · exact dispatch_keeps hkept hk hn hm hd
      · push Not at hm
        obtain ⟨k', hk', hsame⟩ := dispatch_graph (settles_tryMatch n) hn x
          (Bool.eq_false_iff.mpr hm.1) hm.2 fun target reason hr => hreport ⟨target, reason, hr⟩
        cases hd.symm.trans hk'
        refine hk.of_badge fun y g hg => ⟨g, ?_, rfl⟩
        rwa [← hsame.badge]
  · refine counted_quiet hC ?_ (step_keeps hkept hrecalls (fun x ip b he hb => hb.enroll ?_)
      (fun x msg he => hframe ⟨x, msg, he⟩) hs)
    · cases he : i.event with
      | frame x msg => exact absurd ⟨x, msg, he⟩ hframe
      | _ => rfl
    · -- a connect brings a connection that never was
      rw [he] at hpromised
      intro r hr hconn
      exact hpromised.1 (hconn ▸ hC.conns r hr)

theorem counted_reach (h : ((reportMachine sys).guard WithinRate).Reach p) : Counted p := by
  refine h.invariant (I := Counted) ?_ ?_
  · rintro s rfl
    exact ⟨fun r hr => (nomatch hr), fun x g hg t ht => Nat.zero_le _,
      fun u => Window.bounded_nil⟩
  · rintro s l s' - hC ⟨hroom, hs⟩
    exact counted_step hC hroom hs

/-- **Report rate**: a user whose reports come while there is room for them over
all its connections has no more than eight taken in any hour. -/
theorem report_rate_per_person {sys : Sys} {p : World × List TakenReport}
    (h : ((reportMachine sys).guard WithinRate).Reach p) (u : UserId) (s : Instant) :
    (reportsBy p.2 u s).length ≤ reportRatePerHour := by
  have hheld := (counted_reach h).bounded u s
  have heq : (reportsBy p.2 u s).length
      = (timesBy p.2 u).countP fun t => s ≤ t ∧ t < s + secs 3600 := by
    unfold reportsBy timesBy
    rw [List.countP_map, List.countP_filter, List.countP_eq_length_filter]
    refine congrArg List.length (List.filter_congr fun r _ => ?_)
    change _ = (decide (s ≤ r.at ∧ r.at < s + secs 3600) && decide (r.reporter = u))
    rw [← Bool.decide_and]
    exact decide_eq_decide.mpr and_comm
  rw [heq]
  exact hheld

/-- A user whose texts are as short as its name. -/
def helloAs (user : UserId) : ClientMsg := .hello ⟨user, "", "", "", [], false, ""⟩

/-- A connection of a user who reports somebody eight times. -/
def eightReports : List (Instant × Event) :=
  [(0, .connect 1 "ip1"), (0, .frame 1 (helloAs "ann"))]
    ++ List.replicate 8 (1, .frame 1 (.reportUser "ffffeeeeccccdddd" "spam"))

/-- The same user comes back and reports once more. -/
def ninthReport : List (Instant × Event) :=
  [(2, .close 1), (3, .connect 2 "ip1"), (3, .frame 2 (helloAs "ann")),
    (4, .frame 2 (.reportUser "ffffeeeeccccdddd" "spam"))]

/-- Three reports, a reconnect, and five more. -/
def twoConnections : List (Instant × Event) :=
  [(0, .connect 1 "ip1"), (0, .frame 1 (helloAs "ann"))]
    ++ List.replicate 3 (1, .frame 1 (.reportUser "ffffeeeeccccdddd" "spam"))
    ++ [(2, .close 1), (3, .connect 2 "ip1"), (3, .frame 2 (helloAs "ann"))]
    ++ List.replicate 5 (4, .frame 2 (.reportUser "ffffeeeeccccdddd" "spam"))

/-- Two connections of one user make eight. -/
theorem report_rate_per_person_full : ∃ p, ((reportMachine plainSys).guard WithinRate).Reach p
    ∧ (reportsBy p.2 "ann" 0).length = 8 ∧ (reportsBy p.2 "ann" 0).length ≤ reportRatePerHour := by
  have hrun : (Machine.follow (Machine.guardNext WithinRate (reportNext 2))
      (World.start plainSys, []) (script twoConnections)).any
      (fun p => decide ((reportsBy p.2 "ann" 0).length = 8)) = true := by decide +kernel
  obtain ⟨p, hp, hlen⟩ := Machine.exists_reach (M := (reportMachine plainSys).guard WithinRate)
    (Machine.guardNext_step reportNext_step) rfl hrun
  exact ⟨p, hp, of_decide_eq_true hlen, report_rate_per_person hp "ann" 0⟩

/-- Nine reports of one user are taken within four milliseconds. -/
theorem reconnect_resets_report_rate : ¬ ∀ sys p, (reportMachine sys).Reach p →
    ∀ u s, (reportsBy p.2 u s).length ≤ reportRatePerHour := by
  intro hall
  have hrun : (Machine.follow (reportNext 2) (World.start plainSys, [])
      (script (eightReports ++ ninthReport))).any
      (fun p => decide ((reportsBy p.2 "ann" 0).length = 9)) = true := by decide +kernel
  obtain ⟨p, hp, hlen⟩ := Machine.exists_reach (M := reportMachine plainSys) reportNext_step rfl
    hrun
  have hle := hall plainSys p hp "ann" 0
  rw [of_decide_eq_true hlen] at hle
  exact absurd hle (by decide)

end SimpleHub

end Ruletka
