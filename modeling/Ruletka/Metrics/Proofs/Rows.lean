/-
The rows of `metrics.jsonl`.

Every write reads the file and rewrites it, with the new row in the place of
the one of its day. Whatever the calls, the restarts and the clock, the file
is what a log of all written rows keeps: the last row of each day, oldest
first, for the newest ninety days.
-/
import Ruletka.Metrics.Proofs.Calls
import Ruletka.Lib.Recent

namespace Ruletka

open Recent

namespace MetricsStore

/-- The file holds the newest rows that were written. -/
def Filed (s : MetricsStore) : Prop :=
  s.file = (newest DayMetrics.day DayMetrics.day keptDays s.flushed).map some

theorem filterMap_map_some {α : Type} (l : List α) : (l.map some).filterMap id = l := by
  rw [List.filterMap_map]
  exact List.filterMap_some

theorem sorted_newest (n : Nat) (l : List DayMetrics) :
    (newest DayMetrics.day DayMetrics.day n l).Pairwise fun v w => v.day < w.day :=
  (sorted_ranked separates_self l).sublist (List.drop_sublist _ _)

theorem Filed.metricsFlush {s : MetricsStore} (hs : s.Filed) : s.metricsFlush.Filed := by
  unfold MetricsStore.metricsFlush
  split
  case isTrue => exact hs
  case isFalse =>
    have hrows := sorted_newest keptDays s.flushed
    unfold Filed at hs ⊢
    dsimp only
    rw [hs, ← newest_append_singleton, newest_insert hrows]
    unfold rewrite
    rw [filterMap_map_some]
    rfl

/-- What every write keeps and does not look at the counters, every call
keeps. -/
theorem record_keeps {I : MetricsStore → Prop} (hflush : ∀ s, I s → I s.metricsFlush)
    (hmetrics : ∀ s m w, I s → I { s with metrics := m, wrote := w }) {s : MetricsStore} (hs : I s)
    (now : MetricsNow) (change : DayMetrics → DayMetrics) (due : DayMetrics → Bool) :
    I (s.record now change due) := by
  have hday : I (s.nameDay now.today) := by
    unfold nameDay
    split
    case isTrue => exact hmetrics s _ _ hs
    case isFalse => exact hs
  have hroll : I (s.metricsRollDay now.today) := by
    unfold metricsRollDay
    dsimp only
    split
    case isTrue => exact hmetrics _ _ _ (hflush _ hday)
    case isFalse => exact hday
  unfold record
  dsimp only
  split
  case isTrue => exact hflush _ (hmetrics _ _ _ hroll)
  case isFalse => exact hmetrics _ _ _ hroll

theorem step_keeps {I : MetricsStore → Prop} (hflush : ∀ s, I s → I s.metricsFlush)
    (hmetrics : ∀ s m w, I s → I { s with metrics := m, wrote := w }) {s : MetricsStore} (hs : I s)
    (now : MetricsNow) (e : MetricsEvent) : I (s.step now e) := by
  cases he : e.counted with
  | true =>
      obtain ⟨change, due, h⟩ := s.recorded now he
      rw [h.step]
      exact record_keeps hflush hmetrics hs now change due
  | false =>
      rcases s.step_of_not_counted now he with rfl | ⟨h, -⟩
      · exact hmetrics s _ _ hs
      · rw [h]
        exact hs

theorem filed_first (today : String) : (first today).Filed := by
  unfold Filed first
  rw [(newest_eq_nil_iff separates_self (by decide)).mpr rfl]
  rfl

theorem filed_reach {today : String} {s : MetricsStore} (hr : (metricsMachine today).Reach s) :
    s.Filed := by
  refine hr.invariant (I := Filed) (fun s hs => ?_) fun s l s' _ hs heq => ?_
  · obtain rfl : s = first today := hs
    exact filed_first today
  · obtain rfl : _ = s.step l.1 l.2 := heq
    exact step_keeps (fun _ h => h.metricsFlush) (fun _ _ _ h => h) hs l.1 l.2

/-- The last entries of the last entries. -/
theorem lastN_lastN {n k : Nat} (h : n ≤ k) {α : Type} (l : List α) :
    lastN n (lastN k l) = lastN n l := by
  unfold lastN
  rw [List.drop_drop, List.length_drop]
  congr 1
  omega

theorem Filed.history {s : MetricsStore} (hs : s.Filed) :
    s.history = newest DayMetrics.day DayMetrics.day 14 s.flushed := by
  unfold Filed at hs
  unfold MetricsStore.history
  rw [hs, List.filterMap_reverse, filterMap_map_some, List.take_reverse, List.reverse_reverse]
  exact lastN_lastN (by decide) _

/-- **Run**: whatever is called and whenever the hub is started again, the
file is the newest ninety rows of all that were written, one for each day,
and a snapshot shows the newest fourteen. -/
theorem rows_are_newest {today : String} {s : MetricsStore}
    (hr : (metricsMachine today).Reach s) :
    s.file = (newest DayMetrics.day DayMetrics.day 90 s.flushed).map some
      ∧ s.history = newest DayMetrics.day DayMetrics.day 14 s.flushed :=
  ⟨filed_reach hr, (filed_reach hr).history⟩

/-- A report on one day, and one on the next. -/
def twoReports : MetricsStore :=
  ((first "2026-11-19").step ⟨"2026-11-19", 1, 0⟩ .report).step ⟨"2026-11-20", 1, 0⟩ .report

theorem reach_twoReports : (metricsMachine "2026-11-19").Reach twoReports := by
  have hstart : (metricsMachine "2026-11-19").Reach (first "2026-11-19") := .start rfl
  have hone : (metricsMachine "2026-11-19").Reach
      ((first "2026-11-19").step ⟨"2026-11-19", 1, 0⟩ .report) :=
    hstart.step (l := (⟨"2026-11-19", 1, 0⟩, .report)) rfl
  unfold twoReports
  exact hone.step (l := (⟨"2026-11-20", 1, 0⟩, .report)) rfl

/-- The two rows of two days. -/
theorem rows_are_newest_two :
    twoReports.file = (newest DayMetrics.day DayMetrics.day 90 twoReports.flushed).map some
      ∧ twoReports.history = newest DayMetrics.day DayMetrics.day 14 twoReports.flushed :=
  rows_are_newest reach_twoReports

end MetricsStore

end Ruletka
