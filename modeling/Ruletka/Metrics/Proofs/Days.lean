/-
The metrics against the journal, while the clock does not run backwards.

# Days

The counters tell the events of the day since the hub was started. A day that
ends while the hub runs is written, and never again: its row tells what the
journal put away, as long as it is among the newest. What was counted before
a restart on the same day is in neither.

# Loss

Each watched counter is written each time it is full, so what is not yet
written is less than that.
-/
import Ruletka.Metrics.Proofs.Rows

namespace Ruletka

open ConnMetrics Metrics Recent

-- ========================================================================= telling

namespace DayMetrics

variable {m m' : DayMetrics} {day : String} {evs : DayEvents}

theorem Tells.fits (h : m.Tells day evs) : m.Fits := by
  intro c
  rw [h.count c]
  exact min_le_right _ _

theorem tells_new (day : String) : (new day).Tells day [] where
  day := rfl
  count _ := rfl
  online _ := iff_of_true (Nat.zero_le _) fun _ hp => absurd hp List.not_mem_nil
  waiting _ := iff_of_true (Nat.zero_le _) fun _ hp => absurd hp List.not_mem_nil
  conn := ⟨Tally.countsNamed_nil _ _ _, Tally.countsNamed_nil _ _ _, Tally.counts_nil _,
    Tally.counts_nil _⟩

/-- A peak after one more look. -/
theorem peak_append {evs : DayEvents} {peak : Nat} {f : MetricsNow → Nat}
    (h : ∀ n, peak ≤ n ↔ ∀ p ∈ evs, p.2.looks → f p.1 ≤ n) (now : MetricsNow) (e : MetricsEvent)
    (n : Nat) : (if e.looks then max peak (f now) else peak) ≤ n
      ↔ ∀ p ∈ evs ++ [(now, e)], p.2.looks → f p.1 ≤ n := by
  rw [List.forall_mem_append, List.forall_mem_singleton, ← h n]
  split
  case isTrue hl => simp only [max_le_iff, hl, forall_const]
  case isFalse hl => simp only [hl, Bool.false_eq_true, false_implies, and_true]

/-- A table after one more key, or none. -/
theorem counts_append {t : ConnMetrics.Counts} {keys : List String}
    (h : Tally.Counts u64Max t keys) (key : Option String) :
    Tally.Counts u64Max (key.elim t (bumpFixed t)) (keys ++ key.toList) := by
  cases key with
  | none => simpa using h
  | some k => exact h.bump k

theorem countsNamed_append {t : ConnMetrics.Counts} {keys : List String}
    (h : Tally.CountsNamed u64Max countryTopN other t keys) (key : Option String) :
    Tally.CountsNamed u64Max countryTopN other (key.elim t (bumpTopN t · countryTopN))
      (keys ++ key.toList) := by
  cases key with
  | none => simpa using h
  | some k => exact h.bumpNamed (by decide) k

theorem filterMap_snoc {α β : Type} (f : α → Option β) (l : List α) (a : α) :
    (l ++ [a]).filterMap f = l.filterMap f ++ (f a).toList := by
  rw [List.filterMap_append]
  cases h : f a with
  | none => simp [h]
  | some b => simp [h]

/-- **Step**: the counters after an event tell it too. -/
theorem Tells.changes (h : m.Tells day evs) {now : MetricsNow} {e : MetricsEvent}
    (hc : e.Changes now m m') : m'.Tells day (evs ++ [(now, e)]) where
  day := hc.day.trans h.day
  count c := by
    rw [hc.count c, h.count c, List.map_append, List.sum_append]
    exact Tally.addUpTo_min _ _ _
  online n := by
    rw [hc.online]
    exact peak_append h.online now e n
  waiting n := by
    rw [hc.waiting]
    exact peak_append h.waiting now e n
  conn := by
    refine ⟨?_, ?_, ?_, ?_⟩
    · rw [hc.okByCountry, filterMap_snoc]
      exact countsNamed_append h.conn.okByCountry _
    · rw [hc.failByCountry, filterMap_snoc]
      exact countsNamed_append h.conn.failByCountry _
    · rw [hc.okByIcePath, filterMap_snoc]
      exact counts_append h.conn.okByIcePath _
    · rw [hc.okByRung, filterMap_snoc]
      exact counts_append h.conn.okByRung _

end DayMetrics

-- ========================================================================== meters

namespace Meter

/-- A sum of counters moves by what is added, or less when one is at its top. -/
theorem read_changes {e : MetricsEvent} {now : MetricsNow} {m m' : DayMetrics} (hm : m.Fits)
    (hc : e.Changes now m m') (μ : Meter) :
    μ.read m ≤ μ.read m' ∧ μ.read m' ≤ μ.read m + μ.moved e := by
  unfold read moved
  induction μ.counters with
  | nil => exact ⟨le_refl _, Nat.zero_le _⟩
  | cons c l ih =>
      have hcount := hc.count c
      have hfit := hm c
      unfold saturatingAdd Tally.addUpTo at hcount
      simp only [List.map_cons, List.sum_cons]
      omega

/-- The marks are at most that far apart, also where the sum wraps. -/
theorem exists_mark {top every : Nat} (htop : 0 < top) (hevery : 0 < every) (base : Nat) :
    ∃ t, base < t ∧ t ≤ base + every ∧ t % top % every = 0 := by
  have hr : base % top % every < every := Nat.mod_lt _ hevery
  have hb : base % top < top := Nat.mod_lt _ htop
  by_cases hwrap : base % top + (every - base % top % every) < top
  · refine ⟨base + (every - base % top % every), by omega, by omega, ?_⟩
    have hround : base % top + (every - base % top % every)
        = every * (base % top / every + 1) := by
      have hdiv := Nat.div_add_mod (base % top) every
      rw [Nat.mul_add, Nat.mul_one]
      omega
    rw [← Nat.mod_add_mod, Nat.mod_eq_of_lt hwrap, hround, Nat.mul_mod_right]
  · refine ⟨base + (top - base % top), by omega, by omega, ?_⟩
    have htop : base % top + (top - base % top) = top := by omega
    rw [← Nat.mod_add_mod, htop, Nat.mod_self, Nat.zero_mod]

end Meter

/-- A row is behind the counters, but no watched counter was full since. -/
def Behind (base m : DayMetrics) : Prop :=
  ∀ μ ∈ meters, μ.read base ≤ μ.read m
    ∧ ∀ t, μ.read base < t → t ≤ μ.read m → t % 2 ^ 64 % μ.every ≠ 0

theorem Behind.refl (m : DayMetrics) : Behind m m := by
  refine fun μ _ => ⟨le_refl _, fun t hlt hle => ?_⟩
  omega

theorem Behind.changes {base m m' : DayMetrics} (h : Behind base m) (hm : m.Fits)
    (hm' : m'.Fits) {e : MetricsEvent} {now : MetricsNow} (hc : e.Changes now m m')
    {due : DayMetrics → Bool} (hmeets : e.Meets due) (hdue : due m' = false) : Behind base m' := by
  intro μ hμ
  obtain ⟨hle, hmark⟩ := h μ hμ
  obtain ⟨hup, hmoved⟩ := μ.read_changes hm hc
  refine ⟨hle.trans hup, fun t hlt ht => ?_⟩
  by_cases hold : t ≤ μ.read m
  · exact hmark t hlt hold
  · -- the meter moved, to exactly here
    rcases hmeets μ hμ with h0 | ⟨h1, hfull⟩
    · omega
    · obtain rfl : t = μ.read m' := by omega
      intro hmod
      rw [hfull m' hm' hmod] at hdue
      cases hdue

theorem Behind.lt {base m : DayMetrics} (h : Behind base m) {μ : Meter} (hμ : μ ∈ meters) :
    μ.read m < μ.read base + μ.every := by
  have hpos : ∀ μ ∈ meters, 0 < μ.every := by decide
  obtain ⟨t, hlt, hle, hmod⟩ := Meter.exists_mark (Nat.two_pow_pos 64) (hpos μ hμ) (μ.read base)
  by_contra hno
  exact (h μ hμ).2 t hlt (by omega) hmod

-- =========================================================================== books

/-- The metrics, the file and the journal agree. -/
structure InBooks (s : MetricsStore) (j : Journal) : Prop where
  named : j.day ≠ ""
  today : s.metrics.Tells j.day j.today
  filed : s.Filed
  upTo : ∀ row ∈ s.flushed, row.day ≤ j.day
  past : ∀ p ∈ j.past, p.1 < j.day
    ∧ ∃ row, held DayMetrics.day s.flushed p.1 = some row ∧ row.Tells p.1 p.2

/-- What this process has written of today, and how far it is behind. -/
def Written (s : MetricsStore) (j : Journal) : Prop :=
  ∃ written base, written <+: j.today ∧ base.Tells j.day written
    ∧ (s.wrote = true → held DayMetrics.day s.flushed j.day = some base)
    ∧ (s.wrote = false → written = []) ∧ Behind base s.metrics

namespace InBooks

variable {s : MetricsStore} {j : Journal} {today : String}

theorem flushed (h : InBooks s j) : s.metricsFlush.flushed = s.flushed ++ [s.metrics] := by
  unfold MetricsStore.metricsFlush
  rw [if_neg (h.today.day ▸ h.named)]

theorem wrote_flush (h : InBooks s j) : s.metricsFlush.wrote = true := by
  unfold MetricsStore.metricsFlush
  rw [if_neg (h.today.day ▸ h.named)]

theorem metrics_flush (s : MetricsStore) : s.metricsFlush.metrics = s.metrics := by
  unfold MetricsStore.metricsFlush
  split
  · rfl
  · rfl

theorem upTo_flush (h : InBooks s j) : ∀ row ∈ s.metricsFlush.flushed, row.day ≤ j.day := by
  intro row hrow
  rw [h.flushed] at hrow
  rcases List.mem_append.mp hrow with hrow | hrow
  · exact h.upTo row hrow
  · rw [List.mem_singleton.mp hrow, h.today.day]

/-- Writing today touches no day of the past. -/
theorem past_flush (h : InBooks s j) : ∀ p ∈ j.past, p.1 < j.day
    ∧ ∃ row, held DayMetrics.day s.metricsFlush.flushed p.1 = some row ∧ row.Tells p.1 p.2 := by
  intro p hp
  obtain ⟨hlt, row, hrow, htells⟩ := h.past p hp
  refine ⟨hlt, row, ?_, htells⟩
  rw [h.flushed, held_append_singleton, if_neg (h.today.day ▸ hlt.ne)]
  exact hrow

theorem held_flush (h : InBooks s j) :
    held DayMetrics.day s.metricsFlush.flushed j.day = some s.metrics := by
  rw [h.flushed, held_append_singleton, if_pos h.today.day.symm]

theorem flush (h : InBooks s j) : InBooks s.metricsFlush j ∧ Written s.metricsFlush j := by
  have htoday : s.metricsFlush.metrics.Tells j.day j.today := by
    rw [metrics_flush]
    exact h.today
  refine ⟨⟨h.named, htoday, h.filed.metricsFlush, h.upTo_flush, h.past_flush⟩, j.today, s.metrics,
    List.prefix_refl _, h.today, fun _ => h.held_flush,
    fun hno => absurd (hno.symm.trans h.wrote_flush) Bool.false_ne_true, ?_⟩
  rw [metrics_flush]
  exact Behind.refl _

theorem named_of_le (h : InBooks s j) (hle : j.day ≤ today) : today ≠ "" := by
  rintro rfl
  have hempty : "" ≤ j.day := not_lt.mp fun hlt =>
    List.not_lt_nil _ (String.lt_iff_toList_lt.mp hlt)
  exact h.named (le_antisymm hle hempty)

/-- Another day begins, with what has been written. -/
theorem anew {flushed : List DayMetrics} {file : List (Option DayMetrics)}
    {past : List (String × DayEvents)} (hnamed : today ≠ "")
    (hfiled : (⟨.new today, file, flushed, false⟩ : MetricsStore).Filed)
    (hupTo : ∀ row ∈ flushed, row.day ≤ today)
    (hpast : ∀ p ∈ past, p.1 < today
      ∧ ∃ row, held DayMetrics.day flushed p.1 = some row ∧ row.Tells p.1 p.2) :
    InBooks ⟨.new today, file, flushed, false⟩ ⟨today, [], past⟩
      ∧ Written ⟨.new today, file, flushed, false⟩ ⟨today, [], past⟩ :=
  ⟨⟨hnamed, DayMetrics.tells_new today, hfiled, hupTo, hpast⟩, [], .new today, List.nil_prefix,
    DayMetrics.tells_new today, fun hyes => absurd hyes Bool.false_ne_true, fun _ => rfl,
    Behind.refl _⟩

theorem turn (h : InBooks s j) (hw : Written s j) (hle : j.day ≤ today) :
    InBooks (s.metricsRollDay today) (j.turn today)
      ∧ Written (s.metricsRollDay today) (j.turn today) := by
  have hday : s.metrics.day = j.day := h.today.day
  have hname : s.nameDay today = s := if_neg (hday ▸ h.named)
  unfold MetricsStore.metricsRollDay Journal.turn
  rw [hname]
  by_cases heq : today = j.day
  · rw [if_pos heq]
    dsimp only
    rw [if_neg (not_not.mpr (hday.trans heq.symm))]
    exact ⟨h, hw⟩
  · have hlt : j.day < today := lt_of_le_of_ne hle (Ne.symm heq)
    rw [if_neg heq]
    dsimp only
    rw [if_pos (fun hd => heq (hd.symm.trans hday))]
    refine anew (h.named_of_le hle) h.filed.metricsFlush
      (fun row hrow => (h.upTo_flush row hrow).trans hle) fun p hp => ?_
    rcases List.mem_cons.mp hp with rfl | hp
    · exact ⟨hlt, s.metrics, h.held_flush, h.today⟩
    · obtain ⟨hbefore, hrow⟩ := h.past_flush p hp
      exact ⟨hbefore.trans hlt, hrow⟩

/-- **Step**: a call keeps the books. -/
theorem record (h : InBooks s j) (hw : Written s j) {now : MetricsNow} (hle : j.day ≤ now.today)
    {e : MetricsEvent} {change : DayMetrics → DayMetrics} {due : DayMetrics → Bool}
    (hr : s.Recorded now e change due) :
    InBooks (s.record now change due) ((j.turn now.today).add now e)
      ∧ Written (s.record now change due) ((j.turn now.today).add now e) := by
  obtain ⟨h, written, base, hprefix, htells, hheld, hnone, hbehind⟩ := h.turn hw hle
  unfold MetricsStore.record
  generalize s.metricsRollDay now.today = r at h hheld hnone hbehind ⊢
  generalize j.turn now.today = k at h hprefix htells hheld ⊢
  have hc := hr.changes r.metrics h.today.fits
  have htoday := h.today.changes hc
  have hbooks : InBooks { r with metrics := change r.metrics } (k.add now e) :=
    ⟨h.named, htoday, h.filed, h.upTo, h.past⟩
  dsimp only
  split
  case isTrue => exact hbooks.flush
  case isFalse hdue =>
    exact ⟨hbooks, written, base, hprefix.trans (List.prefix_append _ _), htells, hheld, hnone,
      hbehind.changes h.today.fits htoday.fits hc hr.meets (Bool.eq_false_iff.mpr hdue)⟩

theorem step (h : InBooks s j) (hw : Written s j) {now : MetricsNow} (hle : j.day ≤ now.today)
    (e : MetricsEvent) :
    InBooks (s.step now e) (j.note now e) ∧ Written (s.step now e) (j.note now e) := by
  cases he : e.counted with
  | true =>
      obtain ⟨change, due, hr⟩ := s.recorded now he
      unfold Journal.note
      rw [hr.step, if_pos he]
      exact h.record hw hle hr
  | false =>
      rcases s.step_of_not_counted now he with rfl | ⟨hs, hj⟩
      · refine anew (h.named_of_le hle) h.filed (fun row hrow => (h.upTo row hrow).trans hle)
          fun p hp => ?_
        obtain ⟨hbefore, hrow⟩ := h.past p hp
        exact ⟨lt_of_lt_of_le hbefore hle, hrow⟩
      · rw [hs, hj]
        exact ⟨h, hw⟩

theorem reach (hday : today ≠ "") (hr : (journalMachine today).Reach (s, j)) :
    InBooks s j ∧ Written s j := by
  refine hr.invariant (I := fun p => InBooks p.1 p.2 ∧ Written p.1 p.2) (fun p hp => ?_)
    fun p l p' _ hp hs => ?_
  · obtain ⟨hs, hj⟩ := hp
    obtain ⟨s, j⟩ := p
    obtain rfl : s = .first today := hs
    obtain rfl : j = .first today := hj
    exact anew hday (MetricsStore.filed_first today) (fun _ h => absurd h List.not_mem_nil)
      fun _ h => absurd h List.not_mem_nil
  · obtain ⟨hle, hs, hj⟩ := hs
    obtain ⟨s', j'⟩ := p'
    obtain rfl : s' = p.1.step l.1 l.2 := hs
    obtain rfl : j' = p.2.note l.1 l.2 := hj
    exact hp.1.step hp.2 hle l.2

end InBooks

namespace MetricsStore

variable {s : MetricsStore} {j : Journal} {today : String}

/-- **Run**: the counters tell today's events since the hub was started, and
a day that ended is on file with exactly what it counted since the hub was
started on it, until ninety later days are. -/
theorem days_kept (hday : today ≠ "") (hr : (journalMachine today).Reach (s, j)) :
    s.metrics.Tells j.day j.today ∧ ∀ p ∈ j.past,
      (∃ row, some row ∈ s.file ∧ row.Tells p.1 p.2
        ∧ ∀ row', some row' ∈ s.file → row'.day = p.1 → row' = row)
      ∨ s.file.length = 90 ∧ ∀ row, some row ∈ s.file → p.1 < row.day := by
  obtain ⟨h, -⟩ := InBooks.reach hday hr
  refine ⟨h.today, fun p hp => ?_⟩
  obtain ⟨-, row, hrow, htells⟩ := h.past p hp
  obtain ⟨hrowday, -⟩ := held_some hrow
  have hfile : ∀ r, some r ∈ s.file ↔ r ∈ newest DayMetrics.day DayMetrics.day 90 s.flushed := by
    intro r
    have hfiled : s.file = (newest DayMetrics.day DayMetrics.day 90 s.flushed).map some := h.filed
    rw [hfiled, List.mem_map]
    constructor
    · rintro ⟨r', hr', heq⟩
      exact Option.some.inj heq ▸ hr'
    · exact fun hr' => ⟨r, hr', rfl⟩
  by_cases hroom : newer DayMetrics.day DayMetrics.day s.flushed row < 90
  · refine .inl ⟨row, (hfile row).mpr ?_, htells, fun row' hrow' hd => ?_⟩
    · exact (mem_newest separates_self).mpr ⟨holds_held hrow, hroom⟩
    · have hheld := ((mem_newest separates_self).mp ((hfile row').mp hrow')).1
      rw [hd, hrow] at hheld
      exact (Option.some.inj hheld).symm
  · obtain ⟨hlen, hall⟩ := newest_full (not_lt.mp hroom)
    refine .inr ⟨?_, fun r hr => ?_⟩
    · rw [h.filed, List.length_map]
      exact hlen
    · rw [← hrowday]
      exact hall r ((hfile r).mp hr)

/-- What the journal noted of two reports. -/
def twoNotes : Journal :=
  ((Journal.first "2026-11-19").note ⟨"2026-11-19", 1, 0⟩ .report).note ⟨"2026-11-20", 1, 0⟩
    .report

theorem reach_twoNotes : (journalMachine "2026-11-19").Reach (twoReports, twoNotes) := by
  have hstart : (journalMachine "2026-11-19").Reach
      (first "2026-11-19", Journal.first "2026-11-19") := .start ⟨rfl, rfl⟩
  have hone : (journalMachine "2026-11-19").Reach
      ((first "2026-11-19").step ⟨"2026-11-19", 1, 0⟩ .report,
        (Journal.first "2026-11-19").note ⟨"2026-11-19", 1, 0⟩ .report) :=
    hstart.step (l := (⟨"2026-11-19", 1, 0⟩, .report)) ⟨le_refl _, rfl, rfl⟩
  unfold twoReports twoNotes
  exact hone.step (l := (⟨"2026-11-20", 1, 0⟩, .report)) ⟨by decide, rfl, rfl⟩

/-- The first day is kept with its report. -/
theorem days_kept_two :
    twoReports.metrics.Tells "2026-11-20" [(⟨"2026-11-20", 1, 0⟩, .report)]
      ∧ ((∃ row, some row ∈ twoReports.file
          ∧ row.Tells "2026-11-19" [(⟨"2026-11-19", 1, 0⟩, .report)]
          ∧ ∀ row', some row' ∈ twoReports.file → row'.day = "2026-11-19" → row' = row)
        ∨ twoReports.file.length = 90
          ∧ ∀ row, some row ∈ twoReports.file → "2026-11-19" < row.day) :=
  ⟨(days_kept (by decide) reach_twoNotes).1,
    (days_kept (by decide) reach_twoNotes).2 _ (List.mem_singleton_self _)⟩

/-- **Run**: the row of today, once this process has written one, tells today's
first events, and no watched counter is a full round ahead of it. -/
theorem little_lost (hday : today ≠ "") (hr : (journalMachine today).Reach (s, j)) :
    ∃ written base, written <+: j.today ∧ base.Tells j.day written
      ∧ (s.wrote = true → some base ∈ s.file
        ∧ ∀ row, some row ∈ s.file → row.day = j.day → row = base)
      ∧ (s.wrote = false → written = [])
      ∧ ∀ μ ∈ meters, μ.read s.metrics < μ.read base + μ.every := by
  obtain ⟨h, written, base, hprefix, htells, hheld, hnone, hbehind⟩ := InBooks.reach hday hr
  refine ⟨written, base, hprefix, htells, fun hwrote => ?_, hnone, fun μ hμ => hbehind.lt hμ⟩
  have hheld := hheld hwrote
  have hnewest : newer DayMetrics.day DayMetrics.day s.flushed base = 0 := by
    refine newer_eq_zero fun row hrow => ?_
    rw [(held_some hheld).1]
    exact h.upTo row hrow
  rw [h.filed]
  constructor
  · refine List.mem_map_of_mem ((mem_newest separates_self).mpr ⟨holds_held hheld, ?_⟩)
    rw [hnewest]
    decide
  · intro row hrow hday
    obtain ⟨row', hmem, heq⟩ := List.mem_map.mp hrow
    have hlast := ((mem_newest separates_self).mp (Option.some.inj heq ▸ hmem)).1
    rw [hday, hheld] at hlast
    exact (Option.some.inj hlast).symm

/-- The second report is written at once. -/
theorem little_lost_two : ∃ written base, written <+: twoNotes.today
    ∧ base.Tells "2026-11-20" written ∧ some base ∈ twoReports.file
    ∧ ∀ μ ∈ meters, μ.read twoReports.metrics < μ.read base + μ.every := by
  obtain ⟨written, base, hprefix, htells, hwrote, -, hmeters⟩ :=
    little_lost (by decide) reach_twoNotes
  have hyes : twoReports.wrote = true := by decide
  exact ⟨written, base, hprefix, htells, (hwrote hyes).1, hmeters⟩

end MetricsStore

end Ruletka
