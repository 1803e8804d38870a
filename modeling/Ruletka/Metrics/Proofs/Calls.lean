/-
What one call does to the counters, and when it writes them.

A call that counts its event is a `record`: it adds what the event adds, and
of the counters that are watched it moves at most one, by one, and writes
when that one is full.
-/
import Ruletka.Metrics.Journal

namespace Ruletka

open ConnMetrics Metrics

-- ======================================================================== amounts

theorem saturatingAdd_saturatingAdd (a b c : Nat) :
    saturatingAdd (saturatingAdd a b) c = saturatingAdd a (b + c) := by
  unfold saturatingAdd Tally.addUpTo
  omega

theorem saturatingAdd_zero {a : Nat} (h : a ≤ u64Max) : saturatingAdd a 0 = a := by
  unfold saturatingAdd Tally.addUpTo
  omega

namespace DayMetrics

/-- Every counter fits its 64 bits. -/
def Fits (m : DayMetrics) : Prop := ∀ c, m.count c ≤ u64Max

theorem Fits.count_add {m : DayMetrics} (hm : m.Fits) (d : Counter) (n : Nat) (c : Counter) :
    (m.add d n).count c = saturatingAdd (m.count c) (d.amount n c) := by
  rw [DayMetrics.count_add]
  unfold Counter.amount
  split
  case isTrue h => rw [h]
  case isFalse => rw [saturatingAdd_zero (hm c)]

theorem Fits.add {m : DayMetrics} (hm : m.Fits) (d : Counter) (n : Nat) : (m.add d n).Fits := by
  intro c
  rw [hm.count_add]
  exact min_le_right _ _

theorem Fits.count_add_add {m : DayMetrics} (hm : m.Fits) (d d' : Counter) (n n' : Nat)
    (c : Counter) : ((m.add d n).add d' n').count c
      = saturatingAdd (m.count c) (d.amount n c + d'.amount n' c) := by
  rw [(hm.add d n).count_add, hm.count_add, saturatingAdd_saturatingAdd]

end DayMetrics

-- ========================================================================== meters

/-- Counters that are written each time their sum is a multiple. -/
structure Meter where
  counters : List Counter
  every : Nat
  deriving DecidableEq

namespace Meter

def read (μ : Meter) (m : DayMetrics) : Nat := (μ.counters.map m.count).sum

/-- The sum of 64 bits is a multiple. -/
def Full (μ : Meter) (m : DayMetrics) : Prop := μ.read m % 2 ^ 64 % μ.every = 0

/-- What an event adds to the sum. -/
def moved (μ : Meter) (e : MetricsEvent) : Nat := (μ.counters.map e.adds).sum

end Meter

/-- The counters that a call writes on its own account. -/
def meters : List Meter :=
  [⟨[.matches], 5⟩, ⟨[.friendCalls], 3⟩, ⟨[.reports], 1⟩, ⟨[.blocks], 3⟩, ⟨[.starHourAwards], 3⟩,
    ⟨[.starGifts], 5⟩, ⟨[.starSpendOk, .starSpendFail], 5⟩, ⟨funnelTotalled, 10⟩]

-- =========================================================================== calls

/-- What an event does to the counters. -/
structure MetricsEvent.Changes (e : MetricsEvent) (now : MetricsNow) (m m' : DayMetrics) :
    Prop where
  day : m'.day = m.day
  count : ∀ c, m'.count c = saturatingAdd (m.count c) (e.adds c)
  online : m'.peakOnline = if e.looks then max m.peakOnline now.online else m.peakOnline
  waiting : m'.peakWaiting = if e.looks then max m.peakWaiting now.waiting else m.peakWaiting
  okByCountry : m'.funnelConn.matchOkByCountry = (e.countryOf "match_ok").elim
    m.funnelConn.matchOkByCountry (bumpTopN m.funnelConn.matchOkByCountry · countryTopN)
  failByCountry : m'.funnelConn.matchFailIceByCountry = (e.countryOf "match_fail_ice").elim
    m.funnelConn.matchFailIceByCountry (bumpTopN m.funnelConn.matchFailIceByCountry · countryTopN)
  okByIcePath : m'.funnelConn.matchOkByIcePath = e.okIcePathOf.elim
    m.funnelConn.matchOkByIcePath (bumpFixed m.funnelConn.matchOkByIcePath)
  okByRung : m'.funnelConn.matchOkByRung = e.okRungOf.elim
    m.funnelConn.matchOkByRung (bumpFixed m.funnelConn.matchOkByRung)

/-- The call writes when a meter that it moved is full. -/
def MetricsEvent.Meets (e : MetricsEvent) (due : DayMetrics → Bool) : Prop :=
  ∀ μ ∈ meters, μ.moved e = 0
    ∨ μ.moved e = 1 ∧ ∀ m : DayMetrics, m.Fits → μ.Full m → due m = true

namespace MetricsEvent

variable {e : MetricsEvent} {due : DayMetrics → Bool} {d : Counter}

theorem moved_eq_count {μ : Meter} (h : ∀ c ∈ μ.counters, e.adds c = d.amount 1 c) :
    μ.moved e = μ.counters.count d := by
  unfold Meter.moved
  rw [List.map_congr_left h]
  induction μ.counters with
  | nil => rfl
  | cons c l ih =>
      rw [List.map_cons, List.sum_cons, ih, List.count_cons, Nat.add_comm]
      unfold Counter.amount
      simp only [beq_iff_eq]

/-- A counter that no meter has. -/
theorem amount_unwatched (hd : ∀ μ ∈ meters, d ∉ μ.counters) (n : Nat) :
    ∀ μ ∈ meters, ∀ c ∈ μ.counters, d.amount n c = 0 := by
  intro μ hμ c hc
  refine if_neg fun heq => hd μ hμ ?_
  rwa [← heq]

/-- An event that moves no counter of a meter. -/
theorem meets_none (h : ∀ μ ∈ meters, ∀ c ∈ μ.counters, e.adds c = 0) : e.Meets due := by
  refine fun μ hμ => .inl ?_
  unfold Meter.moved
  rw [List.map_congr_left (h μ hμ)]
  simp

/-- An event that moves one counter at most, by one. -/
theorem meets_one (hadds : ∀ μ ∈ meters, ∀ c ∈ μ.counters, e.adds c = d.amount 1 c)
    (hdue : ∀ μ ∈ meters, d ∈ μ.counters → ∀ m : DayMetrics, m.Fits → μ.Full m → due m = true) :
    e.Meets due := by
  have hnodup : ∀ μ ∈ meters, μ.counters.Nodup := by decide
  intro μ hμ
  rw [moved_eq_count (hadds μ hμ)]
  by_cases hd : d ∈ μ.counters
  · exact .inr ⟨List.count_eq_one_of_mem (hnodup μ hμ) hd, hdue μ hμ hd⟩
  · exact .inl (List.count_eq_zero.mpr hd)

/-- An event whose counter has a meter to itself. -/
theorem meets_alone {k : Nat} (hadds : e.adds = d.amount 1)
    (h : ∀ μ ∈ meters, d ∈ μ.counters → μ = ⟨[d], k⟩) :
    e.Meets fun m => m.count d % k = 0 := by
  refine meets_one (fun _ _ _ _ => by rw [hadds]) fun μ hμ hd m hm hfull => decide_eq_true ?_
  rw [h μ hμ hd] at hfull
  have hsum : (m.count d + 0) % 2 ^ 64 % k = 0 := hfull
  have hlt : m.count d < 2 ^ 64 := lt_of_le_of_lt (hm d) (by decide)
  rwa [Nat.add_zero, Nat.mod_eq_of_lt hlt] at hsum

end MetricsEvent

namespace Metrics

theorem effectCounter_free {kind : String} {d : Counter} (h : effectCounter kind = some d) :
    ∀ μ ∈ meters, d ∉ μ.counters := by
  unfold effectCounter at h
  repeat' split at h
  all_goals cases h
  all_goals decide

/-- A funnel counter has no meter, or the one of the total. -/
theorem funnelSlot_meter {key : String} {d : Counter} (h : funnelSlot key = some d) :
    ∀ μ ∈ meters, d ∈ μ.counters → μ = ⟨funnelTotalled, 10⟩ := by
  unfold funnelSlot at h
  split at h
  all_goals cases h
  all_goals decide

theorem funnelHit_some {event key : String} {d : Counter} (h : funnelHit event = some (key, d)) :
    funnelCounter event = some key ∧ funnelSlot key = some d := by
  unfold funnelHit at h
  obtain ⟨key', hkey, h⟩ := Option.bind_eq_some_iff.mp h
  obtain ⟨d', hd, h⟩ := Option.bind_eq_some_iff.mp h
  cases h
  exact ⟨hkey, hd⟩

end Metrics

namespace MetricsStore

/-- A call is a record of its event. -/
structure Recorded (s : MetricsStore) (now : MetricsNow) (e : MetricsEvent)
    (change : DayMetrics → DayMetrics) (due : DayMetrics → Bool) : Prop where
  step : s.step now e = s.record now change due
  changes : ∀ m : DayMetrics, m.Fits → e.Changes now m (change m)
  meets : e.Meets due

variable (s : MetricsStore) (now : MetricsNow)

theorem recorded_incMatch : ∃ change due, s.Recorded now .incMatch change due :=
  ⟨fun m => (m.add .matches 1).touchPeaks now.online now.waiting,
    fun m => m.count .matches % 5 = 0, rfl,
    fun _ hm => ⟨rfl, hm.count_add _ _, rfl, rfl, rfl, rfl, rfl, rfl⟩,
    MetricsEvent.meets_alone rfl (by decide)⟩

/-- Times have no meter. -/
theorem meets_times {e : MetricsEvent} {due : DayMetrics → Bool} {d d' : Counter} {n : Nat}
    (hadds : ∀ c, e.adds c = d.amount n c + d'.amount 1 c)
    (hd : ∀ μ ∈ meters, d ∉ μ.counters) (hd' : ∀ μ ∈ meters, d' ∉ μ.counters) : e.Meets due := by
  refine MetricsEvent.meets_none fun μ hμ c hc => ?_
  rw [hadds, MetricsEvent.amount_unwatched hd n μ hμ c hc,
    MetricsEvent.amount_unwatched hd' 1 μ hμ c hc]

theorem recorded_matchDuration {elapsed : Nat} (h : capSecs elapsed ≠ 0) :
    ∃ change due, s.Recorded now (.matchDuration (some elapsed)) change due :=
  ⟨fun m => (m.add .matchSeconds (capSecs elapsed)).add .matchDurationN 1, fun _ => false,
    if_neg h, fun _ hm => ⟨rfl, hm.count_add_add _ _ _ _, rfl, rfl, rfl, rfl, rfl, rfl⟩,
    meets_times (fun _ => rfl) (by decide) (by decide)⟩

theorem recorded_wait (elapsed : Nat) :
    ∃ change due, s.Recorded now (.wait (some elapsed)) change due :=
  ⟨fun m => (m.add .waitSeconds (capSecs elapsed)).add .waitN 1, fun _ => false, rfl,
    fun _ hm => ⟨rfl, hm.count_add_add _ _ _ _, rfl, rfl, rfl, rfl, rfl, rfl⟩,
    meets_times (fun _ => rfl) (by decide) (by decide)⟩

/-- An event that no peak and no table hears of. -/
structure Plain (e : MetricsEvent) : Prop where
  looks : e.looks = false
  country : ∀ key, e.countryOf key = none
  icePath : e.okIcePathOf = none
  rung : e.okRungOf = none

/-- A call that adds one to a counter with a meter to itself. -/
theorem recorded_metered {e : MetricsEvent} {d : Counter} {k : Nat} (hplain : Plain e)
    (hadds : e.adds = d.amount 1) (hmeter : ∀ μ ∈ meters, d ∈ μ.counters → μ = ⟨[d], k⟩)
    (hstep : s.step now e = s.record now (fun m => m.add d 1) fun m => m.count d % k = 0) :
    ∃ change due, s.Recorded now e change due := by
  refine ⟨_, _, hstep, fun m hm => ?_, MetricsEvent.meets_alone hadds hmeter⟩
  have hcount : ∀ c, (m.add d 1).count c = saturatingAdd (m.count c) (e.adds c) := by
    rw [hadds]
    exact hm.count_add d 1
  refine ⟨rfl, hcount, ?_, ?_, ?_, ?_, ?_, ?_⟩
  · rw [hplain.looks]
    rfl
  · rw [hplain.looks]
    rfl
  · rw [hplain.country]
    rfl
  · rw [hplain.country]
    rfl
  · rw [hplain.icePath]
    rfl
  · rw [hplain.rung]
    rfl

theorem recorded_callRing : ∃ change due, s.Recorded now .callRing change due :=
  ⟨fun m => m.add .callRings 1, fun _ => false, rfl,
    fun _ hm => ⟨rfl, hm.count_add _ _, rfl, rfl, rfl, rfl, rfl, rfl⟩,
    MetricsEvent.meets_none (by decide)⟩

theorem recorded_report : ∃ change due, s.Recorded now .report change due :=
  ⟨fun m => m.add .reports 1, fun _ => true, rfl,
    fun _ hm => ⟨rfl, hm.count_add _ _, rfl, rfl, rfl, rfl, rfl, rfl⟩,
    MetricsEvent.meets_one (d := .reports) (fun _ _ _ _ => rfl) fun _ _ _ _ _ _ => rfl⟩

theorem recorded_snapshot : ∃ change due, s.Recorded now .snapshot change due :=
  ⟨fun m => m.touchPeaks now.online now.waiting, fun _ => true, rfl,
    fun _ hm => ⟨rfl, fun c => (saturatingAdd_zero (hm c)).symm, rfl, rfl, rfl, rfl, rfl, rfl⟩,
    MetricsEvent.meets_none fun _ _ _ _ => rfl⟩

theorem recorded_queueJoin (alone : Bool) :
    ∃ change due, s.Recorded now (.queueJoin alone) change due := by
  cases alone with
  | false =>
      exact ⟨fun m => (m.add .queueJoins 1).touchPeaks now.online now.waiting, fun _ => false, rfl,
        fun _ hm => ⟨rfl, hm.count_add _ _, rfl, rfl, rfl, rfl, rfl, rfl⟩,
        MetricsEvent.meets_none (by decide)⟩
  | true =>
      exact ⟨fun m => ((m.add .queueJoins 1).add .aloneJoins 1).touchPeaks now.online now.waiting,
        fun _ => false, rfl,
        fun _ hm => ⟨rfl, hm.count_add_add _ _ _ _, rfl, rfl, rfl, rfl, rfl, rfl⟩,
        MetricsEvent.meets_none (by decide)⟩

/-- Both outcomes of a purchase are written by one meter. -/
theorem meets_starSpend {e : MetricsEvent} {d : Counter}
    (hd : d = .starSpendOk ∨ d = .starSpendFail)
    (hadds : ∀ μ ∈ meters, ∀ c ∈ μ.counters, e.adds c = d.amount 1 c) :
    e.Meets fun m => (m.count .starSpendOk + m.count .starSpendFail) % 2 ^ 64 % 5 = 0 := by
  have hmeter : ∀ μ ∈ meters, d ∈ μ.counters → μ = ⟨[.starSpendOk, .starSpendFail], 5⟩ := by
    rcases hd with rfl | rfl
    · decide
    · decide
  refine MetricsEvent.meets_one hadds fun μ hμ hin m _ hfull => decide_eq_true ?_
  rw [hmeter μ hμ hin] at hfull
  exact hfull

theorem recorded_starSpend (kind : String) (ok : Bool) (cost : Nat) :
    ∃ change due, s.Recorded now (.starSpend kind ok cost) change due := by
  refine ⟨starSpend kind ok cost,
    fun m => (m.count .starSpendOk + m.count .starSpendFail) % 2 ^ 64 % 5 = 0, rfl, ?_, ?_⟩
  · intro m hm
    cases ok with
    | false => exact ⟨rfl, hm.count_add _ _, rfl, rfl, rfl, rfl, rfl, rfl⟩
    | true =>
        cases hc : effectCounter kind with
        | none =>
            have heq : starSpend kind true cost m
                = (m.add .starSpendOk 1).add .starSpentTotal cost := by
              simp [starSpend, hc]
            rw [heq]
            refine ⟨rfl, fun c => ?_, rfl, rfl, rfl, rfl, rfl, rfl⟩
            rw [hm.count_add_add]
            simp [MetricsEvent.adds, hc]
        | some d =>
            have heq : starSpend kind true cost m
                = ((m.add .starSpendOk 1).add .starSpentTotal cost).add d 1 := by
              simp [starSpend, hc]
            rw [heq]
            refine ⟨rfl, fun c => ?_, rfl, rfl, rfl, rfl, rfl, rfl⟩
            rw [((hm.add _ _).add _ _).count_add, hm.count_add_add, saturatingAdd_saturatingAdd]
            simp [MetricsEvent.adds, hc]
  · cases ok with
    | false => exact meets_starSpend (d := .starSpendFail) (.inr rfl) fun _ _ _ _ => rfl
    | true =>
        refine meets_starSpend (d := .starSpendOk) (.inl rfl) fun μ hμ c hc => ?_
        have hcost : Counter.starSpentTotal.amount cost c = 0 :=
          MetricsEvent.amount_unwatched (by decide) cost μ hμ c hc
        have hfree : (effectCounter kind).elim 0 (fun d => d.amount 1 c) = 0 := by
          cases hd : effectCounter kind with
          | none => rfl
          | some d => exact MetricsEvent.amount_unwatched (effectCounter_free hd) 1 μ hμ c hc
        change Counter.starSpendOk.amount 1 c + Counter.starSpentTotal.amount cost c
          + (effectCounter kind).elim 0 (fun d => d.amount 1 c) = _
        rw [hcost, hfree, Nat.add_zero]

/-- What a funnel event does to the connect tables. -/
theorem connect_changes {event key : String} (hkey : funnelCounter event = some key)
    (country icePath rung : Option String) (f : ConnFunnelExtras) :
    let e := MetricsEvent.funnel event country icePath rung
    let f' := connect key country icePath rung f
    f'.matchOkByCountry = (e.countryOf "match_ok").elim f.matchOkByCountry
        (bumpTopN f.matchOkByCountry · countryTopN)
      ∧ f'.matchFailIceByCountry = (e.countryOf "match_fail_ice").elim f.matchFailIceByCountry
        (bumpTopN f.matchFailIceByCountry · countryTopN)
      ∧ f'.matchOkByIcePath = e.okIcePathOf.elim f.matchOkByIcePath (bumpFixed f.matchOkByIcePath)
      ∧ f'.matchOkByRung = e.okRungOf.elim f.matchOkByRung (bumpFixed f.matchOkByRung) := by
  dsimp only [MetricsEvent.countryOf, MetricsEvent.okIcePathOf, MetricsEvent.okRungOf]
  rw [hkey]
  unfold connect
  dsimp only
  by_cases hok : key = "match_ok"
  · have hfail : some key ≠ some "match_fail_ice" := by
      rw [hok]
      decide
    rw [if_pos hok, if_pos (congrArg some hok), if_pos (congrArg some hok),
      if_pos (congrArg some hok), if_neg hfail]
    refine ⟨by rw [Option.elim_some], by rw [Option.elim_none], ?_, ?_⟩
    · cases icePath with
      | none => rw [Option.map_none, Option.elim_none]
      | some p => rw [Option.map_some, Option.elim_some]
    · cases rung with
      | none => rw [Option.elim_some, Option.elim_none]
      | some r => rw [Option.elim_some, Option.elim_some]
  · have hno : some key ≠ some "match_ok" := fun h => hok (Option.some.inj h)
    rw [if_neg hno, if_neg hno, if_neg hno, if_neg hok]
    by_cases hfail : key = "match_fail_ice"
    · rw [if_pos hfail, if_pos (congrArg some hfail)]
      simp only [Option.elim_some, Option.elim_none, and_self]
    · have hno' : some key ≠ some "match_fail_ice" := fun h => hfail (Option.some.inj h)
      rw [if_neg hfail, if_neg hno']
      simp only [Option.elim_none, and_self]

theorem metricsIncFunnelEx_hit {event key : String} {slot : Counter}
    (h : funnelHit event = some (key, slot)) (country icePath rung : Option String) :
    s.metricsIncFunnelEx now event country icePath rung
      = (s.record now
          (fun m => { m.add slot 1 with
            funnelConn := connect key country icePath rung (m.add slot 1).funnelConn })
          fun m => funnelTotal m % 2 ^ 64 % 10 = 0, true) := by
  unfold metricsIncFunnelEx
  simp only [h]

theorem recorded_funnel {event key : String} {slot : Counter}
    (h : funnelHit event = some (key, slot)) (country icePath rung : Option String) :
    ∃ change due, s.Recorded now (.funnel event country icePath rung) change due := by
  obtain ⟨hkey, hslot⟩ := funnelHit_some h
  have hadds : ∀ c, (MetricsEvent.funnel event country icePath rung).adds c = slot.amount 1 c := by
    intro c
    change (funnelHit event).elim 0 (fun hit => hit.2.amount 1 c) = _
    rw [h]
    rfl
  refine ⟨fun m => { m.add slot 1 with
      funnelConn := connect key country icePath rung (m.add slot 1).funnelConn },
    fun m => funnelTotal m % 2 ^ 64 % 10 = 0, ?_, fun m hm => ?_, ?_⟩
  · change (s.metricsIncFunnelEx now event country icePath rung).1 = _
    rw [s.metricsIncFunnelEx_hit now h]
  · refine ⟨rfl, fun c => ?_, rfl, rfl, ?_, ?_, ?_, ?_⟩
    · rw [hadds]
      exact hm.count_add slot 1 c
    · exact (connect_changes hkey country icePath rung m.funnelConn).1
    · exact (connect_changes hkey country icePath rung m.funnelConn).2.1
    · exact (connect_changes hkey country icePath rung m.funnelConn).2.2.1
    · exact (connect_changes hkey country icePath rung m.funnelConn).2.2.2
  · refine MetricsEvent.meets_one (d := slot) (fun μ _ c _ => hadds c)
      fun μ hμ hin m _ hfull => decide_eq_true ?_
    rw [funnelSlot_meter hslot μ hμ hin] at hfull
    exact hfull

/-- **Inversion**: a call that counts its event is a record of it. -/
theorem recorded {e : MetricsEvent} (he : e.counted = true) :
    ∃ change due, s.Recorded now e change due := by
  cases e with
  | restart => cases he
  | incMatch => exact s.recorded_incMatch now
  | matchDuration started =>
      cases started with
      | none => cases he
      | some elapsed => exact s.recorded_matchDuration now (of_decide_eq_true he)
  | wait started =>
      cases started with
      | none => cases he
      | some elapsed => exact s.recorded_wait now elapsed
  | friendCall =>
      exact s.recorded_metered now (d := .friendCalls) ⟨rfl, fun _ => rfl, rfl, rfl⟩ rfl
        (by decide) rfl
  | callRing => exact s.recorded_callRing now
  | report => exact s.recorded_report now
  | block =>
      exact s.recorded_metered now (d := .blocks) ⟨rfl, fun _ => rfl, rfl, rfl⟩ rfl
        (by decide) rfl
  | queueJoin alone => exact s.recorded_queueJoin now alone
  | starHour =>
      exact s.recorded_metered now (d := .starHourAwards) ⟨rfl, fun _ => rfl, rfl, rfl⟩ rfl
        (by decide) rfl
  | starGift =>
      exact s.recorded_metered now (d := .starGifts) ⟨rfl, fun _ => rfl, rfl, rfl⟩ rfl
        (by decide) rfl
  | starSpend kind ok cost => exact s.recorded_starSpend now kind ok cost
  | funnel event country icePath rung =>
      rw [MetricsEvent.counted] at he
      obtain ⟨⟨key, slot⟩, h⟩ := Option.isSome_iff_exists.mp he
      exact s.recorded_funnel now h country icePath rung
  | snapshot => exact s.recorded_snapshot now

/-- The hub starts again, or a call returns at once. -/
theorem step_of_not_counted {e : MetricsEvent} (he : e.counted = false) :
    e = .restart ∨ s.step now e = s ∧ ∀ j : Journal, j.note now e = j := by
  cases e with
  | restart => exact .inl rfl
  | matchDuration started =>
      cases started with
      | none => exact .inr ⟨rfl, fun _ => rfl⟩
      | some elapsed =>
          refine .inr ⟨if_pos (not_not.mp (of_decide_eq_false he)), fun j => ?_⟩
          unfold Journal.note
          rw [he]
          rfl
  | wait started =>
      cases started with
      | none => exact .inr ⟨rfl, fun _ => rfl⟩
      | some elapsed => cases he
  | funnel event country icePath rung =>
      refine .inr ⟨?_, fun j => ?_⟩
      · have hno : funnelHit event = none := by
          rwa [MetricsEvent.counted, Option.isSome_eq_false_iff, Option.isNone_iff_eq_none] at he
        change (s.metricsIncFunnelEx now event country icePath rung).1 = s
        unfold metricsIncFunnelEx
        rw [hno]
      · unfold Journal.note
        rw [he]
        rfl
  | incMatch | friendCall | callRing | report | block | queueJoin | starHour | starGift |
    starSpend | snapshot => cases he

end MetricsStore

end Ruletka
