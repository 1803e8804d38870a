/-
The metrics of the running hub, and the file `metrics.jsonl`.

# The file

A line of the file is what `serde_json` reads in it: a row, or nothing. It
reads a row that it wrote. A file that does not exist is one without lines;
one that does can be read, and a write succeeds.

# The calls

Every call looks at the clock first: on another day it writes the old row and
begins a new one. What the hub tells a call is its `MetricsNow`; a call that
notes the peaks looks at the clock again, and on the same day. A restart of
the hub keeps the file and begins the counters of the day again. The rows
that were written stay in `flushed`, and `wrote` tells whether the counters
were written since they began: two variables of the model that nothing reads.
-/
import Ruletka.Metrics.Day
import Ruletka.Lib.Machine
import Mathlib.Algebra.Ring.Nat
import Mathlib.Data.List.Sort

namespace Ruletka

open ConnMetrics Metrics

/-- The clock's day and the hub's numbers, when a call is made. -/
structure MetricsNow where
  today : String
  online : Nat
  waiting : Nat

structure MetricsStore where
  metrics : DayMetrics
  file : List (Option DayMetrics)
  flushed : List DayMetrics
  wrote : Bool

namespace MetricsStore

/-- `metrics_flush` keeps as many days. -/
def keptDays : Nat := 90

/-- The rows of the file on which this row is written. -/
def rewrite (file : List (Option DayMetrics)) (m : DayMetrics) : List DayMetrics :=
  let rows := (file.filterMap id).filter (fun row => row.day ≠ m.day) ++ [m]
  let rows := rows.mergeSort fun a b => a.day ≤ b.day
  let skip := rows.length - keptDays
  rows.drop skip

def metricsFlush (s : MetricsStore) : MetricsStore :=
  if s.metrics.day = "" then s
  else { s with
    file := (rewrite s.file s.metrics).map some
    flushed := s.flushed ++ [s.metrics]
    wrote := true }

/-- A day without a name is today. -/
def nameDay (s : MetricsStore) (today : String) : MetricsStore :=
  if s.metrics.day = "" then { s with metrics := { s.metrics with day := today } } else s

def metricsRollDay (s : MetricsStore) (today : String) : MetricsStore :=
  let s := s.nameDay today
  if s.metrics.day ≠ today then { s.metricsFlush with metrics := .new today, wrote := false }
  else s

/-- Look at the clock, change the counters, and write them when it is time. -/
def record (s : MetricsStore) (now : MetricsNow) (change : DayMetrics → DayMetrics)
    (due : DayMetrics → Bool) : MetricsStore :=
  let s := s.metricsRollDay now.today
  let s := { s with metrics := change s.metrics }
  if due s.metrics then s.metricsFlush else s

section Calls

variable (s : MetricsStore) (now : MetricsNow)

def metricsIncMatch : MetricsStore :=
  s.record now (fun m => (m.add .matches 1).touchPeaks now.online now.waiting)
    fun m => m.count .matches % 5 = 0

/-- Seconds of a match or of a wait, at most a day. -/
def capSecs (elapsed : Nat) : Nat := min elapsed 86400

def metricsRecordMatchDuration (started : Option Nat) : MetricsStore :=
  match started with
  | none => s
  | some elapsed =>
    if capSecs elapsed = 0 then s
    else s.record now (fun m => (m.add .matchSeconds (capSecs elapsed)).add .matchDurationN 1)
      fun _ => false

def metricsRecordWait (started : Option Nat) : MetricsStore :=
  match started with
  | none => s
  | some elapsed =>
    s.record now (fun m => (m.add .waitSeconds (capSecs elapsed)).add .waitN 1) fun _ => false

def metricsIncFriendCall : MetricsStore :=
  s.record now (·.add .friendCalls 1) fun m => m.count .friendCalls % 3 = 0

def metricsIncCallRing : MetricsStore := s.record now (·.add .callRings 1) fun _ => false

def metricsIncReport : MetricsStore := s.record now (·.add .reports 1) fun _ => true

def metricsIncBlock : MetricsStore :=
  s.record now (·.add .blocks 1) fun m => m.count .blocks % 3 = 0

def metricsIncQueueJoin (alone : Bool) : MetricsStore :=
  s.record now
    (fun m =>
      let m := m.add .queueJoins 1
      let m := if alone then m.add .aloneJoins 1 else m
      m.touchPeaks now.online now.waiting)
    fun _ => false

def metricsIncStarHour : MetricsStore :=
  s.record now (·.add .starHourAwards 1) fun m => m.count .starHourAwards % 3 = 0

def metricsIncStarGift : MetricsStore :=
  s.record now (·.add .starGifts 1) fun m => m.count .starGifts % 5 = 0

/-- The counters after an effect was bought, or not. -/
def starSpend (kind : String) (ok : Bool) (cost : Nat) (m : DayMetrics) : DayMetrics :=
  if ok then
    let m := (m.add .starSpendOk 1).add .starSpentTotal cost
    match effectCounter kind with
    | some c => m.add c 1
    | none => m
  else m.add .starSpendFail 1

def metricsIncStarSpend (kind : String) (ok : Bool) (cost : Nat) : MetricsStore :=
  s.record now (starSpend kind ok cost)
    fun m => (m.count .starSpendOk + m.count .starSpendFail) % 2 ^ 64 % 5 = 0

/-- The connect tables after a funnel event. -/
def connect (key : String) (country icePath relayRung : Option String) (f : ConnFunnelExtras) :
    ConnFunnelExtras :=
  let cc := normalizeCountry (country.getD "")
  if key = "match_ok" then
    { f with
      matchOkByCountry := bumpTopN f.matchOkByCountry cc countryTopN
      matchOkByIcePath := match icePath with
        | some p => bumpFixed f.matchOkByIcePath (normalizeIcePath p)
        | none => f.matchOkByIcePath
      matchOkByRung := match relayRung with
        | some r => bumpFixed f.matchOkByRung (normalizeRung r)
        | none => bumpFixed f.matchOkByRung "initial" }
  else if key = "match_fail_ice" then
    { f with matchFailIceByCountry := bumpTopN f.matchFailIceByCountry cc countryTopN }
  else f

/-- The total of the funnel that decides when it is written. -/
def funnelTotal (m : DayMetrics) : Nat := (funnelTotalled.map m.count).sum

def metricsIncFunnelEx (event : String) (country icePath relayRung : Option String) :
    MetricsStore × Bool :=
  match funnelHit event with
  | none => (s, false)
  | some (key, slot) =>
    (s.record now
      (fun m =>
        let m := m.add slot 1
        { m with funnelConn := connect key country icePath relayRung m.funnelConn })
      fun m => funnelTotal m % 2 ^ 64 % 10 = 0, true)

def metricsIncFunnel (event : String) : MetricsStore × Bool :=
  s.metricsIncFunnelEx now event none none none

/-- `metrics_snapshot` looks at the clock, notes the peaks and writes. -/
def metricsSnapshot : MetricsStore :=
  s.record now (·.touchPeaks now.online now.waiting) fun _ => true

/-- The history in a snapshot: the last rows of the file. -/
def history : List DayMetrics := ((s.file.reverse.filterMap id).take 14).reverse

/-- A hub that starts on this file. -/
def restart : MetricsStore := { s with metrics := .new now.today, wrote := false }

end Calls

end MetricsStore

-- ============================================================================== runs

/-- The calls of the hub, and its restarts. -/
inductive MetricsEvent where
  | restart
  | incMatch
  | matchDuration (started : Option Nat)
  | wait (started : Option Nat)
  | friendCall
  | callRing
  | report
  | block
  | queueJoin (alone : Bool)
  | starHour
  | starGift
  | starSpend (kind : String) (ok : Bool) (cost : Nat)
  | funnel (event : String) (country icePath relayRung : Option String)
  | snapshot

namespace MetricsStore

def step (s : MetricsStore) (now : MetricsNow) : MetricsEvent → MetricsStore
  | .restart => s.restart now
  | .incMatch => s.metricsIncMatch now
  | .matchDuration started => s.metricsRecordMatchDuration now started
  | .wait started => s.metricsRecordWait now started
  | .friendCall => s.metricsIncFriendCall now
  | .callRing => s.metricsIncCallRing now
  | .report => s.metricsIncReport now
  | .block => s.metricsIncBlock now
  | .queueJoin alone => s.metricsIncQueueJoin now alone
  | .starHour => s.metricsIncStarHour now
  | .starGift => s.metricsIncStarGift now
  | .starSpend kind ok cost => s.metricsIncStarSpend now kind ok cost
  | .funnel event country icePath rung => (s.metricsIncFunnelEx now event country icePath rung).1
  | .snapshot => s.metricsSnapshot now

/-- The first hub of all starts with no file. -/
def first (today : String) : MetricsStore := ⟨.new today, [], [], false⟩

end MetricsStore

/-- The hub's metrics, over its calls and restarts since that day. -/
def metricsMachine (today : String) : Machine MetricsStore (MetricsNow × MetricsEvent) where
  start s := s = .first today
  step s l s' := s' = s.step l.1 l.2

end Ruletka
