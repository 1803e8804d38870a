/-
What the rows of the metrics are to say.

A journal notes the events of each day in full. It begins the day again when
the hub is started again, and on the first event of another day it puts the
old one away. A row tells a list of events when each counter is the sum of
what they add, each peak the largest number that was seen, and each connect
table says how often its keys came: the first sixteen countries, and all
others together.
-/
import Ruletka.Metrics.Store

namespace Ruletka

open ConnMetrics Metrics

/-- An amount for one counter. -/
def Counter.amount (d : Counter) (n : Nat) (c : Counter) : Nat := if c = d then n else 0

namespace MetricsEvent

/-- The event is a call that does not return at once. -/
def counted : MetricsEvent → Bool
  | restart => false
  | matchDuration started => started.any fun elapsed => MetricsStore.capSecs elapsed ≠ 0
  | wait started => started.isSome
  | funnel event _ _ _ => (funnelHit event).isSome
  | _ => true

/-- What the event adds to a counter. -/
def adds : MetricsEvent → Counter → Nat
  | restart, _ => 0
  | incMatch, c => Counter.matches.amount 1 c
  | matchDuration started, c =>
      Counter.matchSeconds.amount ((started.map MetricsStore.capSecs).getD 0) c
        + Counter.matchDurationN.amount 1 c
  | wait started, c =>
      Counter.waitSeconds.amount ((started.map MetricsStore.capSecs).getD 0) c
        + Counter.waitN.amount 1 c
  | friendCall, c => Counter.friendCalls.amount 1 c
  | callRing, c => Counter.callRings.amount 1 c
  | report, c => Counter.reports.amount 1 c
  | block, c => Counter.blocks.amount 1 c
  | queueJoin alone, c =>
      Counter.queueJoins.amount 1 c + if alone then Counter.aloneJoins.amount 1 c else 0
  | starHour, c => Counter.starHourAwards.amount 1 c
  | starGift, c => Counter.starGifts.amount 1 c
  | starSpend kind ok cost, c =>
      if ok then
        Counter.starSpendOk.amount 1 c + Counter.starSpentTotal.amount cost c
          + (effectCounter kind).elim 0 fun d => d.amount 1 c
      else Counter.starSpendFail.amount 1 c
  | funnel event _ _ _, c => (funnelHit event).elim 0 fun hit => hit.2.amount 1 c
  | snapshot, _ => 0

/-- The event looks at how many are online and how many wait. -/
def looks : MetricsEvent → Bool
  | incMatch | queueJoin _ | snapshot => true
  | _ => false

/-- The country of a funnel event of this name. -/
def countryOf (key : String) : MetricsEvent → Option String
  | funnel event country _ _ =>
      if funnelCounter event = some key then some (normalizeCountry (country.getD "")) else none
  | _ => none

/-- The path of a match that came about. -/
def okIcePathOf : MetricsEvent → Option String
  | funnel event _ icePath _ =>
      if funnelCounter event = some "match_ok" then icePath.map normalizeIcePath else none
  | _ => none

/-- The rung of a match that came about: the first, if it does not say. -/
def okRungOf : MetricsEvent → Option String
  | funnel event _ _ rung =>
      if funnelCounter event = some "match_ok" then some (rung.elim "initial" normalizeRung)
      else none
  | _ => none

end MetricsEvent

/-- The events of a day, in order. -/
abbrev DayEvents : Type := List (MetricsNow × MetricsEvent)

/-- What the connect tables say of a list of events. -/
structure ConnFunnelExtras.Tells (f : ConnFunnelExtras) (evs : DayEvents) : Prop where
  okByCountry : Tally.CountsNamed u64Max countryTopN other f.matchOkByCountry
    (evs.filterMap fun p => p.2.countryOf "match_ok")
  failByCountry : Tally.CountsNamed u64Max countryTopN other f.matchFailIceByCountry
    (evs.filterMap fun p => p.2.countryOf "match_fail_ice")
  okByIcePath : Tally.Counts u64Max f.matchOkByIcePath (evs.filterMap fun p => p.2.okIcePathOf)
  okByRung : Tally.Counts u64Max f.matchOkByRung (evs.filterMap fun p => p.2.okRungOf)

/-- What a row says of a list of events. -/
structure DayMetrics.Tells (m : DayMetrics) (day : String) (evs : DayEvents) : Prop where
  day : m.day = day
  count : ∀ c, m.count c = min (evs.map fun p => p.2.adds c).sum u64Max
  online : ∀ n, m.peakOnline ≤ n ↔ ∀ p ∈ evs, p.2.looks → p.1.online ≤ n
  waiting : ∀ n, m.peakWaiting ≤ n ↔ ∀ p ∈ evs, p.2.looks → p.1.waiting ≤ n
  conn : m.funnelConn.Tells evs

/-- The days of the hub. -/
structure Journal where
  day : String
  /-- the events of the day since the hub was started -/
  today : DayEvents
  /-- the days that ended while the hub was running -/
  past : List (String × DayEvents)

namespace Journal

def first (today : String) : Journal := ⟨today, [], []⟩

/-- Put the day away when it is over. -/
def turn (j : Journal) (today : String) : Journal :=
  if today = j.day then j else ⟨today, [], (j.day, j.today) :: j.past⟩

def add (j : Journal) (now : MetricsNow) (e : MetricsEvent) : Journal :=
  { j with today := j.today ++ [(now, e)] }

def note (j : Journal) (now : MetricsNow) (e : MetricsEvent) : Journal :=
  if e.counted then (j.turn now.today).add now e
  else match e with
    | .restart => { j with day := now.today, today := [] }
    | _ => j

end Journal

/-- The metrics beside the journal, while the clock does not run backwards. -/
def journalMachine (today : String) :
    Machine (MetricsStore × Journal) (MetricsNow × MetricsEvent) :=
  ((metricsMachine today).watch (.first today) fun j _ l _ => j.note l.1 l.2).guard
    fun p l => p.2.day ≤ l.1.today

end Ruletka
