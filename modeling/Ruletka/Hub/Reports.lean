/-
The reports that are taken, over runs.

`handle_report_user` counts reports on the record of a connection. Beside
the hub stands the log of all reports it took, each with the connection and
the user it came from; the log decides nothing.
-/
import Ruletka.Hub.Run

namespace Ruletka

/-- A report that was taken. -/
structure TakenReport where
  conn : ConnId
  reporter : UserId
  «at» : Instant
  deriving DecidableEq, Repr

namespace SimpleHub

/-- The report that `handle_report_user` takes: about somebody known, other
than the reporter, and under the rate of its connection. -/
def reportOf (h : SimpleHub) (env : Env) (id : ConnId) (raw : String) : Option TakenReport :=
  match h.resolveTargetUserId env raw with
  | none => none
  | some user =>
    match h.get id with
    | none => none
    | some c =>
      if c.userId = user then none
      else if reportRatePerHour
          ≤ (c.reportTimes.filter fun t => env.elapsed t < secs 3600).length then none
      else some ⟨id, c.userId, env.now⟩

/-- The report that an event brings and the hub takes. -/
def takenBy (h : SimpleHub) (env : Env) (fuel : Nat) : Event → Option TakenReport
  | .frame id (.reportUser target reason) =>
      match h.preamble env (tryMatch env (fuel + 1)) id (.reportUser target reason) with
      | some (k, true) => k.reportOf env id target
      | _ => none
  | _ => none

end SimpleHub

/-- The hub and the log of the reports it took, the newest first. -/
def reportMachine (sys : Sys) : Machine (World × List TakenReport) Input where
  start p := p = (World.start sys, [])
  step p i p' := p.1.Admits i ∧ ∃ fuel hub, p.1.hub.step i.env fuel i.event = some hub
    ∧ p' = (p.1.after i hub, (p.1.hub.takenBy i.env fuel i.event).toList ++ p.2)

/-- The reports of a user in the hour that begins at `s`. -/
def reportsBy (log : List TakenReport) (u : UserId) (s : Instant) : List TakenReport :=
  log.filter fun r => r.reporter = u ∧ s ≤ r.at ∧ r.at < s + secs 3600

/-- The reports of the last hour. -/
def recentReports (log : List TakenReport) (now : Instant) : List TakenReport :=
  log.filter fun r => now < r.at + secs 3600

/-- A `ReportUser` comes while the last hour's reports of its user, over all
connections, leave room for one more, or on a connection whose own leave none. -/
def WithinRate (p : World × List TakenReport) (i : Input) : Prop :=
  match i.event with
  | .frame id (.reportUser ..) =>
      ((recentReports p.2 i.env.now).filter (·.reporter = p.1.hub.userOf id)).length
          < SimpleHub.reportRatePerHour
        ∨ SimpleHub.reportRatePerHour
          ≤ ((recentReports p.2 i.env.now).filter (·.conn = id)).length
  | _ => True

instance (p : World × List TakenReport) (i : Input) : Decidable (WithinRate p i) := by
  unfold WithinRate
  split
  · infer_instance
  · infer_instance

/-- A step with a given fuel, computed. -/
def reportNext (fuel : Nat) (p : World × List TakenReport) (i : Input) :
    Option (World × List TakenReport) :=
  (p.1.advance fuel i).map fun w =>
    (w, (p.1.hub.takenBy i.env fuel i.event).toList ++ p.2)

theorem reportNext_step {sys : Sys} {fuel : Nat} (p : World × List TakenReport) (i : Input)
    (p' : World × List TakenReport) (h : reportNext fuel p i = some p') :
    (reportMachine sys).step p i p' := by
  unfold reportNext World.advance at h
  obtain ⟨w, hw, rfl⟩ := Option.map_eq_some_iff.mp h
  split at hw
  · next ha =>
    obtain ⟨hub, hh, rfl⟩ := Option.map_eq_some_iff.mp hw
    exact ⟨ha, fuel, hub, hh, rfl⟩
  · cases hw

end Ruletka
