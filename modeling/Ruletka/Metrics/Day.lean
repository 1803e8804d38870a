/-
What the hub counts in a day: `DayMetrics` and the connect tables of
`conn_metrics`.

A counter of 64 bits stops at its largest value. The hash maps of the source
are tables; no map is listed in any order here.
-/
import Ruletka.Lib.Tally
import Ruletka.Lib.Text
import Mathlib.Logic.Function.Basic

namespace Ruletka

-- ================================================================== connect tables

namespace ConnMetrics

open Text

def u64Max : Nat := 2 ^ 64 - 1

/-- `u64::saturating_add`. -/
def saturatingAdd (a b : Nat) : Nat := Tally.addUpTo u64Max a b

def other : String := "other"

def countryTopN : Nat := 16

def icePathLabels : List String :=
  ["host", "srflx", "prflx", "relay_udp", "relay_tcp", "relay_tls", "unknown"]

def relayRungLabels : List String := ["initial", "all_relays", "turns_443", "turn_udp", "none"]

def normalizeCountry (code : String) : String :=
  let c := upper (trim code)
  if c.utf8ByteSize = 2 ∧ c.toList.all Char.isAlpha then c else other

/-- `trim`, ASCII lower case, and underscores for hyphens. -/
def label (raw : String) : String :=
  String.ofList ((lower (trim raw)).toList.map fun c => if c = '-' then '_' else c)

def normalizeIcePath (raw : String) : String :=
  if label raw ∈ icePathLabels then label raw else "unknown"

def normalizeRung (raw : String) : String :=
  if label raw ∈ relayRungLabels then label raw else "none"

abbrev Counts : Type := Table String Nat

/-- One more under a key. -/
def bumpFixed (map : Counts) (key : String) : Counts := Tally.bump u64Max map key

/-- One more under a key; a new key beyond the capacity goes to the others. -/
def bumpTopN (map : Counts) (key : String) (n : Nat) : Counts :=
  Tally.bumpNamed u64Max n other map key

end ConnMetrics

open ConnMetrics

structure ConnFunnelExtras where
  matchOkByCountry : Counts
  matchFailIceByCountry : Counts
  matchOkByIcePath : Counts
  matchOkByRung : Counts

-- ======================================================================= the counters

/-- The counters of a day that only go up. -/
inductive Counter where
  | matches
  | reports
  | blocks
  | queueJoins
  | aloneJoins
  | matchSeconds
  | matchDurationN
  | friendCalls
  | callRings
  | waitSeconds
  | waitN
  | starHourAwards
  | starGifts
  | starSpendOk
  | starSpendFail
  | starSpendBars
  | starSpendFlowers
  | starSpendBalloons
  | starSpendConfetti
  | starSpendHeart
  | starSpendFireworks
  | starSpendPleaseStay
  | starSpendPassMic
  | starSpentTotal
  | funnelInviteShare
  | funnelInviteLand
  | funnelInviteRequest
  | funnelInviteConnected
  | funnelHomePackCopy
  | funnelHomePackLive
  | funnelFriendNudgeShow
  | funnelFriendNudgeAccept
  | funnelAppOpen
  | funnelStartMatch
  | funnelMatch
  | funnelMatchOk
  | funnelMatchFailIce
  | funnelMatchSummary
  | funnelFriendCallPlace
  | funnelFriendOnlineToastCall
  deriving DecidableEq

structure DayMetrics where
  day : String
  count : Counter → Nat
  peakOnline : Nat
  peakWaiting : Nat
  funnelConn : ConnFunnelExtras

namespace DayMetrics

/-- The counters of a day on which nothing has happened. -/
def new (day : String) : DayMetrics := ⟨day, fun _ => 0, 0, 0, ⟨∅, ∅, ∅, ∅⟩⟩

def add (m : DayMetrics) (c : Counter) (n : Nat) : DayMetrics :=
  { m with count := Function.update m.count c (saturatingAdd (m.count c) n) }

/-- `metrics_touch_peaks`, on the counters of the day. -/
def touchPeaks (m : DayMetrics) (online waiting : Nat) : DayMetrics :=
  { m with peakOnline := max m.peakOnline online, peakWaiting := max m.peakWaiting waiting }

theorem count_add (m : DayMetrics) (c : Counter) (n : Nat) (d : Counter) :
    (m.add c n).count d = if d = c then saturatingAdd (m.count c) n else m.count d :=
  Function.update_apply ..

end DayMetrics

-- ===================================================================== funnel events

namespace Metrics

open Text

/-- The canonical name of a client's funnel event. -/
def funnelCounter (event : String) : Option String :=
  match label event with
  | "funnel_invite_share" | "friend_invite_share" | "empty_alone_invite_share" =>
      some "invite_share"
  | "funnel_invite_land" | "friend_invite_deep_link" | "invite_landing_open" => some "invite_land"
  | "funnel_invite_request" => some "invite_request"
  | "funnel_invite_connected" => some "invite_connected"
  | "home_invite_pack_copy" | "funnel_home_pack_copy" => some "home_pack_copy"
  | "home_invite_pack_live" | "funnel_home_pack_live" => some "home_pack_live"
  | "friend_nudge_show" => some "friend_nudge_show"
  | "friend_nudge_accept" => some "friend_nudge_accept"
  | "app_open" => some "app_open"
  | "start_match" => some "start_match"
  | "match" => some "match"
  | "match_ok" => some "match_ok"
  | "match_fail_ice" => some "match_fail_ice"
  | "match_summary" => some "match_summary"
  | "friend_call_place" => some "friend_call_place"
  | "friend_online_toast_call" => some "friend_online_toast_call"
  | _ => none

/-- The counter that goes by a canonical name. -/
def funnelSlot (key : String) : Option Counter :=
  match key with
  | "invite_share" => some .funnelInviteShare
  | "invite_land" => some .funnelInviteLand
  | "invite_request" => some .funnelInviteRequest
  | "invite_connected" => some .funnelInviteConnected
  | "home_pack_copy" => some .funnelHomePackCopy
  | "home_pack_live" => some .funnelHomePackLive
  | "friend_nudge_show" => some .funnelFriendNudgeShow
  | "friend_nudge_accept" => some .funnelFriendNudgeAccept
  | "app_open" => some .funnelAppOpen
  | "start_match" => some .funnelStartMatch
  | "match" => some .funnelMatch
  | "match_ok" => some .funnelMatchOk
  | "match_fail_ice" => some .funnelMatchFailIce
  | "match_summary" => some .funnelMatchSummary
  | "friend_call_place" => some .funnelFriendCallPlace
  | "friend_online_toast_call" => some .funnelFriendOnlineToastCall
  | _ => none

/-- A funnel event that the hub counts: its name, and the counter. -/
def funnelHit (event : String) : Option (String × Counter) := do
  let key ← funnelCounter event
  let slot ← funnelSlot key
  some (key, slot)

/-- The effects that are counted one by one. -/
def effectCounter (kind : String) : Option Counter :=
  if kind = "bars" then some .starSpendBars
  else if kind = "flowers" then some .starSpendFlowers
  else if kind = "balloons" then some .starSpendBalloons
  else if kind = "confetti" then some .starSpendConfetti
  else if kind = "heart" then some .starSpendHeart
  else if kind = "fireworks" then some .starSpendFireworks
  else if kind = "please_stay" then some .starSpendPleaseStay
  else if kind = "pass_mic" then some .starSpendPassMic
  else none

/-- The counters of the total that decides when funnel hits are written. -/
def funnelTotalled : List Counter :=
  [.funnelInviteShare, .funnelInviteLand, .funnelHomePackCopy, .funnelAppOpen, .funnelStartMatch,
    .funnelMatch, .funnelMatchOk, .funnelMatchFailIce, .funnelMatchSummary,
    .funnelFriendCallPlace, .funnelFriendOnlineToastCall]

end Metrics

end Ruletka
