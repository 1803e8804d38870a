/-
Reports, detector hits and operator bans, as far as they move people.

The score of a report, the ladder of a detector hit and the clawback that
follows a ban live in books of their own; here their verdicts come from
`Env`, and the hub acts on them.
-/
import Ruletka.Hub.Identity

namespace Ruletka

open Text

namespace SimpleHub

def permanentBanUntil : Nat := 7258118400
def reportRatePerHour : Nat := 8
def minMatchAgeMs : Nat := 2000

def banUntil (h : SimpleHub) (user : UserId) : Nat :=
  (h.matchBans.get? user).getD 0

/-- Ban a user until a deadline, unless a later one stands. -/
def raiseBan (h : SimpleHub) (user : UserId) (deadline : Nat) : SimpleHub :=
  if h.banUntil user < deadline then
    { h with matchBans := h.matchBans.set user deadline }
  else h

-- ================================================================== reports

def priorityModToken : String := "2AFEE934"

/-- The operator account whose one report bans for good. -/
def isPriorityModReporter (userId shortId friendCode : String) : Bool :=
  let eq := fun s => upper (trim s) = priorityModToken
  let compact := without '-' (upper (trim userId))
  eq friendCode || eq shortId || eq userId || hasInfix compact priorityModToken

/-- Permanent ban of a public address, remembering the user behind it. -/
def raiseIpBan (h : SimpleHub) (user : UserId) (ip : String) : SimpleHub :=
  if ip ≠ "" && !(hasPrefix ip "10." || hasPrefix ip "192.168."
      || hasPrefix ip "127." || ip = "::1")
      && (h.matchIpBans.get? ip).getD 0 < permanentBanUntil then
    { h with
      matchIpBans := h.matchIpBans.set ip permanentBanUntil
      matchIpBanUsers := if user ≠ "" then h.matchIpBanUsers.set ip user
        else h.matchIpBanUsers }
  else h

/-- Permanent ban of the user and of a public address. -/
def applyPriorityModBan (h : SimpleHub) (user : UserId) (rawIp : String) :
    SimpleHub :=
  let h := if user ≠ "" then h.raiseBan user permanentBanUntil else h
  h.raiseIpBan user (trim rawIp)

/-- Take a banned connection out of the queue, and out of its match when it
is in one of the given phases. -/
def kickBanned (h : SimpleHub) (env : Env) (phases : List Phase) (tid : ConnId)
    (detail notice : String) : SimpleHub :=
  let h := h.dequeueClient tid
  let h := if (h.phaseOf tid).any (· ∈ phases) then h.unmatchOne env tid detail
    else h
  h.status tid notice

/-- The address a report is about: live, else last seen. -/
def reportedIp (h : SimpleHub) (user : UserId) : String :=
  let live := ((h.byUser.get? user).bind h.get).map (·.clientIp)
  ((live.filter (· ≠ "")).or (h.userLastIp.get? user)).getD ""

/-- The operator's report: ban, kick, and kick everybody on that address. -/
def priorityReport (h : SimpleHub) (env : Env) (id : ConnId) (user : UserId) :
    SimpleHub :=
  let ip := h.reportedIp user
  let h := h.applyPriorityModBan user ip
  let kick := fun (h : SimpleHub) (tid : ConnId) =>
    h.kickBanned env [.matched, .waiting] tid "restricted by operator"
      "permanently restricted"
  let h := match h.byUser.get? user with
    | some tid => kick h tid
    | none => h
  let banIp := trim ip
  let others := if banIp = "" then []
    else env.mapOrder.run (h.connsWhere (·.clientIp = banIp))
  let h := others.foldl (fun h cid =>
    if (h.get cid).any (·.userId = user) then h else kick h cid) h
  h.status id "report received — user restricted"

/-- Any other report: the verdict may ban, and a new ban kicks. -/
def scoredReport (h : SimpleHub) (env : Env) (id : ConnId)
    (reporter user : UserId) (reason : String) : SimpleHub :=
  let verdict := (env.reportVerdict reporter user reason).filter (h.banUntil user < ·)
  let h := match verdict with
    | some deadline =>
        let h := { h with matchBans := h.matchBans.set user deadline }
        match h.byUser.get? user with
        | some tid => h.kickBanned env [.matched] tid "restricted due to reports"
            "temporarily restricted due to reports"
        | none => h
    | none => h
  let h := h.status id (if verdict.isSome then
    "report received — user restricted"
    else "report received — thank you (flags/politics alone are not ban grounds)")
  h.send id (.reportResult verdict.isSome)

/-- `ReportUser`. -/
def handleReportUser (h : SimpleHub) (env : Env) (id : ConnId) (raw : String)
    (reason : String) : SimpleHub :=
  match h.resolveTargetUserId env raw with
  | none => h.sendError id "cannot report — partner id unknown"
  | some user =>
    match h.get id with
    | none => h
    | some c =>
      if c.userId = user then h.sendError id "cannot report yourself"
      else
        let recent := c.reportTimes.filter fun t => env.elapsed t < secs 3600
        if reportRatePerHour ≤ recent.length then
          let h := h.modify id fun c => { c with reportTimes := recent }
          h.sendError id "too many reports — try again later"
        else
          let h := h.modify id fun c =>
            { c with reportTimes := recent ++ [env.now] }
          let reason := takeChars 64 (trim reason)
          let reason := if reason = "" then "other" else reason
          if isPriorityModReporter c.userId c.shortId c.friendCode then
            h.priorityReport env id user
          else h.scoredReport env id c.userId user reason

-- ============================================================ detector hits

/-- The reporter really watches the target in a live stranger match. -/
def genitalBinding (h : SimpleHub) (env : Env) (id : ConnId) (target : UserId) :
    Except String (ConnId × SessionId) :=
  match h.get id with
  | none => .error "no_client"
  | some me =>
    if me.userId = "" then .error "no_identity"
    else if target = "" || target = me.userId then .error "bad_target"
    else if me.phase ≠ .matched then .error "not_matched"
    else match h.byUser.get? target with
      | none => .error "target_offline"
      | some tid =>
        if me.friendCall = some tid || me.partyWith = some tid then
          .error "friend_call"
        else if me.partner ≠ some tid && tid ∉ me.sessionPeers then
          .error "not_partner"
        else match h.get tid, me.sessionId with
          | none, _ => .error "target_offline"
          | _, none => .error "no_session"
          | some them, some sid =>
            if them.sessionId ≠ some sid || them.phase ≠ .matched then
              .error "not_partner"
            else if them.partner ≠ some id && id ∉ them.sessionPeers then
              .error "not_partner"
            else if h.areMutualFriends me.userId target then .error "friend"
            else if me.matchStarted.any fun t => minMatchAgeMs ≤ env.elapsed t
            then .ok (tid, sid)
            else .error "too_early"

/-- The hit ban: tell the viewers and the target, then the target leaves the
way a Next does and its viewers hunt on. -/
def genitalBan (h : SimpleHub) (env : Env) (id tid : ConnId) (target : UserId)
    (banSecs : Nat) (permanent : Bool) : SimpleHub :=
  let deadline := if permanent then permanentBanUntil else env.unix + banSecs
  let prev := h.banUntil target
  let h := h.raiseBan target deadline
  let deadline := max deadline prev
  let viewers := match h.get tid with
    | none => []
    | some c => ((env.peerOrder tid).run (c.sessionPeers ∪ c.partner.toFinset)).filter
        fun p => some p ≠ c.friendCall && some p ≠ c.partyWith
  let h := viewers.foldl (fun h v => h.send v (.partnerBanned "genitals")) h
  let h := h.send tid (.banned "genitals"
    (if permanent then 0 else deadline - env.unix) deadline permanent)
  let h := h.clearMatchStateWithPartnerMsg env tid
    "partner removed for breaking the rules"
  let h := h.status tid "restricted — cannot match right now"
  h.send id (.genitalHitResult true true "banned")

/-- `GenitalHit`. -/
def handleGenitalHit (h : SimpleHub) (env : Env) (id : ConnId) (raw : String) :
    SimpleHub :=
  let target := takeChars 80 (trim raw)
  let refuse := fun why => h.send id (.genitalHitResult false false why)
  if h.isMatchBannedConn env id then refuse "reporter_banned"
  else match env.hitReject with
    | some why => refuse why
    | none => match h.genitalBinding env id target with
      | .error why => refuse why
      | .ok (tid, sid) =>
        if h.isMatchBanned env target then refuse "already_banned"
        else match env.genitalRecord (h.userOf id) target sid with
          | .reject why => refuse why
          | .counted why => h.send id (.genitalHitResult true false why)
          | .ban banSecs permanent => h.genitalBan env id tid target banSecs permanent

-- ================================================================= operator

/-- `admin_ban`: zero or a century of seconds is for good. -/
def adminBan (h : SimpleHub) (env : Env) (raw : String) (banSecs : Nat) :
    SimpleHub :=
  let user := trim raw
  if user = "" then h
  else
    let permanent := banSecs = 0 || 100 * 365 * 24 * 3600 ≤ banSecs
    let deadline := if permanent then permanentBanUntil
      else env.unix + max banSecs 60
    let h := { h with matchBans := h.matchBans.set user deadline }
    match h.byUser.get? user with
    | some tid => h.kickBanned env [.matched] tid "restricted by operator"
        (if permanent then "permanently restricted" else "temporarily restricted")
    | none => h

/-- `admin_unban`: the user and every address linked to it. -/
def adminUnban (h : SimpleHub) (raw : String) : SimpleHub :=
  let user := trim raw
  if user = "" then h
  else
    let linked := fun ip => h.matchIpBanUsers.get? ip = some user
    { h with
      matchBans := h.matchBans.del user
      matchIpBans := h.matchIpBans.retain fun ip _ => !linked ip
      matchIpBanUsers := h.matchIpBanUsers.retain fun _ u => u ≠ user }

/-- `admin_unban_ip`. -/
def adminUnbanIp (h : SimpleHub) (raw : String) : SimpleHub :=
  let ip := trim raw
  if ip = "" then h
  else { h with
    matchIpBans := h.matchIpBans.del ip
    matchIpBanUsers := h.matchIpBanUsers.del ip }

end SimpleHub

end Ruletka
