/-
The rewards of a long chat, and the offer to rate the partner behind them.

`arm_star_rating` runs for a side of a match or call that ends. It makes
three awards in order: the hour bonus for both, the senior talk for a newer
user, the owner's egg for a visitor. What is awarded is remembered as keys in
one set for all matches. A key holds the pair and the second the match
began, which each award works out anew, from the wall clock and the seconds
it counts since the match started; every award reads both clocks for itself.
Display names in messages, the metrics and the old star counts are left out.
-/
import Ruletka.Report.State
import Ruletka.Star.Effect

namespace Ruletka

open Text

/-- What is sent about stars here. -/
inductive TalkMsg where
  /-- `ServerMsg::RateResult` -/
  | rateResult (ok : Bool) (userId : UserId) (star : Bool) (amount stars trust : Nat)
      (message : String) (fromUserId : UserId)
  /-- `ServerMsg::RatePrompt` -/
  | ratePrompt (userId : UserId) (durationSecs maxGift : Nat) (early : Bool) (minSecs : Nat)
  deriving DecidableEq, Repr

/-- The hub with what the end of a chat reads and writes. -/
structure TalkHub extends ReportHub where
  /-- what the ledger has recorded, oldest first -/
  journal : List Ledger.StarEvent
  /-- the name a connection gave -/
  names : Table ConnId String
  knownNames : Table UserId String
  hourStarSessions : Finset String
  /-- day and stars minted on it -/
  mintDay : Table UserId (Nat × Nat)
  starEdges : Finset String
  /-- whom a connection may rate, and for how long they talked -/
  pendingRate : Table ConnId (UserId × Nat)
  rateOfferCache : Table UserId (UserId × Nat × Instant)
  talkOut : List (ConnId × TalkMsg)

/-- What an award sees of the world: its append, and that of the second
bonus of an hour. -/
structure AwardEnv extends ReportEnv where
  secondWrite : Ledger.Write
  secondStamp : Ledger.Stamp
  keyOrder : IterOrder String

/-- What the four parts of `arm_star_rating` see. -/
structure ArmEnv where
  hour : AwardEnv
  senior : AwardEnv
  egg : AwardEnv
  offer : Env

-- ========================================================================= names

/-- `is_placeholder_display_name`. -/
def isPlaceholderDisplayName (raw : String) : Bool :=
  let s := trim raw
  s = "" || lower s = "anon" || lower s = "partner" || s = "…" || s = "..." || s = "?"
    || s = "？"
    || (6 ≤ s.utf8ByteSize && s.utf8ByteSize ≤ 12
      && s.toList.all fun c => '0' ≤ c && c ≤ '9' || 'a' ≤ c && c ≤ 'f' || 'A' ≤ c && c ≤ 'F')

/-- `char::to_lowercase`, as far as the owner's names can tell: no other
character becomes letters of theirs. -/
def lowercase (c : Char) : Char :=
  if 'A' ≤ c ∧ c ≤ 'Z' ∨ 'А' ≤ c ∧ c ≤ 'Я' then Char.ofNat (c.toNat + 32)
  else if c = 'Ё' then 'ё'
  else if c.toNat = 0x212A then 'k'
  else c

/-- `is_owner_egg_name`. -/
def isOwnerEggName (name : String) : Bool :=
  String.ofList ((trim name).toList.map lowercase)
    ∈ ["драконов", "dragonov", "drakonov", "draconov"]

/-- `dm_conv_key`: one key for both orders. -/
def dmConvKey (a b : UserId) : String := if a ≤ b then a ++ "|" ++ b else b ++ "|" ++ a

theorem dmConvKey_comm (a b : UserId) : dmConvKey a b = dmConvKey b a := by
  unfold dmConvKey
  split_ifs with hab hba hba
  · rw [le_antisymm hab hba]
  · rfl
  · rfl
  · exact absurd (le_total a b) (by simp [hab, hba])

namespace TalkHub

def starMinSecs : Nat := 15 * 60
def starFirstRateSecs : Nat := 5 * 60
def starFirstRateSlots : Nat := 3
def starHourBonusSecs : Nat := 60 * 60
def ownerEggTier1Secs : Nat := 2 * 60
def ownerEggTier1Stars : Nat := 5
def ownerEggTier2Secs : Nat := 15 * 60
def ownerEggTier2Stars : Nat := 15
def ownerEggTier3Secs : Nat := 60 * 60
def ownerEggTier3Stars : Nat := 30
def dailyMintCap : Nat := 40

variable (sha256 : String → List UInt8) (codec : Ledger.LineCodec) (s : TalkHub)

-- ======================================================================= minting

/-- `mint_budget_remaining`. -/
def mintBudgetRemaining (env : Env) (user : UserId) : Nat :=
  match s.mintDay.get? user with
  | some (day, used) => if day = env.unix / 86400 then dailyMintCap - used else dailyMintCap
  | none => dailyMintCap

/-- `record_mint_day`. -/
def recordMintDay (env : Env) (user : UserId) (amount : Nat) : TalkHub :=
  if user = "" ∨ amount = 0 then s
  else
    let used := match s.mintDay.get? user with
      | some (day, used) => if day = env.unix / 86400 then used else 0
      | none => 0
    { s with mintDay := s.mintDay.set user (env.unix / 86400, used + amount) }

/-- Reasons the daily cap does not hold back. -/
def bypassesCap (reason : String) : Bool :=
  hasPrefix reason "admin:" || hasPrefix reason "adjust:" || hasPrefix reason "gift:"
    || reason = "genesis_snapshot"

/-- What the daily cap leaves of a mint. -/
def mintable (env : Env) (user : UserId) (n : Nat) (reason : String) : Nat :=
  if user = "" then 0
  else if bypassesCap reason then n
  else min n (s.mintBudgetRemaining env user)

/-- `ledger_mint`; what it records is journaled. -/
def ledgerMint (env : Env) (w : Ledger.Write) (stamp : Ledger.Stamp) («from» user : UserId)
    (n : Nat) (reason session : String) : Nat × TalkHub :=
  let amount := s.mintable env user n reason
  if amount = 0 then (s.starsFor user, s)
  else match s.store.tryMintFrom sha256 codec w «from» user (UInt64.ofNat amount) reason session
      stamp with
    | (.ok (ev, bal), store) =>
        let s := { s with store := store, journal := s.journal ++ [ev] }
        (bal.toNat, if bypassesCap reason then s else s.recordMintDay env user amount)
    | (.error _, store) => (s.starsFor user, { s with store := store })

-- ========================================================================== keys

/-- `trim_hour_star_sessions`: which keys go depends on the set's order. -/
def trimHourStarSessions (order : IterOrder String) : TalkHub :=
  if 6000 < s.hourStarSessions.card then
    { s with hourStarSessions := s.hourStarSessions
        \ ((order.run s.hourStarSessions).take (s.hourStarSessions.card - 5000)).toFinset }
  else s

/-- Claim keys. -/
def claim (order : IterOrder String) (keys : List String) : TalkHub :=
  trimHourStarSessions { s with hourStarSessions := s.hourStarSessions ∪ keys.toFinset } order

/-- `display_label`. -/
def displayLabel (id : ConnId) (c : Client) : String :=
  let name := (s.names.get? id).getD ""
  if isPlaceholderDisplayName name then c.shortId else name

/-- `star_partner_of`: user and label. -/
def starPartnerOf (env : Env) (id : ConnId) : Option (UserId × String) :=
  match s.hub.get id with
  | none => none
  | some c => match (c.partner.or c.friendCall).or ((env.peerOrder id).run c.sessionPeers).head?
    with
    | none => none
    | some themId =>
      if themId = id then none
      else match s.hub.get themId with
        | none => none
        | some them =>
            if them.userId = "" then none
            else some (them.userId, s.displayLabel themId them)

/-- A chat as an award finds it. -/
structure Talk where
  me : UserId
  meName : String
  them : UserId
  themName : String
  started : Option Instant
  secs : Nat
  /-- the second the chat began, as worked out now -/
  startedUnix : Nat

namespace Talk

def pair (t : Talk) : String := dmConvKey t.me t.them
def hourKey (t : Talk) : String := "hour|" ++ t.pair ++ "|" ++ toString t.startedUnix
def earlyKey (t : Talk) : String := "seniortalk|" ++ t.pair ++ "|" ++ toString t.startedUnix
def eggKey (t : Talk) : String := "owner|" ++ t.pair ++ "|" ++ toString t.startedUnix

end Talk

/-- What every award reads first; nothing without two users. -/
def talkOf (env : Env) (id : ConnId) : Option Talk :=
  match s.hub.get id with
  | none => none
  | some c =>
    let secs := (c.matchStarted.map fun t => env.elapsed t / 1000).getD 0
    if c.userId = "" then none
    else match s.starPartnerOf env id with
      | none => none
      | some (them, themName) =>
          if them = c.userId then none
          else some ⟨c.userId, (s.names.get? id).getD "", them, themName, c.matchStarted, secs,
            env.unix - secs⟩

/-- Tell an online user of a reward. -/
def tell (user : UserId) (amount stars : Nat) (message : String) : TalkHub :=
  let msg := .rateResult true user true amount stars 0 message ""
  { s with talkOut := s.talkOut
      ++ ((s.hub.byUser.get? user).toList.filter s.hub.has).map fun id => (id, msg) }

-- ===================================================================== hour bonus

/-- `hour_reward_amount_for`. -/
def hourRewardAmountFor (me them : Nat) : Nat :=
  if ReportHub.seniorReporterStars ≤ them then
    if me < ReportHub.trustedReporterStars then 3
    else if me < ReportHub.seniorReporterStars then 2
    else 1
  else 1

def hourMessage (amount : Nat) : String :=
  if 3 ≤ amount then "hour chat reward · talked to senior"
  else if 2 ≤ amount then "hour chat reward · trusted with senior"
  else "hour chat reward"

/-- Both bonuses of an hour. -/
def payHour (env : AwardEnv) (t : Talk) : TalkHub :=
  let mine := s.effectiveTrustFor env.toReportEnv t.me
  let theirs := s.effectiveTrustFor env.toReportEnv t.them
  let meAmt := hourRewardAmountFor mine theirs
  let themAmt := hourRewardAmountFor theirs mine
  let (meStars, s) := s.ledgerMint sha256 codec env.toEnv env.write env.stamp "" t.me meAmt
    "mint:hour_bonus" t.hourKey
  let (themStars, s) := s.ledgerMint sha256 codec env.toEnv env.secondWrite env.secondStamp ""
    t.them themAmt "mint:hour_bonus" t.hourKey
  (s.tell t.me meAmt meStars (hourMessage meAmt)).tell t.them themAmt themStars
    (hourMessage themAmt)

/-- `try_award_hour_chat_stars`. -/
def tryAwardHourChatStars (env : AwardEnv) (id : ConnId) : TalkHub :=
  match s.talkOf env.toEnv id with
  | none => s
  | some t =>
      if t.secs < starHourBonusSecs then s
      else if t.hourKey ∈ s.hourStarSessions then s
      else (s.claim env.keyOrder [t.hourKey, t.earlyKey]).payHour sha256 codec env t

-- ==================================================================== senior talk

/-- Who of a pair gains from the other's standing. -/
def boosted (env : AwardEnv) (t : Talk) : Option UserId :=
  let mine := s.effectiveTrustFor env.toReportEnv t.me
  let theirs := s.effectiveTrustFor env.toReportEnv t.them
  if mine < ReportHub.trustedReporterStars ∧ ReportHub.seniorReporterStars ≤ theirs then
    some t.me
  else if theirs < ReportHub.trustedReporterStars ∧ ReportHub.seniorReporterStars ≤ mine then
    some t.them
  else none

/-- One reward by `add_stars`, with its message. -/
def payOne (env : AwardEnv) (user : UserId) (amount : Nat) (reason message : String) : TalkHub :=
  let (stars, s) := s.ledgerMint sha256 codec env.toEnv env.write env.stamp "" user amount
    reason ""
  s.tell user amount stars message

/-- `try_award_senior_talk_boost`. -/
def tryAwardSeniorTalkBoost (env : AwardEnv) (id : ConnId) : TalkHub :=
  match s.talkOf env.toEnv id with
  | none => s
  | some t =>
      if t.secs < starMinSecs then s
      else if t.hourKey ∈ s.hourStarSessions ∨ t.earlyKey ∈ s.hourStarSessions then s
      else match s.boosted env t with
        | none => s
        | some user =>
            (s.claim env.keyOrder [t.earlyKey]).payOne sha256 codec env user 3
              "mint:senior_talk" "senior talk reward"

-- =========================================================================== egg

/-- `owner_egg_amount_for_secs`. -/
def ownerEggAmountForSecs (secs : Nat) : Nat :=
  if ownerEggTier3Secs ≤ secs then ownerEggTier3Stars
  else if ownerEggTier2Secs ≤ secs then ownerEggTier2Stars
  else if ownerEggTier1Secs ≤ secs then ownerEggTier1Stars
  else 0

/-- `egg_name_for_uid`. -/
def eggNameForUid (user : UserId) (liveName : String) : String :=
  if isOwnerEggName liveName then liveName else (s.knownNames.get? user).getD liveName

/-- Who of a pair visits the owner. -/
def visitor (t : Talk) : Option UserId :=
  let meIsOwner := isOwnerEggName t.meName || isOwnerEggName (s.eggNameForUid t.me t.meName)
  let themIsOwner := isOwnerEggName (s.eggNameForUid t.them t.themName)
  if themIsOwner && !meIsOwner then some t.me
  else if meIsOwner && !themIsOwner then some t.them
  else none

/-- `try_award_owner_talk_egg`. -/
def tryAwardOwnerTalkEgg (env : AwardEnv) (id : ConnId) : TalkHub :=
  match s.talkOf env.toEnv id with
  | none => s
  | some t =>
      if ownerEggAmountForSecs t.secs = 0 then s
      else match s.visitor t with
        | none => s
        | some user =>
            if t.eggKey ∈ s.hourStarSessions then s
            else (s.claim env.keyOrder [t.eggKey, t.earlyKey]).payOne sha256 codec env user
              (ownerEggAmountForSecs t.secs) "mint:owner_egg" "chat reward"

-- ========================================================================= offer

/-- `rate_min_secs_for`, by how many the user has rated. -/
def rateMinSecsFor (user : UserId) : Nat :=
  let used := if user = "" then 0
    else (s.starEdges.filter fun e => hasPrefix e (user ++ "|")).card
  if used < starFirstRateSlots then starFirstRateSecs else starMinSecs

/-- `max_post_chat_gift`. -/
def maxPostChatGift (env : Env) (user : UserId) : Nat :=
  if ReportHub.seniorReporterStars ≤ env.socialHealth user then 3
  else if ReportHub.trustedReporterStars ≤ env.socialHealth user then 2
  else 1

/-- Offer to rate the partner. -/
def offerRating (env : Env) (id : ConnId) : TalkHub :=
  match s.talkOf env id with
  | none => s
  | some t =>
      let need := s.rateMinSecsFor t.me
      if t.secs < need then s
      else if StarHub.starEdgeKey t.me t.them ∈ s.starEdges then s
      else { s with
        pendingRate := s.pendingRate.set id (t.them, t.secs)
        rateOfferCache := s.rateOfferCache.set t.me (t.them, t.secs, env.now + 30 * 60 * 1000)
        talkOut := s.talkOut ++ [(id, .ratePrompt t.them t.secs (maxPostChatGift env t.me)
          (decide (need < starMinSecs)) need)] }

/-- `arm_star_rating`. -/
def armStarRating (env : ArmEnv) (id : ConnId) : TalkHub :=
  let s := s.tryAwardHourChatStars sha256 codec env.hour id
  let s := s.tryAwardSeniorTalkBoost sha256 codec env.senior id
  let s := s.tryAwardOwnerTalkEgg sha256 codec env.egg id
  s.offerRating env.offer id

end TalkHub

end Ruletka
