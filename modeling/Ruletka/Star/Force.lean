/-
Social force: what a user's gifts and bars do to the reputation of others.

Reputation is the trust in the ledger, which some reasons of a mint raise, and
the bars edges, which are counted when they are read. A user that bars too
many others is muted for a while: `handle_rate_partner` then mints under
another reason, and its bars are neither recorded nor counted.
`handle_spend_stars` is that of Star/Effect.lean with the bars edges. Display
names, friend lists and the metrics are left out.
-/
import Ruletka.Lib.Machine
import Ruletka.Report.Handle
import Ruletka.Star.Talk

namespace Ruletka

open Text

/-- The hub with what bars and gifts write. -/
structure ForceHub extends TalkHub where
  starEffects : Table UserId StarEffectRecord
  noSkipUntil : Table UserId Nat
  pleaseStayLast : Table String Nat
  effectOut : List (ConnId × StarEffect)
  /-- last bars by pair of users -/
  barsEdgesLast : Table String Nat
  socialForceMutedUntil : Table UserId Nat
  vouchEdges : Finset String

/-- The purchase that `handle_spend_stars` debits: buyer, target and kind. -/
def StarHub.purchased (sha256 : String → List UInt8) (codec : Ledger.LineCodec) (s : StarHub)
    (env : StarEnv) (id : ConnId) (raw effectRaw opRaw : String) :
    Option (UserId × UserId × EffectKind) :=
  match EffectKind.normalize effectRaw, s.hub.get id, s.hub.resolveTargetUserId env.toEnv raw with
  | some kind, some c, some target =>
      let op := opIdOf opRaw
      if c.userId = "" ∨ target = "" ∨ target = c.userId then none
      else if op ≠ "" ∧ op ∈ s.store.ledger.spentOps then none
      else if (s.spendRefusal env.toEnv id c.userId target kind).isSome then none
      else match (s.ledgerSpend sha256 codec env c.userId target kind.costDuration.1
          ("spend:" ++ kind.text) op).1 with
        | .ok _ => some (c.userId, target, kind)
        | .error _ => none
  | _, _, _ => none

namespace ForceHub

def barsWindowSecs : Nat := 30 * 24 * 60 * 60
def barsEdgeCooldownSecs : Nat := 24 * 60 * 60
def barsStigmaPer : Nat := 3
def barsStigmaCap : Nat := 30
def barsGivenTaxPer : Nat := 1
def barsGivenTaxCap : Nat := 15
def barsAbuse24h : Nat := 8
def barsAbuse7d : Nat := 20
def barsAbuseMuteSecs : Nat := 7 * 24 * 60 * 60

variable (sha256 : String → List UInt8) (codec : Ledger.LineCodec) (s : ForceHub)

-- ======================================================================== reading

def isSocialForceMuted (env : Env) (user : UserId) : Bool :=
  user ≠ "" && (s.socialForceMutedUntil.get? user).any (env.unix < ·)

/-- Who placed a bars edge on the user: the key without the user's end. -/
def barrer (key : String) (user : UserId) : UserId :=
  String.ofList (key.toList.take (key.toList.length - ("|" ++ user).toList.length))

/-- A bars edge that counts against the user. -/
def Stigma (env : Env) (user : UserId) (cutoff : Nat) (key : String) (ts : Nat) : Prop :=
  cutoff ≤ ts ∧ hasSuffix key ("|" ++ user)
    ∧ ("|" ++ user).toList.length < key.toList.length
    ∧ s.isSocialForceMuted env (barrer key user) = false

instance (env : Env) (user : UserId) (cutoff : Nat) (key : String) (ts : Nat) :
    Decidable (s.Stigma env user cutoff key ts) := inferInstanceAs (Decidable (_ ∧ _ ∧ _ ∧ _))

/-- `bars_received_unique`. -/
def barsReceivedUnique (env : Env) (user : UserId) (windowSecs : Nat) : Nat :=
  if user = "" then 0
  else (s.barsEdgesLast.keys.filter fun k =>
    (s.barsEdgesLast.get? k).any fun ts => s.Stigma env user (env.unix - windowSecs) k ts).card

/-- `bars_given_unique`. -/
def barsGivenUnique (env : Env) (user : UserId) (windowSecs : Nat) : Nat :=
  if user = "" then 0
  else (s.barsEdgesLast.keys.filter fun k => (s.barsEdgesLast.get? k).any fun ts =>
    env.unix - windowSecs ≤ ts ∧ hasPrefix k (user ++ "|")).card

/-- `social_health_for`. -/
def socialHealthFor (env : ReportEnv) (user : UserId) : Nat :=
  let base := s.effectiveTrustFor env user
  let stigma := min (s.barsReceivedUnique env.toEnv user barsWindowSecs * barsStigmaPer)
    barsStigmaCap
  let tax := min (s.barsGivenUnique env.toEnv user barsWindowSecs * barsGivenTaxPer) barsGivenTaxCap
  base - stigma - tax

-- =========================================================================== bars

/-- `record_bars_stigma_edge`: whether an edge was counted. -/
def recordBarsStigmaEdge (env : Env) («from» «to» : UserId) : Bool × ForceHub :=
  let key := StarHub.starEdgeKey «from» «to»
  if «from» = "" || «to» = "" || «from» = «to» then (false, s)
  else if s.isSocialForceMuted env «from» then (false, s)
  else if (s.barsEdgesLast.get? key).any fun last => env.unix - last < barsEdgeCooldownSecs then
    (false, s)
  else
    let edges := s.barsEdgesLast.set key env.unix
    let edges := if 50000 < edges.keys.card then
        edges.retain fun _ ts => env.unix - barsWindowSecs * 2 ≤ ts else edges
    (true, { s with barsEdgesLast := edges })

/-- `maybe_flag_bars_abuser`. -/
def maybeFlagBarsAbuser (env : Env) («from» : UserId) : ForceHub :=
  if «from» = "" || s.isSocialForceMuted env «from» then s
  else if barsAbuse24h ≤ s.barsGivenUnique env «from» (24 * 60 * 60)
      ∨ barsAbuse7d ≤ s.barsGivenUnique env «from» (7 * 24 * 60 * 60) then
    let mutes := s.socialForceMutedUntil.set «from» (env.unix + barsAbuseMuteSecs)
    let s := { s with socialForceMutedUntil := mutes }
    match s.hub.byUser.get? «from» with
    | some cid =>
        let text := "Bars abuse limited — your actions no longer affect others' reputation " ++
          "for a while."
        { s with hub := s.hub.sendError cid text }
    | none => s
  else s

-- ========================================================================= gifts

/-- The part that Star/Effect.lean is about. -/
def star : StarHub :=
  ⟨s.hub, s.store, s.journal, s.starEffects, s.noSkipUntil, s.pleaseStayLast, s.effectOut⟩

def withStar (t : StarHub) : ForceHub :=
  { s with
    hub := t.hub
    store := t.store
    journal := t.journal
    starEffects := t.starEffects
    noSkipUntil := t.noSkipUntil
    pleaseStayLast := t.pleaseStayLast
    effectOut := t.outbox }

/-- `handle_spend_stars`. -/
def handleSpendStars (env : StarEnv) (id : ConnId) (raw effectRaw opRaw : String) : ForceHub :=
  let after := s.withStar (s.star.handleSpendStars sha256 codec env id raw effectRaw opRaw)
  match s.star.purchased sha256 codec env id raw effectRaw opRaw with
  | some (me, target, .bars) =>
      let (counted, after) := after.recordBarsStigmaEdge env.toEnv me target
      if counted then after.maybeFlagBarsAbuser env.toEnv me else after
  | _ => after

-- ======================================================================== ratings

/-- `max_post_chat_gift`. -/
def maxPostChatGift (env : ReportEnv) (user : UserId) : Nat :=
  if ReportHub.seniorReporterStars ≤ s.socialHealthFor env user then 3
  else if ReportHub.trustedReporterStars ≤ s.socialHealthFor env user then 2
  else 1

/-- Send a `ServerMsg::RateResult`. -/
def rateResult (id : ConnId) (ok : Bool) (user : UserId) (star : Bool)
    (amount stars trust : Nat) (message : String) («from» : UserId) : ForceHub :=
  { s with talkOut := s.talkOut
      ++ [(id, .rateResult ok user star amount stars trust message «from»)] }

/-- The same to a user that is online. -/
def rateResultTo («to» : UserId) (user : UserId) (star : Bool) (amount stars trust : Nat)
    (message : String) («from» : UserId) : ForceHub :=
  match s.hub.byUser.get? «to» with
  | some tid => s.rateResult tid true user star amount stars trust message «from»
  | none => s

/-- What a connection may rate, put back from the cache after a reconnect. -/
def offerOf (env : Env) (id : ConnId) (me target : UserId) : Option (UserId × Nat) :=
  let pending := s.pendingRate.get? id
  if pending.map Prod.fst = some target then pending
  else match s.rateOfferCache.get? me with
    | some (them, secs, exp) =>
        if env.now < exp ∧ them = target then some (them, secs) else pending
    | none => pending

/-- A rating that is taken: the edge, the gift, the thanks and the answers. -/
def rate (env : ReportEnv) (id : ConnId) (me target : UserId) (star : Bool) (amount : Nat)
    (thanks : Bool) : ForceHub :=
  let maxGift := s.maxPostChatGift env me
  let giftN := if star then min (max (if amount = 0 then 1 else amount) 1) maxGift else 0
  let didThanks := !star && thanks
  let edge := StarHub.starEdgeKey me target
  let s := { s with starEdges := insert edge s.starEdges }
  let s := if didThanks then { s with vouchEdges := insert edge s.vouchEdges } else s
  let reason := if s.isSocialForceMuted env.toEnv me then "mint:rate_partner_muted"
    else "mint:rate_partner"
  let (newStars, s) := if 0 < giftN then
      let (stars, t) := s.toTalkHub.ledgerMint sha256 codec env.toEnv env.write env.stamp me target
        giftN reason ""
      (stars, { s with toTalkHub := t })
    else (s.starsFor target, s)
  let newTrust := s.trustFor target
  let s := { s with
    pendingRate := s.pendingRate.del id
    rateOfferCache := s.rateOfferCache.del me }
  let text := if 0 < giftN then
      if giftN = 1 then "star given" else toString giftN ++ " stars given"
    else if didThanks then "thanks sent" else "skipped"
  let s := s.rateResult id true target (0 < giftN) giftN newStars newTrust text me
  if 0 < giftN then
    s.rateResultTo target target true giftN newStars newTrust
      (if giftN = 1 then "you received a star"
        else "you received " ++ toString giftN ++ " stars") me
  else if didThanks then
    s.rateResultTo target me false 0 (s.starsFor target) (s.trustFor target)
      "someone thanked you" me
  else s

/-- `handle_rate_partner`. -/
def handleRatePartner (env : ReportEnv) (id : ConnId) (targetRaw : String) (star : Bool)
    (amount : Nat) (thanks : Bool) : ForceHub :=
  let target := trim targetRaw
  match s.hub.get id with
  | none => s
  | some c =>
    let me := c.userId
    if me = "" ∨ target = "" ∨ target = me then
      s.rateResult id false target false 0 0 0 "invalid rating" ""
    else match s.offerOf env.toEnv id me target with
      | none => s.rateResult id false target false 0 0 0
          "review expired — next long chat unlocks ★ again" ""
      | some (them, secs) =>
        if them ≠ target then s.rateResult id false target false 0 0 0
          "review expired — next long chat unlocks ★ again" ""
        else
          let s := { s with pendingRate := s.pendingRate.set id (them, secs) }
          let need := s.rateMinSecsFor me
          if secs < need then s.rateResult id false target false 0 0 0
            ("chat too short for a star (need " ++ toString ((need + 59) / 60) ++ " minutes)") ""
          else if StarHub.starEdgeKey me target ∈ s.starEdges then
            let s := s.rateResult id false target false 0 (s.starsFor target) 0
              "already reviewed" ""
            { s with pendingRate := s.pendingRate.del id }
          else s.rate sha256 codec env id me target star amount thanks

-- ======================================================================= operator

/-- `admin_set_social_mute`, at most ninety days. -/
def adminSetSocialMute (env : Env) (raw : String) (secs : Nat) : ForceHub :=
  let user := trim raw
  if user = "" then s
  else
    let dur := if secs = 0 then barsAbuseMuteSecs else min secs (90 * 24 * 60 * 60)
    { s with socialForceMutedUntil := s.socialForceMutedUntil.set user (env.unix + dur) }

/-- `admin_clear_social_mute`. -/
def adminClearSocialMute (raw : String) : ForceHub :=
  { s with socialForceMutedUntil := s.socialForceMutedUntil.del (trim raw) }

-- ========================================================================== runs

/-- What a frame of another kind does to reputation. -/
inductive Deed where
  /-- `arm_star_rating` for a side of a chat that ends -/
  | chatEnds (env : ArmEnv) (id : ConnId)
  /-- `clawback_on_ban` of a user that the frame has banned -/
  | bans (env : ReportEnv) (user : UserId) (reason : String)
  /-- sessions, names and the like -/
  | elsewhere (hub : SimpleHub)

/-- What a client sends. -/
inductive Message where
  | ratePartner (env : ReportEnv) (target : String) (star : Bool) (amount : Nat) (thanks : Bool)
  | spendStars (env : StarEnv) (target effect opId : String)
  | other (env : Env) (deeds : List Deed)

/-- When it comes. -/
def Message.env : Message → Env
  | .ratePartner env .. => env.toEnv
  | .spendStars env .. => env.toEnv
  | .other env _ => env

def deed (s : ForceHub) : Deed → ForceHub
  | .chatEnds env id => { s with toTalkHub := s.toTalkHub.armStarRating sha256 codec env id }
  | .bans env user reason =>
      { s with toReportHub := s.toReportHub.clawbackOnBan sha256 codec env user reason }
  | .elsewhere hub => { s with hub := hub }

def receive (s : ForceHub) (id : ConnId) : Message → ForceHub
  | .ratePartner env target star amount thanks =>
      s.handleRatePartner sha256 codec env id target star amount thanks
  | .spendStars env target effect opId => s.handleSpendStars sha256 codec env id target effect opId
  | .other _ deeds => deeds.foldl (deed sha256 codec) s

inductive ForceEvent where
  | message (id : ConnId) (m : Message)
  /-- what the bridge does when its timer fires -/
  | tick (deeds : List Deed)
  | setMute (env : Env) (raw : String) (secs : Nat)
  | clearMute (raw : String)
  /-- a call on the ledger by the operator -/
  | ledger (w : Ledger.Write) (c : Ledger.Call)

def step (s : ForceHub) : ForceEvent → ForceHub
  | .message id m => s.receive sha256 codec id m
  | .tick deeds => deeds.foldl (deed sha256 codec) s
  | .setMute env raw secs => s.adminSetSocialMute env raw secs
  | .clearMute raw => s.adminClearSocialMute raw
  | .ledger w c => { s with store := (c.attempt sha256 codec w s.store).2 }

end ForceHub

end Ruletka
