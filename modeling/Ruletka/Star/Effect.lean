/-
Star effects: what a gift costs and shows, and `handle_spend_stars`.

A `StarHub` is the hub with the star ledger and the tables that gifts write.
Times are seconds of the wall clock. The names in the messages, the stigma
counted for bars, the old star counts and the metrics are left out; nothing
here reads them. The journal is what the ledger has recorded, oldest first:
the file keeps it as lines, and memory does not keep it.
-/
import Ruletka.Hub.Identity
import Ruletka.Ledger.Attempt

namespace Ruletka

open Text

-- ====================================================================== effects

inductive EffectKind where
  | bars | fence | flowers | balloons | confetti | heart | fireworks | pleaseStay | passMic
  | shootingStar | snow | spotlight | crown | disco
  deriving DecidableEq, Repr

namespace EffectKind

def text : EffectKind → String
  | bars => "bars"
  | fence => "fence"
  | flowers => "flowers"
  | balloons => "balloons"
  | confetti => "confetti"
  | heart => "heart"
  | fireworks => "fireworks"
  | pleaseStay => "please_stay"
  | passMic => "pass_mic"
  | shootingStar => "shooting_star"
  | snow => "snow"
  | spotlight => "spotlight"
  | crown => "crown"
  | disco => "disco"

/-- `normalize_effect_kind`. -/
def normalize (raw : String) : Option EffectKind :=
  match lower (trim raw) with
  | "bars" | "jail" => some bars
  | "fence" | "chain" | "mesh" => some fence
  | "flowers" | "flower" => some flowers
  | "balloons" | "balloon" | "party" => some balloons
  | "confetti" | "confet" | "celebrate" => some confetti
  | "heart" | "hearts" | "wave" | "love" => some heart
  | "fireworks" | "firework" | "mega" | "show" => some fireworks
  | "please_stay" | "pleasestay" | "stay" | "dont_skip" | "no_skip" | "hold" =>
      some pleaseStay
  | "pass_mic" | "passmic" | "pass_the_mic" | "your_turn" | "yourturn" | "handoff" | "mic" =>
      some passMic
  | "shooting_star" | "shootingstar" | "comet" | "gift_star" | "send_star" =>
      some shootingStar
  | "snow" | "snowflake" | "flakes" => some snow
  | "spotlight" | "spot" | "light" => some spotlight
  | "crown" | "crowns" | "king" | "queen" | "tiara" | "coronation" => some crown
  | "disco" | "discoball" | "dance" | "club" => some disco
  | _ => none

/-- Stars and seconds. -/
def costDuration : EffectKind → Nat × Nat
  | heart => (5, 3)
  | fireworks => (15, 20)
  | pleaseStay => (30, 15)
  | passMic => (5, 5)
  | shootingStar => (3, 8)
  | snow => (5, 15)
  | spotlight => (5, 10)
  | crown => (5, 12)
  | disco => (5, 12)
  | _ => (5, 15)

/-- Bars and fence are punitive; any other gift is worth a star. -/
def grantsWalletStar (kind : EffectKind) : Bool := kind ≠ bars && kind ≠ fence

/-- What the first purchase and its extension are called. -/
def caption (kind : EffectKind) (extended : Bool) (secs : String) : String :=
  let more := fun what => "+" ++ secs ++ "s " ++ what ++ " extended"
  let first := fun what => what ++ " for " ++ secs ++ "s"
  match kind, extended with
  | flowers, true => more "flowers"
  | flowers, false => first "flowers"
  | balloons, true => more "balloons"
  | balloons, false => first "balloons"
  | confetti, true => more "confetti burst"
  | confetti, false => "confetti burst · " ++ secs ++ "s"
  | heart, true => more "hearts"
  | heart, false => first "hearts"
  | fireworks, true => more "fireworks"
  | fireworks, false => first "fireworks"
  | passMic, true => more "pass the mic"
  | passMic, false => "pass the mic · " ++ secs ++ "s — give them a chance"
  | fence, true => more "fence"
  | fence, false => first "behind the fence"
  | shootingStar, _ => "shooting star · they received ★1 (you spent 3)"
  | snow, _ => first "snow" ++ " · they received ★1"
  | spotlight, _ => first "spotlight" ++ " · they received ★1"
  | crown, _ => first "crown" ++ " · they received ★1"
  | disco, _ => first "disco" ++ " · they received ★1"
  | bars, true | pleaseStay, true => more "bars"
  | bars, false | pleaseStay, false => first "behind bars"

/-- The message of an applied effect. -/
def message (kind : EffectKind) (extended : Bool) (secs level : Nat) : String :=
  let text := kind.caption extended (toString secs)
    ++ (if 2 ≤ level then " · ×" ++ toString level else "")
  if kind.grantsWalletStar && !hasInfix text "they received ★1"
  then text ++ " · they received ★1" else text

end EffectKind

/-- `StarEffectRecord`. -/
structure StarEffectRecord where
  kind : String
  «until» : Nat
  level : Nat
  deriving DecidableEq, Repr

/-- `ServerMsg::StarEffect`. -/
structure StarEffect where
  ok : Bool
  userId : UserId
  effect : String
  «until» : Nat
  level : Nat
  cost : Nat
  spenderStars : Nat
  targetStars : Nat
  message : String
  fromUserId : UserId
  deriving DecidableEq, Repr

/-- The hub with what gifts read and write. -/
structure StarHub where
  hub : SimpleHub
  store : Ledger.Store
  /-- what the ledger has recorded, oldest first -/
  journal : List Ledger.StarEvent
  starEffects : Table UserId StarEffectRecord
  /-- until when a user cannot press Next -/
  noSkipUntil : Table UserId Nat
  /-- last please-stay by pair of users -/
  pleaseStayLast : Table String Nat
  outbox : List (ConnId × StarEffect)

/-- What a purchase sees of the world, with its two appends. -/
structure StarEnv extends Env where
  spendWrite : Ledger.Write
  spendStamp : Ledger.Stamp
  giftWrite : Ledger.Write
  giftStamp : Ledger.Stamp

namespace StarHub

def pleaseStayCooldownSecs : Nat := 30 * 24 * 60 * 60

variable (sha256 : String → List UInt8) (codec : Ledger.LineCodec) (s : StarHub)

-- ==================================================================== the ledger

def starsFor (user : UserId) : Nat := (s.store.ledger.balance user).toNat

/-- A call on the ledger; what it records is journaled. -/
def ledgerCall (w : Ledger.Write) (c : Ledger.Call) :
    Except Ledger.SpendError UInt64 × StarHub :=
  match c.attempt sha256 codec w s.store with
  | (.ok (ev, bal), store) => (.ok bal, { s with
      store := store
      journal := if c.Idle then s.journal else s.journal ++ [ev] })
  | (.error e, store) => (.error e, { s with store := store })

/-- `ledger_spend`. -/
def ledgerSpend (env : StarEnv) («from» «to» : UserId) (amount : Nat) (reason opId : String) :
    Except Ledger.SpendError UInt64 × StarHub :=
  s.ledgerCall sha256 codec env.spendWrite
    (.spend «from» «to» (UInt64.ofNat amount) reason opId "" env.spendStamp)

/-- `add_stars_from` for a gift, which no daily cap holds back. -/
def addStarsFrom (env : StarEnv) («from» «to» : UserId) (n : Nat) (reason : String) : StarHub :=
  (s.ledgerCall sha256 codec env.giftWrite
    (.mintFrom «from» «to» (UInt64.ofNat n) reason "" env.giftStamp)).2

/-- How a refused debit reads. -/
def debitError : Ledger.SpendError → String
  | .insufficient h n => "need " ++ toString n ++ " stars (you have " ++ toString h ++ ")"
  | .empty => "invalid spend"
  | .io => "ledger write failed"
  | .alreadyApplied b => "already_applied:" ++ toString b

-- ====================================================================== messages

/-- `active_effect_ro`: kind, deadline and level. -/
def activeEffect (env : Env) (user : UserId) : String × Nat × Nat :=
  match (s.starEffects.get? user).filter fun e => user ≠ "" && env.unix < e.until with
  | some e => (e.kind, e.until, max e.level 1)
  | none => ("", 0, 1)

/-- Answer a refused purchase. -/
def refuse (id : ConnId) (user effect : String) (mine theirs : Nat) (why me : String) : StarHub :=
  { s with outbox := s.outbox ++ [(id, ⟨false, user, effect, 0, 1, 0, mine, theirs, why, me⟩)] }

/-- Who hears of an effect: the target, the spender, and the rest of the
target's session. -/
def audience (env : Env) (target spender : UserId) : List ConnId :=
  let others := match s.hub.byUser.get? target with
    | none => []
    | some tid => match s.hub.get tid with
      | none => []
      | some c => ((env.peerOrder tid).run c.sessionPeers).filter fun p =>
          (s.hub.get p).any fun c => c.userId ≠ spender && c.userId ≠ target
  (s.hub.byUser.get? target).toList ++ (s.hub.byUser.get? spender).toList ++ others

/-- `broadcast_star_effect` of a purchase. -/
def broadcastStarEffect (env : Env) (target : UserId) (effect : String) («until» cost : Nat)
    (spender : UserId) (spenderStars : Nat) (message : String) (level : Nat) : StarHub :=
  let msg : StarEffect :=
    { ok := true, userId := target, effect := effect, «until» := «until»
      level := min (max level 1) 3, cost := cost, spenderStars := spenderStars
      targetStars := s.starsFor target, message := message, fromUserId := spender }
  { s with outbox := s.outbox ++ (s.audience env target spender).map (·, msg) }

/-- The effect a retry is answered with: the one that runs, if any. -/
def shownEffect (env : Env) (kind : EffectKind) (target : UserId) : String :=
  if kind = .pleaseStay ∨ (s.activeEffect env target).1 = "" then kind.text
  else (s.activeEffect env target).1

/-- The answer to a retry. -/
def alreadyApplied (env : Env) (kind : EffectKind) (me target : UserId) (bal idle : Nat) :
    StarHub :=
  s.broadcastStarEffect env target (s.shownEffect env kind target)
    (if kind = .pleaseStay then (s.noSkipUntil.get? target).getD idle
      else (s.activeEffect env target).2.1)
    kind.costDuration.1 me bal "already applied" (s.activeEffect env target).2.2

-- ====================================================================== purchase

/-- The buyer is in a session or call with the target. -/
def inSession (id : ConnId) (target : UserId) : Bool :=
  match s.hub.byUser.get? target, s.hub.get id with
  | some tid, some c => c.partner = some tid || c.friendCall = some tid || tid ∈ c.sessionPeers
  | _, _ => false

/-- `star_edge_key`. -/
def starEdgeKey («from» «to» : UserId) : String := «from» ++ "|" ++ «to»

/-- What stands in the way of a purchase before it is debited. -/
def spendRefusal (env : Env) (id : ConnId) (me target : UserId) (kind : EffectKind) :
    Option String :=
  let cost := kind.costDuration.1
  let mine := s.starsFor me
  let last := (s.pleaseStayLast.get? (starEdgeKey me target)).filter fun t =>
    env.unix - t < pleaseStayCooldownSecs
  if !s.inSession id target then some "only during a live chat"
  else if mine < cost then
    some ("need " ++ toString cost ++ " stars (you have " ++ toString mine ++ ")")
  else if kind ≠ .pleaseStay then none
  else match last with
    | some t =>
        let days := max ((pleaseStayCooldownSecs - (env.unix - t)) / 86400) 1
        some ("please stay already used on them · try again in ~" ++ toString days ++ " days")
    | none =>
        if env.unix < (s.noSkipUntil.get? target).getD 0 then some "please stay already active"
        else none

/-- Put a paid effect in place; deadline, level and message of the answer. -/
def applyEffect (env : Env) (me target : UserId) (kind : EffectKind) :
    StarHub × Nat × Nat × String :=
  let secs := kind.costDuration.2
  if kind = .pleaseStay then
    let «until» := env.unix + secs
    ({ s with
        noSkipUntil := s.noSkipUntil.set target «until»
        pleaseStayLast := s.pleaseStayLast.set (starEdgeKey me target) env.unix },
      «until», 1, "please stay · " ++ toString secs ++ "s — they can't skip")
  else
    let running := (s.starEffects.get? target).filter fun e =>
      e.kind = kind.text && env.unix < e.until
    let level := match running with
      | some e => min (max e.level 1 + 1) 3
      | none => 1
    let base := match running with
      | some e => e.until
      | none => env.unix
    let «until» := base + (secs + (level - 1) * 3)
    ({ s with starEffects := s.starEffects.set target ⟨kind.text, «until», level⟩ },
      «until», level, kind.message running.isSome secs level)

/-- A debited purchase: the effect, the star for the target, the answer. -/
def purchase (env : StarEnv) (me target : UserId) (kind : EffectKind) (bal : Nat) : StarHub :=
  let (s, «until», level, message) := s.applyEffect env.toEnv me target kind
  let s := if kind.grantsWalletStar
    then s.addStarsFrom sha256 codec env me target 1 ("gift:" ++ kind.text) else s
  s.broadcastStarEffect env.toEnv target kind.text «until» kind.costDuration.1 me bal message level

/-- The operation id as it is used. -/
def opIdOf (raw : String) : String := takeChars 80 (trim raw)

/-- A purchase by a valid buyer for a valid target. -/
def buy (env : StarEnv) (id : ConnId) (me target : UserId) (kind : EffectKind) (op : String) :
    StarHub :=
  if op ≠ "" ∧ op ∈ s.store.ledger.spentOps then
    s.alreadyApplied env.toEnv kind me target (s.starsFor me) 0
  else match s.spendRefusal env.toEnv id me target kind with
    | some why => s.refuse id target kind.text (s.starsFor me) (s.starsFor target) why me
    | none =>
      match s.ledgerSpend sha256 codec env me target kind.costDuration.1
          ("spend:" ++ kind.text) op with
      | (.ok bal, s) => s.purchase sha256 codec env me target kind bal.toNat
      | (.error (.alreadyApplied bal), s) =>
          s.alreadyApplied env.toEnv kind me target bal.toNat env.unix
      | (.error e, s) =>
          s.refuse id target kind.text (s.starsFor me) (s.starsFor target) (debitError e) me

/-- `handle_spend_stars`. -/
def handleSpendStars (env : StarEnv) (id : ConnId) (raw effectRaw opRaw : String) : StarHub :=
  match EffectKind.normalize effectRaw with
  | none => s.refuse id raw effectRaw 0 0 "unknown effect" ""
  | some kind => match s.hub.get id with
    | none => s
    | some c =>
      let me := c.userId
      match s.hub.resolveTargetUserId env.toEnv raw with
      | none => s.refuse id (trim raw) kind.text (s.starsFor me) 0 "invalid target" me
      | some target =>
        if me = "" ∨ target = "" ∨ target = me then
          s.refuse id target kind.text (s.starsFor me) 0 "invalid target" me
        else s.buy sha256 codec env id me target kind (opIdOf opRaw)

end StarHub

end Ruletka
