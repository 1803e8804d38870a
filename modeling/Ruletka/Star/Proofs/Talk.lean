/-
When a long chat is rewarded once.

A run is a list of calls of `arm_star_rating`. Between two calls the hub, the
clocks, the ledger and the names may change in any way; the set of keys is
what one call leaves and the next one finds. Each call visits the three
awards. A visit rewards a user if an award is due to the user, none of the
keys it checks is on file, and the mint goes through: so a second reward for
one match takes a visit that is due to a user rewarded before and finds
nothing on file.

The keys are on file when nothing is trimmed, the visits agree on the second
the match began, and the later award checks what the earlier one claims.
The awards nest only in part: the senior talk checks a key that all three
claim, and any other award only what it claims itself.
-/
import Ruletka.Star.Talk
import Ruletka.Report.Proofs.Outed

namespace Ruletka

open Text

namespace TalkHub

variable (sha256 : String → List UInt8) (codec : Ledger.LineCodec)

-- ======================================================================== awards

/-- The awards in the order they are made. -/
inductive Award where
  | hourBonus | seniorTalk | ownerEgg
  deriving DecidableEq

/-- The hub once the first bonus of an hour is minted. -/
def firstBonus (s : TalkHub) (env : AwardEnv) (t : Talk) : TalkHub :=
  (s.ledgerMint sha256 codec env.toEnv env.write env.stamp "" t.me
    (hourRewardAmountFor (s.effectiveTrustFor env.toReportEnv t.me)
      (s.effectiveTrustFor env.toReportEnv t.them)) "mint:hour_bonus" t.hourKey).2

/-- A mint for the user goes through: the daily cap leaves a star, and the
ledger's file takes a line. -/
def Passes (s : TalkHub) (env : Env) (w : Ledger.Write) (user : UserId) : Prop :=
  0 < s.mintBudgetRemaining env user ∧ w = .ok ∧ s.store.file.lines.length + 1 < 2 ^ 63

namespace Award

def make (a : Award) (s : TalkHub) (env : AwardEnv) (id : ConnId) : TalkHub :=
  match a with
  | hourBonus => s.tryAwardHourChatStars sha256 codec env id
  | seniorTalk => s.tryAwardSeniorTalkBoost sha256 codec env id
  | ownerEgg => s.tryAwardOwnerTalkEgg sha256 codec env id

/-- The keys that hold an award back. -/
def checks (a : Award) (t : Talk) : List String :=
  match a with
  | hourBonus => [t.hourKey]
  | seniorTalk => [t.hourKey, t.earlyKey]
  | ownerEgg => [t.eggKey]

/-- The keys an award puts on file. -/
def claims (a : Award) (t : Talk) : List String :=
  match a with
  | hourBonus => [t.hourKey, t.earlyKey]
  | seniorTalk => [t.earlyKey]
  | ownerEgg => [t.eggKey, t.earlyKey]

/-- To whom an award is due, by the time, the standing and the names. -/
def due (a : Award) (s : TalkHub) (env : AwardEnv) (t : Talk) : List UserId :=
  match a with
  | hourBonus => if t.secs < starHourBonusSecs then [] else [t.me, t.them]
  | seniorTalk => if t.secs < starMinSecs then [] else (s.boosted env t).toList
  | ownerEgg => if ownerEggAmountForSecs t.secs = 0 then [] else (s.visitor t).toList

/-- The hub that a user's mint meets: the second bonus of an hour comes behind
the first. -/
def meets (a : Award) (s : TalkHub) (env : AwardEnv) (t : Talk) (user : UserId) : TalkHub :=
  if a = hourBonus ∧ user = t.them
  then (s.claim env.keyOrder [t.hourKey, t.earlyKey]).firstBonus sha256 codec env t else s

/-- The write of a user's reward. -/
def write (a : Award) (env : AwardEnv) (t : Talk) (user : UserId) : Ledger.Write :=
  if a = hourBonus ∧ user = t.them then env.secondWrite else env.write

end Award

/-- An award that is tried. -/
structure Visit where
  before : TalkHub
  award : Award
  env : AwardEnv
  id : ConnId

namespace Visit

variable (v : Visit)

def after : TalkHub := v.award.make sha256 codec v.before v.env v.id

def talk : Option Talk := v.before.talkOf v.env.toEnv v.id

/-- What the ledger records of a visit. -/
def rewards : List Ledger.StarEvent :=
  (v.after sha256 codec).journal.drop v.before.journal.length

/-- A key that holds the award back is in the set. -/
def OnFile (t : Talk) : Prop := ∃ k ∈ v.award.checks t, k ∈ v.before.hourStarSessions

/-- An award is due to a user, and its mint goes through. -/
structure Brings (t : Talk) (user : UserId) : Prop where
  talks : v.talk = some t
  due : user ∈ v.award.due v.before v.env t
  passes : (v.award.meets sha256 codec v.before v.env t user).Passes v.env.toEnv
    (v.award.write v.env t user) user

end Visit

-- ======================================================================= one mint

section

variable {sha256 codec} {s : TalkHub} {env : Env}

theorem recordMintDay_same (user : UserId) (n : Nat) :
    (s.recordMintDay env user n).journal = s.journal
      ∧ (s.recordMintDay env user n).hourStarSessions = s.hourStarSessions := by
  unfold recordMintDay
  split_ifs
  · exact ⟨rfl, rfl⟩
  · exact ⟨rfl, rfl⟩

/-- A mint: the user's event, if it goes through, and nothing else. -/
structure Minted (s s' : TalkHub) (env : Env) (w : Ledger.Write) (user : UserId)
    (evs : List Ledger.StarEvent) : Prop where
  journal : s'.journal = s.journal ++ evs
  keys : s'.hourStarSessions = s.hourStarSessions
  events : evs.map (·.to) = [user] ∧ s.Passes env w user ∨ evs = [] ∧ ¬ s.Passes env w user

theorem mintable_eq {user : UserId} {n : Nat} {reason : String} (huser : user ≠ "")
    (hcap : bypassesCap reason = false) :
    s.mintable env user n reason = min n (s.mintBudgetRemaining env user) := by
  unfold mintable
  rw [if_neg huser, hcap]
  rfl

theorem mintBudgetRemaining_le (user : UserId) :
    s.mintBudgetRemaining env user ≤ dailyMintCap := by
  unfold mintBudgetRemaining
  split
  · split_ifs
    · exact Nat.sub_le _ _
    · exact le_rfl
  · exact le_rfl

/-- What is left of a budget fits a word. -/
theorem toNat_ofNat_capped (n : Nat) (user : UserId) :
    (UInt64.ofNat (min n (s.mintBudgetRemaining env user))).toNat
      = min n (s.mintBudgetRemaining env user) := by
  have hbudget := @mintBudgetRemaining_le s env user
  apply UInt64.toNat_ofNat_of_lt'
  unfold dailyMintCap at hbudget
  show min n (s.mintBudgetRemaining env user) < 18446744073709551616
  omega

theorem ofNat_capped_ne_zero {n : Nat} {user : UserId}
    (h : min n (s.mintBudgetRemaining env user) ≠ 0) :
    UInt64.ofNat (min n (s.mintBudgetRemaining env user)) ≠ 0 := by
  intro h0
  apply h
  rw [← toNat_ofNat_capped, h0]
  rfl

/-- A mint goes to the ledger and the file, or to neither. -/
theorem tryMintFrom_cases (st : Ledger.Store) (w : Ledger.Write) («from» : UserId)
    {user : UserId} {amount : UInt64} (reason session : String) (stamp : Ledger.Stamp)
    (huser : user ≠ "") (hamount : amount ≠ 0) :
    ((w = .ok ∧ st.file.lines.length + 1 < 2 ^ 63) ∧ ∃ ev st',
        st.tryMintFrom sha256 codec w «from» user amount reason session stamp
          = (.ok (ev, st'.ledger.balance user), st') ∧ st'.ledger = st.ledger.record ev
        ∧ ev.kind = Ledger.kindMint ∧ ev.to = user ∧ ev.amount = amount ∧ ev.ts = stamp.ts)
    ∨ ¬ (w = .ok ∧ st.file.lines.length + 1 < 2 ^ 63) ∧ ∃ e st',
        st.tryMintFrom sha256 codec w «from» user amount reason session stamp = (.error e, st')
        ∧ st'.ledger = st.ledger := by
  unfold Ledger.Store.tryMintFrom
  rw [if_neg (by simp [huser, hamount])]
  unfold Ledger.Store.tryAppend Ledger.LedgerFile.append
  cases w with
  | fails left => exact .inr ⟨nofun, _, _, rfl, rfl⟩
  | ok =>
      by_cases hroom : st.file.lines.length + 1 < 2 ^ 63
      · simp only [dif_pos hroom]
        exact .inl ⟨⟨trivial, hroom⟩, _, _, rfl, rfl, rfl, rfl, rfl, rfl⟩
      · simp only [dif_neg hroom]
        exact .inr ⟨fun h => hroom h.2, _, _, rfl, rfl⟩

theorem ledgerMint_minted (w : Ledger.Write) (stamp : Ledger.Stamp) («from» : UserId)
    {user : UserId} {n : Nat} {reason : String} (session : String) (huser : user ≠ "")
    (hn : 0 < n) (hcap : bypassesCap reason = false) :
    ∃ evs, Minted s (s.ledgerMint sha256 codec env w stamp «from» user n reason session).2 env w
      user evs := by
  unfold ledgerMint
  dsimp only
  rw [mintable_eq huser hcap]
  have hbudget := @mintBudgetRemaining_le s env user
  split
  · next hzero =>
      have hspent : ¬ s.Passes env w user := fun h => by
        have := h.1
        omega
      exact ⟨[], (List.append_nil _).symm, rfl, .inr ⟨rfl, hspent⟩⟩
  next hzero =>
  have hleft : 0 < s.mintBudgetRemaining env user := by omega
  obtain ⟨hw, ev, st', hmint, -, -, hto, -⟩ | ⟨hw, e, st', hmint, -⟩ :=
    @tryMintFrom_cases sha256 codec s.store w «from» user _ reason session stamp huser
      (ofNat_capped_ne_zero hzero)
  · rw [hmint]
    dsimp only
    rw [if_neg (by simp [hcap])]
    refine ⟨[ev], (recordMintDay_same _ _).1, (recordMintDay_same _ _).2, .inl ⟨?_, hleft, hw⟩⟩
    rw [List.map_singleton, hto]
  · rw [hmint]
    exact ⟨[], (List.append_nil _).symm, rfl, .inr ⟨rfl, fun h => hw h.2⟩⟩

-- ===================================================================== an award

/-- Payment of some users: those whose mints go through get an event each. -/
structure Pays (s s' : TalkHub) (through : UserId → Prop) (users : List UserId)
    (evs : List Ledger.StarEvent) : Prop where
  journal : s'.journal = s.journal ++ evs
  keys : s'.hourStarSessions = s.hourStarSessions
  only : (evs.map (·.to)).Sublist users
  paid : ∀ user ∈ users, user ∈ evs.map (·.to) ↔ through user

theorem Minted.pays {s' : TalkHub} {w : Ledger.Write} {user : UserId}
    {evs : List Ledger.StarEvent} (h : Minted s s' env w user evs) :
    Pays s s' (s.Passes env w) [user] evs := by
  obtain ⟨hto, hpass⟩ | ⟨rfl, hpass⟩ := h.events
  · refine ⟨h.journal, h.keys, hto ▸ List.Sublist.refl _, fun u hu => ?_⟩
    rw [List.mem_singleton.mp hu, hto]
    exact iff_of_true (List.mem_singleton_self _) hpass
  · refine ⟨h.journal, h.keys, List.nil_sublist _, fun u hu => ?_⟩
    rw [List.mem_singleton.mp hu]
    exact iff_of_false List.not_mem_nil hpass

theorem tell_same (user : UserId) (amount stars : Nat) (message : String) :
    (s.tell user amount stars message).journal = s.journal
      ∧ (s.tell user amount stars message).hourStarSessions = s.hourStarSessions := ⟨rfl, rfl⟩

theorem payOne_pays {env : AwardEnv} {user : UserId} {amount : Nat} {reason : String}
    (message : String) (huser : user ≠ "") (hamount : 0 < amount)
    (hcap : bypassesCap reason = false) :
    ∃ evs, Pays s (s.payOne sha256 codec env user amount reason message)
      (s.Passes env.toEnv env.write) [user] evs := by
  obtain ⟨evs, h⟩ := @ledgerMint_minted sha256 codec s env.toEnv env.write env.stamp "" user
    amount reason "" huser hamount hcap
  have hp := h.pays
  exact ⟨evs, hp.journal, hp.keys, hp.only, hp.paid⟩

theorem hourRewardAmountFor_pos (me them : Nat) : 0 < hourRewardAmountFor me them := by
  unfold hourRewardAmountFor
  split_ifs
  · exact Nat.succ_pos 2
  · exact Nat.succ_pos 1
  · exact Nat.succ_pos 0
  · exact Nat.succ_pos 0

theorem payHour_pays {env : AwardEnv} {t : Talk} (hme : t.me ≠ "") (hthem : t.them ≠ "")
    (hne : t.them ≠ t.me) :
    ∃ evs, Pays s (s.payHour sha256 codec env t) (fun user =>
      if user = t.them then (s.firstBonus sha256 codec env t).Passes env.toEnv env.secondWrite user
      else s.Passes env.toEnv env.write user) [t.me, t.them] evs := by
  let mine := s.effectiveTrustFor env.toReportEnv t.me
  let theirs := s.effectiveTrustFor env.toReportEnv t.them
  obtain ⟨evs, h⟩ : ∃ evs, Minted s (s.firstBonus sha256 codec env t) env.toEnv env.write t.me
      evs := ledgerMint_minted env.write env.stamp "" t.hourKey hme (hourRewardAmountFor_pos _ _)
    rfl
  obtain ⟨evs', h'⟩ := @ledgerMint_minted sha256 codec (s.firstBonus sha256 codec env t) env.toEnv
    env.secondWrite env.secondStamp "" t.them _ "mint:hour_bonus" t.hourKey hthem
    (hourRewardAmountFor_pos theirs mine) rfl
  have hp := h.pays
  have hp' := h'.pays
  have hpaid : ∃ stars stars', s.payHour sha256 codec env t
      = (((s.firstBonus sha256 codec env t).ledgerMint sha256 codec env.toEnv env.secondWrite
          env.secondStamp "" t.them (hourRewardAmountFor theirs mine) "mint:hour_bonus"
          t.hourKey).2.tell t.me (hourRewardAmountFor mine theirs) stars _).tell t.them
            (hourRewardAmountFor theirs mine) stars' _ := ⟨_, _, rfl⟩
  obtain ⟨stars, stars', hpaid⟩ := hpaid
  have hmine : t.them ∉ evs.map (·.to) := fun hmem =>
    hne (List.mem_singleton.mp (hp.only.subset hmem))
  have htheirs : t.me ∉ evs'.map (·.to) := fun hmem =>
    hne (List.mem_singleton.mp (hp'.only.subset hmem)).symm
  refine ⟨evs ++ evs', ?_, ?_, ?_, ?_⟩
  · rw [hpaid, (tell_same _ _ _ _).1, (tell_same _ _ _ _).1, h'.journal, h.journal,
      List.append_assoc]
  · rw [hpaid, (tell_same _ _ _ _).2, (tell_same _ _ _ _).2, h'.keys, h.keys]
  · rw [List.map_append]
    exact hp.only.append hp'.only
  · intro user huser
    rw [List.map_append, List.mem_append]
    rcases List.mem_pair.mp huser with rfl | rfl
    · rw [if_neg hne.symm, or_iff_left htheirs]
      exact hp.paid _ (List.mem_singleton_self _)
    · rw [if_pos rfl, or_iff_right hmine]
      exact hp'.paid _ (List.mem_singleton_self _)

theorem claim_same (order : IterOrder String) (keys : List String) :
    (s.claim order keys).journal = s.journal ∧ (s.claim order keys).mintDay = s.mintDay
      ∧ (s.claim order keys).store = s.store := by
  unfold claim trimHourStarSessions
  split_ifs
  · exact ⟨rfl, rfl, rfl⟩
  · exact ⟨rfl, rfl, rfl⟩

theorem passes_claim (order : IterOrder String) (keys : List String) (w : Ledger.Write)
    (user : UserId) : (s.claim order keys).Passes env w user ↔ s.Passes env w user := by
  unfold Passes mintBudgetRemaining
  rw [(claim_same _ _).2.1, (claim_same _ _).2.2]

/-- A set with room keeps what it has. -/
theorem claim_keys {order : IterOrder String} {keys : List String}
    (hroom : s.hourStarSessions.card + keys.length ≤ 6000) :
    (s.claim order keys).hourStarSessions = s.hourStarSessions ∪ keys.toFinset := by
  unfold claim trimHourStarSessions
  have hcard := (Finset.card_union_le s.hourStarSessions keys.toFinset).trans
    (Nat.add_le_add_left keys.toFinset_card_le _)
  rw [if_neg (by dsimp only; omega)]

end

-- ======================================================================== a visit

/-- A visit that finds nothing on file: keys are claimed, and those
to whom the award is due get an event each, if their mints go through. -/
structure Visit.Rewards (v : Visit) (t : Talk) (evs : List Ledger.StarEvent) : Prop where
  talks : v.talk = some t
  fresh : ¬ v.OnFile t
  keys : (v.after sha256 codec).hourStarSessions
    = (v.before.claim v.env.keyOrder (v.award.claims t)).hourStarSessions
  journal : (v.after sha256 codec).journal = v.before.journal ++ evs
  users : (evs.map (·.to)).Sublist (v.award.due v.before v.env t)
  paid : ∀ user ∈ v.award.due v.before v.env t, user ∈ evs.map (·.to)
    ↔ (v.award.meets sha256 codec v.before v.env t user).Passes v.env.toEnv
      (v.award.write v.env t user) user

/-- A visit that pays nobody: the award is due to nobody, or on file. -/
structure Visit.Quiet (v : Visit) : Prop where
  idle : ∀ t, v.talk = some t → v.award.due v.before v.env t = [] ∨ v.OnFile t
  keys : (v.after sha256 codec).hourStarSessions = v.before.hourStarSessions
  journal : (v.after sha256 codec).journal = v.before.journal

section

variable {sha256 codec} {s : TalkHub} {env : AwardEnv} {id : ConnId} {t : Talk} {v : Visit}

/-- A talk has two users. -/
theorem talkOf_users (h : s.talkOf env.toEnv id = some t) :
    t.me ≠ "" ∧ t.them ≠ "" ∧ t.them ≠ t.me := by
  unfold talkOf at h
  split at h
  · cases h
  dsimp only at h
  split at h
  · cases h
  next hme =>
  split at h
  · cases h
  next them name hpartner =>
  split at h
  · cases h
  next hne =>
  cases h
  refine ⟨hme, ?_, hne⟩
  unfold starPartnerOf at hpartner
  split at hpartner
  · cases hpartner
  split at hpartner
  · cases hpartner
  split at hpartner
  · cases hpartner
  split at hpartner
  · cases hpartner
  split at hpartner
  · cases hpartner
  · next hthem =>
      cases hpartner
      exact hthem

theorem boosted_mem {user : UserId} (h : s.boosted env t = some user) :
    user = t.me ∨ user = t.them := by
  unfold boosted at h
  dsimp only at h
  split_ifs at h
  · exact .inl (Option.some.inj h).symm
  · exact .inr (Option.some.inj h).symm

theorem visitor_mem {user : UserId} (h : s.visitor t = some user) :
    user = t.me ∨ user = t.them := by
  unfold visitor at h
  dsimp only at h
  split_ifs at h
  · exact .inl (Option.some.inj h).symm
  · exact .inr (Option.some.inj h).symm

/-- Either user of a talk has a name. -/
theorem named_of_talk (ht : s.talkOf env.toEnv id = some t) {user : UserId}
    (h : user = t.me ∨ user = t.them) : user ≠ "" := by
  obtain ⟨hme, hthem, -⟩ := talkOf_users ht
  rcases h with rfl | rfl
  · exact hme
  · exact hthem

theorem due_nodup (ht : v.talk = some t) : (v.award.due v.before v.env t).Nodup := by
  have hne := (talkOf_users ht).2.2
  unfold Award.due
  cases v.award with
  | hourBonus =>
      dsimp only
      split_ifs
      · exact List.nodup_nil
      · simpa using hne.symm
  | seniorTalk =>
      dsimp only
      split_ifs
      · exact List.nodup_nil
      · cases v.before.boosted v.env t <;> simp
  | ownerEgg =>
      dsimp only
      split_ifs
      · exact List.nodup_nil
      · cases v.before.visitor t <;> simp

/-- Claim the keys, then pay. -/
theorem Visit.rewards_of_pays {s' : TalkHub} {evs : List Ledger.StarEvent}
    {through : UserId → Prop} (ht : v.talk = some t) (hfresh : ¬ v.OnFile t)
    (hafter : v.after sha256 codec = s')
    (h : Pays (v.before.claim v.env.keyOrder (v.award.claims t)) s' through
      (v.award.due v.before v.env t) evs)
    (hthrough : ∀ user, through user
      ↔ (v.award.meets sha256 codec v.before v.env t user).Passes v.env.toEnv
        (v.award.write v.env t user) user) :
    v.Rewards sha256 codec t evs := by
  subst hafter
  refine ⟨ht, hfresh, h.keys, ?_, h.only, fun user hu => (h.paid user hu).trans (hthrough user)⟩
  rw [h.journal, (claim_same _ _).1]

theorem Visit.quiet_of_eq (h : v.after sha256 codec = v.before)
    (hidle : ∀ t, v.talk = some t → v.award.due v.before v.env t = [] ∨ v.OnFile t) :
    v.Quiet sha256 codec :=
  ⟨hidle, by rw [h], by rw [h]⟩

/-- The same, for the talk that the visit finds. -/
theorem Visit.quiet_of_talk (h : v.after sha256 codec = v.before) (ht : v.talk = some t)
    (hidle : v.award.due v.before v.env t = [] ∨ v.OnFile t) : v.Quiet sha256 codec :=
  Visit.quiet_of_eq h fun _ ht' => Option.some.inj (ht.symm.trans ht') ▸ hidle

theorem Visit.quiet_of_none (h : v.after sha256 codec = v.before) (ht : v.talk = none) :
    v.Quiet sha256 codec :=
  Visit.quiet_of_eq h fun _ ht' => absurd (ht.symm.trans ht') nofun

/-- Where one user is paid, the mint meets the hub as the award finds it. -/
theorem passes_of_ne {a : Award} (ha : a ≠ .hourBonus) (keys : List String) (user : UserId) :
    (s.claim env.keyOrder keys).Passes env.toEnv env.write user
      ↔ (a.meets sha256 codec s env t user).Passes env.toEnv (a.write env t user) user := by
  unfold Award.meets Award.write
  rw [if_neg fun h => ha h.1, if_neg fun h => ha h.1]
  exact passes_claim _ _ _ _

theorem hour_cases : Visit.Quiet sha256 codec ⟨s, .hourBonus, env, id⟩
    ∨ ∃ t evs, Visit.Rewards sha256 codec ⟨s, .hourBonus, env, id⟩ t evs := by
  have hafter : Visit.after sha256 codec ⟨s, .hourBonus, env, id⟩
    = s.tryAwardHourChatStars sha256 codec env id := rfl
  unfold tryAwardHourChatStars at hafter
  split at hafter
  · next ht => exact .inl (Visit.quiet_of_none hafter ht)
  next t ht =>
  split_ifs at hafter with hsecs hkey
  · exact .inl (Visit.quiet_of_talk hafter ht (.inl (if_pos hsecs)))
  · exact .inl (Visit.quiet_of_talk hafter ht (.inr ⟨_, List.mem_singleton_self _, hkey⟩))
  · obtain ⟨hme, hthem, hne⟩ := talkOf_users ht
    obtain ⟨evs, h⟩ := @payHour_pays sha256 codec (s.claim env.keyOrder [t.hourKey, t.earlyKey])
      env t hme hthem hne
    rw [← show Award.due .hourBonus s env t = [t.me, t.them] from if_neg hsecs] at h
    refine .inr ⟨t, evs, Visit.rewards_of_pays ht ?_ hafter h fun user => ?_⟩
    · rintro ⟨k, hk, hmem⟩
      exact hkey (List.mem_singleton.mp hk ▸ hmem)
    · unfold Award.meets Award.write
      dsimp only
      by_cases hu : user = t.them
      · rw [if_pos hu, if_pos ⟨rfl, hu⟩, if_pos ⟨rfl, hu⟩]
      · rw [if_neg hu, if_neg fun h => hu h.2, if_neg fun h => hu h.2]
        exact passes_claim _ _ _ _

theorem senior_cases : Visit.Quiet sha256 codec ⟨s, .seniorTalk, env, id⟩
    ∨ ∃ t evs, Visit.Rewards sha256 codec ⟨s, .seniorTalk, env, id⟩ t evs := by
  have hafter : Visit.after sha256 codec ⟨s, .seniorTalk, env, id⟩
    = s.tryAwardSeniorTalkBoost sha256 codec env id := rfl
  unfold tryAwardSeniorTalkBoost at hafter
  split at hafter
  · next ht => exact .inl (Visit.quiet_of_none hafter ht)
  next t ht =>
  split_ifs at hafter with hsecs hkey
  · exact .inl (Visit.quiet_of_talk hafter ht (.inl (if_pos hsecs)))
  · refine .inl (Visit.quiet_of_talk hafter ht (.inr ?_))
    rcases hkey with hkey | hkey
    · exact ⟨_, by simp [Award.checks], hkey⟩
    · exact ⟨_, by simp [Award.checks], hkey⟩
  split at hafter
  · next hnone =>
      exact .inl (Visit.quiet_of_talk hafter ht (.inl (by simp [Award.due, hnone])))
  · next user huser =>
      obtain ⟨evs, h⟩ := @payOne_pays sha256 codec (s.claim env.keyOrder [t.earlyKey]) env user 3
        "mint:senior_talk" "senior talk reward" (named_of_talk ht (boosted_mem huser))
        (Nat.succ_pos 2) rfl
      have hdue : Award.due .seniorTalk s env t = [user] := by
        simp [Award.due, hsecs, huser]
      have hone : Award.seniorTalk ≠ .hourBonus := nofun
      rw [← hdue] at h
      refine .inr ⟨t, evs, Visit.rewards_of_pays ht ?_ hafter h (passes_of_ne hone _)⟩
      · rintro ⟨k, hk, hmem⟩
        rcases List.mem_pair.mp hk with rfl | rfl
        · exact hkey (.inl hmem)
        · exact hkey (.inr hmem)

theorem egg_cases : Visit.Quiet sha256 codec ⟨s, .ownerEgg, env, id⟩
    ∨ ∃ t evs, Visit.Rewards sha256 codec ⟨s, .ownerEgg, env, id⟩ t evs := by
  have hafter : Visit.after sha256 codec ⟨s, .ownerEgg, env, id⟩
    = s.tryAwardOwnerTalkEgg sha256 codec env id := rfl
  unfold tryAwardOwnerTalkEgg at hafter
  split at hafter
  · next ht => exact .inl (Visit.quiet_of_none hafter ht)
  next t ht =>
  split at hafter
  · next hamount => exact .inl (Visit.quiet_of_talk hafter ht (.inl (if_pos hamount)))
  next hamount =>
  split at hafter
  · next hnone =>
      exact .inl (Visit.quiet_of_talk hafter ht (.inl (by simp [Award.due, hnone])))
  next user huser =>
  split at hafter
  · next hkey =>
      exact .inl (Visit.quiet_of_talk hafter ht (.inr ⟨_, List.mem_singleton_self _, hkey⟩))
  · next hkey =>
      obtain ⟨evs, h⟩ := @payOne_pays sha256 codec (s.claim env.keyOrder [t.eggKey, t.earlyKey])
        env user (ownerEggAmountForSecs t.secs) "mint:owner_egg" "chat reward"
        (named_of_talk ht (visitor_mem huser)) (Nat.pos_of_ne_zero hamount) rfl
      have hdue : Award.due .ownerEgg s env t = [user] := by
        simp [Award.due, hamount, huser]
      have hone : Award.ownerEgg ≠ .hourBonus := nofun
      rw [← hdue] at h
      refine .inr ⟨t, evs, Visit.rewards_of_pays ht ?_ hafter h (passes_of_ne hone _)⟩
      · rintro ⟨k, hk, hmem⟩
        exact hkey (List.mem_singleton.mp hk ▸ hmem)

theorem Visit.cases (v : Visit) :
    v.Quiet sha256 codec ∨ ∃ t evs, v.Rewards sha256 codec t evs := by
  obtain ⟨s, a, env, id⟩ := v
  cases a with
  | hourBonus => exact hour_cases
  | seniorTalk => exact senior_cases
  | ownerEgg => exact egg_cases

theorem countP_to (evs : List Ledger.StarEvent) (user : UserId) :
    evs.countP (·.to = user) = (evs.map (·.to)).count user := by
  rw [List.count, List.countP_map]
  congr 1

/-- A user is rewarded by a visit at most once, and exactly when the award is
due to the user, its mint goes through and nothing is on file. -/
theorem Visit.rewards_spec (v : Visit) (user : UserId) :
    (v.rewards sha256 codec).countP (·.to = user) ≤ 1
      ∧ (0 < (v.rewards sha256 codec).countP (·.to = user) ↔
        ∃ t, v.Brings sha256 codec t user ∧ ¬ v.OnFile t) := by
  unfold Visit.rewards
  obtain hq | ⟨t, evs, h⟩ := v.cases
  · rw [hq.journal, List.drop_length]
    refine ⟨Nat.zero_le _, iff_of_false (Nat.lt_irrefl 0) ?_⟩
    rintro ⟨t, hb, hfresh⟩
    exact List.not_mem_nil ((hq.idle t hb.talks).resolve_right hfresh ▸ hb.due)
  · rw [h.journal, List.drop_left, countP_to]
    refine ⟨List.nodup_iff_count_le_one.mp (h.users.nodup (due_nodup h.talks)) user, ?_⟩
    rw [List.count_pos_iff]
    refine ⟨fun hmem => ?_, fun ⟨t', hb, _⟩ => ?_⟩
    · have hdue := h.users.subset hmem
      exact ⟨t, ⟨h.talks, hdue, (h.paid user hdue).mp hmem⟩, h.fresh⟩
    · obtain rfl : t = t' := Option.some.inj (h.talks.symm.trans hb.talks)
      exact (h.paid user hb.due).mpr hb.passes

end

-- ========================================================================== runs

/-- A match of two users, with the instants their sides started at. -/
structure Match where
  left : UserId
  right : UserId
  leftStarted : Instant
  rightStarted : Instant

/-- The talk is a side of the match. -/
def Match.has (m : Match) (t : Talk) : Prop :=
  (t.me = m.left ∧ t.them = m.right ∧ t.started = some m.leftStarted)
    ∨ (t.me = m.right ∧ t.them = m.left ∧ t.started = some m.rightStarted)

instance (m : Match) (t : Talk) : Decidable (m.has t) := by
  unfold Match.has
  infer_instance

/-- The visit is for a side of the match. -/
def Visit.ofMatch (m : Match) (v : Visit) : Bool := v.talk.any fun t => decide (m.has t)

/-- How often visits reward a user for a match. -/
def timesRewarded (m : Match) (user : UserId) (vs : List Visit) : Nat :=
  ((vs.filter (·.ofMatch m)).flatMap (Visit.rewards sha256 codec)).countP (·.to = user)

/-- After other visits, one brings a user whom the match has rewarded another
reward for it, and no key of the award is on file. -/
structure Repeats (m : Match) (pre : List Visit) (v : Visit) (t : Talk) (user : UserId) :
    Prop where
  same : m.has t
  rewarded : 0 < timesRewarded sha256 codec m user pre
  brings : v.Brings sha256 codec t user
  fresh : ¬ v.OnFile t

/-- No visit repeats a reward of the match. -/
def NoRepeats (m : Match) (vs : List Visit) : Prop :=
  ∀ pre v post, vs = pre ++ v :: post → ∀ t user, ¬ Repeats sha256 codec m pre v t user

/-- A call of `arm_star_rating`, on the hub as the call finds it. -/
structure Call where
  before : TalkHub
  env : ArmEnv
  id : ConnId

namespace Call

variable (c : Call)

def after : TalkHub := c.before.armStarRating sha256 codec c.env c.id

/-- The three awards of a call. -/
def hour : Visit := ⟨c.before, .hourBonus, c.env.hour, c.id⟩
def senior : Visit := ⟨c.hour.after sha256 codec, .seniorTalk, c.env.senior, c.id⟩
def egg : Visit := ⟨(c.senior sha256 codec).after sha256 codec, .ownerEgg, c.env.egg, c.id⟩

def visits : List Visit := [c.hour, c.senior sha256 codec, c.egg sha256 codec]

/-- Behind the awards comes the offer to rate. -/
theorem after_eq : c.after sha256 codec
    = ((c.egg sha256 codec).after sha256 codec).offerRating c.env.offer c.id := rfl

end Call

/-- A run of calls: each finds the keys that the one before it left. -/
def Linked (calls : List Call) : Prop :=
  calls.IsChain fun c c' =>
    c'.before.hourStarSessions = (c.after sha256 codec).hourStarSessions

def visits (calls : List Call) : List Visit := calls.flatMap (Call.visits sha256 codec)

section

variable {sha256 codec} {m : Match} {user : UserId} {vs : List Visit} {v : Visit} {t : Talk}

theorem ofMatch_iff : v.ofMatch m = true ↔ ∃ t, v.talk = some t ∧ m.has t := by
  simp only [Visit.ofMatch, Option.any_eq_true, decide_eq_true_eq]

theorem timesRewarded_append (xs ys : List Visit) :
    timesRewarded sha256 codec m user (xs ++ ys)
      = timesRewarded sha256 codec m user xs + timesRewarded sha256 codec m user ys := by
  simp only [timesRewarded, List.filter_append, List.flatMap_append, List.countP_append]

theorem timesRewarded_single (h : v.ofMatch m = true) :
    timesRewarded sha256 codec m user [v]
      = (v.rewards sha256 codec).countP (·.to = user) := by
  simp [timesRewarded, h]

theorem timesRewarded_other (h : ¬ v.ofMatch m = true) :
    timesRewarded sha256 codec m user [v] = 0 := by
  simp [timesRewarded, h]

theorem timesRewarded_single_le :
    timesRewarded sha256 codec m user [v] ≤ 1 := by
  by_cases h : v.ofMatch m = true
  · rw [timesRewarded_single h]
    exact (v.rewards_spec user).1
  · rw [timesRewarded_other h]
    exact Nat.zero_le _

/-- A user the match rewards is rewarded by a visit for it. -/
theorem timesRewarded_pos_iff : 0 < timesRewarded sha256 codec m user vs
    ↔ ∃ u ∈ vs, ∃ t, m.has t ∧ u.Brings sha256 codec t user ∧ ¬ u.OnFile t := by
  constructor
  · intro h
    obtain ⟨ev, hev, hto⟩ := List.countP_pos_iff.mp h
    obtain ⟨u, hu, hev⟩ := List.mem_flatMap.mp hev
    obtain ⟨hu, hm⟩ := List.mem_filter.mp hu
    obtain ⟨t, hb, hfresh⟩ := (u.rewards_spec user).2.mp (List.countP_pos_iff.mpr ⟨ev, hev, hto⟩)
    obtain ⟨t', ht', hhas⟩ := ofMatch_iff.mp hm
    obtain rfl : t' = t := Option.some.inj (ht'.symm.trans hb.talks)
    exact ⟨u, hu, t', hhas, hb, hfresh⟩
  · rintro ⟨u, hu, t, hhas, hb, hfresh⟩
    obtain ⟨ev, hev, hto⟩ := List.countP_pos_iff.mp ((u.rewards_spec user).2.mpr ⟨t, hb, hfresh⟩)
    have hm : u.ofMatch m = true := ofMatch_iff.mpr ⟨t, hb.talks, hhas⟩
    exact List.countP_pos_iff.mpr
      ⟨ev, List.mem_flatMap.mpr ⟨u, List.mem_filter.mpr ⟨hu, hm⟩, hev⟩, hto⟩

/-- The keys that an award leaves when it is due and nothing is on file. -/
theorem keys_of_due (ht : v.talk = some t) (hdue : user ∈ v.award.due v.before v.env t)
    (hfresh : ¬ v.OnFile t) : (v.after sha256 codec).hourStarSessions
      = (v.before.claim v.env.keyOrder (v.award.claims t)).hourStarSessions := by
  obtain hq | ⟨t', evs, h⟩ := @Visit.cases sha256 codec v
  · exact absurd ((hq.idle t ht).resolve_right hfresh ▸ hdue) List.not_mem_nil
  · obtain rfl : t' = t := Option.some.inj (h.talks.symm.trans ht)
    exact h.keys

/-- By induction on the run: the last visit rewards nobody the match has
rewarded, or it would be a repeat. -/
theorem NoRepeats.once (h : NoRepeats sha256 codec m vs) (user : UserId) :
    timesRewarded sha256 codec m user vs ≤ 1 := by
  induction vs using List.reverseRecOn with
  | nil => exact Nat.zero_le _
  | append_singleton l v ih =>
      have hl : NoRepeats sha256 codec m l := fun pre u post hsplit =>
        h pre u (post ++ [v]) (by rw [hsplit, List.append_assoc, List.cons_append])
      rw [timesRewarded_append]
      rcases Nat.eq_zero_or_pos (timesRewarded sha256 codec m user l) with h0 | hpos
      · rw [h0, Nat.zero_add]
        exact timesRewarded_single_le
      rcases Nat.eq_zero_or_pos (timesRewarded sha256 codec m user [v]) with h0 | hagain
      · rw [h0]
        exact ih hl
      · obtain ⟨u, hu, t, hhas, hb, hfresh⟩ := timesRewarded_pos_iff.mp hagain
        obtain rfl := List.mem_singleton.mp hu
        exact absurd ⟨hhas, hpos, hb, hfresh⟩ (h l u [] rfl t user)

-- ======================================================= the visits of a run

theorem Visit.journal_after (v : Visit) :
    (v.after sha256 codec).journal = v.before.journal ++ v.rewards sha256 codec := by
  unfold Visit.rewards
  obtain hq | ⟨t, evs, h⟩ := v.cases
  · rw [hq.journal, List.drop_length, List.append_nil]
  · rw [h.journal, List.drop_left]

theorem offerRating_same (s : TalkHub) (env : Env) (id : ConnId) :
    (s.offerRating env id).hourStarSessions = s.hourStarSessions
      ∧ (s.offerRating env id).journal = s.journal := by
  unfold offerRating
  split
  · exact ⟨rfl, rfl⟩
  · dsimp only
    split_ifs
    · exact ⟨rfl, rfl⟩
    · exact ⟨rfl, rfl⟩
    · exact ⟨rfl, rfl⟩

/-- What the ledger records of a call is what it records of the visits. -/
theorem Call.journal_after (c : Call) :
    (c.after sha256 codec).journal
      = c.before.journal ++ (c.visits sha256 codec).flatMap (Visit.rewards sha256 codec) := by
  have hsenior : (c.senior sha256 codec).before = c.hour.after sha256 codec := rfl
  have hegg : (c.egg sha256 codec).before = (c.senior sha256 codec).after sha256 codec := rfl
  rw [Call.after_eq, (offerRating_same _ _ _).2, Visit.journal_after, hegg, Visit.journal_after,
    hsenior, Visit.journal_after]
  simp only [Call.visits, List.flatMap_cons, List.flatMap_nil, List.append_nil,
    List.append_assoc]
  rfl

theorem visits_cons (c : Call) (rest : List Call) : visits sha256 codec (c :: rest)
    = c.hour :: c.senior sha256 codec :: c.egg sha256 codec :: visits sha256 codec rest := by
  unfold visits
  rw [List.flatMap_cons]
  rfl

/-- Each visit finds the keys that the one before it left. -/
theorem linked_visits {calls : List Call} (hrun : Linked sha256 codec calls) :
    (visits sha256 codec calls).IsChain fun u v =>
      v.before.hourStarSessions = (u.after sha256 codec).hourStarSessions := by
  induction calls with
  | nil => exact .nil
  | cons c rest ih =>
      have hsenior : (c.senior sha256 codec).before = c.hour.after sha256 codec := rfl
      have hegg : (c.egg sha256 codec).before = (c.senior sha256 codec).after sha256 codec := rfl
      rw [visits_cons, List.isChain_cons_cons, List.isChain_cons_cons, hsenior, hegg]
      refine ⟨rfl, rfl, ?_⟩
      cases rest with
      | nil => exact .singleton _
      | cons c' rest =>
          obtain ⟨hlink, hrest⟩ := List.isChain_cons_cons.mp hrun
          have hhour : c'.hour.before = c'.before := rfl
          rw [Call.after_eq, (offerRating_same _ _ _).1] at hlink
          have hih := ih hrest
          rw [visits_cons] at hih ⊢
          rw [List.isChain_cons_cons, hhour]
          exact ⟨hlink, hih⟩

/-- The set has room for the keys of the next award. -/
def Roomy (vs : List Visit) : Prop := ∀ v ∈ vs, v.before.hourStarSessions.card + 2 ≤ 6000

theorem Award.length_claims (a : Award) (t : Talk) : (a.claims t).length ≤ 2 := by
  cases a
  · exact le_rfl
  · exact Nat.le_succ 1
  · exact le_rfl

theorem keys_of_room (hroom : v.before.hourStarSessions.card + 2 ≤ 6000) :
    (v.before.claim v.env.keyOrder (v.award.claims t)).hourStarSessions
      = v.before.hourStarSessions ∪ (v.award.claims t).toFinset :=
  claim_keys ((Nat.add_le_add_left (v.award.length_claims t) _).trans hroom)

theorem grows_of_room (hroom : v.before.hourStarSessions.card + 2 ≤ 6000) :
    v.before.hourStarSessions ⊆ (v.after sha256 codec).hourStarSessions := by
  obtain hq | ⟨t, evs, h⟩ := v.cases
  · exact hq.keys.ge
  · rw [h.keys, keys_of_room hroom]
    exact Finset.subset_union_left

/-- What a visit leaves on file, every later one finds. -/
theorem kept_of_roomy (hlink : vs.IsChain fun u v =>
      v.before.hourStarSessions = (u.after sha256 codec).hourStarSessions) (hroom : Roomy vs) :
    vs.Pairwise fun u v =>
      (u.after sha256 codec).hourStarSessions ⊆ v.before.hourStarSessions := by
  induction vs with
  | nil => exact .nil
  | cons u rest ih =>
      have hrest := ih hlink.tail fun v hv => hroom v (List.mem_cons_of_mem _ hv)
      refine .cons (fun v hv => ?_) hrest
      cases rest with
      | nil => cases hv
      | cons w rest =>
          have hw := (List.isChain_cons_cons.mp hlink).1
          rcases List.mem_cons.mp hv with rfl | hv
          · exact hw.ge
          · have hgrow : w.before.hourStarSessions ⊆ (w.after sha256 codec).hourStarSessions :=
              grows_of_room (hroom w (by simp))
            exact (hw.ge.trans hgrow).trans ((List.pairwise_cons.mp hrest).1 v hv)

-- ============================================================== enough for once

/-- By the time and the names an award of the match is due to a user, whom the
day's budget leaves a star. -/
structure Visit.Owes (m : Match) (v : Visit) (t : Talk) (user : UserId) : Prop where
  talks : v.talk = some t
  same : m.has t
  due : user ∈ v.award.due v.before v.env t
  budget : 0 < v.before.mintBudgetRemaining v.env.toEnv user

/-- What one visit put on file holds another back: both work out one second as
the beginning, the later award checks what the earlier one claims, and the
claimed keys are still in the set. -/
structure Visit.Holds (u v : Visit) (t t' : Talk) : Prop where
  second : t.startedUnix = t'.startedUnix
  nests : v.award = u.award ∨ v.award = .seniorTalk
  kept : ∀ k ∈ u.award.claims t, k ∈ v.before.hourStarSessions

/-- Of two visits that owe one user the first, when it found nothing on file,
holds the second back. -/
def Covered (m : Match) (vs : List Visit) : Prop :=
  vs.Pairwise fun u v => ∀ t t' user, u.Owes m t user → ¬ u.OnFile t → v.Owes m t' user →
    u.Holds v t t'

/-- All visits for the match work out one second as its beginning. -/
def OneSecond (m : Match) (vs : List Visit) : Prop :=
  ∃ second, ∀ v ∈ vs, ∀ t, v.talk = some t → m.has t → t.startedUnix = second

/-- Whom an award was due to when nothing was on file, is due that award again
or the senior talk, and no other. -/
def Nested (m : Match) (vs : List Visit) : Prop :=
  vs.Pairwise fun u v => ∀ t t' user, u.Owes m t user → ¬ u.OnFile t → v.Owes m t' user →
    v.award = u.award ∨ v.award = .seniorTalk

/-- One user's mint leaves another's budget alone. -/
theorem budget_ledgerMint {s : TalkHub} {env : Env} {w : Ledger.Write} {stamp : Ledger.Stamp}
    {giver user other : UserId} {n : Nat} {reason session : String} (hne : other ≠ user) :
    (s.ledgerMint sha256 codec env w stamp giver user n reason session).2.mintBudgetRemaining
      env other = s.mintBudgetRemaining env other := by
  have hrecord : ∀ (k : TalkHub) (n : Nat), (k.recordMintDay env user n).mintBudgetRemaining env
      other = k.mintBudgetRemaining env other := by
    intro k n
    unfold recordMintDay
    split
    · rfl
    · unfold mintBudgetRemaining
      dsimp only
      rw [Table.get?_set, if_neg hne]
  unfold ledgerMint
  dsimp only
  split
  · rfl
  split
  · split
    · rfl
    · exact hrecord _ _
  · rfl

/-- A reward is owed. -/
theorem Visit.Brings.owes (hb : v.Brings sha256 codec t user) (hhas : m.has t) :
    v.Owes m t user := by
  refine ⟨hb.talks, hhas, hb.due, ?_⟩
  have hpasses := hb.passes.1
  unfold Award.meets at hpasses
  split at hpasses
  · next h =>
    obtain ⟨-, rfl⟩ := h
    unfold firstBonus at hpasses
    rw [budget_ledgerMint (talkOf_users hb.talks).2.2] at hpasses
    unfold mintBudgetRemaining at hpasses ⊢
    rwa [(claim_same _ _).2.1] at hpasses
  · exact hpasses

theorem Match.pair_eq {t' : Talk} (h : m.has t) (h' : m.has t') : t.pair = t'.pair := by
  unfold Talk.pair
  obtain ⟨hme, hthem, -⟩ | ⟨hme, hthem, -⟩ := h <;>
    obtain ⟨hme', hthem', -⟩ | ⟨hme', hthem', -⟩ := h' <;>
    rw [hme, hthem, hme', hthem']
  · exact dmConvKey_comm _ _
  · exact dmConvKey_comm _ _

/-- An award checks what it claims, and the senior talk what any award claims. -/
theorem Award.checks_claims {a b : Award} {t' : Talk} (hpair : t.pair = t'.pair)
    (hsec : t.startedUnix = t'.startedUnix) (h : b = a ∨ b = .seniorTalk) :
    ∃ k ∈ b.checks t', k ∈ a.claims t := by
  have hhour : t'.hourKey = t.hourKey := by rw [Talk.hourKey, Talk.hourKey, hpair, hsec]
  have hearly : t'.earlyKey = t.earlyKey := by rw [Talk.earlyKey, Talk.earlyKey, hpair, hsec]
  have hegg : t'.eggKey = t.eggKey := by rw [Talk.eggKey, Talk.eggKey, hpair, hsec]
  rcases h with rfl | rfl
  · cases b
    · exact ⟨_, List.mem_singleton_self _, by simp [claims, hhour]⟩
    · exact ⟨t'.earlyKey, by simp [checks], by simp [claims, hearly]⟩
    · exact ⟨_, List.mem_singleton_self _, by simp [claims, hegg]⟩
  · refine ⟨t'.earlyKey, by simp [checks], ?_⟩
    cases a <;> simp [claims, hearly]

/-- Nothing repeats where the earlier award holds the later one back. -/
theorem noRepeats_of_covered (hcov : Covered m vs) : NoRepeats sha256 codec m vs := by
  rintro pre v post rfl t user hrep
  obtain ⟨u, hu, tu, hhas, hb, hfresh⟩ := timesRewarded_pos_iff.mp hrep.rewarded
  have hholds := (List.pairwise_append.mp hcov).2.2 u hu v List.mem_cons_self tu t user
    (hb.owes hhas) hfresh (hrep.brings.owes hrep.same)
  obtain ⟨k, hk, hclaimed⟩ :=
    Award.checks_claims (Match.pair_eq hhas hrep.same) hholds.second hholds.nests
  exact hrep.fresh ⟨k, hk, hholds.kept k hclaimed⟩

/-- A set with room keeps what is claimed. -/
theorem covered_of_room (hlink : vs.IsChain fun u v =>
      v.before.hourStarSessions = (u.after sha256 codec).hourStarSessions) (hroom : Roomy vs)
    (hsec : OneSecond m vs) (hnest : Nested m vs) : Covered m vs := by
  obtain ⟨second, hsecond⟩ := hsec
  have hkept := kept_of_roomy hlink hroom
  refine (hkept.and hnest).imp_of_mem fun {u v} hu hv h t t' user ho hfresh ho' => ?_
  refine ⟨?_, h.2 t t' user ho hfresh ho', fun k hk => h.1 ?_⟩
  · exact (hsecond u hu t ho.talks ho.same).trans (hsecond v hv t' ho'.talks ho'.same).symm
  · rw [keys_of_due ho.talks ho.due hfresh, keys_of_room (hroom u hu)]
    exact Finset.mem_union_right _ (List.mem_toFinset.mpr hk)

/-- **Run**: a match rewards each user at most once when every award that is
owed again is held back by the keys of the one before. That is so when the set
of keys has room throughout, the visits agree on the second the match began,
and the awards nest. -/
theorem long_chat_rewarded_once {calls : List Call} (hrun : Linked sha256 codec calls)
    (m : Match) :
    (Covered m (visits sha256 codec calls) →
      ∀ user, timesRewarded sha256 codec m user (visits sha256 codec calls) ≤ 1)
    ∧ (Roomy (visits sha256 codec calls) → OneSecond m (visits sha256 codec calls) →
      Nested m (visits sha256 codec calls) → Covered m (visits sha256 codec calls)) :=
  ⟨fun hcov => (noRepeats_of_covered hcov).once, covered_of_room (linked_visits hrun)⟩

end

-- ======================================================= two sides, one second apart

/-- A hub whose books say nothing about the talk. -/
def talkHub (h : SimpleHub) : TalkHub :=
  { ReportHub.blank h with
    journal := [], names := ∅, knownNames := ∅, hourStarSessions := ∅, mintDay := ∅
    starEdges := ∅, pendingRate := ∅, rateOfferCache := ∅, talkOut := [] }

def byText : IterOrder String where
  run s := s.sort (· ≤ ·)
  mem_run _ _ := Finset.mem_sort _
  nodup_run s := s.sort_nodup _

/-- One moment for all that a call reads. -/
def armEnv (now : Instant) (unix : Nat) : ArmEnv :=
  let env : AwardEnv := { ReportHub.plainReportEnv now with
    unix := unix, secondWrite := .ok, secondStamp := ⟨"id", 0⟩, keyOrder := byText }
  ⟨env, env, env, env.toEnv⟩

/-- The second is taken out of a talk that began at 1 ms, after an hour and
0.2 s; 0.2 s later the first leaves. The wall clock shows `unix` then. -/
def sidesEnd (h : SimpleHub) (unix : Nat) : List Call :=
  let env := armEnv 3600201 1700000000
  let first : Call := ⟨talkHub h, env, 2⟩
  let rest := first.after (fun _ => []) Ledger.compactCodec
  [first, ⟨{ rest with hub := rest.hub.unmatchOne env.offer 2 "banned" }, armEnv 3600401 unix, 1⟩]

theorem linked_pair {sha256 : String → List UInt8} {codec : Ledger.LineCodec} (c : Call)
    (h : SimpleHub) (env : ArmEnv) (id : ConnId) :
    Linked sha256 codec [c, ⟨{ c.after sha256 codec with hub := h }, env, id⟩] :=
  .cons_cons rfl (.singleton _)

theorem linked_sidesEnd (h : SimpleHub) (unix : Nat) :
    Linked (fun _ => []) Ledger.compactCodec (sidesEnd h unix) := by
  unfold sidesEnd
  exact linked_pair _ _ _ _

/-- The match of the first two connections. -/
def firstMatch : Match := ⟨"u1", "u2", 1, 1⟩

/-- Visits with room that see one beginning, of which only hours are due. -/
def plainHours (second : Nat) (vs : List Visit) : Bool :=
  vs.all fun v => decide (v.before.hourStarSessions.card + 2 ≤ 6000)
    && v.talk.all fun t => decide (t.startedUnix = second)
      && (decide (v.award = .hourBonus) || (v.award.due v.before v.env t).isEmpty)

theorem nested_of_plainHours {calls : List Call} {second : Nat}
    {sha256 : String → List UInt8} {codec : Ledger.LineCodec}
    (h : plainHours second (visits sha256 codec calls) = true) :
    Roomy (visits sha256 codec calls) ∧ OneSecond firstMatch (visits sha256 codec calls)
      ∧ Nested firstMatch (visits sha256 codec calls) := by
  simp only [plainHours, List.all_eq_true, Bool.and_eq_true, decide_eq_true_eq,
    Option.all_eq_true, Bool.or_eq_true, List.isEmpty_iff] at h
  have hhour : ∀ v ∈ visits sha256 codec calls, ∀ t user, v.Owes firstMatch t user →
      v.award = .hourBonus := by
    intro v hv t user ho
    refine ((h v hv).2 t ho.talks).2.resolve_right fun hdue => ?_
    exact List.not_mem_nil (hdue ▸ ho.due)
  refine ⟨fun v hv => (h v hv).1, ⟨second, fun v hv t ht _ => ((h v hv).2 t ht).1⟩, ?_⟩
  refine List.pairwise_of_forall_mem_list fun u hu v hv t t' user ho _ ho' => .inl ?_
  rw [hhour v hv t' user ho', hhour u hu t user ho]

/-- Within one second of the wall clock, the hour is paid once. -/
theorem long_chat_rewarded_once_hour : ∃ w, (hubMachine plainSys).Reach w
    ∧ Linked (fun _ => []) Ledger.compactCodec (sidesEnd w.hub 1700000000)
    ∧ 0 < timesRewarded (fun _ => []) Ledger.compactCodec firstMatch "u1"
      (visits (fun _ => []) Ledger.compactCodec (sidesEnd w.hub 1700000000))
    ∧ ∀ user, timesRewarded (fun _ => []) Ledger.compactCodec firstMatch user
        (visits (fun _ => []) Ledger.compactCodec (sidesEnd w.hub 1700000000)) ≤ 1 := by
  obtain ⟨w, hw, hp⟩ := @reach_of_replay plainSys 2 ReportHub.pairMatched (fun w =>
    let vs := visits (fun _ => []) Ledger.compactCodec (sidesEnd w.hub 1700000000)
    plainHours 1699996400 vs
      && decide (0 < timesRewarded (fun _ => []) Ledger.compactCodec firstMatch "u1" vs))
    (by decide +kernel)
  rw [Bool.and_eq_true] at hp
  have hrun := linked_sidesEnd w.hub 1700000000
  obtain ⟨hroom, hsec, hnest⟩ := nested_of_plainHours hp.1
  have honce := long_chat_rewarded_once hrun firstMatch
  exact ⟨w, hw, hrun, of_decide_eq_true hp.2, honce.1 (honce.2 hroom hsec hnest)⟩

/-- Across a second the two sides work out two beginnings, and the hour is
paid for each. -/
theorem hour_rewarded_twice : ∃ w, (hubMachine plainSys).Reach w
    ∧ w.hub.partnerOf 1 = some 2
    ∧ Linked (fun _ => []) Ledger.compactCodec (sidesEnd w.hub 1700000001)
    ∧ ¬ ∀ user, timesRewarded (fun _ => []) Ledger.compactCodec firstMatch user
        (visits (fun _ => []) Ledger.compactCodec (sidesEnd w.hub 1700000001)) ≤ 1 := by
  obtain ⟨w, hw, hp⟩ := @reach_of_replay plainSys 2 ReportHub.pairMatched (fun w =>
    decide (w.hub.partnerOf 1 = some 2 ∧ 2 = timesRewarded (fun _ => []) Ledger.compactCodec
      firstMatch "u1" (visits (fun _ => []) Ledger.compactCodec (sidesEnd w.hub 1700000001))))
    (by decide +kernel)
  obtain ⟨hpartner, htwice⟩ := of_decide_eq_true hp
  refine ⟨w, hw, hpartner, linked_sidesEnd _ _, fun h => ?_⟩
  exact absurd (htwice.trans_le (h "u1")) (by decide)

end TalkHub

end Ruletka
