/-
The star counts and the balances.

A call on the ledger moves one account and returns its balance, or leaves
every balance as it was (`Touches`). Keeping the returned balance under the
account it is of keeps the counts in step. A ban does so unless the id of the
banned user has white space at an end: the ledger burns from the trimmed id
and the hub files the balance under the other.
-/
import Ruletka.Ledger.Proofs.Conservation
import Ruletka.Ledger.Proofs.Reload
import Ruletka.Star.Cache
import Ruletka.Star.Proofs.Talk

namespace Ruletka

open Text

namespace Ledger

variable {sha256 : String → List UInt8} {codec : LineCodec}

-- ===================================================================== one account

/-- How a call on an account ends: with its new balance and the others as
they were, or with an error and the same ledger. -/
inductive Touches (who : String) (s : Store) : Outcome (StarEvent × UInt64) → Prop where
  | moved (ev : StarEvent) {s' : Store}
      (hframe : ∀ u, u ≠ who → s'.ledger.balance u = s.ledger.balance u) :
      Touches who s (.ok (ev, s'.ledger.balance who), s')
  | error (e : SpendError) {s' : Store} (hsame : s'.ledger = s.ledger)
      (hbal : ∀ b, e = .alreadyApplied b → b = s.ledger.balance who) :
      Touches who s (.error e, s')

theorem StarLedger.balance_empty (l : StarLedger) : l.balance "" = 0 := rfl

/-- An event moves the account it is of. -/
theorem StarLedger.balance_record_of_ne (l : StarLedger) {ev : StarEvent} {who u : String}
    (hev : (ev.kind = kindMint ∨ ev.kind = kindAdjust) ∧ ev.to = who
      ∨ (ev.kind = kindSpend ∨ ev.kind = kindClawback) ∧ ev.from = who)
    (hwho : who ≠ "") (hu : u ≠ who) : (l.record ev).balance u = l.balance u := by
  by_cases hempty : u = ""
  · rw [hempty, balance_empty, balance_empty]
  rcases hev with ⟨hkind, rfl⟩ | ⟨hkind, rfl⟩
  · rw [balance_record_credit l hkind hwho hempty, if_neg hu]
  · rw [balance_record_debit l hkind hwho hempty, if_neg hu]

theorem Store.tryAppend_touches {s : Store} {w : Write} {kind «from» «to» : String}
    {amount : UInt64} {reason session opId : String} {stamp : Stamp} {who : String}
    (hev : (kind = kindMint ∨ kind = kindAdjust) ∧ «to» = who
      ∨ (kind = kindSpend ∨ kind = kindClawback) ∧ «from» = who)
    (hwho : who ≠ "") :
    Touches who s (withBalance who
      (s.tryAppend sha256 codec w kind «from» «to» amount reason session opId stamp)) := by
  unfold tryAppend
  dsimp only
  split
  · exact .error .io rfl nofun
  · exact .error .io rfl nofun
  · exact .moved _ fun u hu => s.ledger.balance_record_of_ne hev hwho hu

/-- The account a call is on. -/
def Call.account : Call → String
  | .mintFrom _ «to» .. => «to»
  | .adjust «to» .. => «to»
  | .spend «from» .. => «from»
  | .clawback userId .. => trim userId

/-- **Call**: one account and no other. -/
theorem Call.attempt_touches (w : Write) (s : Store) (c : Call) :
    Touches c.account s (c.attempt sha256 codec w s) := by
  cases c with
  | mintFrom «from» «to» amount reason session stamp =>
      simp only [attempt, Store.tryMintFrom]
      split_ifs with hidle
      · exact .moved _ fun u _ => rfl
      · exact Store.tryAppend_touches (.inl ⟨.inl rfl, rfl⟩) (not_or.mp hidle).1
  | adjust «to» amount reason stamp =>
      simp only [attempt, Store.tryAdjust, Store.tryMintFrom]
      split_ifs with hidle hzero
      · exact .moved _ fun u _ => rfl
      · exact absurd (.inr trivial) hzero
      · exact Store.tryAppend_touches (.inl ⟨.inr rfl, rfl⟩) (not_or.mp hidle).1
  | spend «from» «to» amount reason opId session stamp =>
      simp only [attempt, Store.trySpend]
      split_ifs with hempty hop hshort
      · exact .error _ rfl fun b hb => by cases hb
      · refine .error _ rfl fun b hb => ?_
        cases hb
        rfl
      · exact .error _ rfl fun b hb => by cases hb
      · exact Store.tryAppend_touches (.inr ⟨.inl rfl, rfl⟩) (not_or.mp hempty).1
  | clawback userId balanceBurn trustBurn reason opId stamp =>
      simp only [attempt, Store.tryClawback]
      split_ifs with hempty hzero hop hreason
      · exact .error _ rfl fun b hb => by cases hb
      · exact .error _ rfl fun b hb => by cases hb
      · refine .error _ rfl fun b hb => ?_
        cases hb
        rfl
      · exact Store.tryAppend_touches (.inr ⟨.inr rfl, rfl⟩) hempty
      · exact Store.tryAppend_touches (.inr ⟨.inr rfl, rfl⟩) hempty

/-- A clawback goes through to the file or leaves the ledger alone. -/
theorem Store.tryClawback_cases (w : Write) (s : Store) (userId : String)
    {balanceBurn trustBurn : UInt64} (reason opId : String) (stamp : Stamp)
    (hburn : ¬ (balanceBurn = 0 ∧ trustBurn = 0)) :
    ((trim userId = "" ∨ (trim opId ≠ "" ∧ trim opId ∈ s.ledger.spentOps) ∨ w ≠ .ok
        ∨ ¬ s.file.lines.length + 1 < 2 ^ 63)
      ∧ ∃ e s', s.tryClawback sha256 codec w userId balanceBurn trustBurn reason opId stamp
          = (.error e, s') ∧ s'.ledger = s.ledger)
    ∨ (trim userId ≠ "" ∧ ¬ (trim opId ≠ "" ∧ trim opId ∈ s.ledger.spentOps) ∧ w = .ok
        ∧ s.file.lines.length + 1 < 2 ^ 63)
      ∧ ∃ ev s', s.tryClawback sha256 codec w userId balanceBurn trustBurn reason opId stamp
          = (.ok (ev, s'.ledger.balance (trim userId)), s') ∧ s'.ledger = s.ledger.record ev
        ∧ ev.kind = kindClawback ∧ ev.from = trim userId
        ∧ ev.amount = min balanceBurn (s.ledger.balance (trim userId))
        ∧ ev.session = "trust:" ++ toString trustBurn := by
  unfold tryClawback
  dsimp only
  rw [if_neg hburn]
  by_cases hnamed : trim userId = ""
  · rw [if_pos hnamed]
    exact .inl ⟨.inl hnamed, _, _, rfl, rfl⟩
  rw [if_neg hnamed]
  by_cases hop : trim opId ≠ "" ∧ trim opId ∈ s.ledger.spentOps
  · rw [if_pos hop]
    exact .inl ⟨.inr (.inl hop), _, _, rfl, rfl⟩
  rw [if_neg hop]
  unfold tryAppend LedgerFile.append
  cases w with
  | fails left => exact .inl ⟨.inr (.inr (.inl nofun)), _, _, rfl, rfl⟩
  | ok =>
      by_cases hroom : s.file.lines.length + 1 < 2 ^ 63
      · simp only [dif_pos hroom]
        exact .inr ⟨⟨hnamed, hop, trivial, hroom⟩, _, _, rfl, rfl, rfl, rfl, rfl, rfl⟩
      · simp only [dif_neg hroom]
        exact .inl ⟨.inr (.inr (.inr hroom)), _, _, rfl, rfl⟩

-- ======================================================================== the load

/-- No row without a name. -/
def StarLedger.Named (l : StarLedger) : Prop := l.balances.get? "" = none

theorem StarLedger.Named.record {l : StarLedger} (h : l.Named) (ev : StarEvent) :
    (l.record ev).Named := by
  unfold Named at h ⊢
  change (applyEventToBalances l.balances ev).get? "" = none
  unfold applyEventToBalances
  split
  · split
    · exact h
    · next hto =>
      unfold credit
      rw [Table.get?_set, if_neg fun h => hto (.inl h.symm), h]
  · split
    · split
      · next who hwho =>
        have hne : who ≠ "" := by
          unfold StarEvent.payer at hwho
          split at hwho
          · next hfrom =>
            cases hwho
            exact hfrom
          · split at hwho
            · next hto =>
              cases hwho
              exact hto
            · cases hwho
        split
        · exact h
        · unfold burn
          dsimp only
          split
          · rw [Table.get?_del, if_neg hne.symm, h]
          · rw [Table.get?_set, if_neg hne.symm, h]
      · exact h
    · exact h

theorem Store.named_seed {ts : UInt64} {entries : List (String × UInt64)} {s s' : Store}
    {ids : Nat → String} (hs : s.ledger.Named)
    (h : s.seed sha256 codec ts entries ids = .ok s') : s'.ledger.Named := by
  induction entries generalizing s ids with
  | nil =>
      cases h
      exact hs
  | cons e entries ih =>
      obtain ⟨uid, amt⟩ := e
      rw [seed] at h
      unfold appendEvent push at h
      dsimp only at h
      cases hfile : s.file.append (codec.print (s.nextEvent sha256 kindAdjust "" uid amt
          "genesis_snapshot" "" "" ⟨ids 0, ts⟩)) with
      | none =>
          rw [hfile] at h
          cases h
      | some file =>
          rw [hfile] at h
          exact ih (hs.record _) h

theorem named_replayFile {f : LedgerFile} {l : StarLedger} {b : Bool}
    (h : StarLedger.replayFile sha256 codec f = some (l, b)) : l.Named := by
  have hempty : StarLedger.empty.Named := Table.get?_empty ""
  refine scan_invariant (fun s raw s' hs hgo => ?_) hempty h
  unfold StarLedger.replayLine at hgo
  split at hgo
  · cases hgo
  · cases hgo
    exact hs
  · cases hgo
  · split_ifs at hgo
    cases hgo
    exact hs.record _

theorem named_loadOrMigrate {f : LedgerFile} {legacyCounts : Table String UInt64}
    {ids : Nat → String} {ts : UInt64} {s : Store}
    (h : Store.loadOrMigrate sha256 codec f legacyCounts ids ts = .ok s) : s.ledger.Named := by
  unfold Store.loadOrMigrate at h
  split at h
  · cases h
  · next l b hreplay =>
    have hl := named_replayFile hreplay
    split at h
    · exact Store.named_seed hl h
    · cases h
      exact hl

end Ledger

namespace CountedHub

variable {sha256 : String → List UInt8} {codec : Ledger.LineCodec} {isUuid : String → Bool}
variable {s : CountedHub}

-- ======================================================================= the counts

/-- Every star count is the balance. -/
def InSync (s : CountedHub) : Prop := ∀ u, s.count u = s.store.ledger.balance u

theorem count_keepCount (user : UserId) (bal : UInt64) (u : UserId) :
    (s.keepCount user bal).count u = if u = user then bal else s.count u := by
  unfold count keepCount
  dsimp only
  by_cases hu : u = user
  · subst hu
    split
    · next hzero =>
      rw [Table.get?_del, if_pos rfl, if_pos rfl, hzero]
      rfl
    · rw [Table.get?_set, if_pos rfl, if_pos rfl]
      rfl
  · rw [if_neg hu]
    split
    · rw [Table.get?_del, if_neg hu]
    · rw [Table.get?_set, if_neg hu]

/-- The returned balance, kept under its account. -/
theorem InSync.keepCount {t : CountedHub} {who : UserId} (h : s.InSync)
    (hcounts : t.starCounts = s.starCounts)
    (hframe : ∀ u, u ≠ who → t.store.ledger.balance u = s.store.ledger.balance u) :
    (t.keepCount who (t.store.ledger.balance who)).InSync := by
  intro u
  rw [count_keepCount]
  change _ = t.store.ledger.balance u
  split
  · next hu => rw [hu]
  · next hu =>
    rw [hframe u hu, ← h u]
    unfold count
    rw [hcounts]

theorem InSync.of_same {t : CountedHub} (h : s.InSync) (hcounts : t.starCounts = s.starCounts)
    (hledger : t.store.ledger = s.store.ledger) : t.InSync := by
  intro u
  rw [hledger, ← h u]
  unfold count
  rw [hcounts]

-- ======================================================================== the calls

theorem store_recordMintDay (t : TalkHub) (env : Env) (user : UserId) (n : Nat) :
    (t.recordMintDay env user n).store = t.store := by
  unfold TalkHub.recordMintDay
  split
  · rfl
  · rfl

theorem InSync.ledgerMint (h : s.InSync) (env : ReportEnv) («from» user : UserId) (n : UInt64)
    (reason session : String) :
    (s.ledgerMint sha256 codec env «from» user n reason session).2.InSync := by
  unfold CountedHub.ledgerMint
  dsimp only
  split
  · exact h
  have hcall := @Ledger.Call.attempt_touches sha256 codec env.write s.store
    (.mintFrom «from» user (UInt64.ofNat (s.mintable env.toEnv user n.toNat reason)) reason
      session env.stamp)
  simp only [Ledger.Call.attempt, Ledger.Call.account] at hcall
  split
  · next ev bal store hmint =>
    rw [hmint] at hcall
    cases hcall with
    | moved _ hframe =>
        have hkept := h.keepCount (t := { s with store := store, journal := s.journal ++ [ev] })
          rfl hframe
        dsimp only
        split
        · exact hkept
        · exact hkept.of_same rfl (congrArg Ledger.Store.ledger (store_recordMintDay ..))
  · next e store hmint =>
    rw [hmint] at hcall
    cases hcall with
    | error _ hsame _ => exact h.of_same rfl hsame

theorem InSync.ledgerSpend (h : s.InSync) (env : ReportEnv) («from» «to» : UserId)
    (amount : UInt64) (reason opId session : String) :
    (s.ledgerSpend sha256 codec env «from» «to» amount reason opId session).2.InSync := by
  unfold CountedHub.ledgerSpend
  have hcall := @Ledger.Call.attempt_touches sha256 codec env.write s.store
    (.spend «from» «to» amount reason opId session env.stamp)
  simp only [Ledger.Call.attempt, Ledger.Call.account] at hcall
  split
  · next ev bal store hspend =>
    rw [hspend] at hcall
    cases hcall with
    | moved _ hframe =>
        exact h.keepCount (t := { s with store := store, journal := s.journal ++ [ev] }) rfl hframe
  · next bal store hspend =>
    rw [hspend] at hcall
    cases hcall with
    | error _ hsame hbal =>
        -- the refresh puts in what is there
        rw [hbal bal rfl, ← hsame]
        refine h.keepCount (t := { s with store := store }) rfl fun u _ => ?_
        change store.ledger.balance u = _
        rw [hsame]
  · next e store _ hspend =>
    rw [hspend] at hcall
    cases hcall with
    | error _ hsame _ => exact h.of_same rfl hsame

theorem InSync.adminGrantStars (h : s.InSync) (env : ReportEnv) (raw : String) (amount : UInt64)
    (reason ioText : String) :
    (s.adminGrantStars sha256 codec isUuid env raw amount reason ioText).2.InSync := by
  unfold CountedHub.adminGrantStars
  split
  · exact h
  next uid huid =>
  split
  · exact h
  have hcall := @Ledger.Call.attempt_touches sha256 codec env.write s.store
    (.adjust uid amount (grantReason reason) env.stamp)
  simp only [Ledger.Call.attempt, Ledger.Call.account] at hcall
  split
  · next ev bal store hgrant =>
    rw [hgrant] at hcall
    cases hcall with
    | moved _ hframe =>
        dsimp only
        have hkept := h.keepCount (t := { s with
          store := store, journal := if uid = "" then s.journal else s.journal ++ [ev] })
          rfl hframe
        exact hkept.of_same rfl rfl
  · next e store hgrant =>
    rw [hgrant] at hcall
    cases hcall with
    | error _ hsame _ => exact h.of_same rfl hsame

-- ========================================================================== a ban

/-- The burn of a ban gets into the ledger. -/
structure Burns (s : CountedHub) (env : ReportEnv) (user : UserId) (banReason : String) : Prop where
  owns : s.starsFor user ≠ 0 ∨ s.trustFor user ≠ 0
  named : trim user ≠ ""
  «fresh» : ¬ (trim (clawbackOp env.toEnv user banReason) ≠ ""
    ∧ trim (clawbackOp env.toEnv user banReason) ∈ s.store.ledger.spentOps)
  write : env.write = .ok
  room : s.store.file.lines.length + 1 < 2 ^ 63

/-- Every event but the ban of a user whose id the ledger trims, when the burn
gets through and one of the two ids has stars. -/
def Harmless (s : CountedHub) : CountEvent → Prop
  | .clawback env user banReason =>
      trim user = user ∨ (s.starsFor user = 0 ∧ s.starsFor (trim user) = 0)
        ∨ ¬ s.Burns env user banReason
  | _ => True

theorem burnOf_eq_zero_iff {amount pct cap : Nat} (hcap : 0 < cap) :
    ReportHub.burnOf amount pct cap = 0 ↔ amount = 0 := by
  unfold ReportHub.burnOf
  dsimp only
  constructor
  · intro h
    by_contra hne
    split at h
    · omega
    · next hburn =>
      have : amount * pct / 100 ≠ 0 := fun h0 => hburn ⟨Nat.pos_of_ne_zero hne, h0⟩
      omega
  · rintro rfl
    omega

theorem burnOf_lt (amount pct : Nat) {cap : Nat} (hcap : cap ≤ 100) :
    ReportHub.burnOf amount pct cap < 2 ^ 64 := by
  unfold ReportHub.burnOf
  dsimp only
  omega

/-- What a ban does to ledger and counts. -/
inductive Clawed (sha256 : String → List UInt8) (codec : Ledger.LineCodec) (s : CountedHub)
    (env : ReportEnv) (user : UserId) (banReason : String) : CountedHub → Prop where
  | same {t : CountedHub} (hburns : ¬ s.Burns env user banReason)
      (hcounts : t.starCounts = s.starCounts) (hledger : t.store.ledger = s.store.ledger) :
      Clawed sha256 codec s env user banReason t
  | burnt {t : CountedHub} (hburns : s.Burns env user banReason)
      (hcounts : t.starCounts = s.starCounts)
      (hframe : ∀ u, u ≠ trim user → t.store.ledger.balance u = s.store.ledger.balance u)
      (hle : (t.store.ledger.balance (trim user)).toNat ≤ s.starsFor (trim user))
      (hburn : s.starsFor user ≠ 0 → s.starsFor (trim user) ≠ 0 →
        t.store.ledger.balance (trim user) ≠ s.store.ledger.balance (trim user)) :
      Clawed sha256 codec s env user banReason
        (t.keepCount user (t.store.ledger.balance (trim user)))

theorem clawbackOnBan_clawed (env : ReportEnv) (user : UserId) (banReason : String) :
    Clawed sha256 codec s env user banReason (s.clawbackOnBan sha256 codec env user banReason) := by
  unfold clawbackOnBan
  dsimp only
  split
  · next hidle =>
    refine .same (fun hb => ?_) rfl rfl
    rw [burnOf_eq_zero_iff (by decide), burnOf_eq_zero_iff (by decide)] at hidle
    rcases hidle with rfl | hnone | hnone
    · exact hb.named rfl
    · exact hb.owns.elim (fun h => h hnone.1) (fun h => h hnone.2)
    · exact hb.owns.elim (fun h => h hnone.1) (fun h => h hnone.2)
  next hbusy =>
  have huser : user ≠ "" := fun h => hbusy (.inl h)
  have howns : s.starsFor user ≠ 0 ∨ s.trustFor user ≠ 0 := by
    by_contra h
    push Not at h
    exact hbusy (.inr (.inl h))
  have hbal : ReportHub.burnOf (s.starsFor user) 25 100 < 2 ^ 64 := burnOf_lt _ _ le_rfl
  have htrust : ReportHub.burnOf (s.trustFor user) 35 80 < 2 ^ 64 := burnOf_lt _ _ (by decide)
  have hburn : ¬ (UInt64.ofNat (ReportHub.burnOf (s.starsFor user) 25 100) = 0
      ∧ UInt64.ofNat (ReportHub.burnOf (s.trustFor user) 35 80) = 0) := by
    rw [← UInt64.toNat_inj, ← UInt64.toNat_inj, UInt64.toNat_ofNat_of_lt' hbal,
      UInt64.toNat_ofNat_of_lt' htrust]
    exact fun h => hbusy (.inr (.inr h))
  obtain ⟨hno, e, store, hclaw, hledger⟩ | ⟨⟨hnamed, hop, hw, hroom⟩, ev, store, hclaw, hledger,
      hkind, hfrom, hamount, -⟩ :=
    s.store.tryClawback_cases env.write user (clawbackReason banReason)
      (clawbackOp env.toEnv user banReason) env.stamp hburn
  · rw [hclaw]
    refine .same (fun hb => ?_) rfl hledger
    rcases hno with hno | hno | hno | hno
    · exact hb.named hno
    · exact hb.fresh hno
    · exact hno hb.write
    · exact hno hb.room
  · have hburnt : store.ledger.balance (trim user)
        = Ledger.satSub (s.store.ledger.balance (trim user))
          (min (UInt64.ofNat (ReportHub.burnOf (s.starsFor user) 25 100))
            (s.store.ledger.balance (trim user))) := by
      rw [hledger, s.store.ledger.balance_record_debit (.inr hkind) (hfrom ▸ hnamed) hnamed,
        if_pos hfrom.symm, hamount]
    rw [hclaw]
    refine .burnt (t := { s with store := store, journal := s.journal ++ [ev] })
      ⟨howns, hnamed, hop, hw, hroom⟩ rfl (fun u hu => ?_) ?_ (fun hstars htrimmed heq => ?_)
    · change store.ledger.balance u = _
      rw [hledger]
      exact s.store.ledger.balance_record_of_ne (.inr ⟨.inr hkind, hfrom⟩) hnamed hu
    · change (store.ledger.balance (trim user)).toNat ≤ (s.store.ledger.balance (trim user)).toNat
      rw [hburnt, Ledger.toNat_satSub]
      exact Nat.sub_le _ _
    · change store.ledger.balance (trim user) = _ at heq
      have hne : ReportHub.burnOf (s.starsFor user) 25 100 ≠ 0 :=
        fun h0 => hstars ((burnOf_eq_zero_iff (by decide)).mp h0)
      rw [hburnt, ← UInt64.toNat_inj, Ledger.toNat_satSub] at heq
      have hle : (min (UInt64.ofNat (ReportHub.burnOf (s.starsFor user) 25 100))
          (s.store.ledger.balance (trim user))).toNat ≠ 0 := by
        change (if _ ≤ _ then _ else _ : UInt64).toNat ≠ 0
        split
        · rwa [UInt64.toNat_ofNat_of_lt' hbal]
        · exact htrimmed
      have htrimmed' : (s.store.ledger.balance (trim user)).toNat ≠ 0 := htrimmed
      omega

/-- **Ban**: the counts stay in step exactly over a harmless one. -/
theorem InSync.clawbackOnBan_iff (h : s.InSync) (env : ReportEnv) (user : UserId)
    (banReason : String) :
    (s.clawbackOnBan sha256 codec env user banReason).InSync
      ↔ s.Harmless (.clawback env user banReason) := by
  have hclawed := @clawbackOnBan_clawed sha256 codec s env user banReason
  generalize s.clawbackOnBan sha256 codec env user banReason = t at hclawed
  cases hclawed with
  | same hburns hcounts hledger =>
      exact ⟨fun _ => .inr (.inr hburns), fun _ => h.of_same hcounts hledger⟩
  | @burnt t hburns hcounts hframe hle hburn =>
      by_cases htrim : trim user = user
      · refine ⟨fun _ => .inl htrim, fun _ => ?_⟩
        rw [htrim] at hframe ⊢
        exact h.keepCount hcounts hframe
      have hcount : ∀ u, t.count u = s.store.ledger.balance u := fun u => by
        rw [← h u]
        unfold count
        rw [hcounts]
      constructor
      · intro hsync
        have huser := hsync user
        rw [count_keepCount, if_pos rfl] at huser
        change _ = t.store.ledger.balance user at huser
        rw [hframe user (Ne.symm htrim)] at huser
        have htrimmed := hsync (trim user)
        rw [count_keepCount, if_neg htrim, hcount] at htrimmed
        change _ = t.store.ledger.balance (trim user) at htrimmed
        refine .inr (.inl ?_)
        have heq : s.starsFor user = s.starsFor (trim user) := by
          change (s.store.ledger.balance user).toNat = (s.store.ledger.balance (trim user)).toNat
          rw [htrimmed, huser]
        by_cases hzero : s.starsFor user = 0
        · exact ⟨hzero, heq ▸ hzero⟩
        · exact absurd htrimmed.symm (hburn hzero (heq ▸ hzero))
      · rintro (hsame | ⟨huser, htrimmed⟩ | hno)
        · exact absurd hsame htrim
        · have hnone : t.store.ledger.balance (trim user) = 0 :=
            UInt64.toNat_inj.mp (Nat.le_zero.mp (hle.trans_eq htrimmed))
          have huser₀ : s.store.ledger.balance user = 0 := UInt64.toNat_inj.mp huser
          have htrimmed₀ : s.store.ledger.balance (trim user) = 0 := UInt64.toNat_inj.mp htrimmed
          intro u
          rw [count_keepCount]
          change _ = t.store.ledger.balance u
          split
          · next hu => rw [hu, hnone, hframe user (Ne.symm htrim), huser₀]
          · rw [hcount]
            by_cases hu : u = trim user
            · rw [hu, hnone, htrimmed₀]
            · exact (hframe u hu).symm
        · exact absurd hburns hno

-- ============================================================================ runs

/-- **Step**: exactly a harmless event keeps the counts in step. -/
theorem InSync.step_iff (h : s.InSync) (e : CountEvent) :
    (s.step sha256 codec isUuid e).InSync ↔ s.Harmless e := by
  cases e with
  | mint env «from» user n reason session =>
      exact iff_of_true (h.ledgerMint env «from» user n reason session) trivial
  | spend env «from» «to» amount reason opId session =>
      exact iff_of_true (h.ledgerSpend env «from» «to» amount reason opId session) trivial
  | clawback env user banReason => exact h.clawbackOnBan_iff env user banReason
  | grant env raw amount reason ioText =>
      exact iff_of_true (h.adminGrantStars env raw amount reason ioText) trivial
  | other rest => exact iff_of_true (h.of_same rfl rfl) trivial

/-- **Start**: the counts are the balances. -/
theorem inSync_start (h : (countMachine sha256 codec isUuid).start s) : s.InSync := by
  obtain ⟨file, legacyCounts, ids, ts, hstore, hcounts⟩ := h
  have hnamed : s.store.ledger.Named := by
    rw [hstore]
    unfold openLedger
    split
    · next store hload => exact Ledger.named_loadOrMigrate hload
    · exact Table.get?_empty ""
  intro u
  unfold count
  rw [hcounts]
  by_cases hu : u = ""
  · have hrow : s.store.ledger.balances.get? "" = none := hnamed
    rw [hu, hrow]
    rfl
  · rw [Ledger.StarLedger.balance_of_ne_empty _ hu]

theorem inSync_reach (h : ((countMachine sha256 codec isUuid).guard Harmless).Reach s) :
    s.InSync := by
  refine h.invariant ?_ ?_
  · exact fun s hs => @inSync_start sha256 codec isUuid s hs
  · rintro s e s' - hs ⟨hharmless, rfl⟩
    exact (hs.step_iff e).mpr hharmless

/-- In a run of harmless events every star count is the balance, and the first
event that is not harmless ends that. -/
theorem star_counts_match (sha256 : String → List UInt8) (codec : Ledger.LineCodec)
    (isUuid : String → Bool) :
    (∀ s, ((countMachine sha256 codec isUuid).guard Harmless).Reach s →
      ∀ u, s.count u = s.store.ledger.balance u)
    ∧ ∀ s e, ((countMachine sha256 codec isUuid).guard Harmless).Reach s →
      ((∀ u, (s.step sha256 codec isUuid e).count u
          = (s.step sha256 codec isUuid e).store.ledger.balance u)
        ↔ s.Harmless e) :=
  ⟨fun _ h => inSync_reach h, fun _ e h => (inSync_reach h).step_iff e⟩

-- ===================================================== the calls without the counts

/-- A mint is the mint of the hub without counts. -/
theorem ledgerMint_talkHub (env : ReportEnv) («from» user : UserId) (n : UInt64)
    (reason session : String) :
    (s.ledgerMint sha256 codec env «from» user n reason session).2.toTalkHub
      = (s.toTalkHub.ledgerMint sha256 codec env.toEnv env.write env.stamp «from» user n.toNat
          reason session).2 := by
  unfold CountedHub.ledgerMint TalkHub.ledgerMint
  dsimp only
  split
  · rfl
  · generalize s.store.tryMintFrom sha256 codec env.write «from» user _ reason session env.stamp
      = minted
    obtain ⟨e | ⟨ev, bal⟩, store⟩ := minted
    · rfl
    · dsimp only
      split
      · rfl
      · rfl

/-- A ban's burn is that of the hub without counts. -/
theorem clawbackOnBan_reportHub (env : ReportEnv) (user : UserId) (banReason : String) :
    (s.clawbackOnBan sha256 codec env user banReason).toReportHub
      = s.toReportHub.clawbackOnBan sha256 codec env user banReason := by
  unfold CountedHub.clawbackOnBan ReportHub.clawbackOnBan
  dsimp only
  split
  · rfl
  · split
    · next hclaw =>
      exact congrArg (fun o => { s.toReportHub with store := o.2 }) hclaw.symm
    · next hclaw =>
      exact congrArg (fun o => { s.toReportHub with store := o.2 }) hclaw.symm

-- =============================================================== a blank at the end

/-- A hub on an empty ledger file. -/
def freshCounts : CountedHub :=
  { TalkHub.talkHub (.empty plainSys) with store := ⟨.empty, .empty⟩, starCounts := ∅ }

theorem freshCounts_start (isUuid : String → Bool) :
    (countMachine (fun _ => []) Ledger.compactCodec isUuid).start freshCounts := by
  have hblank : ∀ raw ∈ Ledger.LedgerFile.empty.all, Ledger.RawLine.Blank raw := by
    intro raw hraw
    rw [List.mem_singleton.mp hraw]
    exact fun c hc => absurd hc List.not_mem_nil
  have hnone : Ledger.Store.genesisEntries ∅ = [] := by simp [Ledger.Store.genesisEntries]
  have hload : Ledger.Store.loadOrMigrate (fun _ => []) Ledger.compactCodec .empty ∅
      (fun _ => "id") 0 = .ok ⟨.empty, .empty⟩ := by
    unfold Ledger.Store.loadOrMigrate
    rw [Ledger.Store.replayFile_of_blank _ _ hblank, hnone]
    rfl
  refine ⟨.empty, ∅, fun _ => "id", 0, ?_, rfl⟩
  rw [openLedger, hload]
  rfl

def stepPlain : CountedHub → CountEvent → CountedHub :=
  step (fun _ => []) Ledger.compactCodec fun _ => false

/-- What a client sends as its user id. -/
def sentId : String := String.ofList (List.replicate 63 'a') ++ " b"

/-- The user id of that client: the cut at 64 ends it in a blank. -/
def blankEndedId : UserId := takeChars SimpleHub.maxUserIdChars (trim sentId)

/-- Eight stars for a user. -/
def eightStars (user : UserId) : CountEvent :=
  .mint (ReportHub.plainReportEnv 0) "" user 8 "mint:rate_partner" ""

/-- The ban of that client takes the count and leaves the balance. -/
theorem ban_drops_count :
    (∀ h id, SimpleHub.helloUserId h id sentId = blankEndedId)
    ∧ ∃ s, (countMachine (fun _ => []) Ledger.compactCodec fun _ => false).Reach s
      ∧ s.count blankEndedId = 0 ∧ s.store.ledger.balance blankEndedId = 8 := by
  refine ⟨fun h id => if_neg (by decide), ?_⟩
  let ban : CountEvent := .clawback (ReportHub.plainReportEnv 0) blankEndedId "spam"
  refine ⟨stepPlain (stepPlain freshCounts (eightStars blankEndedId)) ban, ?_, ?_, ?_⟩
  · exact .step (.step (.start (freshCounts_start _)) rfl) rfl
  · decide +kernel
  · decide +kernel

/-- Eight stars for a first user. -/
theorem star_counts_match_minted : ∃ s,
    ((countMachine (fun _ => []) Ledger.compactCodec fun _ => false).guard Harmless).Reach s
    ∧ s.count "alice" = 8 ∧ s.store.ledger.balance "alice" = 8 := by
  let s := stepPlain freshCounts (eightStars "alice")
  have hreach : ((countMachine (fun _ => []) Ledger.compactCodec fun _ => false).guard
      Harmless).Reach s :=
    .step (l := eightStars "alice") (.start (freshCounts_start fun _ => false)) ⟨trivial, rfl⟩
  have hcount : s.count "alice" = 8 := by decide +kernel
  have hmatch := (star_counts_match _ _ fun _ => false).1 s hreach "alice"
  exact ⟨s, hreach, hcount, hmatch.symm.trans hcount⟩

end CountedHub

end Ruletka
