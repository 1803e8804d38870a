/-
When the burn of a ban lands.

# The way of a burn

The ledger takes the burn of a ban as one event. What is taken of the balance
is its amount; what is taken of the trust is written out behind `trust:` in
its session and read back when the event is taken in. The event goes under
an operation id made of the user, the second and the first characters of the
reason, in the one set of ids that spends fill too.

# What stops it

An id that is in the set already; and a user id with white space at an end,
for then the ledger burns what the trimmed id owns.
-/
import Ruletka.Ledger.Proofs.Commit
import Ruletka.Star.Proofs.Cache

namespace Ruletka

open Text

namespace Text

/-- A text without white space has no margin. -/
theorem trim_of_solid {s : String} (hs : ∀ c ∈ s.toList, isWhite c = false) : trim s = s := by
  have hstay : ∀ l : List Char, (∀ c ∈ l, isWhite c = false) → l.dropWhile isWhite = l := by
    intro l hl
    rw [List.dropWhile_eq_self_iff]
    intro hpos
    rw [hl _ (List.getElem_mem hpos)]
    exact Bool.false_ne_true
  rw [trim, hstay _ hs, hstay _ fun c hc => hs c (List.mem_reverse.mp hc), List.reverse_reverse,
    String.ofList_toList]

end Text

namespace Ledger

-- ============================================================ the trust of an event

theorem mem_number {n : UInt64} {c : Char} (hc : c ∈ (toString n).toList) : c.isDigit = true :=
  Nat.isDigit_of_mem_toDigits (by decide) (by decide) (toList_number n ▸ hc)

theorem solid_of_digit {c : Char} (hc : c.isDigit = true) :
    isWhite c = false ∧ c ≠ '|' ∧ c ≠ ',' ∧ c ≠ '+' := by
  have hval : 48 ≤ c.toNat ∧ c.toNat ≤ 57 := Char.isDigit_iff_toNat.mp hc
  refine ⟨?_, ?_, ?_, ?_⟩
  · simp only [isWhite, Bool.or_eq_false_iff, Bool.and_eq_false_iff, decide_eq_false_iff_not,
      beq_eq_false_iff_ne]
    omega
  all_goals
    rintro rfl
    exact absurd hval (by decide)

/-- Digits are read as they stand. -/
theorem parseU64_digits {s : String} (hne : s.toList ≠ [])
    (hall : ∀ c ∈ s.toList, c.isDigit = true) {n : Nat}
    (hval : s.toList.foldl (fun n c => n * 10 + (c.toNat - '0'.toNat)) 0 = n) :
    parseU64 s = if n ≤ u64Max then some (UInt64.ofNat n) else none := by
  obtain ⟨c, cs, hlist⟩ := List.exists_cons_of_ne_nil hne
  rw [hlist] at hall hval
  have hplus : c ≠ '+' := (solid_of_digit (hall c List.mem_cons_self)).2.2.2
  have hdigits : (c :: cs).all Char.isDigit = true := List.all_eq_true.mpr hall
  unfold parseU64
  rw [hlist]
  dsimp only
  split
  · next heq =>
    cases heq
    exact absurd rfl hplus
  · rw [if_neg (by simp [hdigits]), hval]

/-- A number is read back. -/
theorem parseU64_number (n : UInt64) : parseU64 (toString n) = some n := by
  have hne : (toString n).toList ≠ [] := by
    rw [toList_number]
    exact Nat.toDigits_ne_nil
  have hval : (toString n).toList.foldl (fun n c => n * 10 + (c.toNat - '0'.toNat)) 0
      = n.toNat := by
    rw [toList_number]
    simpa only [Nat.ofDigitChars_eq_foldl, Nat.mul_comm 10] using
      Nat.ofDigitChars_ten_toDigits (n := n.toNat)
  have hlt := n.toNat_lt
  rw [parseU64_digits hne (fun c hc => mem_number hc) hval,
    if_pos (by unfold u64Max; omega), UInt64.ofNat_toNat]

/-- The trust written into a session is read out of it. -/
theorem parseTrustBurnSession_trust (n : UInt64) :
    parseTrustBurnSession ("trust:" ++ toString n) = n := by
  have hlist : ("trust:" ++ toString n).toList = "trust:".toList ++ (toString n).toList :=
    String.toList_append
  have hchar : ∀ c ∈ ("trust:" ++ toString n).toList,
      isWhite c = false ∧ c ≠ '|' ∧ c ≠ ',' := by
    intro c hc
    rw [hlist, List.mem_append] at hc
    rcases hc with hc | hc
    · have hall : "trust:".toList.all (fun c =>
          decide (isWhite c = false ∧ c ≠ '|' ∧ c ≠ ',')) = true := by decide
      exact of_decide_eq_true (List.all_eq_true.mp hall c hc)
    · obtain ⟨hw, hbar, hcomma, -⟩ := solid_of_digit (mem_number hc)
      exact ⟨hw, hbar, hcomma⟩
  have hsplit : splitSession ("trust:" ++ toString n) = ["trust:" ++ toString n] := by
    rw [splitSession, List.splitOnP_eq_singleton, List.map_singleton, String.ofList_toList]
    intro c hc
    obtain ⟨hw, hbar, hcomma⟩ := hchar c hc
    have hspace : c ≠ ' ' := by
      rintro rfl
      exact absurd hw (by decide)
    simp [hbar, hcomma, hspace]
  have hpre : hasPrefix ("trust:" ++ toString n) "trust:" = true := by
    rw [hasPrefix, List.isPrefixOf_iff_prefix, hlist]
    exact List.prefix_append _ _
  have hrest : String.ofList (("trust:" ++ toString n).toList.drop 6) = toString n := by
    rw [hlist, List.drop_left' (by decide), String.ofList_toList]
  have hnumber : trim (toString n) = toString n :=
    trim_of_solid fun c hc => (solid_of_digit (mem_number hc)).1
  rw [parseTrustBurnSession, hsplit]
  simp only [List.findSome?_cons, trim_of_solid fun c hc => (hchar c hc).1, hpre, if_true, hrest,
    hnumber, parseU64_number, Option.getD_some]

/-- A clawback takes from one user's trust. -/
theorem trust_record_clawback (l : StarLedger) {ev : StarEvent} (hkind : ev.kind = kindClawback)
    (hfrom : ev.from ≠ "") (u : String) :
    ((l.record ev).trust.scores.get? u).getD 0
      = if u = ev.from then
          satSub ((l.trust.scores.get? u).getD 0) (parseTrustBurnSession ev.session)
        else (l.trust.scores.get? u).getD 0 := by
  have htouch : ∀ (t : Trust) who ts, (t.touch who ts).scores = t.scores := by
    intro t who ts
    unfold Trust.touch
    split_ifs <;> rfl
  have hpayer : ev.payer = some ev.from := if_pos hfrom
  change ((applyEventToTrust l.trust ev).scores.get? u).getD 0 = _
  rw [applyEventToTrust, if_pos hkind, hpayer]
  dsimp only
  rw [htouch]
  by_cases hlost : 0 < parseTrustBurnSession ev.session
  · rw [if_pos hlost]
    exact getD_burn _ _ _ _
  · have hzero : parseTrustBurnSession ev.session = 0 :=
      UInt64.toNat_inj.mp (Nat.eq_zero_of_not_pos hlost)
    have hsub : ∀ a : UInt64, satSub a 0 = a := by
      intro a
      apply UInt64.toNat_inj.mp
      rw [toNat_satSub, UInt64.toNat_zero, Nat.sub_zero]
    rw [if_neg hlost, hzero, hsub, ite_self]

end Ledger

namespace CountedHub

open Ledger (LineCodec)

variable {sha256 : String → List UInt8} {codec : LineCodec} {s t : CountedHub}

-- ================================================================== what is taken

/-- What a ban should leave of the user's stars and trust. -/
structure Lands (s t : CountedHub) (user : UserId) : Prop where
  balance : 0 < s.starsFor user →
    t.starsFor user = s.starsFor user - min 100 (max 1 (s.starsFor user * 25 / 100))
  trust : 0 < s.trustFor user →
    t.trustFor user = s.trustFor user - min 80 (max 1 (s.trustFor user * 35 / 100))

/-- The burn of something is a share of it, at least one. -/
theorem burnOf_of_pos {amount pct : Nat} (hpos : 0 < amount) (hpct : pct ≤ 100) (cap : Nat) :
    ReportHub.burnOf amount pct cap = min cap (max 1 (amount * pct / 100)) := by
  have hshare : amount * pct / 100 ≤ amount := by
    calc amount * pct / 100 ≤ amount * 100 / 100 :=
          Nat.div_le_div_right (Nat.mul_le_mul_left _ hpct)
      _ = amount := Nat.mul_div_cancel _ (by decide)
  unfold ReportHub.burnOf
  dsimp only
  split_ifs <;> omega

/-- Nothing lands that leaves both as they were. -/
theorem not_lands_of_same {user : UserId} (howns : s.starsFor user ≠ 0 ∨ s.trustFor user ≠ 0)
    (hstars : t.starsFor user = s.starsFor user) (htrust : t.trustFor user = s.trustFor user) :
    ¬ Lands s t user := by
  intro h
  rcases howns with hne | hne
  · have := h.balance (Nat.pos_of_ne_zero hne)
    omega
  · have := h.trust (Nat.pos_of_ne_zero hne)
    omega

theorem trustFor_of_ne_empty {user : UserId} (huser : user ≠ "") :
    s.trustFor user = ((s.store.ledger.trust.scores.get? user).getD 0).toNat := if_neg huser

theorem starsFor_of_ledger {user : UserId} (h : t.store.ledger = s.store.ledger) :
    t.starsFor user = s.starsFor user := by
  rw [ReportHub.starsFor, h]
  rfl

theorem trustFor_of_ledger {user : UserId} (h : t.store.ledger = s.store.ledger) :
    t.trustFor user = s.trustFor user := by
  rw [ReportHub.trustFor, h]
  rfl

-- ==================================================================== the main result

/-- The operation id of the ban is in nobody's use, and the user id has no margin. -/
structure Clear (s : CountedHub) (env : Env) (user : UserId) (banReason : String) : Prop where
  own : trim user = user
  «fresh» : trim (clawbackOp env user banReason) ∉ s.store.ledger.spentOps

theorem trim_clawbackOp_ne (env : Env) (user : UserId) (banReason : String) :
    trim (clawbackOp env user banReason) ≠ "" := by
  rw [Ne, trim_eq_empty_iff]
  intro hall
  exact absurd (hall 'c' (by simp [clawbackOp])) (by decide)

/-- A ban takes what it should exactly when nothing holds its operation id and the
ledger does not trim the user id. -/
theorem clawback_lands_iff (sha256 : String → List UInt8) (codec : LineCodec) (s : CountedHub)
    (env : ReportEnv) (user : UserId) (banReason : String)
    (howns : s.starsFor user ≠ 0 ∨ s.trustFor user ≠ 0) (hwrite : env.write = .ok)
    (hroom : s.store.file.lines.length + 1 < 2 ^ 63) :
    Lands s (s.clawbackOnBan sha256 codec env user banReason) user
      ↔ s.Clear env.toEnv user banReason := by
  have huser : user ≠ "" := by
    rintro rfl
    exact howns.elim (fun h => h rfl) fun h => h rfl
  have hbal : ReportHub.burnOf (s.starsFor user) 25 100 < 2 ^ 64 := burnOf_lt _ _ le_rfl
  have htrust : ReportHub.burnOf (s.trustFor user) 35 80 < 2 ^ 64 := burnOf_lt _ _ (by decide)
  have hbusy : ¬ (user = "" ∨ (s.starsFor user = 0 ∧ s.trustFor user = 0)
      ∨ (ReportHub.burnOf (s.starsFor user) 25 100 = 0
        ∧ ReportHub.burnOf (s.trustFor user) 35 80 = 0)) := by
    rw [burnOf_eq_zero_iff (by decide), burnOf_eq_zero_iff (by decide)]
    rintro (h | ⟨h₁, h₂⟩ | ⟨h₁, h₂⟩)
    · exact huser h
    · exact howns.elim (fun h => h h₁) fun h => h h₂
    · exact howns.elim (fun h => h h₁) fun h => h h₂
  have hburn : ¬ (UInt64.ofNat (ReportHub.burnOf (s.starsFor user) 25 100) = 0
      ∧ UInt64.ofNat (ReportHub.burnOf (s.trustFor user) 35 80) = 0) := by
    rw [← UInt64.toNat_inj, ← UInt64.toNat_inj, UInt64.toNat_ofNat_of_lt' hbal,
      UInt64.toNat_ofNat_of_lt' htrust]
    exact fun h => hbusy (.inr (.inr h))
  rw [clawbackOnBan, if_neg hbusy]
  obtain ⟨hno, e, store, hclaw, hledger⟩ | ⟨⟨hnamed, hop, -, -⟩, ev, store, hclaw, hledger,
      hkind, hfrom, hamount, hsession⟩ :=
    @Ledger.Store.tryClawback_cases sha256 codec env.write s.store user _ _
      (clawbackReason banReason) (clawbackOp env.toEnv user banReason) env.stamp hburn
  · rw [hclaw]
    dsimp only
    refine iff_of_false (not_lands_of_same howns (starsFor_of_ledger hledger)
      (trustFor_of_ledger hledger)) fun hclear => ?_
    rcases hno with hno | hno | hno | hno
    · exact huser (hclear.own ▸ hno)
    · exact hclear.fresh hno.2
    · exact hno hwrite
    · exact hno hroom
  · rw [hclaw]
    dsimp only
    have hlands : ∀ bal, Lands s (({ s with store := store, journal := s.journal ++ [ev] }
        : CountedHub).keepCount user bal) user ↔ trim user = user := by
      intro bal
      have hstars' : (({ s with store := store, journal := s.journal ++ [ev] }
          : CountedHub).keepCount user bal).starsFor user
            = ((s.store.ledger.record ev).balance user).toNat := by
        rw [← hledger]
        rfl
      have htrust' : (({ s with store := store, journal := s.journal ++ [ev] }
          : CountedHub).keepCount user bal).trustFor user
            = (((s.store.ledger.record ev).trust.scores.get? user).getD 0).toNat := by
        rw [trustFor_of_ne_empty huser, ← hledger]
        rfl
      have hfrom' : ev.from ≠ "" := hfrom ▸ hnamed
      rw [s.store.ledger.balance_record_debit (.inr hkind) hfrom' huser, hfrom] at hstars'
      rw [Ledger.trust_record_clawback _ hkind hfrom', hfrom, hsession,
        Ledger.parseTrustBurnSession_trust] at htrust'
      by_cases hown : trim user = user
      · refine iff_of_true ⟨fun hpos => ?_, fun hpos => ?_⟩ hown
        · have hle : UInt64.ofNat (ReportHub.burnOf (s.starsFor user) 25 100)
              ≤ s.store.ledger.balance user := by
            rw [UInt64.le_iff_toNat_le, UInt64.toNat_ofNat_of_lt' hbal]
            exact Nat.min_le_right _ _
          have htaken : ev.amount = UInt64.ofNat (ReportHub.burnOf (s.starsFor user) 25 100) := by
            rw [hamount, hown]
            exact if_pos hle
          rw [hstars', if_pos hown.symm, htaken, Ledger.toNat_satSub,
            UInt64.toNat_ofNat_of_lt' hbal, burnOf_of_pos hpos (by decide)]
          rfl
        · rw [htrust', if_pos hown.symm, Ledger.toNat_satSub, UInt64.toNat_ofNat_of_lt' htrust,
            burnOf_of_pos hpos (by decide), trustFor_of_ne_empty huser]
      · refine iff_of_false (not_lands_of_same howns ?_ ?_) hown
        · rw [hstars', if_neg (Ne.symm hown)]
          rfl
        · rw [htrust', if_neg (Ne.symm hown), trustFor_of_ne_empty huser]
    rw [hlands]
    exact ⟨fun hown => ⟨hown, fun hmem => hop ⟨trim_clawbackOp_ne _ _ _, hmem⟩⟩, fun h => h.own⟩

/-- Eight stars and no operation yet. -/
theorem clawback_lands_iff_first :
    Lands (stepPlain freshCounts (eightStars "bob"))
      ((stepPlain freshCounts (eightStars "bob")).clawbackOnBan (fun _ => [])
        Ledger.compactCodec (ReportHub.plainReportEnv 0) "bob" "spam") "bob" :=
  (clawback_lands_iff _ _ _ _ _ _ (by decide +kernel) rfl (by decide +kernel)).mpr
    ⟨by decide, by decide +kernel⟩

/-- A purchase under the operation id of a ban to come. -/
def squat : CountEvent :=
  .spend (ReportHub.plainReportEnv 0) "alice" "bob" 1 "flowers" "claw|bob|0|clawback:ban:spam" ""

/-- The ban of that user in that second takes nothing. -/
theorem squatted_ban_takes_nothing : ∃ s,
    (countMachine (fun _ => []) Ledger.compactCodec fun _ => false).Reach s
      ∧ s.starsFor "bob" = 8 ∧ s.trustFor "bob" = 8
      ∧ (s.clawbackOnBan (fun _ => []) Ledger.compactCodec (ReportHub.plainReportEnv 0) "bob"
          "spam").starsFor "bob" = 8
      ∧ (s.clawbackOnBan (fun _ => []) Ledger.compactCodec (ReportHub.plainReportEnv 0) "bob"
          "spam").trustFor "bob" = 8 := by
  refine ⟨stepPlain (stepPlain (stepPlain freshCounts (eightStars "bob")) (eightStars "alice"))
    squat, ?_, ?_, ?_, ?_, ?_⟩
  · exact .step (.step (.step (.start (freshCounts_start _)) rfl) rfl) rfl
  all_goals decide +kernel

end CountedHub

end Ruletka
