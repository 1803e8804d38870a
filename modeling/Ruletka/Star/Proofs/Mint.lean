/-
The daily cap holds over every run.

The row of a user is of the day of the last record and holds at least what
was minted on that day; nothing was minted later. A budget is read on the day
of the row or later, and the event falls on that day or later again. So what
is minted goes on top of the row's own count, or to a day that is empty.
-/
import Ruletka.Star.Mint
import Ruletka.Star.Proofs.Talk
import Ruletka.Star.Proofs.Cache

namespace Ruletka

open TalkHub

variable {sha256 : String → List UInt8} {codec : Ledger.LineCodec}

-- ========================================================================= the rows

/-- Day and stars of a user's row; no row counts as an empty one. -/
def TalkHub.rowOf (s : TalkHub) (user : UserId) : Nat × Nat := (s.mintDay.get? user).getD (0, 0)

theorem mintBudgetRemaining_eq (s : TalkHub) (env : Env) (user : UserId) :
    s.mintBudgetRemaining env user
      = if (s.rowOf user).1 = utcDay env.unix then dailyMintCap - (s.rowOf user).2
        else dailyMintCap := by
  unfold mintBudgetRemaining rowOf
  cases s.mintDay.get? user with
  | some row => rfl
  | none =>
      rw [Option.getD_none, Nat.sub_zero, ite_self]

theorem rowOf_recordMintDay (s : TalkHub) (env : Env) {user : UserId} {amount : Nat}
    (huser : user ≠ "") (hamount : amount ≠ 0) (u : UserId) :
    (s.recordMintDay env user amount).rowOf u = if u = user then
      (utcDay env.unix,
        (if (s.rowOf user).1 = utcDay env.unix then (s.rowOf user).2 else 0) + amount)
      else s.rowOf u := by
  unfold recordMintDay rowOf
  rw [if_neg (by simp [huser, hamount])]
  dsimp only
  rw [Table.get?_set]
  by_cases hu : u = user
  · rw [if_pos hu, if_pos hu]
    cases s.mintDay.get? user with
    | some row => rfl
    | none =>
        show (_, 0 + amount) = (_, (if 0 = utcDay env.unix then 0 else 0) + amount)
        rw [ite_self]
        rfl
  · rw [if_neg hu, if_neg hu]

theorem store_recordMintDay (s : TalkHub) (env : Env) (user : UserId) (n : Nat) :
    (s.recordMintDay env user n).store = s.store := by
  unfold recordMintDay
  split
  · rfl
  · rfl

-- ========================================================================= one call

/-- How a capped mint for a user ends. -/
inductive Minting (s : CountedHub) (check record : Env) (w : Ledger.Write)
    (stamp : Ledger.Stamp) (user : UserId) (n : UInt64) (s' : CountedHub) : Prop where
  /-- nothing is asked for, or nothing is left of the day -/
  | nothing (hleft : min n.toNat (s.mintBudgetRemaining check user) = 0) (hs : s' = s)
  | failed (hw : ¬ (w = .ok ∧ s.store.file.lines.length + 1 < 2 ^ 63))
      (hjournal : s'.journal = s.journal) (hledger : s'.store.ledger = s.store.ledger)
      (hrows : s'.mintDay = s.mintDay)
  | minted (ev : Ledger.StarEvent) (hw : w = .ok ∧ s.store.file.lines.length + 1 < 2 ^ 63)
      (hjournal : s'.journal = s.journal ++ [ev])
      (hledger : s'.store.ledger = s.store.ledger.record ev)
      (hbalance : ∀ u, u ≠ "" → s'.store.ledger.balance u = if u = user then
        Ledger.satAdd (s.store.ledger.balance u) ev.amount else s.store.ledger.balance u)
      (hkind : ev.kind = Ledger.kindMint) (hto : ev.to = user) (hts : ev.ts = stamp.ts)
      (hamount : ev.amount.toNat = min n.toNat (s.mintBudgetRemaining check user))
      (hpos : 0 < ev.amount.toNat)
      (hrows : ∀ u, s'.rowOf u = if u = user then
        (utcDay record.unix,
          (if (s.rowOf user).1 = utcDay record.unix then (s.rowOf user).2 else 0)
            + ev.amount.toNat)
        else s.rowOf u)

/-- **Call**: a capped mint credits what was asked for and is left of the
budget, or leaves ledger and rows as they were. -/
theorem ledgerMintAt_minting (s : CountedHub) (check record : Env) (w : Ledger.Write)
    (stamp : Ledger.Stamp) («from» : UserId) {user : UserId} (n : UInt64) {reason : String}
    (session : String) (huser : user ≠ "") (hcap : bypassesCap reason = false) :
    Minting s check record w stamp user n
      (s.ledgerMintAt sha256 codec check record w stamp «from» user n reason session).2 := by
  unfold CountedHub.ledgerMintAt
  dsimp only
  rw [mintable_eq huser hcap]
  by_cases hzero : min n.toNat (s.mintBudgetRemaining check user) = 0
  · rw [if_pos hzero]
    exact .nothing hzero rfl
  rw [if_neg hzero]
  have htoNat := @toNat_ofNat_capped s.toTalkHub check n.toNat user
  obtain ⟨hw, ev, st, heq, hledger, hkind, hto, hev, hts⟩ | ⟨hw, e, st, heq, hledger⟩ :=
    @tryMintFrom_cases sha256 codec s.store w «from» user _ reason session stamp huser
      (ofNat_capped_ne_zero hzero)
  · rw [heq]
    dsimp only
    rw [hcap]
    refine .minted ev hw ?_ ?_ ?_ hkind hto hts (hev ▸ htoNat) ?_ ?_
    · exact (recordMintDay_same _ _).1
    · show (TalkHub.recordMintDay _ _ _ _).store.ledger = _
      rw [store_recordMintDay]
      exact hledger
    · intro u hu
      subst hto
      show (TalkHub.recordMintDay _ _ _ _).store.ledger.balance u = _
      rw [store_recordMintDay]
      show st.ledger.balance u = _
      rw [hledger]
      exact Ledger.StarLedger.balance_record_credit _ (.inl hkind) huser hu
    · rw [hev, htoNat]
      exact Nat.pos_of_ne_zero hzero
    · intro u
      rw [hev, htoNat]
      exact rowOf_recordMintDay _ _ huser hzero u
  · rw [heq]
    exact .failed hw rfl hledger rfl

/-- Nobody gets nothing. -/
theorem ledgerMintAt_nobody (s : CountedHub) (check record : Env) (w : Ledger.Write)
    (stamp : Ledger.Stamp) («from» : UserId) {user : UserId} {n : UInt64}
    {reason session : String} (huser : user = "") :
    (s.ledgerMintAt sha256 codec check record w stamp «from» user n reason session).2 = s := by
  have hzero : s.mintable check user n.toNat reason = 0 := if_pos huser
  unfold CountedHub.ledgerMintAt
  dsimp only
  rw [if_pos hzero]

/-- A mint that bypasses the cap touches no row. -/
theorem mintDay_ledgerMintAt (s : CountedHub) (check record : Env) (w : Ledger.Write)
    (stamp : Ledger.Stamp) («from» user : UserId) (n : UInt64) {reason : String}
    (session : String) (hbypass : bypassesCap reason = true) :
    (s.ledgerMintAt sha256 codec check record w stamp «from» user n reason session).2.mintDay
      = s.mintDay := by
  unfold CountedHub.ledgerMintAt
  dsimp only
  split
  · rfl
  split
  · rfl
  · rfl

-- ==================================================================== the invariant

/-- The row of a user holds what was minted to it on the day of the row; no
later day has a mint, and no day too many. -/
structure RowHolds (log : List Ledger.StarEvent) (user : UserId) (row : Nat × Nat) (clock : Nat) :
    Prop where
  past : row.1 ≤ utcDay clock
  used : row.2 ≤ dailyMintCap
  today : mintedOn log user row.1 ≤ row.2
  later : ∀ day, row.1 < day → mintedOn log user day = 0
  cap : ∀ day, mintedOn log user day ≤ dailyMintCap

theorem mintedOn_append (log evs : List Ledger.StarEvent) (user : UserId) (day : Nat) :
    mintedOn (log ++ evs) user day = mintedOn log user day + mintedOn evs user day := by
  unfold mintedOn
  rw [List.filter_append, List.map_append, List.sum_append]

theorem mintedOn_singleton (ev : Ledger.StarEvent) (user : UserId) (day : Nat) :
    mintedOn [ev] user day
      = if ev.to = user ∧ utcDay ev.ts.toNat = day then ev.amount.toNat else 0 := by
  unfold mintedOn
  by_cases h : ev.to = user ∧ utcDay ev.ts.toNat = day
  · rw [List.filter_cons_of_pos (by simpa using h), if_pos h]
    exact Nat.add_zero _
  · rw [List.filter_cons_of_neg (by simpa using h), if_neg h]
    rfl

theorem RowHolds.advance {log : List Ledger.StarEvent} {user : UserId} {row : Nat × Nat}
    {clock clock' : Nat} (h : RowHolds log user row clock) (hc : clock ≤ clock') :
    RowHolds log user row clock' :=
  { h with past := h.past.trans (Nat.div_le_div_right hc) }

/-- A mint within the budget keeps the row of its user. -/
theorem RowHolds.mint {log : List Ledger.StarEvent} {ev : Ledger.StarEvent} {row : Nat × Nat}
    {clock check record : Nat} (h : RowHolds log ev.to row clock) (hcheck : clock ≤ check)
    (hstamp : check ≤ ev.ts.toNat) (hrecord : ev.ts.toNat ≤ record)
    (hamount : ev.amount.toNat
      ≤ if row.1 = utcDay check then dailyMintCap - row.2 else dailyMintCap) :
    RowHolds (log ++ [ev]) ev.to
      (utcDay record, (if row.1 = utcDay record then row.2 else 0) + ev.amount.toNat) record := by
  have hcheck' : utcDay clock ≤ utcDay check := Nat.div_le_div_right hcheck
  have hstamp' : utcDay check ≤ utcDay ev.ts.toNat := Nat.div_le_div_right hstamp
  have hrecord' : utcDay ev.ts.toNat ≤ utcDay record := Nat.div_le_div_right hrecord
  have hpast := h.past
  have hused := h.used
  have htotal : ∀ day, mintedOn (log ++ [ev]) ev.to day
      = mintedOn log ev.to day + if utcDay ev.ts.toNat = day then ev.amount.toNat else 0 := by
    intro day
    rw [mintedOn_append, mintedOn_singleton]
    simp only [true_and]
  have hcap : ev.amount.toNat ≤ dailyMintCap := by
    split at hamount
    · exact hamount.trans (Nat.sub_le _ _)
    · exact hamount
  -- the row's day is over, or everything happens on it
  have hsame : row.1 = utcDay ev.ts.toNat → ev.amount.toNat ≤ dailyMintCap - row.2 := by
    intro hday
    rw [if_pos (by omega)] at hamount
    exact hamount
  refine ⟨le_rfl, ?_, ?_, ?_, ?_⟩
  · by_cases hday : row.1 = utcDay record
    · rw [if_pos hday]
      have := hsame (by omega)
      dsimp only
      omega
    · rw [if_neg hday]
      dsimp only
      omega
  · rw [htotal]
    dsimp only
    by_cases hday : row.1 = utcDay record
    · have htoday := h.today
      rw [if_pos hday, ← hday]
      split <;> omega
    · have hnone := h.later (utcDay record) (by omega)
      rw [if_neg hday, hnone]
      split <;> omega
  · intro day hlate
    dsimp only at hlate
    rw [htotal, h.later day (by omega), if_neg (by omega)]
  · intro day
    rw [htotal]
    by_cases hday : utcDay ev.ts.toNat = day
    · rw [if_pos hday]
      by_cases hrow : row.1 = day
      · have htoday := h.today
        have := hsame (hrow.trans hday.symm)
        rw [hrow] at htoday
        omega
      · rw [h.later day (by omega)]
        omega
    · rw [if_neg hday]
      exact h.cap day

/-- A mint to somebody else keeps the row. -/
theorem RowHolds.other {log : List Ledger.StarEvent} {ev : Ledger.StarEvent} {user : UserId}
    {row : Nat × Nat} {clock : Nat} (h : RowHolds log user row clock) (hto : ev.to ≠ user) :
    RowHolds (log ++ [ev]) user row clock := by
  have htotal : ∀ day, mintedOn (log ++ [ev]) user day = mintedOn log user day := by
    intro day
    rw [mintedOn_append, mintedOn_singleton, if_neg fun hev => hto hev.1]
    rfl
  refine ⟨h.past, h.used, (htotal _).trans_le h.today, ?_, fun day => ?_⟩
  · intro day hd
    exact (htotal day).trans (h.later day hd)
  · exact (htotal day).trans_le (h.cap day)

/-- **Invariant**: every row holds what was minted. -/
theorem rows_hold {p : ClockedHub × List Ledger.StarEvent} (h : (mintRun sha256 codec).Reach p) :
    ∀ user, RowHolds p.2 user (p.1.hub.rowOf user) p.1.clock := by
  induction h with
  | start h =>
      obtain ⟨hrows, hlog⟩ := h
      intro user
      rw [hlog]
      unfold rowOf
      rw [show _ = ∅ from hrows, Table.get?_empty]
      exact ⟨Nat.zero_le _, Nat.zero_le _, le_rfl, fun _ _ => rfl, fun _ => Nat.zero_le _⟩
  | @step p p' e _ hs ih =>
      obtain ⟨hstep, hlog⟩ := hs
      intro user
      have hrow : ∀ {s s' : TalkHub}, s'.mintDay = s.mintDay → s'.rowOf user = s.rowOf user := by
        intro s s' heq
        unfold rowOf
        rw [heq]
      cases e with
      | other =>
          rw [hlog, hrow hstep.1]
          exact (ih user).advance hstep.2
      | mint check record w stamp «from» who n reason session =>
          obtain ⟨hcheck, hstamp, hrecord, hs'⟩ := hstep
          have hclock : p'.1.clock = record.unix := by rw [hs']
          have hhub : p'.1.hub = (p.1.hub.ledgerMintAt sha256 codec check record w stamp «from»
              who n reason session).2 := by rw [hs']
          have hlate : p.1.clock ≤ p'.1.clock := by omega
          by_cases hbypass : bypassesCap reason = true
          · have hsame : p'.2 = p.2 := by rw [hlog, noteMint, if_pos hbypass]
            rw [hsame, hrow (hhub ▸ mintDay_ledgerMintAt _ _ _ _ _ _ _ _ _ hbypass)]
            exact (ih user).advance hlate
          have hnote : p'.2 = p.2 ++ p'.1.hub.journal.drop p.1.hub.journal.length := by
            rw [hlog, noteMint, if_neg hbypass]
          by_cases hwho : who = ""
          · have hsame : p'.1.hub = p.1.hub := by rw [hhub, ledgerMintAt_nobody _ _ _ _ _ _ hwho]
            rw [hsame, List.drop_length, List.append_nil] at hnote
            rw [hnote, hsame]
            exact (ih user).advance hlate
          have hmint := @ledgerMintAt_minting sha256 codec p.1.hub check record w stamp «from» who n
            reason session hwho (Bool.eq_false_of_not_eq_true hbypass)
          rw [← hhub] at hmint
          cases hmint with
          | nothing _ hsame =>
              rw [hsame, List.drop_length, List.append_nil] at hnote
              rw [hnote, hrow (congrArg (fun h : CountedHub => h.mintDay) hsame)]
              exact (ih user).advance hlate
          | failed _ hjournal _ hrows =>
              rw [hjournal, List.drop_length, List.append_nil] at hnote
              rw [hnote, hrow hrows]
              exact (ih user).advance hlate
          | minted ev _ hjournal _ _ _ hev hts hamount _ hrows =>
              rw [hjournal, List.drop_left] at hnote
              rw [hnote, hrows]
              by_cases hu : user = who
              · subst hu
                rw [if_pos rfl, hclock]
                have hbudget : ev.amount.toNat ≤ if (p.1.hub.rowOf user).1 = utcDay check.unix
                    then dailyMintCap - (p.1.hub.rowOf user).2 else dailyMintCap := by
                  rw [hamount, ← mintBudgetRemaining_eq]
                  exact min_le_right _ _
                subst hev
                rw [← hts] at hstamp hrecord
                exact (ih ev.to).mint hcheck hstamp hrecord hbudget
              · rw [if_neg hu]
                refine ((ih user).advance hlate).other ?_
                rw [hev]
                exact Ne.symm hu

-- ========================================================================== the cap

/-- **Cap**: no user gets more than the cap on a day of capped mints. Each
such mint credits what was asked for and is left, or fails and leaves the
budget alone. -/
theorem daily_mint_cap {p : ClockedHub × List Ledger.StarEvent}
    (h : (mintRun sha256 codec).Reach p) :
    (∀ user day, mintedOn p.2 user day ≤ dailyMintCap)
      ∧ ∀ check record w stamp «from» user n reason session p',
        (mintRun sha256 codec).step p
          (.mint check record w stamp «from» user n reason session) p' →
        user ≠ "" → bypassesCap reason = false →
        Minting p.1.hub check record w stamp user n p'.1.hub := by
  refine ⟨fun user => (rows_hold h user).cap, ?_⟩
  intro check record w stamp «from» user n reason session p' hs huser hcap
  obtain ⟨⟨-, -, -, hs'⟩, -⟩ := hs
  rw [hs']
  exact ledgerMintAt_minting _ _ _ _ _ _ _ _ huser hcap

/-- A mint of thirty stars to a user, on the first day. -/
def thirtyStars : MintEvent :=
  .mint (plainEnv 0) (plainEnv 0) .ok ⟨"id", 0⟩ "" "alice" 30 "rate" ""

/-- What the mint makes of a hub and the events so far. -/
def withThirty (p : ClockedHub × List Ledger.StarEvent) : ClockedHub × List Ledger.StarEvent :=
  let s : ClockedHub := ⟨(p.1.hub.ledgerMintAt (fun _ => []) Ledger.compactCodec (plainEnv 0)
    (plainEnv 0) .ok ⟨"id", 0⟩ "" "alice" 30 "rate" "").2, 0⟩
  (s, noteMint p.2 p.1 thirtyStars s)

/-- Thirty stars twice are forty. -/
theorem daily_mint_cap_alice : ∃ p p',
    (mintRun (fun _ => []) Ledger.compactCodec).Reach p
    ∧ (mintRun (fun _ => []) Ledger.compactCodec).step p thirtyStars p'
    ∧ mintedOn p.2 "alice" 0 = 30 ∧ mintedOn p'.2 "alice" 0 = 40
    ∧ mintedOn p'.2 "alice" 0 ≤ dailyMintCap
    ∧ Minting p.1.hub (plainEnv 0) (plainEnv 0) .ok ⟨"id", 0⟩ "alice" 30 p'.1.hub := by
  let fresh : ClockedHub × List Ledger.StarEvent := (⟨CountedHub.freshCounts, 0⟩, [])
  let first := withThirty fresh
  have hfresh : (mintRun (fun _ => []) Ledger.compactCodec).start fresh := ⟨rfl, rfl⟩
  have hreach : (mintRun (fun _ => []) Ledger.compactCodec).Reach first :=
    .step (l := thirtyStars) (.start hfresh) ⟨⟨le_rfl, le_rfl, le_rfl, rfl⟩, rfl⟩
  have hstep : (mintRun (fun _ => []) Ledger.compactCodec).step first thirtyStars
      (withThirty first) := ⟨⟨le_rfl, le_rfl, le_rfl, rfl⟩, rfl⟩
  refine ⟨first, withThirty first, hreach, hstep, ?_, ?_, ?_, ?_⟩
  · decide +kernel
  · decide +kernel
  · exact (daily_mint_cap (hreach.step hstep)).1 "alice" 0
  · exact (daily_mint_cap hreach).2 _ _ _ _ _ _ _ _ _ _ hstep (by decide) (by decide)

end Ruletka
