/-
Conservation: a balance is what was minted less what was spent.

Balances are folded with saturating arithmetic and drop their zero rows, so
nothing about one event keeps the books. The calls do: a spend is refused
beyond the balance and a clawback is cut to it, so every debit they record is
covered (`Covered`), and a covered debit is an exact subtraction. A credit is
exact as long as the credits of the account fit a `u64`; that bound is on the
journal alone.

A call that returns an error leaves the ledger in memory as it was, at
whichever step of the write it failed.
-/
import Ruletka.Ledger.Attempt
import Ruletka.Ledger.Line
import Ruletka.Lib.Machine
import Ruletka.Lib.Sha256

namespace Ruletka.Ledger

variable {sha256 : String → List UInt8} {codec : LineCodec}

-- ======================================================================= the books

/-- What an event pays a user. -/
def StarEvent.creditTo (u : String) (ev : StarEvent) : Nat :=
  if (ev.kind = kindMint ∨ ev.kind = kindAdjust) ∧ ev.to = u then ev.amount.toNat else 0

/-- What an event takes from a user. -/
def StarEvent.debitFrom (u : String) (ev : StarEvent) : Nat :=
  if (ev.kind = kindSpend ∨ ev.kind = kindClawback) ∧ ev.from = u then ev.amount.toNat else 0

/-- The mints and adjusts of a journal to a user. -/
def credited (u : String) (journal : List StarEvent) : Nat :=
  (journal.map (StarEvent.creditTo u)).sum

/-- The spends and clawbacks of a journal from a user. -/
def debited (u : String) (journal : List StarEvent) : Nat :=
  (journal.map (StarEvent.debitFrom u)).sum

/-- An event as the calls write it: a credit goes to somebody, a debit is
somebody's and no more than there is. -/
inductive Covered (l : StarLedger) (ev : StarEvent) : Prop where
  | credit (hkind : ev.kind = kindMint ∨ ev.kind = kindAdjust) (hto : ev.to ≠ "")
  | debit (hkind : ev.kind = kindSpend ∨ ev.kind = kindClawback) (hfrom : ev.from ≠ "")
      (hamount : ev.amount.toNat ≤ (l.balance ev.from).toNat)

-- ======================================================================= one event

theorem toNat_satSub (a b : UInt64) : (satSub a b).toNat = a.toNat - b.toNat := by
  rw [satSub, UInt64.toNat_ofNat']
  exact Nat.mod_eq_of_lt (by have := a.toNat_lt; omega)

theorem getD_burn (accounts : Table String UInt64) (who : String) (amount : UInt64)
    (u : String) :
    ((burn accounts who amount).get? u).getD 0
      = if u = who then satSub ((accounts.get? u).getD 0) amount
        else (accounts.get? u).getD 0 := by
  unfold burn
  dsimp only
  by_cases hu : u = who
  · subst hu
    split
    · next hzero => simp [hzero]
    · simp
  · split <;> simp [hu]

theorem getD_credit (accounts : Table String UInt64) (who : String) (amount : UInt64)
    (u : String) :
    ((credit accounts who amount).get? u).getD 0
      = if u = who then satAdd ((accounts.get? u).getD 0) amount
        else (accounts.get? u).getD 0 := by
  unfold credit
  by_cases hu : u = who
  · subst hu
    simp
  · simp [hu]

namespace StarLedger

theorem balance_of_ne_empty (l : StarLedger) {u : String} (hu : u ≠ "") :
    l.balance u = (l.balances.get? u).getD 0 := if_neg hu

/-- A credit on one account. -/
theorem balance_record_credit (l : StarLedger) {ev : StarEvent}
    (hkind : ev.kind = kindMint ∨ ev.kind = kindAdjust) (hto : ev.to ≠ "") {u : String}
    (hu : u ≠ "") :
    (l.record ev).balance u
      = if u = ev.to then satAdd (l.balance u) ev.amount else l.balance u := by
  rw [balance_of_ne_empty _ hu, balance_of_ne_empty _ hu]
  show ((applyEventToBalances l.balances ev).get? u).getD 0 = _
  rw [applyEventToBalances, if_pos hkind]
  by_cases hzero : ev.amount = 0
  · have hsat : satAdd ((l.balances.get? u).getD 0) 0 = (l.balances.get? u).getD 0 := by
      apply UInt64.toNat_inj.mp
      have hlt := ((l.balances.get? u).getD 0).toNat_lt
      rw [toNat_satAdd, u64Max, UInt64.toNat_zero]
      omega
    rw [if_pos (.inr hzero), hzero, hsat, ite_self]
  · rw [if_neg (not_or.mpr ⟨hto, hzero⟩), getD_credit]

/-- A debit on one account. -/
theorem balance_record_debit (l : StarLedger) {ev : StarEvent}
    (hkind : ev.kind = kindSpend ∨ ev.kind = kindClawback) (hfrom : ev.from ≠ "")
    {u : String} (hu : u ≠ "") :
    (l.record ev).balance u
      = if u = ev.from then satSub (l.balance u) ev.amount else l.balance u := by
  have hnot : ¬ (ev.kind = kindMint ∨ ev.kind = kindAdjust) := by
    rcases hkind with h | h <;> rw [h] <;> decide
  rw [balance_of_ne_empty _ hu, balance_of_ne_empty _ hu]
  show ((applyEventToBalances l.balances ev).get? u).getD 0 = _
  rw [applyEventToBalances, if_neg hnot, if_pos hkind, StarEvent.payer, if_pos hfrom]
  dsimp only
  by_cases hzero : ev.amount = 0
  · have hsat : satSub ((l.balances.get? u).getD 0) 0 = (l.balances.get? u).getD 0 := by
      apply UInt64.toNat_inj.mp
      rw [toNat_satSub, UInt64.toNat_zero, Nat.sub_zero]
    rw [if_pos hzero, hzero, hsat, ite_self]
  · rw [if_neg hzero, getD_burn]

/-- A covered event moves each balance by exactly what it says. -/
theorem balance_record {l : StarLedger} {ev : StarEvent} (hev : Covered l ev) (u : String)
    (hroom : (l.balance u).toNat + ev.creditTo u ≤ u64Max) :
    ((l.record ev).balance u).toNat + ev.debitFrom u
      = (l.balance u).toNat + ev.creditTo u := by
  rcases hev with ⟨hkind, hto⟩ | ⟨hkind, hfrom, hamount⟩
  · have hno : ¬ (ev.kind = kindSpend ∨ ev.kind = kindClawback) := by
      rcases hkind with h | h <;> rw [h] <;> decide
    rw [StarEvent.debitFrom, if_neg fun h => hno h.1, Nat.add_zero]
    by_cases hempty : u = ""
    · subst hempty
      rw [StarEvent.creditTo, if_neg fun h => hto h.2]
      rfl
    by_cases hu : u = ev.to
    · rw [StarEvent.creditTo, if_pos ⟨hkind, hu.symm⟩] at hroom ⊢
      rw [balance_record_credit l hkind hto hempty, if_pos hu, toNat_satAdd]
      omega
    · rw [StarEvent.creditTo, if_neg fun h => hu h.2.symm,
        balance_record_credit l hkind hto hempty, if_neg hu]
      rfl
  · have hno : ¬ (ev.kind = kindMint ∨ ev.kind = kindAdjust) := by
      rcases hkind with h | h <;> rw [h] <;> decide
    rw [StarEvent.creditTo, if_neg fun h => hno h.1, Nat.add_zero]
    by_cases hempty : u = ""
    · subst hempty
      rw [StarEvent.debitFrom, if_neg fun h => hfrom h.2]
      rfl
    by_cases hu : u = ev.from
    · subst hu
      rw [StarEvent.debitFrom, if_pos ⟨hkind, rfl⟩, balance_record_debit l hkind hfrom hempty,
        if_pos rfl, toNat_satSub]
      omega
    · rw [StarEvent.debitFrom, if_neg fun h => hu h.2.symm,
        balance_record_debit l hkind hfrom hempty, if_neg hu]
      rfl

end StarLedger

-- ======================================================================== one call

/-- How a call ends: with an error and the same ledger, with nothing to do, or
with a covered event taken into memory and its line behind the file. -/
inductive Attempted (codec : LineCodec) (w : Write) (c : Call) (s : Store) :
    Outcome (StarEvent × UInt64) → Prop where
  | error (e : SpendError) {s' : Store} (hsame : s'.ledger = s.ledger)
      (hfile : w = .ok → s'.file = s.file) : Attempted codec w c s (.error e, s')
  | idle (hidle : c.Idle) (r : StarEvent × UInt64) : Attempted codec w c s (.ok r, s)
  | recorded (hbusy : ¬ c.Idle) {ev : StarEvent} (hev : Covered s.ledger ev) (b : UInt64)
      {s' : Store} (hs' : s'.ledger = s.ledger.record ev)
      (hfile : s.file.append (codec.print ev) = some s'.file) :
      Attempted codec w c s (.ok (ev, b), s')

namespace Store

theorem tryAppend_attempted {c : Call} (hbusy : ¬ c.Idle) {s : Store} {w : Write}
    {kind «from» «to» : String} {amount : UInt64} {reason session opId : String}
    {stamp : Stamp} (who : String)
    (hev : Covered s.ledger
      (s.nextEvent sha256 kind «from» «to» amount reason session opId stamp)) :
    Attempted codec w c s (withBalance who
      (s.tryAppend sha256 codec w kind «from» «to» amount reason session opId stamp)) := by
  unfold tryAppend
  dsimp only
  split
  · next hw _ =>
    exact .error .io rfl fun hok => absurd hok (by simp)
  · exact .error .io rfl fun _ => rfl
  · next hline =>
    exact .recorded hbusy hev _ rfl hline

theorem attempt_attempted (w : Write) (s : Store) (c : Call) :
    Attempted codec w c s (c.attempt sha256 codec w s) := by
  cases c with
  | mintFrom «from» «to» amount reason session stamp =>
      simp only [Call.attempt, tryMintFrom]
      split_ifs with hidle
      · exact .idle (c := .mintFrom «from» «to» amount reason session stamp) hidle _
      · exact tryAppend_attempted (c := .mintFrom «from» «to» amount reason session stamp)
          hidle «to» (.credit (.inl rfl) (not_or.mp hidle).1)
  | adjust «to» amount reason stamp =>
      simp only [Call.attempt, tryAdjust, tryMintFrom]
      split_ifs with hidle hzero
      · exact .idle (c := .adjust «to» amount reason stamp) hidle _
      · exact absurd (.inr trivial) hzero
      · exact tryAppend_attempted (c := .adjust «to» amount reason stamp) hidle «to»
          (.credit (.inr rfl) (not_or.mp hidle).1)
  | spend «from» «to» amount reason opId session stamp =>
      simp only [Call.attempt, trySpend]
      split_ifs with hempty hop hshort
      · exact .error _ rfl fun _ => rfl
      · exact .error _ rfl fun _ => rfl
      · exact .error _ rfl fun _ => rfl
      · refine tryAppend_attempted id «from» (.debit (.inl rfl) (not_or.mp hempty).1 ?_)
        exact UInt64.le_iff_toNat_le.mp (UInt64.not_lt.mp hshort)
  | clawback userId balanceBurn trustBurn reason opId stamp =>
      have hcut : (min balanceBurn (s.ledger.balance (Text.trim userId))).toNat
          ≤ (s.ledger.balance (Text.trim userId)).toNat := by
        show (if _ ≤ _ then _ else _ : UInt64).toNat ≤ _
        split
        · next hle => exact UInt64.le_iff_toNat_le.mp hle
        · exact Nat.le_refl _
      simp only [Call.attempt, tryClawback]
      split_ifs with hempty hzero hop hreason
      · exact .error _ rfl fun _ => rfl
      · exact .error _ rfl fun _ => rfl
      · exact .error _ rfl fun _ => rfl
      · exact tryAppend_attempted id _ (.debit (.inr rfl) hempty hcut)
      · exact tryAppend_attempted id _ (.debit (.inr rfl) hempty hcut)

/-- A spend that goes through is covered and recorded. -/
theorem trySpend_ok {s s' : Store} {w : Write} {«from» «to» : String} {amount : UInt64}
    {reason opId session : String} {stamp : Stamp} {ev : StarEvent} {b : UInt64}
    (h : s.trySpend sha256 codec w «from» «to» amount reason opId session stamp
      = (.ok (ev, b), s')) :
    «from» ≠ "" ∧ amount.toNat ≤ (s.ledger.balance «from»).toNat
      ∧ s'.ledger = s.ledger.record ev ∧ ev.kind = kindSpend ∧ ev.from = «from»
      ∧ ev.amount = amount := by
  unfold trySpend at h
  dsimp only at h
  split_ifs at h with hempty hop hshort
  · cases h
  · cases h
  · cases h
  · unfold tryAppend at h
    dsimp only at h
    split at h
    · cases h
    · cases h
    · cases h
      exact ⟨(not_or.mp hempty).1, UInt64.le_iff_toNat_le.mp (UInt64.not_lt.mp hshort), rfl,
        rfl, rfl, rfl⟩

end Store

-- ========================================================================== runs

/-- Calls on a ledger that starts with an empty file, each with its write. -/
def ledgerMachine (sha256 : String → List UInt8) (codec : LineCodec) :
    Machine Store (Call × Write) where
  start s := s = ⟨.empty, .empty⟩
  step s cw s' := (cw.1.attempt sha256 codec cw.2 s).2 = s'

/-- The recorded events, oldest first. -/
def noteEvent (sha256 : String → List UInt8) (codec : LineCodec) (journal : List StarEvent)
    (s : Store) (cw : Call × Write) (_ : Store) : List StarEvent :=
  match (cw.1.attempt sha256 codec cw.2 s).1 with
  | .ok (ev, _) => if cw.1.Idle then journal else journal ++ [ev]
  | .error _ => journal

/-- The file holds the lines of the journal and nothing else. -/
def LedgerFile.Holds (f : LedgerFile) (codec : LineCodec) (journal : List StarEvent) : Prop :=
  f.lines = journal.map (fun ev => rawOf (codec.print ev)) ∧ f.tail = []

theorem holds_append {f f' : LedgerFile} {journal : List StarEvent} {ev : StarEvent}
    (hf : f.Holds codec journal) (h : f.append (codec.print ev) = some f') :
    f'.Holds codec (journal ++ [ev]) := by
  unfold LedgerFile.append at h
  split at h
  · cases h
    refine ⟨?_, rfl⟩
    show f.lines ++ [f.tail ++ rawOf (codec.print ev)] = _
    rw [hf.1, hf.2, List.nil_append, List.map_append, List.map_singleton]
  · cases h

theorem holds_step {s s' : Store} {journal : List StarEvent} {cw : Call × Write}
    (hf : s.file.Holds codec journal) (hok : cw.2 = .ok)
    (hs : (ledgerMachine sha256 codec).step s cw s') :
    s'.file.Holds codec (noteEvent sha256 codec journal s cw s') := by
  have hatt : Attempted codec cw.2 cw.1 s (cw.1.attempt sha256 codec cw.2 s) :=
    Store.attempt_attempted cw.2 s cw.1
  have hs' : (cw.1.attempt sha256 codec cw.2 s).2 = s' := hs
  rw [← hs']
  unfold noteEvent
  generalize cw.1.attempt sha256 codec cw.2 s = o at hatt
  cases hatt with
  | error e hsame hfile =>
      show LedgerFile.Holds _ codec journal
      rw [hfile hok]
      exact hf
  | idle hidle r =>
      dsimp only
      rw [if_pos hidle]
      exact hf
  | recorded hbusy hev b hrec hfile =>
      dsimp only
      rw [if_neg hbusy]
      exact holds_append hf hfile

/-- While every write goes through, the journal is what the file says. -/
theorem file_holds_journal {s : Store} {journal : List StarEvent}
    (h : (((ledgerMachine sha256 codec).guard fun _ cw => cw.2 = .ok).watch []
      (noteEvent sha256 codec)).Reach (s, journal)) :
    s.file.Holds codec journal :=
  h.invariant (I := fun p => p.1.file.Holds codec p.2)
    (fun p hp => by
      obtain ⟨hs, hj⟩ := hp
      rw [hs, hj]
      exact ⟨rfl, rfl⟩)
    (fun p cw p' _ hp hstep => by
      obtain ⟨⟨hok, hs⟩, hj⟩ := hstep
      rw [hj]
      exact holds_step hp hok hs)

/-- The balances of a ledger are those of its journal. -/
def Balanced (l : StarLedger) (journal : List StarEvent) : Prop :=
  ∀ u, credited u journal ≤ u64Max →
    (l.balance u).toNat + debited u journal = credited u journal

theorem balanced_record {l : StarLedger} {journal : List StarEvent} {ev : StarEvent}
    (hl : Balanced l journal) (hev : Covered l ev) :
    Balanced (l.record ev) (journal ++ [ev]) := by
  intro u hu
  have hcredit : credited u (journal ++ [ev]) = credited u journal + ev.creditTo u := by
    simp [credited]
  have hdebit : debited u (journal ++ [ev]) = debited u journal + ev.debitFrom u := by
    simp [debited]
  rw [hcredit] at hu ⊢
  have hold := hl u (by omega)
  have hnew := StarLedger.balance_record hev u (by omega)
  omega

theorem balanced_step {s s' : Store} {journal : List StarEvent} {cw : Call × Write}
    (hl : Balanced s.ledger journal) (hs : (ledgerMachine sha256 codec).step s cw s') :
    Balanced s'.ledger (noteEvent sha256 codec journal s cw s') := by
  have hatt : Attempted codec cw.2 cw.1 s (cw.1.attempt sha256 codec cw.2 s) :=
    Store.attempt_attempted cw.2 s cw.1
  have hs' : (cw.1.attempt sha256 codec cw.2 s).2 = s' := hs
  rw [← hs']
  unfold noteEvent
  generalize cw.1.attempt sha256 codec cw.2 s = o at hatt
  cases hatt with
  | error e hsame _ =>
      show Balanced _ journal
      rw [hsame]
      exact hl
  | idle hidle r =>
      dsimp only
      rw [if_pos hidle]
      exact hl
  | recorded hbusy hev b hrec _ =>
      dsimp only
      rw [if_neg hbusy, hrec]
      exact balanced_record hl hev

/-- In every run each balance is what was credited less what was debited, no
debit is cut off at zero, a spend takes its amount from the spender and
nothing else, and a call that fails changes nothing in memory. -/
theorem ledger_conserves {s : Store} {journal : List StarEvent}
    (h : ((ledgerMachine sha256 codec).watch [] (noteEvent sha256 codec)).Reach (s, journal)) :
    (∀ u, credited u journal ≤ u64Max →
        (s.ledger.balance u).toNat + debited u journal = credited u journal)
      ∧ ∀ (c : Call) (w : Write),
        (∀ e s', c.attempt sha256 codec w s = (.error e, s') → s'.ledger = s.ledger)
        ∧ (∀ ev b s', c.attempt sha256 codec w s = (.ok (ev, b), s') → ¬ c.Idle →
            ∀ u, ev.debitFrom u ≤ (s.ledger.balance u).toNat)
        ∧ (∀ «from» «to» amount reason opId session stamp ev b s',
            c = .spend «from» «to» amount reason opId session stamp →
            c.attempt sha256 codec w s = (.ok (ev, b), s') →
            amount.toNat ≤ (s.ledger.balance «from»).toNat
              ∧ ∀ u, (s'.ledger.balance u).toNat
                = if u = «from» then (s.ledger.balance u).toNat - amount.toNat
                  else (s.ledger.balance u).toNat) := by
  have hbal : Balanced s.ledger journal :=
    Machine.Reach.invariant (I := fun p => Balanced p.1.ledger p.2)
      (fun p hp => by
        obtain ⟨hs, hj⟩ := hp
        rw [hs, hj]
        exact fun u _ => by by_cases hu : u = "" <;> simp [StarLedger.balance, hu] <;> rfl)
      (fun p cw p' _ hp hstep => by
        obtain ⟨hs, hj⟩ := hstep
        rw [hj]
        exact balanced_step hp hs) h
  refine ⟨hbal, fun c w => ?_⟩
  have hatt : Attempted codec w c s (c.attempt sha256 codec w s) :=
    Store.attempt_attempted w s c
  refine ⟨fun e s' heq => ?_, fun ev b s' heq hbusy u => ?_, ?_⟩
  · rw [heq] at hatt
    cases hatt with
    | error _ hsame => exact hsame
  · rw [heq] at hatt
    cases hatt with
    | idle hidle => exact absurd hidle hbusy
    | recorded _ hev =>
        rw [StarEvent.debitFrom]
        split
        · next hdebit =>
          rcases hev with ⟨hkind, -⟩ | ⟨-, -, hamount⟩
          · rcases hkind with hk | hk <;> rw [hk] at hdebit <;> exact absurd hdebit.1 (by decide)
          · rw [← hdebit.2]
            exact hamount
        · exact Nat.zero_le _
  · rintro «from» «to» amount reason opId session stamp ev b s' rfl heq
    obtain ⟨hfrom, hle, hrec, hkind, rfl, rfl⟩ := Store.trySpend_ok heq
    refine ⟨hle, fun u => ?_⟩
    rw [hrec]
    by_cases hempty : u = ""
    · rw [if_neg fun hu : u = ev.from => hfrom (hu ▸ hempty), hempty]
      rfl
    · rw [StarLedger.balance_record_debit _ (.inl hkind) hfrom hempty]
      split
      · rw [toNat_satSub]
      · rfl

/-- A computable step of the ledger. -/
def attemptNext (sha256 : String → List UInt8) (codec : LineCodec) (s : Store)
    (cw : Call × Write) : Option Store :=
  some (cw.1.attempt sha256 codec cw.2 s).2

theorem attemptNext_step (s : Store) (cw : Call × Write) (s' : Store)
    (h : attemptNext sha256 codec s cw = some s') :
    (ledgerMachine sha256 codec).step s cw s' :=
  Option.some.inj h

/-- Ten stars minted, three spent and four clawed back. -/
def paidCalls : List (Call × Write) :=
  [(.mintFrom "" "alice" 10 "test_mint" "" ⟨"u1", 1⟩, .ok),
   (.spend "alice" "bob" 3 "flowers" "op1" "s1" ⟨"u2", 2⟩, .ok),
   (.clawback "alice" 4 0 "abuse" "op2" ⟨"u3", 3⟩, .ok)]

/-- The file behind them, with the first byte of one line more. -/
def brokenFile : LedgerFile :=
  let f := (paidCalls.foldl (fun s cw => (cw.1.attempt Sha256.sha256 compactCodec cw.2 s).2)
    (⟨.empty, .empty⟩ : Store)).file
  ⟨f.lines, rawOf "\x7b", f.fits⟩

/-- The calls, and a mint whose write breaks off. -/
def brokenCalls : List (Call × Write) :=
  paidCalls ++ [(.mintFrom "" "alice" 5 "test_mint" "" ⟨"u4", 4⟩, .fails brokenFile)]

/-- The mint that fails is neither credited nor recorded. -/
theorem ledger_conserves_minted : ∃ s journal,
    ((ledgerMachine Sha256.sha256 compactCodec).watch []
      (noteEvent Sha256.sha256 compactCodec)).Reach (s, journal)
    ∧ s.file.tail ≠ [] ∧ journal.length = 3
    ∧ credited "alice" journal = 10 ∧ debited "alice" journal = 7
    ∧ (s.ledger.balance "alice").toNat + debited "alice" journal
      = credited "alice" journal := by
  have hrun : (Machine.follow (Machine.watchNext (attemptNext Sha256.sha256 compactCodec)
      (noteEvent Sha256.sha256 compactCodec)) (⟨.empty, .empty⟩, []) brokenCalls).any
        (fun p => decide (p.1.file.tail ≠ [] ∧ p.2.length = 3 ∧ credited "alice" p.2 = 10
          ∧ debited "alice" p.2 = 7)) = true := by
    decide
  have hstart : ((ledgerMachine Sha256.sha256 compactCodec).watch []
      (noteEvent Sha256.sha256 compactCodec)).start (⟨.empty, .empty⟩, []) := ⟨rfl, rfl⟩
  obtain ⟨⟨s, journal⟩, hreach, htest⟩ :=
    Machine.exists_reach (Machine.watchNext_step attemptNext_step) hstart hrun
  obtain ⟨htail, hlength, hcredit, hdebit⟩ := of_decide_eq_true htest
  exact ⟨s, journal, hreach, htail, hlength, hcredit, hdebit,
    (ledger_conserves hreach).1 "alice" (by rw [hcredit]; decide)⟩

end Ruletka.Ledger
