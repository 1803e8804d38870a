/-
The calls as the hub makes them: every outcome, with the store it leaves.

A write ends in one of two ways. It goes through, and the event is taken
into memory; or it fails, at the directory, the file, the line or the flush,
and the file is left with whatever had arrived by then. Memory is updated
behind the last of these steps.
-/
import Ruletka.Ledger.Store

namespace Ruletka.Ledger

/-- How the writes of an append end. -/
inductive Write where
  | ok
  /-- a step failed and left this file -/
  | fails (left : LedgerFile)

/-- What a call returns and the store behind it. -/
abbrev Outcome (α : Type) : Type := Except SpendError α × Store

namespace Store

variable (sha256 : String → List UInt8) (codec : LineCodec) (w : Write)

/-- `append_event`. -/
def tryAppend (s : Store) (kind «from» «to» : String) (amount : UInt64)
    (reason session opId : String) (stamp : Stamp) : Outcome StarEvent :=
  let ev := s.nextEvent sha256 kind «from» «to» amount reason session opId stamp
  match w, s.file.append (codec.print ev) with
  | .fails left, _ => (.error .io, { s with file := left })
  | .ok, none => (.error .io, s)
  | .ok, some file => (.ok ev, ⟨s.ledger.record ev, file⟩)

/-- `let ev = ..?; Ok((ev, self.balance(who)))`. -/
def withBalance (who : String) : Outcome StarEvent → Outcome (StarEvent × UInt64)
  | (.ok ev, s) => (.ok (ev, s.ledger.balance who), s)
  | (.error e, s) => (.error e, s)

/-- `mint_from`. -/
def tryMintFrom (s : Store) («from» «to» : String) (amount : UInt64)
    (reason session : String) (stamp : Stamp) : Outcome (StarEvent × UInt64) :=
  if «to» = "" ∨ amount = 0 then
    (.ok ({ seq := s.ledger.seq, id := "", kind := kindMint, «from» := «from», «to» := «to»
            amount := 0, reason := reason, session := session, opId := "", ts := stamp.ts
            prevHash := s.ledger.tipHash, hash := s.ledger.tipHash },
          s.ledger.balance «to»), s)
  else
    withBalance «to» (s.tryAppend sha256 codec w kindMint «from» «to» amount reason session ""
      stamp)

/-- `adjust`. -/
def tryAdjust (s : Store) («to» : String) (amount : UInt64) (reason : String)
    (stamp : Stamp) : Outcome (StarEvent × UInt64) :=
  if «to» = "" ∨ amount = 0 then s.tryMintFrom sha256 codec w "" «to» 0 reason "" stamp
  else
    withBalance «to» (s.tryAppend sha256 codec w kindAdjust "" «to» amount reason "" "" stamp)

/-- `spend`. -/
def trySpend (s : Store) («from» «to» : String) (amount : UInt64)
    (reason opId session : String) (stamp : Stamp) : Outcome (StarEvent × UInt64) :=
  let op := Text.trim opId
  let balance := s.ledger.balance «from»
  if «from» = "" ∨ amount = 0 then (.error .empty, s)
  else if op ≠ "" ∧ op ∈ s.ledger.spentOps then (.error (.alreadyApplied balance), s)
  else if balance < amount then (.error (.insufficient balance amount), s)
  else
    withBalance «from» (s.tryAppend sha256 codec w kindSpend «from» «to» amount reason session
      op stamp)

/-- `clawback`. -/
def tryClawback (s : Store) (userId : String) (balanceBurn trustBurn : UInt64)
    (reason opId : String) (stamp : Stamp) : Outcome (StarEvent × UInt64) :=
  let uid := Text.trim userId
  let op := Text.trim opId
  if uid = "" then (.error .empty, s)
  else if balanceBurn = 0 ∧ trustBurn = 0 then (.error .empty, s)
  else if op ≠ "" ∧ op ∈ s.ledger.spentOps then
    (.error (.alreadyApplied (s.ledger.balance uid)), s)
  else
    let bal := min balanceBurn (s.ledger.balance uid)
    let session := "trust:" ++ toString trustBurn
    let note := if reason = "" then "clawback" else Text.takeChars 96 reason
    withBalance uid (s.tryAppend sha256 codec w kindClawback uid "" bal note session op stamp)

end Store

namespace Call

variable (sha256 : String → List UInt8) (codec : LineCodec)

/-- Make the call, whatever becomes of its write. -/
def attempt (w : Write) (s : Store) : Call → Outcome (StarEvent × UInt64)
  | .mintFrom «from» «to» amount reason session stamp =>
      s.tryMintFrom sha256 codec w «from» «to» amount reason session stamp
  | .adjust «to» amount reason stamp => s.tryAdjust sha256 codec w «to» amount reason stamp
  | .spend «from» «to» amount reason opId session stamp =>
      s.trySpend sha256 codec w «from» «to» amount reason opId session stamp
  | .clawback userId balanceBurn trustBurn reason opId stamp =>
      s.tryClawback sha256 codec w userId balanceBurn trustBurn reason opId stamp

end Call

-- ========================================================== the successful calls

namespace Store

variable {sha256 : String → List UInt8} {codec : LineCodec}

/-- An append that goes through is the successful append. -/
theorem tryAppend_ok_iff {s s' : Store} {kind «from» «to» : String} {amount : UInt64}
    {reason session opId : String} {stamp : Stamp} {ev : StarEvent} :
    s.tryAppend sha256 codec .ok kind «from» «to» amount reason session opId stamp = (.ok ev, s')
      ↔ s.appendEvent sha256 codec kind «from» «to» amount reason session opId stamp
        = .ok (ev, s') := by
  unfold tryAppend appendEvent push
  dsimp only
  cases s.file.append (codec.print
      (s.nextEvent sha256 kind «from» «to» amount reason session opId stamp)) with
  | none => simp
  | some f => simp

theorem withBalance_ok_iff {who : String} {o : Outcome StarEvent}
    {x : Except SpendError (StarEvent × Store)}
    (hox : ∀ ev s, o = (.ok ev, s) ↔ x = .ok (ev, s)) {r : StarEvent × UInt64} {s' : Store} :
    withBalance who o = (.ok r, s')
      ↔ (fun a => ((a.1, a.2.ledger.balance who), a.2)) <$> x = .ok (r, s') := by
  rcases o with ⟨e | ev, s⟩
  · rcases x with e' | ⟨ev', s₁⟩
    · exact ⟨nofun, nofun⟩
    · exact absurd ((hox ev' s₁).mpr rfl) nofun
  · rw [(hox ev s).mp rfl]
    show (_, _) = (_, _) ↔ Except.ok _ = Except.ok _
    simp only [Prod.mk.injEq, Except.ok.injEq]

end Store

/-- With a write that goes through, an attempt succeeds exactly as the call. -/
theorem Call.attempt_ok_iff {sha256 : String → List UInt8} {codec : LineCodec} {s s' : Store}
    {c : Call} {r : StarEvent × UInt64} :
    c.attempt sha256 codec .ok s = (.ok r, s') ↔ c.apply sha256 codec s = .ok (r, s') := by
  cases c with
  | mintFrom «from» «to» amount reason session stamp =>
      simp only [Call.attempt, Call.apply, Store.tryMintFrom, Store.mintFrom]
      split_ifs
      · simp
      · exact Store.withBalance_ok_iff fun _ _ => Store.tryAppend_ok_iff
  | adjust «to» amount reason stamp =>
      simp only [Call.attempt, Call.apply, Store.tryAdjust, Store.adjust]
      split_ifs
      · simp [Store.mint, Store.mintFrom, Store.tryMintFrom]
      · exact Store.withBalance_ok_iff fun _ _ => Store.tryAppend_ok_iff
  | spend «from» «to» amount reason opId session stamp =>
      simp only [Call.attempt, Call.apply, Store.trySpend, Store.spend]
      split_ifs
      · simp
      · simp
      · simp
      · exact Store.withBalance_ok_iff fun _ _ => Store.tryAppend_ok_iff
  | clawback userId balanceBurn trustBurn reason opId stamp =>
      simp only [Call.attempt, Call.apply, Store.tryClawback, Store.clawback]
      split_ifs
      · simp
      · simp
      · simp
      · exact Store.withBalance_ok_iff fun _ _ => Store.tryAppend_ok_iff
      · exact Store.withBalance_ok_iff fun _ _ => Store.tryAppend_ok_iff

end Ruletka.Ledger
