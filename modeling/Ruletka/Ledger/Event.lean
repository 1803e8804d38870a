/-
The star ledger's events: what one records, how it is hashed, and what it
does to balances and trust.

Amounts, sequence numbers and timestamps are `u64`s, as in the source; sums
and differences of amounts saturate. SHA-256 is a function from texts to
bytes that the results take as a parameter; the payload and the hexadecimal
form around it are the source's.
-/
import Ruletka.Lib.Table
import Ruletka.Lib.Text

namespace Ruletka.Ledger

open Text

def u64Max : Nat := 2 ^ 64 - 1

/-- `u64::saturating_add`. -/
def satAdd (a b : UInt64) : UInt64 := UInt64.ofNat (min (a.toNat + b.toNat) u64Max)

/-- `u64::saturating_sub`. -/
def satSub (a b : UInt64) : UInt64 := UInt64.ofNat (a.toNat - b.toNat)

@[simp]
theorem toNat_satAdd (a b : UInt64) :
    (satAdd a b).toNat = min (a.toNat + b.toNat) u64Max := by
  rw [satAdd, UInt64.toNat_ofNat']
  exact Nat.mod_eq_of_lt (by unfold u64Max; omega)

def kindMint : String := "mint"
def kindSpend : String := "spend"
def kindAdjust : String := "adjust"
def kindClawback : String := "clawback"

/-- `StarEvent`. -/
structure StarEvent where
  seq : UInt64
  id : String
  kind : String
  /-- spender, giver or nobody -/
  «from» : String
  /-- recipient, or target of a spend -/
  «to» : String
  amount : UInt64
  reason : String
  session : String
  opId : String
  ts : UInt64
  prevHash : String
  hash : String
  deriving DecidableEq, Repr

/-- A mint or adjust for this reason raises trust. -/
def isTrustMintReason (reason : String) : Bool :=
  let r := trim reason
  r = "mint:rate_partner" || hasSuffix r ":rate_partner" || r = "rate_partner"
    || hasPrefix r "admin:trust" || hasPrefix r "gift:"

/-- `str::parse::<u64>`: digits, after at most one plus. -/
def parseU64 (s : String) : Option UInt64 :=
  let digits := match s.toList with
    | '+' :: rest => rest
    | l => l
  if digits = [] || !digits.all Char.isDigit then none
  else
    let n := digits.foldl (fun n c => n * 10 + (c.toNat - '0'.toNat)) 0
    if n ≤ u64Max then some (UInt64.ofNat n) else none

/-- `str::split` at bars, commas and spaces. -/
def splitSession (s : String) : List String :=
  (s.toList.splitOnP fun c => c = '|' || c = ',' || c = ' ').map String.ofList

/-- The `trust:N` part of a clawback's session field. -/
def parseTrustBurnSession (session : String) : UInt64 :=
  ((splitSession session).findSome? fun part =>
    let p := trim part
    if hasPrefix p "trust:" then parseU64 (trim (String.ofList (p.toList.drop 6)))
    else none).getD 0

def hexEncode (bytes : List UInt8) : String :=
  String.ofList (bytes.flatMap fun b => [hexDigit (b.toNat / 16), hexDigit (b.toNat % 16)])

/-- The text an event's hash is over. -/
def payload (seq : UInt64) (id kind «from» «to» : String) (amount : UInt64)
    (reason session opId : String) (ts : UInt64) (prevHash : String) : String :=
  toString seq ++ "|" ++ id ++ "|" ++ kind ++ "|" ++ «from» ++ "|" ++ «to» ++ "|"
    ++ toString amount ++ "|" ++ reason ++ "|" ++ session ++ "|" ++ opId ++ "|"
    ++ toString ts ++ "|" ++ prevHash

def eventHash (sha256 : String → List UInt8) (seq : UInt64) (id kind «from» «to» : String)
    (amount : UInt64) (reason session opId : String) (ts : UInt64) (prevHash : String) :
    String :=
  hexEncode (sha256
    (payload seq id kind «from» «to» amount reason session opId ts prevHash))

/-- The hash the event should carry. -/
def StarEvent.recomputed (sha256 : String → List UInt8) (ev : StarEvent) : String :=
  eventHash sha256 ev.seq ev.id ev.kind ev.from ev.to ev.amount ev.reason ev.session ev.opId
    ev.ts ev.prevHash

/-- The spender of a spend or clawback. -/
def StarEvent.payer (ev : StarEvent) : Option String :=
  if ev.from ≠ "" then some ev.from
  else if ev.to ≠ "" then some ev.to
  else none

/-- Take from an account; an empty account is dropped. -/
def burn (accounts : Table String UInt64) (who : String) (amount : UInt64) : Table String UInt64 :=
  let next := satSub ((accounts.get? who).getD 0) amount
  if next = 0 then accounts.del who else accounts.set who next

def credit (accounts : Table String UInt64) (who : String) (amount : UInt64) :
    Table String UInt64 :=
  accounts.set who (satAdd ((accounts.get? who).getD 0) amount)

def applyEventToBalances (balances : Table String UInt64) (ev : StarEvent) : Table String UInt64 :=
  if ev.kind = kindMint ∨ ev.kind = kindAdjust then
    if ev.to = "" ∨ ev.amount = 0 then balances else credit balances ev.to ev.amount
  else if ev.kind = kindSpend ∨ ev.kind = kindClawback then
    match ev.payer with
    | some who => if ev.amount = 0 then balances else burn balances who ev.amount
    | none => balances
  else balances

/-- Scores, directed edges and the last activity of trust. -/
structure Trust where
  scores : Table String UInt64
  edges : Finset String
  lastTs : Table String UInt64

/-- Note the time of an activity, unless a later one is known. -/
def Trust.touch (t : Trust) (who : String) (ts : UInt64) : Trust :=
  if 0 < ts ∧ (t.lastTs.get? who).getD 0 ≤ ts then { t with lastTs := t.lastTs.set who ts }
  else t

def applyEventToTrust (t : Trust) (ev : StarEvent) : Trust :=
  if ev.kind = kindClawback then
    match ev.payer with
    | none => t
    | some who =>
        let lost := parseTrustBurnSession ev.session
        let t := if 0 < lost then { t with scores := burn t.scores who lost } else t
        t.touch who ev.ts
  else if ev.kind ≠ kindMint ∧ ev.kind ≠ kindAdjust then t
  else if !isTrustMintReason ev.reason || ev.to = "" || ev.amount = 0 then t
  else
    let t := { t with scores := credit t.scores ev.to ev.amount }
    let t := if ev.from ≠ "" ∧ ev.from ≠ ev.to then
      { t with edges := insert (ev.from ++ "|" ++ ev.to) t.edges } else t
    t.touch ev.to ev.ts

end Ruletka.Ledger
