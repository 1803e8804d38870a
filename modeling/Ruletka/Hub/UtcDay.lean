/-
The calendar day that the metrics of the hub are kept by.

`utc_day` turns the seconds since the epoch into a text. Its integers are
those of the source: unsigned, but for the day number, the era and the year,
and a step that leaves their range has no result.
-/
import Ruletka.Lib.Checked

namespace Ruletka

namespace DayMetrics

open Checked

/-- `era`: the 400 years that have a day, rounded down. -/
def eraOf (z : Int) : Option Int := do
  let n ← if 0 ≤ z then some z else int (z - 146096)
  some (n.tdiv 146097)

/-- `yoe`: the year of a day of the era, with a correction for each leap day
before it. -/
def yearOfEra (doe : Nat) : Option Nat := do
  let n ← sub doe (doe / 1460)
  let n ← add n (doe / 36524)
  let n ← sub n (doe / 146096)
  some (n / 365)

/-- `doy`: the day of that year, which begins in March. -/
def dayOfYear (doe yoe : Nat) : Option Nat := do
  let n ← mul 365 yoe
  let n ← add n (yoe / 4)
  let n ← sub n (yoe / 100)
  sub doe n

/-- `mp`, `d` and `m`: the day of the month, and the month, of a day of the
year. -/
def dayAndMonth (doy : Nat) : Option (Nat × Nat) := do
  let n ← mul 5 doy
  let n ← add n 2
  let mp := n / 153
  let n ← mul 153 mp
  let n ← add n 2
  let n ← sub doy (n / 5)
  let d ← add n 1
  let m ← if mp < 10 then add mp 3 else sub mp 9
  some (d, m)

/-- The civil date of a day number. -/
def civil (days : Nat) : Option (Int × Nat × Nat) := do
  let z ← int (asInt days + 719468)
  let era ← eraOf z
  let n ← int (era * 146097)
  let n ← int (z - n)
  let doe := asNat n
  let yoe ← yearOfEra doe
  let n ← int (era * 400)
  let y ← int (asInt yoe + n)
  let doy ← dayOfYear doe yoe
  let (d, m) ← dayAndMonth doy
  let y ← if m ≤ 2 then int (y + 1) else some y
  some (y, m, d)

/-- A number with zeros in front, up to a width that counts its sign. -/
def pad (width : Nat) (n : Int) : String :=
  let digits := Nat.repr n.natAbs
  let sign := if n < 0 then "-" else ""
  sign ++ String.ofList (List.replicate (width - sign.length - digits.length) '0') ++ digits

/-- `utc_day`, at these seconds since the epoch. -/
def utcDay (secs : Nat) : Option String := do
  let (y, m, d) ← civil (secs / 86400)
  some (pad 4 y ++ "-" ++ pad 2 m ++ "-" ++ pad 2 d)

end DayMetrics

end Ruletka
