/-
The proleptic Gregorian calendar.

A date is a year, a month and a day of that month; `next` is the day after.
`daysFromCivil` is the usual count of days from the first of January 1970, by
years that begin in March, so that the leap day is the last of its year. The
count goes up by one from a date to the next and tells all dates apart, so
the day with the number `n` is the `n`-th after the epoch and no other.
-/
import Mathlib.Logic.Function.Iterate
import Mathlib.Tactic.IntervalCases

namespace Ruletka

namespace Calendar

def IsLeap (y : Int) : Prop := 4 ∣ y ∧ (100 ∣ y → 400 ∣ y)

instance (y : Int) : Decidable (IsLeap y) :=
  inferInstanceAs (Decidable (4 ∣ y ∧ (100 ∣ y → 400 ∣ y)))

/-- One in a leap year. -/
def leapDay (y : Int) : Nat := if IsLeap y then 1 else 0

def monthLength (y : Int) (m : Nat) : Nat :=
  if m = 2 then 28 + leapDay y
  else if m = 4 ∨ m = 6 ∨ m = 9 ∨ m = 11 then 30
  else 31

theorem one_le_monthLength (y : Int) (m : Nat) : 1 ≤ monthLength y m := by
  unfold monthLength
  split
  · omega
  · split
    · omega
    · omega

/-- A day of a month of a year. -/
@[ext] structure Date where
  year : Int
  month : Nat
  day : Nat
  one_le_month : 1 ≤ month
  month_le : month ≤ 12
  one_le_day : 1 ≤ day
  day_le : day ≤ monthLength year month
  deriving DecidableEq

/-- The first of January 1970. -/
def epoch : Date := ⟨1970, 1, 1, by decide, by decide, by decide, by decide⟩

/-- The day after. -/
def next (d : Date) : Date :=
  if h : d.day < monthLength d.year d.month then
    ⟨d.year, d.month, d.day + 1, d.one_le_month, d.month_le, Nat.le_add_left 1 _, h⟩
  else if h : d.month < 12 then
    ⟨d.year, d.month + 1, 1, Nat.le_add_left 1 _, h, Nat.le_refl 1, one_le_monthLength _ _⟩
  else ⟨d.year + 1, 1, 1, Nat.le_refl 1, by decide, Nat.le_refl 1, one_le_monthLength _ _⟩

/-- The days from the epoch to a date. -/
def daysFromCivil (date : Date) : Int :=
  let y := if date.month ≤ 2 then date.year - 1 else date.year
  let era := y / 400
  let yoe := y - era * 400
  let mp := if date.month ≤ 2 then date.month + 9 else date.month - 3
  let doy := (153 * mp + 2) / 5 + date.day - 1
  let doe := yoe * 365 + yoe / 4 - yoe / 100 + doy
  era * 146097 + doe - 719468

-- ================================================================= years from March

/-- The days before the first of March of a year, from that of year zero. -/
def yearStart (y : Int) : Int := 365 * y + y / 4 - y / 100 + y / 400

theorem yearStart_succ (y : Int) :
    yearStart (y + 1) = yearStart y + 365 + (leapDay (y + 1) : Nat) := by
  unfold yearStart
  by_cases h : IsLeap (y + 1)
  · have hone : leapDay (y + 1) = 1 := if_pos h
    unfold IsLeap at h
    omega
  · have hzero : leapDay (y + 1) = 0 := if_neg h
    unfold IsLeap at h
    omega

theorem yearStart_le {y y' : Int} (h : y ≤ y') : yearStart y ≤ yearStart y' := by
  unfold yearStart
  omega

/-- The days before a month, counted from March. -/
def monthStart (mp : Nat) : Nat := (153 * mp + 2) / 5

/-- The month, and the year it is of, counted from March. -/
def monthOf (mp : Nat) : Nat := if mp < 10 then mp + 3 else mp - 9

def yearOf (y : Int) (mp : Nat) : Int := if monthOf mp ≤ 2 then y + 1 else y

/-- A month ends where the next begins. -/
theorem monthStart_succ {mp : Nat} (y : Int) (h : mp < 11) :
    monthStart (mp + 1) = monthStart mp + monthLength (yearOf y mp) (monthOf mp) := by
  interval_cases mp <;> rfl

/-- February ends with the year. -/
theorem yearEnd_eq (y : Int) :
    365 + leapDay (y + 1) = monthStart 11 + monthLength (yearOf y 11) (monthOf 11) := by
  show 365 + leapDay (y + 1) = 337 + (28 + leapDay (y + 1))
  omega

/-- The months lie within the year. -/
theorem monthEnd_le {mp : Nat} (y : Int) (h : mp ≤ 11) :
    monthStart mp + monthLength (yearOf y mp) (monthOf mp) ≤ 365 + leapDay (y + 1) := by
  by_cases hlast : mp = 11
  · rw [hlast, yearEnd_eq]
  · rw [← monthStart_succ y (by omega)]
    unfold monthStart
    omega

namespace Date

variable (d : Date)

/-- The year whose March the date is not before. -/
def marchYear : Int := if d.month ≤ 2 then d.year - 1 else d.year

def marchMonth : Nat := if d.month ≤ 2 then d.month + 9 else d.month - 3

/-- The days since the first of March. -/
def marchDay : Nat := monthStart d.marchMonth + (d.day - 1)

theorem marchMonth_le : d.marchMonth ≤ 11 := by
  have := d.month_le
  unfold marchMonth
  split
  · omega
  · omega

theorem month_eq : d.month = monthOf d.marchMonth := by
  have := d.month_le
  have := d.one_le_month
  unfold marchMonth monthOf
  split
  · rw [if_neg (by omega)]
    omega
  · rw [if_pos (by omega)]
    omega

theorem year_eq : d.year = yearOf d.marchYear d.marchMonth := by
  unfold yearOf
  rw [← d.month_eq]
  unfold marchYear
  split
  · omega
  · rfl

theorem daysFromCivil_eq :
    daysFromCivil d = yearStart d.marchYear + d.marchDay - 719468 := by
  have hone := d.one_le_day
  show d.marchYear / 400 * 146097 + ((d.marchYear - d.marchYear / 400 * 400) * 365
    + (d.marchYear - d.marchYear / 400 * 400) / 4
    - (d.marchYear - d.marchYear / 400 * 400) / 100
    + ((153 * d.marchMonth + 2) / 5 + d.day - 1 : Nat)) - 719468 = _
  unfold marchDay monthStart yearStart
  omega

theorem day_le_march :
    d.day ≤ monthLength (yearOf d.marchYear d.marchMonth) (monthOf d.marchMonth) := by
  rw [← d.year_eq, ← d.month_eq]
  exact d.day_le

theorem marchDay_lt (h : d.marchMonth < 11) : d.marchDay < monthStart (d.marchMonth + 1) := by
  have hone := d.one_le_day
  have hday := d.day_le_march
  rw [monthStart_succ d.marchYear h]
  unfold marchDay
  omega

theorem marchDay_lt_year : d.marchDay < 365 + leapDay (d.marchYear + 1) := by
  have hone := d.one_le_day
  have hday := d.day_le_march
  have hend := monthEnd_le d.marchYear d.marchMonth_le
  unfold marchDay
  omega

/-- The date of a day of a month, counted from March. -/
theorem exists_of_march {y : Int} {mp day : Nat} (hmp : mp ≤ 11) (hone : 1 ≤ day)
    (hday : day ≤ monthLength (yearOf y mp) (monthOf mp)) :
    ∃ d : Date, d.year = yearOf y mp ∧ d.month = monthOf mp ∧ d.day = day
      ∧ d.marchYear = y ∧ d.marchMonth = mp := by
  have hmonth : 1 ≤ monthOf mp ∧ monthOf mp ≤ 12 := by
    unfold monthOf
    split
    · omega
    · omega
  refine ⟨⟨yearOf y mp, monthOf mp, day, hmonth.1, hmonth.2, hone, hday⟩, rfl, rfl, rfl, ?_, ?_⟩
  · show (if monthOf mp ≤ 2 then yearOf y mp - 1 else yearOf y mp) = y
    unfold yearOf
    split
    · omega
    · rfl
  · show (if monthOf mp ≤ 2 then monthOf mp + 9 else monthOf mp - 3) = mp
    unfold monthOf
    split
    · rw [if_neg (by omega)]
      omega
    · rw [if_pos (by omega)]
      omega

end Date

-- ====================================================================== dates in turn

/-- The next date is a day later in its month, or on the first of the next
month, or on the first of March. -/
theorem next_cases (d : Date) :
    ((next d).day = d.day + 1 ∧ (next d).marchYear = d.marchYear
      ∧ (next d).marchMonth = d.marchMonth)
    ∨ d.day = monthLength d.year d.month ∧ (next d).day = 1
      ∧ ((d.marchMonth < 11 ∧ (next d).marchYear = d.marchYear
          ∧ (next d).marchMonth = d.marchMonth + 1)
        ∨ d.marchMonth = 11 ∧ (next d).marchYear = d.marchYear + 1
          ∧ (next d).marchMonth = 0) := by
  have hday := d.day_le
  have hmonth := d.one_le_month
  have hmonth' := d.month_le
  unfold next
  split
  · exact .inl ⟨rfl, rfl, rfl⟩
  · refine .inr ⟨by omega, ?_⟩
    unfold Date.marchYear Date.marchMonth
    split
    · refine ⟨rfl, ?_⟩
      dsimp only
      by_cases h : d.month = 2
      · right
        simp [h]
      · left
        by_cases hle : d.month ≤ 2
        · rw [if_pos hle, if_pos hle, if_pos (by omega), if_pos (by omega)]
          exact ⟨by omega, rfl, by omega⟩
        · rw [if_neg hle, if_neg hle, if_neg (by omega), if_neg (by omega)]
          exact ⟨by omega, rfl, by omega⟩
    · have h : d.month = 12 := by omega
      refine ⟨rfl, .inl ?_⟩
      simp [h]

/-- **Step**: a date and the next are a day apart. -/
theorem daysFromCivil_next (d : Date) : daysFromCivil (next d) = daysFromCivil d + 1 := by
  have hone := d.one_le_day
  rw [Date.daysFromCivil_eq, Date.daysFromCivil_eq]
  unfold Date.marchDay
  obtain ⟨hday, hyear, hmonth⟩ | ⟨hend, hday, ⟨hlt, hyear, hmonth⟩ | ⟨hlast, hyear, hmonth⟩⟩ :=
    next_cases d
  · rw [hday, hyear, hmonth]
    omega
  · rw [d.year_eq, d.month_eq] at hend
    have hsucc := monthStart_succ d.marchYear hlt
    rw [hday, hyear, hmonth]
    omega
  · rw [d.year_eq, d.month_eq, hlast] at hend
    have hyearEnd := yearEnd_eq d.marchYear
    rw [hday, hyear, hmonth, hlast, yearStart_succ]
    unfold monthStart at *
    omega

/-- Dates are told apart by their days. -/
theorem daysFromCivil_injective : Function.Injective daysFromCivil := by
  intro a b hab
  rw [Date.daysFromCivil_eq, Date.daysFromCivil_eq] at hab
  have ha := a.marchDay_lt_year
  have hb := b.marchDay_lt_year
  have hyear : a.marchYear = b.marchYear := by
    obtain h | h | h := lt_trichotomy a.marchYear b.marchYear
    · have hle := yearStart_le h
      have hsucc := yearStart_succ a.marchYear
      omega
    · exact h
    · have hle := yearStart_le h
      have hsucc := yearStart_succ b.marchYear
      omega
  have hday : a.marchDay = b.marchDay := by
    rw [hyear] at hab
    omega
  have hmonth : a.marchMonth = b.marchMonth := by
    have hla := a.marchMonth_le
    have hlb := b.marchMonth_le
    obtain h | h | h := lt_trichotomy a.marchMonth b.marchMonth
    · have hlt := a.marchDay_lt (by omega)
      unfold Date.marchDay monthStart at *
      omega
    · exact h
    · have hlt := b.marchDay_lt (by omega)
      unfold Date.marchDay monthStart at *
      omega
  refine Date.ext ?_ ?_ ?_
  · rw [a.year_eq, b.year_eq, hyear, hmonth]
  · rw [a.month_eq, b.month_eq, hmonth]
  · have hone := a.one_le_day
    have hone' := b.one_le_day
    unfold Date.marchDay at hday
    rw [hmonth] at hday
    omega

/-- The date so many days after the epoch. -/
def dateOf (n : Nat) : Date := next^[n] epoch

theorem dateOf_succ (n : Nat) : dateOf (n + 1) = next (dateOf n) :=
  Function.iterate_succ_apply' next n epoch

/-- **Run**: the date has as many days. -/
theorem daysFromCivil_dateOf (n : Nat) : daysFromCivil (dateOf n) = n := by
  induction n with
  | zero => decide
  | succ n ih =>
    rw [dateOf_succ, daysFromCivil_next, ih]
    rfl

/-- A date is told by its days. -/
theorem daysFromCivil_eq_iff {d : Date} {n : Nat} : daysFromCivil d = n ↔ d = dateOf n := by
  rw [← daysFromCivil_dateOf n]
  exact daysFromCivil_injective.eq_iff

end Calendar

end Ruletka
