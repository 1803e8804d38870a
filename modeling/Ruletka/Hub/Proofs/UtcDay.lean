/-
The calendar day is the Gregorian one.

A day of an era is a century, a group of four years, a year and a day of it;
the corrections of the source, one day for each leap day passed, leave
exactly the year. The date of a day number is then valid, and its days from
the epoch are that number.
-/
import Ruletka.Hub.UtcDay
import Ruletka.Lib.Calendar

namespace Ruletka

namespace DayMetrics

open Checked Calendar

-- ========================================================================= the year

/-- A day of an era: the centuries, the groups of four years, the years and
the days before it. -/
structure DayOfEra (doe c q r o : Nat) : Prop where
  eq : doe = 36524 * c + 1461 * q + 365 * r + o
  c_le : c ≤ 3
  q_le : q ≤ 24
  r_le : r ≤ 3
  o_le : o ≤ 365
  leap : o = 365 → r = 3 ∧ (q = 24 → c = 3)

theorem exists_dayOfEra {doe : Nat} (h : doe < 146097) : ∃ c q r o, DayOfEra doe c q r o := by
  let c := min (doe / 36524) 3
  let rest := doe - 36524 * c
  let r := min (rest % 1461 / 365) 3
  refine ⟨c, rest / 1461, r, rest % 1461 - 365 * r, ?_, ?_, ?_, ?_, ?_, ?_⟩
  all_goals simp only [c, rest, r]
  all_goals omega

variable {doe c q r o : Nat}

/-- The corrected day lies in the year that has the day. -/
theorem DayOfEra.year_eq (h : DayOfEra doe c q r o) :
    (doe - doe / 1460 + doe / 36524 - doe / 146096) / 365 = 100 * c + 4 * q + r := by
  obtain ⟨heq, hc, hq, hr, ho, hleap⟩ := h
  -- what is left of each quotient counts a leap day that is just passed
  obtain ⟨e, he⟩ : ∃ e, e = (24 * c + q + 365 * r + o) / 1460 := ⟨_, rfl⟩
  obtain ⟨f, hf⟩ : ∃ f, f = (1461 * q + 365 * r + o) / 36524 := ⟨_, rfl⟩
  obtain ⟨g, hg⟩ : ∃ g, g = doe / 146096 := ⟨_, rfl⟩
  have h1460 : doe / 1460 = 25 * c + q + e := by omega
  have h36524 : doe / 36524 = c + f := by omega
  have he' : e ≤ 1 ∧ (e = 1 → 1 ≤ o) ∧ (o = 365 → e = 1) := by omega
  have hfg : f = g := by omega
  rw [h1460, h36524, ← hg]
  clear h1460 h36524 he hf hg
  omega

theorem DayOfEra.lt (h : DayOfEra doe c q r o) : doe < 146097 := by
  obtain ⟨heq, hc, hq, hr, ho, hleap⟩ := h
  omega

theorem DayOfEra.yearOfEra (h : DayOfEra doe c q r o) :
    yearOfEra doe = some (100 * c + 4 * q + r) := by
  have hlt := h.lt
  have h₁ : sub doe (doe / 1460) = some (doe - doe / 1460) := sub_of_le (by omega)
  have h₂ : add (doe - doe / 1460) (doe / 36524) = some (doe - doe / 1460 + doe / 36524) :=
    add_of_lt (by omega)
  have h₃ : sub (doe - doe / 1460 + doe / 36524) (doe / 146096)
      = some (doe - doe / 1460 + doe / 36524 - doe / 146096) := sub_of_le (by omega)
  unfold DayMetrics.yearOfEra
  simp only [Option.bind_eq_bind, Option.bind_some, h₁, h₂, h₃, h.year_eq]

theorem DayOfEra.dayOfYear (h : DayOfEra doe c q r o) :
    dayOfYear doe (100 * c + 4 * q + r) = some o := by
  obtain ⟨heq, hc, hq, hr, ho, -⟩ := h
  have h₁ : mul 365 (100 * c + 4 * q + r) = some (365 * (100 * c + 4 * q + r)) :=
    mul_of_lt (by omega)
  have h4 : (100 * c + 4 * q + r) / 4 = 25 * c + q := by omega
  have h100 : (100 * c + 4 * q + r) / 100 = c := by omega
  have h₂ : add (365 * (100 * c + 4 * q + r)) (25 * c + q)
      = some (365 * (100 * c + 4 * q + r) + (25 * c + q)) := add_of_lt (by omega)
  have h₃ : sub (365 * (100 * c + 4 * q + r) + (25 * c + q)) c = some (doe - o) := by
    rw [sub_of_le (by omega)]
    exact congrArg some (by omega)
  have h₄ : sub doe (doe - o) = some o := by
    rw [sub_of_le (by omega)]
    exact congrArg some (by omega)
  unfold DayMetrics.dayOfYear
  simp only [Option.bind_eq_bind, Option.bind_some, h4, h100, h₁, h₂, h₃, h₄]

theorem dayAndMonth_eq (ho : o ≤ 365) : dayAndMonth o
    = some (o - monthStart ((5 * o + 2) / 153) + 1, monthOf ((5 * o + 2) / 153)) := by
  obtain ⟨mp, hmp⟩ : ∃ mp, mp = (5 * o + 2) / 153 := ⟨_, rfl⟩
  have h₁ : mul 5 o = some (5 * o) := mul_of_lt (by omega)
  have h₂ : add (5 * o) 2 = some (5 * o + 2) := add_of_lt (by omega)
  have h₃ : mul 153 mp = some (153 * mp) := mul_of_lt (by omega)
  have h₄ : add (153 * mp) 2 = some (153 * mp + 2) := add_of_lt (by omega)
  have h₅ : sub o ((153 * mp + 2) / 5) = some (o - monthStart mp) := sub_of_le (by omega)
  have h₆ : add (o - monthStart mp) 1 = some (o - monthStart mp + 1) := add_of_lt (by omega)
  unfold dayAndMonth monthOf
  simp only [Option.bind_eq_bind, Option.bind_some, h₁, h₂, ← hmp, h₃, h₄, h₅, h₆]
  split
  · rw [add_of_lt (by omega), Option.bind_some]
  · rw [sub_of_le (by omega), Option.bind_some]

theorem eraOf_natCast (n : Nat) : eraOf n = some ((n / 146097 : Nat) : Int) := by
  unfold eraOf
  rw [if_pos (Int.natCast_nonneg n)]
  exact congrArg some (Int.ofNat_tdiv n 146097).symm

theorem DayOfEra.yearStart_eq (h : DayOfEra doe c q r o) (era : Int) :
    yearStart (era * 400 + (100 * c + 4 * q + r : Nat)) = era * 146097 + (doe - o) := by
  obtain ⟨heq, hc, hq, hr, -, -⟩ := h
  have hyear : ((100 * c + 4 * q + r : Nat) : Int) = 100 * c + 4 * q + r := by omega
  have h4 : (era * 400 + (100 * c + 4 * q + r)) / 4 = 100 * era + 25 * c + q := by omega
  have h100 : (era * 400 + (100 * c + 4 * q + r)) / 100 = 4 * era + c := by omega
  have h400 : (era * 400 + (100 * c + 4 * q + r)) / 400 = era := by omega
  unfold yearStart
  rw [hyear, h4, h100, h400]
  omega

/-- The last day of a long year is a leap day. -/
theorem DayOfEra.lt_yearEnd (h : DayOfEra doe c q r o) (era : Int) :
    o < 365 + leapDay (era * 400 + (100 * c + 4 * q + r : Nat) + 1) := by
  obtain ho | ho := Nat.lt_or_ge o 365
  · omega
  · obtain ⟨hr, hcentury⟩ := h.leap (Nat.le_antisymm h.o_le ho)
    have hc := h.c_le
    have hq := h.q_le
    have hleap : IsLeap (era * 400 + (100 * c + 4 * q + r : Nat) + 1) := by
      unfold IsLeap
      omega
    have hone : leapDay (era * 400 + (100 * c + 4 * q + r : Nat) + 1) = 1 := if_pos hleap
    have := h.o_le
    omega

-- ==================================================================== the whole date

/-- The date of a day of an era. -/
theorem DayOfEra.exists_date (h : DayOfEra doe c q r o) (era : Int) :
    ∃ date : Date, date.day = o - monthStart ((5 * o + 2) / 153) + 1
      ∧ date.month = monthOf ((5 * o + 2) / 153)
      ∧ date.year = yearOf (era * 400 + (100 * c + 4 * q + r : Nat)) ((5 * o + 2) / 153)
      ∧ daysFromCivil date = era * 146097 + doe - 719468 := by
  have ho := h.o_le
  have hyear := h.lt_yearEnd era
  generalize hy : era * 400 + ((100 * c + 4 * q + r : Nat) : Int) = y at *
  obtain ⟨mp, hmp⟩ : ∃ mp, mp = (5 * o + 2) / 153 := ⟨_, rfl⟩
  rw [← hmp]
  have hmp' : mp ≤ 11 := by omega
  have hstart : monthStart mp ≤ o := by
    unfold monthStart
    omega
  have hday : o - monthStart mp + 1 ≤ monthLength (yearOf y mp) (monthOf mp) := by
    obtain hlt | hlast := Nat.lt_or_eq_of_le hmp'
    · have hsucc := monthStart_succ y hlt
      have hnext : o < monthStart (mp + 1) := by
        unfold monthStart
        omega
      omega
    · have hend := yearEnd_eq y
      rw [hlast] at hstart ⊢
      omega
  obtain ⟨date, hdateY, hdateM, hdateD, hmarchY, hmarchM⟩ :=
    Date.exists_of_march hmp' (Nat.le_add_left 1 _) hday
  refine ⟨date, hdateD, hdateM, hdateY, ?_⟩
  have hmarch : date.marchDay = o := by
    unfold Date.marchDay
    rw [hmarchM, hdateD]
    omega
  rw [date.daysFromCivil_eq, hmarchY, hmarch, ← hy, h.yearStart_eq]
  omega

/-- What the source keeps of a date. -/
def parts (date : Date) : Int × Nat × Nat := (date.year, date.month, date.day)

/-- **Run**: every step stays in its range, and the date is the one so many
days after the epoch. -/
theorem civil_eq {days : Nat} (h : days + 719468 < 2 ^ 63) :
    civil days = some (parts (dateOf days)) := by
  obtain ⟨z, hz⟩ : ∃ z, z = days + 719468 := ⟨_, rfl⟩
  obtain ⟨era, hera⟩ : ∃ era, era = z / 146097 := ⟨_, rfl⟩
  obtain ⟨doe, hdoe⟩ : ∃ doe, doe = z % 146097 := ⟨_, rfl⟩
  obtain ⟨c, q, r, o, hd⟩ := @exists_dayOfEra doe (by omega)
  obtain ⟨date, hday, hmonth, hyear, hcount⟩ := hd.exists_date era
  have hdate : date = dateOf days := daysFromCivil_eq_iff.mp (by omega)
  have hlt := hd.lt
  have hyoe : 100 * c + 4 * q + r < 400 := by
    have := hd.c_le
    have := hd.q_le
    have := hd.r_le
    omega
  have hyearOf := hd.yearOfEra
  have hdayOf := hd.dayOfYear
  generalize 100 * c + 4 * q + r = yoe at *
  have h₀ : int (asInt days + 719468) = some (z : Int) := by
    rw [asInt_of_lt (by omega), show (days : Int) + 719468 = z by omega]
    exact int_of_lt (by omega) (by omega)
  have h₁ : int ((era : Int) * 146097) = some ((era : Int) * 146097) :=
    int_of_lt (by omega) (by omega)
  have h₂ : int ((z : Int) - (era : Int) * 146097) = some (doe : Int) := by
    rw [show (z : Int) - (era : Int) * 146097 = doe by omega]
    exact int_of_lt (by omega) (by omega)
  have h₃ : int ((era : Int) * 400) = some ((era : Int) * 400) := int_of_lt (by omega) (by omega)
  have h₄ : int (asInt yoe + (era : Int) * 400) = some ((era : Int) * 400 + (yoe : Int)) := by
    rw [asInt_of_lt (by omega), Int.add_comm]
    exact int_of_lt (by omega) (by omega)
  have hera' : eraOf z = some (era : Int) := by rw [eraOf_natCast, ← hera]
  rw [← asNat_natCast (show doe < 2 ^ 64 by omega)] at hyearOf hdayOf
  refine bind_eq h₀ (bind_eq hera' (bind_eq h₁ (bind_eq h₂ ?_)))
  refine bind_eq hyearOf (bind_eq h₃ (bind_eq h₄ (bind_eq hdayOf ?_)))
  refine bind_eq (dayAndMonth_eq hd.o_le) ?_
  rw [← hdate]
  unfold parts
  rw [hday, hmonth, hyear]
  dsimp only
  unfold yearOf
  split
  · exact bind_eq (int_of_lt (by omega) (by omega)) rfl
  · rfl

/-- Year, month and day, with a line between them. -/
def text (date : Date) : String :=
  pad 4 date.year ++ "-" ++ pad 2 date.month ++ "-" ++ pad 2 date.day

/-- **Calendar day**: the day is the Gregorian date as many days after the
first of January 1970, the only one with this number of days, and the next
day has the next date. -/
theorem utcDay_gregorian {secs : Nat} (hfits : secs / 86400 + 719468 < 2 ^ 63) :
    civil (secs / 86400) = some (parts (dateOf (secs / 86400)))
      ∧ utcDay secs = some (text (dateOf (secs / 86400)))
      ∧ (∀ date, daysFromCivil date = (secs / 86400 : Nat) ↔ date = dateOf (secs / 86400))
      ∧ (secs / 86400 + 1 + 719468 < 2 ^ 63 →
          civil (secs / 86400 + 1) = some (parts (next (dateOf (secs / 86400))))) := by
  refine ⟨civil_eq hfits, bind_eq (civil_eq hfits) rfl, fun date => daysFromCivil_eq_iff, ?_⟩
  intro hnext
  rw [← dateOf_succ]
  exact civil_eq hnext

/-- The leap day of a year that 400 divides. -/
def leapDay2000 : Date := ⟨2000, 2, 29, by decide, by decide, by decide, by decide⟩

/-- It is the day of this second, and the first of March comes after it. -/
theorem utcDay_gregorian_leap :
    civil 11016 = some (2000, 2, 29) ∧ civil 11017 = some (2000, 3, 1) := by
  obtain ⟨hcivil, -, hdate, hnext⟩ := @utcDay_gregorian 951782400 (by decide)
  rw [← (hdate leapDay2000).mp (by decide)] at hcivil hnext
  exact ⟨hcivil, hnext (by decide)⟩

end DayMetrics

end Ruletka
