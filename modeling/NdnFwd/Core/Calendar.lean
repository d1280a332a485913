import Mathlib.Algebra.BigOperators.Intervals
import Mathlib.Tactic.IntervalCases

/-!
# The proleptic Gregorian calendar

Days are counted from the first of January 1970, year by year and month by month, by the rule of
leap years. Counting years from the first of March instead puts the leap day at the end of a year:
the first day of such a year has a formula, every four hundred of them make an era of the same
length, and the months before a day of the year have a formula too.
-/

namespace NdnFwd

namespace Calendar

/-- The rule of leap years. -/
def IsLeap (y : Nat) : Prop := 4 ∣ y ∧ (¬100 ∣ y ∨ 400 ∣ y)

instance (y : Nat) : Decidable (IsLeap y) := inferInstanceAs (Decidable (_ ∧ _))

/-- The days that the year has more than 365. -/
def leapDay (y : Nat) : Nat := if IsLeap y then 1 else 0

/-- The days of a year. -/
def yearLength (y : Nat) : Nat := 365 + leapDay y

/-- The days of a month of a year. -/
def monthLength (y : Nat) : Nat → Nat
  | 2 => 28 + leapDay y
  | 4 | 6 | 9 | 11 => 30
  | _ => 31

/-- The calendar has this date. -/
structure IsDate (y m d : Nat) : Prop where
  one_le_month : 1 ≤ m
  month_le : m ≤ 12
  one_le_day : 1 ≤ d
  day_le : d ≤ monthLength y m

/-- The days from 1970-01-01 to a date. -/
def dayNumber (y m d : Nat) : Nat :=
  ∑ i ∈ Finset.Ico 1970 y, yearLength i + ∑ i ∈ Finset.Ico 1 m, monthLength y i + (d - 1)

/-- The days from 0000-03-01 to the first of March of a year. -/
def marchStart (y : Nat) : Nat := 365 * y + y / 4 - y / 100 + y / 400

/-- The days from the first of March to the beginning of a month, counted from March on. -/
def monthStart (mp : Nat) : Nat := (153 * mp + 2) / 5

/-- The days from 0000-03-01 to 1970-01-01. -/
def epochShift : Nat := 719468

section March

variable {y mp doy : Nat}

/-- A year from March on ends with the leap day of the next one. -/
theorem marchStart_succ (y : Nat) : marchStart (y + 1) = marchStart y + 365 + leapDay (y + 1) := by
  have hle : y / 100 ≤ y := Nat.div_le_self y 100
  unfold marchStart leapDay IsLeap
  rw [Nat.succ_div, Nat.succ_div, Nat.succ_div]
  generalize y / 100 = c at hle
  -- each of the three divisors divides the next
  by_cases h4 : 4 ∣ y + 1
  · by_cases h100 : 100 ∣ y + 1
    · by_cases h400 : 400 ∣ y + 1
      · simp only [h4, h100, h400, if_true, true_and, or_true]
        omega
      · simp only [h4, h100, h400, if_true, if_false, not_true, or_false, and_false]
        omega
    · have h400 : ¬400 ∣ y + 1 := fun h => h100 (Dvd.dvd.trans (by decide) h)
      simp only [h4, h100, h400, if_true, if_false, not_false_eq_true, true_or, and_true]
      omega
  · have h100 : ¬100 ∣ y + 1 := fun h => h4 (Dvd.dvd.trans (by decide) h)
    have h400 : ¬400 ∣ y + 1 := fun h => h4 (Dvd.dvd.trans (by decide) h)
    simp only [h4, h100, h400, if_false, false_and]
    omega

private theorem marchStart_mono : Monotone marchStart :=
  monotone_nat_of_le_succ fun y => by
    rw [marchStart_succ, Nat.add_assoc]
    exact Nat.le_add_right _ _

/-- Eras have the same length, and leap years in the same places. -/
theorem marchStart_era (y era : Nat) :
    marchStart (y + 400 * era) = marchStart y + 146097 * era := by
  unfold marchStart
  omega

/-- Leap days recur every 400 years. -/
theorem leapDay_era (y era : Nat) : leapDay (y + 400 * era) = leapDay y := by
  have hleap : IsLeap (y + 400 * era) ↔ IsLeap y := by
    unfold IsLeap
    omega
  simp only [leapDay, hleap]

/-- The first of January falls 306 days after the first of March. -/
theorem sum_yearLength (h : 1970 ≤ y) :
    ∑ i ∈ Finset.Ico 1970 y, yearLength i + epochShift = marchStart (y - 1) + 306 := by
  induction y, h using Nat.le_induction with
  | base => rfl
  | succ y h ih =>
    obtain ⟨x, rfl⟩ := Nat.exists_eq_add_of_le' (Nat.le_trans (by decide : 1 ≤ 1970) h)
    rw [Finset.sum_Ico_succ_top h, Nat.add_sub_cancel, marchStart_succ, yearLength]
    rw [Nat.add_sub_cancel] at ih
    omega

/-- The formula steps by the length of the month, from March to December. -/
theorem monthStart_succ (y : Nat) (h : mp ≤ 9) :
    monthStart (mp + 1) = monthStart mp + monthLength y (mp + 3) := by
  interval_cases mp <;> rfl

/-- The days before a month from March on. -/
theorem sum_monthLength_march (h : mp ≤ 9) :
    ∑ i ∈ Finset.Ico 1 (mp + 3), monthLength y i = 59 + leapDay y + monthStart mp := by
  induction mp with
  | zero =>
    change ∑ i ∈ Finset.Ico 1 3, monthLength y i = 59 + leapDay y
    rw [Finset.sum_Ico_succ_top (by decide), Finset.sum_Ico_succ_top (by decide), Finset.Ico_self,
      Finset.sum_empty]
    change 0 + 31 + (28 + leapDay y) = 59 + leapDay y
    omega
  | succ mp ih =>
    have hstep := monthStart_succ y (Nat.le_of_succ_le h)
    rw [Nat.add_right_comm, Finset.sum_Ico_succ_top (by omega), ih (by omega), hstep,
      Nat.add_assoc]

/-- The date that is `doy` days after the first of March. -/
theorem dayNumber_march (hy : 1970 ≤ y) (hmp : mp ≤ 9) (hd : monthStart mp ≤ doy) :
    dayNumber y (mp + 3) (doy - monthStart mp + 1) + epochShift = marchStart y + doy := by
  obtain ⟨x, rfl⟩ := Nat.exists_eq_add_of_le' (Nat.le_trans (by decide : 1 ≤ 1970) hy)
  have hyears := sum_yearLength hy
  have hnext := marchStart_succ x
  rw [Nat.add_sub_cancel] at hyears
  rw [dayNumber, sum_monthLength_march hmp]
  omega

/-- The same for the two months after the end of the year. -/
theorem dayNumber_january (hy : 1970 ≤ y + 1) (hlow : 10 ≤ mp) (hmp : mp ≤ 11)
    (hd : monthStart mp ≤ doy) :
    dayNumber (y + 1) (mp - 9) (doy - monthStart mp + 1) + epochShift = marchStart y + doy := by
  have hyears := sum_yearLength hy
  rw [Nat.add_sub_cancel] at hyears
  have hmonths : ∑ i ∈ Finset.Ico 1 (mp - 9), monthLength (y + 1) i + 306 = monthStart mp := by
    interval_cases mp <;> rfl
  rw [dayNumber]
  omega

end March

section Eras

variable {doe c q k doy : Nat}

/-- A day of an era falls into a century, in it into four years, and of these into one year. Only
the last year of four is longer, and of four centuries only the last. -/
theorem exists_year_of_era (h : doe < 146097) :
    ∃ c q k doy, doe = 36524 * c + 1461 * q + 365 * k + doy ∧ c ≤ 3 ∧ q ≤ 24 ∧ k ≤ 3 ∧
      (doy < 365 ∨ doy = 365 ∧ k = 3 ∧ (q < 24 ∨ c = 3)) := by
  obtain ⟨c, r, hdoe, hc, hr⟩ : ∃ c r, doe = 36524 * c + r ∧ c ≤ 3 ∧
      (r < 36524 ∨ r = 36524 ∧ c = 3) := by
    by_cases hlast : doe = 146096
    · exact ⟨3, 36524, by omega⟩
    · exact ⟨doe / 36524, doe % 36524, by omega⟩
  obtain ⟨q, t, hrest, hq, ht⟩ : ∃ q t, r = 1461 * q + t ∧ q ≤ 24 ∧
      (t < 1460 ∨ t = 1460 ∧ (q < 24 ∨ c = 3)) :=
    ⟨r / 1461, r % 1461, by omega⟩
  by_cases hlast : t = 1460
  · exact ⟨c, q, 3, 365, by omega⟩
  · exact ⟨c, q, t / 365, t % 365, by omega⟩

/-- The start of a year, by its century, its place among the leap years and the rest. -/
theorem marchStart_of_era (hc : c ≤ 3) (hq : q ≤ 24) (hk : k ≤ 3) :
    marchStart (100 * c + 4 * q + k) = 36524 * c + 1461 * q + 365 * k := by
  unfold marchStart
  omega

/-- A day of an era is a day of its year. -/
theorem lt_of_era (hq : q ≤ 24) (hdoy : doy < 365 ∨ doy = 365 ∧ k = 3 ∧ (q < 24 ∨ c = 3)) :
    doy < 365 + leapDay (100 * c + 4 * q + k + 1) := by
  rcases hdoy with hlt | ⟨rfl, rfl, hlong⟩
  · omega
  · have hleap : IsLeap (100 * c + 4 * q + 3 + 1) := by
      unfold IsLeap
      omega
    rw [leapDay, if_pos hleap]
    omega

end Eras

section Months

variable {y doy mp : Nat}

private theorem leapDay_le (y : Nat) : leapDay y ≤ 1 := by
  unfold leapDay
  split_ifs <;> omega

/-- The month of a day, counted from March on. -/
theorem month_of_day (h : doy ≤ 365) (hmp : mp = (5 * doy + 2) / 153) :
    mp ≤ 11 ∧ monthStart mp ≤ doy ∧ (mp ≤ 10 → doy < monthStart (mp + 1)) := by
  unfold monthStart
  omega

/-- Up to December, the day is one of the month. -/
theorem day_le_march (h : mp ≤ 9) (hdoy : doy < monthStart (mp + 1)) :
    doy - monthStart mp + 1 ≤ monthLength y (mp + 3) := by
  rw [monthStart_succ y h] at hdoy
  have hpos : 0 < monthLength y (mp + 3) := by interval_cases mp <;> exact Nat.succ_pos _
  omega

/-- So it is in January and February of the next year. -/
theorem day_le_january (hlow : 10 ≤ mp) (hmp : mp ≤ 11)
    (hdoy : mp ≤ 10 → doy < monthStart (mp + 1)) (h : doy < 365 + leapDay y) :
    doy - monthStart mp + 1 ≤ monthLength y (mp - 9) := by
  unfold monthStart at *
  interval_cases mp <;> simp only [monthLength] <;> omega

/-- The month that is the `mp`-th from March on. -/
def monthOf (mp : Nat) : Nat := if mp < 10 then mp + 3 else mp - 9

/-- The year of a month in a year from March on. -/
def yearOf (y m : Nat) : Nat := if m ≤ 2 then y + 1 else y

/-- A day of a year from March on, not before 1970, as a date. -/
theorem date_of_march (h : doy < 365 + leapDay (y + 1)) (hmp : mp = (5 * doy + 2) / 153)
    (hepoch : epochShift ≤ marchStart y + doy) :
    IsDate (yearOf y (monthOf mp)) (monthOf mp) (doy - monthStart mp + 1) ∧
      dayNumber (yearOf y (monthOf mp)) (monthOf mp) (doy - monthStart mp + 1) + epochShift =
        marchStart y + doy := by
  have hleap := leapDay_le (y + 1)
  obtain ⟨hle, hstart, hnext⟩ := month_of_day (by omega) hmp
  have h1969 : marchStart 1969 + 306 = epochShift := rfl
  by_cases hlow : mp < 10
  · have hy : 1970 ≤ y := by
      by_contra hy
      have hmono := marchStart_mono (Nat.le_of_lt_succ (Nat.not_le.mp hy))
      have hday : doy < 306 := (hnext (by omega)).trans_le (by unfold monthStart; omega)
      omega
    have hmonth : monthOf mp = mp + 3 := if_pos hlow
    have hyear : yearOf y (mp + 3) = y := if_neg (by omega)
    rw [hmonth, hyear]
    refine ⟨⟨by omega, by omega, by omega, ?_⟩, ?_⟩
    · exact day_le_march (by omega) (hnext (by omega))
    · exact dayNumber_march hy (by omega) hstart
  · have hy : 1970 ≤ y + 1 := by
      by_contra hy
      have hmono := marchStart_mono (show y + 1 ≤ 1969 by omega)
      have hsucc := marchStart_succ y
      omega
    have hmonth : monthOf mp = mp - 9 := if_neg hlow
    have hyear : yearOf y (mp - 9) = y + 1 := if_pos (by omega)
    rw [hmonth, hyear]
    refine ⟨⟨by omega, by omega, by omega, ?_⟩, ?_⟩
    · exact day_le_january (by omega) hle hnext h
    · exact dayNumber_january hy (by omega) hle hstart

end Months

end Calendar

end NdnFwd
