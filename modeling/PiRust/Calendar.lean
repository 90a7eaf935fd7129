import Mathlib.Tactic.IntervalCases

/- The Gregorian calendar: its dates, the day that follows a date, and years that are counted
from the first of March, so that a leap day is the last day of its year. -/
namespace Calendar

def Leap (year : Int) : Prop := year % 4 = 0 ∧ (year % 100 ≠ 0 ∨ year % 400 = 0)

instance (year : Int) : Decidable (Leap year) := inferInstanceAs (Decidable (_ ∧ _))

def daysIn (year : Int) (month : Nat) : Nat :=
  if month = 2 then if Leap year then 29 else 28
  else if month = 4 ∨ month = 6 ∨ month = 9 ∨ month = 11 then 30
  else 31

theorem daysIn_pos (year : Int) (month : Nat) : 1 ≤ daysIn year month := by
  unfold daysIn
  repeat' split
  all_goals omega

@[ext] structure Date where
  year : Int
  month : Nat
  day : Nat
  month_pos : 1 ≤ month
  month_le : month ≤ 12
  day_pos : 1 ≤ day
  day_le : day ≤ daysIn year month

/-- The calendar successor of a day. -/
def Date.next (date : Date) : Date :=
  if inside : date.day < daysIn date.year date.month then
    { date with day := date.day + 1, day_pos := Nat.le_add_left 1 _, day_le := inside }
  else if before : date.month < 12 then
    { year := date.year, month := date.month + 1, day := 1,
      month_pos := Nat.le_add_left 1 _, month_le := before,
      day_pos := Nat.le_refl 1, day_le := daysIn_pos _ _ }
  else
    { year := date.year + 1, month := 1, day := 1,
      month_pos := Nat.le_refl 1, month_le := by omega,
      day_pos := Nat.le_refl 1, day_le := daysIn_pos _ _ }

def Date.after (date : Date) : Nat → Date
  | 0 => date
  | days + 1 => (date.after days).next

section march

/-- The days of the year that begins in March of `year`. -/
def marchLength (year : Nat) : Nat := if Leap (year + 1) then 366 else 365

/-- The days before March of `year`, counted from March of the year 0. -/
def marchStart (year : Nat) : Nat := 365 * year + year / 4 - year / 100 + year / 400

theorem marchLength_le (year : Nat) : marchLength year ≤ 366 := by
  unfold marchLength
  split <;> omega

theorem marchStart_succ (year : Nat) :
    marchStart (year + 1) = marchStart year + marchLength year := by
  have fewer : year / 100 ≤ year / 4 := Nat.div_le_div_left (by omega) (by omega)
  have counts (period : Nat) (positive : 0 < period) :
      (year + 1) / period = year / period + if (year + 1) % period = 0 then 1 else 0 := by
    rw [Nat.succ_div]
    simp only [Nat.dvd_iff_mod_eq_zero]
  have leap : Leap (year + 1) ↔
      (year + 1) % 4 = 0 ∧ ((year + 1) % 100 ≠ 0 ∨ (year + 1) % 400 = 0) := by
    unfold Leap
    omega
  have century : (year + 1) % 100 = 0 → (year + 1) % 4 = 0 := by omega
  have fourth : (year + 1) % 400 = 0 → (year + 1) % 100 = 0 := by omega
  simp only [marchStart, marchLength, leap, counts 4, counts 100, counts 400, Nat.reduceLT]
  generalize year / 4 = leaps, year / 100 = centuries, year / 400 = fourths at *
  by_cases far : (year + 1) % 400 = 0
  · simp only [far, fourth far, century (fourth far), if_true, true_and, or_true]
    omega
  · by_cases long : (year + 1) % 100 = 0
    · simp only [far, long, century long, if_true, if_false, ne_eq, not_true_eq_false, or_self,
        and_false]
      omega
    · simp only [far, long, if_false, ne_eq, not_false_eq_true, or_false, and_true]
      split <;> omega

def monthStart (month : Nat) : Nat := (153 * month + 2) / 5

def monthOf (day : Nat) : Nat := (5 * day + 2) / 153

theorem monthOf_le {day : Nat} (inside : day < 366) : monthOf day ≤ 11 := by
  unfold monthOf
  omega

theorem monthStart_le (day : Nat) : monthStart (monthOf day) ≤ day := by
  simp only [monthStart, monthOf]
  omega

theorem lt_monthStart (day : Nat) : day < monthStart (monthOf day + 1) := by
  simp only [monthStart, monthOf]
  omega

theorem monthOf_eq {month day : Nat} (begun : monthStart month ≤ day)
    (unfinished : day < monthStart (month + 1)) : monthOf day = month := by
  simp only [monthStart, monthOf] at *
  omega

def civilYear (year month : Nat) : Int := year + if month < 10 then 0 else 1

def civilMonth (month : Nat) : Nat := if month < 10 then month + 3 else month - 9

theorem daysIn_civil {month : Nat} (year : Nat) (inside : month ≤ 11) :
    monthStart month + daysIn (civilYear year month) (civilMonth month) =
      min (monthStart (month + 1)) (marchLength year) := by
  have long := marchLength_le year
  have short : 365 ≤ marchLength year := by
    unfold marchLength
    split <;> omega
  by_cases february : month = 11
  · subst february
    simp only [monthStart, daysIn, civilYear, civilMonth, marchLength]
    by_cases leap : Leap (year + 1) <;> simp [leap]
  · have earlier : month < 11 := by omega
    interval_cases month <;> simp [monthStart, daysIn, civilMonth] <;> omega

variable {year day : Nat}

/-- The day `day` of the year that begins in March of `year`. -/
def ofMarch (year day : Nat) (inside : day < marchLength year) : Date where
  year := civilYear year (monthOf day)
  month := civilMonth (monthOf day)
  day := day - monthStart (monthOf day) + 1
  month_pos := by
    unfold civilMonth
    split <;> omega
  month_le := by
    have := monthOf_le (Nat.lt_of_lt_of_le inside (marchLength_le year))
    unfold civilMonth
    split <;> omega
  day_pos := Nat.le_add_left 1 _
  day_le := by
    have within := monthOf_le (Nat.lt_of_lt_of_le inside (marchLength_le year))
    have ends := daysIn_civil year within
    have begun := monthStart_le day
    have unfinished := lt_monthStart day
    omega

variable {inside : day < marchLength year}

theorem next_inside (more : day + 1 < marchLength year) :
    (ofMarch year day inside).next = ofMarch year (day + 1) more := by
  have within := monthOf_le (Nat.lt_of_lt_of_le inside (marchLength_le year))
  have ends := daysIn_civil year within
  have begun := monthStart_le day
  have unfinished := lt_monthStart day
  by_cases last : day + 1 = monthStart (monthOf day + 1)
  · have month : monthOf (day + 1) = monthOf day + 1 := by
      apply monthOf_eq (Nat.le_of_eq last.symm)
      simp only [monthStart] at *
      omega
    have full : ¬ (ofMarch year day inside).day < daysIn (ofMarch year day inside).year
        (ofMarch year day inside).month := by
      show ¬ day - monthStart (monthOf day) + 1 <
        daysIn (civilYear year (monthOf day)) (civilMonth (monthOf day))
      omega
    have later := monthOf_le (Nat.lt_of_lt_of_le more (marchLength_le year))
    rw [Date.next, dif_neg full]
    split
    · next before =>
      have early : civilMonth (monthOf day) < 12 := before
      ext
      · show civilYear year (monthOf day) = civilYear year (monthOf (day + 1))
        rw [month]
        unfold civilMonth at early
        unfold civilYear
        split at early <;> split <;> split <;> omega
      · show civilMonth (monthOf day) + 1 = civilMonth (monthOf (day + 1))
        rw [month]
        unfold civilMonth at early ⊢
        split at early <;> split <;> split <;> omega
      · show 1 = day + 1 - monthStart (monthOf (day + 1)) + 1
        rw [month, ← last]
        omega
    · next december =>
      have late : ¬ civilMonth (monthOf day) < 12 := december
      have nine : monthOf day = 9 := by
        unfold civilMonth at late
        split at late <;> omega
      ext
      · show civilYear year (monthOf day) + 1 = civilYear year (monthOf (day + 1))
        simp [civilYear, month, nine]
      · show 1 = civilMonth (monthOf (day + 1))
        simp [civilMonth, month, nine]
      · show 1 = day + 1 - monthStart (monthOf (day + 1)) + 1
        rw [month, ← last]
        omega
  · have month : monthOf (day + 1) = monthOf day := monthOf_eq (Nat.le_succ_of_le begun) (by omega)
    have room : (ofMarch year day inside).day < daysIn (ofMarch year day inside).year
        (ofMarch year day inside).month := by
      show day - monthStart (monthOf day) + 1 <
        daysIn (civilYear year (monthOf day)) (civilMonth (monthOf day))
      omega
    rw [Date.next, dif_pos room]
    ext
    · show civilYear year (monthOf day) = civilYear year (monthOf (day + 1))
      rw [month]
    · show civilMonth (monthOf day) = civilMonth (monthOf (day + 1))
      rw [month]
    · show day - monthStart (monthOf day) + 1 + 1 = day + 1 - monthStart (monthOf (day + 1)) + 1
      rw [month]
      omega

theorem marchLength_pos (year : Nat) : 0 < marchLength year := by
  unfold marchLength
  split <;> omega

theorem next_last (last : day + 1 = marchLength year) :
    (ofMarch year day inside).next = ofMarch (year + 1) 0 (marchLength_pos (year + 1)) := by
  have long := marchLength_le year
  have february : monthOf day = 11 := by
    have short : 365 ≤ marchLength year := by
      unfold marchLength
      split <;> omega
    unfold monthOf
    omega
  have ends := daysIn_civil year (Nat.le_of_eq february)
  have begun := monthStart_le day
  have full : ¬ (ofMarch year day inside).day < daysIn (ofMarch year day inside).year
      (ofMarch year day inside).month := by
    show ¬ day - monthStart (monthOf day) + 1 <
      daysIn (civilYear year (monthOf day)) (civilMonth (monthOf day))
    omega
  have before : (ofMarch year day inside).month < 12 := by
    show civilMonth (monthOf day) < 12
    simp [civilMonth, february]
  rw [Date.next, dif_neg full, dif_pos before]
  ext
  · show civilYear year (monthOf day) = civilYear (year + 1) (monthOf 0)
    rw [february]
    simp [civilYear, monthOf]
  · show civilMonth (monthOf day) + 1 = civilMonth (monthOf 0)
    rw [february]
    simp [civilMonth, monthOf]
  · show 1 = 0 - monthStart (monthOf 0) + 1
    simp

theorem after_ofMarch (inside : day < marchLength year) (days : Nat) :
    ∃ laterYear laterDay, ∃ within : laterDay < marchLength laterYear,
      (ofMarch year day inside).after days = ofMarch laterYear laterDay within ∧
        marchStart laterYear + laterDay = marchStart year + day + days := by
  induction days with
  | zero => exact ⟨year, day, inside, rfl, rfl⟩
  | succ days ih =>
    obtain ⟨laterYear, laterDay, within, same, counted⟩ := ih
    by_cases more : laterDay + 1 < marchLength laterYear
    · refine ⟨laterYear, laterDay + 1, more, ?_, by omega⟩
      rw [Date.after, same, next_inside more]
    · refine ⟨laterYear + 1, 0, marchLength_pos _, ?_, ?_⟩
      · rw [Date.after, same, next_last (by omega)]
      · rw [marchStart_succ]
        omega

end march

end Calendar
