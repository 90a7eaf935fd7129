import PiRust.Calendar

/- `bedrock/datetime.rs`: the date and the time stamp with which a request is signed. -/
namespace PiRust.DateTime

open Calendar

/-- What an `i64` operation yields; there is nothing where it overflows. -/
def i64 (value : Int) : Option Int := if -2 ^ 63 ≤ value ∧ value < 2 ^ 63 then some value else none

/-- `as u32`. -/
def asU32 (value : Int) : Nat := (value % 2 ^ 32).toNat

/-- `u64 as i64`. -/
def asI64 (value : Nat) : Int := if value < 2 ^ 63 then value else value - 2 ^ 64

def civilFromDays (daysSinceUnixEpoch : Int) : Option (Int × Nat × Nat) := do
  let z ← i64 (daysSinceUnixEpoch + 719468)
  let era := (← if z ≥ 0 then some z else i64 (z - 146096)) / 146097
  let doe ← i64 (z - (← i64 (era * 146097)))
  -- What is computed from `doe` alone is far below the bounds of an `i64`.
  let yoe := (doe - doe.tdiv 1460 + doe.tdiv 36524 - doe.tdiv 146096) / 365
  let y ← i64 (yoe + (← i64 (era * 400)))
  let doy := doe - (365 * yoe + yoe.tdiv 4 - yoe.tdiv 100)
  let mp := (5 * doy + 2) / 153
  let d := doy - (153 * mp + 2) / 5 + 1
  let m := mp + if mp < 10 then 3 else -9
  let year ← i64 (y + if m ≤ 2 then 1 else 0)
  return (year, asU32 m, asU32 d)

/-- `{:0width}`: zeros go between the sign and the digits. -/
def padded (width : Nat) (value : Int) : String :=
  let sign := if value < 0 then "-" else ""
  let digits := toString value.natAbs
  sign ++ String.ofList (List.replicate (width - (sign ++ digits).length) '0') ++ digits

def dateText (year : Int) (month day : Nat) : String :=
  padded 4 year ++ padded 2 month ++ padded 2 day

/-- `current_aws_dates` on what `duration_since` answers: whole seconds, or nothing where the clock
is before the epoch. -/
def currentAwsDates (sinceEpoch : Option Nat) : Option (String × String) := do
  let now := asI64 (sinceEpoch.getD 0)
  let days := now / 86400
  let seconds := now % 86400
  let (year, month, day) ← civilFromDays days
  let hour := seconds.tdiv 3600
  let minute := (seconds.tmod 3600).tdiv 60
  let second := seconds.tmod 60
  let date := dateText year month day
  return (date, date ++ "T" ++ padded 2 hour ++ padded 2 minute ++ padded 2 second ++ "Z")

example : civilFromDays 11016 = some (2000, 2, 29) := by decide
example : currentAwsDates (some 86399) = some ("19700101", "19700101T235959Z") := by decide

def epoch : Date := ⟨1970, 1, 1, Nat.one_pos, by decide, Nat.one_pos, by decide⟩

section years

variable {year day : Nat}

theorem yearOfEra_split {century fourth rest doe : Nat} (centuries : century < 4)
    (fourths : fourth < 25) (rests : rest < 4)
    (inside : day < 365 ∨ day = 365 ∧ rest = 3 ∧ (fourth < 24 ∨ century = 3))
    (here : doe = 36524 * century + 1461 * fourth + 365 * rest + day) :
    (doe - doe / 1460 + doe / 36524 - doe / 146096) / 365 = 100 * century + 4 * fourth + rest := by
  have eras : doe / 146096 = if doe = 146096 then 1 else 0 := by
    split <;> omega
  have hundreds : doe / 36524 = century + doe / 146096 := by
    rw [eras]
    split <;> omega
  have fours : doe / 1460 = 25 * century + fourth +
      (24 * century + fourth + 365 * rest + day) / 1460 := by omega
  rw [hundreds, fours]
  clear hundreds eras fours
  have near : (24 * century + fourth + 365 * rest + day) / 1460 ≤ day ∧
      day < 365 + (24 * century + fourth + 365 * rest + day) / 1460 := by
    clear here
    constructor <;> omega
  generalize (24 * century + fourth + 365 * rest + day) / 1460 = late, doe / 146096 = era at *
  have whole : doe - (25 * century + fourth + late) + (century + era) - era =
      365 * (100 * century + 4 * fourth + rest) + (day - late) := by omega
  rw [whole, Nat.mul_add_div (by decide), Nat.div_eq_of_lt (by omega), Nat.add_zero]

theorem yearOfEra_eq (early : year < 400) (inside : day < marchLength year) {doe : Nat}
    (here : doe = marchStart year + day) :
    (doe - doe / 1460 + doe / 36524 - doe / 146096) / 365 = year := by
  obtain ⟨century, fourth, rest, parts, centuries, fourths, rests⟩ :
      ∃ century fourth rest, year = 100 * century + 4 * fourth + rest ∧
        century < 4 ∧ fourth < 25 ∧ rest < 4 :=
    ⟨year / 100, year % 100 / 4, year % 4, by omega, by omega, by omega, by omega⟩
  have short : day < 365 ∨ day = 365 ∧ rest = 3 ∧ (fourth < 24 ∨ century = 3) := by
    unfold marchLength at inside
    by_cases leap : Leap (year + 1)
    · rw [if_pos leap] at inside
      unfold Leap at leap
      omega
    · rw [if_neg leap] at inside
      omega
  have start : marchStart year = 36524 * century + 1461 * fourth + 365 * rest := by
    unfold marchStart
    omega
  rw [start] at here
  rw [yearOfEra_split centuries fourths rests short here, parts]

theorem marchStart_era (year : Nat) :
    marchStart year = 146097 * (year / 400) + marchStart (year % 400) := by
  simp only [marchStart]
  omega

theorem marchLength_era (year : Nat) : marchLength year = marchLength (year % 400) := by
  have same : Leap (year + 1) ↔ Leap ((year % 400 : Nat) + 1) := by
    unfold Leap
    omega
  simp only [marchLength, same]

theorem era_short (inside : day < marchLength year) : marchStart (year % 400) + day < 146097 := by
  have ends := marchStart_succ (year % 400)
  have early := Nat.mod_lt year (show 400 > 0 by omega)
  rw [marchLength_era] at inside
  have last : marchStart (year % 400 + 1) ≤ 146097 := by
    simp only [marchStart]
    omega
  omega

theorem i64_eq {value : Int} (lower : -2 ^ 63 ≤ value) (upper : value < 2 ^ 63) :
    i64 value = some value := if_pos ⟨lower, upper⟩

theorem i64_natCast {value : Nat} (small : value < 2 ^ 63) : i64 value = some (value : Int) := by
  apply i64_eq <;> omega

theorem asU32_natCast {value : Nat} (small : value < 2 ^ 32) : asU32 value = value := by
  simp only [asU32]
  omega

theorem dayOfMonth_eq (day : Nat) :
    (day : Int) - (153 * (monthOf day : Int) + 2) / 5 + 1 =
      (day - monthStart (monthOf day) + 1 : Nat) := by
  have begun := monthStart_le day
  unfold monthStart at begun ⊢
  omega

theorem civilMonth_eq (month : Nat) :
    (month : Int) + (if (month : Int) < 10 then 3 else -9) = civilMonth month := by
  unfold civilMonth
  split <;> split <;> omega

theorem civilYear_eq (year : Nat) {month : Nat} (inside : month ≤ 11) :
    (year : Int) + (if (civilMonth month : Int) ≤ 2 then 1 else 0) = civilYear year month := by
  unfold civilMonth civilYear
  split <;> split <;> omega

theorem yoe_eq {doe : Nat} :
    ((doe : Int) - (doe : Int).tdiv 1460 + (doe : Int).tdiv 36524 - (doe : Int).tdiv 146096) / 365 =
      ((doe - doe / 1460 + doe / 36524 - doe / 146096) / 365 : Nat) := by
  simp only [Int.tdiv_eq_ediv_of_nonneg (Int.natCast_nonneg doe)]
  omega

theorem dayOfYear_eq {doe : Nat} (early : year < 400) (here : doe = marchStart year + day) :
    (doe : Int) - (365 * (year : Int) + (year : Int).tdiv 4 - (year : Int).tdiv 100) = day := by
  simp only [Int.tdiv_eq_ediv_of_nonneg (Int.natCast_nonneg year), marchStart] at *
  omega

def civil (date : Date) : Int × Nat × Nat := (date.year, date.month, date.day)

theorem civilFromDays_ofMarch (inside : day < marchLength year) {days : Int}
    (counted : days + 719468 = (marchStart year + day : Nat))
    (fits : marchStart year + day < 2 ^ 63) :
    civilFromDays days = some (civil (ofMarch year day inside)) := by
  have bounded : day < 366 := Nat.lt_of_lt_of_le inside (marchLength_le year)
  have month_le := monthOf_le bounded
  have few : 365 * year ≤ marchStart year := by
    have fewer : year / 100 ≤ year / 4 := Nat.div_le_div_left (by omega) (by omega)
    unfold marchStart
    omega
  have short := era_short inside
  have start := marchStart_era year
  have within := inside
  rw [marchLength_era] at within
  have early := Nat.mod_lt year (show 400 > 0 by omega)
  have split_year := Nat.div_add_mod year 400
  generalize year / 400 = era at start split_year
  generalize year % 400 = yoe at start short within early split_year
  obtain ⟨doe, here⟩ : ∃ doe, doe = marchStart yoe + day := ⟨_, rfl⟩
  rw [← here] at short
  have whole : marchStart year + day = 146097 * era + doe := by omega
  have found := yearOfEra_eq early within here
  have eraEq : ((146097 * era + doe : Nat) : Int) / 146097 = era := by omega
  have eraDays : (era : Int) * 146097 = (146097 * era : Nat) := by omega
  have doeEq : ((146097 * era + doe : Nat) : Int) - (146097 * era : Nat) = doe := by omega
  have eraYears : (era : Int) * 400 = (400 * era : Nat) := by omega
  have yearEq : (yoe : Int) + (400 * era : Nat) = year := by omega
  have mpEq : (5 * (day : Int) + 2) / 153 = monthOf day := by
    unfold monthOf
    omega
  have civilFits : i64 (civilYear year (monthOf day)) = some (civilYear year (monthOf day)) := by
    apply i64_eq
    · unfold civilYear
      split <;> omega
    · unfold civilYear
      split <;> omega
  have monthSmall : civilMonth (monthOf day) < 2 ^ 32 := by
    unfold civilMonth
    split <;> omega
  have first : i64 (days + 719468) = some ((146097 * era + doe : Nat) : Int) := by
    rw [counted, whole]
    exact i64_natCast (by omega)
  generalize hz : ((146097 * era + doe : Nat) : Int) = z at first eraEq doeEq
  have nonnegative : z ≥ 0 := by omega
  unfold civilFromDays
  refine Option.bind_eq_some_iff.mpr ⟨z, first, ?_⟩
  rw [if_pos nonnegative]
  refine Option.bind_eq_some_iff.mpr ⟨z, rfl, ?_⟩
  simp only [eraEq, eraDays]
  refine Option.bind_eq_some_iff.mpr ⟨_, i64_natCast (by omega), ?_⟩
  rw [doeEq]
  refine Option.bind_eq_some_iff.mpr ⟨_, i64_natCast (by omega), ?_⟩
  rw [yoe_eq, found, eraYears]
  refine Option.bind_eq_some_iff.mpr ⟨_, i64_natCast (by omega), ?_⟩
  rw [yearEq]
  refine Option.bind_eq_some_iff.mpr ⟨_, i64_natCast (by omega), ?_⟩
  rw [dayOfYear_eq early here, mpEq, dayOfMonth_eq, civilMonth_eq, civilYear_eq year month_le]
  refine Option.bind_eq_some_iff.mpr ⟨_, civilFits, ?_⟩
  rw [asU32_natCast monthSmall, asU32_natCast (by omega)]
  rfl

end years

theorem epoch_eq : epoch = ofMarch 1969 306 (by decide) := by
  ext <;> rfl

theorem civilFromDays_after (days : Nat) (fits : days + 719468 < 2 ^ 63) :
    civilFromDays days = some (civil (epoch.after days)) := by
  obtain ⟨year, day, inside, same, counted⟩ :=
    after_ofMarch (by decide : 306 < marchLength 1969) days
  have start : marchStart 1969 + 306 = 719468 := rfl
  rw [epoch_eq, same]
  exact civilFromDays_ofMarch inside (by omega) (by omega)

/-- The stamp of a second of a day. -/
def stamp (date : Date) (second : Nat) : String × String :=
  let text := dateText date.year date.month date.day
  (text, text ++ "T" ++ padded 2 (second / 3600 : Nat) ++ padded 2 (second % 3600 / 60 : Nat) ++
    padded 2 (second % 60 : Nat) ++ "Z")

theorem currentAwsDates_stamp (seconds : Nat) (fits : seconds < 2 ^ 63) :
    currentAwsDates (some seconds) =
      some (stamp (epoch.after (seconds / 86400)) (seconds % 86400)) := by
  have now : asI64 seconds = seconds := if_pos fits
  have days : (seconds : Int) / 86400 = (seconds / 86400 : Nat) := by omega
  have rest : (seconds : Int) % 86400 = (seconds % 86400 : Nat) := by omega
  have known := civilFromDays_after (seconds / 86400) (by omega)
  have tdiv (a b : Nat) : (a : Int).tdiv b = (a / b : Nat) := Int.tdiv_eq_ediv_of_nonneg (Int.natCast_nonneg a)
  have tmod (a b : Nat) : (a : Int).tmod b = (a % b : Nat) := Int.tmod_eq_emod_of_nonneg (Int.natCast_nonneg a)
  simp only [currentAwsDates, Option.getD_some, now, days, rest, known, Option.bind_eq_bind,
    Option.bind_some, civil]
  rfl

/-- Each day number from 0 on that can be added to 719468 is a date, the next number is the next
date, and a clock from the epoch on is stamped with its own day. A clock before the epoch is read
as the epoch. -/
theorem civilFromDays_gregorian :
    civilFromDays 0 = some (1970, 1, 1) ∧
    (∀ days : Nat, days + 719468 < 2 ^ 63 →
      ∃ date : Date, civilFromDays days = some (civil date) ∧
        (days + 1 + 719468 < 2 ^ 63 → civilFromDays (days + 1 : Nat) = some (civil date.next))) ∧
    (∀ seconds : Nat, seconds < 2 ^ 63 → currentAwsDates (some seconds) =
      some (stamp (epoch.after (seconds / 86400)) (seconds % 86400))) ∧
    currentAwsDates none = some (stamp epoch 0) := by
  refine ⟨civilFromDays_after 0 (by omega), ?_, currentAwsDates_stamp, ?_⟩
  · intro days fits
    exact ⟨epoch.after days, civilFromDays_after days fits, civilFromDays_after (days + 1)⟩
  · exact currentAwsDates_stamp 0 (by omega)

theorem civilFromDays_gregorian_first : ∃ date : Date,
    civilFromDays 0 = some (civil date) ∧ civilFromDays 1 = some (civil date.next) := by
  obtain ⟨date, here, next⟩ := civilFromDays_gregorian.2.1 0 (by decide)
  exact ⟨date, here, next (by decide)⟩

theorem last_day_overflows : ¬ ∀ days : Int, 0 ≤ days → days < 2 ^ 63 →
    ∃ date : Date, civilFromDays days = some (civil date) := by
  intro dated
  obtain ⟨date, found⟩ := dated (2 ^ 63 - 1) (by decide) (by decide)
  have overflow : civilFromDays (2 ^ 63 - 1) = none := by decide
  rw [overflow] at found
  cases found

end PiRust.DateTime
