import Pyrometer.Calendar
import Pyrometer.Runs

/-!
# Dates and times as counts of seconds

The clock keeps a date and a time of day; the rest of the program also counts the
seconds since 1970. One conversion takes the lengths of the years and the months off
the days, with a table of month lengths whose entry for February it changes each time.
The other is a formula with the months shifted by two, and a third formula gives the
day of the week. The month table outlives a call.
-/

namespace Pyrometer.RtcCalendar

open Calendar Runs

/-- `rtc_time_t`. -/
structure RtcTime where
  year : Nat
  month : Nat
  mday : Nat
  wday : Nat
  hour : Nat
  minute : Nat
  second : Nat
deriving DecidableEq, Repr

namespace RtcTime

/-- The date and the time of day that are kept. -/
def moment (time : RtcTime) : DateTime :=
  ⟨time.year, time.month, time.mday, time.hour, time.minute, time.second⟩

end RtcTime

/-- `START_YEAR`. -/
def startYear : Nat := 1970

/-- `month_offset`. -/
def monthOffset : List Nat := [0, 31, 59, 90, 120, 151, 181, 212, 243, 273, 304, 334]

/-- `month_days`, as it is before the first call. -/
def monthDays : List Nat := [31, 28, 31, 30, 31, 30, 31, 31, 30, 31, 30, 31]

/-- `leap_year`. -/
def leapYear (y : Nat) : Bool := y &&& 0x03 == 0 && y != 2100

/-- `days_in_year`. -/
def daysInYear (a : Nat) : Nat := if leapYear a then 366 else 365

/-- The value of an expression of type `uint32_t`. -/
def word (value : Int) : Nat := (value % 2 ^ 32).toNat

/-- `gd32_rtc_time_to_sec`. -/
def timeToSec (time : RtcTime) : Nat :=
  let year := if time.month ≤ 2 then word ((time.year : Int) - 1) else time.year
  let month := if time.month ≤ 2 then time.month + 10 else time.month - 2
  let day := word (year / 4 - year / 100 + year / 400 + 367 * month / 12 + time.mday)
  let day := word (day + (year * 365 - 719499))
  word (((day * 24 + time.hour) * 60 + time.minute) * 60 + time.second)

/-- `gregorian_day`: the day of the week. There is none for a month outside the table. -/
def gregorianDay (year month mday : Nat) : Option Nat :=
  let lastYear := (year : Int) - 1
  let leapsDay := lastYear.tdiv 4 - lastYear.tdiv 100 + lastYear.tdiv 400
  let day : Int :=
    if year % 4 = 0 ∧ (year % 100 ≠ 0 ∨ year % 400 = 0) ∧ month > 2 then 1 else 0
  monthOffset[month - 1]?.map (fun (offset : Nat) =>
    ((day + (lastYear * 365 + leapsDay + offset + mday)).tmod 7).toNat)

/-- `gd32_rtc_sec_to_time`, with the month table it finds and leaves. There is no result
when a loop reads outside its table or does not end. -/
def secToTime (table : List Nat) (sec : Nat) : Option (RtcTime × List Nat) := do
  let hms := sec % 86400
  let (year, day) ← countDown (fun i => some (daysInYear i)) (sec / 86400 + 1) startYear
    (sec / 86400)
  let table := table.set 1 (if leapYear year then 29 else 28)
  let (i, day) ← countDown (fun i => table[i]?) (day + 1) 0 day
  let wday ← gregorianDay year (i + 1) (day + 1)
  return (⟨year, i + 1, day + 1, wday, hms / 3600, hms % 3600 / 60, hms % 3600 % 60⟩, table)

/-- The day of the week, with Sunday as zero, of a date since 1970. -/
def weekday (moment : DateTime) : Nat := (moment.dayNumber startYear + 4) % 7

/-- What the clock keeps for a date and time. -/
def timeOf (moment : DateTime) : RtcTime :=
  ⟨moment.year, moment.month, moment.day, weekday moment, moment.hour, moment.minute,
    moment.second⟩

/-- The month table has its first contents, except for February. -/
def Kept (table : List Nat) : Prop := table.set 1 28 = monthDays

/-- The rule for leap years is that of the calendar up to the year 2199. -/
theorem days_in_year_length {year : Nat} (since : startYear ≤ year) (early : year < 2200) :
    daysInYear year = yearLength year := by
  have remainder : year &&& 0x03 = year % 4 := Nat.and_two_pow_sub_one_eq_mod year 2
  have rule : leapYear year = true ↔ LeapYear year := by
    simp only [leapYear, remainder, LeapYear, Bool.and_eq_true, beq_iff_eq, bne_iff_ne]
    simp only [startYear] at since
    omega
  by_cases leap : LeapYear year
  · rw [daysInYear, yearLength, if_pos (rule.mpr leap), if_pos leap]
  · rw [daysInYear, yearLength, if_neg (mt rule.mp leap), if_neg leap]

/-- The entry for February follows the calendar. -/
theorem february_length {year : Nat} (since : startYear ≤ year) (early : year < 2200) :
    (if leapYear year then 29 else 28) = monthLength year 2 := by
  have lengths := days_in_year_length since early
  rw [daysInYear, yearLength] at lengths
  rw [monthLength, if_pos rfl]
  split_ifs at lengths ⊢ <;> omega

/-- With its entry for February set, the table holds the lengths of all months. -/
theorem table_month {table : List Nat} (kept : Kept table) (year : Nat) {index : Nat}
    (inside : index < 12) :
    (table.set 1 (monthLength year 2))[index]? = some (monthLength year (index + 1)) := by
  have same : table.set 1 (monthLength year 2) = monthDays.set 1 (monthLength year 2) := by
    rw [← kept, List.set_set]
  rw [same]
  interval_cases index <;> rfl

/-- The months counted from zero. -/
theorem months_from_zero (year index : Nat) :
    before (fun span => monthLength year (span + 1)) 0 index =
      before (monthLength year) 1 (index + 1) :=
  Finset.sum_Ico_add' (monthLength year) 0 index 1

/-- No month is empty. -/
theorem month_length_pos (year month : Nat) : 0 < monthLength year month := by
  rw [monthLength]
  split_ifs <;> decide

/-- The loop over the years ends in the year of the date. -/
theorem year_loop {moment : DateTime} (valid : moment.Valid) (since : startYear ≤ moment.year)
    (early : moment.year < 2200) :
    countDown (fun i => some (daysInYear i)) (moment.dayNumber startYear + 1) startYear
      (moment.dayNumber startYear) = some (moment.year, moment.dayOfYear) := by
  have rounds := spans_le_before yearLength year_length_pos since
  refine count_down_found since ?_ (DateTime.day_of_year_lt valid) ?_
  · intro year lower upper
    rw [days_in_year_length lower (Nat.lt_of_le_of_lt upper early)]
  · rw [DateTime.dayNumber]
    omega

/-- The loop over the months ends in the month of the date. -/
theorem month_loop {table : List Nat} (kept : Kept table) {moment : DateTime}
    (valid : moment.Valid) :
    countDown (fun i => (table.set 1 (monthLength moment.year 2))[i]?) (moment.dayOfYear + 1) 0
      moment.dayOfYear = some (moment.month - 1, moment.day - 1) := by
  have lower := valid.monthLower
  have upper := valid.monthUpper
  have dayLower := valid.dayLower
  have dayUpper := valid.dayUpper
  have month : moment.month - 1 + 1 = moment.month := Nat.sub_add_cancel lower
  have days : moment.dayOfYear =
      before (fun span => monthLength moment.year (span + 1)) 0 (moment.month - 1) +
        (moment.day - 1) := by
    rw [months_from_zero, month]
    rfl
  have rounds := spans_le_before (fun span => monthLength moment.year (span + 1))
    (fun span => month_length_pos _ _) (Nat.zero_le (moment.month - 1))
  rw [days]
  refine count_down_found (Nat.zero_le _) ?_ ?_ ?_
  · intro index _ bound
    exact table_month kept moment.year (by omega)
  · rw [month]
    omega
  · omega

/-- The days before a year since 1970. -/
theorem days_before_year {year : Nat} (since : startYear ≤ year) :
    before yearLength startYear year + 719162 = before yearLength 1 year := by
  have first : before yearLength 1 startYear + 19 = 719181 := years_before 1969
  have joined := before_add yearLength (show 1 ≤ startYear by decide) since
  omega

/-- The days of a year before a month, behind the table of the third formula. -/
theorem month_offset_days (year : Nat) {month : Nat} (lower : 1 ≤ month) (upper : month ≤ 12) :
    ∃ offset, monthOffset[month - 1]? = some offset ∧
      before (monthLength year) 1 month =
        offset + if LeapYear year ∧ month > 2 then 1 else 0 := by
  have days := months_before year lower (Nat.le_succ_of_le upper)
  interval_cases month <;> exact ⟨_, rfl, days⟩

/-- The third formula gives the day of the week. -/
theorem gregorian_day {moment : DateTime} (valid : moment.Valid)
    (since : startYear ≤ moment.year) :
    gregorianDay moment.year moment.month moment.day = some (weekday moment) := by
  obtain ⟨offset, entry, months⟩ := month_offset_days moment.year valid.monthLower valid.monthUpper
  have dayLower := valid.dayLower
  have epoch := days_before_year since
  have later : 1970 ≤ moment.year := since
  have years := years_before (moment.year - 1)
  rw [Nat.sub_add_cancel (by omega)] at years
  have number : moment.dayNumber startYear + 719163 =
      (if LeapYear moment.year ∧ moment.month > 2 then 1 else 0) + ((moment.year - 1) * 365 +
        ((moment.year - 1) / 4 - (moment.year - 1) / 100 + (moment.year - 1) / 400) + offset +
          moment.day) := by
    rw [DateTime.dayNumber, DateTime.dayOfYear, months]
    omega
  have lastYear : (moment.year : Int) - 1 = ((moment.year - 1 : Nat) : Int) := by omega
  have nonneg : (0 : Int) ≤ ((moment.year - 1 : Nat) : Int) := Int.natCast_nonneg _
  have rule : (moment.year % 4 = 0 ∧ (moment.year % 100 ≠ 0 ∨ moment.year % 400 = 0) ∧
      moment.month > 2) ↔ (LeapYear moment.year ∧ moment.month > 2) := and_assoc.symm
  simp only [gregorianDay, entry, Option.map_some, weekday, rule, lastYear,
    Int.tdiv_eq_ediv_of_nonneg nonneg]
  congr 1
  split_ifs at number ⊢
  · rw [Int.tmod_eq_emod_of_nonneg (by omega)]
    omega
  · rw [Int.tmod_eq_emod_of_nonneg (by omega)]
    omega

/-- A count is kept in 32 bits. -/
theorem word_of_count {value : Int} {number : Nat} (same : value = number) :
    word value = number % 2 ^ 32 := by
  rw [word]
  omega

/-- A count that fits is kept. -/
theorem word_of_nat {value : Int} {number : Nat} (same : value = number)
    (fits : number < 2 ^ 32) : word value = number :=
  (word_of_count same).trans (Nat.mod_eq_of_lt fits)

/-- The days of the formula, when they fit. -/
theorem formula_days {year month mday days : Nat}
    (same : (year / 4 - year / 100 + year / 400 + 367 * month / 12 + mday +
      (year * 365 - 719499) : Int) = days) (fits : days < 2 ^ 32) :
    word (word (year / 4 - year / 100 + year / 400 + 367 * month / 12 + mday) +
      (year * 365 - 719499)) = days := by
  refine Eq.trans ?_ (word_of_nat same fits)
  rw [word, word, word, Int.toNat_of_nonneg (Int.emod_nonneg _ (by decide)), Int.emod_add_emod]

/-- Counted from March, the days before a month follow a formula. -/
theorem months_from_march (year : Nat) {month : Nat} (lower : 3 ≤ month) (upper : month ≤ 12) :
    before (monthLength year) 1 month =
      367 * (month - 2) / 12 + 29 + if LeapYear year then 1 else 0 := by
  rw [months_before year (Nat.le_of_add_left_le lower) (Nat.le_succ_of_le upper)]
  simp only [show 2 < month from lower, and_true]
  interval_cases month <;> rfl

/-- January and February stand behind December in the formula. -/
theorem months_behind_december (year : Nat) {month : Nat} (lower : 1 ≤ month)
    (upper : month ≤ 2) :
    before (monthLength year) 1 month + 336 = 367 * (month + 10) / 12 := by
  rw [months_before year lower (Nat.le_trans upper (by decide)),
    if_neg (fun leap => absurd leap.2 (Nat.not_lt.mpr upper))]
  interval_cases month <;> rfl

/-- The formula with the shifted months counts the seconds since 1970, in 32 bits. -/
theorem time_to_sec_wraps {time : RtcTime} (valid : time.moment.Valid)
    (since : startYear ≤ time.year) (fits : time.moment.dayNumber startYear < 2 ^ 32) :
    timeToSec time = time.moment.secondNumber startYear % 2 ^ 32 := by
  have lower : 1 ≤ time.month := valid.monthLower
  have upper : time.month ≤ 12 := valid.monthUpper
  have dayLower : 1 ≤ time.mday := valid.dayLower
  have later : 1970 ≤ time.year := since
  have epoch := days_before_year since
  have days : time.moment.dayNumber startYear = before yearLength startYear time.year +
      (before (monthLength time.year) 1 time.month + (time.mday - 1)) := rfl
  have seconds : time.moment.secondNumber startYear =
      ((time.moment.dayNumber startYear * 24 + time.hour) * 60 + time.minute) * 60 +
        time.second := rfl
  rw [timeToSec]
  refine Eq.trans ?_ (word_of_count (congrArg Nat.cast seconds))
  by_cases early : time.month ≤ 2
  · have years := years_before (time.year - 1)
    rw [Nat.sub_add_cancel (by omega)] at years
    have months := months_behind_december time.year lower early
    have shifted : word ((time.year : Int) - 1) = time.year - 1 :=
      word_of_nat (by omega) (by omega)
    simp only [if_pos early, shifted]
    rw [formula_days (by omega) fits]
    rfl
  · have years := years_before time.year
    have months := months_from_march time.year (Nat.lt_of_not_le early) upper
    rw [before_succ yearLength (by omega), yearLength] at years
    simp only [if_neg early]
    rw [formula_days (by split_ifs at months years <;> omega) fits]
    rfl

/-- The formula counts the seconds since 1970 as long as 32 bits hold them. -/
theorem time_to_sec_moment {time : RtcTime} (valid : time.moment.Valid)
    (since : startYear ≤ time.year) (inside : time.moment.secondNumber startYear < 2 ^ 32) :
    timeToSec time = time.moment.secondNumber startYear := by
  have fits : time.moment.dayNumber startYear < 2 ^ 32 := by
    rw [DateTime.secondNumber] at inside
    omega
  rw [time_to_sec_wraps valid since fits, Nat.mod_eq_of_lt inside]

/-- The countdown finds every date from its count of seconds. -/
theorem sec_to_time_moment {table : List Nat} (kept : Kept table) {moment : DateTime}
    (valid : moment.Valid) (since : startYear ≤ moment.year) (early : moment.year < 2200) :
    secToTime table (moment.secondNumber startYear) =
      some (timeOf moment, table.set 1 (monthLength moment.year 2)) := by
  have hours := valid.hours
  have minutes := valid.minutes
  have seconds := valid.seconds
  have days : moment.secondNumber startYear / 86400 = moment.dayNumber startYear := by
    rw [DateTime.secondNumber]
    omega
  have hour : moment.secondNumber startYear % 86400 / 3600 = moment.hour := by
    rw [DateTime.secondNumber]
    omega
  have minute : moment.secondNumber startYear % 86400 % 3600 / 60 = moment.minute := by
    rw [DateTime.secondNumber]
    omega
  have second : moment.secondNumber startYear % 86400 % 3600 % 60 = moment.second := by
    rw [DateTime.secondNumber]
    omega
  simp only [secToTime, days, year_loop valid since early, february_length since early,
    month_loop kept valid, hour, minute, second, Nat.sub_add_cancel valid.monthLower,
    Nat.sub_add_cancel valid.dayLower, gregorian_day valid since, Option.bind_eq_bind,
    Option.bind_some]
  rfl

/-- One call leaves a month table that the next one can use. -/
def keep (table : List Nat) (sec : Nat) : List Nat :=
  ((secToTime table sec).map Prod.snd).getD table

/-- The month table keeps its entries through any calls. -/
theorem kept_run (secs : List Nat) : Kept (run keep monthDays secs) := by
  refine @run_invariant _ _ keep Kept (fun table sec kept => ?_) monthDays rfl secs
  rw [keep]
  cases called : secToTime table sec with
  | none => exact kept
  | some result =>
    obtain ⟨february, left⟩ : ∃ february, result.2 = table.set 1 february := by
      simp only [secToTime, Option.bind_eq_bind, Option.bind_eq_some_iff] at called
      obtain ⟨_, _, _, _, _, _, found⟩ := called
      exact ⟨_, congrArg Prod.snd (Option.some.inj found).symm⟩
    rw [Option.map_some, Option.getD_some, left, Kept, List.set_set]
    exact kept

/-- A month table that some earlier calls have left. -/
def Reached (table : List Nat) : Prop := ∃ secs : List Nat, table = run keep monthDays secs

/-- The first date and time that is counted. -/
def firstMoment : DateTime := ⟨1970, 1, 1, 0, 0, 0⟩

/-- The last date and time whose count has 32 bits. -/
def lastMoment : DateTime := ⟨2106, 2, 7, 6, 28, 15⟩

/-- The last date and time is a valid one. -/
theorem last_moment_valid : lastMoment.Valid :=
  ⟨by decide, by decide, by decide, by decide, by decide, by decide, by decide⟩

/-- The days before a year since 1970 in closed form. -/
theorem days_since_epoch {year : Nat} (since : startYear ≤ year + 1) :
    before yearLength startYear (year + 1) + 719162 + year / 100 =
      365 * year + year / 4 + year / 400 := by
  rw [days_before_year since]
  exact years_before year

/-- The last date and time has the greatest count. -/
theorem last_moment_seconds : lastMoment.secondNumber startYear = 2 ^ 32 - 1 := by
  have years : before yearLength startYear 2106 + 719162 + 21 = 768325 + 526 + 5 :=
    days_since_epoch (show 1970 ≤ 2106 by decide)
  have months : before (monthLength 2106) 1 2 = 31 := by
    rw [months_before 2106 (by decide) (by decide)]
    rfl
  have days : lastMoment.dayNumber startYear = before yearLength startYear 2106 +
      (before (monthLength 2106) 1 2 + (7 - 1)) := by
    rw [DateTime.dayNumber, DateTime.dayOfYear, lastMoment]
  rw [DateTime.secondNumber, days, months]
  generalize before yearLength startYear 2106 = count at years
  simp only [lastMoment]
  omega

/-- Every count of 32 bits is that of one date and time. -/
theorem moment_of_count {sec : Nat} (fits : sec < 2 ^ 32) :
    ∃ moment : DateTime, moment.Valid ∧ startYear ≤ moment.year ∧ moment.year < 2200 ∧
      moment.secondNumber startYear = sec := by
  have since : startYear ≤ 2200 := show 1970 ≤ 2200 by decide
  have years : before yearLength startYear 2200 + 719162 + 21 = 802635 + 549 + 5 :=
    days_since_epoch since
  refine DateTime.exists_moment since ?_
  generalize before yearLength startYear 2200 = count at years ⊢
  omega

/-- The date and time of a count. -/
theorem sec_to_time_count {table : List Nat} (reached : Reached table) {sec : Nat}
    (fits : sec < 2 ^ 32) :
    ∃ moment : DateTime, moment.Valid ∧ startYear ≤ moment.year ∧
      moment.secondNumber startYear = sec ∧
        ∃ left, secToTime table sec = some (timeOf moment, left) := by
  obtain ⟨secs, rfl⟩ := reached
  obtain ⟨moment, valid, since, early, rfl⟩ := moment_of_count fits
  exact ⟨moment, valid, since, rfl, _, sec_to_time_moment (kept_run secs) valid since early⟩

/-- The day of the week goes with the days of a count. -/
theorem weekday_count {moment : DateTime} (valid : moment.Valid) :
    weekday moment = (4 + moment.secondNumber startYear / 86400) % 7 := by
  have hours := valid.hours
  have minutes := valid.minutes
  have seconds := valid.seconds
  have days : moment.secondNumber startYear / 86400 = moment.dayNumber startYear := by
    rw [DateTime.secondNumber]
    omega
  rw [weekday, days, Nat.add_comm]

/-- A date and time in the supported range has a count of 32 bits. -/
theorem count_of_moment {moment : DateTime} (valid : moment.Valid)
    (notBefore : ¬moment.Precedes firstMoment) (notBehind : ¬lastMoment.Precedes moment) :
    startYear ≤ moment.year ∧ moment.year < 2200 ∧ moment.secondNumber startYear < 2 ^ 32 := by
  have early : moment.year ≤ 2106 :=
    Nat.le_of_not_lt (fun later => notBehind (Or.inl later))
  have since : startYear ≤ moment.year :=
    Nat.le_of_not_lt (fun early => notBefore (Or.inl early))
  have bound := mt (DateTime.second_number_lt_iff last_moment_valid valid
    (show startYear ≤ 2106 by decide) since).mp notBehind
  rw [last_moment_seconds] at bound
  exact ⟨since, by omega, by omega⟩

/-- The conversions between dates and counts of 32 bits are inverse to each other and
keep the order, whatever calls were made before. -/
theorem calendar_conversion :
    (∀ table, Reached table → ∀ sec < 2 ^ 32, ∃ time left,
      secToTime table sec = some (time, left) ∧ time.moment.Valid ∧
        time.wday = (4 + sec / 86400) % 7 ∧ timeToSec time = sec) ∧
    (∀ table otherTable, Reached table → Reached otherTable → ∀ sec other, sec < other →
      other < 2 ^ 32 → ∃ time left otherTime otherLeft,
        secToTime table sec = some (time, left) ∧
          secToTime otherTable other = some (otherTime, otherLeft) ∧
            time.moment.Precedes otherTime.moment) ∧
    (∀ table, Reached table → ∀ time : RtcTime, time.moment.Valid →
      ¬time.moment.Precedes firstMoment → ¬lastMoment.Precedes time.moment → ∃ left,
        secToTime table (timeToSec time) =
          some ({ time with wday := weekday time.moment }, left)) := by
  refine ⟨?_, ?_, ?_⟩
  · intro table reached sec fits
    obtain ⟨moment, valid, since, rfl, left, found⟩ := sec_to_time_count reached fits
    exact ⟨timeOf moment, left, found, valid, weekday_count valid,
      time_to_sec_moment valid since fits⟩
  · intro table otherTable reached otherReached sec other earlier fits
    obtain ⟨moment, valid, since, rfl, left, found⟩ :=
      sec_to_time_count reached (Nat.lt_trans earlier fits)
    obtain ⟨otherMoment, otherValid, otherSince, rfl, otherLeft, otherFound⟩ :=
      sec_to_time_count otherReached fits
    exact ⟨timeOf moment, left, timeOf otherMoment, otherLeft, found, otherFound,
      (DateTime.second_number_lt_iff valid otherValid since otherSince).mp earlier⟩
  · rintro table ⟨secs, rfl⟩ time valid notBefore notBehind
    obtain ⟨since, early, fits⟩ := count_of_moment valid notBefore notBehind
    refine ⟨(run keep monthDays secs).set 1 (monthLength time.year 2), ?_⟩
    rw [time_to_sec_moment valid since fits]
    exact sec_to_time_moment (kept_run secs) valid since early

/-- The last second of the count is one of the last day of the supported range. -/
theorem calendar_conversion_end : ∃ time left,
    secToTime monthDays 4294967295 = some (time, left) ∧ time.moment.Valid ∧
      time.wday = (4 + 4294967295 / 86400) % 7 ∧ timeToSec time = 4294967295 :=
  calendar_conversion.1 monthDays ⟨[], rfl⟩ 4294967295 (by decide)

end Pyrometer.RtcCalendar
