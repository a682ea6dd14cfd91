import Mathlib.Algebra.BigOperators.Intervals
import Mathlib.Tactic

/-!
# Counting through spans, and the Gregorian calendar

A count falls into one of many spans of given lengths, at one place in it. The later
of two counts is the one in the later span or at the later place of the same span, and
a loop that takes whole lengths off a count finds both. The years and the months of the
Gregorian calendar are such spans. Leap seconds do not exist here.
-/

namespace Pyrometer.Calendar

section Spans

variable (size : Nat → Nat)

/-- All that lies in the spans from the first one up to another. -/
def before (first span : Nat) : Nat := ∑ earlier ∈ Finset.Ico first span, size earlier

/-- Nothing lies before the first span. -/
@[simp] theorem before_first (first : Nat) : before size first first = 0 := by
  simp [before]

/-- One span more holds its own length more. -/
theorem before_succ {first span : Nat} (ordered : first ≤ span) :
    before size first (span + 1) = before size first span + size span :=
  Finset.sum_Ico_succ_top ordered size

/-- The spans up to a later one are those up to an earlier one and those between. -/
theorem before_add {first middle last : Nat} (ordered : first ≤ middle) (later : middle ≤ last) :
    before size first middle + before size middle last = before size first last :=
  Finset.sum_Ico_consecutive size ordered later

/-- What lies in a span comes before all that lies in a later one. -/
theorem before_le {first early late : Nat} (ordered : first ≤ early) (later : early < late) :
    before size first early + size early ≤ before size first late := by
  rw [← before_succ size ordered, ← before_add size (Nat.le_succ_of_le ordered) later]
  exact Nat.le_add_right _ _

/-- Of two counts, the smaller is in an earlier span, or earlier in the same one. -/
theorem count_lt_iff {first span other place otherPlace : Nat} (ordered : first ≤ span)
    (otherOrdered : first ≤ other) (inside : place < size span)
    (otherInside : otherPlace < size other) :
    before size first span + place < before size first other + otherPlace ↔
      span < other ∨ span = other ∧ place < otherPlace := by
  rcases Nat.lt_trichotomy span other with earlier | rfl | later
  · have bound := before_le size ordered earlier
    exact ⟨fun _ => Or.inl earlier, fun _ => by omega⟩
  · exact ⟨fun smaller => Or.inr ⟨rfl, by omega⟩, fun cases => by omega⟩
  · have bound := before_le size otherOrdered later
    exact ⟨fun smaller => by omega, fun cases => by omega⟩

/-- A count that lies before some span has a place. -/
theorem exists_place {first last count : Nat} (ordered : first ≤ last)
    (inside : count < before size first last) :
    ∃ span place, first ≤ span ∧ span < last ∧ place < size span ∧
      before size first span + place = count := by
  induction last, ordered using Nat.le_induction with
  | base =>
    rw [before_first] at inside
    exact absurd inside (Nat.not_lt_zero count)
  | succ last ordered inductionHypothesis =>
    rw [before_succ size ordered] at inside
    by_cases earlier : count < before size first last
    · obtain ⟨span, place, behind, lower, found⟩ := inductionHypothesis earlier
      exact ⟨span, place, behind, Nat.lt_succ_of_lt lower, found⟩
    · exact ⟨last, count - before size first last, ordered, Nat.lt_succ_self last, by omega,
        by omega⟩

/-- Spans that are not empty are no more than what lies in them. -/
theorem spans_le_before (positive : ∀ span, 0 < size span) {first span : Nat}
    (ordered : first ≤ span) : span - first ≤ before size first span := by
  induction span, ordered using Nat.le_induction with
  | base => simp
  | succ span ordered inductionHypothesis =>
    have more := positive span
    rw [before_succ size ordered]
    omega

end Spans

/-- The loop that takes whole lengths off a count, from a span on. There is no result
when a length is missing or the rounds are used up. -/
def countDown (size : Nat → Option Nat) : Nat → Nat → Nat → Option (Nat × Nat)
  | 0, _, _ => none
  | rounds + 1, span, count =>
      match size span with
      | none => none
      | some length =>
          if length ≤ count then countDown size rounds (span + 1) (count - length)
          else some (span, count)

/-- The loop finds the place of a count if it meets every length up to there. -/
theorem count_down_found {known : Nat → Option Nat} {size : Nat → Nat}
    {rounds first span place : Nat} (ordered : first ≤ span)
    (agree : ∀ earlier, first ≤ earlier → earlier ≤ span → known earlier = some (size earlier))
    (inside : place < size span) (enough : span - first < rounds) :
    countDown known rounds first (before size first span + place) = some (span, place) := by
  induction rounds generalizing first with
  | zero => exact absurd enough (Nat.not_lt_zero _)
  | succ rounds inductionHypothesis =>
    rw [countDown, agree first le_rfl ordered]
    rcases Nat.eq_or_lt_of_le ordered with rfl | behind
    · simp [Nat.not_le.mpr inside]
    · have split : before size first span = size first + before size (first + 1) span := by
        rw [← before_add size (Nat.le_succ first) behind, before_succ size le_rfl, before_first,
          Nat.zero_add]
      have taken : before size first span + place - size first =
          before size (first + 1) span + place := by omega
      simp only [if_pos (show size first ≤ before size first span + place by omega), taken]
      exact inductionHypothesis behind
        (fun earlier lower upper => agree earlier (Nat.le_of_succ_le lower) upper) (by omega)

/-- A leap year. -/
def LeapYear (year : Nat) : Prop := year % 4 = 0 ∧ (year % 100 ≠ 0 ∨ year % 400 = 0)

instance (year : Nat) : Decidable (LeapYear year) := inferInstanceAs (Decidable (_ ∧ _))

/-- The days of a year. -/
def yearLength (year : Nat) : Nat := if LeapYear year then 366 else 365

/-- The days of a month. -/
def monthLength (year month : Nat) : Nat :=
  if month = 2 then (if LeapYear year then 29 else 28)
  else if month = 4 ∨ month = 6 ∨ month = 9 ∨ month = 11 then 30 else 31

/-- No year is empty. -/
theorem year_length_pos (year : Nat) : 0 < yearLength year := by
  rw [yearLength]
  split_ifs <;> decide

/-- The days of the years up to one are as many as the leap days and the common days. -/
theorem years_before (year : Nat) :
    before yearLength 1 (year + 1) + year / 100 = 365 * year + year / 4 + year / 400 := by
  induction year with
  | zero => simp
  | succ year inductionHypothesis =>
    have four : 100 ∣ year + 1 → 4 ∣ year + 1 := (show 4 ∣ 100 by decide).trans
    have hundred : 400 ∣ year + 1 → 100 ∣ year + 1 := (show 100 ∣ 400 by decide).trans
    have leap : LeapYear (year + 1) ↔
        4 ∣ year + 1 ∧ (¬100 ∣ year + 1 ∨ 400 ∣ year + 1) := by
      simp only [LeapYear, Nat.dvd_iff_mod_eq_zero, ne_eq]
    rw [before_succ yearLength (Nat.le_add_left 1 year), yearLength, Nat.succ_div, Nat.succ_div,
      Nat.succ_div]
    simp only [leap]
    by_cases byFour : 4 ∣ year + 1
    · by_cases byHundred : 100 ∣ year + 1
      · by_cases byFourHundred : 400 ∣ year + 1
        · simp only [byFour, byHundred, byFourHundred, not_true, false_or, and_self, if_true]
          omega
        · simp only [byFour, byHundred, byFourHundred, not_true, or_self, and_false, if_true,
            if_false]
          omega
      · simp only [byFour, byHundred, mt hundred byHundred, not_false_eq_true, true_or, and_self,
          if_true, if_false]
        omega
    · have notHundred := mt four byFour
      simp only [byFour, notHundred, mt hundred notHundred, false_and, if_false]
      omega

/-- The days before each month of a year. -/
theorem months_before (year : Nat) {month : Nat} (lower : 1 ≤ month) (upper : month ≤ 13) :
    before (monthLength year) 1 month =
      [0, 31, 59, 90, 120, 151, 181, 212, 243, 273, 304, 334, 365].getD (month - 1) 0 +
        if LeapYear year ∧ 2 < month then 1 else 0 := by
  have table : ∀ february ∈ [28, 29], ∀ month < 14, 1 ≤ month →
      before (fun month => if month = 2 then february
          else if month = 4 ∨ month = 6 ∨ month = 9 ∨ month = 11 then 30 else 31) 1 month =
        [0, 31, 59, 90, 120, 151, 181, 212, 243, 273, 304, 334, 365].getD (month - 1) 0 +
          if february = 29 ∧ 2 < month then 1 else 0 := by
    decide +kernel
  by_cases leap : LeapYear year
  · have lengths := table 29 (by decide) month (Nat.lt_succ_of_le upper) lower
    simpa only [funext fun month => monthLength.eq_def year month, leap, if_true, true_and]
      using lengths
  · have lengths := table 28 (by decide) month (Nat.lt_succ_of_le upper) lower
    simpa only [funext fun month => monthLength.eq_def year month, leap, if_false, false_and,
      show (28 : Nat) ≠ 29 by decide] using lengths

/-- The months of a year hold its days. -/
theorem months_of_year (year : Nat) : before (monthLength year) 1 13 = yearLength year := by
  rw [months_before year (by decide) le_rfl, yearLength]
  by_cases leap : LeapYear year <;> simp [leap]

/-- A date and a time of day. -/
structure DateTime where
  year : Nat
  month : Nat
  day : Nat
  hour : Nat
  minute : Nat
  second : Nat
deriving DecidableEq, Repr

namespace DateTime

/-- The day exists in the calendar and the time on the clock. -/
structure Valid (moment : DateTime) : Prop where
  monthLower : 1 ≤ moment.month
  monthUpper : moment.month ≤ 12
  dayLower : 1 ≤ moment.day
  dayUpper : moment.day ≤ monthLength moment.year moment.month
  hours : moment.hour < 24
  minutes : moment.minute < 60
  seconds : moment.second < 60

/-- The lexicographic order, from the year down to the second. -/
def Precedes (one other : DateTime) : Prop :=
  one.year < other.year ∨ one.year = other.year ∧
    (one.month < other.month ∨ one.month = other.month ∧
      (one.day < other.day ∨ one.day = other.day ∧
        (one.hour < other.hour ∨ one.hour = other.hour ∧
          (one.minute < other.minute ∨ one.minute = other.minute ∧ one.second < other.second))))

instance (one other : DateTime) : Decidable (Precedes one other) :=
  inferInstanceAs (Decidable (_ ∨ _))

/-- The days of the year before a date. -/
def dayOfYear (moment : DateTime) : Nat :=
  before (monthLength moment.year) 1 moment.month + (moment.day - 1)

/-- The days before a date, from the beginning of a year on. -/
def dayNumber (epoch : Nat) (moment : DateTime) : Nat :=
  before yearLength epoch moment.year + moment.dayOfYear

/-- The seconds before a date and time, from the beginning of a year on. -/
def secondNumber (epoch : Nat) (moment : DateTime) : Nat :=
  ((moment.dayNumber epoch * 24 + moment.hour) * 60 + moment.minute) * 60 + moment.second

/-- A day of a month is one of its year. -/
theorem day_of_year_lt {moment : DateTime} (valid : moment.Valid) :
    moment.dayOfYear < yearLength moment.year := by
  have inside := before_le (monthLength moment.year) valid.monthLower
    (Nat.lt_succ_of_le valid.monthUpper)
  rw [months_of_year] at inside
  have lower := valid.dayLower
  have upper := valid.dayUpper
  rw [dayOfYear]
  omega

/-- Days are counted in the order of their dates. -/
theorem day_number_lt_iff {epoch : Nat} {one other : DateTime} (valid : one.Valid)
    (otherValid : other.Valid) (since : epoch ≤ one.year) (otherSince : epoch ≤ other.year) :
    one.dayNumber epoch < other.dayNumber epoch ↔
      one.year < other.year ∨ one.year = other.year ∧
        (one.month < other.month ∨ one.month = other.month ∧ one.day < other.day) := by
  rw [dayNumber, dayNumber, count_lt_iff yearLength since otherSince (day_of_year_lt valid)
    (day_of_year_lt otherValid)]
  refine or_congr Iff.rfl (and_congr_right (fun sameYear => ?_))
  have dayLower := valid.dayLower
  have otherLower := otherValid.dayLower
  have upper := valid.dayUpper
  have otherUpper := otherValid.dayUpper
  rw [← sameYear] at otherUpper
  rw [dayOfYear, dayOfYear, ← sameYear, count_lt_iff (monthLength one.year) valid.monthLower
    otherValid.monthLower (by omega) (by omega)]
  omega

/-- Numbers of two digits are ordered by the first one, then by the second one. -/
theorem digits_lt_iff {base high low otherHigh otherLow : Nat} (inside : low < base)
    (otherInside : otherLow < base) :
    high * base + low < otherHigh * base + otherLow ↔
      high < otherHigh ∨ high = otherHigh ∧ low < otherLow := by
  have apart : ∀ {one other : Nat}, one < other → one * base + base ≤ other * base :=
    fun less => (Nat.succ_mul _ base).ge.trans (Nat.mul_le_mul_right base less)
  rcases Nat.lt_trichotomy high otherHigh with earlier | rfl | later
  · have room := apart earlier
    exact iff_of_true (by omega) (Or.inl earlier)
  · constructor
    · exact fun smaller => Or.inr ⟨rfl, Nat.lt_of_add_lt_add_left smaller⟩
    · rintro (impossible | ⟨_, smaller⟩)
      · exact absurd impossible (Nat.lt_irrefl high)
      · exact Nat.add_lt_add_left smaller _
  · have room := apart later
    exact iff_of_false (by omega) (by omega)

/-- A day has one date. -/
theorem day_number_eq_iff {epoch : Nat} {one other : DateTime} (valid : one.Valid)
    (otherValid : other.Valid) (since : epoch ≤ one.year) (otherSince : epoch ≤ other.year) :
    one.dayNumber epoch = other.dayNumber epoch ↔
      one.year = other.year ∧ one.month = other.month ∧ one.day = other.day := by
  constructor
  · intro same
    have notEarlier := mt (day_number_lt_iff valid otherValid since otherSince).mpr
      (Nat.not_lt.mpr same.ge)
    have notLater := mt (day_number_lt_iff otherValid valid otherSince since).mpr
      (Nat.not_lt.mpr same.le)
    have year : one.year = other.year := by omega
    have month : one.month = other.month := by omega
    exact ⟨year, month, by omega⟩
  · rintro ⟨year, month, day⟩
    rw [dayNumber, dayNumber, dayOfYear, dayOfYear, year, month, day]

/-- The seconds of a day before a time. -/
def clockNumber (moment : DateTime) : Nat :=
  (moment.hour * 60 + moment.minute) * 60 + moment.second

/-- Seconds are counted by days and then by the clock. -/
theorem second_number_days (epoch : Nat) (moment : DateTime) :
    moment.secondNumber epoch = moment.dayNumber epoch * 86400 + moment.clockNumber := by
  rw [secondNumber, clockNumber]
  omega

/-- The clock stays inside its day. -/
theorem clock_number_lt {moment : DateTime} (valid : moment.Valid) :
    moment.clockNumber < 86400 := by
  have hours := valid.hours
  have minutes := valid.minutes
  have seconds := valid.seconds
  rw [clockNumber]
  omega

/-- The clock runs in the order of hours, minutes and seconds. -/
theorem clock_number_lt_iff {one other : DateTime} (valid : one.Valid) (otherValid : other.Valid) :
    one.clockNumber < other.clockNumber ↔
      one.hour < other.hour ∨ one.hour = other.hour ∧
        (one.minute < other.minute ∨ one.minute = other.minute ∧ one.second < other.second) := by
  have minutes := valid.minutes
  have otherMinutes := otherValid.minutes
  have same : one.hour * 60 + one.minute = other.hour * 60 + other.minute ↔
      one.hour = other.hour ∧ one.minute = other.minute := by omega
  rw [clockNumber, clockNumber, digits_lt_iff valid.seconds otherValid.seconds,
    digits_lt_iff minutes otherMinutes, same]
  simp only [and_or_left, or_assoc, and_assoc]

/-- Seconds are counted in the order of their dates and times. -/
theorem second_number_lt_iff {epoch : Nat} {one other : DateTime} (valid : one.Valid)
    (otherValid : other.Valid) (since : epoch ≤ one.year) (otherSince : epoch ≤ other.year) :
    one.secondNumber epoch < other.secondNumber epoch ↔ one.Precedes other := by
  rw [second_number_days, second_number_days,
    digits_lt_iff (clock_number_lt valid) (clock_number_lt otherValid),
    day_number_lt_iff valid otherValid since otherSince,
    day_number_eq_iff valid otherValid since otherSince, clock_number_lt_iff valid otherValid,
    Precedes]
  simp only [and_or_left, or_assoc, and_assoc]

/-- Every count of seconds that lies before some year has its date and time. -/
theorem exists_moment {epoch last count : Nat} (ordered : epoch ≤ last)
    (inside : count < before yearLength epoch last * 86400) :
    ∃ moment : DateTime, moment.Valid ∧ epoch ≤ moment.year ∧ moment.year < last ∧
      moment.secondNumber epoch = count := by
  have dayInside : count / 86400 < before yearLength epoch last := by omega
  obtain ⟨year, rest, since, early, inYear, days⟩ := exists_place yearLength ordered dayInside
  rw [← months_of_year] at inYear
  obtain ⟨month, day, monthLower, monthUpper, inMonth, dayCount⟩ :=
    exists_place (monthLength year) (by decide) inYear
  refine ⟨⟨year, month, day + 1, count % 86400 / 3600, count % 3600 / 60, count % 60⟩, ?_, since,
    early, ?_⟩
  · have hours : count % 86400 / 3600 < 24 := by omega
    have minutes : count % 3600 / 60 < 60 := by omega
    exact ⟨monthLower, Nat.le_of_lt_succ monthUpper, Nat.le_add_left 1 day, inMonth, hours,
      minutes, Nat.mod_lt count (by decide)⟩
  · have total : count / 86400 = before yearLength epoch year +
        (before (monthLength year) 1 month + day) := by omega
    simp only [secondNumber, dayNumber, dayOfYear, Nat.add_sub_cancel]
    omega

end DateTime

end Pyrometer.Calendar
