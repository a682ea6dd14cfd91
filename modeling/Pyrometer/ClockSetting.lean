import Pyrometer.RtcCalendar
import Pyrometer.Scanning

/-!
# Setting the clock

The clock keeps its date and its time of day in two registers, each value as two decimal
digits: the year from 2000 on in eight bits, the others in five to seven. It is set to a
count of seconds, or by the console command `date` that reads six numbers from its
arguments; a number that an argument lacks stays what the stack held before.

The two waits of the clock may fail, and their answers are given with a call. Between two
calls the registers keep their bits: no second passes. Write protection and critical
sections are left out, and so is what the console prints.
-/

namespace Pyrometer.ClockSetting

open ByteMemory CText Calendar RtcCalendar Scanning

/-- The registers of the clock, `RTC_TIME` and `RTC_DATE`. -/
structure Rtc where
  time : BitVec 32
  date : BitVec 32

/-- The answers of the waits while the clock is set: `rtc_init_mode_enter` and
`rtc_register_sync_wait`. -/
structure Waits where
  enter : Bool
  sync : Bool

/-- `to_BCD` of a signed integer. -/
def toBcd (n : BitVec 32) : BitVec 32 := (n.sdiv 10 <<< 4) ||| n.srem 10

/-- `from_BCD`. -/
def fromBcd (n : BitVec 32) : BitVec 32 := ((n >>> 4) &&& 0x0F) * 10 + (n &&& 0x0F)

/-- Three values side by side, as they are written to a register. -/
def packed (high middle low : BitVec 32) : BitVec 32 :=
  (toBcd high <<< 16) ||| (toBcd middle <<< 8) ||| toBcd low

/-- `gd32_rtc_set_time`. -/
def setTime (rtc : Rtc) (waits : Waits) (time : RtcTime) : Int × Rtc :=
  if waits.enter then
    (if waits.sync then 0 else -1,
      { date := packed (BitVec.ofNat 32 time.year - 2000) (BitVec.ofNat 32 time.month)
          (BitVec.ofNat 32 time.mday)
        time := packed (BitVec.ofNat 32 time.hour) (BitVec.ofNat 32 time.minute)
          (BitVec.ofNat 32 time.second) })
  else (-1, rtc)

/-- `gd32_rtc_get_time`, with what the structure holds before. -/
def getTime (rtc : Rtc) (sync : Bool) (time : RtcTime) : Int × RtcTime :=
  if sync then
    (0, { year := (fromBcd ((rtc.date >>> 16) &&& 0xFF)).toNat + 2000
          month := (fromBcd ((rtc.date >>> 8) &&& 0x1F)).toNat
          mday := (fromBcd (rtc.date &&& 0x3F)).toNat
          wday := ((rtc.date >>> 13) &&& 0x07).toNat
          hour := (fromBcd ((rtc.time >>> 16) &&& 0x3F)).toNat
          minute := (fromBcd ((rtc.time >>> 8) &&& 0x7F)).toNat
          second := (fromBcd (rtc.time &&& 0x7F)).toNat })
  else (-1, time)

/-- `gd32_rtc_set_second`, with the month table that the conversion finds. There is no
result when the conversion has none. -/
def setSecond (table : List Nat) (rtc : Rtc) (waits : Waits) (val : Nat) : Option (Int × Rtc) :=
  (secToTime table val).map (fun result => setTime rtc waits result.1)

/-- `gd32_rtc_get_second`, with what the structure on the stack holds before. -/
def getSecond (rtc : Rtc) (sync : Bool) (time : RtcTime) : Nat :=
  let answer := getTime rtc sync time
  if answer.1 ≠ 0 then 0 else timeToSec answer.2

/-- What the local variables of `cmd_date` hold before the first assignment. -/
structure Stack where
  val : List Int
  time : RtcTime

/-- `"%d-%d-%d"`. -/
def dateFormat : List Directive :=
  [.number none, .exactly 0x2D, .number none, .exactly 0x2D, .number none]

/-- `"%d:%d:%d"`. -/
def clockFormat : List Directive :=
  [.number none, .exactly 0x3A, .number none, .exactly 0x3A, .number none]

/-- Three numbers scanned into variables that keep what is not scanned. -/
def scanThree (format : List Directive) (text : List Byte) (old : List Int) : List Int :=
  let numbers := (scanf format text).map signed
  numbers ++ old.drop numbers.length

/-- The ranges of the numbers of a date. -/
def dateInRange (val : List Int) : Bool :=
  decide (1970 ≤ val.getD 0 0 ∧ val.getD 0 0 ≤ 2106) &&
    decide (1 ≤ val.getD 1 0 ∧ val.getD 1 0 ≤ 12) && decide (1 ≤ val.getD 2 0 ∧ val.getD 2 0 ≤ 31)

/-- The ranges of the numbers of a time of day. -/
def clockInRange (val : List Int) : Bool :=
  decide (0 ≤ val.getD 0 0 ∧ val.getD 0 0 ≤ 23) &&
    decide (0 ≤ val.getD 1 0 ∧ val.getD 1 0 ≤ 59) && decide (0 ≤ val.getD 2 0 ∧ val.getD 2 0 ≤ 59)

/-- A structure with another date. -/
def withDate (time : RtcTime) (val : List Int) : RtcTime :=
  { time with year := (val.getD 0 0).toNat, month := (val.getD 1 0).toNat,
              mday := (val.getD 2 0).toNat }

/-- A structure with another time of day. -/
def withClock (time : RtcTime) (val : List Int) : RtcTime :=
  { time with hour := (val.getD 0 0).toNat, minute := (val.getD 1 0).toNat,
              second := (val.getD 2 0).toNat }

/-- What `cmd_date` sets the clock to: the numbers of its arguments over what it has read
from the clock, if it accepts them. -/
def dateTarget (argv : List (List Byte)) (val : List Int) (time : RtcTime) : Option RtcTime :=
  match argv with
  | [_, date] =>
      let dateVal := scanThree dateFormat date (val.take 3)
      if dateInRange dateVal then some (withDate time dateVal) else none
  | [_, date, clock] =>
      let dateVal := scanThree dateFormat date (val.take 3)
      let clockVal := scanThree clockFormat clock (val.drop 3)
      if dateInRange dateVal && clockInRange clockVal then
        some (withClock (withDate time dateVal) clockVal)
      else none
  | _ => none

/-- The results of a command. -/
inductive CmdResult where
  | success
  | parameter
deriving DecidableEq

/-- `cmd_date`, with the answer of the wait before the registers are read. -/
def cmdDate (argv : List (List Byte)) (stack : Stack) (rtc : Rtc) (sync : Bool) (waits : Waits) :
    CmdResult × Rtc :=
  if argv.length ≤ 1 then (.success, rtc)
  else
    match dateTarget argv stack.val (getTime rtc sync stack.time).2 with
    | none => (.parameter, rtc)
    | some time => (.success, (setTime rtc waits time).2)

/-- Two decimal digits in a byte. -/
def bcd (n : Nat) : Nat := n / 10 * 16 + n % 10

/-- The number that two digits of four bits stand for. -/
def unbcd (byte : Nat) : Nat := byte / 16 * 10 + byte % 16

/-- The digits stand for their number. -/
theorem unbcd_bcd (n : Nat) : unbcd (bcd n) = n := by
  rw [bcd, unbcd]
  omega

/-- A number below some tens has its digits in few bits. -/
theorem bcd_lt {n tens : Nat} (small : n < 10 * tens) : bcd n < 16 * tens := by
  rw [bcd]
  omega

/-- The digits of a number of one byte. -/
theorem to_bcd_value {n : Nat} (small : n < 256) : (toBcd (BitVec.ofNat 32 n)).toNat = bcd n := by
  revert n
  decide +kernel

/-- The number of a byte. -/
theorem from_bcd_value {n : BitVec 32} (small : n.toNat < 256) :
    (fromBcd n).toNat = unbcd n.toNat := by
  have bytes : ∀ byte < 256, (fromBcd (BitVec.ofNat 32 byte)).toNat = unbcd byte := by
    decide +kernel
  have same := bytes n.toNat small
  rwa [BitVec.ofNat_toNat, BitVec.setWidth_eq] at same

/-- The bits of a register behind a mask. -/
theorem field_value (register : BitVec 32) (shift bits : Nat) (inside : bits ≤ 8) :
    (fromBcd ((register >>> shift) &&& BitVec.ofNat 32 (2 ^ bits - 1))).toNat =
      unbcd (register.toNat / 2 ^ shift % 2 ^ bits) := by
  have power : 2 ^ bits ≤ 2 ^ 8 := Nat.pow_le_pow_right (by decide) inside
  have positive : 0 < 2 ^ bits := Nat.two_pow_pos bits
  have value : ((register >>> shift) &&& BitVec.ofNat 32 (2 ^ bits - 1)).toNat =
      register.toNat / 2 ^ shift % 2 ^ bits := by
    rw [BitVec.toNat_and, BitVec.toNat_ushiftRight, BitVec.toNat_ofNat,
      Nat.mod_eq_of_lt (by omega), Nat.and_two_pow_sub_one_eq_mod, Nat.shiftRight_eq_div_pow]
  have small : register.toNat / 2 ^ shift % 2 ^ bits < 2 ^ bits := Nat.mod_lt _ positive
  rw [from_bcd_value (by omega), value]

/-- Values of one byte do not overlap in a register. -/
theorem packed_value {high middle low : Nat} (middleSmall : middle < 160) (lowSmall : low < 160)
    (highSmall : high < 256) :
    (packed (BitVec.ofNat 32 high) (BitVec.ofNat 32 middle) (BitVec.ofNat 32 low)).toNat =
      bcd high * 2 ^ 16 + bcd middle * 2 ^ 8 + bcd low := by
  have middleByte : bcd middle < 2 ^ 8 := by
    rw [bcd]
    omega
  have lowByte : bcd low < 2 ^ 8 := by
    rw [bcd]
    omega
  have highWord : bcd high < 2 ^ 9 := by
    rw [bcd]
    omega
  rw [packed, BitVec.toNat_or, BitVec.toNat_or, BitVec.toNat_shiftLeft, BitVec.toNat_shiftLeft,
    to_bcd_value highSmall, to_bcd_value (by omega), to_bcd_value (by omega), Nat.or_assoc,
    Nat.mod_eq_of_lt (by rw [Nat.shiftLeft_eq]; omega),
    Nat.mod_eq_of_lt (by rw [Nat.shiftLeft_eq]; omega),
    ← Nat.shiftLeft_add_eq_or_of_lt lowByte, ← Nat.shiftLeft_add_eq_or_of_lt,
    Nat.shiftLeft_eq, Nat.shiftLeft_eq, Nat.add_assoc]
  rw [Nat.shiftLeft_eq]
  omega

/-- The lowest bits of a register. -/
theorem low_field_value (register : BitVec 32) (bits : Nat) (inside : bits ≤ 8) :
    (fromBcd (register &&& BitVec.ofNat 32 (2 ^ bits - 1))).toNat =
      unbcd (register.toNat % 2 ^ bits) := by
  have shifted := field_value register 0 bits inside
  rwa [BitVec.ushiftRight_zero, Nat.pow_zero, Nat.div_one] at shifted

/-- What is read of the time of day. -/
theorem clock_fields (rtc : Rtc) (old : RtcTime) :
    (getTime rtc true old).2.hour = unbcd (rtc.time.toNat / 2 ^ 16 % 2 ^ 6) ∧
      (getTime rtc true old).2.minute = unbcd (rtc.time.toNat / 2 ^ 8 % 2 ^ 7) ∧
        (getTime rtc true old).2.second = unbcd (rtc.time.toNat % 2 ^ 7) :=
  ⟨field_value rtc.time 16 6 (by decide), field_value rtc.time 8 7 (by decide),
    low_field_value rtc.time 7 (by decide)⟩

/-- What is read of the date. -/
theorem date_fields (rtc : Rtc) (old : RtcTime) :
    (getTime rtc true old).2.year = unbcd (rtc.date.toNat / 2 ^ 16 % 2 ^ 8) + 2000 ∧
      (getTime rtc true old).2.month = unbcd (rtc.date.toNat / 2 ^ 8 % 2 ^ 5) ∧
        (getTime rtc true old).2.mday = unbcd (rtc.date.toNat % 2 ^ 6) :=
  ⟨congrArg (fun year => year + 2000) (field_value rtc.date 16 8 (by decide)),
    field_value rtc.date 8 5 (by decide), low_field_value rtc.date 6 (by decide)⟩

/-- The date that the registers hold after the clock is set in the years they can count. -/
theorem set_date_read (rtc : Rtc) {waits : Waits} {time : RtcTime} (entered : waits.enter = true)
    (since : 2000 ≤ time.year) (early : time.year ≤ 2106) (month : time.month ≤ 12)
    (day : time.mday ≤ 31) (old : RtcTime) :
    (getTime (setTime rtc waits time).2 true old).2.year = time.year ∧
      (getTime (setTime rtc waits time).2 true old).2.month = time.month ∧
        (getTime (setTime rtc waits time).2 true old).2.mday = time.mday := by
  have years : BitVec.ofNat 32 time.year - 2000 = BitVec.ofNat 32 (time.year - 2000) := by
    bv_omega
  have value : (setTime rtc waits time).2.date.toNat =
      bcd (time.year - 2000) * 2 ^ 16 + bcd time.month * 2 ^ 8 + bcd time.mday := by
    simp only [setTime, entered, if_true, years]
    exact packed_value (by omega) (by omega) (by omega)
  obtain ⟨yearRead, monthRead, dayRead⟩ := date_fields (setTime rtc waits time).2 old
  have yearBits : bcd (time.year - 2000) < 16 * 11 := bcd_lt (by omega)
  have monthBits : bcd time.month < 16 * 2 := bcd_lt (by omega)
  have dayBits : bcd time.mday < 16 * 4 := bcd_lt (by omega)
  rw [yearRead, monthRead, dayRead, value]
  refine ⟨?_, ?_, ?_⟩
  · rw [show (bcd (time.year - 2000) * 2 ^ 16 + bcd time.month * 2 ^ 8 + bcd time.mday) / 2 ^ 16 %
      2 ^ 8 = bcd (time.year - 2000) by omega, unbcd_bcd]
    omega
  · rw [show (bcd (time.year - 2000) * 2 ^ 16 + bcd time.month * 2 ^ 8 + bcd time.mday) / 2 ^ 8 %
      2 ^ 5 = bcd time.month by omega, unbcd_bcd]
  · rw [show (bcd (time.year - 2000) * 2 ^ 16 + bcd time.month * 2 ^ 8 + bcd time.mday) %
      2 ^ 6 = bcd time.mday by omega, unbcd_bcd]

/-- A number comes back from its digits cut to six bits exactly when it is below forty. -/
theorem cut_six_iff {n : Nat} (small : n < 100) : unbcd (bcd n % 2 ^ 6) = n ↔ n < 40 := by
  revert n
  decide

/-- A number comes back from its digits cut to seven bits exactly when it is below eighty. -/
theorem cut_seven_iff {n : Nat} (small : n < 100) : unbcd (bcd n % 2 ^ 7) = n ↔ n < 80 := by
  revert n
  decide

/-- What a field of seven bits or less can stand for. -/
theorem unbcd_lt {byte : Nat} (small : byte < 2 ^ 7) : unbcd byte < 100 := by
  rw [unbcd]
  omega

/-- The time of day that the registers hold after the clock is set. -/
theorem set_clock_read (rtc : Rtc) {waits : Waits} (time : RtcTime) (entered : waits.enter = true)
    (old : RtcTime) :
    ((getTime (setTime rtc waits time).2 true old).2.hour = time.hour ∧
      (getTime (setTime rtc waits time).2 true old).2.minute = time.minute ∧
        (getTime (setTime rtc waits time).2 true old).2.second = time.second) ↔
      time.hour < 40 ∧ time.minute < 80 ∧ time.second < 80 := by
  obtain ⟨hourRead, minuteRead, secondRead⟩ := clock_fields (setTime rtc waits time).2 old
  rw [hourRead, minuteRead, secondRead]
  by_cases small : time.hour < 100 ∧ time.minute < 100 ∧ time.second < 100
  · obtain ⟨hour, minute, second⟩ := small
    have value : (setTime rtc waits time).2.time.toNat =
        bcd time.hour * 2 ^ 16 + bcd time.minute * 2 ^ 8 + bcd time.second := by
      simp only [setTime, entered, if_true]
      exact packed_value (by omega) (by omega) (by omega)
    have hourBits : bcd time.hour < 16 * 10 := bcd_lt hour
    have minuteBits : bcd time.minute < 16 * 10 := bcd_lt minute
    have secondBits : bcd time.second < 16 * 10 := bcd_lt second
    have hourField : (setTime rtc waits time).2.time.toNat / 2 ^ 16 % 2 ^ 6 =
        bcd time.hour % 2 ^ 6 := by omega
    have minuteField : (setTime rtc waits time).2.time.toNat / 2 ^ 8 % 2 ^ 7 =
        bcd time.minute % 2 ^ 7 := by omega
    have secondField : (setTime rtc waits time).2.time.toNat % 2 ^ 7 =
        bcd time.second % 2 ^ 7 := by omega
    rw [hourField, minuteField, secondField, cut_six_iff hour, cut_seven_iff minute,
      cut_seven_iff second]
  · have hourLess := unbcd_lt (Nat.lt_of_lt_of_le
      (Nat.mod_lt ((setTime rtc waits time).2.time.toNat / 2 ^ 16) (show 0 < 2 ^ 6 by decide))
      (by decide))
    have minuteLess := unbcd_lt
      (Nat.mod_lt ((setTime rtc waits time).2.time.toNat / 2 ^ 8) (show 0 < 2 ^ 7 by decide))
    have secondLess := unbcd_lt
      (Nat.mod_lt ((setTime rtc waits time).2.time.toNat) (show 0 < 2 ^ 7 by decide))
    omega

/-- The date is one of the calendar. -/
def DateExists (time : RtcTime) : Prop :=
  1 ≤ time.month ∧ time.month ≤ 12 ∧ 1 ≤ time.mday ∧ time.mday ≤ monthLength time.year time.month

/-- Whenever the clock can be read, it has some date and time, on a date that exists. -/
def ReadsAs (rtc : Rtc) (time : RtcTime) : Prop :=
  ∀ sync old, (getTime rtc sync old).1 = 0 →
    (getTime rtc sync old).2.moment = time.moment ∧ DateExists (getTime rtc sync old).2

/-- Whenever the clock can be read, it has some count of seconds, on a date that exists. -/
def ReadsCount (rtc : Rtc) (val : Nat) : Prop :=
  ∀ sync old, (getTime rtc sync old).1 = 0 →
    getSecond rtc sync old = val ∧ DateExists (getTime rtc sync old).2

/-- What `date` accepts lies in the ranges it checks. -/
theorem target_ranges {argv : List (List Byte)} {val : List Int} {time target : RtcTime}
    (accepted : dateTarget argv val time = some target) :
    target.year ≤ 2106 ∧ 1 ≤ target.month ∧ target.month ≤ 12 ∧
      1 ≤ target.mday ∧ target.mday ≤ 31 := by
  have ranges : ∀ dateVal : List Int, dateInRange dateVal = true →
      (dateVal.getD 0 0).toNat ≤ 2106 ∧ 1 ≤ (dateVal.getD 1 0).toNat ∧
        (dateVal.getD 1 0).toNat ≤ 12 ∧ 1 ≤ (dateVal.getD 2 0).toNat ∧
          (dateVal.getD 2 0).toNat ≤ 31 := by
    intro dateVal inRange
    simp only [dateInRange, Bool.and_eq_true, decide_eq_true_eq] at inRange
    omega
  unfold dateTarget at accepted
  split at accepted
  · obtain ⟨inRange, found⟩ := Option.ite_none_right_eq_some.mp accepted
    obtain rfl := Option.some.inj found
    exact ranges _ inRange
  · obtain ⟨inRange, found⟩ := Option.ite_none_right_eq_some.mp accepted
    obtain rfl := Option.some.inj found
    exact ranges _ (Bool.and_eq_true_iff.mp inRange).1
  · cases accepted

/-- A reported success means that the registers were written. -/
theorem set_time_success {rtc : Rtc} {waits : Waits} {time : RtcTime}
    (success : (setTime rtc waits time).1 = 0) : waits.enter = true := by
  cases entered : waits.enter with
  | true => rfl
  | false =>
    rw [setTime, entered] at success
    exact absurd (show (-1 : Int) = 0 from success) (by decide)

/-- A clock that can be read waits with success. -/
theorem get_time_success {rtc : Rtc} {sync : Bool} {old : RtcTime}
    (success : (getTime rtc sync old).1 = 0) : sync = true := by
  cases sync with
  | true => rfl
  | false => exact absurd (show (-1 : Int) = 0 from success) (by decide)

/-- A command that accepts a date and time sets the clock to it. -/
theorem cmd_date_registers {argv : List (List Byte)} {stack : Stack} {rtc : Rtc} {sync : Bool}
    {target : RtcTime} (accepted : dateTarget argv stack.val (getTime rtc sync stack.time).2 =
      some target) (waits : Waits) :
    (cmdDate argv stack rtc sync waits).2 = (setTime rtc waits target).2 := by
  have several : ¬argv.length ≤ 1 := by
    intro short
    unfold dateTarget at accepted
    split at accepted
    · exact absurd short (by simp)
    · exact absurd short (by simp)
    · cases accepted
  rw [cmdDate, if_neg several, accepted]

/-- The years before 2000 and the days that a month lacks are what the clock cannot keep. -/
theorem reads_as_iff (rtc : Rtc) {target : RtcTime} (early : target.year ≤ 2106)
    (monthLower : 1 ≤ target.month) (monthUpper : target.month ≤ 12)
    (dayLower : 1 ≤ target.mday) (dayUpper : target.mday ≤ 31) :
    (∀ waits, (setTime rtc waits target).1 = 0 → ReadsAs (setTime rtc waits target).2 target) ↔
      2000 ≤ target.year ∧ target.mday ≤ monthLength target.year target.month ∧
        target.hour < 40 ∧ target.minute < 80 ∧ target.second < 80 := by
  constructor
  · intro faithful
    obtain ⟨same, exist⟩ := faithful ⟨true, true⟩ rfl true target rfl
    have clock := (set_clock_read rtc target (show Waits.enter ⟨true, true⟩ = true from rfl)
      target).mp ⟨congrArg DateTime.hour same, congrArg DateTime.minute same,
        congrArg DateTime.second same⟩
    have years := (date_fields (setTime rtc ⟨true, true⟩ target).2 target).1
    have dayInside := exist.2.2.2
    generalize (getTime (setTime rtc ⟨true, true⟩ target).2 true target).2 = read
      at same years dayInside
    have year : read.year = target.year := congrArg DateTime.year same
    have month : read.month = target.month := congrArg DateTime.month same
    have day : read.mday = target.mday := congrArg DateTime.day same
    rw [year] at years
    rw [year, month, day] at dayInside
    exact ⟨years ▸ Nat.le_add_left _ _, dayInside, clock⟩
  · rintro ⟨since, dayInside, clock⟩ waits success sync old read
    have entered := set_time_success success
    obtain rfl := get_time_success read
    obtain ⟨year, month, day⟩ :=
      set_date_read rtc entered since early monthUpper dayUpper old
    obtain ⟨hour, minute, second⟩ := (set_clock_read rtc target entered old).mpr clock
    refine ⟨?_, ?_⟩
    · rw [RtcTime.moment, year, month, day, hour, minute, second, RtcTime.moment]
    · rw [DateExists, year, month, day]
      exact ⟨monthLower, monthUpper, dayLower, dayInside⟩

/-- The beginning of the years that the clock can count. -/
def millennium : DateTime := ⟨2000, 1, 1, 0, 0, 0⟩

/-- The seconds up to the year 2000. -/
theorem millennium_seconds : millennium.secondNumber startYear = 946684800 := by
  have years : before yearLength startYear 2000 + 719162 + 19 = 729635 + 499 + 4 :=
    days_since_epoch (show 1970 ≤ 2000 by decide)
  have days : millennium.dayNumber startYear = before yearLength startYear 2000 +
      (before (monthLength 2000) 1 1 + (1 - 1)) := by
    rw [DateTime.dayNumber, DateTime.dayOfYear, millennium]
  rw [DateTime.secondNumber, days, before_first]
  generalize before yearLength startYear 2000 = count at years
  simp only [millennium]
  omega

/-- The counts from the year 2000 on. -/
theorem since_millennium {moment : DateTime} (valid : moment.Valid)
    (since : startYear ≤ moment.year) :
    946684800 ≤ moment.secondNumber startYear ↔ 2000 ≤ moment.year := by
  have start : millennium.Valid :=
    ⟨by decide, by decide, by decide, by decide, by decide, by decide, by decide⟩
  have order := DateTime.second_number_lt_iff valid start since
    (show startYear ≤ millennium.year from (show 1970 ≤ 2000 by decide))
  have monthLower := valid.monthLower
  have dayLower := valid.dayLower
  rw [millennium_seconds] at order
  rw [← Nat.not_lt, order, DateTime.Precedes]
  simp only [millennium]
  omega

/-- A count of 32 bits ends in the year 2106. -/
theorem last_year {moment : DateTime} (valid : moment.Valid) (since : startYear ≤ moment.year)
    (fits : moment.secondNumber startYear < 2 ^ 32) : moment.year ≤ 2106 := by
  refine Nat.le_of_not_lt (fun late => ?_)
  have order := (DateTime.second_number_lt_iff last_moment_valid valid
    (show startYear ≤ lastMoment.year from (show 1970 ≤ 2106 by decide)) since).mpr (Or.inl late)
  rw [last_moment_seconds] at order
  omega

/-- No month has more than 31 days. -/
theorem month_length_le (year month : Nat) : monthLength year month ≤ 31 := by
  rw [monthLength]
  split_ifs <;> decide

/-- The days of the years that eight bits can count from 2000 on. -/
theorem day_number_small {moment : DateTime} (valid : moment.Valid)
    (since : startYear ≤ moment.year) (early : moment.year ≤ 2165) :
    moment.dayNumber startYear < 99000 := by
  have inYear := DateTime.day_of_year_lt valid
  have later : 1970 ≤ moment.year := since
  have days : before yearLength startYear (moment.year - 1 + 1) + 719162 +
      (moment.year - 1) / 100 = 365 * (moment.year - 1) + (moment.year - 1) / 4 +
        (moment.year - 1) / 400 := days_since_epoch (by omega)
  rw [Nat.sub_add_cancel (by omega)] at days
  rw [yearLength] at inYear
  rw [DateTime.dayNumber]
  split_ifs at inYear <;> omega

/-- Days that differ are not made equal by the overflow of the seconds. -/
theorem overflow_keeps_days {days otherDays hour minute second : Nat} (small : days < 99000)
    (more : otherDays < days) :
    (((days * 24 + hour) * 60 + minute) * 60 + second) % 2 ^ 32 ≠
      ((otherDays * 24 + hour) * 60 + minute) * 60 + second := by
  omega

/-- A time of day that is read on another day shows another count. -/
theorem count_of_other_year {read : RtcTime} {moment : DateTime} (valid : moment.Valid)
    (since : startYear ≤ moment.year) (exist : DateExists read)
    (hour : read.hour = moment.hour) (minute : read.minute = moment.minute)
    (second : read.second = moment.second) (early : read.year ≤ 2165)
    (later : moment.year < read.year) :
    timeToSec read ≠ moment.secondNumber startYear := by
  have readValid : read.moment.Valid := ⟨exist.1, exist.2.1, exist.2.2.1, exist.2.2.2,
    lt_of_eq_of_lt hour valid.hours, lt_of_eq_of_lt minute valid.minutes,
    lt_of_eq_of_lt second valid.seconds⟩
  have readSince : startYear ≤ read.moment.year := Nat.le_of_lt (Nat.lt_of_le_of_lt since later)
  have small := day_number_small readValid readSince early
  have more := (DateTime.day_number_lt_iff valid readValid since readSince).mpr (Or.inl later)
  have seconds : read.moment.secondNumber startYear =
      ((read.moment.dayNumber startYear * 24 + moment.hour) * 60 + moment.minute) * 60 +
        moment.second := by
    rw [← hour, ← minute, ← second]
    rfl
  rw [time_to_sec_wraps readValid readSince (Nat.lt_trans small (by decide)), seconds,
    DateTime.secondNumber]
  exact overflow_keeps_days small more

/-- Of all counts, the clock keeps those from the year 2000 on. -/
theorem reads_count_iff {table : List Nat} (reached : Reached table) (rtc : Rtc) {val : Nat}
    (fits : val < 2 ^ 32) :
    (∀ waits after, setSecond table rtc waits val = some (0, after) → ReadsCount after val) ↔
      946684800 ≤ val := by
  obtain ⟨moment, valid, since, rfl, left, found⟩ := sec_to_time_count reached fits
  have setTo : ∀ waits, setSecond table rtc waits (moment.secondNumber startYear) =
      some (setTime rtc waits (timeOf moment)) := by
    intro waits
    rw [setSecond, found, Option.map_some]
  have dayUpper := Nat.le_trans valid.dayUpper (month_length_le moment.year moment.month)
  rw [since_millennium valid since]
  constructor
  · intro faithful
    by_contra early
    have entered : Waits.enter ⟨true, true⟩ = true := rfl
    obtain ⟨count, exist⟩ := faithful ⟨true, true⟩
      (setTime rtc ⟨true, true⟩ (timeOf moment)).2 (setTo _) true (timeOf moment) rfl
    rw [getSecond, if_neg (not_not.mpr (show (getTime _ true _).1 = 0 from rfl))] at count
    have clock := (set_clock_read rtc (timeOf moment) entered (timeOf moment)).mpr
      ⟨by have := valid.hours; simp only [timeOf]; omega,
        by have := valid.minutes; simp only [timeOf]; omega,
        by have := valid.seconds; simp only [timeOf]; omega⟩
    have years := (date_fields (setTime rtc ⟨true, true⟩ (timeOf moment)).2 (timeOf moment)).1
    generalize (getTime (setTime rtc ⟨true, true⟩ (timeOf moment)).2 true (timeOf moment)).2 = read
      at count exist clock years
    have byte := Nat.mod_lt
      ((setTime rtc ⟨true, true⟩ (timeOf moment)).2.date.toNat / 2 ^ 16) (show 0 < 2 ^ 8 by decide)
    rw [unbcd] at years
    exact count_of_other_year valid since exist clock.1 clock.2.1 clock.2.2 (by omega) (by omega)
      count
  · intro late waits after success sync old read
    rw [setTo, Option.some.injEq, Prod.ext_iff] at success
    obtain ⟨reported, rfl⟩ := success
    have hours := valid.hours
    have minutes := valid.minutes
    have seconds := valid.seconds
    have clock : (timeOf moment).hour < 40 ∧ (timeOf moment).minute < 80 ∧
        (timeOf moment).second < 80 := by
      simp only [timeOf]
      omega
    have written := (reads_as_iff rtc (last_year valid since fits) valid.monthLower
      valid.monthUpper valid.dayLower dayUpper).mpr ⟨late, valid.dayUpper, clock⟩
    obtain ⟨same, exist⟩ := written waits reported sync old read
    refine ⟨?_, exist⟩
    rw [getSecond, if_neg (not_not.mpr read)]
    generalize (getTime (setTime rtc waits (timeOf moment)).2 sync old).2 = again at same
    obtain rfl : again.moment = moment := same
    exact time_to_sec_moment valid since fits

/-- The clock keeps what it is set to, on a date that exists, exactly from the year 2000 on
and on the days that a month has. A command with a date alone also takes over the time of
day of the clock. -/
theorem clock_setting_iff (rtc : Rtc) :
    (∀ argv stack sync target,
      dateTarget argv stack.val (getTime rtc sync stack.time).2 = some target →
        ((∀ waits, (setTime rtc waits target).1 = 0 →
          ReadsAs (cmdDate argv stack rtc sync waits).2 target) ↔
            2000 ≤ target.year ∧ target.mday ≤ monthLength target.year target.month ∧
              target.hour < 40 ∧ target.minute < 80 ∧ target.second < 80)) ∧
    (∀ table val, Reached table → val < 2 ^ 32 →
      ((∀ waits after, setSecond table rtc waits val = some (0, after) →
        ReadsCount after val) ↔ 946684800 ≤ val)) := by
  refine ⟨?_, ?_⟩
  · intro argv stack sync target accepted
    obtain ⟨early, monthLower, monthUpper, dayLower, dayUpper⟩ := target_ranges accepted
    simp only [cmd_date_registers accepted]
    exact reads_as_iff rtc early monthLower monthUpper dayLower dayUpper
  · intro table val reached fits
    exact reads_count_iff reached rtc fits

/-- The last count is kept. -/
theorem clock_setting_last_count : ∀ waits after,
    setSecond monthDays ⟨0, 0⟩ waits 4294967295 = some (0, after) → ReadsCount after 4294967295 :=
  ((clock_setting_iff ⟨0, 0⟩).2 monthDays 4294967295 ⟨[], rfl⟩ (by decide)).mpr (by decide)

/-- The last second of 1999 is accepted and set with success, and read in the year 2165. -/
theorem last_century_lost :
    ¬∀ argv stack rtc sync target,
      dateTarget argv stack.val (getTime rtc sync stack.time).2 = some target →
        ∀ waits, (setTime rtc waits target).1 = 0 →
          ReadsAs (cmdDate argv stack rtc sync waits).2 target := by
  intro faithful
  have read := faithful [ascii "date", ascii "1999-12-31", ascii "23:59:59"]
    ⟨[0, 0, 0, 0, 0, 0], ⟨0, 0, 0, 0, 0, 0, 0⟩⟩ ⟨0, 0⟩ true ⟨1999, 12, 31, 0, 23, 59, 59⟩
    (by decide) ⟨true, true⟩ (by decide) true ⟨0, 0, 0, 0, 0, 0, 0⟩ (by decide)
  exact absurd (congrArg DateTime.year read.1) (by decide)

end Pyrometer.ClockSetting
