import Pyrometer.ByteMemory
import Pyrometer.ErrorFlags
import Pyrometer.ExactTemperatures
import Pyrometer.LowDigits
import Pyrometer.Truncation

/-!
# The temperature on the LED tubes

`dis_led_tube_process` multiplies the temperature by ten, cuts it to 16 bits and takes its
digits apart. Four cells take the codes of the tubes, and half a cell is written at a time.

The numbers are exact. A cell that is not written has no value, and neither has the cut of a
number that 16 bits do not hold: the language defines none. A cell outside the table of codes
is read as having no value, too.
-/

namespace Pyrometer.LedTube

open ByteMemory ErrorFlags ExactTemperatures LowDigits TemperatureStatus Truncation

/-- `numchar` -/
def numchar : List Byte := [0x3F, 0x06, 0x5B, 0x4F, 0x66, 0x6D, 0x7D, 0x07, 0x7F, 0x6F]

/-- `specialchar` -/
def specialchar : List Byte :=
  [0x00, 0x71, 0x70, 0x39, 0x40, 0x0F, 0x79, 0x31, 0x77, 0x38, 0x76, 0x37, 0x3E, 0x73, 0x18, 0x5C]

/-- The blank, `specialchar[0]`. -/
def blank : Byte := specialchar.getD 0 0

/-- The minus sign, `specialchar[4]`. -/
def minus : Byte := specialchar.getD 4 0

/-- The first four characters of `err_text` in each row of `err_table`. -/
def errText : List (List Byte) :=
  [[0x79, 0x76, 0x76, 0x76], [0x79, 0x39, 0x76, 0x76], [0x79, 0x39, 0x3E, 0x3E],
   [0x79, 0x0F, 0x76, 0x76], [0x79, 0x0F, 0x3E, 0x3E], [0x79, 0x3E, 0x3E, 0x3E],
   [0x79, 0x77, 0x77, 0x77]]

/-- `ERROR_ALL_CNT` -/
def errorAllCnt : Int := 7

/-- A number cut to 16 bits, if they hold it. -/
def toInt16 (value : ℚ) : Option Int :=
  if -32768 ≤ cut value ∧ cut value ≤ 32767 then some (cut value) else none

/-- A number kept in 8 bits. -/
def toUint8 (value : Int) : Nat := (value % 256).toNat

/-- `dis_write_nixie_tube`: the halves of the cells, for `tm1639_write_buff`. -/
def disWriteNixieTube (buf : List (Option Byte)) : List (Option Byte) :=
  buf.flatMap fun cell => [cell.map (· &&& 0x0F), cell.map fun code : Byte => code >>> 4 &&& 0x0F]

/-- The cells for a negative number, made positive in 16 bits. The fourth one is not
written. -/
def negativeCells (temp : Int) : List (Option Byte) :=
  let a := toUint8 (temp.tdiv 1000)
  let b := toUint8 ((temp.tdiv 100).tmod 10)
  if a = 0 ∧ b = 0 then [some blank, some blank, some minus, none]
  else if a = 0 then [some blank, some minus, numchar[b]?, none]
  else [some minus, numchar[a]?, numchar[b]?, none]

/-- The cells for a number that is not negative. -/
def positiveCells (temp : Int) : List (Option Byte) :=
  let a := toUint8 (temp.tdiv 10000)
  let b := toUint8 ((temp.tdiv 1000).tmod 10)
  let c := toUint8 ((temp.tdiv 100).tmod 10)
  let d := toUint8 ((temp.tdiv 10).tmod 10)
  [if a = 0 then some blank else numchar[a]?,
   if a = 0 ∧ b = 0 then some blank else numchar[b]?,
   if a = 0 ∧ b = 0 ∧ c = 0 then some blank else numchar[c]?,
   numchar[d]?]

/-- `dis_led_tube_process`: what it writes, for the flags, `target_temp` and the unit. -/
def disLedTubeProcess (flags : ErrorFlag → Bool) (targetTemp : ℚ) (unit : TempUnit) :
    Option (List (Option Byte)) :=
  let temp := toInt16 (convertUint targetTemp tempUnitInternal unit * 10)
  let errIndex := getHighestErrorIndex flags
  if 0 ≤ errIndex ∧ errIndex < errorAllCnt then
    some (disWriteNixieTube ((errText.getD errIndex.toNat []).map some))
  else
    temp.map fun temp =>
      disWriteNixieTube
        (if temp < 0 then negativeCells (Int.bmod (-temp) 65536) else positiveCells temp)

/-- A number as it is read: its digits, behind a minus sign if it is negative. -/
def numeral (value : Int) : List Byte :=
  (if value < 0 then [minus] else []) ++
    (allDigits 10 value.natAbs).reverse.map fun digit => numchar.getD digit 0

/-- The four cells that read as a number, behind blanks. -/
def reading (value : Int) : List Byte :=
  List.replicate (4 - (numeral value).length) blank ++ numeral value

/-- The tubes show the temperature in the unit of the display, without its fraction. -/
def ShowsTemperature (flags : ErrorFlag → Bool) (targetTemp : ℚ) (unit : TempUnit) : Prop :=
  disLedTubeProcess flags targetTemp unit =
    some (disWriteNixieTube
      ((reading (cut (convertUint targetTemp tempUnitInternal unit))).map some))

/-- The code of a digit. -/
def code (digit : Nat) : Byte := numchar.getD digit 0

/-- Digits have codes. -/
theorem code_some : ∀ digit < 10, numchar[digit]? = some (code digit) := by
  decide

/-- The cells of a number from zero on, by its digits from the lowest on. -/
theorem reading_nat {value : Nat} {digits : List Nat} (all : allDigits 10 value = digits) :
    reading value =
      List.replicate (4 - digits.length) blank ++ digits.reverse.map code := by
  have plain : numeral value = digits.reverse.map code := by
    rw [numeral, if_neg (Int.not_lt.mpr (Int.natCast_nonneg value)), Int.natAbs_natCast, all]
    rfl
  rw [reading, plain, List.length_map, List.length_reverse]

/-- A number of one digit. -/
theorem one_digit {value : Nat} (small : value < 10) : allDigits 10 value = [value % 10] := by
  rw [all_digits_small small, Nat.mod_eq_of_lt small]

/-- A digit in front of others. -/
theorem more_digits {value : Nat} (large : 10 ≤ value) :
    allDigits 10 value = value % 10 :: allDigits 10 (value / 10) :=
  all_digits_step (by decide) large

/-- The cells of a number of up to four digits. -/
theorem reading_digits {value : Nat} (small : value < 10000) :
    (reading value).map some =
      [if value / 1000 = 0 then some blank else numchar[value / 1000]?,
       if value / 1000 = 0 ∧ value / 100 % 10 = 0 then some blank else numchar[value / 100 % 10]?,
       if value / 1000 = 0 ∧ value / 100 % 10 = 0 ∧ value / 10 % 10 = 0 then some blank
       else numchar[value / 10 % 10]?,
       numchar[value % 10]?] := by
  have units := code_some (value % 10) (Nat.mod_lt _ (by decide))
  have tens := code_some (value / 10 % 10) (Nat.mod_lt _ (by decide))
  have hundreds := code_some (value / 100 % 10) (Nat.mod_lt _ (by decide))
  have thousands := code_some (value / 1000) (by omega)
  rcases Nat.lt_or_ge value 10 with one | ten
  · rw [reading_nat (one_digit one), units, if_pos (by omega), if_pos (by omega),
      if_pos (by omega)]
    rfl
  rcases Nat.lt_or_ge value 100 with two | hundred
  · have digits : allDigits 10 value = [value % 10, value / 10 % 10] := by
      rw [more_digits ten, one_digit (by omega)]
    rw [reading_nat digits, units, tens, if_pos (by omega), if_pos (by omega), if_neg (by omega)]
    rfl
  rcases Nat.lt_or_ge value 1000 with three | thousand
  · have digits : allDigits 10 value = [value % 10, value / 10 % 10, value / 100 % 10] := by
      rw [more_digits ten, more_digits (by omega), one_digit (by omega), Nat.div_div_eq_div_mul]
    rw [reading_nat digits, units, tens, hundreds, if_pos (by omega), if_neg (by omega),
      if_neg (by omega)]
    rfl
  · have digits : allDigits 10 value =
        [value % 10, value / 10 % 10, value / 100 % 10, value / 1000] := by
      rw [more_digits ten, more_digits (by omega), more_digits (by omega),
        all_digits_small (by omega)]
      simp only [Nat.div_div_eq_div_mul]
    rw [reading_nat digits, units, tens, hundreds, thousands, if_neg (by omega),
      if_neg (by omega), if_neg (by omega)]
    rfl

/-- A small number is kept in 8 bits. -/
theorem to_uint8_nat {value : Nat} (small : value < 256) : toUint8 value = value := by
  rw [toUint8]
  omega

/-- A digit of a number from zero on. -/
theorem to_uint8_digit (temp divisor : Nat) :
    toUint8 (((temp : Int).tdiv divisor).tmod 10) = temp / divisor % 10 := by
  have small : temp / divisor % 10 < 256 := Nat.lt_trans (Nat.mod_lt _ (by decide)) (by decide)
  exact to_uint8_nat small

/-- The cells of a number from zero on are those of its tenth part. -/
theorem positive_cells {temp : Nat} (small : temp < 32768) :
    positiveCells temp = (reading ((temp / 10 : Nat) : Int)).map some := by
  have a : toUint8 ((temp : Int).tdiv 10000) = temp / 10000 :=
    to_uint8_nat (show temp / 10000 < 256 by omega)
  have b : toUint8 (((temp : Int).tdiv 1000).tmod 10) = temp / 1000 % 10 :=
    to_uint8_digit temp 1000
  have c : toUint8 (((temp : Int).tdiv 100).tmod 10) = temp / 100 % 10 := to_uint8_digit temp 100
  have d : toUint8 (((temp : Int).tdiv 10).tmod 10) = temp / 10 % 10 := to_uint8_digit temp 10
  have tenth : temp / 10 < 10000 := by omega
  rw [reading_digits tenth]
  simp only [positiveCells, a, b, c, d, Nat.div_div_eq_div_mul]

/-- Three of the four cells are written for a negative number. -/
theorem negative_cells (temp : Int) : none ∈ negativeCells temp := by
  rw [negativeCells]
  split
  case isTrue => simp
  case isFalse =>
    split
    case isTrue => simp
    case isFalse => simp

/-- Half a cell has no value where the cell has none. -/
theorem write_none (buf : List (Option Byte)) : none ∈ disWriteNixieTube buf ↔ none ∈ buf := by
  rw [disWriteNixieTube, List.mem_flatMap]
  constructor
  · rintro ⟨cell, member, half⟩
    cases cell with
    | none => exact member
    | some code => simp at half
  · exact fun member => ⟨none, member, by simp⟩

/-- The cut of a number is not negative exactly above minus one. -/
theorem cut_nonneg_iff (value : ℚ) : 0 ≤ cut value ↔ -1 < value := by
  by_cases nonneg : 0 ≤ value
  · rw [cut_nonneg nonneg]
    exact iff_of_true (Int.floor_nonneg.mpr nonneg) (by linarith)
  · rw [cut_neg (not_le.mp nonneg), Int.le_ceil_iff]
    norm_num

/-- The cut of a number is below a positive bound exactly when the number is. -/
theorem cut_lt_iff (value : ℚ) {bound : Int} (positive : 0 < bound) :
    cut value < bound ↔ value < bound := by
  by_cases nonneg : 0 ≤ value
  · rw [cut_nonneg nonneg, Int.floor_lt]
  · have negative := not_le.mp nonneg
    have above : (0 : ℚ) < bound := Int.cast_pos.mpr positive
    have below : ⌈value⌉ ≤ 0 := Int.ceil_le.mpr (by simpa using negative.le)
    rw [cut_neg negative]
    exact iff_of_true (by omega) (by linarith)

/-- The cut of a number above minus a tenth is the tenth part of the cut of ten times it. -/
theorem cut_tenth {value : ℚ} (above : -1 < value * 10) :
    cut value = cut (value * 10) / 10 := by
  by_cases nonneg : 0 ≤ value
  · have ten : 0 ≤ value * 10 := by linarith
    rw [cut_nonneg nonneg, cut_nonneg ten, Int.floor_eq_iff]
    have low := Int.floor_le (value * 10)
    have high := Int.lt_floor_add_one (value * 10)
    generalize ⌊value * 10⌋ = whole at low high
    have below : 10 * (whole / 10) ≤ whole := by omega
    have beyond : whole + 1 ≤ 10 * (whole / 10) + 10 := by omega
    have belowCast : (10 : ℚ) * ((whole / 10 : Int) : ℚ) ≤ whole := by exact_mod_cast below
    have beyondCast : (whole : ℚ) + 1 ≤ 10 * ((whole / 10 : Int) : ℚ) + 10 := by
      exact_mod_cast beyond
    constructor
    · linarith
    · linarith
  · have negative := not_le.mp nonneg
    have ten : value * 10 < 0 := by linarith
    have zero : cut (value * 10) = 0 := by
      have low := (cut_nonneg_iff (value * 10)).mpr above
      have high := (cut_lt_iff (value * 10) Int.one_pos).mpr (by norm_num; linarith)
      omega
    have small : cut value = 0 := by
      have low := (cut_nonneg_iff value).mpr (by linarith)
      have high := (cut_lt_iff value Int.one_pos).mpr (by norm_num; linarith)
      omega
    rw [small, zero]
    rfl

/-- Without an error the tubes take what the number is cut to. -/
theorem led_tube_quiet {flags : ErrorFlag → Bool} (quiet : ∀ flag, flags flag = false)
    (targetTemp : ℚ) (unit : TempUnit) :
    disLedTubeProcess flags targetTemp unit =
      (toInt16 (convertUint targetTemp tempUnitInternal unit * 10)).map fun temp =>
        disWriteNixieTube
          (if temp < 0 then negativeCells (Int.bmod (-temp) 65536) else positiveCells temp) := by
  have noError : getHighestErrorIndex flags = -1 := by
    simp [getHighestErrorIndex, quiet]
  rw [disLedTubeProcess, noError, if_neg (by decide)]

/-- A negative temperature is not shown: the fourth cell is not written. -/
theorem negative_not_shown {flags : ErrorFlag → Bool} (quiet : ∀ flag, flags flag = false)
    {targetTemp : ℚ} {unit : TempUnit}
    (negative : cut (convertUint targetTemp tempUnitInternal unit * 10) < 0) :
    ¬ ShowsTemperature flags targetTemp unit := by
  rw [ShowsTemperature, led_tube_quiet quiet, toInt16]
  generalize convertUint targetTemp tempUnitInternal unit = shown at negative ⊢
  intro shows
  split at shows
  case isTrue range =>
    have written : disWriteNixieTube (if cut (shown * 10) < 0
        then negativeCells (Int.bmod (-cut (shown * 10)) 65536)
        else positiveCells (cut (shown * 10))) =
      disWriteNixieTube ((reading (cut shown)).map some) := Option.some.inj shows
    rw [if_pos negative] at written
    have unset := (write_none _).mpr (negative_cells (Int.bmod (-cut (shown * 10)) 65536))
    rw [written, write_none] at unset
    obtain ⟨code, -, wrong⟩ := List.mem_map.mp unset
    cases wrong
  case isFalse => cases shows

/-- A temperature that is too large for 16 bits is not shown. -/
theorem large_not_shown {flags : ErrorFlag → Bool} (quiet : ∀ flag, flags flag = false)
    {targetTemp : ℚ} {unit : TempUnit}
    (large : 32768 ≤ cut (convertUint targetTemp tempUnitInternal unit * 10)) :
    ¬ ShowsTemperature flags targetTemp unit := by
  rw [ShowsTemperature, led_tube_quiet quiet, toInt16, if_neg (by omega)]
  intro shows
  cases shows

/-- Other temperatures are shown. -/
theorem small_shown {flags : ErrorFlag → Bool} (quiet : ∀ flag, flags flag = false)
    {targetTemp : ℚ} {unit : TempUnit}
    (nonneg : 0 ≤ cut (convertUint targetTemp tempUnitInternal unit * 10))
    (small : cut (convertUint targetTemp tempUnitInternal unit * 10) < 32768) :
    ShowsTemperature flags targetTemp unit := by
  rw [ShowsTemperature, led_tube_quiet quiet, toInt16]
  generalize convertUint targetTemp tempUnitInternal unit = shown at nonneg small ⊢
  have above := (cut_nonneg_iff (shown * 10)).mp nonneg
  have range : -32768 ≤ cut (shown * 10) ∧ cut (shown * 10) ≤ 32767 := by omega
  rw [if_pos range, Option.map_some, if_neg (Int.not_lt.mpr nonneg), cut_tenth above]
  obtain ⟨temp, same⟩ := Int.eq_ofNat_of_zero_le nonneg
  rw [same] at small ⊢
  rw [positive_cells (by omega)]
  rfl

/-- The tubes show the temperature exactly when ten times it, without its fraction, is
between zero and the largest number of 16 bits. -/
theorem led_tube_iff (flags : ErrorFlag → Bool) (quiet : ∀ flag, flags flag = false)
    (targetTemp : ℚ) (unit : TempUnit) :
    ShowsTemperature flags targetTemp unit ↔
      -1 < convertUint targetTemp tempUnitInternal unit * 10 ∧
        convertUint targetTemp tempUnitInternal unit * 10 < 32768 := by
  have bound := cut_lt_iff (convertUint targetTemp tempUnitInternal unit * 10)
    (by decide : (0 : Int) < 32768)
  rw [Int.cast_ofNat] at bound
  rw [← cut_nonneg_iff, ← bound]
  constructor
  · intro shows
    constructor
    · exact Int.not_lt.mp fun negative => negative_not_shown quiet negative shows
    · exact Int.not_le.mp fun large => large_not_shown quiet large shows
  · rintro ⟨nonneg, small⟩
    exact small_shown quiet nonneg small

/-- The largest temperature that can be set, in degrees Celsius. -/
theorem led_tube_largest :
    ShowsTemperature (fun _ => false) 3500 .C ↔
      -1 < convertUint 3500 tempUnitInternal .C * 10 ∧
        convertUint 3500 tempUnitInternal .C * 10 < 32768 :=
  led_tube_iff (fun _ => false) (fun _ => rfl) 3500 .C

/-- Five degrees below zero are not shown. -/
theorem five_below_not_shown : ¬ ShowsTemperature (fun _ => false) (-5) .C := by
  apply negative_not_shown fun _ => rfl
  have ten : convertUint (-5) tempUnitInternal .C * 10 = ((-50 : Int) : ℚ) := by
    have same : convertUint (-5) tempUnitInternal .C = -5 := rfl
    rw [same]
    norm_num
  rw [ten, cut_intCast]
  decide

end Pyrometer.LedTube
