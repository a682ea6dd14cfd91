import Pyrometer.AnalogOutput
import Pyrometer.TemperatureStatus

/-!
# The calibration of the analog output

`anolog_output` asks for a current or a voltage, corrects it by the line through two
calibration points, and writes what comes out to the DAC. The line of the current and the
line of the voltage are kept apart. `anolog_out_init` and the commands `IL` and `IH`
compute the line of the type that is set; `AM` and the page of the panel that set the
type compute none. The line of the voltage is zero until it is computed.

All numbers are exact, and the DAC acknowledges what it is sent. The error bit of a
voltage that is too high is left out, and so is the value for a test after calibration,
which no command sets.
-/

namespace Pyrometer.AnalogCalibration

open AnalogOutput ExactTemperatures Runs Truncation
open TemperatureStatus (ErrorFlag)

/-- `ANA_OUT_AUTO`. -/
abbrev anaOutAuto : Nat := 60000000

/-- The coefficients of a line. -/
structure Line where
  a : ℚ
  b : ℚ

/-- The members of `ana_para_t` that hold the outputs measured at the calibration points. -/
structure CalibPara where
  realCurt2ma : Nat
  realCurt20ma : Nat
  realVolt1v : Nat
  realVolt10v : Nat

/-- The analog output with its lines, and whether it is controlled automatically. -/
structure Output where
  law : AnalogOut
  para : CalibPara
  current : Line
  voltage : Line
  anaCurtValue : Nat
  anaVoltValue : Nat

/-- The line through two points: what was measured where `calibLow` and `calibHigh` were
asked for. -/
def calibLine (low high calibLow calibHigh : ℚ) : Line :=
  let a := (high - low) / (calibHigh - calibLow)
  ⟨a, high - a * calibHigh⟩

/-- The line of the current. -/
def CalibPara.currentLine (para : CalibPara) : Line :=
  calibLine para.realCurt2ma para.realCurt20ma 1000000 19500000

/-- The line of the voltage. -/
def CalibPara.voltageLine (para : CalibPara) : Line :=
  calibLine para.realVolt1v para.realVolt10v 1000000 9500000

/-- `get_current_calib_para`. -/
def getCurrentCalibPara (out : Output) : Output :=
  { out with
    anaCurtValue := anaOutAuto
    anaVoltValue := anaOutAuto
    current := out.para.currentLine }

/-- `get_voltage_calib_para`. -/
def getVoltageCalibPara (out : Output) : Output :=
  { out with
    anaCurtValue := anaOutAuto
    anaVoltValue := anaOutAuto
    voltage := out.para.voltageLine }

/-- The line of the type that is set is computed. -/
def getCalibPara (out : Output) : Output :=
  if out.law.para.type = .zero10V then getVoltageCalibPara out else getCurrentCalibPara out

/-- `anolog_out_init`. -/
def anologOutInit (out : Output) : Output :=
  getCalibPara
    { out with
      law := AnalogOutput.anologOutInit out.law
      anaCurtValue := anaOutAuto
      anaVoltValue := anaOutAuto }

/-- What one call of `anolog_output` reads: the measured temperature, the one that is given
for a test, the highest error, and the two error currents. -/
structure Asking where
  targetTemp : ℚ
  anaTempConvertValue : Option ℚ
  highestError : Option ErrorFlag
  exceedMinRange : ℚ
  exceedMaxRange : ℚ

/-- `err_table`: the current that an error asks for. -/
def Asking.analogOutput (asking : Asking) (type : AnaType) : ErrorFlag → ℚ
  | .detectorFault | .heaterHigh | .internalHigh => asking.exceedMaxRange
  | .heaterLow | .internalLow | .energyLow | .attenHigh =>
    if type = .four20mA then asking.exceedMinRange else 0

/-- What is asked for in automatic mode, if no division by zero is made for it. -/
def Output.demand (out : Output) (asking : Asking) : Option ℚ :=
  match asking.anaTempConvertValue with
  | some given => anologTempConvert out.law given
  | none =>
    if out.law.para.type = .zero10V then anologTempConvert out.law asking.targetTemp
    else
      match asking.highestError with
      | some error => some (asking.analogOutput out.law.para.type error)
      | none => anologTempConvert out.law asking.targetTemp

/-- The line that is used. -/
def Output.line (out : Output) : Line :=
  if out.law.para.type = .zero10V then out.voltage else out.current

/-- The line that the parameters give for the type. -/
def Output.computedLine (out : Output) : Line :=
  if out.law.para.type = .zero10V then out.para.voltageLine else out.para.currentLine

/-- `ANA_VTOV_COEF` or `ANA_ITOV_COEF`. -/
def coef (type : AnaType) : ℚ := if type = .zero10V then 1 / 2 else 1 / 5

/-- The value that controls the output by hand, unless it is `ANA_OUT_AUTO`. -/
def Output.manual (out : Output) : Nat :=
  if out.law.para.type = .zero10V then out.anaVoltValue else out.anaCurtValue

/-- The voltage of the DAC for what is asked for, if no division by zero is made. -/
def calibrated (line : Line) (coef demand : ℚ) : Option ℚ :=
  if line.a = 0 then none else some ((demand * 1000000 - line.b) / line.a * coef)

/-- `anolog_output`: the voltage it hands to the DAC. -/
def anologOutput (out : Output) (asking : Asking) : Option ℚ :=
  if out.manual = anaOutAuto then
    (out.demand asking).bind (calibrated out.line (coef out.law.para.type))
  else some (out.manual * coef out.law.para.type)

/-- `ltc2606_write_volt`: the code it writes. A number outside of the 16 bits has none. -/
def ltc2606WriteVolt (volt : ℚ) : Option Nat :=
  if 5000000 < volt then none
  else
    let code := cut (volt * 65535 / 5000000)
    if 0 ≤ code ∧ code < 65536 then some code.toNat else none

/-- What the output is for a code of the DAC, by its line. -/
def Line.delivered (line : Line) (coef : ℚ) (code : Nat) : ℚ :=
  line.a * (code * 5000000 / 65535 / coef) + line.b

/-- A command, or a page of the panel that is left with a type. -/
inductive Event where
  | AM (type : AnaType)
  | IL (value : Nat)
  | IH (value : Nat)
  | AL (value : ℚ)
  | AH (value : ℚ)
  | doAnalogMode (type : AnaType)

/-- A limit is stored and the output is started anew, unless the limit would pass the other
one. -/
def setLimit (out : Output) (para : AnaPara) : Output :=
  if para.upper < para.lower then out
  else anologOutInit { out with law := { out.law with para := para } }

/-- One step. -/
def step (temp : TempPara) (out : Output) : Event → Output
  | .AM type =>
    if type = .zero10V then out
    else
      { out with
        law := anaThresholdRange { out.law with para := { out.law.para with type := type } } }
  | .IL value =>
    if 900000 ≤ value ∧ value ≤ 1500000 then
      getCalibPara { out with para := { out.para with realCurt2ma := value } }
    else out
  | .IH value =>
    if 18500000 ≤ value ∧ value ≤ 24000000 then
      getCalibPara { out with para := { out.para with realCurt20ma := value } }
    else out
  | .AL value =>
    match cmdDataChk temp (tempRule true) value with
    | none => out
    | some stored => setLimit out { out.law.para with lower := stored }
  | .AH value =>
    match cmdDataChk temp (tempRule true) value with
    | none => out
    | some stored => setLimit out { out.law.para with upper := stored }
  | .doAnalogMode type =>
    { out with law := { out.law with para := { out.law.para with type := type } } }

/-- The default configuration, after `anolog_out_init` at the start. -/
def boot : Output :=
  anologOutInit
    ⟨⟨⟨.four20mA, 800, 2800⟩, ⟨0, 0, 0, 0⟩⟩, ⟨1000000, 19500000, 1000000, 10000000⟩, ⟨0, 0⟩,
      ⟨0, 0⟩, 0, 0⟩

/-- What can be asked for: the span of the type, and for a current what the commands for
the error currents accept. -/
def Demanded (type : AnaType) (demand : ℚ) : Prop :=
  ((type.lowEnd : ℚ) ≤ demand ∧ demand ≤ type.highEnd) ∨
    (type ≠ .zero10V ∧ ((0 ≤ demand ∧ demand ≤ 4) ∨ (20 ≤ demand ∧ demand ≤ 24)))

/-- What the commands for the error currents accept. -/
structure Accepted (asking : Asking) : Prop where
  min : 0 ≤ asking.exceedMinRange ∧ asking.exceedMinRange ≤ 4
  max : 20 ≤ asking.exceedMaxRange ∧ asking.exceedMaxRange ≤ 24

/-- A demand is put out: its voltage is in the range of the DAC, a code is written for it,
and by the line the output is off by less than one step of the DAC. -/
def PutOut (line : Line) (coef demand : ℚ) : Prop :=
  ∃ volt code, calibrated line coef demand = some volt ∧ 0 ≤ volt ∧ volt ≤ 5000000 ∧
    ltc2606WriteVolt volt = some code ∧
    |demand * 1000000 - line.delivered coef code| <
      line.delivered coef (code + 1) - line.delivered coef code

/-- What the calibration should be: the line is the one that the parameters give, every
call asks for something that can be asked for and hands its corrected voltage to the DAC,
and all that can be asked for is put out. -/
structure Calibrated (out : Output) : Prop where
  fresh : out.line = out.computedLine
  asked : ∀ asking, Accepted asking → ∃ demand, out.demand asking = some demand ∧
    Demanded out.law.para.type demand ∧
    anologOutput out asking = calibrated out.line (coef out.law.para.type) demand
  reached : ∀ demand, Demanded out.law.para.type demand →
    PutOut out.line (coef out.law.para.type) demand

/-- In automatic mode the calibration is what it should be. -/
def Covers (out : Output) : Prop := out.manual = anaOutAuto → Calibrated out

/-- The measured currents allow for 0 and for 24 mA. -/
def Wide (para : CalibPara) : Prop :=
  39 * para.realCurt2ma ≤ 2 * para.realCurt20ma ∧
    888000000 + 11 * para.realCurt2ma ≤ 48 * para.realCurt20ma

/-- Steps that keep the calibration right: a measured current that is stored allows for 0
and for 24 mA, a limit that is set by a command differs from the other one in hundredths,
and the panel leaves the voltage alone. -/
def Keeps (temp : TempPara) (out : Output) : Event → Prop
  | .AM _ => True
  | .IL value => 900000 ≤ value → value ≤ 1500000 →
      Wide { out.para with realCurt2ma := value }
  | .IH value => 18500000 ≤ value → value ≤ 24000000 →
      Wide { out.para with realCurt20ma := value }
  | .AL value => ∀ stored, cmdDataChk temp (tempRule true) value = some stored →
      stored ≤ out.law.para.upper → cut (stored * 100) < cut (out.law.para.upper * 100)
  | .AH value => ∀ stored, cmdDataChk temp (tempRule true) value = some stored →
      out.law.para.lower ≤ stored → cut (out.law.para.lower * 100) < cut (stored * 100)
  | .doAnalogMode type => type ≠ .zero10V

/-- The slope of the line of the current. -/
theorem current_slope (para : CalibPara) :
    para.currentLine.a = ((para.realCurt20ma : ℚ) - para.realCurt2ma) / 18500000 := by
  simp only [CalibPara.currentLine, calibLine]
  norm_num

/-- The offset of the line of the current. -/
theorem current_offset (para : CalibPara) :
    para.currentLine.b = para.realCurt20ma - para.currentLine.a * 19500000 := rfl

/-- Where the DAC is asked for a voltage in its range, the demand is put out. -/
theorem put_out {line : Line} {coef demand : ℚ} (rising : 0 < line.a) (positive : 0 < coef)
    (low : 0 ≤ (demand * 1000000 - line.b) / line.a * coef)
    (high : (demand * 1000000 - line.b) / line.a * coef ≤ 5000000) : PutOut line coef demand := by
  obtain ⟨volt, isVolt⟩ : ∃ volt, volt = (demand * 1000000 - line.b) / line.a * coef := ⟨_, rfl⟩
  rw [← isVolt] at low high
  have scaled : 0 ≤ volt * 65535 / 5000000 := by positivity
  have cutDown : cut (volt * 65535 / 5000000) = ⌊volt * 65535 / 5000000⌋ := cut_nonneg scaled
  have nonneg : 0 ≤ ⌊volt * 65535 / 5000000⌋ := Int.floor_nonneg.mpr scaled
  have atMost : ⌊volt * 65535 / 5000000⌋ < 65536 := by
    rw [Int.floor_lt]
    push_cast
    linarith
  have floored : ((⌊volt * 65535 / 5000000⌋.toNat : ℕ) : ℚ) = ⌊volt * 65535 / 5000000⌋ := by
    exact_mod_cast Int.toNat_of_nonneg nonneg
  have below := Int.floor_le (volt * 65535 / 5000000)
  have above := Int.lt_floor_add_one (volt * 65535 / 5000000)
  have back : demand * 1000000 = line.a * (volt / coef) + line.b := by
    rw [isVolt]
    field_simp
    ring
  refine ⟨volt, ⌊volt * 65535 / 5000000⌋.toNat, ?_, low, high, ?_, ?_⟩
  · rw [calibrated, if_neg rising.ne', isVolt]
  · rw [ltc2606WriteVolt, if_neg high.not_gt]
    simp only [cutDown, nonneg, atMost, and_self, if_true]
  · have step : 0 < line.a * 5000000 / 65535 / coef := by positivity
    simp only [Line.delivered, Nat.cast_add_one, floored]
    have early : demand * 1000000 -
        (line.a * (⌊volt * 65535 / 5000000⌋ * 5000000 / 65535 / coef) + line.b) =
        line.a * 5000000 / 65535 / coef *
          (volt * 65535 / 5000000 - ⌊volt * 65535 / 5000000⌋) := by
      rw [back]
      field_simp
      ring
    have late : line.a * ((⌊volt * 65535 / 5000000⌋ + 1) * 5000000 / 65535 / coef) + line.b -
        (line.a * (⌊volt * 65535 / 5000000⌋ * 5000000 / 65535 / coef) + line.b) =
        line.a * 5000000 / 65535 / coef * 1 := by
      field_simp
      ring
    rw [early, late, abs_mul, abs_of_pos step]
    apply mul_lt_mul_of_pos_left _ step
    rw [abs_of_nonneg (sub_nonneg.mpr below)]
    linarith

/-- The measured currents are in the ranges of their commands. -/
structure Measured (para : CalibPara) : Prop where
  low : 900000 ≤ para.realCurt2ma ∧ para.realCurt2ma ≤ 1500000
  high : 18500000 ≤ para.realCurt20ma ∧ para.realCurt20ma ≤ 24000000

/-- The line of measured currents rises. -/
theorem Measured.rising {para : CalibPara} (measured : Measured para) :
    0 < para.currentLine.a := by
  rw [current_slope]
  have low : (para.realCurt2ma : ℚ) ≤ 1500000 := by exact_mod_cast measured.low.2
  have high : (18500000 : ℚ) ≤ para.realCurt20ma := by exact_mod_cast measured.high.1
  linarith

/-- The corrected current is in the range of the DAC for 0 and for 24 mA exactly if the
measured currents allow for them. -/
theorem wide_iff {para : CalibPara} (measured : Measured para) :
    Wide para ↔ 0 ≤ (0 * 1000000 - para.currentLine.b) / para.currentLine.a * (1 / 5) ∧
      (24 * 1000000 - para.currentLine.b) / para.currentLine.a * (1 / 5) ≤ 5000000 := by
  have rising := measured.rising
  have slope := current_slope para
  have offset := current_offset para
  have zero : 0 ≤ (0 * 1000000 - para.currentLine.b) / para.currentLine.a * (1 / 5) ↔
      para.currentLine.b ≤ 0 := by
    rw [mul_nonneg_iff_of_pos_right (by norm_num), le_div_iff₀ rising]
    constructor
    · intro nonneg
      linarith
    · intro nonpos
      linarith
  have most : (24 * 1000000 - para.currentLine.b) / para.currentLine.a * (1 / 5) ≤ 5000000 ↔
      24000000 ≤ 25000000 * para.currentLine.a + para.currentLine.b := by
    rw [← le_div_iff₀ (by norm_num), div_le_iff₀ rising]
    constructor
    · intro inside
      linarith
    · intro inside
      linarith
  rw [zero, most, offset, slope]
  unfold Wide
  constructor
  · rintro ⟨low, high⟩
    have lowExact : 39 * (para.realCurt2ma : ℚ) ≤ 2 * para.realCurt20ma := by exact_mod_cast low
    have highExact : 888000000 + 11 * (para.realCurt2ma : ℚ) ≤ 48 * para.realCurt20ma := by
      exact_mod_cast high
    constructor <;> linarith
  · rintro ⟨low, high⟩
    have lowExact : 39 * (para.realCurt2ma : ℚ) ≤ 2 * para.realCurt20ma := by linarith
    have highExact : 888000000 + 11 * (para.realCurt2ma : ℚ) ≤ 48 * para.realCurt20ma := by
      linarith
    exact ⟨by exact_mod_cast lowExact, by exact_mod_cast highExact⟩

/-- A corrected current grows with the demand. -/
theorem calibrated_mono {line : Line} (rising : 0 < line.a) {less more : ℚ} (order : less ≤ more) :
    (less * 1000000 - line.b) / line.a * (1 / 5) ≤
      (more * 1000000 - line.b) / line.a * (1 / 5) := by
  apply mul_le_mul_of_nonneg_right _ (by norm_num)
  apply div_le_div_of_nonneg_right _ rising.le
  linarith

/-- Measured currents that allow for 0 and for 24 mA allow for all that is between. -/
theorem wide_put_out {para : CalibPara} (measured : Measured para) (wide : Wide para) {demand : ℚ}
    (low : 0 ≤ demand) (high : demand ≤ 24) : PutOut para.currentLine (1 / 5) demand := by
  obtain ⟨zero, most⟩ := (wide_iff measured).mp wide
  apply put_out measured.rising (by norm_num)
  · exact zero.trans (calibrated_mono measured.rising low)
  · exact (calibrated_mono measured.rising high).trans most

/-- A demand that is put out has its voltage in the range of the DAC. -/
theorem put_out_range {line : Line} {coef demand : ℚ} (rising : 0 < line.a)
    (put : PutOut line coef demand) :
    0 ≤ (demand * 1000000 - line.b) / line.a * coef ∧
      (demand * 1000000 - line.b) / line.a * coef ≤ 5000000 := by
  obtain ⟨volt, code, computed, low, high, -⟩ := put
  rw [calibrated, if_neg rising.ne'] at computed
  cases Option.some.inj computed
  exact ⟨low, high⟩

/-- What steps that keep the calibration right preserve: a current is put out in automatic
mode, its line is the one of the parameters and reaches all that can be asked for, and the
line of the voltage was never computed. -/
structure Kept (out : Output) : Prop where
  automatic : out.anaCurtValue = anaOutAuto ∧ out.anaVoltValue = anaOutAuto
  current : out.law.para.type ≠ .zero10V
  consistent : Consistent out.law
  span : out.law.status.currentRange ≤ 20
  apart : out.law.status.tempLower < out.law.status.tempUpper
  fresh : out.current = out.para.currentLine
  cold : out.voltage = ⟨0, 0⟩
  volts : out.para.realVolt1v = 1000000 ∧ out.para.realVolt10v = 10000000
  measured : Measured out.para
  wide : Wide out.para

/-- A current can be asked for if it is between 0 and 24 mA. -/
theorem demanded_current {type : AnaType} (current : type ≠ .zero10V) {demand : ℚ} :
    Demanded type demand ↔ 0 ≤ demand ∧ demand ≤ 24 := by
  have ends : (0 : ℚ) ≤ type.lowEnd ∧ (type.lowEnd : ℚ) ≤ 4 ∧ (type.highEnd : ℚ) = 20 := by
    cases type with
    | zero20mA => norm_num [AnaType.lowEnd, AnaType.highEnd]
    | four20mA => norm_num [AnaType.lowEnd, AnaType.highEnd]
    | zero10V => exact absurd rfl current
  obtain ⟨low, middle, high⟩ := ends
  unfold Demanded
  rw [high]
  constructor
  · rintro (⟨atLeast, atMost⟩ | ⟨-, ⟨atLeast, atMost⟩ | ⟨atLeast, atMost⟩⟩)
    · constructor <;> linarith
    · constructor <;> linarith
    · constructor <;> linarith
  · rintro ⟨atLeast, atMost⟩
    rcases le_total demand 4 with less | more
    · exact .inr ⟨current, .inl ⟨atLeast, less⟩⟩
    · rcases le_total demand 20 with inside | above
      · exact .inl ⟨middle.trans more, inside⟩
      · exact .inr ⟨current, .inr ⟨above, atMost⟩⟩

/-- A temperature asks for a current between 0 and 24 mA. -/
theorem Kept.convert {out : Output} (kept : Kept out) (temp : ℚ) :
    ∃ demand, anologTempConvert out.law temp = some demand ∧
      Demanded out.law.para.type demand := by
  have range : out.law.range = out.law.status.currentRange := by
    have current := kept.current
    unfold AnalogOut.range
    split
    case h_1 voltage => exact absurd voltage current
    case h_2 => rfl
  have positive : (0 : ℚ) < out.law.range := by exact_mod_cast kept.consistent.range_pos
  have most : (out.law.range : ℚ) ≤ 20 := by
    rw [range]
    exact_mod_cast kept.span
  have ends : (0 : ℚ) ≤ out.law.para.type.lowEnd ∧ (out.law.para.type.lowEnd : ℚ) ≤ 4 := by
    cases out.law.para.type <;> norm_num [AnaType.lowEnd]
  obtain ⟨-, low⟩ | ⟨-, high⟩ | ⟨⟨notBelow, notAbove⟩, part⟩ :=
    convert_cases kept.apart temp
  · refine ⟨_, low, .inl ⟨le_rfl, ?_⟩⟩
    exact_mod_cast (ends_apart _).le
  · refine ⟨_, high, .inl ⟨?_, le_rfl⟩⟩
    exact_mod_cast (ends_apart _).le
  · refine ⟨_, part, (demanded_current kept.current).mpr ?_⟩
    obtain ⟨atLeast, atMost⟩ := share_bounds kept.apart notBelow notAbove
    have nonneg := mul_nonneg atLeast positive.le
    have product := mul_le_mul_of_nonneg_right atMost positive.le
    constructor
    · linarith
    · linarith

/-- An error asks for a current between 0 and 24 mA. -/
theorem error_demanded {asking : Asking} (accepted : Accepted asking) {type : AnaType}
    (current : type ≠ .zero10V) (error : ErrorFlag) :
    Demanded type (asking.analogOutput type error) := by
  obtain ⟨minLow, minHigh⟩ := accepted.min
  obtain ⟨maxLow, maxHigh⟩ := accepted.max
  rw [demanded_current current]
  have low : 0 ≤ (if type = .four20mA then asking.exceedMinRange else 0) ∧
      (if type = .four20mA then asking.exceedMinRange else 0) ≤ 24 := by
    split
    · constructor <;> linarith
    · norm_num
  have high : 0 ≤ asking.exceedMaxRange ∧ asking.exceedMaxRange ≤ 24 := by
    constructor <;> linarith
  cases error with
  | detectorFault => exact high
  | heaterHigh => exact high
  | internalHigh => exact high
  | heaterLow => exact low
  | internalLow => exact low
  | energyLow => exact low
  | attenHigh => exact low

/-- Every call asks for a current between 0 and 24 mA. -/
theorem Kept.demand {out : Output} (kept : Kept out) {asking : Asking}
    (accepted : Accepted asking) :
    ∃ demand, out.demand asking = some demand ∧ Demanded out.law.para.type demand := by
  unfold Output.demand
  split
  · exact kept.convert _
  · rw [if_neg kept.current]
    split
    case h_1 error present => exact ⟨_, rfl, error_demanded accepted kept.current error⟩
    case h_2 => exact kept.convert _

/-- The output is in automatic mode. -/
theorem Kept.manual {out : Output} (kept : Kept out) : out.manual = anaOutAuto := by
  rw [Output.manual, if_neg kept.current]
  exact kept.automatic.1

/-- What is preserved makes the calibration what it should be. -/
theorem Kept.calibrated {out : Output} (kept : Kept out) : Calibrated out := by
  have line : out.line = out.para.currentLine := by
    rw [Output.line, if_neg kept.current]
    exact kept.fresh
  constructor
  · rw [line, Output.computedLine, if_neg kept.current]
  · intro asking accepted
    obtain ⟨demand, asked, demanded⟩ := kept.demand accepted
    refine ⟨demand, asked, demanded, ?_⟩
    rw [anologOutput, if_pos kept.manual, asked]
    rfl
  · intro demand demanded
    obtain ⟨low, high⟩ := (demanded_current kept.current).mp demanded
    rw [line, coef, if_neg kept.current]
    exact wide_put_out kept.measured kept.wide low high

/-- A stored measured current is followed by its line. -/
theorem Kept.measure {out : Output} (kept : Kept out) {para : CalibPara}
    (volts : para.realVolt1v = 1000000 ∧ para.realVolt10v = 10000000) (measured : Measured para)
    (wide : Wide para) : Kept (getCalibPara { out with para := para }) := by
  have same : getCalibPara { out with para := para } =
      getCurrentCalibPara { out with para := para } := if_neg kept.current
  rw [same]
  exact ⟨⟨rfl, rfl⟩, kept.current, kept.consistent, kept.span, kept.apart, rfl, kept.cold, volts,
    measured, wide⟩

/-- With measured currents that do not allow for 0 and for 24 mA the calibration is not
what it should be. -/
theorem Kept.narrow {out : Output} (kept : Kept out) {para : CalibPara}
    (measured : Measured para) (covers : Covers (getCalibPara { out with para := para })) :
    Wide para := by
  have same : getCalibPara { out with para := para } =
      getCurrentCalibPara { out with para := para } := if_neg kept.current
  rw [same] at covers
  have automatic : (getCurrentCalibPara { out with para := para }).manual = anaOutAuto := by
    rw [Output.manual]
    split <;> rfl
  have calibrated := covers automatic
  have line : (getCurrentCalibPara { out with para := para }).line = para.currentLine :=
    if_neg kept.current
  have share : coef (getCurrentCalibPara { out with para := para }).law.para.type = 1 / 5 :=
    if_neg kept.current
  have reached : ∀ demand, 0 ≤ demand → demand ≤ 24 → PutOut para.currentLine (1 / 5) demand := by
    intro demand low high
    have put := calibrated.reached demand ((demanded_current kept.current).mpr ⟨low, high⟩)
    rw [line, share] at put
    exact put
  apply (wide_iff measured).mpr
  constructor
  · exact (put_out_range measured.rising (reached 0 le_rfl (by norm_num))).1
  · exact (put_out_range measured.rising (reached 24 (by norm_num) le_rfl)).2

/-- A new start with other limits is one of the currents. -/
theorem init_current {out : Output} {para : AnaPara} (current : para.type ≠ .zero10V) :
    anologOutInit { out with law := { out.law with para := para } } =
      { out with
        law := AnalogOutput.anologOutInit { out.law with para := para }
        anaCurtValue := anaOutAuto
        anaVoltValue := anaOutAuto
        current := out.para.currentLine } := if_neg current

/-- A new start with limits that differ in hundredths keeps the calibration right. -/
theorem Kept.limits {out : Output} (kept : Kept out) {para : AnaPara}
    (type : para.type = out.law.para.type) (ordered : para.lower ≤ para.upper)
    (apart : cut (para.lower * 100) < cut (para.upper * 100)) :
    Kept (anologOutInit { out with law := { out.law with para := para } }) := by
  have current : para.type ≠ .zero10V := by
    rw [type]
    exact kept.current
  rw [init_current current]
  refine ⟨⟨rfl, rfl⟩, current, init_consistent ordered (.inr current), ?_, apart, rfl, kept.cold,
    kept.volts, kept.measured, kept.wide⟩
  simp only [AnalogOutput.anologOutInit, anaThresholdRange]
  split
  · decide
  · decide
  case h_3 voltage => exact absurd voltage current

/-- With limits that are the same in hundredths the calibration is not what it should be:
the temperature there divides by zero. -/
theorem Kept.limits_apart {out : Output} (kept : Kept out) {para : AnaPara}
    (type : para.type = out.law.para.type) (ordered : para.lower ≤ para.upper)
    (covers : Covers (anologOutInit { out with law := { out.law with para := para } })) :
    cut (para.lower * 100) < cut (para.upper * 100) := by
  have current : para.type ≠ .zero10V := by
    rw [type]
    exact kept.current
  rw [init_current current] at covers
  have cuts : cut (para.lower * 100) ≤ cut (para.upper * 100) := cut_mono (by linarith)
  apply lt_of_le_of_ne cuts
  intro same
  have automatic := covers (by rw [Output.manual]; split <;> rfl)
  obtain ⟨demand, asked, -⟩ := automatic.asked
    ⟨(cut (para.lower * 100) : ℚ) / 100, none, none, 0, 20⟩ ⟨by norm_num, by norm_num⟩
  have divided : anologTempConvert (AnalogOutput.anologOutInit { out.law with para := para })
      ((cut (para.lower * 100) : ℚ) / 100) = none := by
    simp [anologTempConvert, AnalogOutput.anologOutInit, anaThresholdRange, ← same]
  simp only [Output.demand, ite_self] at asked
  exact absurd (divided.symm.trans asked) (by simp)

/-- A limit that is set keeps the calibration right if it differs from the other one in
hundredths. -/
theorem Kept.set_limit {out : Output} (kept : Kept out) {para : AnaPara}
    (type : para.type = out.law.para.type)
    (apart : para.lower ≤ para.upper → cut (para.lower * 100) < cut (para.upper * 100)) :
    Kept (setLimit out para) := by
  unfold setLimit
  split
  · exact kept
  case isFalse inOrder =>
    have ordered := not_lt.mp inOrder
    exact kept.limits type ordered (apart ordered)

/-- A limit that is set must differ from the other one in hundredths. -/
theorem Kept.set_limit_apart {out : Output} (kept : Kept out) {para : AnaPara}
    (type : para.type = out.law.para.type) (covers : Covers (setLimit out para))
    (ordered : para.lower ≤ para.upper) :
    cut (para.lower * 100) < cut (para.upper * 100) := by
  rw [setLimit, if_neg ordered.not_gt] at covers
  exact kept.limits_apart type ordered covers

/-- The line of the voltage that the parameters give is not zero. -/
theorem voltage_line_rises {para : CalibPara}
    (volts : para.realVolt1v = 1000000 ∧ para.realVolt10v = 10000000) :
    para.voltageLine.a ≠ 0 := by
  simp only [CalibPara.voltageLine, calibLine, volts.1, volts.2]
  norm_num

/-- A careful step keeps the calibration right. -/
theorem step_kept (temp : TempPara) (out : Output) (event : Event) (kept : Kept out)
    (keeps : Keeps temp out event) : Kept (step temp out event) := by
  cases event with
  | AM type =>
    simp only [step]
    split
    · exact kept
    case isFalse current =>
      refine ⟨kept.automatic, current, threshold_consistent kept.consistent.ordered
        kept.consistent.current, ?_, kept.apart, kept.fresh, kept.cold, kept.volts, kept.measured,
        kept.wide⟩
      simp only [anaThresholdRange]
      split
      · decide
      · decide
      · exact kept.span
  | IL value =>
    simp only [step]
    split
    case isTrue inside =>
      exact kept.measure kept.volts ⟨inside, kept.measured.high⟩ (keeps inside.1 inside.2)
    case isFalse => exact kept
  | IH value =>
    simp only [step]
    split
    case isTrue inside =>
      exact kept.measure kept.volts ⟨kept.measured.low, inside⟩ (keeps inside.1 inside.2)
    case isFalse => exact kept
  | AL value =>
    simp only [step]
    split
    · exact kept
    case h_2 stored accepted => exact kept.set_limit rfl (keeps stored accepted)
  | AH value =>
    simp only [step]
    split
    · exact kept
    case h_2 stored accepted => exact kept.set_limit rfl (keeps stored accepted)
  | doAnalogMode type =>
    have consistent := kept.consistent
    exact ⟨kept.automatic, keeps, ⟨consistent.ordered, consistent.current, consistent.voltage⟩,
      kept.span, kept.apart, kept.fresh, kept.cold, kept.volts, kept.measured, kept.wide⟩

/-- A step after which the calibration is what it should be was a careful one. -/
theorem step_needed (temp : TempPara) (out : Output) (event : Event) (kept : Kept out)
    (covers : Covers (step temp out event)) : Keeps temp out event := by
  cases event with
  | AM type => exact True.intro
  | IL value =>
    intro low high
    rw [step, if_pos ⟨low, high⟩] at covers
    exact kept.narrow ⟨⟨low, high⟩, kept.measured.high⟩ covers
  | IH value =>
    intro low high
    rw [step, if_pos ⟨low, high⟩] at covers
    exact kept.narrow ⟨kept.measured.low, ⟨low, high⟩⟩ covers
  | AL value =>
    intro stored accepted ordered
    simp only [step, accepted] at covers
    exact @Kept.set_limit_apart out kept { out.law.para with lower := stored } rfl covers ordered
  | AH value =>
    intro stored accepted ordered
    simp only [step, accepted] at covers
    exact @Kept.set_limit_apart out kept { out.law.para with upper := stored } rfl covers ordered
  | doAnalogMode type =>
    rintro rfl
    have fresh := (covers kept.automatic.2).fresh
    have line : out.voltage = out.para.voltageLine := fresh
    rw [kept.cold] at line
    exact voltage_line_rises kept.volts (congrArg Line.a line).symm

/-- The default configuration is calibrated. -/
theorem boot_kept : Kept boot := by
  refine ⟨⟨rfl, rfl⟩, by decide, AnalogOutput.boot_kept.consistent, by decide,
    AnalogOutput.boot_kept.apart, rfl, rfl, ⟨rfl, rfl⟩, ?_, ?_⟩
  · exact ⟨by decide, by decide⟩
  · exact ⟨by decide, by decide⟩

/-- Along every sequence of commands and panel edits the calibration is what it should be
after each part of it exactly if all steps are careful. -/
theorem calibration_iff (temp : TempPara) (events : List Event) :
    Along (step temp) (Keeps temp) boot events ↔
      ∀ first, first <+: events → Covers (run (step temp) boot first) :=
  along_determines (step temp) (fun _ kept _ => kept.calibrated) (step_kept temp)
    (step_needed temp) boot boot_kept events

/-- The panel takes the output to the voltage, whose line is zero: the next call divides
by zero. -/
theorem voltage_page_divides :
    ¬ ∀ (temp : TempPara) (events : List Event), Covers (run (step temp) boot events) := by
  intro always
  have careful := step_needed defaultTemp boot (.doAnalogMode .zero10V) boot_kept
    (always defaultTemp [.doAnalogMode .zero10V])
  exact careful rfl

/-- `IL` with 1500000 takes the calibration away from 0 mA: its voltage is negative. -/
example : ¬ Wide { boot.para with realCurt2ma := 1500000 } := by
  intro wide
  exact absurd wide.1 (by decide)

end Pyrometer.AnalogCalibration
