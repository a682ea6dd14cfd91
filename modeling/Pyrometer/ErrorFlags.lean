import Pyrometer.Runs
import Pyrometer.TemperatureStatus

/-!
# The error flags

Seven error flags are set and cleared by two routines that run at different rates:
`get_temp` after every pass of the measurement and `error_state_upgrade` from a timer.
The highest of them selects what the analog output reports. All flags are set when the
device starts. A history is any sequence of passes and upgrades, each with the parameters
of its time.

Temperatures of channels are exact numbers; the internal temperatures, the set-point of
the heater and the attenuation are kept in single precision.
-/

namespace Pyrometer.ErrorFlags

open BinaryFloats Runs TemperatureStatus VoltageFilter

/-- `ANA_4_20MA`. -/
def ana4To20mA : Nat := 0x34

/-- `ANA_0_10V`. -/
def ana0To10V : Nat := 0x35

/-- What the analog output of an error depends on besides the flags: the kind of output,
its two levels, and whether it is controlled automatically and without a given
temperature. -/
structure AnaPara where
  type : Nat
  exceedMinRange : Nat
  exceedMaxRange : Nat
  automatic : Bool
  tempConvert : Bool

/-- The parameters. -/
structure DevicePara where
  temp : TempPara
  setTemp : Nat
  decayRate : Nat
  ana : AnaPara

/-- What is measured: the reading of a pass and the internal temperatures. -/
structure Measurement where
  reading : Reading
  internalSpec : Nat
  internalTia : Nat

/-- What the flags are computed from, with the flags. -/
structure Device where
  temp : TempState
  internalSpec : Nat

/-- A voltage that the mode needs is zero. -/
def zeroVolt (tempMode : Nat) (volt : Spec → Int) : Bool :=
  (tempMode == 2 && (volt .wb == 0 || volt .nb == 0)) || (tempMode == 0 && volt .wb == 0) ||
    (tempMode == 1 && volt .nb == 0)

/-- The heater has a set-point. -/
def heaterOn (setTemp : Nat) : Bool := single.magnitude setTemp != 0

/-- An internal temperature is above 80 degrees. -/
def hot (internal : Nat) : Bool := single.less (single.ofInt 80) internal

/-- The heater is more than 20 degrees below its set-point. -/
def cold (setTemp internal : Nat) : Bool :=
  single.less internal (single.sub setTemp (single.ofInt 20))

/-- The attenuation in percent is above the limit. -/
def attenuated (decayRate attenuation : Nat) : Bool :=
  single.less (single.ofInt decayRate) (single.mul attenuation (single.ofInt 100))

/-- The part of `error_state_upgrade` about the detector. -/
def upgradeDetector (para : DevicePara) (device : Device) (flags : ErrorFlag → Bool) :
    ErrorFlag → Bool :=
  if zeroVolt para.temp.tempMode device.temp.targetVolt then errorStateSet .detectorFault flags
  else errorStateClear .detectorFault flags

/-- The part about the heater. -/
def upgradeHeater (para : DevicePara) (device : Device) (flags : ErrorFlag → Bool) :
    ErrorFlag → Bool :=
  if heaterOn para.setTemp then
    if hot device.internalSpec then errorStateClear .heaterLow (errorStateSet .heaterHigh flags)
    else if cold para.setTemp device.internalSpec then
      errorStateClear .heaterHigh (errorStateSet .heaterLow flags)
    else errorStateClear .heaterHigh (errorStateClear .heaterLow flags)
  else
    errorStateClear .internalHigh (errorStateClear .internalLow
      (errorStateClear .heaterHigh (errorStateClear .heaterLow flags)))

/-- The part about the attenuation. -/
def upgradeAttenuation (para : DevicePara) (device : Device) (flags : ErrorFlag → Bool) :
    ErrorFlag → Bool :=
  if attenuated para.decayRate device.temp.measuredAttenuation then
    errorStateSet .attenHigh flags
  else errorStateClear .attenHigh flags

/-- `error_state_upgrade`. -/
def errorStateUpgrade (para : DevicePara) (device : Device) : Device :=
  let flags := upgradeAttenuation para device
    (upgradeHeater para device (upgradeDetector para device device.temp.errorFlags))
  { device with temp := { device.temp with errorFlags := flags } }

/-- What happens: a pass of the measurement, with what the hold filter does, or an upgrade. -/
inductive Event where
  | pass (para : DevicePara) (hold : (TempChannel → ℚ) → TempChannel → ℚ)
      (measurement : Measurement)
  | upgrade (para : DevicePara)

/-- One event. -/
def happen (device : Device) : Event → Device
  | .pass para hold measurement =>
      ⟨getTemp para.temp hold measurement.reading device.temp, measurement.internalSpec⟩
  | .upgrade para => errorStateUpgrade para device

/-- The device when it starts. -/
def deviceStart : Device :=
  ⟨⟨fun _ => 0, fun _ => 0, fun _ => 0, 0, 0, fun _ => true⟩, 0⟩

/-- One further pass and one further upgrade with the same parameters. -/
def settle (para : DevicePara) (hold : (TempChannel → ℚ) → TempChannel → ℚ)
    (measurement : Measurement) (device : Device) : Device :=
  run happen device [.pass para hold measurement, .upgrade para]

/-- `get_highest_error_index`. -/
def getHighestErrorIndex (flags : ErrorFlag → Bool) : Int :=
  if flags .detectorFault then 0
  else if flags .heaterHigh then 1
  else if flags .heaterLow then 2
  else if flags .internalHigh then 3
  else if flags .internalLow then 4
  else if flags .energyLow then 5
  else if flags .attenHigh then 6
  else -1

/-- The outputs of an error in `err_table`, for 0 to 20 mA and for 4 to 20 mA. -/
def errTable (ana : AnaPara) (index : Int) : Nat × Nat :=
  if index = 0 ∨ index = 1 ∨ index = 3 then (ana.exceedMaxRange, ana.exceedMaxRange)
  else (0, ana.exceedMinRange)

/-- The level `anolog_output` takes for an error, if it reports one. -/
def analogErrorOutput (ana : AnaPara) (flags : ErrorFlag → Bool) : Option Nat :=
  if ana.type ≠ ana0To10V ∧ ana.automatic ∧ ¬ana.tempConvert then
    let index := getHighestErrorIndex flags
    if 0 ≤ index then
      some (if ana.type = ana4To20mA then (errTable ana index).2 else (errTable ana index).1)
    else none
  else none

/-- The published temperature is above the range. -/
def aboveRange (para : DevicePara) (measurement : Measurement) : Bool :=
  !lowVolt para.temp measurement.reading &&
    decide (para.temp.devTempMax < measurement.reading.temp (published para.temp.tempMode))

/-- The published temperature is below the range, or there is no voltage to compute one. -/
def belowRange (para : DevicePara) (measurement : Measurement) : Bool :=
  lowVolt para.temp measurement.reading ||
    decide (measurement.reading.temp (published para.temp.tempMode) < para.temp.devTempMin)

/-- The condition of a flag on the current values. The one of the internal temperature is
that of the lines of the source that are commented out. -/
def condition (para : DevicePara) (measurement : Measurement) (attenuation : Nat) :
    ErrorFlag → Bool
  | .detectorFault =>
      zeroVolt para.temp.tempMode (fun spec => reportedVolt (measurement.reading.voltRaw spec)) ||
        aboveRange para measurement
  | .heaterHigh => heaterOn para.setTemp && hot measurement.internalSpec
  | .heaterLow =>
      heaterOn para.setTemp && !hot measurement.internalSpec &&
        cold para.setTemp measurement.internalSpec
  | .internalHigh => heaterOn para.setTemp && hot measurement.internalTia
  | .internalLow =>
      heaterOn para.setTemp && !hot measurement.internalTia &&
        single.less measurement.internalTia (single.ofInt 10)
  | .energyLow => belowRange para measurement
  | .attenHigh => attenuated para.decayRate attenuation

/-- A flag that is set. -/
@[simp] theorem set_same (flag : ErrorFlag) (flags : ErrorFlag → Bool) :
    errorStateSet flag flags flag = true := Function.update_self _ _ _

/-- A flag that is cleared. -/
@[simp] theorem clear_same (flag : ErrorFlag) (flags : ErrorFlag → Bool) :
    errorStateClear flag flags flag = false := Function.update_self _ _ _

/-- Setting a flag leaves the others. -/
theorem set_other {flag other : ErrorFlag} (flags : ErrorFlag → Bool) (different : other ≠ flag) :
    errorStateSet flag flags other = flags other := Function.update_of_ne different _ _

/-- Clearing a flag leaves the others. -/
theorem clear_other {flag other : ErrorFlag} (flags : ErrorFlag → Bool)
    (different : other ≠ flag) : errorStateClear flag flags other = flags other :=
  Function.update_of_ne different _ _

/-- What an upgrade makes of the flags. -/
def upgraded (para : DevicePara) (device : Device) : ErrorFlag → Bool
  | .detectorFault => zeroVolt para.temp.tempMode device.temp.targetVolt
  | .heaterHigh => heaterOn para.setTemp && hot device.internalSpec
  | .heaterLow =>
      heaterOn para.setTemp && !hot device.internalSpec && cold para.setTemp device.internalSpec
  | .internalHigh => heaterOn para.setTemp && device.temp.errorFlags .internalHigh
  | .internalLow => heaterOn para.setTemp && device.temp.errorFlags .internalLow
  | .energyLow => device.temp.errorFlags .energyLow
  | .attenHigh => attenuated para.decayRate device.temp.measuredAttenuation

/-- An upgrade makes that of the flags. -/
theorem upgrade_flags (para : DevicePara) (device : Device) (flag : ErrorFlag) :
    (errorStateUpgrade para device).temp.errorFlags flag = upgraded para device flag := by
  unfold errorStateUpgrade upgradeAttenuation upgradeHeater upgradeDetector
  cases flag <;> simp only [upgraded] <;> split_ifs <;>
    simp_all +decide [set_other, clear_other]

/-- A pass leaves the other flags. -/
theorem get_temp_other_flags (para : TempPara) (hold : (TempChannel → ℚ) → TempChannel → ℚ)
    (reading : Reading) (state : TempState) {flag : ErrorFlag} (notEnergy : flag ≠ .energyLow)
    (notDetector : flag ≠ .detectorFault) :
    (getTemp para hold reading state).errorFlags flag = state.errorFlags flag := by
  unfold getTemp handleSingleError
  simp only
  split_ifs <;> simp only [clear_other _ notEnergy, clear_other _ notDetector,
    set_other _ notEnergy, set_other _ notDetector]

/-- The status that a pass gives the published temperature. -/
def passStatus (para : DevicePara) (measurement : Measurement) (stored : Int) : Int :=
  (placement para.temp measurement.reading stored).1

/-- A pass sets the flag for low energy by the status of the published temperature. -/
theorem get_temp_energy (para : DevicePara) (hold : (TempChannel → ℚ) → TempChannel → ℚ)
    (measurement : Measurement) (state : TempState) :
    (getTemp para.temp hold measurement.reading state).errorFlags .energyLow =
      decide (passStatus para measurement
        (state.tempOutRange (published para.temp.tempMode)) < 0) := by
  have status : (getTemp para.temp hold measurement.reading state).tempOutRange
      (published para.temp.tempMode) =
        passStatus para measurement (state.tempOutRange (published para.temp.tempMode)) := by
    unfold getTemp passStatus placement
    simp only
    split <;> rfl
  rw [← status, Bool.eq_iff_iff, decide_eq_true_eq]
  exact (handle_single_error_flags _ _).1

/-- What the flags are after one further pass and upgrade. -/
def settled (para : DevicePara) (measurement : Measurement) (attenuation : Nat) (device : Device) :
    ErrorFlag → Bool
  | .detectorFault =>
      zeroVolt para.temp.tempMode fun spec => reportedVolt (measurement.reading.voltRaw spec)
  | .heaterHigh => condition para measurement attenuation .heaterHigh
  | .heaterLow => condition para measurement attenuation .heaterLow
  | .internalHigh => heaterOn para.setTemp && device.temp.errorFlags .internalHigh
  | .internalLow => heaterOn para.setTemp && device.temp.errorFlags .internalLow
  | .energyLow => decide (passStatus para measurement
      (device.temp.tempOutRange (published para.temp.tempMode)) < 0)
  | .attenHigh => condition para measurement attenuation .attenHigh

/-- One further pass and upgrade make that of the flags. -/
theorem settle_flags (para : DevicePara) (hold : (TempChannel → ℚ) → TempChannel → ℚ)
    (measurement : Measurement) (device : Device) (flag : ErrorFlag) :
    (settle para hold measurement device).temp.errorFlags flag =
      settled para measurement (settle para hold measurement device).temp.measuredAttenuation
        device flag := by
  show (errorStateUpgrade para _).temp.errorFlags flag = _
  rw [upgrade_flags]
  cases flag with
  | detectorFault => rfl
  | heaterHigh => rfl
  | heaterLow => rfl
  | internalHigh =>
    simp only [upgraded, settled, happen]
    rw [get_temp_other_flags _ _ _ _ (by decide) (by decide)]
  | internalLow =>
    simp only [upgraded, settled, happen]
    rw [get_temp_other_flags _ _ _ _ (by decide) (by decide)]
  | energyLow => exact get_temp_energy para hold measurement device.temp
  | attenHigh => rfl

/-- The published temperature is at a limit of the range. -/
def atLimit (para : DevicePara) (measurement : Measurement) : Prop :=
  lowVolt para.temp measurement.reading = false ∧
    let temp := measurement.reading.temp (published para.temp.tempMode)
    para.temp.devTempMin ≤ temp ∧ temp ≤ para.temp.devTempMax ∧
      (temp = para.temp.devTempMin ∨ temp = para.temp.devTempMax)

/-- The heater has no set-point, a temperature above the range goes with a zero voltage, and
the temperature is at no limit. -/
def Reflected (para : DevicePara) (measurement : Measurement) : Prop :=
  heaterOn para.setTemp = false ∧
    (aboveRange para measurement = true →
      zeroVolt para.temp.tempMode
        (fun spec => reportedVolt (measurement.reading.voltRaw spec)) = true) ∧
    ¬atLimit para measurement

/-- The flags after one further pass and upgrade, whatever went before: each is set exactly
if its condition on the current values holds, and two histories with the same attenuation
have the same flags, the same highest error and the same analog output. -/
structure CurrentOnly (para : DevicePara) (measurement : Measurement) : Prop where
  exact : ∀ (history : List Event) (hold : (TempChannel → ℚ) → TempChannel → ℚ)
    (flag : ErrorFlag),
    let after := settle para hold measurement (run happen deviceStart history)
    after.temp.errorFlags flag =
      condition para measurement after.temp.measuredAttenuation flag
  same : ∀ (first second : List Event) (holdFirst holdSecond :
      (TempChannel → ℚ) → TempChannel → ℚ),
    let one := settle para holdFirst measurement (run happen deviceStart first)
    let two := settle para holdSecond measurement (run happen deviceStart second)
    one.temp.measuredAttenuation = two.temp.measuredAttenuation →
      one.temp.errorFlags = two.temp.errorFlags ∧
        getHighestErrorIndex one.temp.errorFlags = getHighestErrorIndex two.temp.errorFlags ∧
        analogErrorOutput para.ana one.temp.errorFlags =
          analogErrorOutput para.ana two.temp.errorFlags

/-- The status of a temperature that is at no limit does not depend on the stored one. -/
theorem pass_status_negative (para : DevicePara) (measurement : Measurement) (stored : Int)
    (away : ¬atLimit para measurement) :
    decide (passStatus para measurement stored < 0) = belowRange para measurement := by
  unfold passStatus placement belowRange
  cases low : lowVolt para.temp measurement.reading with
  | true => simp
  | false =>
    rw [Bool.false_or, if_neg Bool.false_ne_true]
    apply decide_eq_decide.mpr
    rcases limit_cases para.temp (measurement.reading.temp (published para.temp.tempMode)) stored
      with ⟨below, same⟩ | ⟨notBelow, _, same⟩ | ⟨larger, _, same⟩ |
        ⟨notBelow, notAbove, limited, _⟩
    · rw [same]
      exact iff_of_true (by decide) below
    · rw [same]
      exact iff_of_false (by decide) (not_lt.mpr notBelow)
    · rw [same]
      exact iff_of_false (lt_irrefl 0) (not_lt.mpr larger.le)
    · exact absurd ⟨low, notBelow, notAbove, limited⟩ away

/-- Where the flags reflect the current values, every flag follows its condition. -/
theorem reflected_exact {para : DevicePara} {measurement : Measurement}
    (reflected : Reflected para measurement) (hold : (TempChannel → ℚ) → TempChannel → ℚ)
    (device : Device) (flag : ErrorFlag) :
    (settle para hold measurement device).temp.errorFlags flag =
      condition para measurement
        (settle para hold measurement device).temp.measuredAttenuation flag := by
  obtain ⟨off, faulty, away⟩ := reflected
  rw [settle_flags]
  cases flag with
  | detectorFault =>
    simp only [settled, condition]
    cases above : aboveRange para measurement with
    | true => rw [faulty above, Bool.true_or]
    | false => rw [Bool.or_false]
  | heaterHigh => rfl
  | heaterLow => rfl
  | internalHigh => simp only [settled, condition, off, Bool.false_and]
  | internalLow => simp only [settled, condition, off, Bool.false_and]
  | energyLow => exact pass_status_negative para measurement _ away
  | attenHigh => rfl

/-- A pass with no voltage on a device that asks for one. -/
def noVoltage : Event :=
  .pass ⟨⟨0, 0, 1, 0⟩, 0, 0, ⟨0, 0, 0, true, false⟩⟩ id ⟨⟨fun _ => 0, fun _ => 0, 0⟩, 0, 0⟩

/-- An upgrade on a device whose heater has no set-point. -/
def heaterOff : Event := .upgrade ⟨⟨0, 0, 0, 0⟩, 0, 0, ⟨0, 0, 0, true, false⟩⟩

/-- The flags reflect the current values after every history exactly if the heater has no
set-point, a temperature above the range goes with a zero voltage, and the temperature is
at no limit. -/
theorem flags_current_only_iff (para : DevicePara) (measurement : Measurement) :
    CurrentOnly para measurement ↔ Reflected para measurement := by
  constructor
  · intro current
    have settles : ∀ history flag,
        settled para measurement
          (settle para id measurement (run happen deviceStart history)).temp.measuredAttenuation
          (run happen deviceStart history) flag =
        condition para measurement
          (settle para id measurement (run happen deviceStart history)).temp.measuredAttenuation
          flag :=
      fun history flag => (settle_flags para id measurement _ flag).symm.trans
        (current.exact history id flag)
    refine ⟨?_, ?_, ?_⟩
    · by_contra on
      have heated := (Bool.not_eq_false _).mp on
      have cleared := settles [heaterOff] .internalHigh
      have kept := settles [] .internalHigh
      simp only [settled, condition, heated, Bool.true_and] at cleared kept
      rw [← kept] at cleared
      exact absurd cleared (by decide)
    · intro above
      have faulty := settles [] .detectorFault
      simp only [settled, condition, above, Bool.or_true] at faulty
      exact faulty
    · rintro ⟨enough, notBelow, notAbove, limited⟩
      have energy := settles [noVoltage] .energyLow
      have status : (run happen deviceStart [noVoltage]).temp.tempOutRange
          (published para.temp.tempMode) = -1 := by
        cases published para.temp.tempMode <;> decide
      have kept : passStatus para measurement (-1) = -1 := by
        unfold passStatus placement
        rw [enough, if_neg Bool.false_ne_true]
        rcases limit_cases para.temp (measurement.reading.temp (published para.temp.tempMode)) (-1)
          with ⟨below, _⟩ | ⟨_, above, _⟩ | ⟨larger, smaller, _⟩ | ⟨_, _, _, same⟩
        · exact absurd below (not_lt.mpr notBelow)
        · exact absurd above (not_lt.mpr notAbove)
        · rcases limited with low | high
          · exact absurd low (ne_of_gt larger)
          · exact absurd high (ne_of_lt smaller)
        · rw [same]
      have inside : belowRange para measurement = false := by
        rw [belowRange, enough, Bool.false_or, decide_eq_false (not_lt.mpr notBelow)]
      simp only [settled, condition, status, kept, inside] at energy
      exact absurd energy (by decide)
  · intro reflected
    have exact : ∀ hold device flag, _ := reflected_exact reflected
    refine ⟨fun history hold flag => exact hold _ flag, ?_⟩
    intro first second holdFirst holdSecond one two attenuation
    have flags : one.temp.errorFlags = two.temp.errorFlags := by
      funext flag
      rw [exact holdFirst _ flag, exact holdSecond _ flag]
      exact congrArg (fun value => condition para measurement value flag) attenuation
    exact ⟨flags, by rw [flags], by rw [flags]⟩

/-- A wide-band device for 100 to 1000 degrees without a heater. -/
def unheatedPara : DevicePara := ⟨wideBandPara, 0, 100, ⟨0x34, 0, 0, true, false⟩⟩

/-- A temperature above its range. -/
def hotMeasurement : Measurement := ⟨⟨fun _ => 1000000, fun _ => 2000, 0⟩, 0, 0⟩

/-- The upgrade clears the fault that a pass has set for a temperature above the range. -/
theorem fault_cleared_by_upgrade : ¬CurrentOnly unheatedPara hotMeasurement := by
  intro current
  exact absurd (current.exact [] id .detectorFault) (by decide)

end Pyrometer.ErrorFlags
