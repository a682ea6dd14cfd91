import Pyrometer.ExactTemperatures
import Pyrometer.Runs

/-!
# The dead bands of the alarms

`alarm_task` trips an alarm when its reading reaches a threshold and releases it when
the reading has fallen by a dead band. Thresholds and dead bands are set by commands in
the unit of the device and are stored in degrees Celsius, and both go through the same
conversion. All numbers are exact: the conversions have no rounding.

A reading between the two leaves the alarm as it is. The other fields of the parameters
are left out.
-/

namespace Pyrometer.DeadBands

open ExactTemperatures Runs

/-- `alarm_para_t`, as far as `alarm_task` reads it. -/
structure AlarmPara where
  relayAlarmMode : Nat
  targetTempAlarmOn : ℚ
  targetTempAlarmOff : ℚ
  internalTempAlarmOn : ℚ
  internalTempAlarmOff : ℚ
  attenuationAlarmOn : ℚ
  attenuationAlarmOff : ℚ

/-- The rows of `CMD_TBL` for the two thresholds and the two dead bands. All four are in
`TEMP_CMD_TBL`. -/
inductive AlarmCommand where
  | TON
  | TOF
  | ION
  | IOF
  deriving DecidableEq

/-- The rule of a row: only the threshold of the target temperature must stay inside the
range of the device. -/
def AlarmCommand.rule : AlarmCommand → Rule
  | .TON => tempRule true
  | .TOF => ⟨0, 150, false⟩
  | .ION => ⟨-40, 150, false⟩
  | .IOF => ⟨0, 150, false⟩

/-- The parameter of a row. -/
def AlarmCommand.read (para : AlarmPara) : AlarmCommand → ℚ
  | .TON => para.targetTempAlarmOn
  | .TOF => para.targetTempAlarmOff
  | .ION => para.internalTempAlarmOn
  | .IOF => para.internalTempAlarmOff

/-- Store into the parameter of a row. -/
def AlarmCommand.write (para : AlarmPara) (value : ℚ) : AlarmCommand → AlarmPara
  | .TON => { para with targetTempAlarmOn := value }
  | .TOF => { para with targetTempAlarmOff := value }
  | .ION => { para with internalTempAlarmOn := value }
  | .IOF => { para with internalTempAlarmOff := value }

/-- A command that sets one of the rows. -/
def setAlarm (temp : TempPara) (para : AlarmPara) (cmd : AlarmCommand) (value : ℚ) :
    Option AlarmPara :=
  (cmdDataChk temp cmd.rule value).map fun stored => cmd.write para stored

/-- What a command that asks for one of the rows returns. -/
def getAlarm (temp : TempPara) (para : AlarmPara) (cmd : AlarmCommand) : ℚ :=
  answer temp (cmd.read para)

/-- What `alarm_task` reads of the measurement. -/
structure Reading where
  targetTemp : ℚ
  internalTemp : ℚ
  measuredAttenuation : ℚ

/-- The three alarms, and the relay. -/
structure Alarm where
  targetAlarmActive : Bool
  internalAlarmActive : Bool
  decayAlarmActive : Bool
  relay : Bool

/-- One alarm: it trips at the threshold and releases when the reading has fallen by the
dead band. -/
def update (on off : ℚ) (active : Bool) (reading : ℚ) : Bool :=
  if on ≤ reading then true else if reading ≤ on - off then false else active

/-- The relay for a mode. Another mode leaves it alone. -/
def relayState (mode : Nat) (target internal decay relay : Bool) : Bool :=
  match mode with
  | 0 => false
  | 1 => true
  | 2 => target || internal
  | 3 => !(target || internal)
  | 4 => internal
  | 5 => !internal
  | 6 => target
  | 7 => !target
  | 8 => decay
  | 9 => !decay
  | _ => relay

/-- `alarm_task`. -/
def alarmTask (para : AlarmPara) (alarm : Alarm) (reading : Reading) : Alarm :=
  let target := update para.targetTempAlarmOn para.targetTempAlarmOff alarm.targetAlarmActive
    reading.targetTemp
  let internal := update para.internalTempAlarmOn para.internalTempAlarmOff
    alarm.internalAlarmActive reading.internalTemp
  let decay := update para.attenuationAlarmOn para.attenuationAlarmOff alarm.decayAlarmActive
    reading.measuredAttenuation
  ⟨target, internal, decay, relayState para.relayAlarmMode target internal decay alarm.relay⟩

/-- The two alarms that have a temperature. -/
inductive TempAlarm where
  | target
  | internal

/-- The row of the threshold of an alarm. -/
def TempAlarm.on : TempAlarm → AlarmCommand
  | .target => .TON
  | .internal => .ION

/-- The row of the dead band of an alarm. -/
def TempAlarm.off : TempAlarm → AlarmCommand
  | .target => .TOF
  | .internal => .IOF

/-- The alarm is active. -/
def TempAlarm.active (alarm : Alarm) : TempAlarm → Bool
  | .target => alarm.targetAlarmActive
  | .internal => alarm.internalAlarmActive

/-- The temperature an alarm watches. -/
def TempAlarm.watched (reading : Reading) : TempAlarm → ℚ
  | .target => reading.targetTemp
  | .internal => reading.internalTemp

/-- What a dead band is for, all in the unit of the device: the alarm is active from the
threshold on and until the temperature has fallen by the dead band below it. -/
def intended (threshold band : ℚ) (active : Bool) (temperature : ℚ) : Bool :=
  if threshold ≤ temperature then true
  else if temperature ≤ threshold - band then false else active

/-- A dead band is a difference of temperatures: taken from the stored threshold it gives
what the difference is stored as, it is returned as it was set, and over every run of
readings the alarm does in degrees Celsius what is intended in the unit of the device. -/
structure IsDifference (temp : TempPara) (para : AlarmPara) (which : TempAlarm)
    (threshold band : ℚ) : Prop where
  difference : which.on.read para - which.off.read para =
    convertUint (threshold - band) temp.unit tempUnitInternal
  returned : getAlarm temp para which.off = band
  followed : ∀ alarm (readings : List Reading),
    which.active (run (alarmTask para) alarm readings) =
      run (intended threshold band) (which.active alarm) (readings.map fun reading =>
        convertUint (which.watched reading) tempUnitInternal temp.unit)

/-- What was stored is read back. -/
@[simp] theorem read_write (para : AlarmPara) (value : ℚ) (cmd : AlarmCommand) :
    cmd.read (cmd.write para value) = value := by
  cases cmd <;> rfl

/-- Storing a dead band keeps the threshold of its alarm. -/
@[simp] theorem on_write_off (para : AlarmPara) (value : ℚ) (which : TempAlarm) :
    which.on.read (which.off.write para value) = which.on.read para := by
  cases which <;> rfl

/-- A command that is accepted stores its number as it was checked. -/
theorem setAlarm_some {temp : TempPara} {para after : AlarmPara} {cmd : AlarmCommand} {value : ℚ}
    (accepted : setAlarm temp para cmd value = some after) :
    ∃ stored, cmdDataChk temp cmd.rule value = some stored ∧ cmd.write para stored = after :=
  Option.map_eq_some_iff.mp accepted

/-- One reading takes an alarm one step further. -/
theorem active_step (para : AlarmPara) (alarm : Alarm) (reading : Reading) (which : TempAlarm) :
    which.active (alarmTask para alarm reading) =
      update (which.on.read para) (which.off.read para) (which.active alarm)
        (which.watched reading) := by
  cases which <;> rfl

/-- In degrees Celsius an alarm follows its threshold and its dead band through every
run of readings. -/
theorem run_active (para : AlarmPara) (which : TempAlarm) (alarm : Alarm)
    (readings : List Reading) :
    which.active (run (alarmTask para) alarm readings) =
      run (update (which.on.read para) (which.off.read para)) (which.active alarm)
        (readings.map which.watched) := by
  induction readings generalizing alarm with
  | nil => rfl
  | cons reading rest inductionHypothesis =>
    have later := inductionHypothesis (alarmTask para alarm reading)
    rw [active_step] at later
    exact later

/-- The stored difference is the converted one exactly in degrees Celsius: the other
units have their zero elsewhere. -/
theorem difference_iff (threshold band : ℚ) (unit : TempUnit) :
    convertUint threshold unit tempUnitInternal - convertUint band unit tempUnitInternal =
      convertUint (threshold - band) unit tempUnitInternal ↔ unit = .C := by
  cases unit with
  | C => exact iff_of_true rfl rfl
  | F =>
    refine iff_of_false (fun same => ?_) (by decide)
    simp only [convertUint] at same
    linarith
  | K =>
    refine iff_of_false (fun same => ?_) (by decide)
    simp only [convertUint] at same
    linarith

/-- For every unit, both alarms, and every threshold and dead band that the commands
accept: the dead band is a difference of temperatures exactly if the unit is Celsius. -/
theorem dead_band_iff (temp : TempPara) (para tripped banded : AlarmPara) (which : TempAlarm)
    (threshold band : ℚ) (thresholdAccepted : setAlarm temp para which.on threshold = some tripped)
    (bandAccepted : setAlarm temp tripped which.off band = some banded) :
    IsDifference temp banded which threshold band ↔ temp.unit = .C := by
  obtain ⟨on, onChecked, rfl⟩ := setAlarm_some thresholdAccepted
  obtain ⟨off, offChecked, rfl⟩ := setAlarm_some bandAccepted
  have difference := difference_iff threshold band temp.unit
  rw [← (accepted_stored onChecked).1, ← (accepted_stored offChecked).1] at difference
  constructor
  · intro isDifference
    apply difference.mp
    simpa using isDifference.difference
  · intro celsius
    constructor
    · simpa using difference.mpr celsius
    · simpa [getAlarm] using answer_accepted offChecked
    · intro alarm readings
      have onValue := (accepted_stored onChecked).1
      have offValue := (accepted_stored offChecked).1
      rw [celsius] at onValue offValue ⊢
      rw [run_active, on_write_off, read_write, read_write, onValue, offValue]
      rfl

/-- The default parameters of the alarms. -/
def defaultAlarm : AlarmPara := ⟨2, 1000, 1, 65, 1, 9 / 10, 1 / 100⟩

/-- A threshold and a dead band in degrees Celsius are accepted, and the dead band is a
difference of temperatures. -/
theorem celsius_difference :
    IsDifference defaultTemp
      (AlarmCommand.TOF.write (AlarmCommand.TON.write defaultAlarm 1200) 5) .target 1200 5 := by
  have threshold : setAlarm defaultTemp defaultAlarm .TON 1200 =
      some (AlarmCommand.TON.write defaultAlarm 1200) := by
    norm_num [setAlarm, cmdDataChk, convertUint, defaultTemp, AlarmCommand.rule, tempRule]
  have band : setAlarm defaultTemp (AlarmCommand.TON.write defaultAlarm 1200) .TOF 5 =
      some (AlarmCommand.TOF.write (AlarmCommand.TON.write defaultAlarm 1200) 5) := by
    norm_num [setAlarm, cmdDataChk, convertUint, defaultTemp, AlarmCommand.rule]
  exact (dead_band_iff defaultTemp _ _ _ .target 1200 5 threshold band).mpr rfl

/-- A threshold of 2000 and a dead band of 50 degrees Fahrenheit are accepted. The dead
band is stored as 10 degrees Celsius, which is what 50 degrees Fahrenheit are as a
temperature, and not as the difference. -/
theorem fahrenheit_not_difference :
    ¬ ∀ (temp : TempPara) (para tripped banded : AlarmPara) (which : TempAlarm)
        (threshold band : ℚ),
      setAlarm temp para which.on threshold = some tripped →
        setAlarm temp tripped which.off band = some banded →
          IsDifference temp banded which threshold band := by
  intro always
  let device : TempPara := ⟨.F, 800, 2800⟩
  let tripped : AlarmPara := AlarmCommand.TON.write defaultAlarm (convertUint 2000 .F .C)
  have threshold : setAlarm device defaultAlarm .TON 2000 = some tripped := by
    norm_num [setAlarm, cmdDataChk, convertUint, device, tripped, AlarmCommand.rule, tempRule]
  have band : setAlarm device tripped .TOF 50 =
      some (AlarmCommand.TOF.write tripped (convertUint 50 .F .C)) := by
    norm_num [setAlarm, cmdDataChk, convertUint, device, AlarmCommand.rule]
  have difference := (always device _ _ _ .target 2000 50 threshold band).difference
  norm_num [convertUint, device, tripped, TempAlarm.on, TempAlarm.off, AlarmCommand.read,
    AlarmCommand.write] at difference

end Pyrometer.DeadBands
