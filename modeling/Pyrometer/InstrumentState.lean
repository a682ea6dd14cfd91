import Pyrometer.CommandTable
import Pyrometer.ParameterManager

/-!
# The running instrument

What a text command can read and change: the parameters and their storage, the
bytes of `sys_state`, the settings of the serial port as `com_init` received them
last, the `ana_status` of the analog output, the counters of the gain switch, and
the calls that start or stop something else.

Members of `sys_para` and `sys_state` are read and written as little-endian numbers
through the table of their places. The measured voltages and the temperatures
computed from them belong to the surroundings, as do the bytes of the stack behind
a local array and the link that a command came from.
-/

namespace Pyrometer.InstrumentState

open ByteMemory BinaryFloats CText ParameterLayout ParameterManager CommandTable

/-- The two spectral channels, `SENS_CH_SPEC_WB` and `SENS_CH_SPEC_NB`. -/
inductive SpecCh where
  | wb
  | nb
  deriving DecidableEq, Repr

/-- The members of `com_config_t` that come from the parameters. -/
structure ComConfig where
  baudrate : Nat
  fmt : List Byte
  mode : Nat
  deriving DecidableEq

/-- `ana_status_t`; numbers with a fraction are encodings. -/
structure AnaStatus where
  tempUpper : Int
  tempLower : Int
  currentRange : Nat
  currentA : Nat
  currentB : Nat
  voltageRange : Nat
  voltageA : Nat
  voltageB : Nat
  deriving DecidableEq

/-- The members of `gain_sw_data_t` that commands set. -/
structure GainSwData where
  flag : Nat
  glToGm : Nat
  gmToGh : Nat
  gmToGl : Nat
  deriving DecidableEq

/-- A call into another part of the instrument. -/
inductive Action where
  | dbgSetLevel (level : List Byte)
  | putPort (port : Nat)
  | dumpSysPara
  | setRecordPeriod (period : Nat)
  | recordClear
  | recStop (duration : Nat)
  | openBurst
  | closeBurst
  | tcpBurst (enable : Bool)
  | burstInit (speed : Nat) (fmt : List Byte)
  deriving DecidableEq

/-- The instrument between two commands. -/
structure Instrument where
  pmm : Pmm
  sysState : Mem
  com : ComConfig
  ana : AnaStatus
  gainSwData : SpecCh → GainSwData
  actions : List Action

/-- What a command finds outside the instrument's own variables. `stack` is what
lies behind the 40 bytes of `data_bkp`. -/
structure Surroundings where
  stack : Mem
  fromTcp : Bool
  voltFilter : SpecCh → Int
  singleTemp : SpecCh → Mem → Nat
  ratioTemp : Mem → Nat × Nat

namespace Instrument

/-- The bytes of one of the two structures. -/
def region (instrument : Instrument) : Region → Mem
  | .para => instrument.pmm.sysPara
  | .state => instrument.sysState

/-- Bytes stored at a place of one of the two structures. -/
def store (instrument : Instrument) (start : Nat) (bytes : List Byte) : Region → Instrument
  | .para => { instrument with pmm := { instrument.pmm with
      sysPara := overlay instrument.pmm.sysPara (ofList bytes) start bytes.length } }
  | .state => { instrument with
      sysState := overlay instrument.sysState (ofList bytes) start bytes.length }

/-- The bytes of a member. -/
def bytes (instrument : Instrument) (member : Member) : List Byte :=
  toList (instrument.region member.target.region) member.target.offset member.target.size

/-- The number that a member holds. -/
def value (instrument : Instrument) (member : Member) : Nat :=
  littleEndian (instrument.bytes member)

/-- Assignment to a member. -/
def put (instrument : Instrument) (member : Member) (value : Nat) : Instrument :=
  instrument.store member.target.offset (leBytes member.target.size value) member.target.region

/-- A call into another part of the instrument. -/
def act (instrument : Instrument) (action : Action) : Instrument :=
  { instrument with actions := instrument.actions ++ [action] }

/-- `pmm_save_group`. -/
def saveGroup (instrument : Instrument) (group : ParaType) : Instrument :=
  { instrument with pmm := pmmSaveGroup group instrument.pmm }

/-- `sys_state.develop`. -/
def develop (instrument : Instrument) : Bool := instrument.value .develop != 0

/-- `sys_state.unlock`. -/
def unlocked (instrument : Instrument) : Bool := instrument.value .unlock != 0

end Instrument

open Instrument

/-- `is_valid_baudrate`. -/
def isValidBaudrate (baudrate : Nat) : Bool :=
  [2400, 4800, 9600, 14400, 19200, 38400, 56000, 57600, 115200, 128000, 230400].contains baudrate

/-- `pc_init`. -/
def pcInit (instrument : Instrument) : Instrument :=
  let instrument :=
    if isValidBaudrate (instrument.value .portBaudrate) then instrument
    else instrument.put .portBaudrate 115200
  { instrument with
    com := ⟨instrument.value .portBaudrate, instrument.bytes .portCheckFmt,
      instrument.value .portMode⟩ }

/-- `ANA_OUT_AUTO`. -/
def anaOutAuto : Nat := 60000000

/-- `ANA_0_10V`, the character `5`. -/
def ana0To10V : Nat := 0x35

/-- `ana_threshold_range`. -/
def anaThresholdRange (instrument : Instrument) : Instrument :=
  let type := instrument.value .anaType
  { instrument with ana := { instrument.ana with
      currentRange :=
        if type = 0x30 then 20 else if type = 0x34 then 16 else instrument.ana.currentRange
      voltageRange := 9 } }

/-- Both outputs return to automatic control. -/
def anaAuto (instrument : Instrument) : Instrument :=
  (instrument.put .anaCurtValue anaOutAuto).put .anaVoltValue anaOutAuto

/-- The slope of a line through two measured points at the given nominal ones. -/
def calibSlope (low high nominalLow nominalHigh : Nat) : Nat :=
  single.div (single.sub (single.ofInt high) (single.ofInt low))
    (single.ofInt ((nominalHigh : Int) - nominalLow))

/-- The offset of a line of a given slope through the upper point. -/
def calibOffset (slope high nominalHigh : Nat) : Nat :=
  single.sub (single.ofInt high) (single.mul slope (single.ofInt nominalHigh))

/-- `get_current_calib_para`. -/
def getCurrentCalibPara (instrument : Instrument) : Instrument :=
  let instrument := anaAuto instrument
  let low := instrument.value .anaRealCurt2ma
  let high := instrument.value .anaRealCurt20ma
  let slope := calibSlope low high 1000000 19500000
  { instrument with ana := { instrument.ana with
      currentA := slope
      currentB := calibOffset slope high 19500000 } }

/-- `get_voltage_calib_para`. -/
def getVoltageCalibPara (instrument : Instrument) : Instrument :=
  let instrument := anaAuto instrument
  let low := instrument.value .anaRealVolt1v
  let high := instrument.value .anaRealVolt10v
  let slope := calibSlope low high 1000000 9500000
  { instrument with ana := { instrument.ana with
      voltageA := slope
      voltageB := calibOffset slope high 9500000 } }

/-- The calibration of the output that is in use. -/
def getCalibPara (instrument : Instrument) : Instrument :=
  if instrument.value .anaType = ana0To10V then getVoltageCalibPara instrument
  else getCurrentCalibPara instrument

/-- A temperature in hundredths of a degree, cut to an integer. -/
def hundredths (temp : Nat) : Int := single.toInt32 (single.mul temp (single.ofInt 100))

/-- `anolog_out_init`, without the set-up of the converter. -/
def anologOutInit (instrument : Instrument) : Instrument :=
  let instrument := anaAuto instrument
  let instrument := { instrument with ana := { instrument.ana with
    tempLower := hundredths (instrument.value .anaLower)
    tempUpper := hundredths (instrument.value .anaUpper) } }
  getCalibPara (anaThresholdRange instrument)

/-- The counters of one channel when its gain is set by a command. -/
def gainSwitch (channel : SpecCh) (nowGain : Member) (instrument : Instrument) : Instrument :=
  let old := instrument.gainSwData channel
  let discard := instrument.value .gainVoltDiscard
  let gain := instrument.value nowGain
  let new : GainSwData :=
    if gain = 0 then { old with flag := 1, gmToGl := discard }
    else if gain = 1 then { old with flag := 1, glToGm := discard }
    else if gain = 2 then { old with flag := 1, gmToGh := discard }
    else { old with flag := 1 }
  { instrument with gainSwData := fun other =>
      if other = channel then new else instrument.gainSwData other }

/-- `burst_init`: the timer gets the speed and the separators the format. -/
def burstInit (instrument : Instrument) : Instrument :=
  instrument.act (.burstInit (instrument.value .burstSpeed) (instrument.bytes .burstFmt))

/-- What `calibrate_temperature` searches: the transmission of a channel or the slope. -/
inductive Calibrated where
  | trans (channel : SpecCh)
  | slope
  deriving DecidableEq, Repr

/-- The member that holds what is searched. -/
def Calibrated.member : Calibrated → Member
  | .trans .wb => .tempTransWb
  | .trans .nb => .tempTransNb
  | .slope => .tempSlope

/-- What a mode calibrates; other modes are refused, as is a channel without voltage. -/
def calibrated (around : Surroundings) (mode : Nat) : Option Calibrated :=
  if mode = 0 then if around.voltFilter .wb ≤ 0 then none else some (.trans .wb)
  else if mode = 1 then if around.voltFilter .nb ≤ 0 then none else some (.trans .nb)
  else if mode = 2 then some .slope
  else none

/-- The bounds of the search and the value that is tried next. -/
structure Trial where
  minValue : Nat
  maxValue : Nat
  midValue : Nat
  deriving DecidableEq

/-- The next trial: one bound moves to the value tried, and the middle is taken. -/
def Trial.next (trial : Trial) (raise : Bool) : Trial :=
  let minValue := if raise then trial.midValue else trial.minValue
  let maxValue := if raise then trial.maxValue else trial.midValue
  let middle := single.div (single.add minValue maxValue) (single.ofInt 2)
  ⟨minValue, maxValue,
    if single.lessEq middle minValue then minValue
    else if single.lessEq maxValue middle then maxValue
    else middle⟩

/-- The temperature that a trial gives. The ratio temperature also leaves the one of
the network behind. -/
def measure (around : Surroundings) (instrument : Instrument) : Calibrated → Nat × Instrument
  | .trans channel => (around.singleTemp channel instrument.pmm.sysPara, instrument)
  | .slope =>
      let temps := around.ratioTemp instrument.pmm.sysPara
      (temps.1, instrument.put .ratioTempNerve temps.2)

/-- The loop of `calibrate_temperature`, for the number of trials that are left. -/
def calibrateLoop (around : Surroundings) (goal : Calibrated) :
    Nat → Trial → Instrument → Bool × Instrument
  | 0, _, instrument => (false, instrument)
  | left + 1, trial, instrument =>
      let measured := measure around (instrument.put goal.member trial.midValue) goal
      let diff := single.sub measured.1 (measured.2.value .tempCalibration)
      if single.less (single.magnitude diff) (thousandths 100) then
        (true, measured.2.saveGroup .temp)
      else
        let raise :=
          match goal with
          | .trans _ => single.less 0 diff
          | .slope => single.less diff 0
        calibrateLoop around goal left (trial.next raise) measured.2

/-- The first trial: the value in use, between a hundredth and ten. -/
def firstTrial (instrument : Instrument) (goal : Calibrated) : Trial :=
  ⟨thousandths 10, whole 10, instrument.value goal.member⟩

/-- `calibrate_temperature`, with `true` for a result of zero. -/
def calibrateTemperature (around : Surroundings) (instrument : Instrument) : Bool × Instrument :=
  match calibrated around (instrument.value .tempMode % 256) with
  | none => (false, instrument)
  | some goal => calibrateLoop around goal 50 (firstTrial instrument goal) instrument

/-- An instrument with the default parameters and a cleared `sys_state`, whose chips are
erased and whose port and analog output run as the parameters say. -/
def defaultInstrument : Instrument where
  pmm := { Pmm.powerUp ⟨fun _ => NorFlash.erased, fun _ => NorFlash.erased⟩ with
    sysPara := DefaultParameters.sysDefPara }
  sysState := fun _ => 0
  com := ⟨115200, ascii "8N1" ++ [0], 0x34⟩
  ana := ⟨280000, 80000, 16, whole 1, 0, 9, 0, 0⟩
  gainSwData := fun _ => ⟨0, 0, 0, 0⟩
  actions := []

/-- Surroundings without a signal, for a command from the serial port. -/
def quiet : Surroundings where
  stack := fun _ => 0
  fromTcp := false
  voltFilter := fun _ => 0
  singleTemp := fun _ _ => 0
  ratioTemp := fun _ => (0, 0)

end Pyrometer.InstrumentState
