import Pyrometer.Runs
import Pyrometer.VoltageFilter

/-!
# The gain of the amplifiers

Each channel has an amplifier with three gains, an analog switch that selects one, and
the record `sys_state.now_gain` of the selected one. In automatic mode the gain moves by
one step when enough voltages are above or below a threshold; in command mode it is the
one that the commands `SN` and `SW` wrote to the record. `gain_switch_process` does this
at the start of every pass of the measurement, and the normalisation that follows scales
the voltages by the recorded gains.

The bounds of `tiag.c` are quotients of integers by `double` parameters and are computed
as such. The counters are not reduced modulo 2 ^ 32: they never pass the number of
voltages that is asked for.
-/

namespace Pyrometer.GainControl

open BinaryFloats Runs VoltageFilter

/-- `GAIN_L`. -/
def gainL : Nat := 0

/-- `GAIN_M`. -/
def gainM : Nat := 1

/-- `GAIN_H`. -/
def gainH : Nat := 2

/-- `GAIN_CNT`. -/
def gainCount : Nat := 3

/-- `TIAG_AUTO_MODE`. -/
def tiagAutoMode : Nat := 0

/-- `gain_flag_t`. -/
inductive GainFlag where
  | upL
  | downM
  | upM
  | downH
deriving DecidableEq

/-- `gain_cnt_t`. -/
structure GainCnt where
  upGl : Nat
  upGm : Nat
  downGm : Nat
  downGh : Nat
deriving DecidableEq

/-- The part of `gain_para_t` that is kept for each channel; the factors are in double
precision. -/
structure GainLimits where
  upper : Nat
  lowerml : Nat
  lowerhm : Nat
  kLm : Nat
  kMh : Nat

/-- `gain_para_t`. -/
structure GainPara where
  limits : Spec → GainLimits
  cntThod : Nat
  voltDiscard : Nat

/-- The amplifier of a channel: its counters, the position of its analog switch, and the
recorded gain. -/
structure Stage where
  cnt : GainCnt
  position : Nat
  nowGain : Nat
deriving DecidableEq

/-- `gain_count_init`. -/
def gainCountInit : GainCnt := ⟨0, 0, 0, 0⟩

/-- The counter of a flag. -/
def GainCnt.get (cnt : GainCnt) : GainFlag → Nat
  | .upL => cnt.upGl
  | .downM => cnt.downGm
  | .upM => cnt.upGm
  | .downH => cnt.downGh

/-- A counter is written. -/
def GainCnt.set (cnt : GainCnt) (value : Nat) : GainFlag → GainCnt
  | .upL => { cnt with upGl := value }
  | .downM => { cnt with downGm := value }
  | .upM => { cnt with upGm := value }
  | .downH => { cnt with downGh := value }

/-- `gain_count_reset`: the counters of the other flags are cleared. -/
def gainCountReset (cnt : GainCnt) : GainFlag → GainCnt
  | .upL => { cnt with downGm := 0, upGm := 0, downGh := 0 }
  | .downM => { cnt with upGl := 0, upGm := 0, downGh := 0 }
  | .upM => { cnt with upGl := 0, downGm := 0, downGh := 0 }
  | .downH => { cnt with upGl := 0, downGm := 0, upGm := 0 }

/-- `gain_set`: the analog switch is moved if the gain is one of the three. -/
def gainSet (gain : Nat) (stage : Stage) : Stage :=
  { stage with position := if gain < gainCount then gain else stage.position, nowGain := gain }

/-- A branch of `tiag_auto_switch`: a voltage is counted, and the gain set when there were
enough. -/
def countVolt (flag : GainFlag) (cntThod gain : Nat) (stage : Stage) : Stage :=
  let cnt := gainCountReset (stage.cnt.set (stage.cnt.get flag + 1) flag) flag
  if cntThod ≤ cnt.get flag then gainSet gain { stage with cnt := cnt.set 0 flag }
  else { stage with cnt := cnt }

/-- A voltage is above the upper bound. -/
def aboveUpper (limits : GainLimits) (volt : Nat) : Bool := limits.upper < volt

/-- A voltage is below the bound from M to L. -/
def belowMl (limits : GainLimits) (volt : Nat) : Bool :=
  double.less (double.ofInt volt) (double.div (double.ofInt limits.lowerml) limits.kLm)

/-- A voltage is below the bound from H to M. -/
def belowHm (limits : GainLimits) (volt : Nat) : Bool :=
  double.less (double.ofInt volt) (double.div (double.ofInt limits.lowerhm) limits.kMh)

/-- `tiag_auto_switch`. -/
def tiagAutoSwitch (limits : GainLimits) (cntThod volt gain : Nat) (stage : Stage) : Stage :=
  if gain = gainL then
    if aboveUpper limits volt then countVolt .upL cntThod gainM stage else stage
  else if gain = gainM then
    if aboveUpper limits volt then countVolt .upM cntThod gainH stage
    else if belowMl limits volt then countVolt .downM cntThod gainL stage
    else stage
  else if gain = gainH then
    if belowHm limits volt then countVolt .downH cntThod gainM stage else stage
  else stage

/-- `tiag_cmd_switch`. -/
def tiagCmdSwitch (gain : Nat) (stage : Stage) : Stage :=
  if gainCount ≤ gain then stage else gainSet gain stage

/-- `tiag_switch`; the gain is passed in 8 bits and the voltage in 32. -/
def tiagSwitch (mode : Nat) (limits : GainLimits) (cntThod : Nat) (voltRaw : Int) (gain : Nat)
    (stage : Stage) : Stage :=
  if mode = tiagAutoMode then
    tiagAutoSwitch limits cntThod (voltRaw % 2 ^ 32).toNat (gain % 256) stage
  else tiagCmdSwitch (gain % 256) stage

/-- All counters but one are zero. -/
def onlyCount (flag : GainFlag) (value : Nat) : GainCnt := gainCountInit.set value flag

/-- A counted voltage leaves only its own counter. -/
theorem count_volt_cnt (flag : GainFlag) (cntThod gain : Nat) (stage : Stage) :
    countVolt flag cntThod gain stage =
      if cntThod ≤ stage.cnt.get flag + 1 then gainSet gain { stage with cnt := gainCountInit }
      else { stage with cnt := onlyCount flag (stage.cnt.get flag + 1) } := by
  cases flag <;> rfl

/-- The gains of both channels with what goes with a change of them: `flag` and the discard
counters of `gain_sw_data`, and `tiag_switch_mode`. -/
structure Front where
  stage : Spec → Stage
  flag : Spec → Bool
  discards : Spec → Discards
  mode : Nat

/-- The discard counters after a change between two gains. -/
def switchDiscards (voltDiscard before after : Nat) (discards : Discards) : Discards :=
  if before < after then
    if before = gainL then { discards with glToGm := voltDiscard }
    else if before = gainM then { discards with gmToGh := voltDiscard }
    else discards
  else if after < before then
    if before = gainM then { discards with gmToGl := voltDiscard }
    else if before = gainH then { discards with ghToGm := voltDiscard }
    else discards
  else discards

/-- `gain_switch_process` for one channel, and whether it ends the pass. -/
def gainSwitchChannel (para : GainPara) (spec : Spec) (voltRaw : Int) (front : Front) :
    Front × Bool :=
  let bspGain := (front.stage spec).nowGain % 256
  let stage := tiagSwitch front.mode (para.limits spec) para.cntThod voltRaw
    (front.stage spec).nowGain (front.stage spec)
  let switched := { front with stage := Function.update front.stage spec stage }
  if front.flag spec || bspGain != stage.nowGain then
    ({ switched with
        flag := Function.update front.flag spec false
        discards := Function.update front.discards spec
          (switchDiscards para.voltDiscard bspGain stage.nowGain (front.discards spec)) }, true)
  else (switched, false)

/-- `gain_switch_process`, and whether it ends the pass. -/
def gainSwitchProcess (para : GainPara) (voltRaw : Spec → Int) (front : Front) : Front × Bool :=
  let wb := gainSwitchChannel para .wb (voltRaw .wb) front
  if wb.2 then wb else gainSwitchChannel para .nb (voltRaw .nb) wb.1

/-- `gain_compes_factor`. -/
def gainCompesFactor (limits : GainLimits) (gain : Nat) : Nat :=
  narrow (if gain = gainM then limits.kLm
    else if gain = gainH then double.mul limits.kMh limits.kLm
    else double.ofInt 1)

/-- A voltage that was normalised, with the recorded gain and the position of the switch
at that time. -/
structure Normalised where
  spec : Spec
  gain : Nat
  position : Nat
  voltNorm : Int

/-- The normalisation of one channel. -/
def normalise (para : GainPara) (voltRaw : Spec → Int) (front : Front) (spec : Spec) :
    Normalised :=
  let stage := front.stage spec
  let factor := gainCompesFactor (para.limits spec) stage.nowGain
  ⟨spec, stage.nowGain, stage.position,
    single.toInt64 (single.mul (single.ofInt (voltRaw spec)) factor)⟩

/-- A voltage that no converter delivers. -/
def abnormal (voltRaw : Int) : Bool := decide (voltRaw < 0) || decide (3299999 < voltRaw)

/-- `volt_normalization`: the voltages that are normalised before the first abnormal one. -/
def voltNormalization (para : GainPara) (voltRaw : Spec → Int) (front : Front) :
    List Normalised :=
  if abnormal (voltRaw .wb) then []
  else if abnormal (voltRaw .nb) then [normalise para voltRaw front .wb]
  else [normalise para voltRaw front .wb, normalise para voltRaw front .nb]

/-- What happens: a pass of the measurement, or one of the commands with its value. -/
inductive Event where
  | sample (voltRaw : Spec → Int)
  | sn (gain : Nat)
  | sw (gain : Nat)
  | sm (mode : Nat)

/-- The discard counters after the command `SN` or `SW`. -/
def commandDiscards (voltDiscard gain : Nat) (discards : Discards) : Discards :=
  if gain = 0 then { discards with gmToGl := voltDiscard }
  else if gain = 1 then { discards with glToGm := voltDiscard }
  else if gain = 2 then { discards with gmToGh := voltDiscard }
  else discards

/-- `SN` or `SW`: a value in range is written to the record, and the callback follows. -/
def setGain (para : GainPara) (spec : Spec) (gain : Nat) (front : Front) : Front :=
  if gain ≤ 2 then
    { front with
      stage := Function.update front.stage spec { front.stage spec with nowGain := gain }
      flag := Function.update front.flag spec true
      discards := Function.update front.discards spec
        (commandDiscards para.voltDiscard gain (front.discards spec)) }
  else front

/-- `SM`: a value in range is written to the mode. -/
def setMode (mode : Nat) (front : Front) : Front :=
  if mode ≤ 1 then { front with mode := mode } else front

/-- One event. -/
def happen (para : GainPara) (front : Front) : Event → Front
  | .sample voltRaw => (gainSwitchProcess para voltRaw front).1
  | .sn gain => setGain para .nb gain front
  | .sw gain => setGain para .wb gain front
  | .sm mode => setMode mode front

/-- The voltages an event normalises. -/
def normalised (para : GainPara) (front : Front) : Event → List Normalised
  | .sample voltRaw =>
      let process := gainSwitchProcess para voltRaw front
      if process.2 then [] else voltNormalization para voltRaw process.1
  | _ => []

/-- `tiag_init` and `gain_status_init` with the gains that a warm start restores; a cold
start has the highest. -/
def tiagInit (gains : Spec → Nat) : Front :=
  { stage := fun spec => gainSet (gains spec) ⟨gainCountInit, gainH, gainH⟩
    flag := fun _ => false
    discards := fun _ => ⟨0, 0, 0, 0⟩
    mode := tiagAutoMode }

end Pyrometer.GainControl
