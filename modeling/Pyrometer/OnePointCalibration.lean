import Pyrometer.Bisections
import Pyrometer.TemperatureStatus
import Pyrometer.TwoPointCalibration

/-!
# One-point calibration

`CA` hands a temperature to `calibrate_temperature`, which searches for the transmissivity
of a channel, or for the slope, with which the conversion gives that temperature. It starts
from the number in use and goes on by halving. The conversion of a channel takes the
filtered voltage in the search and the compensated one in `get_temp`, which also corrects
the result by two coefficients and sets it to zero outside of the range of the device.

The conversions are parameters, and all numbers are exact: those of any ordered field. The
two coefficients are those in force in the pass. The hold filter and the smoothing are left
out, and so are other measuring modes, which `calibrate_temperature` refuses.
-/

namespace Pyrometer.OnePointCalibration

open Bisections VoltageFilter
open TemperatureStatus (reportedVolt)

/-- `temp_mode`. -/
inductive Mode where
  | wide
  | narrow
  | ratio
  deriving DecidableEq

/-- The channel of a mode that measures with one. -/
def Mode.channel : Mode → Option Spec
  | .wide => some .wb
  | .narrow => some .nb
  | .ratio => none

/-- `get_single_temp`, by channel, voltage and transmissivity, and `get_ratio_temp`, by the
compensated voltages and the slope, with all other parameters as they are. -/
structure Conversion (K : Type) where
  getSingleTemp : Spec → Int → K → K
  getRatioTemp : (Spec → Int) → K → K

/-- What the calibration and a pass of `get_temp` depend on: the mode, the voltages, the
coefficients of the mode, the range of the device, the number in use, and the temperature
that is wanted. -/
structure Setup (K : Type) where
  mode : Mode
  voltRaw : Spec → Int
  voltFilter : Spec → Int
  voltCompensate : Spec → Int
  validVol : Nat
  gain : K
  offset : K
  devTempMin : K
  devTempMax : K
  value : K
  tempCalibration : K

variable {K : Type}

/-- The conversion that is searched. -/
def Setup.searched (setup : Setup K) (conversion : Conversion K) : K → K :=
  match setup.mode.channel with
  | some channel => conversion.getSingleTemp channel (setup.voltFilter channel)
  | none => conversion.getRatioTemp setup.voltCompensate

/-- The conversion of `get_temp`. -/
def Setup.passed (setup : Setup K) (conversion : Conversion K) : K → K :=
  match setup.mode.channel with
  | some channel => conversion.getSingleTemp channel (setup.voltCompensate channel)
  | none => conversion.getRatioTemp setup.voltCompensate

/-- The search and `get_temp` take the same voltage. -/
def Setup.SameVolt (setup : Setup K) : Prop :=
  ∀ channel, setup.mode.channel = some channel →
    setup.voltCompensate channel = setup.voltFilter channel

/-- With the same voltage the search and `get_temp` convert alike. -/
theorem passed_same {setup : Setup K} (same : setup.SameVolt) (conversion : Conversion K) :
    setup.passed conversion = setup.searched conversion := by
  unfold Setup.passed Setup.searched
  split
  case h_1 channel isChannel => rw [same channel isChannel]
  case h_2 => rfl

variable [Field K] [LinearOrder K]

/-- The new bounds and the number that is tried next. -/
def next (trial : Trial K) (raise : Bool) : Trial K :=
  let minValue := if raise then trial.midValue else trial.minValue
  let maxValue := if raise then trial.maxValue else trial.midValue
  let midValue := middle minValue maxValue
  ⟨minValue, maxValue,
    if midValue ≤ minValue then minValue
    else if maxValue ≤ midValue then maxValue
    else midValue⟩

/-- The lower bound is raised: by a temperature that is too high for a transmissivity, and
by one that is too low for a slope. -/
def raises (mode : Mode) (diff : K) : Bool :=
  match mode with
  | .ratio => decide (diff < 0)
  | _ => decide (0 < diff)

/-- The loop of `calibrate_temperature`, for the number of trials that are left; `value` is
the number in use. -/
def calibrateLoop (mode : Mode) (temp : K → K) (target : K) : Nat → K → Trial K → Outcome K
  | 0, value, _ => ⟨false, value, []⟩
  | left + 1, _, trial =>
    let diff := temp trial.midValue - target
    if |diff| < 1 / 10 then ⟨true, trial.midValue, [trial]⟩
    else
      let rest := calibrateLoop mode temp target left trial.midValue
        (next trial (raises mode diff))
      { rest with trials := trial :: rest.trials }

/-- The channel of the mode has a filtered voltage. -/
def Setup.powered (setup : Setup K) : Prop :=
  ∀ channel, setup.mode.channel = some channel → 0 < setup.voltFilter channel

instance (setup : Setup K) : Decidable setup.powered :=
  match isChannel : setup.mode.channel with
  | some channel =>
    decidable_of_iff (0 < setup.voltFilter channel) (by simp [Setup.powered, isChannel])
  | none => isTrue (by simp [Setup.powered, isChannel])

/-- `calibrate_temperature`. -/
def calibrateTemperature (conversion : Conversion K) (setup : Setup K) : Outcome K :=
  if setup.powered then
    calibrateLoop setup.mode (setup.searched conversion) setup.tempCalibration 50 setup.value
      ⟨1 / 100, 10, setup.value⟩
  else ⟨false, setup.value, []⟩

/-- The voltage of the narrow channel is too low. -/
def Setup.low (setup : Setup K) : Prop :=
  reportedVolt (setup.voltRaw .nb) % 2 ^ 32 < setup.validVol

instance (setup : Setup K) : Decidable setup.low := inferInstanceAs (Decidable (_ < _))

/-- `temp_two_point_calibrate`, with the coefficients of the mode. -/
def tempTwoPointCalibrate (setup : Setup K) (rawTemp : K) : K :=
  setup.gain * rawTemp + setup.offset

/-- What `get_temp` publishes for a converted temperature. -/
def publish (setup : Setup K) (raw : K) : K :=
  let temp := tempTwoPointCalibrate setup raw
  if setup.low then 0
  else if setup.devTempMin < temp ∧ temp < setup.devTempMax then temp
  else if temp < setup.devTempMin then 0
  else if setup.devTempMax < temp then 0
  else temp

/-- The number of a mode. -/
def Mode.number : Mode → Nat
  | .wide => 0
  | .narrow => 1
  | .ratio => 2

/-- The coefficients of the mode are those in a state. -/
structure Coefficients (setup : Setup ℚ) (state : TwoPointCalibration.Calibration) : Prop where
  gain : setup.gain = state.gain (TwoPointCalibration.modeIndex setup.mode.number)
  offset : setup.offset = state.offset (TwoPointCalibration.modeIndex setup.mode.number)

/-- With the coefficients that the call leaves behind the corrected temperature is its
result. -/
theorem two_point_calibrate_value {setup : Setup ℚ} {state : TwoPointCalibration.Calibration}
    {rawTemp : ℚ} (inForce : Coefficients setup
      (TwoPointCalibration.tempTwoPointCalibrate state rawTemp setup.mode.number).2) :
    (TwoPointCalibration.tempTwoPointCalibrate state rawTemp setup.mode.number).1 =
      tempTwoPointCalibrate setup rawTemp := by
  rw [tempTwoPointCalibrate, inForce.gain, inForce.offset]
  rfl

/-- What is published is what a pass of `get_temp` publishes that measures the corrected
temperature and holds nothing. -/
theorem publish_target (setup : Setup ℚ) (raw : ℚ) (reading : TemperatureStatus.Reading)
    (state : TemperatureStatus.TempState) (volts : reading.voltRaw = setup.voltRaw)
    (temp : reading.temp (TemperatureStatus.published setup.mode.number) =
      tempTwoPointCalibrate setup raw) :
    (TemperatureStatus.getTemp
      ⟨setup.devTempMin, setup.devTempMax, setup.validVol, setup.mode.number⟩ id reading
      state).targetTemp = publish setup raw := by
  have measured : (TemperatureStatus.getTemp
      ⟨setup.devTempMin, setup.devTempMax, setup.validVol, setup.mode.number⟩ id reading
      state).targetTemp =
      if decide setup.low then 0 else (TemperatureStatus.limit
        ⟨setup.devTempMin, setup.devTempMax, setup.validVol, setup.mode.number⟩
        (tempTwoPointCalibrate setup raw)
        (state.tempOutRange (TemperatureStatus.published setup.mode.number))).2 := by
    simp only [TemperatureStatus.getTemp, TemperatureStatus.lowVolt, volts, temp, id_eq]
    rfl
  rw [measured, publish, TemperatureStatus.limit]
  by_cases low : setup.low
  · simp only [low, decide_true, if_true]
  · simp only [low, decide_false, Bool.false_eq_true, if_false]
    split
    · rfl
    · split
      · rfl
      · split <;> rfl

/-- What `get_temp` publishes with a number in use. -/
def getTemp (conversion : Conversion K) (setup : Setup K) (value : K) : K :=
  publish setup (setup.passed conversion value)

/-- A conversion of a mode falls with the transmissivity, or grows with the slope, and is
Lipschitz with a constant below a million millions, for all numbers that are tried. -/
structure Regular (mode : Mode) (temp : K → K) : Prop where
  falls : mode ≠ .ratio → ∀ left right, 1 / 100 ≤ left → left < right → right ≤ 203 / 20 →
    temp right < temp left
  grows : mode = .ratio → ∀ left right, 1 / 100 ≤ left → left < right → right ≤ 203 / 20 →
    temp left < temp right
  lipschitz : ∃ bound, 0 ≤ bound ∧ bound < 10 ^ 12 ∧ ∀ left right, 1 / 100 ≤ left →
    left ≤ right → right ≤ 203 / 20 → |temp left - temp right| ≤ bound * (right - left)

/-- The temperature that is wanted is attained. -/
def Attained (temp : K → K) (target : K) : Prop :=
  ∃ value, 1 / 100 ≤ value ∧ value ≤ 10 ∧ temp value = target

/-- What the calibration should do: it succeeds, all bounds are in order and in the range
of the search, and `get_temp` publishes the temperature that is wanted but for a tenth. -/
structure Reaches (conversion : Conversion K) (setup : Setup K) : Prop where
  succeeds : (calibrateTemperature conversion setup).near = true
  inside : ∀ trial ∈ (calibrateTemperature conversion setup).trials,
    1 / 100 ≤ trial.minValue ∧ trial.minValue ≤ trial.midValue ∧
      trial.midValue ≤ trial.maxValue ∧ trial.maxValue ≤ 10
  published : |getTemp conversion setup (calibrateTemperature conversion setup).value -
    setup.tempCalibration| < 1 / 10

/-- The number in use and the temperature that is wanted are such as their commands accept:
`NS`, `WS` or `S`, and `CA`. -/
structure Accepted (setup : Setup K) : Prop where
  leastValue : 1 / 10 ≤ setup.value
  mostValue : setup.value ≤ 203 / 20
  leastTemp : 100 ≤ setup.tempCalibration
  mostTemp : setup.tempCalibration ≤ 3500

/-- Setups in which the calibration does what it should. The number in use lies in the range
of the search, the channel has a voltage, and the voltage of the narrow one is not too low.
`get_temp` takes the voltage of the search, or the gain is zero. The two coefficients move
the temperature that is wanted by no more than they shrink the tenth around it, and take
that into the range of the device. -/
structure Fits (setup : Setup K) : Prop where
  started : setup.value ≤ 10
  powered : setup.powered
  energy : ¬ setup.low
  sameVolt : setup.gain ≠ 0 → setup.SameVolt
  inside : setup.devTempMin + |setup.gain| * (1 / 10) ≤
      tempTwoPointCalibrate setup setup.tempCalibration ∧
    tempTwoPointCalibrate setup setup.tempCalibration ≤
      setup.devTempMax - |setup.gain| * (1 / 10)
  close : |tempTwoPointCalibrate setup setup.tempCalibration - setup.tempCalibration| +
    |setup.gain| * (1 / 10) ≤ 1 / 10
  constant : setup.gain = 0 → |setup.offset - setup.tempCalibration| < 1 / 10

/-- `get_temp` takes whatever the conversion may give after the search to less than a tenth
from what is wanted. With the same voltage that is less than a tenth from it already; else
it may be anything. -/
def Keeps (setup : Setup K) : Prop :=
  ∀ raw, (setup.SameVolt → |raw - setup.tempCalibration| < 1 / 10) →
    |publish setup raw - setup.tempCalibration| < 1 / 10

/-- For each conversion for which it can be done the calibration does what it should. -/
def Calibrates (setup : Setup K) : Prop :=
  ∀ conversion : Conversion K, Regular setup.mode (setup.searched conversion) →
    Regular setup.mode (setup.passed conversion) →
    Attained (setup.searched conversion) setup.tempCalibration → Reaches conversion setup

/-- How far a temperature is on the side that raises the lower bound. -/
def excess (mode : Mode) (temp : K → K) (target value : K) : K :=
  match mode with
  | .ratio => target - temp value
  | _ => temp value - target

/-- The first trial of the loop is among its trials. -/
theorem first_trial (mode : Mode) (temp : K → K) (target : K) (left : Nat) (value : K)
    (trial : Trial K) :
    trial ∈ (calibrateLoop mode temp target (left + 1) value trial).trials := by
  rw [calibrateLoop]
  split
  · exact List.mem_cons_self
  · exact List.mem_cons_self

omit [LinearOrder K] in
/-- For a transmissivity the excess is that over the target. -/
theorem excess_single {mode : Mode} (single : mode ≠ .ratio) (temp : K → K) (target value : K) :
    excess mode temp target value = temp value - target := by
  cases mode with
  | wide => rfl
  | narrow => rfl
  | ratio => exact absurd rfl single

/-- A difference and the excess have the same size. -/
theorem abs_excess (mode : Mode) (temp : K → K) (target value : K) :
    |excess mode temp target value| = |temp value - target| := by
  cases mode with
  | wide => rfl
  | narrow => rfl
  | ratio => exact abs_sub_comm _ _

section

variable [IsStrictOrderedRing K]

/-- The lower bound is raised where there is an excess. -/
theorem raises_excess (mode : Mode) (temp : K → K) (target value : K) :
    raises mode (temp value - target) = decide (0 < excess mode temp target value) := by
  cases mode with
  | wide => rfl
  | narrow => rfl
  | ratio => simp [raises, excess]

/-- With the bounds in order the next trial is that of halving. -/
theorem next_halved {trial : Trial K} (below : trial.minValue ≤ trial.midValue)
    (above : trial.midValue ≤ trial.maxValue) (raise : Bool) :
    next trial raise = trial.halved raise := by
  have ordered : (if raise then trial.midValue else trial.minValue) ≤
      if raise then trial.maxValue else trial.midValue := by
    cases raise with
    | true => exact above
    | false => exact below
  simp only [next, Trial.halved]
  generalize (if raise then trial.midValue else trial.minValue) = low at ordered ⊢
  generalize (if raise then trial.maxValue else trial.midValue) = high at ordered ⊢
  obtain ⟨least, most⟩ := middle_between ordered
  congr 1
  split
  case isTrue atMost => exact le_antisymm least atMost
  case isFalse =>
    split
    case isTrue atLeast => exact le_antisymm atLeast most
    case isFalse => rfl

/-- The loop is the search for the root of the excess. -/
theorem calibrate_loop_search (mode : Mode) (temp : K → K) (target : K) (left : Nat) (value : K)
    {trial : Trial K} (below : trial.minValue ≤ trial.midValue)
    (above : trial.midValue ≤ trial.maxValue) :
    calibrateLoop mode temp target left value trial =
      search (excess mode temp target) (1 / 10) left value trial := by
  induction left generalizing value trial with
  | zero => rfl
  | succ left inductionHypothesis =>
    rw [calibrateLoop, search, abs_excess, raises_excess, next_halved below above]
    have following : ∀ raise : Bool, (trial.halved raise).minValue ≤ (trial.halved raise).midValue ∧
        (trial.halved raise).midValue ≤ (trial.halved raise).maxValue := by
      intro raise
      cases raise with
      | true => exact middle_between above
      | false => exact middle_between below
    rw [inductionHypothesis _ (following _).1 (following _).2]

/-- The excess of a conversion falls. -/
theorem Regular.excess_falls {mode : Mode} {temp : K → K} (regular : Regular mode temp)
    (target : K) : ∃ bound, 0 ≤ bound ∧ bound < 10 ^ 12 ∧
      Falls (excess mode temp target) (1 / 100) 10 bound := by
  obtain ⟨bound, nonneg, small, lipschitz⟩ := regular.lipschitz
  have reach : (10 : K) ≤ 203 / 20 := by norm_num
  refine ⟨bound, nonneg, small, ?_, ?_⟩
  · intro left right low less high
    by_cases ratio : mode = .ratio
    · subst ratio
      exact sub_lt_sub_left (regular.grows rfl left right low less (high.trans reach)) target
    · rw [excess_single ratio, excess_single ratio]
      exact sub_lt_sub_right (regular.falls ratio left right low less (high.trans reach)) target
  · intro left right low less high
    have bounded := lipschitz left right low less (high.trans reach)
    by_cases ratio : mode = .ratio
    · subst ratio
      simp only [excess, sub_sub_sub_cancel_left]
      rwa [abs_sub_comm]
    · rwa [excess_single ratio, excess_single ratio, sub_sub_sub_cancel_right]

/-- From a number in the range of the search the loop succeeds, and its bounds stay in order
and in the range. -/
theorem loop_succeeds {mode : Mode} {temp : K → K} (regular : Regular mode temp) {target : K}
    (attained : Attained temp target) {value : K} (low : 1 / 100 ≤ value) (high : value ≤ 10) :
    let outcome := calibrateLoop mode temp target 50 value ⟨1 / 100, 10, value⟩
    outcome.near = true ∧ (∀ trial ∈ outcome.trials, 1 / 100 ≤ trial.minValue ∧
      trial.minValue ≤ trial.midValue ∧ trial.midValue ≤ trial.maxValue ∧ trial.maxValue ≤ 10) ∧
      |temp outcome.value - target| < 1 / 10 := by
  intro outcome
  obtain ⟨bound, nonneg, small, falls⟩ := regular.excess_falls target
  obtain ⟨root, least, most, same⟩ := attained
  have zero : excess mode temp target root = 0 := by
    rw [← abs_eq_zero, abs_excess, same, sub_self, abs_zero]
  have brackets : Brackets (1 / 100) 10 root (⟨1 / 100, 10, value⟩ : Trial K) :=
    ⟨le_rfl, low, high, le_rfl, least, most⟩
  have isSearch : outcome =
      search (excess mode temp target) (1 / 10) 50 value ⟨1 / 100, 10, value⟩ :=
    calibrate_loop_search mode temp target 50 value low high
  have narrow : bound * ((10 - 1 / 100) / 2) < 2 ^ 48 * (1 / 10) := by
    norm_num at small ⊢
    linarith
  have near : outcome.near = true := by
    rw [isSearch]
    exact search_near falls zero nonneg 48 value brackets narrow
  refine ⟨near, fun trial member => ?_, ?_⟩
  · rw [isSearch] at member
    have inside := search_inside falls zero 50 value brackets trial member
    exact ⟨inside.low, inside.below, inside.above, inside.high⟩
  · rw [isSearch] at near ⊢
    rw [← abs_excess]
    exact search_value 50 value _ near

/-- A multiple of a shift stays below a bound for all small shifts if it does at the ends. -/
theorem scaled_bound {radius : K} (positive : 0 < radius) (gain most : K) :
    (∀ shift, |shift| < radius → gain * shift ≤ most) ↔ |gain| * radius ≤ most := by
  constructor
  · intro bounded
    refine le_of_forall_lt_imp_le_of_dense fun value less => ?_
    rcases le_or_gt value 0 with notPositive | above
    · have least := bounded 0 (by rwa [abs_zero])
      rw [mul_zero] at least
      exact notPositive.trans least
    · have scale : 0 < |gain| := by
        by_contra notPositive
        have zero : |gain| = 0 := le_antisymm (not_lt.mp notPositive) (abs_nonneg gain)
        rw [zero, zero_mul] at less
        exact lt_asymm above less
      have small : value / |gain| < radius := (div_lt_iff₀' scale).mpr less
      have nonneg : 0 ≤ value / |gain| := (div_pos above scale).le
      have whole : |gain| * (value / |gain|) = value := mul_div_cancel₀ value scale.ne'
      rcases abs_choice gain with same | opposite
      · have least := bounded (value / |gain|) (by rwa [abs_of_nonneg nonneg])
        rwa [← same, abs_abs, whole] at least
      · have least := bounded (-(value / |gain|)) (by rwa [abs_neg, abs_of_nonneg nonneg])
        rwa [mul_neg, ← neg_mul, ← opposite, whole] at least
  · intro bounded shift small
    calc gain * shift ≤ |gain * shift| := le_abs_self _
      _ = |gain| * |shift| := abs_mul gain shift
      _ ≤ |gain| * radius := mul_le_mul_of_nonneg_left small.le (abs_nonneg gain)
      _ ≤ most := bounded

/-- A linear function stays in a range near a point if it does so at the ends. -/
theorem linear_range {radius : K} (positive : 0 < radius) (gain offset target low high : K) :
    (∀ raw, |raw - target| < radius → low ≤ gain * raw + offset ∧ gain * raw + offset ≤ high) ↔
      low + |gain| * radius ≤ gain * target + offset ∧
        gain * target + offset ≤ high - |gain| * radius := by
  have upper := scaled_bound positive gain (high - (gain * target + offset))
  have lower := scaled_bound positive (-gain) (gain * target + offset - low)
  rw [abs_neg] at lower
  constructor
  · intro inside
    have moved : ∀ shift, |shift| < radius → |target + shift - target| < radius := by
      intro shift small
      rwa [add_sub_cancel_left]
    have above := lower.mp fun shift small => by
      have least := (inside (target + shift) (moved shift small)).1
      linarith
    have below := upper.mp fun shift small => by
      have most := (inside (target + shift) (moved shift small)).2
      linarith
    constructor <;> linarith
  · rintro ⟨above, below⟩ raw close
    have least := lower.mpr (by linarith) (raw - target) close
    have most := upper.mpr (by linarith) (raw - target) close
    constructor <;> linarith

/-- A linear function takes the neighbourhood of a point into itself if it moves the point
by no more than it shrinks the neighbourhood. -/
theorem linear_close {radius : K} (positive : 0 < radius) (gain offset target : K) :
    (∀ raw, |raw - target| < radius → |gain * raw + offset - target| < radius) ↔
      |gain * target + offset - target| + |gain| * radius ≤ radius ∧
        (gain = 0 → |offset - target| < radius) := by
  have range := linear_range positive gain offset target (target - radius) (target + radius)
  constructor
  · intro close
    obtain ⟨above, below⟩ := range.mp fun raw near => by
      obtain ⟨least, most⟩ := abs_lt.mp (close raw near)
      constructor <;> linarith
    constructor
    · have moved : |gain * target + offset - target| ≤ radius - |gain| * radius :=
        abs_le.mpr ⟨by linarith, by linarith⟩
      linarith
    · intro constant
      have here := close target (by rwa [sub_self, abs_zero])
      rwa [constant, zero_mul, zero_add] at here
  · rintro ⟨moved, constant⟩ raw near
    rcases eq_or_ne gain 0 with zero | nonzero
    · rw [zero, zero_mul, zero_add]
      exact constant zero
    · have shrinks : |gain| * |raw - target| < |gain| * radius :=
        mul_lt_mul_of_pos_left near (abs_pos.mpr nonzero)
      calc |gain * raw + offset - target|
          = |gain * (raw - target) + (gain * target + offset - target)| := by congr 1; ring
        _ ≤ |gain * (raw - target)| + |gain * target + offset - target| := abs_add_le _ _
        _ = |gain| * |raw - target| + |gain * target + offset - target| := by rw [abs_mul]
        _ < radius := by linarith

omit [IsStrictOrderedRing K] in
/-- A published temperature is near one that is not near zero exactly if it was measured,
lies in the range, and the coefficients take it there. -/
theorem publish_close {setup : Setup K} {target : K} (least : 1 / 10 ≤ target) (raw : K) :
    |publish setup raw - target| < 1 / 10 ↔
      ¬ setup.low ∧ (setup.devTempMin ≤ tempTwoPointCalibrate setup raw ∧
        tempTwoPointCalibrate setup raw ≤ setup.devTempMax) ∧
        |tempTwoPointCalibrate setup raw - target| < 1 / 10 := by
  have far : ¬ |0 - target| < 1 / 10 := by
    rw [zero_sub, abs_neg]
    exact not_lt.mpr (least.trans (le_abs_self target))
  unfold publish
  by_cases low : setup.low
  · rw [if_pos low]
    exact iff_of_false far fun kept => kept.1 low
  · rw [if_neg low]
    split
    case isTrue inside =>
      exact ⟨fun close => ⟨low, ⟨inside.1.le, inside.2.le⟩, close⟩, fun kept => kept.2.2⟩
    case isFalse =>
      split
      case isTrue below => exact iff_of_false far fun kept => below.not_ge kept.2.1.1
      case isFalse notBelow =>
        split
        case isTrue above => exact iff_of_false far fun kept => above.not_ge kept.2.1.2
        case isFalse notAbove =>
          exact ⟨fun close => ⟨low, ⟨not_lt.mp notBelow, not_lt.mp notAbove⟩, close⟩,
            fun kept => kept.2.2⟩

/-- In a setup that fits `get_temp` keeps the temperature. -/
theorem Fits.keeps {setup : Setup K} (fits : Fits setup)
    (least : 1 / 10 ≤ setup.tempCalibration) : Keeps setup := by
  have tenth : (0 : K) < 1 / 10 := by norm_num
  have inside := (linear_range tenth setup.gain setup.offset setup.tempCalibration
    setup.devTempMin setup.devTempMax).mpr fits.inside
  have close := (linear_close tenth setup.gain setup.offset setup.tempCalibration).mpr
    ⟨fits.close, fits.constant⟩
  have kept : ∀ raw, |raw - setup.tempCalibration| < 1 / 10 →
      |publish setup raw - setup.tempCalibration| < 1 / 10 := fun raw near =>
    (publish_close least raw).mpr ⟨fits.energy, inside raw near, close raw near⟩
  intro raw near
  by_cases same : setup.SameVolt
  · exact kept raw (near same)
  · have constant : setup.gain = 0 := by
      by_contra nonzero
      exact same (fits.sameVolt nonzero)
    have equal : publish setup raw = publish setup setup.tempCalibration := by
      simp only [publish, tempTwoPointCalibrate, constant, zero_mul]
    rw [equal]
    apply kept
    rwa [sub_self, abs_zero]

/-- If `get_temp` keeps the temperature, and the search starts well, the setup fits. -/
theorem Keeps.fits {setup : Setup K} (keeps : Keeps setup)
    (least : 1 / 10 ≤ setup.tempCalibration) (started : setup.value ≤ 10)
    (powered : setup.powered) : Fits setup := by
  have tenth : (0 : K) < 1 / 10 := by norm_num
  have kept := fun raw near => (publish_close least raw).mp (keeps raw fun _ => near)
  have inside := (linear_range tenth setup.gain setup.offset setup.tempCalibration
    setup.devTempMin setup.devTempMax).mp fun raw near => (kept raw near).2.1
  obtain ⟨close, constant⟩ := (linear_close tenth setup.gain setup.offset
    setup.tempCalibration).mp fun raw near => (kept raw near).2.2
  have energy := (kept setup.tempCalibration (by rwa [sub_self, abs_zero])).1
  refine ⟨started, powered, energy, ?_, inside, close, constant⟩
  intro nonzero
  by_contra apart
  have moved := ((publish_close least _).mp
    (keeps ((setup.tempCalibration + 1 - setup.offset) / setup.gain)
      fun same => absurd same apart)).2.2
  rw [tempTwoPointCalibrate, mul_div_cancel₀ _ nonzero, sub_add_cancel, add_sub_cancel_left,
    abs_one] at moved
  norm_num at moved

/-- In a setup that fits the calibration does what it should. -/
theorem Fits.calibrates {setup : Setup K} (fits : Fits setup) (accepted : Accepted setup) :
    Calibrates setup := by
  intro conversion regular _ attained
  have low : 1 / 100 ≤ setup.value := le_trans (by norm_num) accepted.leastValue
  have least : 1 / 10 ≤ setup.tempCalibration := le_trans (by norm_num) accepted.leastTemp
  obtain ⟨near, inside, close⟩ := loop_succeeds regular attained low fits.started
  have called : calibrateTemperature conversion setup =
      calibrateLoop setup.mode (setup.searched conversion) setup.tempCalibration 50 setup.value
        ⟨1 / 100, 10, setup.value⟩ := if_pos fits.powered
  refine ⟨?_, ?_, ?_⟩
  · rw [called]
    exact near
  · rw [called]
    exact inside
  · rw [called]
    apply fits.keeps least
    intro same
    rw [passed_same same]
    exact close

/-- A hundred degrees for each unit: down for a transmissivity, and up for a slope. -/
def steepness : Mode → K
  | .ratio => 100
  | _ => -100

/-- A straight line through a point. -/
def line (mode : Mode) (point temp value : K) : K := temp + steepness mode * (value - point)

omit [LinearOrder K] [IsStrictOrderedRing K] in
/-- The two kinds of lines. -/
theorem steepness_cases (mode : Mode) :
    mode = .ratio ∧ steepness mode = (100 : K) ∨ mode ≠ .ratio ∧ steepness mode = (-100 : K) := by
  cases mode with
  | wide => exact .inr ⟨by decide, rfl⟩
  | narrow => exact .inr ⟨by decide, rfl⟩
  | ratio => exact .inl ⟨rfl, rfl⟩

omit [LinearOrder K] [IsStrictOrderedRing K] in
/-- The line goes through its point. -/
theorem line_point (mode : Mode) (point temp : K) : line mode point temp point = temp := by
  rw [line, sub_self, mul_zero, add_zero]

/-- The line is a conversion. -/
theorem line_regular (mode : Mode) (point temp : K) : Regular mode (line mode point temp) := by
  obtain ⟨ratio, grows⟩ | ⟨single, falls⟩ := @steepness_cases K _ mode
  · refine ⟨fun single => absurd ratio single, fun _ left right _ less _ => ?_, 100, by norm_num,
      by norm_num, fun left right _ less _ => ?_⟩
    · simp only [line, grows]
      linarith
    · simp only [line, grows]
      rw [abs_le]
      constructor <;> linarith
  · refine ⟨fun _ left right _ less _ => ?_, fun ratio => absurd ratio single, 100, by norm_num,
      by norm_num, fun left right _ less _ => ?_⟩
    · simp only [line, falls]
      linarith
    · simp only [line, falls]
      rw [abs_le]
      constructor <;> linarith

/-- Near its point the line attains the temperatures near the one of the point. -/
theorem line_attained (mode : Mode) {point temp target : K} (close : |temp - target| < 1 / 10)
    (low : 11 / 1000 ≤ point) (high : point ≤ 9) : Attained (line mode point temp) target := by
  obtain ⟨above, below⟩ := abs_lt.mp close
  obtain ⟨-, grows⟩ | ⟨-, falls⟩ := @steepness_cases K _ mode
  · refine ⟨point + (target - temp) / 100, by linarith, by linarith, ?_⟩
    rw [line, grows]
    ring
  · refine ⟨point + (temp - target) / 100, by linarith, by linarith, ?_⟩
    rw [line, falls]
    ring

omit [LinearOrder K] [IsStrictOrderedRing K] in
/-- The excess of a line falls by a hundred degrees for each unit. -/
theorem excess_line (mode : Mode) (point temp target value : K) :
    excess mode (line mode point temp) target value =
      excess mode (fun _ => temp) target value - 100 * (value - point) := by
  obtain ⟨ratio, grows⟩ | ⟨single, falls⟩ := @steepness_cases K _ mode
  · subst ratio
    simp only [excess, line, grows]
    ring
  · rw [excess_single single, excess_single single, line, falls]
    ring

/-- A conversion with one line for the search and another for other voltages. -/
def lines (setup : Setup K) (searched passed : K → K) : Conversion K where
  getSingleTemp := fun channel volt =>
    if volt = setup.voltFilter channel then searched else passed
  getRatioTemp := fun _ => searched

omit [Field K] [LinearOrder K] [IsStrictOrderedRing K] in
/-- The search takes the first line. -/
theorem searched_lines (setup : Setup K) (searched passed : K → K) :
    setup.searched (lines setup searched passed) = searched := by
  unfold Setup.searched
  split
  · exact if_pos rfl
  · rfl

omit [Field K] [LinearOrder K] [IsStrictOrderedRing K] in
/-- `get_temp` takes the other line, unless the voltage is the same. -/
theorem passed_lines {setup : Setup K} (apart : ¬ setup.SameVolt) (searched passed : K → K) :
    setup.passed (lines setup searched passed) = passed := by
  unfold Setup.SameVolt at apart
  push Not at apart
  obtain ⟨channel, isChannel, differs⟩ := apart
  simp only [Setup.passed, isChannel, lines, if_neg differs]

/-- A calibration that does what it should starts in the range of the search. -/
theorem Calibrates.started {setup : Setup K} (calibrates : Calibrates setup) :
    setup.powered ∧ setup.value ≤ 10 := by
  have regular : ∀ point : K, Regular setup.mode (line setup.mode point setup.tempCalibration) :=
    fun point => line_regular _ _ _
  have reaches := calibrates
    (lines setup (line setup.mode 5 setup.tempCalibration)
      (line setup.mode 5 setup.tempCalibration))
    (by rw [searched_lines]; exact regular 5)
    (by
      by_cases same : setup.SameVolt
      · rw [passed_same same, searched_lines]
        exact regular 5
      · rw [passed_lines same]
        exact regular 5)
    (by
      rw [searched_lines]
      exact line_attained _ (by norm_num) (by norm_num) (by norm_num))
  have succeeds := reaches.succeeds
  have inside := reaches.inside
  unfold calibrateTemperature at succeeds inside
  by_cases powered : setup.powered
  · rw [if_pos powered] at inside
    obtain ⟨-, -, above, most⟩ := inside _ (first_trial _ _ _ 49 _ _)
    exact ⟨powered, above.trans most⟩
  · rw [if_neg powered] at succeeds
    cases succeeds

/-- The loop tries the number in use, which is far off, and then the middle below it. -/
theorem loop_second {mode : Mode} {value raw target : K} (low : 1 / 10 ≤ value)
    (close : |raw - target| < 1 / 10) :
    (calibrateLoop mode (line mode (middle (1 / 100) value) raw) target 50 value
      ⟨1 / 100, 10, value⟩).value = middle (1 / 100) value := by
  obtain ⟨point, isPoint⟩ : ∃ point, point = middle (1 / 100) value := ⟨_, rfl⟩
  have half : point = (1 / 100 + value) / 2 := isPoint
  rw [← isPoint]
  have less : excess mode (line mode point raw) target value ≤ -1 := by
    rw [← abs_excess mode (fun _ => raw) target value] at close
    have most := (abs_lt.mp close).2
    rw [excess_line]
    linarith
  have far : 1 / 10 ≤ |line mode point raw value - target| := by
    rw [← abs_excess mode]
    exact le_abs.mpr (.inr (by linarith))
  have lowered : raises mode (line mode point raw value - target) = false := by
    rw [raises_excess, decide_eq_false_iff_not, not_lt]
    linarith
  have following : next (⟨1 / 100, 10, value⟩ : Trial K) false = ⟨1 / 100, value, point⟩ := by
    have notLow : ¬ point ≤ 1 / 100 := by linarith
    have notHigh : ¬ value ≤ point := by linarith
    simp only [next, Bool.false_eq_true, if_false, ← isPoint, notLow, notHigh]
  rw [calibrateLoop, if_neg far.not_gt, lowered, following]
  rw [calibrateLoop, line_point, if_pos close]

/-- A calibration that does what it should leaves it to `get_temp` to keep the temperature. -/
theorem Calibrates.keeps {setup : Setup K} (calibrates : Calibrates setup)
    (low : 1 / 10 ≤ setup.value) : Keeps setup := by
  intro raw near
  obtain ⟨powered, high⟩ := calibrates.started
  obtain ⟨point, isPoint⟩ : ∃ point, point = middle (1 / 100) setup.value := ⟨_, rfl⟩
  have half : point = (1 / 100 + setup.value) / 2 := isPoint
  obtain ⟨first, close, agrees⟩ : ∃ first : K, |first - setup.tempCalibration| < 1 / 10 ∧
      (setup.SameVolt → first = raw) := by
    by_cases same : setup.SameVolt
    · exact ⟨raw, near same, fun _ => rfl⟩
    · refine ⟨setup.tempCalibration, ?_, fun equal => absurd equal same⟩
      rw [sub_self, abs_zero]
      norm_num
  obtain ⟨conversion, isConversion⟩ : ∃ conversion, conversion =
      lines setup (line setup.mode point first) (line setup.mode point raw) := ⟨_, rfl⟩
  have searched : setup.searched conversion = line setup.mode point first := by
    rw [isConversion, searched_lines]
  have passed : setup.passed conversion = line setup.mode point raw := by
    by_cases same : setup.SameVolt
    · rw [passed_same same, searched, agrees same]
    · rw [isConversion, passed_lines same]
  have reaches := calibrates conversion
    (by rw [searched]; exact line_regular _ _ _)
    (by rw [passed]; exact line_regular _ _ _)
    (by
      rw [searched]
      exact line_attained _ close (by linarith) (by linarith))
  have value : (calibrateTemperature conversion setup).value = point := by
    rw [calibrateTemperature, if_pos powered, searched, isPoint]
    exact loop_second low close
  have published := reaches.published
  rw [value, getTemp, passed, line_point] at published
  exact published

/-- From what the commands accept, the calibration does what it should for each conversion
exactly in a setup that fits. -/
theorem calibrates_iff (setup : Setup K) (accepted : Accepted setup) :
    Calibrates setup ↔ Fits setup := by
  constructor
  · intro calibrates
    obtain ⟨powered, started⟩ := calibrates.started
    have least : 1 / 10 ≤ setup.tempCalibration := le_trans (by norm_num) accepted.leastTemp
    exact (calibrates.keeps accepted.leastValue).fits least started powered
  · exact fun fits => fits.calibrates accepted

end

/-- The wide channel has a volt, and 900 degrees are wanted. -/
def uncompensated : Setup ℚ where
  mode := .wide
  voltRaw := fun _ => 1000000
  voltFilter := fun _ => 1000000
  voltCompensate := fun _ => 1000000
  validVol := 1000
  gain := 1
  offset := 0
  devTempMin := 800
  devTempMax := 2800
  value := 1
  tempCalibration := 900

/-- In this setup the calibration does what it should. -/
theorem uncompensated_calibrates : Calibrates uncompensated := by
  have accepted : Accepted uncompensated := by
    constructor <;> norm_num [uncompensated]
  refine (calibrates_iff uncompensated accepted).mpr ⟨?_, ?_, ?_, ?_, ?_, ?_, ?_⟩
  · norm_num [uncompensated]
  · decide
  · decide
  · exact fun _ _ _ => rfl
  · norm_num [uncompensated, tempTwoPointCalibrate]
  · norm_num [uncompensated, tempTwoPointCalibrate]
  · norm_num [uncompensated]

/-- The compensation of the ambient temperature adds a thousandth. -/
def compensated : Setup ℚ := { uncompensated with voltCompensate := fun _ => 1001000 }

/-- With a degree for each millivolt the search stays at the number in use, which gives the
temperature that is wanted, and `get_temp` publishes a degree more. -/
theorem compensated_missed : Accepted compensated ∧ ¬ Calibrates compensated := by
  have accepted : Accepted compensated := by
    constructor <;> norm_num [compensated, uncompensated]
  refine ⟨accepted, fun calibrates => ?_⟩
  obtain ⟨conversion, isConversion⟩ : ∃ conversion : Conversion ℚ, conversion =
      ⟨fun _ volt => line .wide 0 (volt / 1000), fun _ value => value⟩ := ⟨_, rfl⟩
  have searched : compensated.searched conversion = line .wide 0 1000 := by
    norm_num [isConversion, Setup.searched, Mode.channel, compensated, uncompensated]
  have passed : compensated.passed conversion = line .wide 0 1001 := by
    norm_num [isConversion, Setup.passed, Mode.channel, compensated, uncompensated]
  have reaches := calibrates conversion
    (by rw [searched]; exact line_regular _ _ _)
    (by rw [passed]; exact line_regular _ _ _)
    (by rw [searched]; exact ⟨1, by norm_num, by norm_num, by
      norm_num [line, steepness, compensated, uncompensated]⟩)
  have first : (calibrateTemperature conversion compensated).value = 1 := by
    have powered : compensated.powered := by decide
    rw [calibrateTemperature, if_pos powered, searched, calibrateLoop, if_pos]
    · rfl
    · norm_num [line, steepness, compensated, uncompensated]
  have measured : ¬ compensated.low := by decide
  have published := reaches.published
  rw [first, getTemp, passed, publish, if_neg measured] at published
  norm_num [tempTwoPointCalibrate, compensated, uncompensated, line, steepness] at published

end Pyrometer.OnePointCalibration
