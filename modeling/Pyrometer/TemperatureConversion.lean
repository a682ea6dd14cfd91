import Pyrometer.TemperatureStatus
import Pyrometer.Truncation
import Pyrometer.VoltageFilter
import Pyrometer.WienLaw

/-!
# From voltages to temperatures

Each cycle compensates the filtered voltages for the temperature inside the device. When the raw
voltage of the narrow channel says that there is enough energy, it converts them: each channel by
the logarithm of its voltage, their ratio by a polynomial and by a network of 64 neurons, each
temperature behind its two-point calibration. From the temperature of the ratio `get_temp`
computes how much of the energy of a black body of that temperature is missing. Without enough
energy the temperatures are zero, and what the network and the attenuation say stays.

All numbers are exact: those of any ordered field, with `log` and `exp` as parameters. Of the
voltages only what is compensated is cut to whole microvolts, as it is stored. The limits of the
device, the smoothing and the hold filter come behind what is here; a channel without a positive
voltage gives what is not initialised, which is no temperature here.
-/

namespace Pyrometer.TemperatureConversion

open Real Truncation VoltageFilter WienLaw

/-- `coef_t`: a whole number and a power of ten. -/
structure Coef where
  base : ℤ
  index : ℤ

/-- `log_para_t`. -/
structure LogPara (K : Type) where
  threshold : K
  coef : Fin 2 → Coef

/-- `poly_para_t`. -/
structure PolyPara (K : Type) where
  polyTerm : ℕ
  subtrahend : K
  coef : ℕ → Coef

/-- `network_para_t`. -/
structure NetworkPara (K : Type) where
  effectiveW1 : ℕ → K
  effectiveB1 : ℕ → K
  effectiveW2 : ℕ → K
  effectiveB2 : K

/-- `algo_para_t`, with the one polynomial that is used. -/
structure AlgoPara (K : Type) where
  logPara : Spec → Fin 2 → LogPara K
  polyPara : PolyPara K
  networkPara : NetworkPara K

/-- The part of `temp_para_t` that the conversions read. -/
structure TempPara (K : Type) where
  emissivity : K
  trans : Spec → K
  transInterior : Spec → K
  slope : K
  slopeInterior : K
  ambientCompCtl : ℕ
  validVol : ℕ
  tempCalibGain : TemperatureStatus.TempChannel → K
  tempCalibOffset : TemperatureStatus.TempChannel → K

/-- The voltages of a channel in `sens_spec_t`. -/
structure SensSpec where
  voltRaw : ℤ
  voltFilter : ℤ

/-- The place of a channel among the temperatures. -/
def tempChannel : Spec → TemperatureStatus.TempChannel
  | .wb => .wb
  | .nb => .nb

section

variable {K : Type} [Field K]

/-- The number that a coefficient means. -/
def Coef.value (coef : Coef) : K := ((coef.base * 10 ^ coef.index : ℚ) : K)

/-- The coefficients of the first segment of a channel. -/
def AlgoPara.first (algo : AlgoPara K) (ch : Spec) : K × K :=
  (((algo.logPara ch 0).coef 0).value, ((algo.logPara ch 0).coef 1).value)

/-- What is left of the energy of a channel. -/
def TempPara.passed (para : TempPara K) (ch : Spec) : K :=
  para.emissivity * para.trans ch * para.transInterior ch

/-- `temp_two_point_calibrate` with the coefficients in force. -/
def TempPara.tempTwoPointCalibrate (para : TempPara K) (rawTemp : K)
    (mode : TemperatureStatus.TempChannel) : K :=
  para.tempCalibGain mode * rawTemp + para.tempCalibOffset mode

/-- The energy check of `get_temp` fails. -/
def TempPara.Low (para : TempPara K) (data : Spec → SensSpec) : Prop :=
  TemperatureStatus.reportedVolt (data .nb).voltRaw % 2 ^ 32 < para.validVol

instance (para : TempPara K) (data : Spec → SensSpec) : Decidable (para.Low data) :=
  inferInstanceAs (Decidable (_ < _))

/-- The voltage of a channel in volts, without what weakens it. -/
def compesVolt (para : TempPara K) (voltage : ℤ) (ch : Spec) : K :=
  voltage / 1000000 / para.passed ch

/-- The sum of `get_multi_coefficient`, up to a number of terms. -/
def multiSum (poly : PolyPara K) (ratioValue : K) : ℕ → K
  | 0 => 0
  | num + 1 =>
    multiSum poly ratioValue num + ratioValue ^ num * (poly.coef num).value

/-- `get_multi_coefficient`. -/
def getMultiCoefficient (poly : PolyPara K) (ratioValue : K) : K :=
  multiSum poly ratioValue poly.polyTerm

/-- `ratio_value` in `get_ratio_temp`. -/
def ratioValue (para : TempPara K) (algo : AlgoPara K) (voltCompensate : Spec → ℤ) : K :=
  voltCompensate .wb / para.passed .wb / (voltCompensate .nb / para.passed .nb) / para.slope /
    para.slopeInterior - algo.polyPara.subtrahend * 1000

/-- `coef_K` in `internal_temp_power_compensate`, for a voltage in volts. -/
def coefK (inValue : K) : Spec → K
  | .wb => -2.06134814E-06 * inValue ^ 2 - 1.10086024E-03 * inValue - 8.39013272E-04
  | .nb => -2.49380851E-06 * inValue ^ 2 - 8.71315941E-04 * inValue - 9.05925763E-04

variable [LinearOrder K]

/-- `get_sin_coefficient`. -/
def getSinCoefficient (algo : AlgoPara K) (compesVolt : K) (specNum : Spec) : K × K :=
  let segThresholdValue := (algo.logPara specNum 0).threshold
  let index := if segThresholdValue = 0 ∨ compesVolt < segThresholdValue then 0 else 1
  (((algo.logPara specNum index).coef 0).value, ((algo.logPara specNum index).coef 1).value)

/-- `coef_a` and `coef_b` as `get_single_temp` leaves them. -/
def singleCoefs (para : TempPara K) (algo : AlgoPara K) (voltage : ℤ) (ch : Spec) : K × K :=
  getSinCoefficient algo (compesVolt para voltage ch) ch

/-- `get_single_temp`. -/
def getSingleTemp (log : K → K) (para : TempPara K) (algo : AlgoPara K) (voltage : ℤ)
    (ch : Spec) : Option K :=
  let coef := singleCoefs para algo voltage ch
  if 0 < compesVolt para voltage ch then
    some (1 / (coef.1 * log (compesVolt para voltage ch) + coef.2) - 273.15)
  else none

/-- `fc1_relu`. -/
def fc1Relu (network : NetworkPara K) (ratio : K) (i : ℕ) : K :=
  let fc1Out := network.effectiveW1 i * ratio + network.effectiveB1 i
  if 0 < fc1Out then fc1Out else 0

/-- The loop of `fc2_out`, up to a number of neurons. -/
def fc2Out (network : NetworkPara K) (ratio : K) : ℕ → K
  | 0 => 0
  | num + 1 => fc2Out network ratio num + network.effectiveW2 num * fc1Relu network ratio num

/-- `ratio2temp`. -/
def ratio2temp (network : NetworkPara K) (ratio : K) : K :=
  fc2Out network ratio 64 + network.effectiveB2

/-- `get_ratio_temp`: the temperature by the polynomial, and `ratio_temp_nerve`. -/
def getRatioTemp (para : TempPara K) (algo : AlgoPara K) (voltCompensate : Spec → ℤ) : K × K :=
  (getMultiCoefficient algo.polyPara (ratioValue para algo voltCompensate),
    ratio2temp algo.networkPara (ratioValue para algo voltCompensate))

/-- `get_attenuation_rate`, with the coefficients of the narrow channel. -/
def getAttenuationRate (exp : K → K) (coef : K × K) (voltCompensate : ℤ) (temp : K) : K :=
  let voltage := exp ((1 / (temp + 273.15) - coef.2) / coef.1)
  let decayRate := 1 - voltCompensate / 1000000 / voltage
  if 0 < decayRate ∧ decayRate < 1 then decayRate else 0

variable [FloorRing K]

/-- `internal_temp_power_compensate`. -/
def internalTempPowerCompensate (internalTemp : K) (rawValue : ℤ) (spec : Spec) : ℤ :=
  let inValue : K := rawValue / 1000000
  cut ((inValue - coefK inValue spec * (internalTemp - 45)) * 1000000)

/-- `internal_temp_calibrate`. -/
def internalTempCalibrate (para : TempPara K) (internalTemp : K) (voltFilter : Spec → ℤ)
    (spec : Spec) : ℤ :=
  if para.ambientCompCtl = 1 then internalTempPowerCompensate internalTemp (voltFilter spec) spec
  else voltFilter spec

/-- What a cycle converts. -/
structure Converted (K : Type) where
  singleTemp : Spec → Option K
  ratioTemp : K
  ratioTempNerve : K
  measuredAttenuation : K

/-- `internal_temp_calibrate` and `get_temp` up to the two-point calibration and the attenuation,
behind what the cycle before converted. -/
def convert (log exp : K → K) (para : TempPara K) (algo : AlgoPara K) (internalTemp : K)
    (data : Spec → SensSpec) (last : Converted K) : Converted K :=
  let voltCompensate := internalTempCalibrate para internalTemp fun spec => (data spec).voltFilter
  if para.Low data then { last with singleTemp := fun _ => some 0, ratioTemp := 0 }
  else
    let ratioTemp := para.tempTwoPointCalibrate (getRatioTemp para algo voltCompensate).1 .ratio
    { singleTemp := fun ch => (getSingleTemp log para algo (voltCompensate ch) ch).map
        fun temp => para.tempTwoPointCalibrate temp (tempChannel ch)
      ratioTemp := ratioTemp
      ratioTempNerve := (getRatioTemp para algo voltCompensate).2
      measuredAttenuation := getAttenuationRate exp
        (singleCoefs para algo (voltCompensate .nb) .nb) (voltCompensate .nb) ratioTemp }

end

variable {para : TempPara ℝ} {algo : AlgoPara ℝ}

/-- A channel with a voltage has a compensated one. -/
theorem compes_volt_pos {voltage : ℤ} {ch : Spec} (powered : 0 < voltage)
    (passes : 0 < para.passed ch) : 0 < compesVolt para voltage ch := by
  have volts : (0 : ℝ) < voltage := by exact_mod_cast powered
  unfold compesVolt
  positivity

/-- A channel with a voltage has a temperature. -/
theorem single_temp_some {voltage : ℤ} {ch : Spec} (powered : 0 < voltage)
    (passes : 0 < para.passed ch) :
    getSingleTemp log para algo voltage ch =
      some (temperature (singleCoefs para algo voltage ch).1 (singleCoefs para algo voltage ch).2
        (compesVolt para voltage ch) - 273.15) :=
  if_pos (compes_volt_pos powered passes)

/-- What is kept of a number where it is positive. -/
theorem positive_part {K : Type} [Field K] [LinearOrder K] (value : K) :
    (if 0 < value then value else 0) = max 0 value := by
  split
  case isTrue positive => exact (max_eq_right positive.le).symm
  case isFalse negative => exact (max_eq_left (not_lt.mp negative)).symm

/-- The rate is what is missing of the energy of a black body, and nothing is missing where there
is more. -/
theorem attenuation_rate_missing (coef : ℝ × ℝ) {voltCompensate : ℤ} (powered : 0 < voltCompensate)
    (temp : ℝ) :
    getAttenuationRate exp coef voltCompensate temp =
      max 0 (1 - voltCompensate / 1000000 / radiance coef.1 coef.2 (temp + 273.15)) := by
  have volts : (0 : ℝ) < voltCompensate := by exact_mod_cast powered
  have body := @radiance_pos coef.1 coef.2 (temp + 273.15)
  have share : 0 < (voltCompensate : ℝ) / 1000000 / radiance coef.1 coef.2 (temp + 273.15) := by
    positivity
  have below : 1 - (voltCompensate : ℝ) / 1000000 / radiance coef.1 coef.2 (temp + 273.15) < 1 :=
    sub_lt_self 1 share
  rw [← positive_part]
  exact if_congr (and_iff_left below) rfl rfl

/-- Without a threshold the coefficients are those of the first segment. -/
theorem single_coefs_first {ch : Spec} (one : (algo.logPara ch 0).threshold = 0) (voltage : ℤ) :
    singleCoefs para algo voltage ch = algo.first ch := by
  rw [singleCoefs, getSinCoefficient, if_pos (.inl one)]
  rfl

/-- A channel without a voltage has no temperature. -/
theorem single_temp_none {voltage : ℤ} {ch : Spec} (dark : voltage ≤ 0)
    (passes : 0 < para.passed ch) : getSingleTemp log para algo voltage ch = none := by
  have volts : (voltage : ℝ) ≤ 0 := by exact_mod_cast dark
  have weak : compesVolt para voltage ch ≤ 0 :=
    div_nonpos_of_nonpos_of_nonneg (div_nonpos_of_nonpos_of_nonneg volts (by norm_num)) passes.le
  exact if_neg (not_lt.mpr weak)

/-- A channel shows a temperature exactly if it has the voltage of a body with that temperature,
weakened by what the parameters say; a voltage that is not positive is that of no body. With the
temperature that the narrow channel shows, whatever it is, the attenuation is what the parameters
say is missing. -/
theorem body_read (voltage : ℤ) (ch : Spec) (passes : 0 < para.passed ch)
    (steep : (singleCoefs para algo voltage ch).1 ≠ 0) (temp : ℝ) :
    (getSingleTemp log para algo voltage ch = some temp ↔
        (voltage : ℝ) / 1000000 = para.passed ch * radiance (singleCoefs para algo voltage ch).1
          (singleCoefs para algo voltage ch).2 (temp + 273.15)) ∧
      (getSingleTemp log para algo voltage ch = some temp →
        getAttenuationRate exp (singleCoefs para algo voltage ch) voltage temp =
          max 0 (1 - para.passed ch)) := by
  by_cases powered : 0 < voltage
  · have positive := compes_volt_pos powered passes
    have shown : getSingleTemp log para algo voltage ch = some temp ↔
        (voltage : ℝ) / 1000000 = para.passed ch * radiance (singleCoefs para algo voltage ch).1
          (singleCoefs para algo voltage ch).2 (temp + 273.15) := by
      rw [single_temp_some powered passes, Option.some_inj, sub_eq_iff_eq_add,
        temperature_eq_iff steep positive, compesVolt, div_eq_iff passes.ne', mul_comm]
    refine ⟨shown, fun showing => ?_⟩
    rw [attenuation_rate_missing _ powered, shown.mp showing,
      mul_div_cancel_right₀ _ (radiance_pos _).ne']
  · have dark := not_lt.mp powered
    have volts : (voltage : ℝ) / 1000000 ≤ 0 :=
      div_nonpos_of_nonpos_of_nonneg (by exact_mod_cast dark) (by norm_num)
    have body : 0 < para.passed ch * radiance (singleCoefs para algo voltage ch).1
        (singleCoefs para algo voltage ch).2 (temp + 273.15) := mul_pos passes (radiance_pos _)
    rw [single_temp_none dark passes]
    refine ⟨⟨fun shown => ?_, fun same => ?_⟩, fun shown => ?_⟩
    · cases shown
    · exact absurd (same ▸ volts) (not_le.mpr body)
    · cases shown

/-- The logarithms of the delivered parameters, which have one segment, without a polynomial and
without a network. -/
def delivered {K : Type} [Field K] : AlgoPara K where
  logPara
    | .wb, _ => ⟨0, fun index => if index = 0 then ⟨-651905818493707, -19⟩
        else ⟨651905818493707, -18⟩⟩
    | .nb, _ => ⟨0, fun index => if index = 0 then ⟨-753280579290912, -19⟩
        else ⟨729182522345416, -18⟩⟩
  polyPara := ⟨0, 0, fun _ => ⟨0, 0⟩⟩
  networkPara := ⟨fun _ => 0, fun _ => 0, fun _ => 0, 0⟩

/-- Half of the energy is expected, nothing is compensated, and the ratio is corrected to the
temperature of a narrow channel with a volt. -/
def halved {K : Type} [Field K] : TempPara K where
  emissivity := ((1 / 2 : ℚ) : K)
  trans := fun _ => 1
  transInterior := fun _ => 1
  slope := 1
  slopeInterior := 1
  ambientCompCtl := 0
  validVol := 15000
  tempCalibGain := fun _ => 1
  tempCalibOffset
    | .ratio => ((1 / (729182522345416 * 10 ^ (-18 : ℤ)) - 273.15 : ℚ) : K)
    | _ => 0

/-- Each channel expects half of the energy. -/
theorem halved_passed (ch : Spec) : (halved : TempPara ℝ).passed ch = 1 / 2 := by
  norm_num [halved, TempPara.passed]

/-- The delivered logarithms have no threshold. -/
theorem delivered_segments (ch : Spec) : ((delivered : AlgoPara ℝ).logPara ch 0).threshold = 0 := by
  cases ch <;> rfl

/-- The delivered coefficients of the narrow channel. -/
theorem delivered_coefs (para : TempPara ℝ) (voltage : ℤ) :
    singleCoefs para delivered voltage .nb =
      (-753280579290912 * 10 ^ (-19 : ℤ), 729182522345416 * 10 ^ (-18 : ℤ)) := by
  rw [single_coefs_first (delivered_segments .nb)]
  simp [AlgoPara.first, delivered, Coef.value]

/-- Half a volt is shown as the temperature of a body that would give one. -/
theorem body_read_half :
    getSingleTemp log halved delivered 500000 .nb =
        some (1 / (729182522345416 * 10 ^ (-18 : ℤ)) - 273.15) ∧
      getAttenuationRate exp (singleCoefs halved delivered 500000 .nb) 500000
        (1 / (729182522345416 * 10 ^ (-18 : ℤ)) - 273.15) = 1 / 2 := by
  have read := @body_read halved delivered 500000 .nb
    (by rw [halved_passed]; norm_num) (by rw [delivered_coefs]; norm_num)
    (1 / (729182522345416 * 10 ^ (-18 : ℤ)) - 273.15)
  have shown := read.1.mpr (by
    rw [halved_passed, delivered_coefs, sub_add_cancel, radiance, one_div_one_div]
    norm_num)
  refine ⟨shown, (read.2 shown).trans ?_⟩
  rw [halved_passed]
  norm_num

/-- Without the compensation, and at the temperature that it refers to, the voltages stay. -/
theorem internal_temp_calibrate_plain {internalTemp : ℝ}
    (plain : para.ambientCompCtl ≠ 1 ∨ internalTemp = 45) (voltFilter : Spec → ℤ) :
    internalTempCalibrate para internalTemp voltFilter = voltFilter := by
  funext spec
  rw [internalTempCalibrate]
  rcases plain with off | reference
  · rw [if_neg off]
  · split
    · subst reference
      have whole : ((voltFilter spec : ℝ) / 1000000 -
          coefK ((voltFilter spec : ℝ) / 1000000) spec * (45 - 45)) * 1000000 =
          (voltFilter spec : ℝ) := by
        ring
      rw [internalTempPowerCompensate]
      simp only [whole, cut_intCast]
    · rfl

/-- A common factor of both voltages does not change their ratio. -/
theorem ratio_value_scaled {volts scaled : Spec → ℤ} {factor : ℝ} (positive : 0 < factor)
    (scales : ∀ ch, (scaled ch : ℝ) = factor * volts ch) :
    ratioValue para algo scaled = ratioValue para algo volts := by
  have quotient : (scaled .wb : ℝ) / para.passed .wb / (scaled .nb / para.passed .nb) =
      volts .wb / para.passed .wb / (volts .nb / para.passed .nb) := by
    rw [scales, scales, mul_div_assoc factor (volts .wb : ℝ), mul_div_assoc factor (volts .nb : ℝ),
      mul_div_mul_left _ _ positive.ne']
  rw [ratioValue, ratioValue, quotient]

/-- A factor of the voltage is a term of the reciprocal temperature that a channel shows. -/
theorem single_temp_scaled {volt scaled : ℤ} {ch : Spec} (powered : 0 < volt)
    (passes : 0 < para.passed ch) {factor : ℝ} (positive : 0 < factor)
    (scales : (scaled : ℝ) = factor * volt)
    (segment : singleCoefs para algo scaled ch = singleCoefs para algo volt ch) :
    ∃ temp other, getSingleTemp log para algo volt ch = some temp ∧
      getSingleTemp log para algo scaled ch = some other ∧
      1 / (other + 273.15) =
        1 / (temp + 273.15) + (singleCoefs para algo volt ch).1 * log factor := by
  have poweredAfter : 0 < scaled := by
    have volts : (0 : ℝ) < volt := by exact_mod_cast powered
    have product : (0 : ℝ) < scaled := scales ▸ mul_pos positive volts
    exact_mod_cast product
  refine ⟨_, _, single_temp_some powered passes, single_temp_some poweredAfter passes, ?_⟩
  have compensated := compes_volt_pos powered passes
  have weakened : compesVolt para scaled ch = factor * compesVolt para volt ch := by
    rw [compesVolt, compesVolt, scales, mul_div_assoc, mul_div_assoc]
  rw [sub_add_cancel, sub_add_cancel, segment, weakened, temperature, temperature,
    one_div_one_div, one_div_one_div, reciprocal_mul positive compensated, add_comm]

/-- When both filtered voltages change by a common factor, as behind a dirty window, there is
enough energy in both cycles and each channel keeps its segment, the two temperatures of the ratio
stay. The attenuation is what is missing of the energy of a black body, and its share of that
energy changes by the factor. The reciprocal temperature of each channel moves by its coefficient
times the logarithm of the factor, in front of the two-point calibration. -/
theorem dimming_seen {internalTemp : ℝ} (plain : para.ambientCompCtl ≠ 1 ∨ internalTemp = 45)
    {data dimmed : Spec → SensSpec} (energy : ¬para.Low data) (energyAfter : ¬para.Low dimmed)
    (powered : ∀ ch, 0 < (data ch).voltFilter) (passes : ∀ ch, 0 < para.passed ch)
    {factor : ℝ} (positive : 0 < factor)
    (scales : ∀ ch, ((dimmed ch).voltFilter : ℝ) = factor * (data ch).voltFilter)
    (segments : ∀ ch, singleCoefs para algo (dimmed ch).voltFilter ch =
      singleCoefs para algo (data ch).voltFilter ch)
    {last between before after : Converted ℝ}
    (first : before = convert log exp para algo internalTemp data last)
    (second : after = convert log exp para algo internalTemp dimmed between) :
    after.ratioTemp = before.ratioTemp ∧ after.ratioTempNerve = before.ratioTempNerve ∧
      (∃ share, 0 < share ∧ before.measuredAttenuation = max 0 (1 - share) ∧
        after.measuredAttenuation = max 0 (1 - factor * share)) ∧
      ∀ ch, ∃ temp other,
        before.singleTemp ch = some (para.tempTwoPointCalibrate temp (tempChannel ch)) ∧
        after.singleTemp ch = some (para.tempTwoPointCalibrate other (tempChannel ch)) ∧
        1 / (other + 273.15) = 1 / (temp + 273.15) +
          (singleCoefs para algo (data ch).voltFilter ch).1 * log factor := by
  have ratio : getRatioTemp para algo (fun ch => (dimmed ch).voltFilter) =
      getRatioTemp para algo (fun ch => (data ch).voltFilter) := by
    rw [getRatioTemp, ratio_value_scaled positive scales]
    rfl
  have volt : (0 : ℝ) < (data .nb).voltFilter := by exact_mod_cast powered .nb
  have poweredAfter : 0 < (dimmed .nb).voltFilter := by
    have product : (0 : ℝ) < (dimmed .nb).voltFilter := scales .nb ▸ mul_pos positive volt
    exact_mod_cast product
  subst first second
  simp only [convert, if_neg energy, if_neg energyAfter, internal_temp_calibrate_plain plain, ratio,
    segments]
  refine ⟨trivial, trivial, ?_, fun ch => ?_⟩
  · refine ⟨_, ?_, attenuation_rate_missing _ (powered .nb) _, ?_⟩
    · exact div_pos (div_pos volt (by norm_num)) (radiance_pos _)
    · rw [attenuation_rate_missing _ poweredAfter, scales, mul_div_assoc, mul_div_assoc]
  · obtain ⟨temp, other, shown, shownAfter, moved⟩ :=
      single_temp_scaled (powered ch) (passes ch) positive (scales ch) (segments ch)
    exact ⟨temp, other, by rw [shown, Option.map_some], by rw [shownAfter, Option.map_some], moved⟩

/-- Nothing was converted before. -/
def unconverted {K : Type} [Field K] : Converted K := ⟨fun _ => none, 0, 0, 0⟩

/-- Half a volt, at the temperature that a volt would have, becomes a quarter. -/
theorem dimming_seen_half :
    (convert log exp halved delivered 45 (fun _ => ⟨250000, 250000⟩) unconverted).ratioTemp =
        (convert log exp halved delivered 45 (fun _ => ⟨500000, 500000⟩) unconverted).ratioTemp ∧
      (convert log exp halved delivered 45 (fun _ => ⟨250000, 250000⟩)
        unconverted).measuredAttenuation = 3 / 4 := by
  have energy : ¬(halved : TempPara ℝ).Low fun _ => ⟨500000, 500000⟩ := by decide
  have half : (convert log exp halved delivered 45 (fun _ => ⟨500000, 500000⟩)
      unconverted).measuredAttenuation = 1 / 2 := by
    have corrected : (halved : TempPara ℝ).tempTwoPointCalibrate
        (getRatioTemp halved delivered fun _ => 500000).1 .ratio =
          1 / (729182522345416 * 10 ^ (-18 : ℤ)) - 273.15 := by
      simp [TempPara.tempTwoPointCalibrate, getRatioTemp, getMultiCoefficient, multiSum,
        delivered, halved]
    simp only [convert, if_neg energy, internal_temp_calibrate_plain (.inr rfl), corrected]
    rw [attenuation_rate_missing _ (by decide), delivered_coefs, sub_add_cancel, radiance,
      one_div_one_div]
    norm_num
  obtain ⟨ratio, -, ⟨share, -, missing, more⟩, -⟩ := @dimming_seen halved delivered 45 (.inr rfl)
    (fun _ => ⟨500000, 500000⟩) (fun _ => ⟨250000, 250000⟩) energy (by decide)
    (fun _ => by decide) (fun ch => by rw [halved_passed]; norm_num) (1 / 2) (by norm_num)
    (fun _ => by norm_num) (fun ch => by simp only [single_coefs_first (delivered_segments ch)])
    unconverted unconverted _ _ rfl rfl
  refine ⟨ratio, more.trans ?_⟩
  rw [half] at missing
  have part : 1 - share = 1 / 2 := by
    rcases max_choice 0 (1 - share) with nothing | missed
    · rw [nothing] at missing
      norm_num at missing
    · exact (missing.trans missed).symm
  have value : share = 1 / 2 := by linarith
  rw [value]
  norm_num

end Pyrometer.TemperatureConversion
