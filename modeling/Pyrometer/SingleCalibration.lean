import Pyrometer.OnePointCalibration
import Pyrometer.TemperatureConversion

/-!
# One-point calibration of a channel

The search of `calibrate_temperature` over the conversion that a channel really has: the
temperature of a body by the logarithm of its voltage, which falls with the transmissivity. The
search ends at a transmissivity with which the wanted temperature is published whenever one of its
range explains the voltage, unless a reading of the range is too hot for the number of trials.

The coefficients are those of the first segment; the numbers are exact.
-/

namespace Pyrometer.SingleCalibration

open Real VoltageFilter WienLaw TemperatureConversion OnePointCalibration

section

variable {K : Type} [Field K]

/-- The parameters with another transmissivity of a channel. -/
def withTrans (para : TempPara K) (ch : Spec) (trans : K) : TempPara K :=
  { para with trans := Function.update para.trans ch trans }

/-- The voltage of a channel in volts, without what weakens it but for the transmissivity. -/
def signal (para : TempPara K) (voltage : ℤ) (ch : Spec) : K :=
  compesVolt (withTrans para ch 1) voltage ch

/-- The conversions of the device, by what `calibrate_temperature` changes. -/
def conversion [LinearOrder K] (log : K → K) (para : TempPara K) (algo : AlgoPara K) :
    Conversion K where
  getSingleTemp := fun ch voltage trans =>
    (TemperatureConversion.getSingleTemp log (withTrans para ch trans) algo voltage ch).getD 0
  getRatioTemp := fun volts slope =>
    (TemperatureConversion.getRatioTemp { para with slope := slope } algo volts).1

end

/-- A channel with one segment that is lit, whose readings fall and stay below a temperature for
all transmissivities of the search. -/
structure Sane (para : TempPara ℝ) (algo : AlgoPara ℝ) (voltage : ℤ) (ch : Spec)
    (hottest : ℝ) : Prop where
  segment : (algo.logPara ch 0).threshold = 0
  falls : (algo.first ch).1 < 0
  lit : 0 < voltage
  passes : 0 < para.emissivity * para.transInterior ch
  hot : 0 < hottest
  bounded : 1 / hottest ≤
    reciprocal (algo.first ch).1 (algo.first ch).2 (signal para voltage ch / (1 / 100))
  slow : -(algo.first ch).1 * 100 * hottest ^ 2 < 10 ^ 12

variable {para : TempPara ℝ} {algo : AlgoPara ℝ} {voltage : ℤ} {ch : Spec} {hottest : ℝ}

/-- What is left of the energy with another transmissivity. -/
theorem with_trans_passed (para : TempPara ℝ) (ch : Spec) (trans : ℝ) :
    (withTrans para ch trans).passed ch = para.emissivity * para.transInterior ch * trans := by
  rw [TempPara.passed, withTrans]
  simp only [Function.update_self]
  ring

/-- The signal is the voltage over what the rest of the channel leaves of it. -/
theorem signal_value (para : TempPara ℝ) (voltage : ℤ) (ch : Spec) :
    signal para voltage ch =
      (voltage : ℝ) / 1000000 / (para.emissivity * para.transInterior ch) := by
  rw [signal, compesVolt, with_trans_passed, mul_one]

/-- A lit channel has a signal. -/
theorem Sane.signal_pos (sane : Sane para algo voltage ch hottest) :
    0 < signal para voltage ch := by
  have volts : (0 : ℝ) < voltage := by exact_mod_cast sane.lit
  have passes := sane.passes
  rw [signal_value]
  positivity

/-- The reading of a channel by its transmissivity. -/
theorem Sane.reading (sane : Sane para algo voltage ch hottest) {trans : ℝ} (transPos : 0 < trans) :
    (conversion log para algo).getSingleTemp ch voltage trans =
      temperature (algo.first ch).1 (algo.first ch).2 (signal para voltage ch / trans) -
        273.15 := by
  have passes : 0 < (withTrans para ch trans).passed ch := by
    rw [with_trans_passed]
    exact mul_pos sane.passes transPos
  have divided : compesVolt (withTrans para ch trans) voltage ch =
      signal para voltage ch / trans := by
    rw [compesVolt, with_trans_passed, signal_value, div_div _ _ trans]
  change (TemperatureConversion.getSingleTemp log (withTrans para ch trans) algo voltage ch).getD 0
    = _
  rw [single_temp_some sane.lit passes, single_coefs_first sane.segment, divided]
  rfl

/-- No reading of the range of the search is hotter than the bound. -/
theorem Sane.bounded_from (sane : Sane para algo voltage ch hottest) {trans : ℝ}
    (least : 1 / 100 ≤ trans) :
    1 / hottest ≤
      reciprocal (algo.first ch).1 (algo.first ch).2 (signal para voltage ch / trans) := by
  rcases least.eq_or_lt with same | more
  · rw [← same]
    exact sane.bounded
  · exact sane.bounded.trans
      (reciprocal_div_lt sane.falls sane.signal_pos (by norm_num) more).le

/-- The readings fall with the transmissivity, and no faster than the search can follow. -/
theorem Sane.regular (sane : Sane para algo voltage ch hottest) {mode : Mode}
    (channel : mode.channel = some ch) :
    Regular mode ((conversion log para algo).getSingleTemp ch voltage) := by
  have floor : 0 < 1 / hottest := one_div_pos.mpr sane.hot
  have single : mode ≠ .ratio := by
    rintro rfl
    cases channel
  have falling : ∀ left right : ℝ, 1 / 100 ≤ left → left < right →
      (conversion log para algo).getSingleTemp ch voltage right <
        (conversion log para algo).getSingleTemp ch voltage left := by
    intro left right least less
    have leftPos : 0 < left := lt_of_lt_of_le (by norm_num) least
    rw [sane.reading leftPos, sane.reading (leftPos.trans less)]
    refine sub_lt_sub_right ?_ _
    exact one_div_lt_one_div_of_lt (floor.trans_le (sane.bounded_from least))
      (reciprocal_div_lt sane.falls sane.signal_pos leftPos less)
  refine ⟨fun _ left right least less _ => falling left right least less,
    fun ratio => absurd ratio single,
    -(algo.first ch).1 / (1 / 100 * (1 / hottest) ^ 2), ?_, ?_, ?_⟩
  · have nonneg : 0 ≤ -(algo.first ch).1 := (neg_pos.mpr sane.falls).le
    positivity
  · have bound : -(algo.first ch).1 / (1 / 100 * (1 / hottest) ^ 2) =
        -(algo.first ch).1 * 100 * hottest ^ 2 := by
      have nonzero := sane.hot.ne'
      field_simp
    rw [bound]
    exact sane.slow
  · intro left right least ordered _
    have leftPos : 0 < left := lt_of_lt_of_le (by norm_num) least
    have order : (conversion log para algo).getSingleTemp ch voltage right ≤
        (conversion log para algo).getSingleTemp ch voltage left := by
      rcases ordered.eq_or_lt with same | less
      · rw [same]
      · exact (falling left right least less).le
    rw [abs_of_nonneg (sub_nonneg.mpr order), sane.reading leftPos,
      sane.reading (leftPos.trans_le ordered), sub_sub_sub_cancel_right]
    exact temperature_div_sub sane.falls.le sane.signal_pos (by norm_num) least ordered floor
      (sane.bounded_from least) (sane.bounded_from (least.trans ordered))

/-- The reading is a temperature exactly with the transmissivity that explains the voltage. -/
theorem Sane.reading_eq_iff (sane : Sane para algo voltage ch hottest) {trans : ℝ}
    (transPos : 0 < trans) (temp : ℝ) :
    (conversion log para algo).getSingleTemp ch voltage trans = temp ↔
      (voltage : ℝ) / 1000000 = para.emissivity * para.transInterior ch * trans *
        radiance (algo.first ch).1 (algo.first ch).2 (temp + 273.15) := by
  have positive : 0 < signal para voltage ch / trans := div_pos sane.signal_pos transPos
  rw [sane.reading transPos, sub_eq_iff_eq_add, temperature_eq_iff sane.falls.ne positive,
    signal_value, div_div, div_eq_iff (mul_pos sane.passes transPos).ne', mul_comm]

/-- The calibration of a channel by its own conversion. In a setup that fits, without a
compensation of the voltage in use, a transmissivity of the range that explains the voltage by a
body of the wanted temperature is enough: the search succeeds, its bounds stay in order, and the
wanted temperature is published but for a tenth. -/
theorem single_calibrated (para : TempPara ℝ) (algo : AlgoPara ℝ) (setup : Setup ℝ)
    (accepted : Accepted setup) (fits : Fits setup) (same : setup.SameVolt) (ch : Spec)
    (channel : setup.mode.channel = some ch) (hottest : ℝ)
    (sane : Sane para algo (setup.voltFilter ch) ch hottest) (trans : ℝ) (least : 1 / 100 ≤ trans)
    (most : trans ≤ 10)
    (explains : (setup.voltFilter ch : ℝ) / 1000000 =
      para.emissivity * para.transInterior ch * trans *
        radiance (algo.first ch).1 (algo.first ch).2 (setup.tempCalibration + 273.15)) :
    Reaches (conversion log para algo) setup := by
  have searched : setup.searched (conversion log para algo) =
      (conversion log para algo).getSingleTemp ch (setup.voltFilter ch) := by
    rw [Setup.searched, channel]
  have regular : Regular setup.mode (setup.searched (conversion log para algo)) := by
    rw [searched]
    exact sane.regular channel
  have attained : Attained (setup.searched (conversion log para algo)) setup.tempCalibration := by
    have transPos : 0 < trans := lt_of_lt_of_le (by norm_num) least
    refine ⟨trans, least, most, ?_⟩
    rw [searched]
    exact (sane.reading_eq_iff transPos _).mpr explains
  exact fits.calibrates accepted (conversion log para algo) regular
    (by rw [passed_same same]; exact regular) attained

/-- Half a volt on the narrow channel, of a body that would give one, with twice the transmissivity
in use. -/
def doubled {K : Type} [Field K] : Setup K where
  mode := .narrow
  voltRaw := fun _ => 500000
  voltFilter := fun _ => 500000
  voltCompensate := fun _ => 500000
  validVol := 1000
  gain := 1
  offset := 0
  devTempMin := ((800 : ℚ) : K)
  devTempMax := ((2800 : ℚ) : K)
  value := ((2 : ℚ) : K)
  tempCalibration := ((1 / (729182522345416 * 10 ^ (-18 : ℤ)) - 273.15 : ℚ) : K)

/-- The delivered coefficients of the narrow channel. -/
theorem first_delivered : (delivered : AlgoPara ℝ).first .nb =
    (-753280579290912 * 10 ^ (-19 : ℤ), 729182522345416 * 10 ^ (-18 : ℤ)) :=
  (single_coefs_first (delivered_segments .nb) 0).symm.trans (delivered_coefs halved 0)

/-- With the delivered coefficients no reading of this signal is hotter than ten thousand. -/
theorem sane_doubled : Sane (halved : TempPara ℝ) delivered 500000 .nb 10000 := by
  have eight : log 100 ≤ 8 := by
    have two : (2 : ℝ) ≤ exp 1 := by
      have step := add_one_le_exp (1 : ℝ)
      linarith
    have power : (100 : ℝ) ≤ exp 8 := by
      have same : exp 8 = exp 1 ^ 8 := by
        rw [← exp_nat_mul]
        norm_num
      rw [same]
      calc (100 : ℝ) ≤ 2 ^ 8 := by norm_num
        _ ≤ exp 1 ^ 8 := pow_le_pow_left₀ (by norm_num) two 8
    exact (log_le_iff_le_exp (by norm_num)).mpr power
  have volt : signal (halved : TempPara ℝ) 500000 .nb / (1 / 100) = 100 := by
    rw [signal_value]
    norm_num [halved]
  constructor
  case segment => exact delivered_segments .nb
  case falls => rw [first_delivered]; norm_num
  case lit => decide
  case passes => norm_num [halved]
  case hot => norm_num
  case bounded =>
    rw [volt, reciprocal, first_delivered]
    norm_num
    linarith
  case slow => rw [first_delivered]; norm_num

/-- The calibration finds the transmissivity of one. -/
theorem single_calibrated_doubled : Reaches (conversion log halved delivered) doubled := by
  have accepted : Accepted (doubled : Setup ℝ) := by
    constructor <;> norm_num [doubled]
  have fits : Fits (doubled : Setup ℝ) := by
    refine ⟨?_, ?_, ?_, ?_, ?_, ?_, ?_⟩
    · norm_num [doubled]
    · rintro channel isChannel
      norm_num [doubled]
    · simp [Setup.low, doubled, TemperatureStatus.reportedVolt]
    · exact fun _ _ _ => rfl
    · norm_num [doubled, tempTwoPointCalibrate]
    · norm_num [doubled, tempTwoPointCalibrate]
    · norm_num [doubled]
  refine single_calibrated halved delivered doubled accepted fits (fun _ _ => rfl) .nb rfl 10000
    sane_doubled 1 (by norm_num) (by norm_num) ?_
  rw [first_delivered, radiance]
  norm_num [doubled, halved]

end Pyrometer.SingleCalibration
