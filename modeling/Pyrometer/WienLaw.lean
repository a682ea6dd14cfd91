import Mathlib.Analysis.SpecialFunctions.Log.Basic
import Mathlib.Tactic.FieldSimp
import Mathlib.Tactic.Linarith
import Mathlib.Tactic.Positivity
import Mathlib.Tactic.Ring

/-!
# Reciprocal temperatures from the logarithm of a signal

By Wien's approximation the reciprocal of an absolute temperature is a linear function of the
logarithm of the signal of a narrow band. The law of a sensor is given by the two coefficients of
that function. For hotter bodies to give larger signals the first of them is negative.
-/

namespace Pyrometer.WienLaw

open Real

/-- The reciprocal temperature of a signal. -/
noncomputable def reciprocal (slope intercept signal : ℝ) : ℝ := slope * log signal + intercept

/-- The temperature of a signal. -/
noncomputable def temperature (slope intercept signal : ℝ) : ℝ :=
  1 / reciprocal slope intercept signal

/-- The signal of a body with a temperature. -/
noncomputable def radiance (slope intercept temp : ℝ) : ℝ := exp ((1 / temp - intercept) / slope)

variable {slope intercept : ℝ}

/-- A body has a signal. -/
theorem radiance_pos (temp : ℝ) : 0 < radiance slope intercept temp := exp_pos _

/-- The temperature of the signal of a body is that of the body. -/
theorem temperature_radiance (steep : slope ≠ 0) (temp : ℝ) :
    temperature slope intercept (radiance slope intercept temp) = temp := by
  rw [temperature, reciprocal, radiance, log_exp, mul_div_cancel₀ _ steep, sub_add_cancel,
    one_div_one_div]

/-- The signal of a body that has the temperature of a signal is that signal. -/
theorem radiance_temperature (steep : slope ≠ 0) {signal : ℝ} (positive : 0 < signal) :
    radiance slope intercept (temperature slope intercept signal) = signal := by
  rw [radiance, temperature, one_div_one_div, reciprocal, add_sub_cancel_right,
    mul_div_cancel_left₀ _ steep, exp_log positive]

/-- A signal has the temperature of a body exactly if it is that of the body. -/
theorem temperature_eq_iff (steep : slope ≠ 0) {signal : ℝ} (positive : 0 < signal) (temp : ℝ) :
    temperature slope intercept signal = temp ↔ signal = radiance slope intercept temp := by
  constructor
  · intro same
    rw [← same, radiance_temperature steep positive]
  · intro same
    rw [same, temperature_radiance steep]

/-- A factor of the signal is a term of the reciprocal temperature. -/
theorem reciprocal_mul {factor signal : ℝ} (factorPos : 0 < factor) (positive : 0 < signal) :
    reciprocal slope intercept (factor * signal) =
      slope * log factor + reciprocal slope intercept signal := by
  rw [reciprocal, log_mul factorPos.ne' positive.ne', mul_add, add_assoc]
  rfl

/-- A signal that is divided by more is that of a colder body. -/
theorem reciprocal_div_lt (falls : slope < 0) {signal left right : ℝ} (positive : 0 < signal)
    (least : 0 < left) (less : left < right) :
    reciprocal slope intercept (signal / left) < reciprocal slope intercept (signal / right) := by
  have smaller : signal / right < signal / left := div_lt_div_of_pos_left positive least less
  have logs : log (signal / right) < log (signal / left) :=
    log_lt_log (div_pos positive (least.trans less)) smaller
  unfold reciprocal
  linarith [mul_lt_mul_of_neg_left logs falls]

/-- Between two divisors the reciprocal temperature grows no more than their distance allows. -/
theorem reciprocal_div_sub (falls : slope ≤ 0) {signal least left right : ℝ}
    (positive : 0 < signal) (leastPos : 0 < least) (above : least ≤ left) (ordered : left ≤ right) :
    reciprocal slope intercept (signal / right) - reciprocal slope intercept (signal / left) ≤
      -slope / least * (right - left) := by
  have leftPos : 0 < left := leastPos.trans_le above
  have rightPos : 0 < right := leftPos.trans_le ordered
  have apart : reciprocal slope intercept (signal / right) -
      reciprocal slope intercept (signal / left) = -slope * log (right / left) := by
    unfold reciprocal
    rw [log_div positive.ne' rightPos.ne', log_div positive.ne' leftPos.ne',
      log_div rightPos.ne' leftPos.ne']
    ring
  have relative : log (right / left) ≤ (right - left) / left := by
    have bound := log_le_sub_one_of_pos (div_pos rightPos leftPos)
    have same : right / left - 1 = (right - left) / left := by
      rw [sub_div, div_self leftPos.ne']
    rwa [same] at bound
  have scaled : (right - left) / left ≤ (right - left) / least :=
    div_le_div_of_nonneg_left (sub_nonneg.mpr ordered) leastPos above
  calc reciprocal slope intercept (signal / right) - reciprocal slope intercept (signal / left)
      = -slope * log (right / left) := apart
    _ ≤ -slope * ((right - left) / least) :=
        mul_le_mul_of_nonneg_left (relative.trans scaled) (neg_nonneg.mpr falls)
    _ = -slope / least * (right - left) := by ring

/-- Between two divisors whose temperatures are bounded the temperature falls no more than their
distance allows. -/
theorem temperature_div_sub (falls : slope ≤ 0) {signal least floor left right : ℝ}
    (positive : 0 < signal) (leastPos : 0 < least) (above : least ≤ left) (ordered : left ≤ right)
    (bounded : 0 < floor) (low : floor ≤ reciprocal slope intercept (signal / left))
    (high : floor ≤ reciprocal slope intercept (signal / right)) :
    temperature slope intercept (signal / left) - temperature slope intercept (signal / right) ≤
      -slope / (least * floor ^ 2) * (right - left) := by
  have distance := @reciprocal_div_sub slope intercept falls signal least left right positive
    leastPos above ordered
  have leftPos := bounded.trans_le low
  have rightPos := bounded.trans_le high
  have allowed : 0 ≤ -slope / least * (right - left) :=
    mul_nonneg (div_nonneg (neg_nonneg.mpr falls) leastPos.le) (sub_nonneg.mpr ordered)
  have product : floor ^ 2 ≤ reciprocal slope intercept (signal / left) *
      reciprocal slope intercept (signal / right) := by
    rw [sq]
    exact mul_le_mul low high bounded.le leftPos.le
  calc temperature slope intercept (signal / left) - temperature slope intercept (signal / right)
      = (reciprocal slope intercept (signal / right) -
          reciprocal slope intercept (signal / left)) /
          (reciprocal slope intercept (signal / left) *
            reciprocal slope intercept (signal / right)) := by
        unfold temperature
        rw [one_div, one_div, inv_sub_inv leftPos.ne' rightPos.ne']
    _ ≤ -slope / least * (right - left) / (reciprocal slope intercept (signal / left) *
          reciprocal slope intercept (signal / right)) :=
        div_le_div_of_nonneg_right distance (mul_pos leftPos rightPos).le
    _ ≤ -slope / least * (right - left) / floor ^ 2 :=
        div_le_div_of_nonneg_left allowed (pow_pos bounded 2) product
    _ = -slope / (least * floor ^ 2) * (right - left) := by
        field_simp

end Pyrometer.WienLaw
