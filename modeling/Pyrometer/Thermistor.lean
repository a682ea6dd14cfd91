import Pyrometer.HeaterControl
import Pyrometer.WienLaw

/-!
# The thermistor and the heater

The temperature inside the device is that of a thermistor in a divider: its resistance follows
from the voltage, and the logarithm of the resistance gives the reciprocal temperature. A voltage
that no resistance gives is answered by 275 degrees below zero, which is colder than anything, and
the heater takes it for the temperature.

The numbers are exact, and `log` is a parameter. The voltage is the filtered one of the channel
that the heater follows; it is converted to 32 bits.
-/

namespace Pyrometer.Thermistor

open Runs WienLaw

/-- `NTC_REF_VOL`. -/
def ntcRefVol : ℕ := 2500000

/-- `NTC_REF_RES`. -/
def ntcRefRes : ℚ := 4700

/-- `NTC_STD_TEMP`. -/
def ntcStdTemp : ℚ := 25

/-- `NTC_STD_RES`. -/
def ntcStdRes : ℚ := 100000

/-- `NTC_BX_VAL`. -/
def ntcBxVal : ℚ := 4100

/-- `A_ZERO`. -/
def aZero : ℚ := 273.15

/-- `get_ntc_res`. -/
def getNtcRes (voltUv : ℕ) : ℚ :=
  if ntcRefVol ≤ voltUv ∨ voltUv = 0 then -1 else voltUv * ntcRefRes / (ntcRefVol - voltUv)

/-- `get_ntc_temp`. -/
def getNtcTemp {K : Type} [Field K] (log : K → K) (resValOhm : ℚ) : K :=
  if resValOhm ≤ 0 then ((-275 : ℚ) : K)
  else
    let logResRatio := log ((resValOhm / ntcStdRes : ℚ) : K)
    let reciprocalTemp := logResRatio / (ntcBxVal : K) + ((1 / (aZero + ntcStdTemp) : ℚ) : K)
    1 / reciprocalTemp - (aZero : K)

/-- A temperature of `get_internal_temp`, from a voltage that is taken for 32 bits. -/
def getInternalTemp {K : Type} [Field K] (log : K → K) (volt : ℤ) : K :=
  getNtcTemp log (getNtcRes (volt % 2 ^ 32).toNat)

/-- What one call of `heater_task` finds: the filtered voltage and the heater parameters. -/
structure Call where
  voltFilter : ℤ
  setTemp : ℚ
  kp : ℚ
  ki : ℚ
  kd : ℚ

/-- The temperature is computed, and the heater task runs. -/
def step (log : ℚ → ℚ) (heater : HeaterControl.Heater) (call : Call) : HeaterControl.Heater :=
  HeaterControl.step heater
    ⟨getInternalTemp log call.voltFilter, call.setTemp, call.kp, call.ki, call.kd⟩

/-- The divider gives the voltage of the thermistor. -/
def Divided (voltUv : ℕ) : Prop := 0 < voltUv ∧ voltUv < ntcRefVol

/-- The voltage is not one of the divider, as with a thermistor that is torn off, and the setpoint
is not as cold as what is shown then. -/
def Broken (call : Call) : Prop :=
  ¬Divided (call.voltFilter % 2 ^ 32).toNat ∧ -270 < call.setTemp

/-- A voltage of the divider has a resistance. -/
theorem res_divided {voltUv : ℕ} (divided : Divided voltUv) :
    getNtcRes voltUv = voltUv * ntcRefRes / (ntcRefVol - voltUv) ∧ 0 < getNtcRes voltUv := by
  have value : getNtcRes voltUv = voltUv * ntcRefRes / (ntcRefVol - voltUv) :=
    if_neg (not_or.mpr ⟨not_le.mpr divided.2, divided.1.ne'⟩)
  have voltPos : (0 : ℚ) < voltUv := by exact_mod_cast divided.1
  have rest : (0 : ℚ) < ntcRefVol - voltUv := sub_pos.mpr (by exact_mod_cast divided.2)
  refine ⟨value, ?_⟩
  rw [value]
  exact div_pos (mul_pos voltPos (by norm_num [ntcRefRes])) rest

/-- A larger voltage of the divider is that of a larger resistance. -/
theorem res_grows {low high : ℕ} (first : Divided low) (second : Divided high)
    (less : low < high) : getNtcRes low < getNtcRes high := by
  have lowPos : (0 : ℚ) < low := by exact_mod_cast first.1
  have order : (low : ℚ) < high := by exact_mod_cast less
  have rest : (0 : ℚ) < ntcRefVol - high := sub_pos.mpr (by exact_mod_cast second.2)
  have value : (0 : ℚ) < ntcRefRes := by norm_num [ntcRefRes]
  rw [(res_divided first).1, (res_divided second).1]
  calc (low : ℚ) * ntcRefRes / (ntcRefVol - low)
      ≤ low * ntcRefRes / (ntcRefVol - high) :=
        div_le_div_of_nonneg_left (mul_pos lowPos value).le rest (by linarith)
    _ < high * ntcRefRes / (ntcRefVol - high) :=
        div_lt_div_of_pos_right (mul_lt_mul_of_pos_right order value) rest

/-- The reading of a voltage of the divider, by the law of the thermistor. -/
theorem temp_divided {voltUv : ℕ} (divided : Divided voltUv) :
    getNtcTemp Real.log (getNtcRes voltUv) =
      temperature (1 / (ntcBxVal : ℝ)) ((1 / (aZero + ntcStdTemp) : ℚ) : ℝ)
        ((getNtcRes voltUv / ntcStdRes : ℚ) : ℝ) - (aZero : ℝ) := by
  rw [getNtcTemp, if_neg (res_divided divided).2.not_ge, temperature, reciprocal,
    one_div_mul_eq_div]

/-- A voltage outside of the divider is answered by 275 degrees below zero. -/
theorem temp_outside {K : Type} [Field K] (log : K → K) {voltUv : ℕ}
    (outside : ¬Divided voltUv) : getNtcTemp log (getNtcRes voltUv) = ((-275 : ℚ) : K) := by
  have absent : getNtcRes voltUv = -1 := if_pos (by unfold Divided at outside; omega)
  rw [absent, getNtcTemp, if_pos (by norm_num)]

/-- A voltage of the divider gives the number it is divided by. -/
theorem ratio_pos {voltUv : ℕ} (divided : Divided voltUv) :
    (0 : ℝ) < ((getNtcRes voltUv / ntcStdRes : ℚ) : ℝ) := by
  exact_mod_cast div_pos (res_divided divided).2 (by norm_num [ntcStdRes])

/-- A temperature is shown exactly for the resistance that the thermistor has at it. Above the
absolute zero the readings fall with the voltage, so that each stands for one voltage; what lies
outside the divider reads below the absolute zero. -/
theorem thermistor_read :
    (∀ voltUv, Divided voltUv → ∀ temp : ℝ, getNtcTemp Real.log (getNtcRes voltUv) = temp ↔
        ((getNtcRes voltUv / ntcStdRes : ℚ) : ℝ) =
          radiance (1 / (ntcBxVal : ℝ)) ((1 / (aZero + ntcStdTemp) : ℚ) : ℝ)
            (temp + (aZero : ℝ))) ∧
      (∀ low high, Divided low → Divided high → low < high →
        -(aZero : ℝ) < getNtcTemp Real.log (getNtcRes low) →
          -(aZero : ℝ) < getNtcTemp Real.log (getNtcRes high) ∧
            getNtcTemp Real.log (getNtcRes high) < getNtcTemp Real.log (getNtcRes low)) ∧
      ∀ voltUv, ¬Divided voltUv → getNtcTemp Real.log (getNtcRes voltUv) < -(aZero : ℝ) := by
  have steep : (0 : ℝ) < 1 / (ntcBxVal : ℝ) := by norm_num [ntcBxVal]
  refine ⟨?_, ?_, ?_⟩
  · intro voltUv divided temp
    rw [temp_divided divided, sub_eq_iff_eq_add, temperature_eq_iff steep.ne' (ratio_pos divided)]
  · intro low high first second less warmer
    rw [temp_divided first, neg_lt_sub_iff_lt_add, lt_add_iff_pos_right] at warmer
    have positive : 0 < reciprocal (1 / (ntcBxVal : ℝ)) ((1 / (aZero + ntcStdTemp) : ℚ) : ℝ)
        ((getNtcRes low / ntcStdRes : ℚ) : ℝ) := one_div_pos.mp warmer
    have order : ((getNtcRes low / ntcStdRes : ℚ) : ℝ) <
        ((getNtcRes high / ntcStdRes : ℚ) : ℝ) := by
      exact_mod_cast div_lt_div_of_pos_right (res_grows first second less)
        (by norm_num [ntcStdRes])
    have grows : reciprocal (1 / (ntcBxVal : ℝ)) ((1 / (aZero + ntcStdTemp) : ℚ) : ℝ)
        ((getNtcRes low / ntcStdRes : ℚ) : ℝ) <
          reciprocal (1 / (ntcBxVal : ℝ)) ((1 / (aZero + ntcStdTemp) : ℚ) : ℝ)
            ((getNtcRes high / ntcStdRes : ℚ) : ℝ) :=
      add_lt_add_left (mul_lt_mul_of_pos_left (Real.log_lt_log (ratio_pos first) order) steep) _
    rw [temp_divided first, temp_divided second]
    constructor
    · rw [neg_lt_sub_iff_lt_add, lt_add_iff_pos_right]
      exact one_div_pos.mpr (positive.trans grows)
    · exact sub_lt_sub_right (one_div_lt_one_div_of_lt positive grows) _
  · intro voltUv outside
    rw [temp_outside Real.log outside]
    norm_num [aZero]

/-- Far below the setpoint a call stores 95 percent and leaves the integral. -/
theorem step_far (heater : HeaterControl.Heater) {reading : HeaterControl.Reading}
    (far : reading.internalTemp < reading.setTemp - 5) :
    (HeaterControl.step heater reading).pulse = 4750 ∧
      (HeaterControl.step heater reading).data.integral = heater.data.integral := by
  have notNear : ¬(reading.setTemp - 5 < reading.internalTemp ∧ reading.internalTemp < 100) :=
    fun near => absurd near.1 far.le.not_gt
  constructor
  · rw [HeaterControl.step_pulse, HeaterControl.task_far heater far, Option.getD_some]
    norm_num [HeaterControl.ptcPwmSet]
    rfl
  · simp only [HeaterControl.step, HeaterControl.heaterTask, if_neg notNear, if_pos far]

/-- A broken call stores 95 percent and leaves the integral. -/
theorem step_broken (log : ℚ → ℚ) (heater : HeaterControl.Heater) {call : Call}
    (broken : Broken call) :
    (step log heater call).pulse = 4750 ∧
      (step log heater call).data.integral = heater.data.integral := by
  have cold : getInternalTemp log call.voltFilter = -275 := by
    rw [getInternalTemp, temp_outside log broken.1, Rat.cast_id]
  have far : getInternalTemp log call.voltFilter < call.setTemp - 5 := by
    rw [cold]
    linarith [broken.2]
  exact step_far heater far

/-- Behind any run, through every run of calls without a voltage of the divider the heater is
driven with 95 percent, for every setpoint and also when it is switched off, and the integral of
the controller stays what it was before. -/
theorem broken_sensor_heats (log : ℚ → ℚ) (heater : HeaterControl.Heater) (before calls : List Call)
    (last : Call) (broken : ∀ call ∈ calls ++ [last], Broken call) :
    (run (step log) heater (before ++ (calls ++ [last]))).pulse = 4750 ∧
      (run (step log) heater (before ++ (calls ++ [last]))).data.integral =
        (run (step log) heater before).data.integral := by
  have kept : ∀ (calls : List Call) (heater : HeaterControl.Heater),
      (∀ call ∈ calls, Broken call) →
        (run (step log) heater calls).data.integral = heater.data.integral := by
    intro calls
    induction calls with
    | nil => exact fun _ _ => rfl
    | cons call rest inductionHypothesis =>
      intro heater broken
      exact (inductionHypothesis (step log heater call) fun other member =>
        broken other (List.mem_cons_of_mem _ member)).trans
          (step_broken log heater (broken call List.mem_cons_self)).2
  have parts : run (step log) heater (before ++ (calls ++ [last])) =
      run (step log) (run (step log) heater before) (calls ++ [last]) := List.foldl_append
  rw [parts]
  constructor
  · rw [run_snoc]
    exact (step_broken log _ (broken last (by simp))).1
  · exact kept (calls ++ [last]) _ broken

/-- The thermistor is torn off while the heater is switched off. -/
theorem broken_sensor_heats_off :
    (run (step fun _ => 0) (HeaterControl.heaterInit none)
      ([] ++ ([] ++ [⟨3300000, 0, 1, 0, 0⟩]))).pulse = 4750 :=
  (broken_sensor_heats (fun _ => 0) (HeaterControl.heaterInit none) [] [] ⟨3300000, 0, 1, 0, 0⟩
    (by
      intro call member
      rw [List.nil_append, List.mem_singleton] at member
      subst member
      exact ⟨fun divided => absurd divided.2 (by decide), by norm_num⟩)).1

end Pyrometer.Thermistor
