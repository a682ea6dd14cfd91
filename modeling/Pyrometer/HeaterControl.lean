import Pyrometer.Runs
import Mathlib.Algebra.Order.Floor.Ring
import Mathlib.Data.Rat.Floor

/-!
# The heater of `heater.c`

`heater_task` compares the internal temperature with the setpoint and with 100 degrees.
Near the setpoint and above it a PID controller decides on the duty; far below it the
heater runs at 95 percent; a setpoint of 0 switches it off. The temperature, the
setpoint and the gains of one call are its input, and all numbers are exact.

The pulse register of the timer is what the duty is. Its period is 5000, so 5000 is a
duty of 100 percent. Storing a number into it drops the fraction; what is stored is
never negative. After a warm start the integral is the one that was saved.
-/

namespace Pyrometer.HeaterControl

open Runs

/-- `PWM_PERIOD`. -/
abbrev pwmPeriod : Nat := 5000

/-- `HEATER_DATA`, as far as the heater uses it. -/
structure HeaterData where
  setpoint : ℚ
  internalTemperature : ℚ
  error : ℚ
  integral : ℚ
  derivative : ℚ
  previousError : ℚ
  previousIntegral : ℚ
  output : ℚ
  setValue : ℚ

/-- What one call of `heater_task` reads: the temperature of the sensor and the heater
parameters. -/
structure Reading where
  internalTemp : ℚ
  setTemp : ℚ
  kp : ℚ
  ki : ℚ
  kd : ℚ

/-- The controller and the pulse register. -/
structure Heater where
  data : HeaterData
  pulse : Nat

/-- `heater_init`. On a warm start both integrals are the saved one. -/
def heaterInit (saved : Option ℚ) : Heater :=
  ⟨⟨0, 25, 0, saved.getD 0, 0, 0, saved.getD 0, 0, 0⟩, 0⟩

/-- `ambient_temp_pid_ctrl`. The integral of the call before comes back when the set
value is out of range. -/
def ambientTempPidCtrl (reading : Reading) (data : HeaterData) : HeaterData :=
  let error := data.setpoint - data.internalTemperature
  let integral := data.integral + error
  let derivative := error - data.previousError
  let output := reading.kp * error + reading.ki * integral + reading.kd * derivative
  let setValue := 50 + output
  let limited : ℚ × ℚ :=
    if 100 < setValue then (100, data.previousIntegral)
    else if setValue < 0 then (0, data.previousIntegral)
    else (setValue, integral)
  { data with
    error := error
    integral := limited.2
    derivative := derivative
    output := output
    previousError := error
    setValue := limited.1
    previousIntegral := limited.2 }

/-- `PTC_PWM_Set`: the value it stores into the pulse register. -/
def ptcPwmSet (value : ℚ) : Nat := ⌊(if 100 < value then 100 else value) * 50⌋.toNat

/-- `heater_task`: the controller behind a call, and what the call stores into the pulse
register, if it does. -/
def heaterTask (data : HeaterData) (reading : Reading) : HeaterData × Option Nat :=
  let current : HeaterData :=
    { data with internalTemperature := reading.internalTemp, setpoint := reading.setTemp }
  if reading.setTemp - 5 < reading.internalTemp ∧ reading.internalTemp < 100 then
    let controlled := ambientTempPidCtrl reading current
    (controlled, some (ptcPwmSet controlled.setValue))
  else if reading.internalTemp < reading.setTemp - 5 then (current, some (ptcPwmSet 95))
  else if reading.setTemp = 0 then (current, some (ptcPwmSet 0))
  else (current, none)

/-- One call. A register that is not stored to keeps its value. -/
def step (heater : Heater) (reading : Reading) : Heater :=
  let result := heaterTask heater.data reading
  ⟨result.1, result.2.getD heater.pulse⟩

/-- What a call should do: the duty is at most 100 percent, it is 0 with the setpoint at
0 or from 100 degrees on, and only exactly 5 degrees below the setpoint may it stay. -/
structure Safe (heater : Heater) (reading : Reading) : Prop where
  range : (step heater reading).pulse ≤ pwmPeriod
  off : reading.setTemp = 0 ∨ 100 ≤ reading.internalTemp → (step heater reading).pulse = 0
  rewritten : reading.internalTemp ≠ reading.setTemp - 5 →
    (heaterTask heater.data reading).2.isSome

/-- What the controller adds to 50 percent. -/
def pidOutput (data : HeaterData) (reading : Reading) : ℚ :=
  let error := reading.setTemp - reading.internalTemp
  reading.kp * error + reading.ki * (data.integral + error) +
    reading.kd * (error - data.previousError)

/-- Where the calls do what they should: below 100 degrees with the heater on; with the
heater off from 5 degrees below zero on, and between that and 100 degrees only if the
controller takes its offset back to less than one pulse; and exactly 5 degrees below a
setpoint of 105 or more if the duty is 0 already. -/
def Covered (heater : Heater) (reading : Reading) : Prop :=
  (reading.setTemp ≠ 0 ∧ reading.internalTemp < 100) ∨
    (reading.setTemp = 0 ∧ -5 ≤ reading.internalTemp ∧
      (-5 < reading.internalTemp → reading.internalTemp < 100 →
        50 + pidOutput heater.data reading < 1 / 50)) ∨
    (reading.internalTemp = reading.setTemp - 5 ∧ 100 ≤ reading.internalTemp ∧ heater.pulse = 0)

/-- The set value of the controller is its output over the offset, kept in its range. -/
theorem pid_setValue (data : HeaterData) (reading : Reading) :
    (ambientTempPidCtrl reading
      { data with
        internalTemperature := reading.internalTemp
        setpoint := reading.setTemp }).setValue =
      max 0 (min 100 (50 + pidOutput data reading)) := by
  have limited : ∀ (value kept integral : ℚ),
      (if 100 < value then (100, kept) else if value < 0 then (0, kept)
        else (value, integral) : ℚ × ℚ).1 = max 0 (min 100 value) := by
    intro value kept integral
    split
    case isTrue above => simp [min_eq_left above.le]
    case isFalse within =>
      rw [min_eq_right (not_lt.mp within)]
      split
      case isTrue under => simp [under.le]
      case isFalse positive => simp [not_lt.mp positive]
  exact limited _ _ _

/-- What is stored is never above the period. -/
theorem ptcPwmSet_range (value : ℚ) : ptcPwmSet value ≤ pwmPeriod := by
  unfold ptcPwmSet
  have limited : (if 100 < value then 100 else value) * 50 ≤ ((pwmPeriod : ℤ) : ℚ) := by
    split
    case isTrue above => norm_num
    case isFalse within =>
      have below := not_lt.mp within
      push_cast
      linarith
  have floored := Int.le_trans (Int.floor_le_floor limited) (Int.floor_intCast _).le
  exact Int.toNat_le.mpr floored

/-- Nothing is stored exactly for less than one pulse. -/
theorem ptcPwmSet_zero (value : ℚ) : ptcPwmSet value = 0 ↔ value < 1 / 50 := by
  unfold ptcPwmSet
  rw [Int.toNat_eq_zero, ← Int.lt_add_one_iff, zero_add, Int.floor_lt]
  split
  case isTrue above =>
    constructor
    · intro less
      norm_num at less
    · intro less
      linarith
  case isFalse within =>
    constructor
    · intro less
      push_cast at less
      linarith
    · intro less
      push_cast
      linarith

/-- The controller stores nothing exactly when it takes its offset back to less than
one pulse. -/
theorem pid_zero (data : HeaterData) (reading : Reading) :
    ptcPwmSet (max 0 (min 100 (50 + pidOutput data reading))) = 0 ↔
      50 + pidOutput data reading < 1 / 50 := by
  rw [ptcPwmSet_zero, max_lt_iff, min_lt_iff]
  norm_num

/-- A call stores the set value of the controller near the setpoint and above it. -/
theorem task_control (heater : Heater) {reading : Reading}
    (near : reading.setTemp - 5 < reading.internalTemp) (cool : reading.internalTemp < 100) :
    (heaterTask heater.data reading).2 =
      some (ptcPwmSet (max 0 (min 100 (50 + pidOutput heater.data reading)))) := by
  rw [← pid_setValue]
  simp only [heaterTask, near, cool, and_self, if_true]

/-- Far below the setpoint a call stores 95 percent. -/
theorem task_far (heater : Heater) {reading : Reading}
    (far : reading.internalTemp < reading.setTemp - 5) :
    (heaterTask heater.data reading).2 = some (ptcPwmSet 95) := by
  have notNear : ¬ (reading.setTemp - 5 < reading.internalTemp ∧ reading.internalTemp < 100) :=
    fun near => absurd near.1 far.le.not_gt
  simp only [heaterTask, notNear, if_false, far, if_true]

/-- In the gaps between the two a call stores 0 with the setpoint at 0, and else nothing. -/
theorem task_gap (heater : Heater) {reading : Reading}
    (notFar : reading.setTemp - 5 ≤ reading.internalTemp)
    (gap : reading.setTemp - 5 < reading.internalTemp → 100 ≤ reading.internalTemp) :
    (heaterTask heater.data reading).2 =
      if reading.setTemp = 0 then some (ptcPwmSet 0) else none := by
  have notNear : ¬ (reading.setTemp - 5 < reading.internalTemp ∧ reading.internalTemp < 100) :=
    fun near => absurd near.2 (gap near.1).not_gt
  simp only [heaterTask, notNear, notFar.not_gt, if_false]
  split <;> rfl

/-- A call that stores something leaves it in the register, and one that does not leaves
the register alone. -/
theorem step_pulse (heater : Heater) (reading : Reading) :
    (step heater reading).pulse = (heaterTask heater.data reading).2.getD heater.pulse := rfl

/-- Under the controller a call does what it should unless the heater is off and the
controller stores something all the same. -/
theorem safe_control {heater : Heater} {reading : Reading}
    (near : reading.setTemp - 5 < reading.internalTemp) (cool : reading.internalTemp < 100) :
    Safe heater reading ↔
      (reading.setTemp = 0 → 50 + pidOutput heater.data reading < 1 / 50) := by
  have stored := task_control heater near cool
  have pulse := step_pulse heater reading
  rw [stored, Option.getD_some] at pulse
  constructor
  · intro safe off
    have zero := safe.off (.inl off)
    rw [pulse] at zero
    exact (pid_zero heater.data reading).mp zero
  · intro little
    constructor
    · rw [pulse]
      exact ptcPwmSet_range _
    · rintro (off | hot)
      · rw [pulse]
        exact (pid_zero heater.data reading).mpr (little off)
      · exact absurd cool hot.not_gt
    · intro _
      rw [stored]
      rfl

/-- Far below the setpoint a call does what it should with the heater on and below 100
degrees only. -/
theorem safe_far {heater : Heater} {reading : Reading}
    (far : reading.internalTemp < reading.setTemp - 5) :
    Safe heater reading ↔ reading.setTemp ≠ 0 ∧ reading.internalTemp < 100 := by
  have stored := task_far heater far
  have pulse := step_pulse heater reading
  rw [stored, Option.getD_some] at pulse
  have positive : ptcPwmSet 95 ≠ 0 := by
    rw [Ne, ptcPwmSet_zero]
    norm_num
  constructor
  · intro safe
    have running : ¬ (reading.setTemp = 0 ∨ 100 ≤ reading.internalTemp) := by
      intro off
      have zero := safe.off off
      rw [pulse] at zero
      exact positive zero
    exact ⟨fun off => running (.inl off), not_le.mp fun hot => running (.inr hot)⟩
  · intro running
    constructor
    · rw [pulse]
      exact ptcPwmSet_range _
    · rintro (off | hot)
      · exact absurd off running.1
      · exact absurd running.2 hot.not_gt
    · intro _
      rw [stored]
      rfl

/-- In the gaps a call does what it should with the heater off, and else only exactly 5
degrees below the setpoint, where from 100 degrees on the duty must be 0 already. -/
theorem safe_gap {heater : Heater} {reading : Reading} (bounded : heater.pulse ≤ pwmPeriod)
    (notFar : reading.setTemp - 5 ≤ reading.internalTemp)
    (gap : reading.setTemp - 5 < reading.internalTemp → 100 ≤ reading.internalTemp) :
    Safe heater reading ↔
      reading.setTemp = 0 ∨ (reading.internalTemp = reading.setTemp - 5 ∧
        (100 ≤ reading.internalTemp → heater.pulse = 0)) := by
  have stored := task_gap heater notFar gap
  have pulse := step_pulse heater reading
  by_cases off : reading.setTemp = 0
  · rw [if_pos off] at stored
    rw [stored, Option.getD_some] at pulse
    refine ⟨fun _ => .inl off, fun _ => ⟨?_, fun _ => ?_, fun _ => ?_⟩⟩
    · rw [pulse]
      exact ptcPwmSet_range _
    · rw [pulse, ptcPwmSet_zero]
      norm_num
    · rw [stored]
      rfl
  · rw [if_neg off] at stored
    rw [stored, Option.getD_none] at pulse
    constructor
    · intro safe
      refine .inr ⟨?_, fun hot => ?_⟩
      · by_contra other
        have rewritten := safe.rewritten other
        rw [stored] at rewritten
        cases rewritten
      · rw [← pulse]
        exact safe.off (.inr hot)
    · rintro (zero | ⟨exactly, kept⟩)
      · exact absurd zero off
      · refine ⟨?_, ?_, fun other => absurd exactly other⟩
        · rw [pulse]
          exact bounded
        · rintro (zero | hot)
          · exact absurd zero off
          · rw [pulse]
            exact kept hot

/-- Every call with the duty in its range does what it should exactly where that is
covered. -/
theorem safe_iff {heater : Heater} (bounded : heater.pulse ≤ pwmPeriod) (reading : Reading) :
    Safe heater reading ↔ Covered heater reading := by
  unfold Covered
  by_cases far : reading.internalTemp < reading.setTemp - 5
  · rw [safe_far far]
    constructor
    · exact .inl
    · rintro (running | ⟨off, warm, -⟩ | ⟨exactly, -⟩)
      · exact running
      · rw [off] at far
        linarith
      · exact absurd exactly far.ne
  · have notFar := not_lt.mp far
    by_cases near : reading.setTemp - 5 < reading.internalTemp ∧ reading.internalTemp < 100
    · rw [safe_control near.1 near.2]
      constructor
      · intro little
        by_cases off : reading.setTemp = 0
        · rw [off] at notFar
          exact .inr (.inl ⟨off, by linarith, fun _ _ => little off⟩)
        · exact .inl ⟨off, near.2⟩
      · rintro (running | ⟨off, -, little⟩ | ⟨exactly, -⟩)
        · exact fun off => absurd off running.1
        · intro _
          have warm := near.1
          rw [off] at warm
          exact little (by linarith) near.2
        · exact absurd exactly near.1.ne'
    · have gap : reading.setTemp - 5 < reading.internalTemp → 100 ≤ reading.internalTemp :=
        fun above => not_lt.mp fun cool => near ⟨above, cool⟩
      rw [safe_gap bounded notFar gap]
      constructor
      · rintro (off | ⟨exactly, kept⟩)
        · rw [off] at notFar gap
          refine .inr (.inl ⟨off, by linarith, fun warm cool => ?_⟩)
          exact absurd cool (gap (by linarith)).not_gt
        · by_cases hot : 100 ≤ reading.internalTemp
          · exact .inr (.inr ⟨exactly, hot, kept hot⟩)
          · by_cases off : reading.setTemp = 0
            · rw [off] at exactly
              refine .inr (.inl ⟨off, by linarith, fun warm _ => ?_⟩)
              linarith
            · exact .inl ⟨off, not_le.mp hot⟩
      · rintro (⟨-, cool⟩ | ⟨off, -⟩ | ⟨exactly, -, zero⟩)
        · refine .inr ⟨?_, fun hot => absurd cool hot.not_gt⟩
          exact le_antisymm (not_lt.mp fun above => absurd cool (gap above).not_gt) notFar
        · exact .inl off
        · exact .inr ⟨exactly, fun _ => zero⟩

/-- The duty stays in its range. -/
theorem step_bounded (heater : Heater) (reading : Reading) (bounded : heater.pulse ≤ pwmPeriod) :
    (step heater reading).pulse ≤ pwmPeriod := by
  rw [step_pulse]
  by_cases far : reading.internalTemp < reading.setTemp - 5
  · rw [task_far heater far]
    exact ptcPwmSet_range _
  · by_cases near : reading.setTemp - 5 < reading.internalTemp ∧ reading.internalTemp < 100
    · rw [task_control heater near.1 near.2]
      exact ptcPwmSet_range _
    · rw [task_gap heater (not_lt.mp far) fun above => not_lt.mp fun cool => near ⟨above, cool⟩]
      split
      · exact ptcPwmSet_range _
      · exact bounded

/-- In every run of the heater, from a cold or a warm start: all calls do what they
should exactly when all of them are covered. -/
theorem heater_safe_iff (saved : Option ℚ) (readings : List Reading) :
    Along step Safe (heaterInit saved) readings ↔
      Along step Covered (heaterInit saved) readings := by
  have initial : (heaterInit saved).pulse ≤ pwmPeriod := Nat.zero_le _
  exact along_iff step step_bounded (fun _ reading bounded => safe_iff bounded reading) _ initial
    readings

/-- With the heater off and the sensor at 20 degrees the offset of 50 percent stays in
force. -/
theorem off_keeps_offset :
    ¬ ∀ (saved : Option ℚ) (readings : List Reading),
      Along step Safe (heaterInit saved) readings := by
  intro always
  have safe : Safe (heaterInit none) ⟨20, 0, 0, 0, 0⟩ := (always none [⟨20, 0, 0, 0, 0⟩]).1
  have little := (safe_control (by norm_num) (by norm_num)).mp safe rfl
  norm_num [pidOutput, heaterInit] at little

end Pyrometer.HeaterControl
