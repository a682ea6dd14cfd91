import Pyrometer.HeaterControl

/-!
# The integral of the heater over its starts

`ambient_temp_pid_ctrl` takes the sum of the errors back to `previous_integral` when
its set value is out of range. `heater_init` clears the sum on a cold start and never
touches `previous_integral`. That one is 0 because every start clears the global
variables, and on a warm start `hot_start_quick_save_get` stores the same number into
both. What is kept over a reset is `sys_quick_save`, which no start clears: after a loss
of power it holds anything. `service_task` renews it each second, and the interrupt of
the low voltage only sets its flag.

A run of the instrument is any order of calls of `heater_task`, of these two writes and
of starts. Of `sys_quick_save` only the flag and the integral are here; all numbers are
exact.
-/

namespace Pyrometer.HeaterIntegral

open Runs HeaterControl

/-- `sys_quick_save_t`, as far as the heater uses it. -/
structure QuickSave where
  flagTempInternal : ℤ
  integral : ℚ

/-- `heater_data` as the C start-up leaves it. -/
def clearedData : HeaterData := ⟨0, 0, 0, 0, 0, 0, 0, 0, 0⟩

/-- `hot_start_quick_save_get`. -/
def hotStartQuickSaveGet (data : HeaterData) (quick : QuickSave) : HeaterData × QuickSave :=
  if quick.flagTempInternal = 1 then
    ({ data with integral := quick.integral, previousIntegral := quick.integral },
      { quick with flagTempInternal := 0 })
  else (data, quick)

/-- `hot_start_quick_save_set`. -/
def hotStartQuickSaveSet (data : HeaterData) : QuickSave := ⟨1, data.integral⟩

/-- `heater_init`: what it stores into `heater_data`. -/
def initialised (warmStart : Bool) (data : HeaterData) : HeaterData :=
  { data with
    internalTemperature := 25
    error := 0
    integral := if warmStart then data.integral else 0
    derivative := 0
    previousError := 0
    output := 0
    setValue := 0 }

/-- The heater and the memory that no start clears. -/
structure Instrument where
  heater : Heater
  quick : QuickSave

/-- The start of the instrument as far as the heater goes: the start-up code,
`dev_start_type` and `heater_init`. -/
def powerUp (warmStart : Bool) (quick : QuickSave) : Instrument :=
  let loaded := if warmStart then hotStartQuickSaveGet clearedData quick else (clearedData, quick)
  ⟨⟨initialised warmStart loaded.1, 0⟩, loaded.2⟩

/-- What happens to the instrument. -/
inductive Event where
  /-- A call of `heater_task`. -/
  | task (reading : Reading)
  /-- `hot_start_quick_save_set`, by `service_task` or by `safe_reset`. -/
  | save
  /-- `lvd_handler`. -/
  | lowVoltage
  /-- A reset that keeps the memory. -/
  | warmStart
  /-- A loss of power, after which the memory holds anything. -/
  | coldStart (content : QuickSave)

/-- One event. -/
def step (instrument : Instrument) : Event → Instrument
  | .task reading => { instrument with heater := HeaterControl.step instrument.heater reading }
  | .save => { instrument with quick := hotStartQuickSaveSet instrument.heater.data }
  | .lowVoltage => { instrument with quick := { instrument.quick with flagTempInternal := 1 } }
  | .warmStart => powerUp true instrument.quick
  | .coldStart content => powerUp false content

/-- A call of `heater_task` with this reading calls `ambient_temp_pid_ctrl`. -/
def Controls (reading : Reading) : Prop :=
  reading.setTemp - 5 < reading.internalTemp ∧ reading.internalTemp < 100

/-- What a call of the controller should do with a reading: the error is the distance to the set
temperature and the output that of a PID controller with the error added to the sum. The sum keeps
the error when 50 and the output are in range, and else it is left alone. -/
structure Unsaturated (reading : Reading) (before after : HeaterData) : Prop where
  error : after.error = reading.setTemp - reading.internalTemp
  output : after.output =
    reading.kp * (reading.setTemp - reading.internalTemp) +
      reading.ki * (before.integral + (reading.setTemp - reading.internalTemp)) +
      reading.kd * (reading.setTemp - reading.internalTemp - before.previousError)
  previousError : after.previousError = reading.setTemp - reading.internalTemp
  integral : after.integral =
    if 0 ≤ 50 + after.output ∧ 50 + after.output ≤ 100 then
      before.integral + (reading.setTemp - reading.internalTemp)
    else before.integral

/-- What an event should do to the sum: a call of the controller as above, the other
calls, the saves and the interrupt nothing. A cold start clears it, and a warm one keeps
what was saved. -/
def SumKept (instrument : Instrument) : Event → Prop
  | .task reading =>
    let after := (step instrument (.task reading)).heater.data
    (Controls reading → Unsaturated reading instrument.heater.data after) ∧
      (¬ Controls reading → after.integral = instrument.heater.data.integral)
  | .save =>
    (step instrument .save).heater.data.integral = instrument.heater.data.integral
  | .lowVoltage =>
    (step instrument .lowVoltage).heater.data.integral = instrument.heater.data.integral
  | .warmStart =>
    (step instrument .warmStart).heater.data.integral =
      if instrument.quick.flagTempInternal = 1 then instrument.quick.integral else 0
  | .coldStart content => (step instrument (.coldStart content)).heater.data.integral = 0

/-- The invariant: what a saturated call takes the sum back to is the sum itself. -/
def Matched (data : HeaterData) : Prop := data.previousIntegral = data.integral

/-- Every start leaves the heater of a cold one, or of a warm one with the saved sum. -/
theorem power_up_heater (warmStart : Bool) (quick : QuickSave) :
    (powerUp warmStart quick).heater =
      heaterInit
        (if warmStart ∧ quick.flagTempInternal = 1 then some quick.integral else none) := by
  cases warmStart with
  | false => rfl
  | true =>
    by_cases saved : quick.flagTempInternal = 1
    · simp [powerUp, hotStartQuickSaveGet, initialised, clearedData, heaterInit, saved]
    · simp [powerUp, hotStartQuickSaveGet, initialised, clearedData, heaterInit, saved]

/-- The sum after a start. -/
theorem power_up_integral (warmStart : Bool) (quick : QuickSave) :
    (powerUp warmStart quick).heater.data.integral =
      if warmStart ∧ quick.flagTempInternal = 1 then quick.integral else 0 := by
  rw [power_up_heater]
  split
  · rfl
  · rfl

/-- Every start leaves the two sums the same. -/
theorem power_up_matched (warmStart : Bool) (quick : QuickSave) :
    Matched (powerUp warmStart quick).heater.data := by
  rw [power_up_heater]
  rfl

/-- Every call of the controller leaves the two sums the same. -/
theorem pid_matched (reading : Reading) (data : HeaterData) :
    Matched (ambientTempPidCtrl reading data) := rfl

/-- A call of the controller adds the error, or takes the sum back to the kept one. -/
theorem pid_integral (reading : Reading) (data : HeaterData) :
    (ambientTempPidCtrl reading data).integral =
      if 0 ≤ 50 + (ambientTempPidCtrl reading data).output ∧
          50 + (ambientTempPidCtrl reading data).output ≤ 100 then
        data.integral + (ambientTempPidCtrl reading data).error
      else data.previousIntegral := by
  have limited : ∀ value kept integral : ℚ,
      (if 100 < value then (100, kept) else if value < 0 then (0, kept)
        else (value, integral) : ℚ × ℚ).2 =
      if 0 ≤ value ∧ value ≤ 100 then integral else kept := by
    intro value kept integral
    split
    case isTrue above => rw [if_neg fun within => absurd within.2 above.not_ge]
    case isFalse notAbove =>
      split
      case isTrue under => rw [if_neg fun within => absurd within.1 under.not_ge]
      case isFalse notUnder => rw [if_pos ⟨not_lt.mp notUnder, not_lt.mp notAbove⟩]
  exact limited _ _ _

/-- What a call of `heater_task` hands to the controller, or leaves. -/
def taken (data : HeaterData) (reading : Reading) : HeaterData :=
  { data with internalTemperature := reading.internalTemp, setpoint := reading.setTemp }

/-- With the two sums the same a call of the controller does what it should. -/
theorem pid_unsaturated (reading : Reading) {data : HeaterData} (matched : Matched data) :
    Unsaturated reading data (ambientTempPidCtrl reading (taken data reading)) where
  error := rfl
  output := rfl
  previousError := rfl
  integral := by
    have sameSums : (taken data reading).previousIntegral = data.integral := matched
    rw [pid_integral, sameSums]
    rfl

/-- What a call of `heater_task` leaves in `heater_data`. -/
theorem task_data (data : HeaterData) (reading : Reading) :
    (Controls reading → (heaterTask data reading).1 =
      ambientTempPidCtrl reading (taken data reading)) ∧
    (¬ Controls reading → (heaterTask data reading).1 = taken data reading) := by
  unfold Controls heaterTask
  constructor
  · intro controls
    rw [if_pos controls]
    rfl
  · intro other
    rw [if_neg other]
    split
    · rfl
    · split
      · rfl
      · rfl

/-- Every event leaves the two sums the same. -/
theorem step_matched (instrument : Instrument) (event : Event)
    (matched : Matched instrument.heater.data) : Matched (step instrument event).heater.data := by
  cases event with
  | task reading =>
    change Matched (heaterTask instrument.heater.data reading).1
    by_cases controls : Controls reading
    · rw [(task_data _ reading).1 controls]
      exact pid_matched reading _
    · rw [(task_data _ reading).2 controls]
      exact matched
  | save => exact matched
  | lowVoltage => exact matched
  | warmStart => exact power_up_matched true _
  | coldStart content => exact power_up_matched false content

/-- With the two sums the same every event does to the sum what it should. -/
theorem step_sum (instrument : Instrument) (event : Event)
    (matched : Matched instrument.heater.data) : SumKept instrument event := by
  cases event with
  | task reading =>
    have data := task_data instrument.heater.data reading
    constructor
    · intro controls
      change Unsaturated reading _ (heaterTask instrument.heater.data reading).1
      rw [data.1 controls]
      exact pid_unsaturated reading matched
    · intro other
      change (heaterTask instrument.heater.data reading).1.integral = _
      rw [data.2 other]
      rfl
  | save => rfl
  | lowVoltage => rfl
  | warmStart =>
    have sum := power_up_integral true instrument.quick
    simp only [true_and] at sum
    exact sum
  | coldStart content => exact power_up_integral false content

/-- Over every start and every run after it, each call of the controller adds its error, the
distance from the temperature to the setpoint, when 50 and the output that its gains give are in
range, and else leaves the sum alone. Nothing else changes the sum but a start. -/
theorem anti_windup (warmStart : Bool) (quick : QuickSave) (events : List Event) :
    Along step SumKept (powerUp warmStart quick) events := by
  have anyEvent : ∀ (start : Instrument) (rest : List Event),
      Along step (fun _ _ => True) start rest := fun start rest =>
    (along_events step start rest).mpr fun _ _ => True.intro
  apply along_carry step step_matched _ _ (power_up_matched warmStart quick) events (anyEvent _ _)
  exact fun instrument event matched _ => step_sum instrument event matched

end Pyrometer.HeaterIntegral
