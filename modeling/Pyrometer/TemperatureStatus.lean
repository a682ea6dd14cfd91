import Mathlib.Data.Rat.Defs
import Pyrometer.VoltageFilter

/-!
# The published temperature and its range status

`get_temp` compares the two single-channel temperatures and the ratio temperature with
the range of the device, keeps a status word for each, sets a temperature outside of the
range to zero, and publishes one of the three by the measuring mode. The error flags for
low energy and for a detector fault follow the status of the published one.

The temperatures are exact numbers, as they are after the two-point calibration and the
smoothing. What the hold filter makes of them is a parameter, and the identity without
hold filtering. Infinite and undefined temperatures are left out.
-/

namespace Pyrometer.TemperatureStatus

open VoltageFilter

/-- The temperatures, in the order of `temp_out_range`. -/
inductive TempChannel where
  | wb
  | nb
  | ratio
deriving DecidableEq

/-- `ErrorFlag_t`. -/
inductive ErrorFlag where
  | detectorFault
  | heaterHigh
  | heaterLow
  | internalHigh
  | internalLow
  | energyLow
  | attenHigh
deriving DecidableEq

/-- The part of `temp_para_t` that `get_temp` reads. -/
structure TempPara where
  devTempMin : ℚ
  devTempMax : ℚ
  validVol : Nat
  tempMode : Nat

/-- What a pass has measured: the voltages, the temperatures and the attenuation, the last
in single precision. -/
structure Reading where
  voltRaw : Spec → Int
  temp : TempChannel → ℚ
  attenuation : Nat

/-- The part of `sys_state` that is published, and `error_flags`. -/
structure TempState where
  targetVolt : Spec → Int
  tempOutRange : TempChannel → Int
  reported : TempChannel → ℚ
  targetTemp : ℚ
  measuredAttenuation : Nat
  errorFlags : ErrorFlag → Bool

/-- `error_state_set`. -/
def errorStateSet (flag : ErrorFlag) (flags : ErrorFlag → Bool) : ErrorFlag → Bool :=
  Function.update flags flag true

/-- `error_state_clear`. -/
def errorStateClear (flag : ErrorFlag) (flags : ErrorFlag → Bool) : ErrorFlag → Bool :=
  Function.update flags flag false

/-- `HANDLE_SINGLE_ERROR`. -/
def handleSingleError (outRange : Int) (flags : ErrorFlag → Bool) : ErrorFlag → Bool :=
  if outRange < 0 then errorStateClear .detectorFault (errorStateSet .energyLow flags)
  else if 0 < outRange then errorStateSet .detectorFault (errorStateClear .energyLow flags)
  else errorStateClear .detectorFault (errorStateClear .energyLow flags)

/-- The status of a temperature and the temperature itself, set to zero outside the range.
At a limit both stay as they are. -/
def limit (para : TempPara) (temp : ℚ) (stored : Int) : Int × ℚ :=
  if para.devTempMin < temp ∧ temp < para.devTempMax then (0, temp)
  else if temp < para.devTempMin then (-1, 0)
  else if para.devTempMax < temp then (1, 0)
  else (stored, temp)

/-- A raw voltage in an `int`. -/
def reportedVolt (voltRaw : Int) : Int := Int.bmod voltRaw (2 ^ 32)

/-- The voltage of the narrow-band channel is too low, compared as an unsigned number. -/
def lowVolt (para : TempPara) (reading : Reading) : Bool :=
  decide (reportedVolt (reading.voltRaw .nb) % 2 ^ 32 < para.validVol)

/-- The temperature that a mode publishes. -/
def published (tempMode : Nat) : TempChannel :=
  if tempMode = 0 then .wb else if tempMode = 1 then .nb else .ratio

/-- `get_temp`. -/
def getTemp (para : TempPara) (hold : (TempChannel → ℚ) → TempChannel → ℚ) (reading : Reading)
    (state : TempState) : TempState :=
  let low := lowVolt para reading
  let limited := fun channel => limit para (reading.temp channel) (state.tempOutRange channel)
  let outRange := fun channel => if low then -1 else (limited channel).1
  let reported := hold fun channel => if low then 0 else (limited channel).2
  let flags :=
    if low then errorStateClear .detectorFault (errorStateSet .energyLow state.errorFlags)
    else state.errorFlags
  let channel := published para.tempMode
  { targetVolt := fun spec => reportedVolt (reading.voltRaw spec)
    tempOutRange := outRange
    reported := reported
    targetTemp := reported channel
    measuredAttenuation := if low then state.measuredAttenuation else reading.attenuation
    errorFlags := handleSingleError (outRange channel) flags }

/-- A temperature as it was measured; none is when the voltage is too low. -/
def measured (para : TempPara) (reading : Reading) (channel : TempChannel) : ℚ :=
  if lowVolt para reading then 0 else reading.temp channel

/-- What is required of the published temperature: it is that of the channel of the mode,
the flags follow its status, the status says how the measured temperature lies to the
range, and the temperature is zero exactly if that is not inside. -/
structure Belongs (para : TempPara) (reading : Reading) (after : TempState) : Prop where
  target : after.targetTemp = after.reported (published para.tempMode)
  energyLow : after.errorFlags .energyLow = true ↔
    after.tempOutRange (published para.tempMode) < 0
  detectorFault : after.errorFlags .detectorFault = true ↔
    0 < after.tempOutRange (published para.tempMode)
  below : after.tempOutRange (published para.tempMode) = -1 ↔
    measured para reading (published para.tempMode) < para.devTempMin
  inside : after.tempOutRange (published para.tempMode) = 0 ↔
    para.devTempMin ≤ measured para reading (published para.tempMode) ∧
      measured para reading (published para.tempMode) ≤ para.devTempMax
  above : after.tempOutRange (published para.tempMode) = 1 ↔
    para.devTempMax < measured para reading (published para.tempMode)
  zero : after.targetTemp = 0 ↔ after.tempOutRange (published para.tempMode) ≠ 0

/-- A temperature does not reveal a stored status: it is at no limit unless the status was
that of a temperature inside, not zero inside the range, and not on both sides of it. When
the voltage is too low, zero is below the range. -/
def Settled (para : TempPara) (reading : Reading) (stored : Int) : Prop :=
  if lowVolt para reading then 0 < para.devTempMin ∧ 0 ≤ para.devTempMax
  else
    let temp := reading.temp (published para.tempMode)
    ¬(para.devTempMax < temp ∧ temp < para.devTempMin) ∧
      (para.devTempMin ≤ temp → temp ≤ para.devTempMax →
        temp ≠ 0 ∧ (temp = para.devTempMin ∨ temp = para.devTempMax → stored = 0))

/-- The two flags follow a status. -/
theorem handle_single_error_flags (outRange : Int) (flags : ErrorFlag → Bool) :
    (handleSingleError outRange flags .energyLow = true ↔ outRange < 0) ∧
      (handleSingleError outRange flags .detectorFault = true ↔ 0 < outRange) := by
  unfold handleSingleError errorStateSet errorStateClear
  split_ifs with low high
  · simp [low, Int.le_of_lt low]
  · simp [high, Int.le_of_lt high]
  · simp [low, high]

/-- What the limits do to a temperature. -/
theorem limit_cases (para : TempPara) (temp : ℚ) (stored : Int) :
    (temp < para.devTempMin ∧ limit para temp stored = (-1, 0)) ∨
      (para.devTempMin ≤ temp ∧ para.devTempMax < temp ∧ limit para temp stored = (1, 0)) ∨
      (para.devTempMin < temp ∧ temp < para.devTempMax ∧ limit para temp stored = (0, temp)) ∨
      (para.devTempMin ≤ temp ∧ temp ≤ para.devTempMax ∧
        (temp = para.devTempMin ∨ temp = para.devTempMax) ∧
        limit para temp stored = (stored, temp)) := by
  unfold limit
  split_ifs with within below above
  · exact Or.inr (Or.inr (Or.inl ⟨within.1, within.2, rfl⟩))
  · exact Or.inl ⟨below, rfl⟩
  · exact Or.inr (Or.inl ⟨not_lt.mp below, above, rfl⟩)
  · refine Or.inr (Or.inr (Or.inr ⟨not_lt.mp below, not_lt.mp above, ?_, rfl⟩))
    rcases lt_or_eq_of_le (not_lt.mp below) with larger | same
    · exact Or.inr (le_antisymm (not_lt.mp above) (not_lt.mp fun smaller =>
        within ⟨larger, smaller⟩))
    · exact Or.inl same.symm

/-- A status says how a temperature lies to the range, and a published value is zero exactly
if that is not inside. -/
structure Placed (para : TempPara) (temp : ℚ) (placed : Int × ℚ) : Prop where
  below : placed.1 = -1 ↔ temp < para.devTempMin
  inside : placed.1 = 0 ↔ para.devTempMin ≤ temp ∧ temp ≤ para.devTempMax
  above : placed.1 = 1 ↔ para.devTempMax < temp
  zero : placed.2 = 0 ↔ placed.1 ≠ 0

/-- Zero with the status below the range. -/
theorem placed_low_iff (para : TempPara) :
    Placed para 0 (-1, 0) ↔ 0 < para.devTempMin ∧ 0 ≤ para.devTempMax := by
  constructor
  · intro placed
    have below : (0 : ℚ) < para.devTempMin := placed.below.mp rfl
    refine ⟨below, not_lt.mp fun above => ?_⟩
    exact absurd (placed.above.mpr above) (by decide)
  · rintro ⟨below, notAbove⟩
    constructor
    case below => exact iff_of_true rfl below
    case inside => exact iff_of_false (by decide) fun inside => absurd inside.1 (not_le.mpr below)
    case above => exact iff_of_false (by decide) (not_lt.mpr notAbove)
    case zero => exact iff_of_true rfl (by decide)

/-- A temperature inside the range that is not zero, with the status for that. -/
theorem placed_inside {para : TempPara} {temp : ℚ} (notBelow : para.devTempMin ≤ temp)
    (notAbove : temp ≤ para.devTempMax) (nonzero : temp ≠ 0) : Placed para temp (0, temp) := by
  constructor
  case below => exact iff_of_false (by simp) (not_lt.mpr notBelow)
  case inside => exact iff_of_true rfl ⟨notBelow, notAbove⟩
  case above => exact iff_of_false (by simp) (not_lt.mpr notAbove)
  case zero => exact iff_of_false nonzero fun different => different rfl

/-- The limits place a temperature if it reveals no stored status. -/
theorem placed_limit_iff (para : TempPara) (temp : ℚ) (stored : Int) :
    Placed para temp (limit para temp stored) ↔
      ¬(para.devTempMax < temp ∧ temp < para.devTempMin) ∧
        (para.devTempMin ≤ temp → temp ≤ para.devTempMax →
          temp ≠ 0 ∧ (temp = para.devTempMin ∨ temp = para.devTempMax → stored = 0)) := by
  rcases limit_cases para temp stored with
    ⟨below, same⟩ | ⟨notBelow, above, same⟩ | ⟨larger, smaller, same⟩ |
      ⟨notBelow, notAbove, atLimit, same⟩
  · rw [same]
    constructor
    · intro placed
      refine ⟨fun both => ?_, fun inside => absurd inside (not_le.mpr below)⟩
      exact absurd (placed.above.mpr both.1) (by decide)
    · rintro ⟨oneSide, _⟩
      constructor
      case below => exact iff_of_true rfl below
      case inside => exact iff_of_false (by decide) fun inside => absurd inside.1 (not_le.mpr below)
      case above => exact iff_of_false (by decide) fun above => oneSide ⟨above, below⟩
      case zero => exact iff_of_true rfl (by decide)
  · rw [same]
    constructor
    · exact fun _ => ⟨fun both => absurd both.2 (not_lt.mpr notBelow),
        fun _ within => absurd within (not_le.mpr above)⟩
    · intro _
      constructor
      case below => exact iff_of_false (by decide) (not_lt.mpr notBelow)
      case inside => exact iff_of_false (by decide) fun inside => absurd inside.2 (not_le.mpr above)
      case above => exact iff_of_true rfl above
      case zero => exact iff_of_true rfl (by decide)
  · rw [same]
    constructor
    · intro placed
      refine ⟨fun both => absurd both.2 (not_lt.mpr larger.le), fun _ _ => ⟨?_, ?_⟩⟩
      · exact fun zero => absurd rfl (placed.zero.mp zero)
      · rintro (low | high)
        · exact absurd low (ne_of_gt larger)
        · exact absurd high (ne_of_lt smaller)
    · exact fun ⟨_, inside⟩ =>
        placed_inside larger.le smaller.le (inside larger.le smaller.le).1
  · rw [same]
    constructor
    · intro placed
      have kept : stored = 0 := placed.inside.mpr ⟨notBelow, notAbove⟩
      refine ⟨fun both => absurd both.2 (not_lt.mpr notBelow), fun _ _ => ⟨?_, fun _ => kept⟩⟩
      exact fun zero => (placed.zero.mp zero) kept
    · rintro ⟨_, inside⟩
      obtain ⟨nonzero, kept⟩ := inside notBelow notAbove
      rw [kept atLimit]
      exact placed_inside notBelow notAbove nonzero

/-- What the published temperature and its status are. -/
def placement (para : TempPara) (reading : Reading) (stored : Int) : Int × ℚ :=
  if lowVolt para reading then (-1, 0)
  else limit para (reading.temp (published para.tempMode)) stored

/-- `get_temp` publishes a temperature with its status. -/
theorem get_temp_placement (para : TempPara) (reading : Reading) (state : TempState) :
    let after := getTemp para id reading state
    (after.tempOutRange (published para.tempMode), after.targetTemp) =
      placement para reading (state.tempOutRange (published para.tempMode)) := by
  unfold getTemp placement
  simp only [id]
  split <;> rfl

/-- What is required holds if the temperature is placed. -/
theorem belongs_iff_placed (para : TempPara) (reading : Reading) (state : TempState) :
    Belongs para reading (getTemp para id reading state) ↔
      Placed para (measured para reading (published para.tempMode))
        (placement para reading (state.tempOutRange (published para.tempMode))) := by
  have flags := handle_single_error_flags
    ((getTemp para id reading state).tempOutRange (published para.tempMode))
    (if lowVolt para reading then
      errorStateClear .detectorFault (errorStateSet .energyLow state.errorFlags)
    else state.errorFlags)
  rw [← get_temp_placement]
  constructor
  · intro belongs
    exact ⟨belongs.below, belongs.inside, belongs.above, belongs.zero⟩
  · intro placed
    exact ⟨rfl, flags.1, flags.2, placed.below, placed.inside, placed.above, placed.zero⟩

/-- The published temperature and its status belong together exactly if the temperature
reveals no stored status. -/
theorem status_belongs_iff (para : TempPara) (reading : Reading) (state : TempState) :
    Belongs para reading (getTemp para id reading state) ↔
      Settled para reading (state.tempOutRange (published para.tempMode)) := by
  rw [belongs_iff_placed]
  unfold measured placement Settled
  split
  case isTrue low => exact placed_low_iff para
  case isFalse enough => exact placed_limit_iff para _ _

/-- A device for 100 to 1000 degrees that publishes the wide-band temperature. -/
def wideBandPara : TempPara := ⟨100, 1000, 0, 0⟩

/-- A reading at the lower limit. -/
def limitReading : Reading := ⟨fun _ => 1000000, fun _ => 100, 0⟩

/-- A state in which the last temperature was below the range. -/
def stateBelow : TempState := ⟨fun _ => 0, fun _ => -1, fun _ => 0, 0, 0, fun _ => false⟩

/-- A temperature at the lower limit has the status of the one before it. -/
theorem limit_keeps_stored_status :
    ¬Belongs wideBandPara limitReading (getTemp wideBandPara id limitReading stateBelow) := by
  intro belongs
  have inside := belongs.inside.mpr ⟨by decide, by decide⟩
  exact absurd inside (by decide)

end Pyrometer.TemperatureStatus
