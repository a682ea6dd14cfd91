import Mathlib.Tactic

/-!
# Temperatures in commands, without rounding

A command that carries a temperature is converted from the unit of the device to
degrees Celsius, checked against the range of its row of `CMD_TBL` and, for the rows of
`AdjRange_CMD_TBL`, against the range of the device; what is stored is the converted
number. An answer converts back. Here all numbers are exact.

The text of a command and of an answer are left out: a number stands for a text that
`sscanf` reads as it.
-/

namespace Pyrometer.ExactTemperatures

/-- The units of `CMD_U`. -/
inductive TempUnit where
  | C
  | F
  | K
  deriving DecidableEq

/-- `convert_uint`. -/
def convertUint (value : ℚ) : TempUnit → TempUnit → ℚ
  | .C, .F => (value * 1800 + 32000) / 1000
  | .C, .K => (value * 100 + 27315) / 100
  | .F, .C => (value * 1000 - 32000) / 1800
  | .F, .K => (value - 32) * 5 / 9 + 27315 / 100
  | .K, .F => (value - 27315 / 100) * 9 / 5 + 32
  | .K, .C => (value * 100 - 27315) / 100
  | _, _ => value

/-- `TEMP_UNIT_INTERNAL`. -/
abbrev tempUnitInternal : TempUnit := .C

/-- `temp_para_t`: the unit and the range of the device. -/
structure TempPara where
  unit : TempUnit
  devTempMin : ℚ
  devTempMax : ℚ

/-- What the row of a command says about its number: the range, and whether the number
must stay inside the range of the device, too. -/
structure Rule where
  min : ℚ
  max : ℚ
  limited : Bool

/-- `cmd_data_chk` for a temperature: the number that is stored. -/
def cmdDataChk (temp : TempPara) (rule : Rule) (value : ℚ) : Option ℚ :=
  if rule.max < convertUint value temp.unit tempUnitInternal ∨
      convertUint value temp.unit tempUnitInternal < rule.min then none
  else if rule.limited ∧ (temp.devTempMax < convertUint value temp.unit tempUnitInternal ∨
      convertUint value temp.unit tempUnitInternal < temp.devTempMin) then none
  else some (convertUint value temp.unit tempUnitInternal)

/-- The number in the answer to a command that asks for a temperature. -/
def answer (temp : TempPara) (stored : ℚ) : ℚ := convertUint stored tempUnitInternal temp.unit

/-- `TEMP_LOWER` and `TEMP_UPPER` as a range. -/
def tempRule (limited : Bool) : Rule := ⟨100, 3500, limited⟩

/-- The device with its default unit and range. -/
def defaultTemp : TempPara := ⟨.C, 800, 2800⟩

/-- An accepted number is stored as it was converted, and lies in its ranges. -/
theorem accepted_stored {temp : TempPara} {rule : Rule} {value stored : ℚ}
    (accepted : cmdDataChk temp rule value = some stored) :
    stored = convertUint value temp.unit tempUnitInternal ∧
      (rule.min ≤ stored ∧ stored ≤ rule.max) ∧
      (rule.limited = true → temp.devTempMin ≤ stored ∧ stored ≤ temp.devTempMax) := by
  unfold cmdDataChk at accepted
  split at accepted
  case isTrue out => cases accepted
  case isFalse within =>
    split at accepted
    case isTrue out => cases accepted
    case isFalse inside =>
      cases Option.some.inj accepted
      refine ⟨rfl, ?_, fun limited => ?_⟩
      · exact ⟨not_lt.mp fun low => within (.inr low), not_lt.mp fun high => within (.inl high)⟩
      · exact ⟨not_lt.mp fun low => inside ⟨limited, .inr low⟩,
          not_lt.mp fun high => inside ⟨limited, .inl high⟩⟩

/-- Converting to degrees Celsius and back changes nothing. -/
theorem convert_back (value : ℚ) (unit : TempUnit) :
    convertUint (convertUint value unit tempUnitInternal) tempUnitInternal unit = value := by
  cases unit with
  | C => rfl
  | F =>
    simp only [convertUint]
    ring
  | K =>
    simp only [convertUint]
    ring

/-- What was accepted is answered as it was set. -/
theorem answer_accepted {temp : TempPara} {rule : Rule} {value stored : ℚ}
    (accepted : cmdDataChk temp rule value = some stored) : answer temp stored = value := by
  rw [answer, (accepted_stored accepted).1]
  exact convert_back value temp.unit

end Pyrometer.ExactTemperatures
