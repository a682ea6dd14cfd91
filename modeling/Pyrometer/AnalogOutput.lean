import Pyrometer.ExactTemperatures
import Pyrometer.Runs
import Pyrometer.Truncation

/-!
# The law of the analog output

`anolog_temp_convert` turns a temperature into a current or a voltage. It reads the type
of the output from the parameters, and the limits and the span from `ana_status`. The
commands `AM`, `AL` and `AH` and the pages of the panel change the parameters; the
commands bring `ana_status` up to date, each in its own part, and the pages do not.

All numbers are exact, and limits and temperatures are cut to hundredths. No test value
is active. A page that is left stores the number it displays, whatever the pages made of
it before; the calibration of the output and its writing are left out.
-/

namespace Pyrometer.AnalogOutput

open ExactTemperatures Runs Truncation

/-- The values of `ana.type`: `ANA_0_20MA`, `ANA_4_20MA` and `ANA_0_10V`. -/
inductive AnaType where
  | zero20mA
  | four20mA
  | zero10V
  deriving DecidableEq

/-- `ana_para_t`, as far as the law goes. -/
structure AnaPara where
  type : AnaType
  lower : ℚ
  upper : ℚ

/-- `ana_status_t`, as far as the law goes. -/
structure AnaStatus where
  tempLower : ℤ
  tempUpper : ℤ
  currentRange : ℤ
  voltageRange : ℤ

/-- The parameters and the status. -/
structure AnalogOut where
  para : AnaPara
  status : AnaStatus

/-- What is put out below the lower limit. -/
def AnaType.lowEnd : AnaType → ℤ
  | .zero20mA => 0
  | .four20mA => 4
  | .zero10V => 1

/-- What is put out above the upper limit. -/
def AnaType.highEnd : AnaType → ℤ
  | .zero20mA => 20
  | .four20mA => 20
  | .zero10V => 10

/-- `ana_threshold_range`. A voltage leaves the current range alone. -/
def anaThresholdRange (out : AnalogOut) : AnalogOut :=
  let currentRange :=
    match out.para.type with
    | .zero20mA => 20 - 0
    | .four20mA => 20 - 4
    | .zero10V => out.status.currentRange
  { out with status := { out.status with currentRange := currentRange, voltageRange := 10 - 1 } }

/-- `anolog_out_init`. -/
def anologOutInit (out : AnalogOut) : AnalogOut :=
  anaThresholdRange { out with status := { out.status with
    tempLower := cut (out.para.lower * 100)
    tempUpper := cut (out.para.upper * 100) } }

/-- The span that the status holds for the type. -/
def AnalogOut.range (out : AnalogOut) : ℤ :=
  match out.para.type with
  | .zero10V => out.status.voltageRange
  | _ => out.status.currentRange

/-- `anolog_temp_convert`; there is no result when it divides by zero. -/
def anologTempConvert (out : AnalogOut) (temp : ℚ) : Option ℚ :=
  let realTemp := cut (temp * 100)
  if realTemp < out.status.tempLower then some out.para.type.lowEnd
  else if out.status.tempUpper < realTemp then some out.para.type.highEnd
  else if out.status.tempUpper - out.status.tempLower = 0 then none
  else
    let share : ℚ := (realTemp - out.status.tempLower : ℤ) /
      (out.status.tempUpper - out.status.tempLower : ℤ)
    some (share * out.range + out.para.type.lowEnd)

/-- A command, or a page of the panel that is left with a type or with the number it
displays. -/
inductive Event where
  | AM (type : AnaType)
  | AL (value : ℚ)
  | AH (value : ℚ)
  | doAnalogMode (type : AnaType)
  | doAnalogOutLow (disValue : ℤ)
  | doAnalogOutHigh (disValue : ℤ)

/-- One step. `AM` takes the two currents only; a limit that would pass the other one is
given back. -/
def step (temp : TempPara) (out : AnalogOut) : Event → AnalogOut
  | .AM type =>
      if type = .zero10V then out
      else anaThresholdRange { out with para := { out.para with type := type } }
  | .AL value =>
      match cmdDataChk temp (tempRule true) value with
      | none => out
      | some stored =>
          if out.para.upper < stored then out
          else anologOutInit { out with para := { out.para with lower := stored } }
  | .AH value =>
      match cmdDataChk temp (tempRule true) value with
      | none => out
      | some stored =>
          if stored < out.para.lower then out
          else anologOutInit { out with para := { out.para with upper := stored } }
  | .doAnalogMode type => { out with para := { out.para with type := type } }
  | .doAnalogOutLow disValue => { out with para := { out.para with lower := disValue } }
  | .doAnalogOutHigh disValue => { out with para := { out.para with upper := disValue } }

/-- The default configuration, after `anolog_out_init` at the start. -/
def boot : AnalogOut := anologOutInit ⟨⟨.four20mA, 800, 2800⟩, ⟨0, 0, 0, 0⟩⟩

/-- The law: there is always a result, it grows with the temperature, it is the lower end
of the span up to the lower limit and the upper end from the upper limit on, and it is
never outside the span. -/
structure Law (out : AnalogOut) : Prop where
  defined : ∀ temp, anologTempConvert out temp ≠ none
  grows : ∀ cold hot colder hotter, cold ≤ hot → anologTempConvert out cold = some colder →
    anologTempConvert out hot = some hotter → colder ≤ hotter
  low : ∀ temp ≤ out.para.lower, anologTempConvert out temp = some (out.para.type.lowEnd : ℚ)
  high : ∀ temp, out.para.upper ≤ temp →
    anologTempConvert out temp = some (out.para.type.highEnd : ℚ)
  within : ∀ temp value, anologTempConvert out temp = some value →
    (out.para.type.lowEnd : ℚ) ≤ value ∧ value ≤ out.para.type.highEnd

/-- Where the status agrees with the parameters: its limits are apart, the lower one is
not below that of the parameters in hundredths, its span does not pass the upper end,
and its upper limit is below that of the parameters, or the same with the whole span. -/
structure Agreed (out : AnalogOut) : Prop where
  apart : out.status.tempLower < out.status.tempUpper
  lower : cut (out.para.lower * 100) ≤ out.status.tempLower
  span : out.para.type.lowEnd + out.range ≤ out.para.type.highEnd
  upper : out.status.tempUpper < cut (out.para.upper * 100) ∨
    (out.status.tempUpper = cut (out.para.upper * 100) ∧
      out.para.type.lowEnd + out.range = out.para.type.highEnd)

/-- Steps that keep the status in agreement: a limit that is set by a command differs from
the other one in hundredths; a page stores a lower limit that is not above the one in
the status, an upper limit that is not below it, or a type that the span in the status
is for. -/
def Keeps (temp : TempPara) (out : AnalogOut) : Event → Prop
  | .AM _ => True
  | .AL value => ∀ stored, cmdDataChk temp (tempRule true) value = some stored →
      stored ≤ out.para.upper → cut (stored * 100) < cut (out.para.upper * 100)
  | .AH value => ∀ stored, cmdDataChk temp (tempRule true) value = some stored →
      out.para.lower ≤ stored → cut (out.para.lower * 100) < cut (stored * 100)
  | .doAnalogMode type =>
      type = .zero10V ∨ type.lowEnd + out.status.currentRange = type.highEnd
  | .doAnalogOutLow disValue => 100 * disValue ≤ out.status.tempLower
  | .doAnalogOutHigh disValue => out.status.tempUpper ≤ 100 * disValue

/-- What holds of the status in every state: its limits are in order and its spans are
positive. -/
structure Consistent (out : AnalogOut) : Prop where
  ordered : out.status.tempLower ≤ out.status.tempUpper
  current : 0 < out.status.currentRange
  voltage : out.status.voltageRange = 9

/-- The ends of a span are apart. -/
theorem ends_apart (type : AnaType) : type.lowEnd < type.highEnd := by
  cases type <;> decide

/-- The span of the type is positive. -/
theorem Consistent.range_pos {out : AnalogOut} (consistent : Consistent out) : 0 < out.range := by
  have voltage := consistent.voltage
  unfold AnalogOut.range
  split
  · omega
  · exact consistent.current

/-- Bringing the spans up to date keeps them positive. -/
theorem threshold_consistent {out : AnalogOut}
    (ordered : out.status.tempLower ≤ out.status.tempUpper)
    (current : 0 < out.status.currentRange) : Consistent (anaThresholdRange out) := by
  refine ⟨ordered, ?_, rfl⟩
  simp only [anaThresholdRange]
  split <;> first | decide | exact current

/-- With the limits of the parameters in order, the status of `anolog_out_init` is so. -/
theorem init_consistent {out : AnalogOut} (ordered : out.para.lower ≤ out.para.upper)
    (current : 0 < out.status.currentRange ∨ out.para.type ≠ .zero10V) :
    Consistent (anologOutInit out) := by
  refine ⟨cut_mono (by linarith), ?_, rfl⟩
  simp only [anologOutInit, anaThresholdRange]
  split
  · decide
  · decide
  case h_3 voltage => exact current.resolve_right fun other => other voltage

/-- Every step keeps the status consistent. -/
theorem step_consistent (temp : TempPara) (out : AnalogOut) (event : Event)
    (consistent : Consistent out) : Consistent (step temp out event) := by
  cases event with
  | AM type =>
    simp only [step]
    split
    · exact consistent
    · exact threshold_consistent consistent.ordered consistent.current
  | AL value =>
    simp only [step]
    split
    · exact consistent
    · split
      case isTrue passed => exact consistent
      case isFalse ordered => exact init_consistent (not_lt.mp ordered) (.inl consistent.current)
  | AH value =>
    simp only [step]
    split
    · exact consistent
    · split
      case isTrue passed => exact consistent
      case isFalse ordered => exact init_consistent (not_lt.mp ordered) (.inl consistent.current)
  | doAnalogMode type => exact ⟨consistent.ordered, consistent.current, consistent.voltage⟩
  | doAnalogOutLow disValue => exact ⟨consistent.ordered, consistent.current, consistent.voltage⟩
  | doAnalogOutHigh disValue => exact ⟨consistent.ordered, consistent.current, consistent.voltage⟩

/-- The status is consistent in every state that is reached. -/
theorem run_consistent (temp : TempPara) (events : List Event) :
    Consistent (run (step temp) boot events) :=
  run_invariant (step temp) (step_consistent temp) boot
    (init_consistent (by norm_num) (.inr (by decide))) events

/-- The part of the way from the lower limit of the status to the upper one. -/
def AnalogOut.share (out : AnalogOut) (realTemp : ℤ) : ℚ :=
  (realTemp - out.status.tempLower : ℤ) / (out.status.tempUpper - out.status.tempLower : ℤ)

/-- Below the limits of the status the lower end is put out. -/
theorem convert_below {out : AnalogOut} {temp : ℚ}
    (below : cut (temp * 100) < out.status.tempLower) :
    anologTempConvert out temp = some (out.para.type.lowEnd : ℚ) := by
  simp only [anologTempConvert, below, if_true]

/-- Above the limits of the status the upper end is put out. -/
theorem convert_above {out : AnalogOut} (ordered : out.status.tempLower ≤ out.status.tempUpper)
    {temp : ℚ} (above : out.status.tempUpper < cut (temp * 100)) :
    anologTempConvert out temp = some (out.para.type.highEnd : ℚ) := by
  have notBelow : ¬ cut (temp * 100) < out.status.tempLower := by omega
  simp only [anologTempConvert, notBelow, if_false, above, if_true]

/-- Between limits that are apart the part of the span is put out. -/
theorem convert_between {out : AnalogOut} (apart : out.status.tempLower < out.status.tempUpper)
    {temp : ℚ} (notBelow : out.status.tempLower ≤ cut (temp * 100))
    (notAbove : cut (temp * 100) ≤ out.status.tempUpper) :
    anologTempConvert out temp =
      some (out.share (cut (temp * 100)) * out.range + out.para.type.lowEnd) := by
  have different : out.status.tempUpper - out.status.tempLower ≠ 0 := by omega
  simp only [anologTempConvert, notBelow.not_gt, notAbove.not_gt, different, if_false,
    AnalogOut.share]

/-- A number of hundredths is cut to itself. -/
theorem cut_hundredths (realTemp : ℤ) : cut (((realTemp : ℚ) / 100) * 100) = realTemp := by
  rw [div_mul_cancel₀ (realTemp : ℚ) (by norm_num)]
  exact cut_intCast realTemp

/-- The part of the way grows from 0 to 1. -/
theorem share_bounds {out : AnalogOut} (apart : out.status.tempLower < out.status.tempUpper)
    {realTemp : ℤ} (notBelow : out.status.tempLower ≤ realTemp)
    (notAbove : realTemp ≤ out.status.tempUpper) :
    0 ≤ out.share realTemp ∧ out.share realTemp ≤ 1 := by
  have positive : (0 : ℚ) < (out.status.tempUpper - out.status.tempLower : ℤ) := by
    exact_mod_cast sub_pos.mpr apart
  constructor
  · apply div_nonneg _ positive.le
    exact_mod_cast sub_nonneg.mpr notBelow
  · rw [AnalogOut.share, div_le_one positive]
    exact_mod_cast sub_le_sub_right notAbove _

/-- The part of the way is 0 at the lower limit only. -/
theorem share_eq_zero {out : AnalogOut} (apart : out.status.tempLower < out.status.tempUpper)
    {realTemp : ℤ} : out.share realTemp = 0 ↔ realTemp = out.status.tempLower := by
  have different : ((out.status.tempUpper - out.status.tempLower : ℤ) : ℚ) ≠ 0 := by
    exact_mod_cast (sub_pos.mpr apart).ne'
  rw [AnalogOut.share, div_eq_zero_iff, or_iff_left different, Int.cast_eq_zero, sub_eq_zero]

/-- The part of the way is 1 at the upper limit only. -/
theorem share_eq_one {out : AnalogOut} (apart : out.status.tempLower < out.status.tempUpper)
    {realTemp : ℤ} : out.share realTemp = 1 ↔ realTemp = out.status.tempUpper := by
  have different : ((out.status.tempUpper - out.status.tempLower : ℤ) : ℚ) ≠ 0 := by
    exact_mod_cast (sub_pos.mpr apart).ne'
  rw [AnalogOut.share, div_eq_one_iff_eq different, Int.cast_inj, sub_left_inj]

/-- The part of the way grows with the temperature. -/
theorem share_mono {out : AnalogOut} (apart : out.status.tempLower < out.status.tempUpper)
    {cold hot : ℤ} (order : cold ≤ hot) : out.share cold ≤ out.share hot := by
  apply div_le_div_of_nonneg_right
  · exact_mod_cast sub_le_sub_right order _
  · exact_mod_cast (sub_pos.mpr apart).le

/-- Where a result lies, for limits of the status that are apart. -/
theorem convert_cases {out : AnalogOut} (apart : out.status.tempLower < out.status.tempUpper)
    (temp : ℚ) :
    (cut (temp * 100) < out.status.tempLower ∧
        anologTempConvert out temp = some (out.para.type.lowEnd : ℚ)) ∨
      (out.status.tempUpper < cut (temp * 100) ∧
        anologTempConvert out temp = some (out.para.type.highEnd : ℚ)) ∨
      ((out.status.tempLower ≤ cut (temp * 100) ∧ cut (temp * 100) ≤ out.status.tempUpper) ∧
        anologTempConvert out temp =
          some (out.share (cut (temp * 100)) * out.range + out.para.type.lowEnd)) := by
  by_cases below : cut (temp * 100) < out.status.tempLower
  · exact .inl ⟨below, convert_below below⟩
  · by_cases above : out.status.tempUpper < cut (temp * 100)
    · exact .inr (.inl ⟨above, convert_above apart.le above⟩)
    · exact .inr (.inr ⟨⟨not_lt.mp below, not_lt.mp above⟩,
        convert_between apart (not_lt.mp below) (not_lt.mp above)⟩)

/-- Where the law holds, the status agrees with the parameters. -/
theorem law_agreed {out : AnalogOut} (consistent : Consistent out) (law : Law out) :
    Agreed out := by
  have range : (0 : ℚ) < out.range := by exact_mod_cast consistent.range_pos
  have ends : (out.para.type.lowEnd : ℚ) < out.para.type.highEnd := by
    exact_mod_cast ends_apart out.para.type
  have apart : out.status.tempLower < out.status.tempUpper := by
    apply lt_of_le_of_ne consistent.ordered
    intro same
    apply law.defined ((out.status.tempLower : ℚ) / 100)
    simp [anologTempConvert, same]
  have span : (out.range : ℚ) + out.para.type.lowEnd ≤ out.para.type.highEnd := by
    have top := @convert_between out apart ((out.status.tempUpper : ℚ) / 100)
      (by rw [cut_hundredths]; exact apart.le) (by rw [cut_hundredths])
    rw [cut_hundredths, (share_eq_one apart).mpr rfl, one_mul] at top
    exact (law.within _ _ top).2
  refine ⟨apart, ?_, by rw [add_comm]; exact_mod_cast span, ?_⟩
  · have low := law.low _ le_rfl
    obtain ⟨below, -⟩ | ⟨-, high⟩ | ⟨-, part⟩ := convert_cases apart out.para.lower
    · exact below.le
    · exact absurd (Option.some.inj (low.symm.trans high)) ends.ne
    · have nothing := Option.some.inj (low.symm.trans part)
      have start : out.share (cut (out.para.lower * 100)) = 0 := by
        by_contra moved
        have product : out.share (cut (out.para.lower * 100)) * out.range = 0 := by linarith
        exact (mul_ne_zero moved range.ne') product
      exact ((share_eq_zero apart).mp start).le
  · have high := law.high _ le_rfl
    obtain ⟨-, low⟩ | ⟨above, -⟩ | ⟨⟨notBelow, notAbove⟩, part⟩ :=
      convert_cases apart out.para.upper
    · exact absurd (Option.some.inj (low.symm.trans high)) ends.ne
    · exact .inl above
    · have whole := Option.some.inj (high.symm.trans part)
      have atMost := (share_bounds apart notBelow notAbove).2
      have product := mul_le_mul_of_nonneg_right atMost range.le
      have full : (out.range : ℚ) + out.para.type.lowEnd = out.para.type.highEnd := by linarith
      have finished : out.share (cut (out.para.upper * 100)) = 1 := by
        have same : out.share (cut (out.para.upper * 100)) * out.range = 1 * out.range := by
          linarith
        exact mul_right_cancel₀ range.ne' same
      refine .inr ⟨((share_eq_one apart).mp finished).symm, ?_⟩
      rw [add_comm]
      exact_mod_cast full

/-- A result is never outside the span when the span does not pass the upper end. -/
theorem agreed_within {out : AnalogOut} (consistent : Consistent out) (agreed : Agreed out)
    {temp value : ℚ} (result : anologTempConvert out temp = some value) :
    (out.para.type.lowEnd : ℚ) ≤ value ∧ value ≤ out.para.type.highEnd := by
  have range : (0 : ℚ) < out.range := by exact_mod_cast consistent.range_pos
  have ends : (out.para.type.lowEnd : ℚ) < out.para.type.highEnd := by
    exact_mod_cast ends_apart out.para.type
  have span : (out.para.type.lowEnd : ℚ) + out.range ≤ out.para.type.highEnd := by
    exact_mod_cast agreed.span
  obtain ⟨-, low⟩ | ⟨-, high⟩ | ⟨⟨notBelow, notAbove⟩, part⟩ := convert_cases agreed.apart temp
  · cases Option.some.inj (low.symm.trans result)
    exact ⟨le_rfl, ends.le⟩
  · cases Option.some.inj (high.symm.trans result)
    exact ⟨ends.le, le_rfl⟩
  · cases Option.some.inj (part.symm.trans result)
    obtain ⟨atLeast, atMost⟩ := share_bounds agreed.apart notBelow notAbove
    have positive := mul_nonneg atLeast range.le
    have product := mul_le_mul_of_nonneg_right atMost range.le
    constructor <;> linarith

/-- Where the status agrees with the parameters, a result grows with the temperature. -/
theorem agreed_grows {out : AnalogOut} (consistent : Consistent out) (agreed : Agreed out)
    {cold hot colder hotter : ℚ} (order : cold ≤ hot)
    (first : anologTempConvert out cold = some colder)
    (second : anologTempConvert out hot = some hotter) : colder ≤ hotter := by
  have range : (0 : ℚ) < out.range := by exact_mod_cast consistent.range_pos
  have cuts : cut (cold * 100) ≤ cut (hot * 100) := cut_mono (by linarith)
  obtain ⟨-, low⟩ | ⟨above, high⟩ | ⟨⟨notBelow, notAbove⟩, part⟩ := convert_cases agreed.apart cold
  · cases Option.some.inj (low.symm.trans first)
    exact (agreed_within consistent agreed second).1
  · have still := convert_above consistent.ordered (above.trans_le cuts)
    cases Option.some.inj (high.symm.trans first)
    cases Option.some.inj (still.symm.trans second)
    exact le_rfl
  · obtain ⟨below, -⟩ | ⟨-, high⟩ | ⟨-, later⟩ := convert_cases agreed.apart hot
    · exact absurd (notBelow.trans cuts) below.not_ge
    · cases Option.some.inj (high.symm.trans second)
      exact (agreed_within consistent agreed first).2
    · cases Option.some.inj (part.symm.trans first)
      cases Option.some.inj (later.symm.trans second)
      have shares := mul_le_mul_of_nonneg_right (share_mono agreed.apart cuts) range.le
      linarith

/-- Where the status agrees with the parameters, the law holds. -/
theorem agreed_law {out : AnalogOut} (consistent : Consistent out) (agreed : Agreed out) :
    Law out where
  defined := by
    intro temp
    obtain ⟨-, result⟩ | ⟨-, result⟩ | ⟨-, result⟩ := convert_cases agreed.apart temp <;>
      simp [result]
  grows := fun _ _ _ _ order first second => agreed_grows consistent agreed order first second
  low := by
    intro temp cold
    have notAbove : cut (temp * 100) ≤ out.status.tempLower :=
      (cut_mono (by linarith)).trans agreed.lower
    rcases notAbove.lt_or_eq with below | same
    · exact convert_below below
    · rw [convert_between agreed.apart same.ge (same.le.trans agreed.apart.le),
        (share_eq_zero agreed.apart).mpr same, zero_mul, zero_add]
  high := by
    intro temp hot
    have cuts : cut (out.para.upper * 100) ≤ cut (temp * 100) := cut_mono (by linarith)
    rcases agreed.upper with above | ⟨same, whole⟩
    · exact convert_above consistent.ordered (above.trans_le cuts)
    · rcases (same.le.trans cuts).lt_or_eq with above | there
      · exact convert_above consistent.ordered above
      · rw [convert_between agreed.apart (agreed.apart.le.trans there.le) there.ge,
          (share_eq_one agreed.apart).mpr there.symm, one_mul, ← whole]
        push_cast
        rw [add_comm]
  within := fun _ _ result => agreed_within consistent agreed result

/-- The law holds exactly where the status agrees with the parameters. -/
theorem law_iff {out : AnalogOut} (consistent : Consistent out) : Law out ↔ Agreed out :=
  ⟨law_agreed consistent, agreed_law consistent⟩

/-- What steps that keep the agreement preserve: the whole span, and no limit of the
parameters on the wrong side of the one in the status. -/
structure Kept (out : AnalogOut) : Prop where
  consistent : Consistent out
  apart : out.status.tempLower < out.status.tempUpper
  lower : cut (out.para.lower * 100) ≤ out.status.tempLower
  upper : out.status.tempUpper ≤ cut (out.para.upper * 100)
  span : out.para.type.lowEnd + out.range = out.para.type.highEnd

/-- With the whole span the status agrees with the parameters. -/
theorem kept_agreed {out : AnalogOut} (kept : Kept out) : Agreed out where
  apart := kept.apart
  lower := kept.lower
  span := kept.span.le
  upper := kept.upper.lt_or_eq.imp_right fun same => ⟨same, kept.span⟩

/-- The spans that are brought up to date are whole. -/
theorem threshold_span {out : AnalogOut} :
    (anaThresholdRange out).para.type.lowEnd + (anaThresholdRange out).range =
      (anaThresholdRange out).para.type.highEnd := by
  cases type : out.para.type <;>
    simp [anaThresholdRange, AnalogOut.range, type, AnaType.lowEnd, AnaType.highEnd]

/-- `anolog_out_init` with limits that differ in hundredths brings everything up to date. -/
theorem init_kept {out : AnalogOut}
    (current : 0 < out.status.currentRange ∨ out.para.type ≠ .zero10V)
    (ordered : out.para.lower ≤ out.para.upper)
    (apart : cut (out.para.lower * 100) < cut (out.para.upper * 100)) :
    Kept (anologOutInit out) where
  consistent := init_consistent ordered current
  apart := apart
  lower := le_rfl
  upper := le_rfl
  span := threshold_span

/-- A number of degrees in hundredths. -/
theorem cut_disValue (disValue : ℤ) : cut ((disValue : ℚ) * 100) = 100 * disValue := by
  rw [mul_comm]
  exact_mod_cast @cut_intCast ℚ _ _ _ _ (100 * disValue)

/-- A step that keeps the agreement does so. -/
theorem step_kept (temp : TempPara) (out : AnalogOut) (event : Event) (kept : Kept out)
    (keeps : Keeps temp out event) : Kept (step temp out event) := by
  have consistent := step_consistent temp out event kept.consistent
  cases event with
  | AM type =>
    simp only [step] at consistent ⊢
    split
    · exact kept
    case isFalse current =>
      rw [if_neg current] at consistent
      exact ⟨consistent, kept.apart, kept.lower, kept.upper, threshold_span⟩
  | AL value =>
    simp only [step]
    split
    · exact kept
    case h_2 stored accepted =>
      split
      · exact kept
      case isFalse ordered =>
        have inOrder := not_lt.mp ordered
        exact init_kept (.inl kept.consistent.current) inOrder (keeps stored accepted inOrder)
  | AH value =>
    simp only [step]
    split
    · exact kept
    case h_2 stored accepted =>
      split
      · exact kept
      case isFalse ordered =>
        have inOrder := not_lt.mp ordered
        exact init_kept (.inl kept.consistent.current) inOrder (keeps stored accepted inOrder)
  | doAnalogMode type =>
    refine ⟨consistent, kept.apart, kept.lower, kept.upper, ?_⟩
    have voltage := kept.consistent.voltage
    cases type with
    | zero20mA => exact keeps.resolve_left (by decide)
    | four20mA => exact keeps.resolve_left (by decide)
    | zero10V =>
      simp only [step, AnalogOut.range, AnaType.lowEnd, AnaType.highEnd]
      omega
  | doAnalogOutLow disValue =>
    refine ⟨consistent, kept.apart, ?_, kept.upper, kept.span⟩
    change cut ((disValue : ℚ) * 100) ≤ out.status.tempLower
    rw [cut_disValue]
    exact keeps
  | doAnalogOutHigh disValue =>
    refine ⟨consistent, kept.apart, kept.lower, ?_, kept.span⟩
    change out.status.tempUpper ≤ cut ((disValue : ℚ) * 100)
    rw [cut_disValue]
    exact keeps

/-- The limits of the default configuration in hundredths. -/
theorem boot_kept : Kept boot := by
  apply init_kept (.inr (by decide)) (by norm_num)
  have lower := cut_disValue 800
  have upper := cut_disValue 2800
  push_cast at lower upper
  simp only [lower, upper]
  decide

/-- After every sequence of commands and panel edits the law holds exactly if the status
agrees with the parameters; and it does after every sequence whose steps all keep that
agreement. -/
theorem analog_law (temp : TempPara) (events : List Event) :
    let out := run (step temp) boot events
    (Law out ↔ Agreed out) ∧ (Along (step temp) (Keeps temp) boot events → Law out) := by
  intro out
  refine ⟨law_iff (run_consistent temp events), fun keeps => ?_⟩
  have kept := along_invariant (step temp) (step_kept temp) boot boot_kept events keeps
  exact agreed_law kept.consistent (kept_agreed kept)

/-- `AM` takes the output to 0 to 20 mA, and the law holds. -/
theorem mode_command_law :
    Law (run (step defaultTemp) boot [.AM .zero20mA]) :=
  (analog_law defaultTemp [.AM .zero20mA]).2 ⟨True.intro, True.intro⟩

/-- The panel takes the output from 4 to 20 mA to 0 to 20 mA. The span stays at 16 mA, so
that 16 mA are put out at the upper limit. -/
theorem mode_page_breaks_law :
    ¬ ∀ (temp : TempPara) (events : List Event), Law (run (step temp) boot events) := by
  intro always
  have agreed := law_agreed (run_consistent defaultTemp _)
    (always defaultTemp [.doAnalogMode .zero20mA])
  rcases agreed.upper with above | ⟨-, whole⟩
  · exact lt_irrefl _ above
  · exact absurd whole (by decide)

end Pyrometer.AnalogOutput
