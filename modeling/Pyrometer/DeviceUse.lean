import Pyrometer.ParameterPersistence
import Pyrometer.SetCommands

/-!
# A device in use

A device has started on chips with any contents and has executed commands since.
Between the commands other tasks may change anything in RAM; the chips are written by
the parameter manager alone. Chips that work go on working in such a run, so what the
manager saves can be relied on in every state that a device reaches.
-/

namespace Pyrometer.DeviceUse

open ByteMemory CommandTable ParameterLayout ParameterManager ParameterLoading ParameterSaving
open ParameterRepair InstrumentState AlgorithmCommands UppParser UppLines CommandExecution
open UppStream CommandReplies CommandEffects SetCommands Instrument

/-- A device in use. -/
inductive Reachable : Instrument → Prop where
  | started (instrument : Instrument) (chips : Chips)
      (booted : instrument.pmm = paraInit delivered (Pmm.powerUp chips)) : Reachable instrument
  | commanded {instrument : Instrument} (around : Surroundings) (line : List Byte)
      (reached : Reachable instrument) : Reachable (answerLine around line instrument).2
  | changed {instrument after : Instrument} (reached : Reachable instrument)
      (flash : after.pmm.fmc = instrument.pmm.fmc)
      (cells : after.pmm.eeprom = instrument.pmm.eeprom) : Reachable after

/-- A save leaves chips that work. -/
theorem save_group_sound {instrument : Instrument} (sound : instrument.pmm.Sound)
    (group : ParaType) : (instrument.saveGroup group).pmm.Sound :=
  (group_save group instrument.pmm sound).sound

/-- A store leaves the chips alone. -/
theorem store_sound {instrument : Instrument} (sound : instrument.pmm.Sound) (start : Nat)
    (bytes : List Byte) (region : Region) : (instrument.store start bytes region).pmm.Sound := by
  cases region <;> exact sound

/-- An assignment leaves the chips alone. -/
theorem put_sound {instrument : Instrument} (sound : instrument.pmm.Sound) (member : Member)
    (value : Nat) : (instrument.put member value).pmm.Sound := store_sound sound _ _ _

/-- Loading coefficients leaves the chips alone. -/
theorem store_all_sound {instrument : Instrument} (sound : instrument.pmm.Sound)
    (writes : List (Nat × List Byte)) : (storeAll instrument writes).pmm.Sound := by
  induction writes generalizing instrument with
  | nil => exact sound
  | cons write rest inductionHypothesis =>
    exact inductionHypothesis (store_sound sound write.1 write.2 .para)

/-- A trial of a calibration leaves the chips alone. -/
theorem measure_sound (around : Surroundings) (goal : Calibrated) {instrument : Instrument}
    (sound : instrument.pmm.Sound) : (measure around instrument goal).2.pmm.Sound := by
  cases goal with
  | trans channel => exact sound
  | slope => exact put_sound sound .ratioTempNerve _

/-- A calibration saves at most. -/
theorem calibrate_loop_sound (around : Surroundings) (goal : Calibrated) (left : Nat)
    (trial : Trial) {instrument : Instrument} (sound : instrument.pmm.Sound) :
    (calibrateLoop around goal left trial instrument).2.pmm.Sound := by
  induction left generalizing trial instrument with
  | zero => exact sound
  | succ left inductionHypothesis =>
    have tried := measure_sound around goal (put_sound sound goal.member trial.midValue)
    simp only [calibrateLoop]
    split_ifs
    · exact save_group_sound tried .temp
    · exact inductionHypothesis _ tried

/-- `pc_init` leaves the chips alone. -/
theorem pc_init_sound {instrument : Instrument} (sound : instrument.pmm.Sound) :
    (pcInit instrument).pmm.Sound := by
  rw [pcInit]
  split_ifs
  · exact sound
  · exact put_sound sound .portBaudrate 115200

/-- Automatic control leaves the chips alone. -/
theorem auto_sound {instrument : Instrument} (sound : instrument.pmm.Sound) :
    (anaAuto instrument).pmm.Sound :=
  put_sound (put_sound sound .anaCurtValue anaOutAuto) .anaVoltValue anaOutAuto

/-- The calibration of the output leaves the chips alone. -/
theorem calib_para_sound {instrument : Instrument} (sound : instrument.pmm.Sound) :
    (getCalibPara instrument).pmm.Sound := by
  rw [getCalibPara]
  split_ifs <;> exact auto_sound sound

/-- Starting the analog output leaves the chips alone. -/
theorem anolog_out_init_sound {instrument : Instrument} (sound : instrument.pmm.Sound) :
    (anologOutInit instrument).pmm.Sound :=
  calib_para_sound (auto_sound sound)

/-- The switch of the callback leaves chips that work. -/
theorem set_effect_sound (around : Surroundings) (parse : Parse) {instrument : Instrument}
    (sound : instrument.pmm.Sound) (id : CmdId) :
    (setEffect around parse instrument id).2.pmm.Sound := by
  have coefficients : isCoefCmd id = true →
      (setEffect around parse instrument id).2.pmm.Sound := by
    intro coef
    rw [set_effect_coef around parse instrument id coef]
    cases coefLoad id (raw parse) with
    | none => exact sound
    | some writes => exact store_all_sound sound writes
  cases id
  case cmdBr =>
    rw [setEffect]
    split_ifs
    · exact pc_init_sound sound
    · exact pc_init_sound (put_sound sound .portBaudrate 115200)
  case cmdDp =>
    rw [setEffect, debugPort]
    split_ifs <;> exact sound
  case cmdAl =>
    rw [setEffect]
    split_ifs
    · exact anolog_out_init_sound sound
    · exact sound
  case cmdAh =>
    rw [setEffect]
    split_ifs
    · exact anolog_out_init_sound sound
    · exact sound
  case cmdIl => exact calib_para_sound sound
  case cmdIh => exact calib_para_sound sound
  case cmdCa =>
    rw [setEffect, calibrateTemperature]
    cases calibrated around (instrument.value .tempMode % 256) with
    | none => exact sound
    | some goal => exact calibrate_loop_sound around goal 50 _ sound
  case cmdRq =>
    rw [setEffect]
    split_ifs <;> exact sound
  case cmdV =>
    rw [setEffect, burstSwitch]
    split_ifs <;> exact sound
  case cmdAp => exact coefficients rfl
  case cmdNwa => exact coefficients rfl
  case cmdNwb => exact coefficients rfl
  case cmdNb => exact coefficients rfl
  all_goals exact sound

/-- A query leaves the chips alone. -/
theorem execute_get_sound (parse : Parse) (item : CmdItem) {instrument : Instrument}
    (sound : instrument.pmm.Sound) : (executeGet parse item instrument).2.pmm.Sound := by
  rw [executeGet]
  split_ifs
  · cases algoGet instrument.pmm.sysPara <;> exact sound
  · exact sound
  · cases uvcRequest item.id <;> exact sound

/-- A command leaves chips that work. -/
theorem answer_line_sound (around : Surroundings) (line : List Byte) {instrument : Instrument}
    (sound : instrument.pmm.Sound) : (answerLine around line instrument).2.pmm.Sound := by
  rcases line_cases around instrument line with
    ⟨parsed, item, bytes, attempt⟩ | ⟨parsed, read, query⟩ | ⟨err, silent, _⟩
  · have after := set_effect_sound around (parsedLine parsed)
      (store_sound sound item.arg.target.offset bytes item.arg.target.region) item.id
    rcases called : setEffect around (parsedLine parsed) (written instrument item bytes) item.id
      with ⟨success, left⟩
    rw [← written, called] at after
    cases success with
    | true =>
      rw [answer_accepted around attempt called, kept]
      split_ifs
      · exact save_group_sound after item.group
      · exact after
    | false =>
      rw [answer_refused around attempt called]
      exact store_sound after _ _ _
  · rcases query_cases around read query with ⟨err, silent⟩ | ⟨item, row, pollable⟩
    · rw [silent]
      exact sound
    · have got := execute_get_sound (parsedLine parsed) item sound
      rw [answer_query around read query row pollable]
      rcases result : executeGet (parsedLine parsed) item instrument with ⟨filled | err, left⟩ <;>
        rw [result] at got <;> exact got
  · rw [silent]
    exact sound

/-- `para_init` leaves chips that work. -/
theorem para_init_sound {pmm : Pmm} (sound : pmm.Sound) : (paraInit delivered pmm).Sound := by
  have saved : ∀ (type : StorageType) (state : BitVec 32) {pmm : Pmm}, pmm.Sound →
      (paraSaveToStorage type state pmm).2.Sound := by
    intro type state pmm before
    obtain ⟨after, call, effect⟩ := para_save_sound type state pmm before
    rw [call]
    exact effect.sound
  have repaired : ∀ (type : StorageType) {pmm : Pmm}, pmm.Sound →
      (repairArea type pmm).Sound := by
    intro type pmm before
    rw [repairArea]
    split_ifs
    · exact saved type _ before
    · exact before
  have loaded := loaded_sound sound
  have stage : (repairStage (loadAreas delivered pmm)).Sound := by
    rw [repairStage]
    split_ifs
    · exact saved .backup wholeMask loaded
    · exact loaded
    · exact repaired .backup (repaired .user loaded)
  rw [paraInit]
  generalize repairStage (loadAreas delivered pmm) = last at stage
  rw [addrStage]
  split_ifs
  · exact (group_save .dev { last with sysPara := setDefaultAddr last.sysPara } stage).sound
  · exact stage

/-- The chips of a device in use work. -/
theorem reachable_sound {instrument : Instrument} (reachable : Reachable instrument) :
    instrument.pmm.Sound := by
  induction reachable with
  | started instrument chips booted =>
    rw [booted]
    exact para_init_sound (power_up_sound chips)
  | commanded around line reached inductionHypothesis =>
    exact answer_line_sound around line inductionHypothesis
  | changed reached flash cells inductionHypothesis =>
    rw [Pmm.Sound, flash, cells]
    exact inductionHypothesis

/-- A device that has started on chips with some contents, with a cleared `sys_state`. -/
def startedOn (chips : Chips) : Instrument :=
  { defaultInstrument with pmm := paraInit delivered (Pmm.powerUp chips) }

/-- It is in use. -/
theorem started_reachable (chips : Chips) : Reachable (startedOn chips) :=
  Reachable.started (startedOn chips) chips rfl

end Pyrometer.DeviceUse
