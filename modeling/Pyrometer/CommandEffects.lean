import Pyrometer.CommandExecution
import Pyrometer.ParameterLoading

/-!
# What a set command may touch

The bytes that the callback of a set command assigns, command by command: members of
the two structures, the places that a coefficient text names, and the magic and
checksum words when a group is saved. All other bytes are kept.

A change is described by the objects it is confined to. Confinement composes along a
sequence of assignments, so each function of the callback needs one lemma.
-/

namespace Pyrometer.CommandEffects

open ByteMemory CommandTable ParameterLayout ParameterManager ParameterChecks ParameterLoading
open InstrumentState AlgorithmCommands UppParser CommandExecution Instrument

/-- An address of one of the structures lies in one of some objects. -/
def Within (targets : List Target) (region : Region) (address : Nat) : Prop :=
  ∃ target ∈ targets, target.region = region ∧ target.offset ≤ address ∧
    address < target.offset + target.size

instance (targets : List Target) (region : Region) (address : Nat) :
    Decidable (Within targets region address) :=
  inferInstanceAs (Decidable (∃ target ∈ targets, _))

/-- Only bytes of some objects differ. -/
def Confined (targets : List Target) (before after : Instrument) : Prop :=
  ∀ region address, ¬Within targets region address →
    after.region region address = before.region region address

/-- An object shares no byte with some objects. -/
def Apart (targets : List Target) (target : Target) : Prop :=
  ∀ other ∈ targets, other.region ≠ target.region ∨ other.offset + other.size ≤ target.offset ∨
    target.offset + target.size ≤ other.offset

instance (targets : List Target) (target : Target) : Decidable (Apart targets target) :=
  inferInstanceAs (Decidable (∀ other ∈ targets, _))

/-- The magic word. -/
def magicTarget : Target := ⟨.para, 0, 4⟩

/-- The checksum words. -/
def crcTarget : Target := ⟨.para, crcOffset, 28⟩

/-- The members that the callback of a command assigns, itself or in a function that it
calls for this command. -/
def assigned : CmdId → List Member
  | .cmdRs => [.sysOpValid]
  | .cmdPr => [.sysOpValid]
  | .cmdBr => [.portBaudrate]
  | .cmdAt => [.anaTempConvertFlag]
  | .cmdAl => [.anaCurtValue, .anaVoltValue]
  | .cmdAh => [.anaCurtValue, .anaVoltValue]
  | .cmdIl => [.anaCurtValue, .anaVoltValue]
  | .cmdIh => [.anaCurtValue, .anaVoltValue]
  | .cmdCa => [.tempTransWb, .tempTransNb, .tempSlope, .ratioTempNerve]
  | .cmdEm => [.videoCtlState, .videoCtlVal]
  | .cmdEv => [.videoCtlState, .videoCtlVal]
  | .cmdBn => [.videoCtlState, .videoCtlVal]
  | .cmdBl => [.videoCtlState, .videoCtlVal]
  | .cmdGn => [.videoCtlState, .videoCtlVal]
  | _ => []

/-- The places that a coefficient text is loaded into. -/
def loaded (id : CmdId) (raw : List Byte) : List Target :=
  if isCoefCmd id then
    ((coefLoad id raw).getD []).map (fun write => ⟨.para, write.1, write.2.length⟩)
  else []

/-- The words that a save writes. -/
def sealed : List Target := [magicTarget, crcTarget]

/-- Everything that the switch of the callback may touch. -/
def effectTargets (id : CmdId) (raw : List Byte) : List Target :=
  (assigned id).map Member.target ++ loaded id raw ++ (if id = .cmdCa then sealed else [])

/-- Objects of a list lie in every list that contains them. -/
theorem within_mono {small large : List Target} (contained : small ⊆ large) {region : Region}
    {address : Nat} (inside : Within small region address) : Within large region address := by
  obtain ⟨target, member, place⟩ := inside
  exact ⟨target, contained member, place⟩

/-- Nothing has changed. -/
theorem confined_refl (targets : List Target) (instrument : Instrument) :
    Confined targets instrument instrument := fun _ _ _ => rfl

/-- Two changes in turn. -/
theorem confined_trans {targets : List Target} {first second third : Instrument}
    (left : Confined targets first second) (right : Confined targets second third) :
    Confined targets first third :=
  fun region address outside => (right region address outside).trans (left region address outside)

/-- A change that is confined to some objects is confined to more. -/
theorem confined_mono {small large : List Target} (contained : small ⊆ large)
    {before after : Instrument} (confined : Confined small before after) :
    Confined large before after :=
  fun region address outside => confined region address (fun inside =>
    outside (within_mono contained inside))

/-- Instruments with the same structures. -/
theorem confined_same {targets : List Target} {before after : Instrument}
    (para : after.pmm.sysPara = before.pmm.sysPara) (state : after.sysState = before.sysState) :
    Confined targets before after := by
  intro region address _
  cases region with
  | para => exact congrFun para address
  | state => exact congrFun state address

/-- Bytes of an object are not among those of objects apart from it. -/
theorem apart_outside {targets : List Target} {target : Target} (apart : Apart targets target)
    {address : Nat} (low : target.offset ≤ address)
    (high : address < target.offset + target.size) : ¬Within targets target.region address := by
  rintro ⟨other, member, region, above, below⟩
  rcases apart other member with different | before | behind
  · exact different region
  · omega
  · omega

/-- A member apart from a change keeps its bytes. -/
theorem bytes_kept {targets : List Target} {before after : Instrument}
    (confined : Confined targets before after) {member : Member}
    (apart : Apart targets member.target) : after.bytes member = before.bytes member :=
  to_list_congr (fun _ low high => confined _ _ (apart_outside apart low high))

/-- A member apart from a change keeps its number. -/
theorem value_kept {targets : List Target} {before after : Instrument}
    (confined : Confined targets before after) {member : Member}
    (apart : Apart targets member.target) : after.value member = before.value member :=
  congrArg littleEndian (bytes_kept confined apart)

/-- The bytes of a structure after a store. -/
theorem store_region (instrument : Instrument) (start : Nat) (bytes : List Byte)
    (written region : Region) (address : Nat) :
    (instrument.store start bytes written).region region address =
      if region = written ∧ start ≤ address ∧ address < start + bytes.length then
        bytes.getD (address - start) 0
      else instrument.region region address := by
  cases written <;> cases region <;>
    simp only [store, Instrument.region, reduceCtorEq, false_and, if_false, true_and, overlay,
      ofList]

/-- Of two stores to one place the second one counts. -/
theorem store_again (instrument : Instrument) (start : Nat) (first second : List Byte)
    (region : Region) (same : first.length = second.length) :
    (instrument.store start first region).store start second region =
      instrument.store start second region := by
  cases region <;> simp only [store, same, overlay_again]

/-- A store is undone by the bytes that were there. -/
theorem store_restore (instrument : Instrument) (start : Nat) (bytes : List Byte)
    (region : Region) :
    (instrument.store start bytes region).store start
      (toList (instrument.region region) start bytes.length) region = instrument := by
  cases region <;> simp only [store, Instrument.region, to_list_length, overlay_restore]

/-- What a store leaves at its place. -/
theorem store_read (instrument : Instrument) (start : Nat) (bytes : List Byte) (region : Region) :
    toList ((instrument.store start bytes region).region region) start bytes.length = bytes := by
  cases region <;> exact to_list_overlay _ bytes start

/-- What an assignment leaves in its member. -/
@[simp] theorem put_bytes (instrument : Instrument) (member : Member) (value : Nat) :
    (instrument.put member value).bytes member = leBytes member.target.size value := by
  have read := store_read instrument member.target.offset (leBytes member.target.size value)
    member.target.region
  rw [le_bytes_length] at read
  exact read

/-- Structures whose changed objects have their old bytes are the old ones. -/
theorem confined_equal {targets : List Target} {before after : Instrument}
    (confined : Confined targets before after)
    (same : ∀ target ∈ targets, toList (after.region target.region) target.offset target.size =
      toList (before.region target.region) target.offset target.size)
    (region : Region) (address : Nat) :
    after.region region address = before.region region address := by
  by_cases inside : Within targets region address
  · obtain ⟨target, member, rfl, low, high⟩ := inside
    exact agree_of_to_list (same target member) address low high
  · exact confined region address inside

/-- A store is confined to its place. -/
theorem confined_store (instrument : Instrument) (start : Nat) (bytes : List Byte)
    (region : Region) :
    Confined [⟨region, start, bytes.length⟩] instrument (instrument.store start bytes region) := by
  intro other address outside
  rw [store_region]
  refine if_neg (fun inside => outside ⟨_, List.mem_singleton_self _, ?_⟩)
  exact ⟨inside.1.symm, inside.2.1, inside.2.2⟩

/-- An assignment is confined to its member. -/
theorem confined_put (instrument : Instrument) (member : Member) (value : Nat) :
    Confined [member.target] instrument (instrument.put member value) := by
  have confined := confined_store instrument member.target.offset
    (leBytes member.target.size value) member.target.region
  rw [le_bytes_length] at confined
  exact confined

/-- The running parameters after a group was saved. -/
theorem pmm_save_group_para (group : ParaType) (pmm : Pmm) :
    (pmmSaveGroup group pmm).sysPara = paraRecalculateAllCrc (paraRecalculateAllCrc
      (setMagic (setCrc pmm.sysPara group (groupCrc pmm.sysPara group)))) :=
  (para_save_ram .backup _ _).sysPara.trans
    (congrArg paraRecalculateAllCrc (para_save_ram .user _ _).sysPara)

/-- Saving a group is confined to the magic and the checksum words. -/
theorem confined_save (instrument : Instrument) (group : ParaType) :
    Confined sealed instrument (instrument.saveGroup group) := by
  intro region address outside
  cases region with
  | state => rfl
  | para =>
    have aboveMagic : 4 ≤ address := by
      by_contra below
      exact outside ⟨magicTarget, by simp [sealed], rfl, Nat.zero_le _, by
        simp only [magicTarget]
        omega⟩
    have noWord : address < crcOffset ∨ sizeofSysPara ≤ address := by
      by_contra word
      refine outside ⟨crcTarget, by simp [sealed], rfl, ?_, ?_⟩ <;>
        simp only [crcTarget, crcOffset, sizeofSysPara] at * <;> omega
    have recalculated : ∀ para : Mem, paraRecalculateAllCrc para address = para address := by
      intro para
      exact ((recalculate_loop ParaType.all (setMagic para) all_nodup).1 address noWord).trans
        (set_magic_above para address aboveMagic)
    have word := crc_word_bounds group
    show (pmmSaveGroup group instrument.pmm).sysPara address = instrument.pmm.sysPara address
    rw [pmm_save_group_para, recalculated, recalculated, set_magic_above _ _ aboveMagic, setCrc,
      overlay_outside]
    omega

/-- Assignments to two members. -/
theorem confined_puts (instrument : Instrument) (first second : Member) (one two : Nat) :
    Confined [first.target, second.target] instrument
      ((instrument.put first one).put second two) :=
  confined_trans (confined_mono (by simp) (confined_put instrument first one))
    (confined_mono (by simp) (confined_put _ second two))

/-- `pc_init` assigns the rate at most. -/
theorem confined_pc_init (instrument : Instrument) :
    Confined [Member.portBaudrate.target] instrument (pcInit instrument) := by
  rw [pcInit]
  split_ifs
  · exact confined_same rfl rfl
  · exact confined_trans (confined_put instrument .portBaudrate 115200) (confined_same rfl rfl)

/-- The calibration of the output assigns the two values of the outputs. -/
theorem confined_calib_para (instrument : Instrument) :
    Confined [Member.anaCurtValue.target, Member.anaVoltValue.target] instrument
      (getCalibPara instrument) := by
  have auto := confined_puts instrument .anaCurtValue .anaVoltValue anaOutAuto anaOutAuto
  rw [getCalibPara]
  split_ifs
  · exact confined_trans auto (confined_same rfl rfl)
  · exact confined_trans auto (confined_same rfl rfl)

/-- Starting the analog output assigns the two values of the outputs. -/
theorem confined_anolog_out_init (instrument : Instrument) :
    Confined [Member.anaCurtValue.target, Member.anaVoltValue.target] instrument
      (anologOutInit instrument) := by
  have auto : Confined [Member.anaCurtValue.target, Member.anaVoltValue.target] instrument
      (anaAuto instrument) :=
    confined_puts instrument .anaCurtValue .anaVoltValue anaOutAuto anaOutAuto
  rw [anologOutInit]
  refine confined_trans (confined_trans auto ?_) (confined_calib_para _)
  exact confined_same rfl rfl

/-- One trial of a calibration assigns what is searched and the temperature of the network. -/
theorem confined_measure (around : Surroundings) (goal : Calibrated) (instrument : Instrument)
    (value : Nat) :
    Confined [goal.member.target, Member.ratioTempNerve.target] instrument
      (measure around (instrument.put goal.member value) goal).2 := by
  have placed := confined_put instrument goal.member value
  cases goal with
  | trans channel => exact confined_mono (by simp) placed
  | slope => exact confined_puts instrument .tempSlope .ratioTempNerve value _

/-- A calibration assigns what is searched, the temperature of the network and, at its end,
the words of a save. -/
theorem confined_calibrate_loop (around : Surroundings) (goal : Calibrated) (left : Nat)
    (trial : Trial) (instrument : Instrument) :
    Confined ([goal.member.target, Member.ratioTempNerve.target] ++ sealed) instrument
      (calibrateLoop around goal left trial instrument).2 := by
  induction left generalizing trial instrument with
  | zero => exact confined_refl _ _
  | succ left inductionHypothesis =>
    have tried := confined_mono (List.subset_append_left _ sealed)
      (confined_measure around goal instrument trial.midValue)
    simp only [calibrateLoop]
    split_ifs
    · exact confined_trans tried (confined_mono (List.subset_append_right _ sealed)
        (confined_save _ .temp))
    · exact confined_trans tried (inductionHypothesis _ _)

/-- A calibration that succeeds ends with a save of what its trials left. -/
theorem calibrate_loop_saved (around : Surroundings) (goal : Calibrated) (left : Nat)
    (trial : Trial) (instrument after : Instrument)
    (found : calibrateLoop around goal left trial instrument = (true, after)) :
    ∃ base, Confined [goal.member.target, Member.ratioTempNerve.target] instrument base ∧
      after = base.saveGroup .temp := by
  induction left generalizing trial instrument with
  | zero => cases found
  | succ left inductionHypothesis =>
    have tried := confined_measure around goal instrument trial.midValue
    simp only [calibrateLoop] at found
    split_ifs at found
    · exact ⟨_, tried, (congrArg Prod.snd found).symm⟩
    · obtain ⟨base, confined, saved⟩ := inductionHypothesis _ _ found
      exact ⟨base, confined_trans tried confined, saved⟩

/-- A calibration keeps to the members that it may assign. -/
theorem confined_calibrate (around : Surroundings) (instrument : Instrument) :
    Confined (effectTargets .cmdCa []) instrument (calibrateTemperature around instrument).2 := by
  rw [calibrateTemperature]
  cases calibrated around (instrument.value .tempMode % 256) with
  | none => exact confined_refl _ _
  | some goal =>
    refine confined_mono ?_ (confined_calibrate_loop around goal 50 _ instrument)
    cases goal with
    | trans channel => cases channel <;> decide
    | slope => decide

/-- Loading coefficients is confined to their places. -/
theorem confined_store_all (instrument : Instrument) (writes : List (Nat × List Byte)) :
    Confined (writes.map (fun write => ⟨.para, write.1, write.2.length⟩)) instrument
      (storeAll instrument writes) := by
  induction writes generalizing instrument with
  | nil => exact confined_refl _ _
  | cons write rest inductionHypothesis =>
    refine confined_trans
      (confined_mono (by simp) (confined_store instrument write.1 write.2 .para))
      (confined_mono (List.subset_cons_self _ _) (inductionHypothesis _))

/-- Camera requests assign the two members of the request. -/
theorem confined_uvc (instrument : Instrument) (request : Nat) :
    Confined [Member.videoCtlState.target, Member.videoCtlVal.target] instrument
      (uvcControl instrument request) :=
  confined_puts instrument .videoCtlState .videoCtlVal 1 request

/-- The callback of a coefficient command: the text is loaded, or nothing happens. -/
theorem set_effect_coef (around : Surroundings) (parse : Parse) (instrument : Instrument)
    (id : CmdId) (coef : isCoefCmd id = true) :
    setEffect around parse instrument id =
      match coefLoad id (raw parse) with
      | none => (false, instrument)
      | some writes => (true, storeAll instrument writes) := by
  cases id <;> first | rfl | cases coef

/-- Loading a coefficient text is confined to the places that it names. -/
theorem confined_load (around : Surroundings) (parse : Parse) (instrument : Instrument)
    (id : CmdId) (coef : isCoefCmd id = true) :
    Confined (effectTargets id (raw parse)) instrument
      (setEffect around parse instrument id).2 := by
  rw [set_effect_coef around parse instrument id coef]
  cases load : coefLoad id (raw parse) with
  | none => exact confined_refl _ _
  | some writes =>
    refine confined_mono ?_ (confined_store_all instrument writes)
    rw [effectTargets, loaded, if_pos coef, load]
    intro target member
    exact List.mem_append_left _ (List.mem_append_right _ member)

/-- The switch of the callback touches only what the command may. -/
theorem set_effect_confined (around : Surroundings) (parse : Parse) (instrument : Instrument)
    (id : CmdId) :
    Confined (effectTargets id (raw parse)) instrument
      (setEffect around parse instrument id).2 := by
  cases id
  case cmdRs => exact confined_put instrument .sysOpValid 1
  case cmdPr => exact confined_put instrument .sysOpValid 1
  case cmdBr =>
    rw [setEffect]
    split_ifs
    · exact confined_pc_init instrument
    · exact confined_trans (confined_put instrument .portBaudrate 115200) (confined_pc_init _)
  case cmdAt => exact confined_put instrument .anaTempConvertFlag 1
  case cmdAl =>
    rw [setEffect]
    split_ifs
    · exact confined_anolog_out_init instrument
    · exact confined_refl _ _
  case cmdAh =>
    rw [setEffect]
    split_ifs
    · exact confined_anolog_out_init instrument
    · exact confined_refl _ _
  case cmdIl => exact confined_calib_para instrument
  case cmdIh => exact confined_calib_para instrument
  case cmdCa => exact confined_calibrate around instrument
  case cmdEm => exact confined_uvc instrument 1
  case cmdEv => exact confined_uvc instrument 2
  case cmdBn => exact confined_uvc instrument 3
  case cmdBl => exact confined_uvc instrument 4
  case cmdGn => exact confined_uvc instrument 5
  case cmdDp =>
    rw [setEffect, debugPort]
    split_ifs
    · exact confined_same rfl rfl
    · exact confined_same rfl rfl
  case cmdRq =>
    rw [setEffect]
    split_ifs
    · exact confined_same rfl rfl
    · exact confined_refl _ _
  case cmdV =>
    rw [setEffect, burstSwitch]
    split_ifs <;> exact confined_same rfl rfl
  case cmdAp => exact confined_load around parse instrument .cmdAp rfl
  case cmdNwa => exact confined_load around parse instrument .cmdNwa rfl
  case cmdNwb => exact confined_load around parse instrument .cmdNwb rfl
  case cmdNb => exact confined_load around parse instrument .cmdNb rfl
  all_goals exact confined_same rfl rfl

end Pyrometer.CommandEffects
