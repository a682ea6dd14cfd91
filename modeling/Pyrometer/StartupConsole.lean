import Pyrometer.CText
import Pyrometer.ParameterPersistence

/-!
# The debug console of a start

Before the parameters are loaded, the bootloader and the application each read the settings of
their debug console straight out of the user area, with a check of the port group only, and fall
back on constants of their own. Here that reading meets the parameter manager: over any sequence of
edits, operations and restarts both programs come up with the settings that were last written to
the user area, and these are the ones that `para_init` loads later.

Of `dbg_init` the level and the rate are kept, which the output functions use.
-/

namespace Pyrometer.StartupConsole

open ByteMemory CText BitMasks ParameterLayout DefaultParameters ParameterManager
open ParameterChecks ParameterLoading ParameterSaving ParameterRepair Runs
open ParameterPersistence (writesUser step_user_current restore_to_factory_cases both_saved)

/-- The members of `port_para_t` that `powerup_uart_para_get` sets. -/
structure PortPara where
  mode : Byte
  baudrate : Nat
  dbgPort : Byte
  dbgLevel : List Byte
  deriving DecidableEq

/-- These members of a parameter structure. -/
def portPara (para : Mem) : PortPara where
  mode := para (ParaType.offset .port)
  baudrate := littleEndian (toList para (ParaType.offset .port + 5) 4)
  dbgPort := para (ParaType.offset .port + 41)
  dbgLevel := toList para (ParaType.offset .port + 9) 32

/-- `powerup_uart_para_get`, which both programs have a copy of. -/
def powerupUartParaGet (flash : Mem) : Option PortPara :=
  let bspPara := window flash (StorageType.address .user)
  if storedCrc bspPara .port ≠ groupCrc bspPara .port then none else some (portPara bspPara)

/-- `dbg_level`, `put_port` and the rate of the console. -/
structure Debug where
  dbgLevel : List Byte
  putPort : Byte
  rate : Nat
  deriving DecidableEq

/-- `DBG_LEN_MAX`. -/
def dbgLenMax : Nat := 32

/-- `dbg_init`. -/
def dbgInit (level : List Byte) (rate : Nat) (debug : Debug) : Debug :=
  { debug with dbgLevel := cString (level.take (dbgLenMax - 1)), rate := rate }

/-- `DBG_LEVEL_INFO`. -/
def dbgLevelInfo : List Byte := ascii "5"

/-- `LIB_IO_RATE`. -/
def libIoRate : Nat := 115200

/-- `boot_startup_info`. -/
def bootStartupInfo (flash : Mem) (debug : Debug) : Debug :=
  match powerupUartParaGet flash with
  | none => dbgInit dbgLevelInfo libIoRate debug
  | some para => dbgInit para.dbgLevel para.baudrate { debug with putPort := para.dbgPort }

/-- `startup_info`. -/
def startupInfo (flash : Mem) (debug : Debug) : Debug :=
  match powerupUartParaGet flash with
  | none => dbgInit dbgLevelInfo (portPara sysDefPara).baudrate debug
  | some para => { dbgInit para.dbgLevel para.baudrate debug with putPort := para.dbgPort }

/-- The console that a parameter structure asks for. -/
def debugOf (para : Mem) : Debug :=
  ⟨cString ((portPara para).dbgLevel.take (dbgLenMax - 1)), (portPara para).dbgPort,
    (portPara para).baudrate⟩

/-- What happens to the parameters: an edit or an operation of the manager, or a restart. -/
inductive Event where
  | operation (event : ParameterPersistence.Event)
  | restart

/-- The parameter manager, and the parameters as they were last written to the user area. -/
structure Manager where
  pmm : Pmm
  saved : Mem

/-- An edit or an operation of the manager. -/
def operate (pmm : Pmm) (event : ParameterPersistence.Event) : Pmm :=
  (ParameterPersistence.step ⟨pmm, fun _ => true⟩ event).pmm

/-- The manager after a restart. -/
def restarted (pmm : Pmm) : Pmm := paraInit delivered (Pmm.powerUp pmm.chips)

/-- The event writes the user area; a restart does when it replaces the device address. -/
def wrote (pmm : Pmm) : Event → Bool
  | .operation event => writesUser pmm event
  | .restart => addrRejected (repairStage (loadAreas delivered (Pmm.powerUp pmm.chips))).sysPara

/-- The manager behind an event. -/
def next (pmm : Pmm) : Event → Pmm
  | .operation event => operate pmm event
  | .restart => restarted pmm

/-- One event. -/
def step (manager : Manager) (event : Event) : Manager where
  pmm := next manager.pmm event
  saved := if wrote manager.pmm event then (next manager.pmm event).sysPara else manager.saved

/-- Between events: the chips work, and the user area passes every check and holds what was last
written to it. -/
structure Kept (manager : Manager) : Prop where
  sound : manager.pmm.Sound
  user : Converged (manager.pmm.chips.area .user) manager.saved

/-- Structures with the same port group ask for the same settings. -/
theorem port_para_congr {left right : Mem} (same : SameGroup left right .port) :
    portPara left = portPara right := by
  have part (start len : Nat) (low : ParaType.offset .port ≤ start)
      (high : start + len ≤ ParaType.offset .port + ParaType.size .port) :
      toList left start len = toList right start len :=
    to_list_congr (agree_mono same low high)
  rw [portPara, portPara, part _ 4 (by decide) (by decide), part _ 32 (by decide) (by decide),
    same _ (by decide) (by decide), same (ParaType.offset .port + 41) (by decide) (by decide)]

/-- A converged user area is read at the start of either program. -/
theorem startup_converged {chips : Chips} {saved : Mem}
    (user : Converged (chips.area .user) saved) (debug : Debug) :
    bootStartupInfo chips.flash debug = debugOf saved ∧
      startupInfo chips.flash debug = debugOf saved := by
  obtain ⟨valid, same⟩ := ((converged_iff _ _).mp user).2 .port
  have area : window chips.flash (StorageType.address .user) = chips.area .user := rfl
  have checked : groupCrc (chips.area .user) .port = storedCrc (chips.area .user) .port := by
    simpa [groupValid] using valid
  have read : powerupUartParaGet chips.flash = some (portPara saved) := by
    rw [powerupUartParaGet, area, if_neg (not_not_intro checked.symm), port_para_congr same]
  rw [bootStartupInfo, startupInfo, read]
  exact ⟨rfl, rfl⟩

/-- A user area that stays as it is holds what it held. -/
theorem converged_kept {before after saved : Mem} (kept : Agree after before 0 sizeofSysPara)
    (held : Converged before saved) : Converged after saved := by
  obtain ⟨magic, groups⟩ := (converged_iff _ _).mp held
  refine (converged_iff _ _).mpr ⟨?_, fun group => ?_⟩
  · exact (load32_congr (agree_mono kept (Nat.le_refl 0) (by decide))).trans magic
  · exact (holds_congr (agree_owned kept)).mpr (groups group)

/-- Every edit and operation leaves the chips working. -/
theorem operate_sound {pmm : Pmm} (sound : pmm.Sound) (event : ParameterPersistence.Event) :
    (operate pmm event).Sound := by
  cases event with
  | edit group bytes => exact sound
  | saveGroup group => exact (group_save group pmm sound).sound
  | restoreToDefault =>
    exact (both_saved { pmm with sysPara := paraRecalculateAllCrc sysDefPara } sound).sound
  | restoreToFactory => exact (restore_to_factory_cases pmm sound).2.2
  | saveToFactory =>
    exact (whole_save .factory wholeMask pmm sound (whole_mask_whole .factory)).sound
  | saveToBackup =>
    exact (whole_save .backup wholeMask pmm sound (whole_mask_whole .backup)).sound

/-- An edit or operation that does not write the user area leaves it alone. -/
theorem operate_user_kept {pmm : Pmm} (sound : pmm.Sound) (event : ParameterPersistence.Event)
    (spared : writesUser pmm event = false) :
    Agree ((operate pmm event).chips.area .user) (pmm.chips.area .user) 0 sizeofSysPara := by
  cases event with
  | edit group bytes => exact agree_refl _ _ _
  | saveGroup group => cases spared
  | restoreToDefault => cases spared
  | restoreToFactory =>
    have same := (restore_to_factory_cases pmm sound).2.1 spared
    change Agree ((pmmRestoreToFactory .delivered pmm).chips.area .user) _ _ _
    rw [same]
    exact agree_refl _ _ _
  | saveToFactory =>
    exact (whole_save .factory wholeMask pmm sound (whole_mask_whole .factory)).frame .user
      (by decide)
  | saveToBackup =>
    exact (whole_save .backup wholeMask pmm sound (whole_mask_whole .backup)).frame .user
      (by decide)

/-- An edit or operation keeps what the user area holds. -/
theorem operation_kept {manager : Manager} (kept : Kept manager)
    (event : ParameterPersistence.Event) : Kept (step manager (.operation event)) := by
  refine ⟨operate_sound kept.sound event, ?_⟩
  cases written : writesUser manager.pmm event with
  | true =>
    have current := step_user_current ⟨manager.pmm, fun _ => true⟩ event kept.sound written
    simp only [step, wrote, written, if_true]
    exact converged_of_agree current.1 current.2
  | false =>
    simp only [step, wrote, written, Bool.false_eq_true, if_false]
    exact converged_kept (operate_user_kept kept.sound event written) kept.user

/-- The repair stage of a start leaves a converged user area alone. -/
theorem repair_user_kept {chips : Chips} {saved : Mem}
    (user : Converged (chips.area .user) saved) :
    (repairStage (loadAreas delivered (Pmm.powerUp chips))).Sound ∧
      Agree ((repairStage (loadAreas delivered (Pmm.powerUp chips))).chips.area .user)
        (chips.area .user) 0 sizeofSysPara := by
  have sound := loaded_sound (power_up_sound chips)
  have same := loaded_chips (Pmm.powerUp chips)
  have status : (loadAreas delivered (Pmm.powerUp chips)).paraErrStatus .user = correntMask := by
    rw [(load_areas_effect delivered (Pmm.powerUp chips)).status]
    exact (recorded_corrent_iff _).mpr ((validate_corrent_iff _).mp user.1)
  rw [repairStage, if_pos status]
  split
  case isTrue differ =>
    have saved := whole_save .backup wholeMask _ sound (whole_mask_whole .backup)
    have frame := saved.frame .user (by decide)
    rw [same] at frame
    exact ⟨saved.sound, frame⟩
  case isFalse equal =>
    rw [same]
    exact ⟨sound, agree_refl _ _ _⟩

/-- A restart keeps what the user area holds, or writes it anew with another device address. -/
theorem restart_kept {manager : Manager} (kept : Kept manager) : Kept (step manager .restart) := by
  obtain ⟨sound, frame⟩ := repair_user_kept kept.user
  have stage : restarted manager.pmm =
      addrStage (repairStage (loadAreas delivered (Pmm.powerUp manager.pmm.chips))) := rfl
  have writes : wrote manager.pmm .restart =
      addrRejected (repairStage (loadAreas delivered (Pmm.powerUp manager.pmm.chips))).sysPara :=
    rfl
  generalize repairStage (loadAreas delivered (Pmm.powerUp manager.pmm.chips)) = repaired at *
  cases rejected : addrRejected repaired.sysPara with
  | true =>
    rw [addrStage, if_pos rejected] at stage
    have group := group_save .dev
      { repaired with sysPara := setDefaultAddr repaired.sysPara } sound
    rw [← stage] at group
    simp only [step, writes, rejected, if_true]
    exact ⟨group.sound, converged_of_agree group.valid group.user⟩
  | false =>
    rw [addrStage, rejected, if_neg Bool.false_ne_true] at stage
    simp only [step, writes, rejected, Bool.false_eq_true, if_false, next, stage]
    exact ⟨sound, converged_kept frame kept.user⟩

/-- A restart loads the port group of the user area. -/
theorem restart_port {manager : Manager} (kept : Kept manager) :
    portPara (restarted manager.pmm).sysPara = portPara manager.saved := by
  obtain ⟨magic, groups⟩ := (converged_iff _ _).mp kept.user
  obtain ⟨valid, same⟩ := groups .port
  apply port_para_congr
  intro address low high
  have foreign : address ≠ devAddr := by
    rintro rfl
    exact absurd low (by decide)
  rw [restarted, para_init_data delivered _ .port address low high,
    if_neg (fun here => foreign here.1), power_up_chips, source_user _ .port magic valid]
  exact same address low high

/-- Any sequence of edits, operations and restarts, from a device whose user area holds its
parameters. A start of the bootloader and one of the application both come up with the console
settings that were last written to the user area, whatever the debug unit held, and a restart loads
these into the parameters. -/
theorem startup_follows_saves (start : Pmm) (sound : start.Sound)
    (agreed : Converged (start.chips.area .user) start.sysPara) (events : List Event)
    (debug : Debug) :
    let manager := run step ⟨start, start.sysPara⟩ events
    bootStartupInfo manager.pmm.chips.flash debug = debugOf manager.saved ∧
      startupInfo manager.pmm.chips.flash debug = debugOf manager.saved ∧
      portPara (step manager .restart).pmm.sysPara = portPara manager.saved := by
  intro manager
  have preserved : ∀ manager event, Kept manager → Kept (step manager event) := by
    intro manager event kept
    cases event with
    | operation event => exact operation_kept kept event
    | restart => exact restart_kept kept
  have kept : Kept manager :=
    run_invariant step preserved ⟨start, start.sysPara⟩ ⟨sound, agreed⟩ events
  obtain ⟨boot, application⟩ := startup_converged kept.user debug
  exact ⟨boot, application, restart_port kept⟩

/-- The default device, whose port group is edited, saved and edited again. -/
theorem startup_follows_saves_edited :
    let manager := run step ⟨ParameterPersistence.defaultDevice,
      ParameterPersistence.defaultDevice.sysPara⟩
      [.operation (.edit .port fun _ => 1), .operation (.saveGroup .port),
        .operation (.edit .port fun _ => 2), .restart]
    startupInfo manager.pmm.chips.flash ⟨[], 1, 0⟩ = debugOf manager.saved :=
  (startup_follows_saves ParameterPersistence.defaultDevice (power_up_sound _)
    ParameterPersistence.default_device_converged.1 _ ⟨[], 1, 0⟩).2.1

end Pyrometer.StartupConsole
