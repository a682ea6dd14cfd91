import Pyrometer.BitMasks
import Pyrometer.DefaultParameters
import Pyrometer.EepromStorage

/-!
# The parameter manager of `para.c`

The running parameters live in RAM; the user and the factory area are pages of
the internal flash and the backup area is in the EEPROM. Every function is
translated with its bit masks, its early returns and its in-place updates. The
source pointer of `para_save_to_storage` is `&sys_para` at every call, so the
checksums it recalculates are those of the data it then writes.

What `loc->read` does is an argument: a boot sees one outcome for each area.
Writes go through the modelled drivers with whatever refusals these meet, and
each write that reaches a chip is appended to `trace`, so that a power cut can
be placed between any two of them. Debug output and the interrupt lock are left
out.
-/

namespace Pyrometer.ParameterManager

open ByteMemory NorFlash FlashController EepromStorage BitMasks ParameterLayout DefaultParameters

/-- `storage_type_t`. -/
inductive StorageType where
  | user
  | backup
  | factory
  deriving DecidableEq, Repr

/-- `storage_media_t`. -/
inductive StorageMedia where
  | intFlash
  | extEeprom
  deriving DecidableEq, Repr

/-- The medium of an area's `storage_device_t`. -/
def StorageType.media : StorageType → StorageMedia
  | .user => .intFlash
  | .backup => .extEeprom
  | .factory => .intFlash

/-- The address of an area's `storage_device_t`: `USER_PARA_ADDR`,
`BACKUP_PARA_ADDR` and `FACTORY_PARA_ADDR`. -/
def StorageType.address : StorageType → Nat
  | .user => flashBase + 0x8000
  | .backup => 0
  | .factory => flashBase + 0xC000

/-- One elementary write that reached a chip. -/
inductive Write where
  | flash (op : Op)
  | page (page : PageWrite)
  deriving DecidableEq, Repr

/-- Contents of the two chips. -/
structure Chips where
  flash : Mem
  cells : Mem

/-- Effect of one elementary write. -/
def Chips.apply (chips : Chips) : Write → Chips
  | .flash op => { chips with flash := NorFlash.apply chips.flash op }
  | .page page => { chips with cells := storePage chips.cells page }

/-- Contents after a list of elementary writes. -/
def Chips.replay (chips : Chips) (history : List Write) : Chips := history.foldl Chips.apply chips

/-- An area as the code addresses it: offset zero is the area's first byte. -/
def Chips.area (chips : Chips) (type : StorageType) : Mem :=
  match type.media with
  | .intFlash => window chips.flash type.address
  | .extEeprom => window chips.cells type.address

/-- The module's variables, the chips behind their drivers, and the record of
what was written. -/
structure Pmm where
  sysPara : Mem
  tempPara : Mem
  crcUser : ParaType → BitVec 16
  crcBackup : ParaType → BitVec 16
  paraErrStatus : StorageType → BitVec 32
  fmc : Device
  eeprom : Eeprom
  trace : List Write

/-- The present contents of the chips. -/
def Pmm.chips (pmm : Pmm) : Chips := ⟨pmm.fmc.mem, pmm.eeprom.cells⟩

/-- Neither chip refuses a write from now on. -/
def Pmm.Sound (pmm : Pmm) : Prop := pmm.fmc.Sound ∧ pmm.eeprom.Sound

/-- A powered-up device with the given chip contents and working drivers; RAM is
not initialized yet. -/
def Pmm.powerUp (chips : Chips) : Pmm where
  sysPara := fun _ => 0
  tempPara := fun _ => 0
  crcUser := fun _ => 0
  crcBackup := fun _ => 0
  paraErrStatus := fun _ => 0
  fmc := Device.healthy chips.flash
  eeprom := Eeprom.healthy chips.cells
  trace := []

/-- Position of the magic flag in a status word. -/
def magicBit : Nat := 31

/-- The mask of all groups, built by the loop that opens `para_init`. -/
def groupMask : BitVec 32 :=
  ParaType.all.foldl (fun mask group => setBit mask group.index) 0

/-- `corrent_mask`: all groups and the magic flag. -/
def correntMask : BitVec 32 := setBit groupMask magicBit

/-- `pmm_validate_para`. -/
def pmmValidatePara (para : Mem) : BitVec 32 :=
  if magicOf para = paramMagic then
    ParaType.all.foldl
      (fun status group => if groupValid para group then setBit status group.index else status)
      (setBit 0 magicBit)
  else 0

/-- Assignment to the `magic` member. -/
def setMagic (para : Mem) : Mem := overlay para (byteOf paramMagic) 0 4

/-- Assignment to a member of the checksum array. -/
def setCrc (para : Mem) (group : ParaType) (value : BitVec 16) : Mem :=
  overlay para (byteOf value) (crcWord group) 2

/-- `para_recalculate_all_crc`. -/
def paraRecalculateAllCrc (para : Mem) : Mem :=
  ParaType.all.foldl (fun para group => setCrc para group (groupCrc para group)) (setMagic para)

/-- `loc->write` at an offset of the area; what reached the chip is recorded. -/
def storageWrite (type : StorageType) (offset : Nat) (buff : Mem) (len : Nat) (pmm : Pmm) :
    Int × Pmm :=
  match type.media with
  | .intFlash =>
      match flashWrite (type.address + offset) buff len pmm.fmc with
      | (code, fmc) =>
          (code, { pmm with
            fmc := fmc
            trace := pmm.trace ++ (fmc.log.drop pmm.fmc.log.length).map .flash })
  | .extEeprom =>
      match eepromWriteLock (type.address + offset) buff len pmm.eeprom with
      | (code, eeprom) =>
          (code, { pmm with
            eeprom := eeprom
            trace := pmm.trace ++ (eeprom.log.drop pmm.eeprom.log.length).map .page })

/-- The group loop of `para_save_to_storage`: each selected group's data, then
its checksum word; the first failure ends it. -/
def saveGroupLoop (type : StorageType) (paraState : BitVec 32) :
    List ParaType → Pmm → Int × Pmm
  | [], pmm => (0, pmm)
  | group :: rest, pmm =>
      if hasBit paraState group.index then
        match storageWrite type group.offset (window pmm.sysPara group.offset) group.size pmm with
        | (0, pmm) =>
            match storageWrite type (crcWord group) (window pmm.sysPara (crcWord group)) 2 pmm with
            | (0, pmm) => saveGroupLoop type paraState rest pmm
            | (code, pmm) => (code, pmm)
        | (code, pmm) => (code, pmm)
      else saveGroupLoop type paraState rest pmm

/-- `para_save_to_storage`. -/
def paraSaveToStorage (type : StorageType) (paraState : BitVec 32) (pmm : Pmm) : Int × Pmm :=
  let pmm := { pmm with sysPara := paraRecalculateAllCrc pmm.sysPara }
  if paraState &&& groupMask = groupMask then
    storageWrite type 0 pmm.sysPara sizeofSysPara pmm
  else
    match type.media with
    | .intFlash => storageWrite type 0 pmm.sysPara sizeofSysPara pmm
    | .extEeprom => saveGroupLoop type paraState ParaType.all pmm

/-- The argument of the callers that save everything. -/
def wholeMask : BitVec 32 := 0x7FFFFFFF#32

/-- `pmm_save_group`. -/
def pmmSaveGroup (group : ParaType) (pmm : Pmm) : Pmm :=
  let para := setMagic (setCrc pmm.sysPara group (groupCrc pmm.sysPara group))
  let pmm := { pmm with sysPara := para }
  let pmm := (paraSaveToStorage .user (bit 32 group.index) pmm).2
  (paraSaveToStorage .backup (bit 32 group.index) pmm).2

/-- `pmm_restore_to_default`. -/
def pmmRestoreToDefault (pmm : Pmm) : Pmm :=
  let pmm := { pmm with sysPara := paraRecalculateAllCrc sysDefPara }
  let pmm := (paraSaveToStorage .user wholeMask pmm).2
  (paraSaveToStorage .backup wholeMask pmm).2

/-- `pmm_save_to_factory`. -/
def pmmSaveToFactory (pmm : Pmm) : Pmm := (paraSaveToStorage .factory wholeMask pmm).2

/-- `pmm_save_to_backup`. -/
def pmmSaveToBackup (pmm : Pmm) : Pmm := (paraSaveToStorage .backup wholeMask pmm).2

/-- One group and its checksum word copied from the temporary structure. -/
def copyGroup (sysPara tempPara : Mem) (group : ParaType) : Mem :=
  setCrc (overlay sysPara (window tempPara group.offset) group.offset group.size) group
    (storedCrc tempPara group)

/-- The group loop of `try_restore_from_storage`: the running parameters and the
groups still needed. -/
def restoreLoop (tempPara : Mem) (status : BitVec 32) :
    List ParaType → Mem × BitVec 32 → Mem × BitVec 32
  | [], state => state
  | group :: rest, (sysPara, needed) =>
      if hasBit needed group.index && hasBit status group.index then
        restoreLoop tempPara status rest
          (copyGroup sysPara tempPara group, clearBit needed group.index)
      else restoreLoop tempPara status rest (sysPara, needed)

/-- The temporary structure after its `memset`. -/
def clearedPara : Mem := fun _ => 0

/-- The return value of `try_restore_from_storage` and what it leaves behind its
pointers. -/
structure Restored where
  code : Int
  neededMask : BitVec 32
  paraState : BitVec 32
  pmm : Pmm

/-- `try_restore_from_storage`, for an area whose read has the given outcome. -/
def tryRestoreFromStorage (outcome : ReadOutcome) (type : StorageType) (neededMask : BitVec 32)
    (pmm : Pmm) : Restored :=
  match outcome.result (pmm.chips.area type) clearedPara sizeofSysPara with
  | (0, tempPara) =>
      let status := pmmValidatePara tempPara
      let pmm := { pmm with tempPara := tempPara }
      if hasBit status magicBit then
        match restoreLoop tempPara status ParaType.all (pmm.sysPara, neededMask) with
        | (sysPara, neededMask) => ⟨0, neededMask, status, { pmm with sysPara := setMagic sysPara }⟩
      else ⟨-1, neededMask, status, pmm⟩
  | (_, tempPara) => ⟨-1, neededMask, 0, { pmm with tempPara := tempPara }⟩

/-- `pmm_restore_to_factory`: groups are loaded before the state is looked at, so
an incomplete factory area changes RAM and nothing else. -/
def pmmRestoreToFactory (outcome : ReadOutcome) (pmm : Pmm) : Pmm :=
  let restored := tryRestoreFromStorage outcome .factory groupMask pmm
  if restored.paraState ≠ correntMask then restored.pmm
  else
    let pmm := (paraSaveToStorage .user wholeMask restored.pmm).2
    (paraSaveToStorage .backup wholeMask pmm).2

/-- Record of an area's state in `sys_state.para_err_status`. -/
def recordStatus (type : StorageType) (paraState : BitVec 32) (pmm : Pmm) : Pmm :=
  { pmm with paraErrStatus := fun tested =>
      if tested = type then setBit paraState magicBit else pmm.paraErrStatus tested }

/-- The three loads of `para_init`, in their order, with the recorded states and
checksum arrays. -/
def loadAreas (reads : StorageType → ReadOutcome) (pmm : Pmm) : Pmm :=
  let user := tryRestoreFromStorage (reads .user) .user groupMask
    { pmm with sysPara := sysDefPara }
  let pmm := recordStatus .user user.paraState user.pmm
  let pmm := { pmm with crcUser := storedCrc pmm.tempPara }
  let backup := tryRestoreFromStorage (reads .backup) .backup user.neededMask pmm
  let pmm := recordStatus .backup backup.paraState backup.pmm
  let pmm := { pmm with crcBackup := storedCrc pmm.tempPara }
  let factory := tryRestoreFromStorage (reads .factory) .factory backup.neededMask pmm
  recordStatus .factory factory.paraState factory.pmm

/-- One area's part of `repair_invalid_storage`. -/
def repairArea (type : StorageType) (pmm : Pmm) : Pmm :=
  if pmm.paraErrStatus type ≠ correntMask ∧ pmm.paraErrStatus type ≠ 0 then
    (paraSaveToStorage type (~~~(pmm.paraErrStatus type)) pmm).2
  else pmm

/-- `repair_invalid_storage`. -/
def repairInvalidStorage (pmm : Pmm) : Pmm := repairArea .backup (repairArea .user pmm)

/-- The repair stage of `para_init`: compare checksum words when the user area is
fully valid, otherwise repair by the recorded states. -/
def repairStage (pmm : Pmm) : Pmm :=
  if pmm.paraErrStatus .user = correntMask then
    if ParaType.all.any (fun group => pmm.crcUser group != pmm.crcBackup group) then
      pmmSaveToBackup pmm
    else pmm
  else repairInvalidStorage pmm

/-- `DEV_MIN_ADDR`. -/
def devMinAddr : Nat := 0

/-- `DEV_MAX_ADDR`. -/
def devMaxAddr : Nat := 32

/-- The final check's condition on the device address of a structure. -/
def addrRejected (para : Mem) : Bool :=
  decide ((para devAddr).toNat > devMaxAddr ∨ (para devAddr).toNat < devMinAddr)

/-- Assignment of the default device address. -/
def setDefaultAddr (para : Mem) : Mem := overlay para (window sysDefPara devAddr) devAddr 1

/-- The last stage of `para_init`: a rejected device address is replaced and the
device group saved. -/
def addrStage (pmm : Pmm) : Pmm :=
  if addrRejected pmm.sysPara then
    pmmSaveGroup .dev { pmm with sysPara := setDefaultAddr pmm.sysPara }
  else pmm

/-- `para_init`. -/
def paraInit (reads : StorageType → ReadOutcome) (pmm : Pmm) : Pmm :=
  addrStage (repairStage (loadAreas reads pmm))

end Pyrometer.ParameterManager
