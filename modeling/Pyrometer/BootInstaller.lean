import Pyrometer.FirmwareInfo

/-!
# The installer of the bootloader

`upgrade` of `boot_main.c` checks the record on the info page and the staged
image, erases the two application sectors, copies the image through a 4 KB
buffer with the word writer, verifies the copy with the same checksum, and
retires the job by rewriting the record with a finished status and its old
checksum. It ends in one of three ways: the application is started without or
after an installation, or the chip is reset.

The copy loop takes its number of chunks as an argument; `copy_loop_complete`
says that one per started 4 KB is all it ever needs. Debug output, the clocks and
the jump into the application are left out.
-/

namespace Pyrometer.BootInstaller

open ByteMemory Checksums NorFlash FlashController FirmwareInfo

/-- How `upgrade` ends: no job, "OK!", or `NVIC_SystemReset`. -/
inductive Outcome where
  | notUpgraded
  | upgraded
  | systemReset
  deriving DecidableEq, Repr

/-- The record copied from the info page. -/
def storedInfo (flash : Mem) : FwInfo := fwInfoAt (window flash fwInfoAddr)

/-- `sizeof(buffer)`. -/
def sizeofBuffer : Nat := 4096

/-- The copy loop: fill the buffer from the staged image, write its whole words. -/
def copyLoop : Nat → Nat → Nat → Nat → Mem → Device → Device
  | 0, _, _, _, _, fmc => fmc
  | chunks + 1, imgAddr, appAddr, len, buffer, fmc =>
      if len = 0 then fmc
      else
        let size := if len < sizeofBuffer then len else sizeofBuffer
        let buffer := overlay buffer (window fmc.mem imgAddr) 0 size
        copyLoop chunks (wrap32 (imgAddr + size)) (wrap32 (appAddr + size)) (len - size) buffer
          (gdfWriteDataByWord appAddr size buffer fmc).2

/-- Chunks of an image. -/
def chunkCount (len : Nat) : Nat := (len + sizeofBuffer - 1) / sizeofBuffer

/-- Erase the application sectors and copy the image. -/
def updateApp (imgSize : BitVec 32) (fmc : Device) : Device :=
  let fmc := (fmcSectorErase 4 fmc).2
  let fmc := (fmcSectorErase 5 fmc).2
  copyLoop (chunkCount imgSize.toNat) fwDataAddr appEntryAddr imgSize.toNat (fun _ => 0) fmc

/-- Check the application and retire the job. -/
def checkApp (fwInfo : FwInfo) (fmc : Device) : Outcome × Device :=
  if calculateCrc32 (window fmc.mem appEntryAddr) (asInt fwInfo.imgSize) .big = fwInfo.imgCrc32 then
    let fwInfo := { fwInfo with status := ugStateFinished }
    (.upgraded, (gdfWriteDataByPage fwInfoAddr sizeofFwInfo (ofList fwInfo.bytes) fmc).2)
  else (.systemReset, fmc)

/-- `upgrade`. -/
def upgrade (fmc : Device) : Outcome × Device :=
  let fwInfo := storedInfo fmc.mem
  if infoCrc (window fmc.mem fwInfoAddr) ≠ fwInfo.crc32 then (.notUpgraded, fmc)
  else if fwInfo.imgSize = 0 then (.notUpgraded, fmc)
  else if fwInfo.status ≠ ugStateCheckPass then (.notUpgraded, fmc)
  else if calculateCrc32 (window fmc.mem fwDataAddr) (asInt fwInfo.imgSize) .big ≠
      fwInfo.imgCrc32 then (.notUpgraded, fmc)
  else checkApp fwInfo (updateApp fwInfo.imgSize fmc)

/-- A flash whose record and staged image pass the checks of the bootloader. -/
structure Accepted (flash : Mem) : Prop where
  record : infoCrc (window flash fwInfoAddr) = (storedInfo flash).crc32
  size : (storedInfo flash).imgSize ≠ 0
  status : (storedInfo flash).status = ugStateCheckPass
  image : calculateCrc32 (window flash fwDataAddr) (asInt (storedInfo flash).imgSize) .big =
    (storedInfo flash).imgCrc32

/-- Bytes of the image a record announces. -/
def imageBytes (flash : Mem) : Nat := (storedInfo flash).imgSize.toNat

/-- The addresses of the application area. -/
def InApp (address : Nat) : Prop :=
  appEntryAddr ≤ address ∧ address < appEntryAddr + appAreaSize

/-- The addresses of the info page. -/
def InInfoPage (address : Nat) : Prop :=
  fwInfoAddr ≤ address ∧ address < fwInfoAddr + fmcPageSize

/-- The flash operations `upgrade` performs. -/
def performed (fmc : Device) : List Op := (upgrade fmc).2.log.drop fmc.log.length

/-- An accepted flash is installed. -/
theorem upgrade_accepted (fmc : Device) (accepted : Accepted fmc.mem) :
    upgrade fmc = checkApp (storedInfo fmc.mem) (updateApp (storedInfo fmc.mem).imgSize fmc) := by
  obtain ⟨record, size, status, image⟩ := accepted
  rw [upgrade]
  rw [if_neg (not_not.mpr record), if_neg size, if_neg (not_not.mpr status),
    if_neg (not_not.mpr image)]

/-- Any other flash is left as it is. -/
theorem upgrade_rejected (fmc : Device) (rejected : ¬Accepted fmc.mem) :
    upgrade fmc = (.notUpgraded, fmc) := by
  rw [upgrade]
  split
  · rfl
  · rename_i record
    split
    · rfl
    · rename_i size
      split
      · rfl
      · rename_i status
        split
        · rfl
        · rename_i image
          exact absurd ⟨not_not.mp record, size, not_not.mp status, not_not.mp image⟩ rejected

/-- What the bootloader decides depends on the record and on the flash from the
staged image on only. -/
theorem accepted_congr {left right : Mem}
    (record : Agree (window left fwInfoAddr) (window right fwInfoAddr) 0 sizeofFwInfo)
    (staged : window left fwDataAddr = window right fwDataAddr) (accepted : Accepted left) :
    Accepted right ∧ storedInfo right = storedInfo left := by
  have info : storedInfo right = storedInfo left := (fw_info_at_congr record).symm
  refine ⟨⟨?_, ?_, ?_, ?_⟩, info⟩
  · rw [info, ← info_crc_congr record]
    exact accepted.record
  · rw [info]
    exact accepted.size
  · rw [info]
    exact accepted.status
  · rw [info, ← staged]
    exact accepted.image

/-- More chunks than started buffers change nothing: the loop has ended. -/
theorem copy_loop_complete (chunks more imgAddr appAddr len : Nat) (buffer : Mem) (fmc : Device)
    (enough : len ≤ sizeofBuffer * chunks) :
    copyLoop (chunks + more) imgAddr appAddr len buffer fmc =
      copyLoop chunks imgAddr appAddr len buffer fmc := by
  induction chunks generalizing imgAddr appAddr len buffer fmc with
  | zero =>
    have zero : len = 0 := by omega
    cases more with
    | zero => rfl
    | succ more => simp [copyLoop, zero]
  | succ chunks inductionHypothesis =>
    rw [Nat.succ_add, copyLoop, copyLoop]
    split
    · rfl
    · apply inductionHypothesis
      unfold sizeofBuffer at *
      split <;> omega

/-- On a device that refuses nothing, an image that is copied below itself arrives
word by word: no program reaches the bytes still to be copied. Induct on the
chunks; each but the last is 1024 words, so the next one starts where it ended. -/
theorem copy_loop_sound (chunks imgAddr appAddr len : Nat) (buffer : Mem) (fmc : Device)
    (sound : fmc.Sound) (enough : len ≤ sizeofBuffer * chunks) (apart : appAddr + len ≤ imgAddr)
    (fits : imgAddr + len < 2 ^ 32) :
    copyLoop chunks imgAddr appAddr len buffer fmc =
      fmc.perform (programUnits appAddr (window fmc.mem imgAddr) 4 (len / 4)) := by
  induction chunks generalizing imgAddr appAddr len buffer fmc with
  | zero =>
    have zero : len = 0 := by omega
    simp [copyLoop, zero, programUnits]
  | succ chunks inductionHypothesis =>
    rw [copyLoop]
    split
    · rename_i none
      simp [none, programUnits]
    · have wordwise : ∀ size, size ≤ len →
          gdfWriteDataByWord appAddr size
              (overlay buffer (window fmc.mem imgAddr) 0 size) fmc =
            (0, fmc.perform (programUnits appAddr (window fmc.mem imgAddr) 4 (size / 4))) := by
        intro size inside
        rw [gdf_write_data_by_word_sound _ _ _ _ sound (by omega)]
        congr 2
        apply program_units_congr
        intro offset _ below
        exact overlay_inside _ _ _ _ offset (Nat.zero_le _) (by omega)
      dsimp only
      by_cases last : len < sizeofBuffer
      · rw [if_pos last, wordwise len (Nat.le_refl len), Nat.sub_self]
        cases chunks with
        | zero => rfl
        | succ chunks => rfl
      · rw [if_neg last, wordwise sizeofBuffer (by omega)]
        unfold sizeofBuffer at *
        have source : wrap32 (imgAddr + 4096) = imgAddr + 4096 := Nat.mod_eq_of_lt (by omega)
        have target : wrap32 (appAddr + 4096) = appAddr + 4096 := Nat.mod_eq_of_lt (by omega)
        rw [source, target, inductionHypothesis _ _ _ _ _ (Device.perform_sound sound _) (by omega)
          (by omega) (by omega), ← Device.perform_append]
        have count : len / 4 = 4096 / 4 + (len - 4096) / 4 := by omega
        have chunk : 4 * (4096 / 4) = 4096 := by decide
        have rest : Agree
            (window (fmc.perform (programUnits appAddr (window fmc.mem imgAddr) 4 (4096 / 4))).mem
              (imgAddr + 4096))
            (window (window fmc.mem imgAddr) 4096) 0 (4 * ((len - 4096) / 4)) := by
          intro offset _ below
          rw [window, window, window, Device.perform_mem, Nat.add_assoc]
          apply replay_untouched
          intro op member touches
          have reached := program_units_touch member touches
          omega
        rw [count, program_units_append, chunk, program_units_congr _ _ _ rest]

/-- The erases of the two application sectors. -/
def appErases : List Op :=
  [.erase (sectorStart 4) (sectorSize 4), .erase (sectorStart 5) (sectorSize 5)]

/-- The two erases cover the application area. -/
theorem app_erases_cover (memory : Mem) {address : Nat} (inside : InApp address) :
    replay memory appErases address = erased := by
  have first : sectorStart 4 = appEntryAddr := by decide
  have second : sectorStart 5 = appEntryAddr + sectorSize 4 := by decide
  have area : sectorSize 4 + sectorSize 5 = appAreaSize := by decide
  obtain ⟨low, high⟩ := inside
  simp only [appErases, replay, List.foldl_cons, List.foldl_nil, apply]
  split_ifs <;> first | rfl | omega

/-- They touch nothing else. -/
theorem app_erases_touch {op : Op} (member : op ∈ appErases) {address : Nat}
    (touches : Touches op address) : InApp address := by
  have first : sectorStart 4 = appEntryAddr := by decide
  have second : sectorStart 5 = appEntryAddr + sectorSize 4 := by decide
  have area : sectorSize 4 + sectorSize 5 = appAreaSize := by decide
  simp only [appErases, List.mem_cons, List.not_mem_nil, or_false] at member
  unfold InApp
  rcases member with rfl | rfl
  · obtain ⟨low, high⟩ := touches
    omega
  · obtain ⟨low, high⟩ := touches
    omega

/-- The staged image does not lie in the application area. -/
theorem staged_outside (offset : Nat) : ¬InApp (fwDataAddr + offset) := by
  have above : appEntryAddr + appAreaSize ≤ fwDataAddr := by decide
  rintro ⟨_, high⟩
  omega

/-- On a device that refuses nothing the update is the two erases and the copy. -/
theorem update_app_erases (imgSize : BitVec 32) (fmc : Device) (sound : fmc.Sound) :
    updateApp imgSize fmc = copyLoop (chunkCount imgSize.toNat) fwDataAddr appEntryAddr
      imgSize.toNat (fun _ => 0) (fmc.perform appErases) := by
  have kept : (fmc.perform [.erase (sectorStart 4) (sectorSize 4)]).Sound :=
    Device.perform_sound sound _
  have both : appErases = [.erase (sectorStart 4) (sectorSize 4)] ++
      [.erase (sectorStart 5) (sectorSize 5)] := rfl
  unfold updateApp fmcSectorErase
  rw [Device.issue_sound sound]
  dsimp only
  rw [Device.issue_sound kept, both, Device.perform_append]

/-- Chunks hold the whole image. -/
theorem chunk_count_covers (len : Nat) : len ≤ sizeofBuffer * chunkCount len := by
  unfold chunkCount sizeofBuffer
  omega

end Pyrometer.BootInstaller
