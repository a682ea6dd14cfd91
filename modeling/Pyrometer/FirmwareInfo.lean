import Pyrometer.Checksums
import Pyrometer.FlashController

/-!
# The firmware record and its place in flash

`fw_info_t` is what the application and the bootloader share: the application
writes it to the info page, the bootloader reads it there. It is packed, 32
bytes, little endian, and ends with a checksum of the 28 bytes before it.
-/

namespace Pyrometer.FirmwareInfo

open ByteMemory Checksums NorFlash FlashController

/-- `FW_INFO_ADDR`, the page of the firmware record. -/
def fwInfoAddr : Nat := flashBase + 0x04000

/-- `APP_ENTRY_ADDR`, the application: sectors 4 and 5. -/
def appEntryAddr : Nat := flashBase + 0x10000

/-- Bytes of the application area. -/
def appAreaSize : Nat := 0x30000

/-- `FW_DATA_ADDR`, the staged image: sectors 6 and 7. -/
def fwDataAddr : Nat := flashBase + 0x40000

/-- Bytes of the staging area. -/
def fwAreaSize : Nat := 0x40000

/-- `UG_STATE_START`. -/
def ugStateStart : Byte := 1#8

/-- `UG_STATE_TRANS`. -/
def ugStateTrans : Byte := 2#8

/-- `UG_STATE_CANCELED`. -/
def ugStateCanceled : Byte := 3#8

/-- `UG_STATE_TRANS_COMPLETE`. -/
def ugStateTransComplete : Byte := 4#8

/-- `UG_STATE_CHECK_FAIL`. -/
def ugStateCheckFail : Byte := 5#8

/-- `UG_STATE_CHECK_PASS`. -/
def ugStateCheckPass : Byte := 6#8

/-- `UG_STATE_FINISHED`. -/
def ugStateFinished : Byte := 7#8

/-- `fw_info_t`. The source port is kept as its pointer value. -/
@[ext] structure FwInfo where
  majorVer : Byte
  minorVer : Byte
  serialVer : Byte
  imgSize : BitVec 32
  segSize : BitVec 16
  segCount : BitVec 16
  imgCrc32 : BitVec 32
  status : Byte
  imgAddr : BitVec 32
  source : BitVec 32
  segIdx : BitVec 16
  rsvd1 : BitVec 16
  crc32 : BitVec 32
  deriving DecidableEq, Repr

/-- `sizeof(fw_info_t)`. -/
def sizeofFwInfo : Nat := 32

/-- The record before any notification. -/
def FwInfo.cleared : FwInfo := ⟨0, 0, 0, 0, 0, 0, 0, 0, 0, 0, 0, 0, 0⟩

/-- The bytes of a 16-bit member. -/
def bytes16 (value : BitVec 16) : List Byte := [byteOf value 0, byteOf value 1]

/-- The bytes of a 32-bit member. -/
def bytes32 (value : BitVec 32) : List Byte :=
  [byteOf value 0, byteOf value 1, byteOf value 2, byteOf value 3]

/-- The packed bytes of the record before its checksum. -/
def FwInfo.checkedBytes (info : FwInfo) : List Byte :=
  [info.majorVer, info.minorVer, info.serialVer] ++ bytes32 info.imgSize ++ bytes16 info.segSize ++
    bytes16 info.segCount ++ bytes32 info.imgCrc32 ++ [info.status] ++ bytes32 info.imgAddr ++
    bytes32 info.source ++ bytes16 info.segIdx ++ bytes16 info.rsvd1

/-- The packed bytes of the record. -/
def FwInfo.bytes (info : FwInfo) : List Byte := info.checkedBytes ++ bytes32 info.crc32

/-- The record found at the start of a buffer. -/
def fwInfoAt (buffer : Mem) : FwInfo where
  majorVer := buffer 0
  minorVer := buffer 1
  serialVer := buffer 2
  imgSize := load32 buffer 3
  segSize := load16 buffer 7
  segCount := load16 buffer 9
  imgCrc32 := load32 buffer 11
  status := buffer 15
  imgAddr := load32 buffer 16
  source := load32 buffer 20
  segIdx := load16 buffer 24
  rsvd1 := load16 buffer 26
  crc32 := load32 buffer 28

/-- The checksum of a record in memory: little-endian words over all members
before it. -/
def infoCrc (buffer : Mem) : BitVec 32 :=
  calculateCrc32 buffer (sizeofFwInfo - 4 : Nat) .little

/-- The info page can be written. -/
theorem info_page_writable : Writable fwInfoAddr sizeofFwInfo := by
  unfold Writable
  decide

/-- A record is read from its own bytes only. -/
theorem fw_info_at_congr {left right : Mem} (agreed : Agree left right 0 sizeofFwInfo) :
    fwInfoAt left = fwInfoAt right := by
  have byte : ∀ offset, offset < 32 → left offset = right offset := fun offset inside =>
    agreed offset (Nat.zero_le offset) (by rw [Nat.zero_add]; exact inside)
  have half : ∀ offset, offset + 2 ≤ 32 → load16 left offset = load16 right offset :=
    fun offset inside => load16_congr (fun address _ high => byte address (by omega))
  have word : ∀ offset, offset + 4 ≤ 32 → load32 left offset = load32 right offset :=
    fun offset inside => load32_congr (fun address _ high => byte address (by omega))
  ext1
  · exact byte 0 (by decide)
  · exact byte 1 (by decide)
  · exact byte 2 (by decide)
  · exact word 3 (by decide)
  · exact half 7 (by decide)
  · exact half 9 (by decide)
  · exact word 11 (by decide)
  · exact byte 15 (by decide)
  · exact word 16 (by decide)
  · exact word 20 (by decide)
  · exact half 24 (by decide)
  · exact half 26 (by decide)
  · exact word 28 (by decide)

/-- The checksum of a record is computed from its own bytes only. -/
theorem info_crc_congr {left right : Mem} (agreed : Agree left right 0 sizeofFwInfo) :
    infoCrc left = infoCrc right :=
  calculate_crc32_congr .little (agree_mono agreed (Nat.le_refl 0) (by decide))

/-- The checksum does not cover itself. -/
theorem info_crc_own (info : FwInfo) (crc32 : BitVec 32) :
    infoCrc (ofList { info with crc32 := crc32 }.bytes) = infoCrc (ofList info.bytes) := by
  have length : info.checkedBytes.length = 28 := rfl
  apply calculate_crc32_congr
  intro offset _ inside
  have covered : offset < info.checkedBytes.length := by
    rw [length]
    exact inside
  have left : ofList (info.checkedBytes ++ bytes32 crc32) offset =
      ofList info.checkedBytes offset := of_list_left _ _ _ covered
  have right : ofList (info.checkedBytes ++ bytes32 info.crc32) offset =
      ofList info.checkedBytes offset := of_list_left _ _ _ covered
  exact left.trans right.symm

/-- Whatever is refused, writing the record erases the info page and programs
inside it only. -/
theorem info_page_grows {kind : Op → Prop} (buff : Mem) (fmc : Device)
    (erase : kind (.erase fwInfoAddr fmcPageSize))
    (program : ∀ address bytes, fwInfoAddr ≤ address →
      address + bytes.length ≤ fwInfoAddr + fmcPageSize → kind (.program address bytes)) :
    Device.Grows kind fmc (gdfWriteDataByPage fwInfoAddr sizeofFwInfo buff fmc).2 := by
  have base : fwInfoAddr = 134234112 := by decide
  apply write_data_by_page_grows
  · intro page inside
    have first : page = 0 := by
      have one : pageCount sizeofFwInfo = 1 := by decide
      omega
    have plain : wrap32 (fwInfoAddr + fmcPageSize * 0) = fwInfoAddr := by decide
    rw [first, plain]
    exact erase
  · intro word inside
    have small : word < 8 := inside
    have plain : wrap32 (fwInfoAddr + 4 * word) = fwInfoAddr + 4 * word :=
      Nat.mod_eq_of_lt (by omega)
    rw [plain]
    apply program
    · omega
    · rw [to_list_length]
      unfold fmcPageSize
      omega
  · intro byte inside
    exact absurd inside (Nat.not_lt_zero byte)

/-- The bytes of a record one by one. -/
theorem fw_info_bytes (info : FwInfo) :
    info.bytes = [info.majorVer, info.minorVer, info.serialVer,
      byteOf info.imgSize 0, byteOf info.imgSize 1, byteOf info.imgSize 2, byteOf info.imgSize 3,
      byteOf info.segSize 0, byteOf info.segSize 1, byteOf info.segCount 0, byteOf info.segCount 1,
      byteOf info.imgCrc32 0, byteOf info.imgCrc32 1, byteOf info.imgCrc32 2,
      byteOf info.imgCrc32 3, info.status,
      byteOf info.imgAddr 0, byteOf info.imgAddr 1, byteOf info.imgAddr 2, byteOf info.imgAddr 3,
      byteOf info.source 0, byteOf info.source 1, byteOf info.source 2, byteOf info.source 3,
      byteOf info.segIdx 0, byteOf info.segIdx 1, byteOf info.rsvd1 0, byteOf info.rsvd1 1,
      byteOf info.crc32 0, byteOf info.crc32 1, byteOf info.crc32 2, byteOf info.crc32 3] := by
  simp only [FwInfo.bytes, FwInfo.checkedBytes, bytes16, bytes32, List.cons_append,
    List.nil_append]

/-- A stored record reads back. -/
theorem fw_info_at_bytes (info : FwInfo) : fwInfoAt (ofList info.bytes) = info := by
  rw [fw_info_bytes]
  ext1
  · rfl
  · rfl
  · rfl
  · exact load32_of_bytes _ 3 info.imgSize (by intro index inside; interval_cases index <;> rfl)
  · exact load16_of_bytes _ 7 info.segSize (by intro index inside; interval_cases index <;> rfl)
  · exact load16_of_bytes _ 9 info.segCount (by intro index inside; interval_cases index <;> rfl)
  · exact load32_of_bytes _ 11 info.imgCrc32 (by intro index inside; interval_cases index <;> rfl)
  · rfl
  · exact load32_of_bytes _ 16 info.imgAddr (by intro index inside; interval_cases index <;> rfl)
  · exact load32_of_bytes _ 20 info.source (by intro index inside; interval_cases index <;> rfl)
  · exact load16_of_bytes _ 24 info.segIdx (by intro index inside; interval_cases index <;> rfl)
  · exact load16_of_bytes _ 26 info.rsvd1 (by intro index inside; interval_cases index <;> rfl)
  · exact load32_of_bytes _ 28 info.crc32 (by intro index inside; interval_cases index <;> rfl)

end Pyrometer.FirmwareInfo
