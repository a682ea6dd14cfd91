import Pyrometer.BurstErrors

/-!
# The nibble tables of the 16-bit checksums

`crc16_CCITT` and `crc16_IBM` take the high nibble of a byte first, out of a register that
moves to the left, and `crc16_RTU` the low one, out of a register that moves to the right.
The definitions compared with are those of a register that is clocked once for each bit:
a byte is added to the end of it that leaves first, and eight clocks follow.
-/

namespace Pyrometer.CrcTables

open ByteMemory ShiftRegister LinearRegisters Checksums BurstErrors

/-- `CRC16_CCITT_TABLE`. -/
def crc16CcittTable : List (BitVec 16) :=
  [0x0000, 0x1021, 0x2042, 0x3063, 0x4084, 0x50A5, 0x60C6, 0x70E7, 0x8108, 0x9129, 0xA14A, 0xB16B,
    0xC18C, 0xD1AD, 0xE1CE, 0xF1EF]

/-- `CRC16_IBM_TABLE`. -/
def crc16IbmTable : List (BitVec 16) :=
  [0x0000, 0x8005, 0x800F, 0x000A, 0x801B, 0x001E, 0x0014, 0x8011, 0x8033, 0x0036, 0x003C, 0x8039,
    0x0028, 0x802D, 0x8027, 0x0022]

/-- One line of the loops: the table at the high nibble of the register and a nibble. -/
def crc16Nibble (table : List (BitVec 16)) (crc nibble : BitVec 16) : BitVec 16 :=
  (crc <<< 4) ^^^ table.getD ((crc >>> 12) ^^^ nibble).toNat 0

/-- One pass of the loops. -/
def crc16Byte (table : List (BitVec 16)) (crc : BitVec 16) (data : Byte) : BitVec 16 :=
  let crc := crc16Nibble table crc (data.setWidth 16 >>> 4 &&& 0x0F)
  crc16Nibble table crc (data.setWidth 16 &&& 0x0F)

/-- The loop for some bytes. -/
def crc16Loop (table : List (BitVec 16)) (buff : Mem) : Nat → BitVec 16
  | 0 => 0
  | len + 1 => crc16Byte table (crc16Loop table buff len) (buff len)

/-- `crc16_CCITT`. -/
def crc16CCITT (buff : Mem) (len : Nat) : BitVec 16 := crc16Loop crc16CcittTable buff len

/-- `crc16_IBM`. -/
def crc16IBM (buff : Mem) (len : Nat) : BitVec 16 := crc16Loop crc16IbmTable buff len

/-- A byte in the bit-serial register whose low bit leaves first. -/
def reflectedByte (polynomial register : BitVec 16) (byte : Byte) : BitVec 16 :=
  (shiftRight polynomial)^[8] (register ^^^ byte.setWidth 16)

/-- A byte in the bit-serial register whose high bit leaves first. -/
def plainByte (polynomial register : BitVec 16) (byte : Byte) : BitVec 16 :=
  (shiftLeft polynomial)^[8] (register ^^^ byte.setWidth 16 <<< 8)

/-- A table holds what four clocks make of a nibble at the high end. -/
def Tabulates (polynomial : BitVec 16) (table : List (BitVec 16)) : Prop :=
  ∀ index < 16, table.getD index 0 =
    (shiftLeft polynomial)^[4] (BitVec.ofNat 16 index <<< 12)

/-- Each entry of `CRC16_CCITT_TABLE` is four clocks of its index. -/
theorem ccitt_tabulates : Tabulates 0x1021#16 crc16CcittTable := by
  unfold Tabulates
  decide

/-- Each entry of `CRC16_IBM_TABLE` is four clocks of its index. -/
theorem ibm_tabulates : Tabulates 0x8005#16 crc16IbmTable := by
  unfold Tabulates
  decide

/-- A line of the loops adds a nibble at the high end and clocks four times. -/
theorem nibble_clocks {polynomial : BitVec 16} {table : List (BitVec 16)}
    (tabulates : Tabulates polynomial table) (crc symbol : BitVec 16) :
    crc16Nibble table crc (symbol &&& 0x0F) =
      (shiftLeft polynomial)^[4] (crc ^^^ (symbol &&& 0x0F) <<< 12) := by
  have entries : ∀ index : BitVec 16, index &&& BitVec.ofNat 16 (2 ^ 4 - 1) = index →
      table.getD index.toNat 0 = (shiftLeft polynomial)^[4] (index <<< (16 - 4)) := by
    intro index nibble
    have small : index.toNat < 16 := by
      rw [← nibble, BitVec.toNat_and]
      exact Nat.lt_of_le_of_lt Nat.and_le_right (by decide)
    have entry := tabulates index.toNat small
    rwa [BitVec.ofNat_toNat, BitVec.setWidth_eq] at entry
  exact @consume_left_iterate 16 4 (by decide) (fun index => table.getD index.toNat 0) polynomial
    entries crc symbol

/-- The low nibble of a byte under its high end is quiet there. -/
theorem low_nibble_quiet (data : Byte) {position : Nat} (above : 12 ≤ position) :
    ((data.setWidth 16 &&& 0x0F) <<< 8).getLsbD position = false := by
  by_cases inside : position < 16
  · interval_cases position <;> simp
  · exact BitVec.getLsbD_of_ge _ _ (not_lt.mp inside)

/-- A pass of the loops is a byte in the bit-serial register. -/
theorem byte_clocks {polynomial : BitVec 16} {table : List (BitVec 16)}
    (tabulates : Tabulates polynomial table) (crc : BitVec 16) (data : Byte) :
    crc16Byte table crc data = plainByte polynomial crc data := by
  have parts : data.setWidth 16 <<< 8 =
      (data.setWidth 16 >>> 4 &&& 0x0F) <<< 12 ^^^ (data.setWidth 16 &&& 0x0F) <<< 8 := by
    apply BitVec.eq_of_getLsbD_eq
    intro position bound
    interval_cases position <;> simp
  have moved : ((data.setWidth 16 &&& 0x0F) <<< 8) <<< 4 =
      (data.setWidth 16 &&& 0x0F) <<< 12 := (BitVec.shiftLeft_add _ 8 4).symm
  calc crc16Byte table crc data
      = (shiftLeft polynomial)^[4]
          ((shiftLeft polynomial)^[4] (crc ^^^ (data.setWidth 16 >>> 4 &&& 0x0F) <<< 12) ^^^
            (data.setWidth 16 &&& 0x0F) <<< 12) := by
        rw [crc16Byte, nibble_clocks tabulates, nibble_clocks tabulates]
    _ = plainByte polynomial crc data := by
        rw [plainByte, parts, ← moved]
        exact (shift_left_parts polynomial crc _ 4 4
          fun position above => low_nibble_quiet data above).symm

/-- The loop is the bit-serial register fed byte by byte. -/
theorem loop_clocks {polynomial : BitVec 16} {table : List (BitVec 16)}
    (tabulates : Tabulates polynomial table) (buff : Mem) (len : Nat) :
    crc16Loop table buff len = (toList buff 0 len).foldl (plainByte polynomial) 0 := by
  induction len with
  | zero => rfl
  | succ len inductionHypothesis =>
    rw [crc16Loop, inductionHypothesis, byte_clocks tabulates, to_list_append, to_list_one,
      List.foldl_append, Nat.zero_add]
    rfl

/-- A pass of the loop of `crc16_RTU` is a byte in the bit-serial register. -/
theorem rtu_byte_clocks (crc : BitVec 16) (data : Byte) :
    crc16RtuByte crc data = reflectedByte crc16Polynomial crc data := by
  have pattern : pattern 16 data.getLsbD 8 = data.setWidth 16 := by
    apply BitVec.eq_of_getLsbD_eq
    intro position bound
    rw [pattern_bit data.getLsbD 8 bound, BitVec.getLsbD_setWidth]
    by_cases inside : position < 8
    · simp [inside, bound]
    · simp [inside, BitVec.getLsbD_of_ge data position (not_lt.mp inside)]
  rw [crc16_byte_serial, serial_iterate crc16Polynomial _ crc 8 (by decide), pattern]
  rfl

/-- The loop of `crc16_RTU` is the bit-serial register fed byte by byte. -/
theorem rtu_clocks (buff : Mem) (len : Nat) :
    crc16RTU buff len = (toList buff 0 len).foldl (reflectedByte crc16Polynomial) 0xFFFF#16 := by
  induction len with
  | zero => rfl
  | succ len inductionHypothesis =>
    rw [crc16RTU, inductionHypothesis, rtu_byte_clocks, to_list_append, to_list_one,
      List.foldl_append, Nat.zero_add]
    rfl

/-- A buffer reads back as its bytes. -/
theorem to_list_of_list (text : List Byte) : toList (ofList text) 0 text.length = text := by
  apply List.ext_getElem
  · simp
  · intro index inside _
    rw [to_list_length] at inside
    simp [toList, ofList, inside]

/-- A string with its own checksum behind it has the checksum zero. -/
theorem rtu_residue (text : List Byte) :
    crc16RTU (ofList (text ++ [byteOf (crc16RTU (ofList text) text.length) 0,
      byteOf (crc16RTU (ofList text) text.length) 1])) (text.length + 2) = 0 := by
  obtain ⟨crc, isCrc⟩ : ∃ crc, crc = crc16RTU (ofList text) text.length := ⟨_, rfl⟩
  rw [← isCrc]
  have front : crc16RTU (ofList (text ++ [byteOf crc 0, byteOf crc 1])) text.length = crc := by
    rw [isCrc]
    apply crc16_congr
    intro address _ inside
    exact of_list_left _ _ _ (by omega)
  apply crc16_residue
  rw [front]
  apply load16_of_bytes
  intro index below
  have behind := congrFun (of_list_right text [byteOf crc 0, byteOf crc 1]) index
  rw [window] at behind
  rw [behind]
  interval_cases index <;> rfl

/-- The table-driven checksums of a string are the bit-serial ones, and `crc16_RTU` of a
string with its own checksum behind it, low byte first, is zero. -/
theorem crc_tables (text : List Byte) :
    crc16RTU (ofList text) text.length = text.foldl (reflectedByte 0xA001#16) 0xFFFF#16 ∧
      crc16CCITT (ofList text) text.length = text.foldl (plainByte 0x1021#16) 0 ∧
      crc16IBM (ofList text) text.length = text.foldl (plainByte 0x8005#16) 0 ∧
      crc16RTU (ofList (text ++ [byteOf (crc16RTU (ofList text) text.length) 0,
        byteOf (crc16RTU (ofList text) text.length) 1])) (text.length + 2) = 0 := by
  refine ⟨?_, ?_, ?_, rtu_residue text⟩
  · rw [rtu_clocks, to_list_of_list]
  · rw [crc16CCITT, loop_clocks ccitt_tabulates, to_list_of_list]
  · rw [crc16IBM, loop_clocks ibm_tabulates, to_list_of_list]

end Pyrometer.CrcTables
