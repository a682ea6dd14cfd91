import Pyrometer.ByteMemory
import Pyrometer.ShiftRegister

/-!
# The device's checksums

`crc16RTU` is the nibble-table loop of `hq_generic.c`. `calculateCrc32` is the
routine of `gd32_crc.c` over the MCU's CRC unit: a 32-bit register, reset to all
ones, fed one word at a time, with the polynomial `0x04C11DB7` that the host's
upgrade client also uses.

The length argument of `calculate_crc32` is a signed int: a size of two
gigabytes or more arrives as a negative number and no word is fed. The final
partial word is read whole and masked with constants that keep its high-address
bytes; the model keeps those masks as they stand in the source.
-/

namespace Pyrometer.Checksums

open ByteMemory

/-- `CRC16_RTU_TABLE`, indexed by a nibble. -/
def crc16RtuTable (index : BitVec 16) : BitVec 16 :=
  [0x0000#16, 0xCC01#16, 0xD801#16, 0x1400#16, 0xF001#16, 0x3C00#16, 0x2800#16, 0xE401#16,
    0xA001#16, 0x6C00#16, 0x7800#16, 0xB401#16, 0x5000#16, 0x9C01#16, 0x8801#16,
    0x4400#16].getD index.toNat 0

/-- One pass of the `crc16_RTU` loop: the low nibble of the byte, then the high one. -/
def crc16RtuByte (crc : BitVec 16) (data : Byte) : BitVec 16 :=
  ShiftRegister.consume 4 crc16RtuTable
    (ShiftRegister.consume 4 crc16RtuTable crc (data.setWidth 16)) (data.setWidth 16 >>> 4)

/-- `crc16_RTU`: the register starts at all ones and consumes `len` bytes in
address order. -/
def crc16RTU (buff : Mem) : Nat → BitVec 16
  | 0 => 0xFFFF#16
  | len + 1 => crc16RtuByte (crc16RTU buff len) (buff len)

/-- The checksum reads its buffer only. -/
theorem crc16_congr {left right : Mem} {len : Nat} (agreed : Agree left right 0 len) :
    crc16RTU left len = crc16RTU right len := by
  induction len with
  | zero => rfl
  | succ len inductionHypothesis =>
    have before : Agree left right 0 len := agree_mono agreed (by omega) (by omega)
    simp only [crc16RTU, inductionHypothesis before, agreed len (by omega) (by omega)]

/-- Consuming its own low byte shifts that byte out of the register. -/
theorem crc16_byte_own (crc : BitVec 16) : crc16RtuByte crc (byteOf crc 0) = crc >>> 8 := by
  have low : crc &&& BitVec.ofNat 16 (2 ^ 4 - 1) =
      (byteOf crc 0).setWidth 16 &&& BitVec.ofNat 16 (2 ^ 4 - 1) := by
    apply BitVec.eq_of_getLsbD_eq
    intro position bound
    interval_cases position <;> simp [byteOf]
  have high : crc >>> 4 &&& BitVec.ofNat 16 (2 ^ 4 - 1) =
      (byteOf crc 0).setWidth 16 >>> 4 &&& BitVec.ofNat 16 (2 ^ 4 - 1) := by
    apply BitVec.eq_of_getLsbD_eq
    intro position bound
    interval_cases position <;> simp [byteOf]
  unfold crc16RtuByte
  rw [ShiftRegister.consume_own 4 crc16RtuTable crc _ (by decide) low,
    ShiftRegister.consume_own 4 crc16RtuTable (crc >>> 4) _ (by decide) high,
    ← BitVec.shiftRight_add]

/-- A string followed by its own checksum, low byte first, has checksum zero.
The first appended byte empties the low half of the register and the second one
the rest. -/
theorem crc16_residue (buff : Mem) (len : Nat) (appended : load16 buff len = crc16RTU buff len) :
    crc16RTU buff (len + 2) = 0 := by
  have low : buff len = byteOf (crc16RTU buff len) 0 := by
    rw [← appended, byte_of_load16 buff len 0 (by decide), Nat.add_zero]
  have high : buff (len + 1) = byteOf (crc16RTU buff len >>> 8) 0 := by
    rw [← byte_of_load16 buff len 1 (by decide), appended]
    apply BitVec.eq_of_getLsbD_eq
    intro position bound
    simp [byteOf, bound]
  have first : crc16RTU buff (len + 1) = crc16RTU buff len >>> 8 := by
    rw [crc16RTU, low, crc16_byte_own]
  have second : crc16RTU buff (len + 2) = crc16RTU buff len >>> 8 >>> 8 := by
    rw [crc16RTU, first, high, crc16_byte_own]
  rw [second, ← BitVec.shiftRight_add]
  exact BitVec.ushiftRight_eq_zero (by decide)

/-- Byte order in which `calculate_crc32` feeds a word. -/
inductive EndianMode where
  | little
  | big
  deriving DecidableEq, Repr

/-- `__REV`: the bytes of a word in the opposite order. -/
def reverseWord (value : BitVec 32) : BitVec 32 :=
  byteOf value 0 ++ byteOf value 1 ++ byteOf value 2 ++ byteOf value 3

/-- The word in the order the endian argument asks for. -/
def orient (endian : EndianMode) (word : BitVec 32) : BitVec 32 :=
  match endian with
  | .little => word
  | .big => reverseWord word

/-- The hardware register after one write to `CRC_DATA`. -/
def crcData (crc word : BitVec 32) : BitVec 32 :=
  ShiftRegister.feed 0x04C11DB7#32 crc word

/-- The constants that mask a final word of which `len` bytes remain. -/
def tailMask (len : Nat) : BitVec 32 :=
  match len with
  | 1 => 0xFF000000#32
  | 2 => 0xFFFF0000#32
  | 3 => 0xFFFFFF00#32
  | _ => 0xFFFFFFFF#32

/-- The register after the first `count` whole words. -/
def crcWords (data : Mem) (endian : EndianMode) : Nat → BitVec 32
  | 0 => 0xFFFFFFFF#32
  | count + 1 => crcData (crcWords data endian count) (orient endian (load32 data (4 * count)))

/-- `calculate_crc32`: whole words first, then one masked word for a remainder
of one to three bytes. A negative length feeds nothing. -/
def calculateCrc32 (data : Mem) (len : Int) (endian : EndianMode) : BitVec 32 :=
  let count := len.toNat / 4
  let crc := crcWords data endian count
  let rest := len.toNat % 4
  if rest = 0 then crc
  else crcData crc (orient endian (load32 data (4 * count) &&& tailMask rest))

/-- An unsigned size passed as the int argument of `calculate_crc32`. -/
def asInt (size : BitVec 32) : Int := size.toInt

/-- Reversal of the byte order loses nothing. -/
theorem reverse_word_involutive (value : BitVec 32) : reverseWord (reverseWord value) = value := by
  apply BitVec.eq_of_getLsbD_eq
  intro position bound
  simp only [reverseWord, byteOf, BitVec.getLsbD_append, BitVec.getLsbD_extractLsb']
  grind

/-- Either byte order distinguishes different words. -/
theorem orient_injective (endian : EndianMode) : Function.Injective (orient endian) := by
  cases endian with
  | little => exact fun _ _ same => same
  | big =>
    exact Function.LeftInverse.injective reverse_word_involutive

/-- From one register state, different words give different results. -/
theorem crc_data_injective (crc : BitVec 32) : Function.Injective (crcData crc) :=
  ShiftRegister.feed_injective _ crc (by decide)

/-- Whole words are read from their own range only. -/
theorem crc_words_congr {left right : Mem} (endian : EndianMode) (count : Nat)
    (agreed : Agree left right 0 (4 * count)) :
    crcWords left endian count = crcWords right endian count := by
  induction count with
  | zero => rfl
  | succ count inductionHypothesis =>
    have before : Agree left right 0 (4 * count) := agree_mono agreed (by omega) (by omega)
    have word : load32 left (4 * count) = load32 right (4 * count) :=
      load32_congr (agree_mono agreed (by omega) (by omega))
    simp only [crcWords, inductionHypothesis before, word]

/-- The routine reads the length rounded up to whole words, and nothing else. -/
theorem calculate_crc32_congr {left right : Mem} {len : Int} (endian : EndianMode)
    (agreed : Agree left right 0 (4 * ((len.toNat + 3) / 4))) :
    calculateCrc32 left len endian = calculateCrc32 right len endian := by
  have words : crcWords left endian (len.toNat / 4) = crcWords right endian (len.toNat / 4) :=
    crc_words_congr endian _ (agree_mono agreed (by omega) (by omega))
  unfold calculateCrc32
  simp only [words]
  split
  · rfl
  · rename_i partialWord
    have tail : load32 left (4 * (len.toNat / 4)) = load32 right (4 * (len.toNat / 4)) :=
      load32_congr (agree_mono agreed (by omega) (by omega))
    rw [tail]

/-- Buffers whose whole words agree have equal checksums exactly when the masked
remainders agree: the CRC unit distinguishes the last word it is fed. -/
theorem calculate_crc32_tail_iff (left right : Mem) (len : Int) (endian : EndianMode)
    (agreed : Agree left right 0 (4 * (len.toNat / 4))) :
    calculateCrc32 left len endian = calculateCrc32 right len endian ↔
      (len.toNat % 4 ≠ 0 →
        load32 left (4 * (len.toNat / 4)) &&& tailMask (len.toNat % 4) =
          load32 right (4 * (len.toNat / 4)) &&& tailMask (len.toNat % 4)) := by
  have words : crcWords left endian (len.toNat / 4) = crcWords right endian (len.toNat / 4) :=
    crc_words_congr endian _ agreed
  unfold calculateCrc32
  simp only [words]
  by_cases whole : len.toNat % 4 = 0
  · simp [whole]
  · simp only [whole, if_false, ne_eq, not_false_eq_true, forall_const]
    constructor
    · intro same
      exact orient_injective endian (crc_data_injective _ same)
    · intro same
      rw [same]

/-- The tail masks keep the bytes at the high addresses of a word: as many as
remain, but not those that remain. -/
theorem byte_of_tail (value : BitVec 32) (rest index : Nat) (low : 0 < rest) (high : rest < 4)
    (inside : index < 4) :
    byteOf (value &&& tailMask rest) index =
      if 4 - rest ≤ index then byteOf value index else 0 := by
  have mask : byteOf (tailMask rest) index = if 4 - rest ≤ index then 255#8 else 0 := by
    interval_cases rest <;> interval_cases index <;> decide
  have ones : ∀ byte : Byte, byte &&& 255#8 = byte := by decide
  have zeros : ∀ byte : Byte, byte &&& 0 = 0 := by decide
  have conjoined : byteOf (value &&& tailMask rest) index =
      byteOf value index &&& byteOf (tailMask rest) index := BitVec.extractLsb'_and
  rw [conjoined, mask]
  split
  · exact ones _
  · exact zeros _

/-- Two masked words are equal exactly when the kept bytes are. -/
theorem tail_mask_iff (left right : Mem) (address rest : Nat) (low : 0 < rest) (high : rest < 4) :
    load32 left address &&& tailMask rest = load32 right address &&& tailMask rest ↔
      ∀ index, 4 - rest ≤ index → index < 4 →
        left (address + index) = right (address + index) := by
  constructor
  · intro same index kept inside
    have bytes := congrArg (fun value => byteOf value index) same
    simp only [byte_of_tail _ rest index low high inside, if_pos kept] at bytes
    rw [byte_of_load32 _ _ _ inside, byte_of_load32 _ _ _ inside] at bytes
    exact bytes
  · intro same
    apply word_ext
    intro index inside
    rw [byte_of_tail _ rest index low high inside, byte_of_tail _ rest index low high inside]
    split
    · rename_i kept
      rw [byte_of_load32 _ _ _ inside, byte_of_load32 _ _ _ inside]
      exact same index kept inside
    · rfl

end Pyrometer.Checksums
