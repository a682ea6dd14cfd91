import Mathlib.Data.Nat.Bitwise
import Pyrometer.Checksums
import Pyrometer.LinearRegisters

/-!
# The image checksum of the host

`crc32` of `upgrade_client_new.py` is a byte-wise checksum with a table of 256 entries
that it fills itself. Numbers are those of the host and have no width; an index outside
the table, or a result that does not fit four bytes, would raise an error.

For the device this is compared with `calculate_crc32` in the big-endian mode, in which
`CMD_UP_finish` checks a received image. A length is one that the signed argument holds.
-/

namespace Pyrometer.HostChecksum

open ByteMemory ShiftRegister LinearRegisters Checksums

/-- The polynomial on both sides. -/
abbrev crc32Polynomial : BitVec 32 := 0x04C11DB7#32

/-- One pass of the inner loop that fills the table. -/
def tablePass (crc : Nat) : Nat :=
  if crc &&& 0x80000000 ≠ 0 then (crc <<< 1) ^^^ 0x04C11DB7 else crc <<< 1

/-- `crc_table`. -/
def crcTable : List Nat :=
  (List.range 256).map fun index => tablePass^[8] (index <<< 24) &&& 0xFFFFFFFF

/-- One pass of the loop over the data. -/
def crcPass (crc : Nat) (byte : Byte) : Option Nat := do
  let entry ← crcTable[(crc >>> 24) ^^^ byte.toNat]?
  return ((crc <<< 8) &&& 0xFFFFFF00) ^^^ entry

/-- `to_bytes(4, 'little')`. -/
def toBytes (value : Nat) : Option (List Byte) :=
  if value < 2 ^ 32 then some (leBytes 4 value) else none

/-- `crc32`. -/
def crc32 (data : List Byte) : Option (List Byte) := do
  let crc ← data.foldlM crcPass 0xFFFFFFFF
  toBytes (crc ^^^ 0x00000000)

/-- The register after a byte that is added to its high end. -/
def feedByte (register : BitVec 32) (byte : Byte) : BitVec 32 :=
  (shiftLeft crc32Polynomial)^[8] (register ^^^ byte.setWidth 32 <<< 24)

/-- A shift on the host, cut to the width of the register. -/
theorem of_nat_shift (value clocks : Nat) :
    BitVec.ofNat 32 (value <<< clocks) = BitVec.ofNat 32 value <<< clocks := by
  apply BitVec.eq_of_toNat_eq
  simp [Nat.shiftLeft_eq]

/-- A pass of the table loop is a clock of the register, cut to its width. -/
theorem table_pass_clock (crc : Nat) :
    BitVec.ofNat 32 (tablePass crc) = shiftLeft crc32Polynomial (BitVec.ofNat 32 crc) := by
  have leaving : (crc &&& 0x80000000 ≠ 0) ↔ (BitVec.ofNat 32 crc).msb = true := by
    have single : crc &&& 0x80000000 = 2 ^ 31 * (crc.testBit 31).toNat := by
      rw [Nat.and_comm]
      exact Nat.two_pow_and crc 31
    rw [single, BitVec.msb_eq_getLsbD_last, BitVec.getLsbD_ofNat]
    cases crc.testBit 31 <;> simp
  unfold tablePass shiftLeft
  by_cases set : crc &&& 0x80000000 ≠ 0
  · rw [if_pos set, if_pos (leaving.mp set), ← of_nat_shift]
    exact BitVec.ofNat_xor
  · rw [if_neg set, if_neg fun leading => set (leaving.mpr leading), of_nat_shift]

/-- An entry of the table is its index at the high end, clocked eight times. -/
theorem crc_table_entry {index : Nat} (bound : index < 256) :
    crcTable[index]? =
      some ((shiftLeft crc32Polynomial)^[8] (BitVec.ofNat 32 index <<< 24)).toNat := by
  have clocks : BitVec.ofNat 32 (tablePass^[8] (index <<< 24)) =
      (shiftLeft crc32Polynomial)^[8] (BitVec.ofNat 32 (index <<< 24)) :=
    Function.Semiconj.iterate_right table_pass_clock 8 _
  rw [← of_nat_shift, ← clocks, BitVec.toNat_ofNat, ← Nat.and_two_pow_sub_one_eq_mod]
  simp [crcTable, bound]

/-- A pass of the loop over the data is a byte fed to the register: the index is the high
byte of the sum, and what lies under it only moves up. -/
theorem crc_pass_feed (register : BitVec 32) (byte : Byte) :
    crcPass register.toNat byte = some (feedByte register byte).toNat := by
  have index : (register.toNat >>> 24) ^^^ byte.toNat =
      (register.extractLsb' 24 8 ^^^ byte).toNat := by
    rw [BitVec.toNat_xor, BitVec.extractLsb'_toNat, Nat.mod_eq_of_lt]
    rw [Nat.shiftRight_eq_div_pow]
    omega
  have parts : register ^^^ byte.setWidth 32 <<< 24 =
      (BitVec.ofNat 32 (register.extractLsb' 24 8 ^^^ byte).toNat <<< 24) ^^^
        (register &&& 0x00FFFFFF#32) := by
    rw [BitVec.ofNat_toNat]
    apply BitVec.eq_of_getLsbD_eq
    intro position bound
    interval_cases position <;> simp
  have quiet : ∀ position, 32 - 8 ≤ position →
      (register &&& 0x00FFFFFF#32).getLsbD position = false := by
    intro position high
    rw [BitVec.getLsbD_and, show (0x00FFFFFF#32) = BitVec.ofNat 32 (2 ^ 24 - 1) from rfl,
      BitVec.getLsbD_ofNat, Nat.testBit_two_pow_sub_one]
    simp
    omega
  have low : ((register &&& 0x00FFFFFF#32) <<< 8).toNat =
      (register.toNat <<< 8) &&& 0xFFFFFF00 := by
    have small : register.toNat &&& 0x00FFFFFF < 2 ^ 24 :=
      Nat.and_lt_two_pow _ (by decide)
    have fits : (register.toNat &&& 0x00FFFFFF) <<< 8 < 2 ^ 32 := by
      rw [Nat.shiftLeft_eq]
      omega
    calc ((register &&& 0x00FFFFFF#32) <<< 8).toNat
        = (register.toNat &&& 0x00FFFFFF) <<< 8 := by
          rw [BitVec.toNat_shiftLeft, BitVec.toNat_and]
          exact Nat.mod_eq_of_lt fits
      _ = (register.toNat <<< 8) &&& 0xFFFFFF00 := Nat.shiftLeft_and_distrib
  rw [feedByte, parts, iterate_xor (shift_left_xor _), shift_left_quiet _ 8 quiet,
    BitVec.toNat_xor, low, crcPass, index, crc_table_entry (BitVec.isLt _)]
  exact congrArg some (Nat.xor_comm _ _)

/-- The client's loop is the register fed byte by byte. -/
theorem crc_loop_feed (data : List Byte) (register : BitVec 32) :
    data.foldlM crcPass register.toNat = some (data.foldl feedByte register).toNat := by
  induction data generalizing register with
  | nil => rfl
  | cons byte rest inductionHypothesis =>
    rw [List.foldlM_cons, crc_pass_feed]
    exact inductionHypothesis _

/-- What the client returns. -/
theorem crc32_feed (data : List Byte) :
    crc32 data = some (leBytes 4 (data.foldl feedByte 0xFFFFFFFF#32).toNat) := by
  have loop : data.foldlM crcPass 0xFFFFFFFF = some (data.foldl feedByte 0xFFFFFFFF#32).toNat :=
    crc_loop_feed data 0xFFFFFFFF#32
  rw [crc32, loop]
  change toBytes (_ ^^^ 0) = _
  rw [Nat.xor_zero]
  exact if_pos (BitVec.isLt _)

/-- Above its own bits a byte in a word is quiet. -/
theorem byte_quiet (byte : Byte) {place position : Nat} (above : place + 8 ≤ position) :
    (byte.setWidth 32 <<< place).getLsbD position = false := by
  rw [BitVec.getLsbD_shiftLeft, BitVec.getLsbD_setWidth,
    BitVec.getLsbD_of_ge byte (position - place) (by omega)]
  simp

/-- In the big-endian mode the byte at the lowest address is the highest one. -/
theorem orient_big (data : Mem) (address : Nat) :
    orient .big (load32 data address) =
      (data address).setWidth 32 <<< 24 ^^^ ((data (address + 1)).setWidth 32 <<< 16 ^^^
        ((data (address + 2)).setWidth 32 <<< 8 ^^^ (data (address + 3)).setWidth 32 <<< 0)) := by
  apply BitVec.eq_of_getLsbD_eq
  intro position bound
  simp only [orient, reverseWord, byte_of_load32 data address _ (show 0 < 4 by decide),
    byte_of_load32 data address _ (show 1 < 4 by decide),
    byte_of_load32 data address _ (show 2 < 4 by decide),
    byte_of_load32 data address _ (show 3 < 4 by decide), BitVec.getLsbD_append,
    BitVec.getLsbD_xor, BitVec.getLsbD_shiftLeft, BitVec.getLsbD_setWidth]
  interval_cases position <;> simp

/-- A word in the big-endian mode is its four bytes fed in address order: each one leaves the
register while the later ones only move up. -/
theorem crc_data_bytes (crc : BitVec 32) (data : Mem) (address : Nat) :
    crcData crc (orient .big (load32 data address)) =
      (toList data address 4).foldl feedByte crc := by
  have step (register rest : BitVec 32) (byte : Byte) (clocks : Nat)
      (quiet : ∀ position, 24 ≤ position → rest.getLsbD position = false) :
      (shiftLeft crc32Polynomial)^[8 + clocks]
          (register ^^^ (byte.setWidth 32 <<< 24 ^^^ rest)) =
        (shiftLeft crc32Polynomial)^[clocks] (feedByte register byte ^^^ rest <<< 8) :=
    shift_left_parts _ _ _ 8 clocks quiet
  have first := step crc ((data (address + 1)).setWidth 32 <<< 16 ^^^
    ((data (address + 2)).setWidth 32 <<< 8 ^^^ (data (address + 3)).setWidth 32 <<< 0))
    (data address) 24
    (fun position high => by
      rw [BitVec.getLsbD_xor, BitVec.getLsbD_xor, byte_quiet _ (by omega),
        byte_quiet _ (by omega), byte_quiet _ (by omega)]
      rfl)
  have second := step (feedByte crc (data address)) ((data (address + 2)).setWidth 32 <<< 16 ^^^
    (data (address + 3)).setWidth 32 <<< 8) (data (address + 1)) 16
    (fun position high => by
      rw [BitVec.getLsbD_xor, byte_quiet _ (by omega), byte_quiet _ (by omega)]
      rfl)
  have third := step (feedByte (feedByte crc (data address)) (data (address + 1)))
    ((data (address + 3)).setWidth 32 <<< 16) (data (address + 2)) 8
    (fun position high => byte_quiet _ (by omega))
  simp only [BitVec.shiftLeft_xor_distrib, ← BitVec.shiftLeft_add,
    Nat.reduceAdd] at first second third
  rw [crcData, feed, orient_big, first, second, third]
  rfl

/-- Whole words in the big-endian mode are their bytes fed in address order. -/
theorem crc_words_bytes (data : Mem) (count : Nat) :
    crcWords data .big count = (toList data 0 (4 * count)).foldl feedByte 0xFFFFFFFF#32 := by
  induction count with
  | zero => rfl
  | succ count inductionHypothesis =>
    rw [crcWords, inductionHypothesis, crc_data_bytes, Nat.mul_succ, to_list_append,
      List.foldl_append, Nat.zero_add]

/-- The image with zeros up to a whole number of words. -/
def padded (image : List Byte) : List Byte :=
  image ++ List.replicate ((4 - image.length % 4) % 4) 0

/-- Wherever the image lies in memory, the device's checksum is that of the image alone
and is the one of the host for the padded image. -/
structure HostAgrees (image : List Byte) : Prop where
  own : ∀ left right, toList left 0 image.length = image → toList right 0 image.length = image →
    calculateCrc32 left image.length .big = calculateCrc32 right image.length .big
  same : ∀ memory, toList memory 0 image.length = image →
    crc32 (padded image) = some (leBytes 4 (calculateCrc32 memory image.length .big).toNat)

/-- An image in memory, with a byte behind it. -/
theorem image_followed (image : List Byte) (byte : Byte) (index : Nat)
    (behind : image.length ≤ index) :
    toList (overlay (ofList image) (fun _ => byte) index 1) 0 image.length = image := by
  apply List.ext_getElem
  · simp
  · intro place inside _
    rw [to_list_length] at inside
    have stored : overlay (ofList image) (fun _ => byte) index 1 place = image[place] := by
      rw [overlay_outside _ _ _ _ _ (by omega)]
      simp [ofList, inside]
    simpa [toList] using stored

/-- Of an image that ends inside a word the checksum takes a byte behind it. -/
theorem byte_behind_counts (image : List Byte) (inside : image.length % 4 ≠ 0) :
    ∃ left right, toList left 0 image.length = image ∧ toList right 0 image.length = image ∧
      calculateCrc32 left image.length .big ≠ calculateCrc32 right image.length .big := by
  let last := 4 * (image.length / 4) + 3
  have behind : image.length ≤ last := by omega
  refine ⟨_, _, image_followed image 0 last behind, image_followed image 1 last behind, ?_⟩
  intro same
  have words : Agree (overlay (ofList image) (fun _ => 0) last 1)
      (overlay (ofList image) (fun _ => 1) last 1) 0 (4 * (image.length / 4)) := by
    intro address _ below
    rw [overlay_outside _ _ _ _ _ (by omega), overlay_outside _ _ _ _ _ (by omega)]
  have tails := (calculate_crc32_tail_iff _ _ image.length .big words).mp same inside
  have bytes := (tail_mask_iff _ _ _ (image.length % 4) (by omega) (by omega)).mp tails 3
    (by omega) (by decide)
  rw [overlay_inside _ _ _ _ _ (by omega) (by omega),
    overlay_inside _ _ _ _ _ (by omega) (by omega)] at bytes
  exact absurd bytes (by decide)

/-- For every image: the device's checksum is that of the image alone and is the one of the
host exactly when the image ends with a word. -/
theorem host_agrees_iff (image : List Byte) : HostAgrees image ↔ image.length % 4 = 0 := by
  constructor
  · intro agrees
    by_contra inside
    obtain ⟨left, right, inLeft, inRight, differ⟩ := byte_behind_counts image inside
    exact differ (agrees.own left right inLeft inRight)
  · intro whole
    have unpadded : padded image = image := by
      rw [padded, whole]
      exact List.append_nil image
    have device : ∀ memory, toList memory 0 image.length = image →
        calculateCrc32 memory image.length .big = image.foldl feedByte 0xFFFFFFFF#32 := by
      intro memory stored
      have words : 4 * (image.length / 4) = image.length := by omega
      have loop := crc_words_bytes memory (image.length / 4)
      rw [words, stored] at loop
      rw [← loop]
      exact if_pos whole
    refine ⟨fun left right inLeft inRight => ?_, fun memory stored => ?_⟩
    · rw [device left inLeft, device right inRight]
    · rw [unpadded, crc32_feed, device memory stored]

/-- An image of one byte: the byte that counts is the third one behind it. -/
theorem single_byte_disagrees : ¬HostAgrees [7] := by
  intro agrees
  have same := agrees.own (ofList [7]) (ofList [7, 0, 0, 1]) (by decide) (by decide)
  have tails := (calculate_crc32_tail_iff (ofList [7]) (ofList [7, 0, 0, 1]) 1 .big
    (fun address _ below => absurd below (by simp))).mp same (by decide)
  exact absurd tails (by decide)

end Pyrometer.HostChecksum
