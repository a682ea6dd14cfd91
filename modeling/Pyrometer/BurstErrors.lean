import Pyrometer.LinearRegisters
import Pyrometer.PacketRoundTrip

/-!
# Burst errors in packets

On the line the least significant bit of a byte goes first. The nibble table of
`crc16_RTU` stands for four clocks of a reflected register with the polynomial `0xA001`,
so the checksum of a packet is what that register holds behind the bits of the packet in
their order, and an error adds to it what the register makes of the error alone.

An altered packet is a packet to which an error pattern was added, bit by bit. Any bytes
may lie behind the packet, and `check_packet_base` may be given any length.
-/

namespace Pyrometer.BurstErrors

open ByteMemory ShiftRegister LinearRegisters Checksums BaseProtocol PacketRoundTrip

/-- The polynomial behind `CRC16_RTU_TABLE`. -/
abbrev crc16Polynomial : BitVec 16 := 0xA001#16

/-- The bits of a memory in the order of the line. -/
def lineBit (memory : Mem) (index : Nat) : Bool := (memory (index / 8)).getLsbD (index % 8)

/-- Add an error pattern. -/
def altered (memory error : Mem) : Mem := fun address => memory address ^^^ error address

/-- An error pattern that is not empty and whose bits lie within 16 consecutive ones of
some bytes. -/
structure Burst (error : Mem) (first len : Nat) : Prop where
  some : ∃ index, lineBit error index = true
  inside : ∀ index, lineBit error index = true → 8 * first ≤ index ∧ index < 8 * (first + len)
  short : ∃ start, ∀ index, lineBit error index = true → start ≤ index ∧ index < start + 16

/-- The packet with a header that carries its checksum, and the payload with its own. -/
def packet (header : ProtoBaseHead) (payload : Mem) : List Byte :=
  (sealHeader header).bytes ++ (toList payload 0 header.dataLen.toNat ++
    [byteOf (crc16RTU payload header.dataLen.toNat) 0,
      byteOf (crc16RTU payload header.dataLen.toNat) 1])

/-- The table holds what four clocks make of a nibble. -/
theorem crc16_table_clocks (index : BitVec 16)
    (nibble : index &&& BitVec.ofNat 16 (2 ^ 4 - 1) = index) :
    crc16RtuTable index = (shiftRight crc16Polynomial)^[4] index := by
  have entries : ∀ entry : Fin 16, crc16RtuTable (BitVec.ofNat 16 entry) =
      (shiftRight crc16Polynomial)^[4] (BitVec.ofNat 16 entry) := by decide
  have small : index.toNat < 16 := by
    rw [← nibble, BitVec.toNat_and]
    exact Nat.lt_of_le_of_lt Nat.and_le_right (by decide)
  have own : BitVec.ofNat 16 index.toNat = index := by simp
  have entry := entries ⟨index.toNat, small⟩
  rwa [own] at entry

/-- The low nibble of a symbol is the pattern of its first four bits. -/
theorem nibble_pattern (symbol : BitVec 16) :
    symbol &&& BitVec.ofNat 16 (2 ^ 4 - 1) = pattern 16 symbol.getLsbD 4 := by
  apply BitVec.eq_of_getLsbD_eq
  intro position bound
  rw [pattern_bit symbol.getLsbD 4 bound, BitVec.getLsbD_and, BitVec.getLsbD_ofNat,
    Nat.testBit_two_pow_sub_one, Bool.and_comm]
  simp [bound]

/-- A step of the table is four bits fed one after the other. -/
theorem consume_serial (register symbol : BitVec 16) :
    consume 4 crc16RtuTable register symbol =
      serial crc16Polynomial symbol.getLsbD register 4 := by
  rw [consume_iterate crc16Polynomial crc16_table_clocks, nibble_pattern,
    serial_iterate crc16Polynomial _ register 4 (by decide)]

/-- A byte is eight bits fed one after the other. -/
theorem crc16_byte_serial (crc : BitVec 16) (data : Byte) :
    crc16RtuByte crc data = serial crc16Polynomial data.getLsbD crc 8 := by
  rw [crc16RtuByte, consume_serial, consume_serial, serial_add crc16Polynomial data.getLsbD crc 4 4]
  have low : serial crc16Polynomial (data.setWidth 16).getLsbD crc 4 =
      serial crc16Polynomial data.getLsbD crc 4 := by
    apply serial_congr
    intro index below
    rw [BitVec.getLsbD_setWidth]
    simp [show index < 16 by omega]
  rw [low]
  apply serial_congr
  intro index below
  rw [BitVec.getLsbD_ushiftRight, BitVec.getLsbD_setWidth]
  simp [show 4 + index < 16 by omega]

/-- The checksum is what the register holds behind the bits in the order of the line. -/
theorem crc16_serial (buff : Mem) (len : Nat) :
    crc16RTU buff len = serial crc16Polynomial (lineBit buff) 0xFFFF#16 (8 * len) := by
  induction len with
  | zero => rfl
  | succ len inductionHypothesis =>
    rw [crc16RTU, inductionHypothesis, crc16_byte_serial, Nat.mul_succ, serial_add]
    apply serial_congr
    intro index below
    have byte : (8 * len + index) / 8 = len := by omega
    have bit : (8 * len + index) % 8 = index := by omega
    rw [lineBit, byte, bit]

/-- An error adds to a checksum what the register makes of the error alone. -/
theorem crc16_altered (buff error : Mem) (len : Nat) :
    crc16RTU (altered buff error) len =
      crc16RTU buff len ^^^ serial crc16Polynomial (lineBit error) 0#16 (8 * len) := by
  have sum := serial_xor crc16Polynomial (lineBit buff) (lineBit error) 0xFFFF#16 0#16 (8 * len)
  rw [BitVec.xor_zero, ← crc16_serial buff len] at sum
  rw [crc16_serial, ← sum]
  apply serial_congr
  intro index _
  simp only [lineBit, altered, BitVec.getLsbD_xor]

/-- Bytes whose checksum is zero have another one after a burst. -/
theorem burst_residue {buff error : Mem} {len : Nat} (residue : crc16RTU buff len = 0)
    (burst : Burst error 0 len) : crc16RTU (altered buff error) len ≠ 0 := by
  obtain ⟨start, short⟩ := burst.short
  obtain ⟨set, isSet⟩ := burst.some
  rw [crc16_altered, residue]
  have kept := serial_burst crc16Polynomial (by decide) (lineBit error) start (8 * len)
    (fun index _ present => short index present)
    ⟨set, by simpa using (burst.inside set isSet).2, isSet⟩
  simpa using kept

/-- Seen from its first byte a burst begins at zero. -/
theorem burst_window {error : Mem} {first len : Nat} (burst : Burst error first len) :
    Burst (window error first) 0 len := by
  have bit (index : Nat) :
      lineBit (window error first) index = lineBit error (8 * first + index) := by
    have byte : (8 * first + index) / 8 = first + index / 8 := by omega
    have place : (8 * first + index) % 8 = index % 8 := by omega
    rw [lineBit, lineBit, window, byte, place]
  obtain ⟨set, isSet⟩ := burst.some
  obtain ⟨start, short⟩ := burst.short
  refine ⟨⟨set - 8 * first, ?_⟩, fun index present => ?_,
    ⟨start - 8 * first, fun index present => ?_⟩⟩
  · rw [bit, Nat.add_sub_cancel' (burst.inside set isSet).1]
    exact isSet
  · rw [bit] at present
    have within := burst.inside _ present
    omega
  · rw [bit] at present
    have within := short _ present
    omega

/-- A packet is accepted only with a right checksum of the header, and of the payload if
there is one. -/
theorem accepted_residues {parse : ParseBase} {inbuf : Mem} {inlen : Nat}
    (accepted : (checkPacketBase parse inbuf inlen).1 = true) :
    crc16RTU inbuf sizeofHead = 0 ∧ (0 < (headAt inbuf).dataLen.toNat →
      crc16RTU (window inbuf sizeofHead) ((headAt inbuf).dataLen.toNat + 2) = 0) := by
  simp only [checkPacketBase] at accepted
  split_ifs at accepted with tooShort noStart header noRoom payload wrong
  · exact ⟨not_not.mp header, fun _ => not_not.mp wrong⟩
  · exact ⟨not_not.mp header, fun present => absurd present payload⟩

/-- A payload and its checksum leave no residue, whatever lies behind them. -/
theorem packet_payload_residue (header : ProtoBaseHead) (payload : Mem) (behind : List Byte) :
    crc16RTU (window (ofList (packet header payload ++ behind)) sizeofHead)
      (header.dataLen.toNat + 2) = 0 := by
  have view := of_list_right (sealHeader header).bytes
    ((toList payload 0 header.dataLen.toNat ++
      [byteOf (crc16RTU payload header.dataLen.toNat) 0,
        byteOf (crc16RTU payload header.dataLen.toNat) 1]) ++ behind)
  rw [head_bytes_length, ← List.append_assoc] at view
  rw [packet, view, ← payload_residue payload header.dataLen.toNat]
  apply crc16_congr
  intro address _ high
  apply of_list_left
  rw [List.length_append, to_list_length]
  simpa using high

/-- An error behind the header leaves the header as it was. -/
theorem header_untouched {error : Mem} {len : Nat} (memory : Mem)
    (burst : Burst error sizeofHead len) : Agree (altered memory error) memory 0 sizeofHead := by
  intro address _ below
  have clear : error address = 0 := by
    apply BitVec.eq_of_getLsbD_eq
    intro position bound
    by_contra present
    have byte : (8 * address + position) / 8 = address := by omega
    have place : (8 * address + position) % 8 = position := by omega
    have set : lineBit error (8 * address + position) = true := by
      rw [lineBit, byte, place]
      simpa using present
    have behind := (burst.inside _ set).1
    omega
  simp [altered, clear]

/-- For every packet with a payload, and every burst of errors in its header or in its
payload, each with its checksum: the altered packet is not accepted. -/
theorem burst_rejected (header : ProtoBaseHead) (payload error : Mem) (behind : List Byte)
    (parse : ParseBase) (inlen : Nat) (nonempty : 0 < header.dataLen.toNat)
    (burst : Burst error 0 sizeofHead ∨ Burst error sizeofHead (header.dataLen.toNat + 2)) :
    (checkPacketBase parse (altered (ofList (packet header payload ++ behind)) error) inlen).1 =
      false := by
  rw [Bool.eq_false_iff]
  intro accepted
  obtain ⟨headRight, payloadRight⟩ := accepted_residues accepted
  rcases burst with inHeader | inPayload
  · have headerResidue : crc16RTU (ofList (packet header payload ++ behind)) sizeofHead = 0 := by
      rw [packet, List.append_assoc]
      exact sealed_residue _ (seal_header_sealed header) _
    exact burst_residue headerResidue inHeader headRight
  · have length : (headAt (altered (ofList (packet header payload ++ behind)) error)).dataLen =
        header.dataLen := by
      have same : (headAt (altered (ofList (packet header payload ++ behind)) error)).dataLen =
          (headAt (ofList (packet header payload ++ behind))).dataLen :=
        load16_congr (agree_mono (header_untouched _ inPayload) (by decide) (by decide))
      rw [same, packet, List.append_assoc, head_at_bytes]
      rfl
    rw [length] at payloadRight
    exact burst_residue (packet_payload_residue header payload behind) (burst_window inPayload)
      (payloadRight nonempty)

/-- The last bit of a cancelled upgrade's version byte, turned over on the line. -/
theorem turned_bit_rejected :
    (checkPacketBase .cleared (altered (ofList (packet ⟨protSop, 1, 53, protOpRd, 1, 0⟩
      (fun _ => 3) ++ [])) (overlay (fun _ => 0) (fun _ => 0x80) 9 1)) 12).1 = false := by
  have bit (index : Nat)
      (set : lineBit (overlay (fun _ => 0) (fun _ => 0x80) 9 1) index = true) : index = 79 := by
    have place : index % 8 < 8 := Nat.mod_lt _ (by decide)
    simp only [lineBit, overlay] at set
    split at set
    · generalize remainder : index % 8 = position at set place
      interval_cases position
      case «7» => omega
      all_goals exact absurd set (by simp)
    · exact absurd set (by simp)
  refine burst_rejected _ _ _ _ _ _ (by decide) (Or.inr ⟨⟨79, by decide⟩, ?_, ⟨79, ?_⟩⟩)
  · intro index set
    rw [bit index set]
    decide
  · intro index set
    rw [bit index set]
    decide

end Pyrometer.BurstErrors
