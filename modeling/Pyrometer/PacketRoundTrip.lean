import Pyrometer.BaseProtocol

/-!
# Packets built and checked

What `proto_base_build_pkt` emits is given to `check_packet_base` of a fresh
parse structure. The header always survives. The payload form survives for one
to 65524 bytes: an empty payload is emitted without checksum bytes, which the
checker demands, and from 65525 bytes on the checker's 16-bit length wraps. An
error is emitted under the header that was copied before the rewriting, so it
comes back as a negative acknowledgement only if the caller had already asked
for one with a one-byte payload.
-/

namespace Pyrometer.PacketRoundTrip

open ByteMemory Checksums BaseProtocol

/-- A header that carries its own checksum. -/
def Sealed (header : ProtoBaseHead) : Prop :=
  header.crc = crc16RTU (ofList header.bytes) (sizeofHead - 2)

/-- The header the builder copies to the output. -/
def sealHeader (header : ProtoBaseHead) : ProtoBaseHead :=
  { header with crc := crc16RTU (ofList header.bytes) (sizeofHead - 2) }

/-- A header has nine bytes. -/
theorem head_bytes_length (header : ProtoBaseHead) : header.bytes.length = sizeofHead := rfl

/-- The header read back from its own bytes. -/
theorem head_at_bytes (header : ProtoBaseHead) (rest : List Byte) :
    headAt (ofList (header.bytes ++ rest)) = header := by
  ext1
  · rfl
  · exact load16_of_bytes _ 1 header.devId (by intro index inside; interval_cases index <;> rfl)
  · rfl
  · rfl
  · exact load16_of_bytes _ 5 header.dataLen (by intro index inside; interval_cases index <;> rfl)
  · exact load16_of_bytes _ 7 header.crc (by intro index inside; interval_cases index <;> rfl)

/-- The header checksum covers the bytes in front of it, so storing it there
makes it right. -/
theorem seal_header_sealed (header : ProtoBaseHead) : Sealed (sealHeader header) := by
  have same : Agree (ofList header.bytes) (ofList (sealHeader header).bytes) 0
      (sizeofHead - 2) := by
    intro address _ high
    have small : address < 7 := high
    interval_cases address <;> rfl
  exact crc16_congr same

/-- The checker's header test passes on a sealed header. -/
theorem sealed_residue (header : ProtoBaseHead) (sealed : Sealed header) (rest : List Byte) :
    crc16RTU (ofList (header.bytes ++ rest)) sizeofHead = 0 := by
  have same : Agree (ofList header.bytes) (ofList (header.bytes ++ rest)) 0 (sizeofHead - 2) := by
    intro address _ high
    have inside : address < header.bytes.length := by
      rw [head_bytes_length]
      exact Nat.lt_of_lt_of_le high (by decide)
    exact (of_list_left header.bytes rest address inside).symm
  have stored : load16 (ofList (header.bytes ++ rest)) 7 = header.crc :=
    congrArg ProtoBaseHead.crc (head_at_bytes header rest)
  exact crc16_residue _ 7 (stored.trans (sealed.trans (crc16_congr same)))

/-- A payload followed by its checksum passes the checker's payload test. -/
theorem payload_residue (data : Mem) (len : Nat) :
    crc16RTU (ofList (toList data 0 len ++
      [byteOf (crc16RTU data len) 0, byteOf (crc16RTU data len) 1])) (len + 2) = 0 := by
  set tail := [byteOf (crc16RTU data len) 0, byteOf (crc16RTU data len) 1] with tailDef
  have same : Agree data (ofList (toList data 0 len ++ tail)) 0 len := by
    intro address _ high
    have inside : address < (toList data 0 len).length := by
      rw [to_list_length]
      omega
    rw [of_list_left _ _ _ inside, of_list_to_list data 0 len address (by omega), Nat.zero_add]
  have view : window (ofList (toList data 0 len ++ tail)) len = ofList tail := by
    have right := of_list_right (toList data 0 len) tail
    rwa [to_list_length] at right
  have stored : load16 (ofList (toList data 0 len ++ tail)) len = crc16RTU data len := by
    apply load16_of_bytes
    intro index inside
    have byte : ofList (toList data 0 len ++ tail) (len + index) = ofList tail index :=
      congrFun view index
    rw [byte]
    interval_cases index <;> rfl
  exact crc16_residue _ len (stored.trans (crc16_congr same))

/-- The checker on a sealed header followed by some bytes: only the length and the
payload test remain. -/
theorem check_sealed (header : ProtoBaseHead) (start : header.sop = protSop)
    (sealed : Sealed header) (rest : List Byte) :
    checkPacketBase .cleared (ofList (header.bytes ++ rest)) (header.bytes ++ rest).length =
      if rest.length < header.dataLen.toNat + 2 then
        (false, ⟨some header, 9, 4, some (ofList rest), 0⟩)
      else if 0 < header.dataLen.toNat then
        if crc16RTU (ofList rest) (header.dataLen.toNat + 2) ≠ 0 then
          (false, ⟨none, 9 + (header.dataLen + 2), 1, some (ofList rest), 0⟩)
        else (true, ⟨some header, 9 + (header.dataLen + 2), 0, some (ofList rest), 0⟩)
      else (true, ⟨some header, 9, 0, some (ofList rest), 0⟩) := by
  have length : (header.bytes ++ rest).length = sizeofHead + rest.length := by
    rw [List.length_append, head_bytes_length]
  have first : ofList (header.bytes ++ rest) 0 = protSop := start
  have view : window (ofList (header.bytes ++ rest)) sizeofHead = ofList rest :=
    of_list_right header.bytes rest
  have enough : ¬(sizeofHead + rest.length < sizeofHead) := by omega
  have remaining : sizeofHead + rest.length - sizeofHead = rest.length := by omega
  unfold checkPacketBase
  rw [length, if_neg enough, if_neg (not_not_intro first)]
  simp only [sealed_residue header sealed rest, head_at_bytes, view, remaining, ne_eq,
    not_true_eq_false, if_false]
  rfl

/-- A packet comes back whole: accepted, with the same header fields and payload,
and counted with its full length. -/
def ComesBack (header : ProtoBaseHead) (payload : Mem) (emitted : List Byte) : Prop :=
  ∃ found data instrLen,
    checkPacketBase .cleared (ofList emitted) emitted.length =
        (true, ⟨some found, instrLen, 0, some data, 0⟩) ∧
      found.sop = header.sop ∧ found.devId = header.devId ∧ found.cmd = header.cmd ∧
      found.opType = header.opType ∧ found.dataLen = header.dataLen ∧
      Agree data payload 0 header.dataLen.toNat ∧ instrLen.toNat = emitted.length

/-- A packet is accepted as a negative acknowledgement that carries an error byte. -/
def AcceptedAsNack (header : ProtoBaseHead) (error : Byte) (emitted : List Byte) : Prop :=
  ∃ found data instrLen,
    checkPacketBase .cleared (ofList emitted) emitted.length =
        (true, ⟨some found, instrLen, 0, some data, 0⟩) ∧
      found.devId = header.devId ∧ found.cmd = header.cmd ∧
      found.opType = protOpNack ∧ found.dataLen = 1 ∧ data 0 = error

/-- The round trip asked of the builder: a packet without error comes back whole,
one with an error as a negative acknowledgement. -/
def RoundTrips (header : ProtoBaseHead) (parse : ParseBase) (payload : Mem) : Prop :=
  if parse.error = 0 then ComesBack header payload (protoBaseBuildPkt header parse).1
  else AcceptedAsNack header parse.error (protoBaseBuildPkt header parse).1

/-- The emitted bytes without an error. -/
theorem build_without_error (header : ProtoBaseHead) (parse : ParseBase) (payload : Mem)
    (given : parse.data = some payload) (zero : parse.error = 0) :
    (protoBaseBuildPkt header parse).1 =
      (sealHeader header).bytes ++ dataPart (sealHeader header) (some payload) := by
  simp only [protoBaseBuildPkt, zero, ne_eq, not_true_eq_false, if_false, given]
  rfl

/-- The emitted bytes with an error: the header as it was, and the error byte. -/
theorem build_with_error (header : ProtoBaseHead) (parse : ParseBase) (nonzero : parse.error ≠ 0) :
    (protoBaseBuildPkt header parse).1 =
      (sealHeader header).bytes ++ (toList (ofList [parse.error]) 0 1 ++
        [byteOf (crc16RTU (ofList [parse.error]) 1) 0,
          byteOf (crc16RTU (ofList [parse.error]) 1) 1]) := by
  simp only [protoBaseBuildPkt, ne_eq, nonzero, not_false_eq_true, if_true]
  rfl

/-- Without an error the packet comes back whole exactly for one to 65524 payload
bytes. -/
theorem comes_back_iff (header : ProtoBaseHead) (start : header.sop = protSop) (payload : Mem) :
    ComesBack header payload
        ((sealHeader header).bytes ++ dataPart (sealHeader header) (some payload)) ↔
      1 ≤ header.dataLen.toNat ∧ header.dataLen.toNat ≤ 65524 := by
  have sealed := seal_header_sealed header
  have sameLen : (sealHeader header).dataLen = header.dataLen := rfl
  have width := header.dataLen.isLt
  by_cases empty : header.dataLen = 0
  · have part : dataPart (sealHeader header) (some payload) = [] := if_pos empty
    have absent : ¬1 ≤ header.dataLen.toNat := by simp [empty]
    rw [part]
    constructor
    · rintro ⟨found, data, instrLen, accepted, _⟩
      rw [check_sealed (sealHeader header) start sealed, if_pos (by simp)] at accepted
      exact Bool.noConfusion (congrArg Prod.fst accepted)
    · exact fun bounds => absurd bounds.1 absent
  · have part : dataPart (sealHeader header) (some payload) =
        toList payload 0 header.dataLen.toNat ++
          [byteOf (crc16RTU payload header.dataLen.toNat) 0,
            byteOf (crc16RTU payload header.dataLen.toNat) 1] := if_neg empty
    have positive : 0 < header.dataLen.toNat := by
      rw [Nat.pos_iff_ne_zero]
      exact fun zero => empty (BitVec.eq_of_toNat_eq zero)
    have residue := payload_residue payload header.dataLen.toNat
    have partLength : (dataPart (sealHeader header) (some payload)).length =
        header.dataLen.toNat + 2 := by
      rw [part, List.length_append, to_list_length]
      rfl
    have total : ((sealHeader header).bytes ++ dataPart (sealHeader header)
        (some payload)).length = header.dataLen.toNat + 11 := by
      rw [List.length_append, partLength, head_bytes_length]
      unfold sizeofHead
      omega
    have counted : (9 + (header.dataLen + 2)).toNat = (header.dataLen.toNat + 11) % 65536 := by
      simp only [BitVec.toNat_add, BitVec.ofNat_eq_ofNat, BitVec.toNat_ofNat]
      omega
    have accepted : checkPacketBase .cleared
        (ofList ((sealHeader header).bytes ++ dataPart (sealHeader header) (some payload)))
        ((sealHeader header).bytes ++ dataPart (sealHeader header) (some payload)).length =
        (true, ⟨some (sealHeader header), 9 + (header.dataLen + 2), 0,
          some (ofList (dataPart (sealHeader header) (some payload))), 0⟩) := by
      rw [check_sealed (sealHeader header) start sealed, partLength, sameLen,
        if_neg (Nat.lt_irrefl _), if_pos positive, part, residue]
      rfl
    constructor
    · rintro ⟨found, data, instrLen, checked, _, _, _, _, _, _, whole⟩
      rw [accepted] at checked
      have sameCount : 9 + (header.dataLen + 2) = instrLen :=
        congrArg (fun result => result.2.instrLen) checked
      rw [← sameCount, counted, total] at whole
      omega
    · rintro ⟨_, small⟩
      refine ⟨_, _, _, accepted, rfl, rfl, rfl, rfl, rfl, ?_, ?_⟩
      · intro address _ high
        have inside : address < (toList payload 0 header.dataLen.toNat).length := by
          rw [to_list_length]
          omega
        rw [part, of_list_left _ _ _ inside, of_list_to_list payload 0 _ address (by omega),
          Nat.zero_add]
      · rw [counted, total]
        omega

/-- An error comes back as a negative acknowledgement exactly when the header was
one already, with a one-byte payload. -/
theorem accepted_as_nack_iff (header : ProtoBaseHead) (start : header.sop = protSop)
    (error : Byte) :
    AcceptedAsNack header error ((sealHeader header).bytes ++ (toList (ofList [error]) 0 1 ++
        [byteOf (crc16RTU (ofList [error]) 1) 0, byteOf (crc16RTU (ofList [error]) 1) 1])) ↔
      header.opType = protOpNack ∧ header.dataLen = 1 := by
  have sealed := seal_header_sealed header
  have residue := payload_residue (ofList [error]) 1
  constructor
  · rintro ⟨found, data, instrLen, checked, _, _, nack, one, _⟩
    rw [check_sealed (sealHeader header) start sealed] at checked
    have sameHeader : some (sealHeader header) = some found := by
      split at checked
      · exact Bool.noConfusion (congrArg Prod.fst checked)
      · split at checked
        · split at checked
          · exact Bool.noConfusion (congrArg Prod.fst checked)
          · exact congrArg (fun result => result.2.header) checked
        · exact congrArg (fun result => result.2.header) checked
    obtain rfl : sealHeader header = found := Option.some.inj sameHeader
    exact ⟨nack, one⟩
  · rintro ⟨nack, one⟩
    have oneSealed : (sealHeader header).dataLen.toNat = 1 := congrArg BitVec.toNat one
    have accepted := check_sealed (sealHeader header) start sealed (toList (ofList [error]) 0 1 ++
      [byteOf (crc16RTU (ofList [error]) 1) 0, byteOf (crc16RTU (ofList [error]) 1) 1])
    rw [oneSealed, residue, if_neg (by simp), if_pos (by decide), if_neg (by simp)] at accepted
    exact ⟨sealHeader header, _, _, accepted, rfl, rfl, nack, one, rfl⟩

/-- A built packet round-trips exactly for an error-free payload of one to 65524
bytes, or for an error under a header that already was a negative acknowledgement
with a one-byte payload. -/
theorem packet_round_trip_iff (header : ProtoBaseHead) (parse : ParseBase) (payload : Mem)
    (start : header.sop = protSop) (given : parse.data = some payload) :
    RoundTrips header parse payload ↔
      (parse.error = 0 ∧ 1 ≤ header.dataLen.toNat ∧ header.dataLen.toNat ≤ 65524) ∨
        (parse.error ≠ 0 ∧ header.opType = protOpNack ∧ header.dataLen = 1) := by
  by_cases none : parse.error = 0
  · rw [RoundTrips, if_pos none, build_without_error header parse payload given none,
      comes_back_iff header start payload]
    simp [none]
  · rw [RoundTrips, if_neg none, build_with_error header parse none,
      accepted_as_nack_iff header start parse.error]
    exact ⟨fun nack => Or.inr ⟨none, nack⟩, fun either =>
      either.elim (fun clean => absurd clean.1 none) (fun nack => nack.2)⟩

/-- A request for segment data, seven payload bytes, round-trips. -/
theorem data_request_round_trips :
    RoundTrips ⟨protSop, 1, 51, protOpWr, 7, 0⟩
      ⟨none, 0, 0, some (ofList [3, 0, 1, 0, 0, 64, 0]), 0⟩
      (ofList [3, 0, 1, 0, 0, 64, 0]) :=
  (packet_round_trip_iff _ _ _ rfl rfl).mpr (Or.inl ⟨rfl, by decide, by decide⟩)

/-- The acknowledgement of a cancelled upgrade has no payload and is not accepted. -/
theorem empty_acknowledgement_rejected :
    ¬RoundTrips ⟨protSop, 1, 53, protOpAck, 0, 0⟩ ⟨none, 0, 0, some (fun _ => 0), 0⟩
      (fun _ => 0) := by
  rw [RoundTrips, if_pos rfl, build_without_error _ _ (fun _ => 0) rfl rfl, comes_back_iff _ rfl]
  decide

end Pyrometer.PacketRoundTrip
