import Pyrometer.Checksums

/-!
# The binary protocol of `proto_base.c`

A packet is a nine-byte header that ends with its own checksum, and, for a
nonempty payload, the payload and its checksum. Checksums are stored low byte
first.

`check_packet_base` and `proto_base_build_pkt` are translated with the fields of
`parse_base_t` they read and write. `header` is a pointer in the source; a null
pointer is `none`, and the builder, which never checks it, is only called with a
header. The received bytes are a memory that extends past the packet, because
the handlers read it through pointers without a bound.
-/

namespace Pyrometer.BaseProtocol

open ByteMemory Checksums

/-- `PROT_SOP`, the character '#'. -/
def protSop : Byte := 0x23#8

/-- `PROT_OP_RD`. -/
def protOpRd : Byte := 0#8

/-- `PROT_OP_WR`. -/
def protOpWr : Byte := 1#8

/-- `PROT_OP_NACK`. -/
def protOpNack : Byte := 9#8

/-- `PROT_OP_ACK`. -/
def protOpAck : Byte := 10#8

/-- `proto_base_head_t`. -/
@[ext] structure ProtoBaseHead where
  sop : Byte
  devId : BitVec 16
  cmd : Byte
  opType : Byte
  dataLen : BitVec 16
  crc : BitVec 16
  deriving DecidableEq, Repr

/-- `sizeof(proto_base_head_t)`. -/
def sizeofHead : Nat := 9

/-- The packed bytes of a header. -/
def ProtoBaseHead.bytes (header : ProtoBaseHead) : List Byte :=
  [header.sop, byteOf header.devId 0, byteOf header.devId 1, header.cmd, header.opType,
    byteOf header.dataLen 0, byteOf header.dataLen 1, byteOf header.crc 0, byteOf header.crc 1]

/-- The header found at the start of a buffer. -/
def headAt (buffer : Mem) : ProtoBaseHead where
  sop := buffer 0
  devId := load16 buffer 1
  cmd := buffer 3
  opType := buffer 4
  dataLen := load16 buffer 5
  crc := load16 buffer 7

/-- `parse_base_t`. The port is kept as the number of its descriptor. -/
structure ParseBase where
  header : Option ProtoBaseHead
  instrLen : BitVec 16
  error : Byte
  data : Option Mem
  port : BitVec 32

/-- The zero-initialized `parse_base_t` of `base_pkt_process`. -/
def ParseBase.cleared : ParseBase := ⟨none, 0, 0, none, 0⟩

/-- `check_packet_base`: whether a packet was found, and what is left in the
parse structure. The running length has 16 bits. -/
def checkPacketBase (parse : ParseBase) (inbuf : Mem) (inlen : Nat) : Bool × ParseBase :=
  if inlen < sizeofHead then (false, { parse with error := 2 })
  else if inbuf 0 ≠ protSop then (false, { parse with error := 3 })
  else
    let header := headAt inbuf
    let parse := { parse with
      header := some header
      instrLen := BitVec.ofNat 16 sizeofHead
      data := some (window inbuf sizeofHead) }
    if crc16RTU inbuf sizeofHead ≠ 0 then (false, { parse with error := 1, header := none })
    else if inlen - sizeofHead < header.dataLen.toNat + 2 then (false, { parse with error := 4 })
    else if 0 < header.dataLen.toNat then
      let parse := { parse with instrLen := parse.instrLen + (header.dataLen + 2) }
      if crc16RTU (window inbuf sizeofHead) (header.dataLen.toNat + 2) ≠ 0 then
        (false, { parse with error := 1, header := none })
      else (true, parse)
    else (true, parse)

/-- The payload part of a packet: nothing for a null pointer or an empty payload,
otherwise the payload and its checksum. -/
def dataPart (header : ProtoBaseHead) (data : Option Mem) : List Byte :=
  match data with
  | none => []
  | some data =>
      if header.dataLen = 0 then []
      else
        let crc := crc16RTU data header.dataLen.toNat
        toList data 0 header.dataLen.toNat ++ [byteOf crc 0, byteOf crc 1]

/-- `proto_base_build_pkt` for a header: the emitted bytes, and the parse
structure afterwards. An error replaces payload and operation only after the
header was copied to the output. -/
def protoBaseBuildPkt (header : ProtoBaseHead) (parse : ParseBase) : List Byte × ParseBase :=
  let header := { header with crc := crc16RTU (ofList header.bytes) (sizeofHead - 2) }
  let copied := header.bytes
  if parse.error ≠ 0 then
    let header := { header with opType := protOpNack, dataLen := 1 }
    let data : Option Mem := some (ofList [parse.error])
    (copied ++ dataPart header data, { parse with header := some header, data := data })
  else
    (copied ++ dataPart header parse.data, { parse with header := some header })

/-- An accepted packet is parsed into its own header and payload, without an
error. -/
theorem check_accepted (inbuf : Mem) (inlen : Nat)
    (accepted : (checkPacketBase .cleared inbuf inlen).1 = true) :
    ∃ instrLen, checkPacketBase .cleared inbuf inlen =
      (true, ⟨some (headAt inbuf), instrLen, 0, some (window inbuf sizeofHead), 0⟩) := by
  unfold checkPacketBase at accepted ⊢
  simp only at accepted ⊢
  split_ifs at accepted ⊢
  · exact ⟨_, rfl⟩
  · exact ⟨_, rfl⟩

end Pyrometer.BaseProtocol
