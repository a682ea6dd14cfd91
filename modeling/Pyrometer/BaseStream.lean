import Pyrometer.PacketRoundTrip
import Pyrometer.RunningOffsets
import Pyrometer.UpgradeSteps

/-!
# The packet loop of `proto_base.c`

`base_pkt_process` walks a received buffer, dispatches each packet that
`check_packet_base` accepts and steps over those it rejects for a checksum. The
handlers rewrite the header inside the buffer that the loop is still walking,
and store their replies through an output pointer that the loop moves by the
running total.

The data handler sleeps before it returns. What the rest of the system does to
the upgrade unit meanwhile, its own post included, is an arbitrary function of
the packet's position. Bytes behind the received ones are arbitrary too: the
handlers can read them. The lengths are those the callers can hand over: the
serial port refuses more than 1056 bytes and the network length has 16 bits.
-/

namespace Pyrometer.BaseStream

open ByteMemory Checksums BaseProtocol PacketRoundTrip UpgradeSession UpgradeSteps RunningOffsets

/-- The header that the handler of a dispatched packet leaves in the input buffer:
the builder seals it, and rewrites it once more for an error. -/
def headerAfter (header : ProtoBaseHead) (parse : ParseBase) (data : Mem) (unit : Upgrade) :
    ProtoBaseHead :=
  let built (header : ProtoBaseHead) (parse : ParseBase) :=
    (protoBaseBuildPkt header parse).2.header.getD header
  let acknowledged := { header with dataLen := 0, opType := protOpAck }
  if header.cmd = commandNotify then
    if header.opType = protOpWr ∧ header.dataLen.toNat = sizeofNotify then built header parse
    else header
  else if header.cmd = commandFinish then
    if header.opType = protOpRd ∧ header.dataLen.toNat = 5 then
      built acknowledged
        { parse with data := none, error := (finishVerdict data parse.error unit).1 }
    else header
  else if header.cmd = commandCancel then
    if header.opType = protOpRd ∧ header.dataLen.toNat = 2 then
      built acknowledged { parse with data := none }
    else header
  else header

/-- The variables of `base_pkt_process`, as offsets into the two buffers, the
upgrade unit behind the handlers, and a record of the positions dispatched and of
the furthest output byte written. -/
structure Loop where
  inbuf : Mem
  position : Nat
  inlen : Nat
  outbuf : Mem
  cursor : Cursor
  unit : Upgrade
  dispatched : List Nat
  reached : Nat

/-- The loop's variables at its start. -/
def Loop.start (inbuf : Mem) (inlen : Nat) (outbuf : Mem) (unit : Upgrade) : Loop :=
  ⟨inbuf, 0, inlen, outbuf, .start, unit, [], 0⟩

/-- The packet at a position of a received buffer. -/
def packetAt (inbuf : Mem) (inlen : Nat) (port : BitVec 32) (position : Nat) : Packet :=
  ⟨window inbuf position, inlen - position, port⟩

section

variable (port : BitVec 32) (meanwhile : Nat → Upgrade → Upgrade)

/-- The variables after a packet was given to `base_instr_handler`. -/
def dispatch (parse : ParseBase) (loop : Loop) : Loop :=
  let packet : Packet := ⟨window loop.inbuf loop.position, loop.inlen, port⟩
  let left := headerAfter packet.header { parse with port := port } packet.data loop.unit
  let reply := (receive packet loop.unit).reply
  { inbuf := overlay loop.inbuf (ofList left.bytes) loop.position sizeofHead
    position := loop.position + parse.instrLen.toNat
    inlen := loop.inlen - parse.instrLen.toNat
    outbuf := storeText [] loop.cursor reply loop.outbuf
    cursor := loop.cursor.advance reply
    unit := meanwhile loop.position (receive packet loop.unit).unit
    dispatched := loop.dispatched ++ [loop.position]
    reached := max loop.reached (reach [] loop.cursor [reply]) }

/-- `base_pkt_process`, with a bound on the number of passes; `none` if the bound
is too small. -/
def basePktProcess : Nat → Loop → Option Loop
  | 0, _ => none
  | passes + 1, loop =>
      if loop.inlen = 0 then some loop
      else
        match checkPacketBase .cleared (window loop.inbuf loop.position) loop.inlen with
        | (true, parse) => basePktProcess passes (dispatch port meanwhile parse loop)
        | (false, parse) =>
            if parse.error ≠ 1 then some loop
            else
              basePktProcess passes { loop with
                position := loop.position + parse.instrLen.toNat
                inlen := loop.inlen - parse.instrLen.toNat }

/-- The replies to the packets at some positions of a buffer, each in the state
that the ones before it left. -/
def replies (inbuf : Mem) (inlen : Nat) : List Nat → Upgrade → List (List Byte)
  | [], _ => []
  | position :: rest, unit =>
      let handled := receive (packetAt inbuf inlen port position) unit
      handled.reply :: replies inbuf inlen rest (meanwhile position handled.unit)

end

/-- A well-formed packet: header with its checksum, and for a nonempty payload the
payload with its checksum, as `proto_base_build_pkt` emits them. -/
def Intact (bytes : List Byte) : Prop :=
  sizeofHead ≤ bytes.length ∧ ofList bytes 0 = protSop ∧
    crc16RTU (ofList bytes) sizeofHead = 0 ∧
    if (headAt (ofList bytes)).dataLen = 0 then bytes.length = sizeofHead
    else
      bytes.length = sizeofHead + ((headAt (ofList bytes)).dataLen.toNat + 2) ∧
        crc16RTU (window (ofList bytes) sizeofHead) ((headAt (ofList bytes)).dataLen.toNat + 2) = 0

/-- A packet with a correct header whose payload checksum is wrong. -/
def PayloadDamaged (bytes : List Byte) : Prop :=
  ofList bytes 0 = protSop ∧ crc16RTU (ofList bytes) sizeofHead = 0 ∧
    0 < (headAt (ofList bytes)).dataLen.toNat ∧
    bytes.length = sizeofHead + ((headAt (ofList bytes)).dataLen.toNat + 2) ∧
    crc16RTU (window (ofList bytes) sizeofHead) ((headAt (ofList bytes)).dataLen.toNat + 2) ≠ 0

/-- A packet whose header checksum is wrong, with whatever follows its header. -/
def HeaderDamaged (bytes : List Byte) : Prop :=
  sizeofHead ≤ bytes.length ∧ crc16RTU (ofList bytes) sizeofHead ≠ 0

/-- One packet of a stream. -/
inductive Piece where
  | intact (bytes : List Byte) (formed : Intact bytes)
  | damaged (bytes : List Byte) (broken : HeaderDamaged bytes ∨ PayloadDamaged bytes)

/-- The bytes of a packet. -/
def Piece.bytes : Piece → List Byte
  | .intact bytes _ => bytes
  | .damaged bytes _ => bytes

/-- The received bytes of a stream of packets. -/
def received (pieces : List Piece) : List Byte := pieces.flatMap Piece.bytes

/-- The positions of the intact packets of a stream that begins at some position. -/
def starts : Nat → List Piece → List Nat
  | _, [] => []
  | position, .intact bytes _ :: rest => position :: starts (position + bytes.length) rest
  | position, .damaged bytes _ :: rest => starts (position + bytes.length) rest

/-- Size of the output buffer. -/
def outbufSize : Nat := 1056

/-- The packet gets a reply: it is an accepted notification, finish request or
cancellation. -/
def answered (packet : Packet) : Bool := isNotify packet || isFinish packet || isCancel packet

/-- What is asked of the loop for a stream: it ends, it dispatched exactly the
intact packets in their order, and whatever the output buffer held, its counted
bytes are the concatenated replies and no byte behind the buffer was written. -/
def Processes (port : BitVec 32) (meanwhile : Nat → Upgrade → Upgrade) (pieces : List Piece)
    (inbuf : Mem) (unit : Upgrade) : Prop :=
  ∀ outbuf, ∃ passes final,
    basePktProcess port meanwhile passes
        (Loop.start inbuf (received pieces).length outbuf unit) = some final ∧
      final.dispatched = starts 0 pieces ∧
      toList final.outbuf 0 final.cursor.counted =
        (replies port meanwhile inbuf (received pieces).length (starts 0 pieces) unit).flatten ∧
      final.reached ≤ outbufSize

end Pyrometer.BaseStream
