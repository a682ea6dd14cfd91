import Pyrometer.BaseProtocol
import Pyrometer.FirmwareInfo

/-!
# The firmware upgrade of `upgrade.c`

Four packet handlers and one agent task share the firmware record, the staging
sectors and a mailbox. Handlers have the higher priority, so the task acts only
between them and while the data handler sleeps before its post, which is an
event of its own. The task is a machine whose atomic actions are those between
two points at which it can lose the processor for long: each sector erase, each
pass through its loop, each request and each mailbox read. Every interleaving of
packets, delayed posts and task actions is a list of events.

A notification posts one more run of the task to the agent queue, whether or not
an earlier run is queued or still active. The request packets the task sends,
which no handler reads, the system timers that are closed and opened, and memory
exhaustion while a mailbox is created are left out.
-/

namespace Pyrometer.UpgradeSession

open ByteMemory Checksums NorFlash FlashController BaseProtocol FirmwareInfo

/-- Messages of the transfer mailbox. -/
inductive Msg where
  | stopUg
  | recvData
  deriving DecidableEq, Repr

/-- Where an active run of `upgrade_task` stands: before its first erase, before
its second one, at the head of the loop, about to send a request, or waiting for
the mailbox, the last two with the retries left. -/
inductive TaskPoint where
  | idle
  | eraseFirst
  | eraseSecond
  | loop
  | request (retry : Nat)
  | fetch (retry : Nat)
  deriving DecidableEq, Repr

/-- The variables of the upgrade unit, the flash behind its driver, and the number
of data handlers that sleep before their post. -/
structure Upgrade where
  fwInfo : FwInfo
  fmc : Device
  xferMb : Option (List Msg)
  mboxCount : Nat
  sleeping : Nat
  agentQueue : List (BitVec 32)
  task : TaskPoint
  reset : Bool

/-- The unit after power-up, on the given flash. -/
def Upgrade.start (fmc : Device) : Upgrade := ⟨.cleared, fmc, none, 0, 0, [], .idle, false⟩

/-- `mbox_post` to a mailbox of two messages: lost when it is full or missing. -/
def mboxPost (mailbox : Option (List Msg)) (msg : Msg) : Option (List Msg) :=
  mailbox.map (fun queue => if queue.length < 2 then queue ++ [msg] else queue)

/-- `MBOX_MAX_COUNT`. -/
def mboxMaxCount : Nat := 8

/-- `upgrade_init`: every run of the task creates one more mailbox. -/
def upgradeInit (unit : Upgrade) : Upgrade :=
  if unit.mboxCount = mboxMaxCount then { unit with xferMb := none }
  else { unit with xferMb := some [], mboxCount := unit.mboxCount + 1 }

/-- `AGENT_QUEUE_SIZE`. -/
def agentQueueSize : Nat := 32

/-- `agent_post` of `upgrade_task`; a full queue drops it. -/
def agentPost (port : BitVec 32) (unit : Upgrade) : Upgrade :=
  if unit.agentQueue.length = agentQueueSize then unit
  else { unit with agentQueue := unit.agentQueue ++ [port] }

/-- Assignment to `fw_info.status`. -/
def setStatus (status : Byte) (unit : Upgrade) : Upgrade :=
  { unit with fwInfo := { unit.fwInfo with status := status } }

/-- `FW_DATA_RETRY`. -/
def fwDataRetry : Nat := 3

/-- The label `over`. -/
def taskOver (unit : Upgrade) : Upgrade := { setStatus ugStateFinished unit with task := .idle }

/-- The request loop with some retries left; none left is a timeout. -/
def taskRetry (retry : Nat) (unit : Upgrade) : Upgrade :=
  if retry = 0 then taskOver unit else { unit with task := .request retry }

section

/-- The flash has sectors to number. -/
local instance sectors_nonzero : NeZero 12 := ⟨by decide⟩

/-- One atomic action of the agent: it starts the next posted run, or the active
run of `upgrade_task` takes its next action. Reading an empty mailbox is a
timeout; a missing mailbox answers at once. -/
def upgradeTask (unit : Upgrade) : Upgrade :=
  match unit.task with
  | .idle =>
      match unit.agentQueue with
      | [] => unit
      | _ :: rest =>
          { setStatus ugStateTrans (upgradeInit unit) with
            agentQueue := rest, task := .eraseFirst }
  | .eraseFirst => { unit with fmc := (gdfEraseSector 6 unit.fmc).2, task := .eraseSecond }
  | .eraseSecond => { unit with fmc := (gdfEraseSector 7 unit.fmc).2, task := .loop }
  | .loop =>
      if unit.fwInfo.segIdx.toNat < unit.fwInfo.segCount.toNat then
        if unit.fwInfo.status = ugStateCanceled then taskOver unit
        else taskRetry fwDataRetry unit
      else taskOver unit
  | .request retry =>
      if unit.fwInfo.status = ugStateCanceled then taskOver unit
      else { unit with task := .fetch retry }
  | .fetch retry =>
      match unit.xferMb with
      | some (.recvData :: rest) => { unit with xferMb := some rest, task := .loop }
      | some (.stopUg :: rest) => taskRetry (retry - 1) { unit with xferMb := some rest }
      | _ => taskRetry (retry - 1) unit

end

/-- What a handler leaves: the unit, the bytes of its answer and the error field. -/
structure Handled where
  unit : Upgrade
  reply : List Byte
  error : Byte

/-- The record as it is written to the info page. -/
def saveInfo (unit : Upgrade) : Upgrade :=
  { unit with
    fmc := (gdfWriteDataByPage fwInfoAddr sizeofFwInfo (ofList unit.fwInfo.bytes) unit.fmc).2 }

/-- `sizeof(fw_notify_t)`. -/
def sizeofNotify : Nat := 15

/-- The record after a notification: its members up to the image checksum are the
payload, and a new session starts. -/
def notifiedInfo (data : Mem) (port : BitVec 32) (info : FwInfo) : FwInfo :=
  { info with
    majorVer := data 0
    minorVer := data 1
    serialVer := data 2
    imgSize := load32 data 3
    segSize := load16 data 7
    segCount := load16 data 9
    imgCrc32 := load32 data 11
    source := port
    status := ugStateStart
    segIdx := 0 }

/-- `CMD_UP_notify`, without the version check, which is configured out. -/
def cmdUpNotify (header : ProtoBaseHead) (parse : ParseBase) (data : Mem) (unit : Upgrade) :
    Handled :=
  if header.opType = protOpWr ∧ header.dataLen.toNat = sizeofNotify then
    let unit := { unit with fwInfo := notifiedInfo data parse.port unit.fwInfo }
    let unit := agentPost parse.port (saveInfo unit)
    ⟨unit, (protoBaseBuildPkt header parse).1, parse.error⟩
  else ⟨unit, [], parse.error⟩

/-- `sizeof(fw_data_reply_t)`. -/
def sizeofReply : Nat := 7

/-- `mem_comp` of the version bytes: equal. -/
def sameVersion (data : Mem) (info : FwInfo) : Bool :=
  data 0 == info.majorVer && data 1 == info.minorVer && data 2 == info.serialVer

/-- Segment number of a data packet. -/
def replySegIdx (data : Mem) : BitVec 16 := load16 data 3

/-- Segment length of a data packet. -/
def replySegLen (data : Mem) : BitVec 16 := load16 data 5

/-- The address a segment is stored at, in 32-bit arithmetic. -/
def segmentAddr (info : FwInfo) : Nat :=
  wrap32 (fwDataAddr + info.segIdx.toNat * info.segSize.toNat)

/-- `CMD_UP_data` up to its delay: a segment with the right version and number is
stored, in whole words, without a look at the payload length or the area. -/
def cmdUpData (header : ProtoBaseHead) (parse : ParseBase) (data : Mem) (unit : Upgrade) :
    Handled :=
  if header.opType = protOpWr then
    if sameVersion data unit.fwInfo = true ∧ replySegIdx data = unit.fwInfo.segIdx then
      let written := gdfWriteDataByWord (segmentAddr unit.fwInfo) (replySegLen data).toNat
        (window data sizeofReply) unit.fmc
      ⟨{ unit with
          fmc := written.2
          fwInfo := { unit.fwInfo with
            source := parse.port, segIdx := unit.fwInfo.segIdx + 1 }
          sleeping := unit.sleeping + 1 }, [], parse.error⟩
    else ⟨unit, [], parse.error⟩
  else ⟨unit, [], parse.error⟩

/-- The end of `CMD_UP_data` after its delay: the post to the mailbox of that time. -/
def wakeUp (unit : Upgrade) : Upgrade :=
  match unit.sleeping with
  | 0 => unit
  | sleeping + 1 =>
      { unit with sleeping := sleeping, xferMb := mboxPost unit.xferMb .recvData }

/-- `SPECAL_PRODUCT_NUM`, the characters "LED102-v3". -/
def specalProductNum : List Byte :=
  [0x4C#8, 0x45#8, 0x44#8, 0x31#8, 0x30#8, 0x32#8, 0x2D#8, 0x76#8, 0x33#8]

/-- Where the product tag stands in the staged image. -/
def productTagAddr : Nat := fwDataAddr + 0x400 + 12

/-- The checksum of the staged image, as `CMD_UP_finish` computes it. -/
def stagedCrc (unit : Upgrade) : BitVec 32 :=
  calculateCrc32 (window unit.fmc.mem fwDataAddr) (asInt unit.fwInfo.imgSize) .big

/-- The staged image carries the product tag. -/
def tagMatches (unit : Upgrade) : Bool :=
  toList unit.fmc.mem productTagAddr specalProductNum.length == specalProductNum

/-- The request names the version and segment count of the record. -/
def finishMatches (data : Mem) (info : FwInfo) : Bool :=
  sameVersion data info && load16 data 3 == info.segCount

/-- Error field and status that `CMD_UP_finish` arrives at. -/
def finishVerdict (data : Mem) (error : Byte) (unit : Upgrade) : Byte × Byte :=
  let (error, status) :=
    if finishMatches data unit.fwInfo = false then (1#8, unit.fwInfo.status)
    else if unit.fwInfo.segIdx ≠ unit.fwInfo.segCount then (2#8, unit.fwInfo.status)
    else (error, ugStateTransComplete)
  if status = ugStateTransComplete then
    if unit.fwInfo.imgCrc32 ≠ stagedCrc unit then (3#8, ugStateCheckFail)
    else if tagMatches unit = false then (4#8, ugStateCheckFail)
    else (error, ugStateCheckPass)
  else (error, status)

/-- `CMD_UP_finish`. -/
def cmdUpFinish (header : ProtoBaseHead) (parse : ParseBase) (data : Mem) (unit : Upgrade) :
    Handled :=
  if header.opType = protOpRd ∧ header.dataLen.toNat = 5 then
    match finishVerdict data parse.error unit with
    | (error, status) =>
        let unit := setStatus status unit
        let unit := { unit with fwInfo := { unit.fwInfo with
          crc32 := infoCrc (ofList unit.fwInfo.bytes) } }
        let unit := saveInfo unit
        let reply := (protoBaseBuildPkt { header with dataLen := 0, opType := protOpAck }
          { parse with data := none, error := error }).1
        ⟨if status = ugStateCheckPass then { unit with reset := true } else unit, reply, error⟩
  else ⟨unit, [], parse.error⟩

/-- `CMD_UP_cancel`. -/
def cmdUpCancel (header : ProtoBaseHead) (parse : ParseBase) (unit : Upgrade) : Handled :=
  if header.opType = protOpRd ∧ header.dataLen.toNat = 2 then
    let unit := setStatus ugStateCanceled { unit with xferMb := mboxPost unit.xferMb .stopUg }
    ⟨unit, (protoBaseBuildPkt { header with dataLen := 0, opType := protOpAck }
      { parse with data := none }).1, parse.error⟩
  else ⟨unit, [], parse.error⟩

/-- `CMD_UP_NOTIFY`. -/
def commandNotify : Byte := 50#8

/-- `CMD_UP_DATA`. -/
def commandData : Byte := 51#8

/-- `CMD_UP_FINISH`. -/
def commandFinish : Byte := 52#8

/-- `CMD_UP_CANCEL`. -/
def commandCancel : Byte := 53#8

/-- `upgrade_branch_cmd` behind the command table, which holds no other command. -/
def upgradeBranchCmd (header : ProtoBaseHead) (parse : ParseBase) (data : Mem) (unit : Upgrade) :
    Handled :=
  if header.cmd = commandNotify then cmdUpNotify header parse data unit
  else if header.cmd = commandData then cmdUpData header parse data unit
  else if header.cmd = commandFinish then cmdUpFinish header parse data unit
  else if header.cmd = commandCancel then cmdUpCancel header parse unit
  else ⟨unit, [], parse.error⟩

/-- Received bytes: the buffer from the packet's first byte on, the number of
bytes received, and the port they came from. -/
structure Packet where
  inbuf : Mem
  inlen : Nat
  port : BitVec 32

/-- The packet passes `check_packet_base`. -/
def Packet.accepted (packet : Packet) : Bool :=
  (checkPacketBase .cleared packet.inbuf packet.inlen).1

/-- The header of a packet. -/
def Packet.header (packet : Packet) : ProtoBaseHead := headAt packet.inbuf

/-- The payload pointer of a packet. -/
def Packet.data (packet : Packet) : Mem := window packet.inbuf sizeofHead

/-- One pass of `base_pkt_process`: check the packet and dispatch it. -/
def receive (packet : Packet) (unit : Upgrade) : Handled :=
  match checkPacketBase .cleared packet.inbuf packet.inlen with
  | (true, parse) =>
      upgradeBranchCmd packet.header { parse with port := packet.port } packet.data unit
  | (false, parse) => ⟨unit, [], parse.error⟩

/-- A packet that fails the check changes nothing and gets no reply. -/
theorem receive_rejected {packet : Packet} (unit : Upgrade) (rejected : packet.accepted = false) :
    (receive packet unit).unit = unit ∧ (receive packet unit).reply = [] := by
  unfold Packet.accepted at rejected
  unfold receive
  cases checked : checkPacketBase .cleared packet.inbuf packet.inlen with
  | mk accepted parse =>
    rw [checked] at rejected
    subst rejected
    exact ⟨rfl, rfl⟩

/-- What can happen next: a packet arrives, a sleeping handler posts, or the agent
task acts. -/
inductive Event where
  | packet (packet : Packet)
  | wake
  | task

/-- One event. -/
def step (unit : Upgrade) : Event → Upgrade
  | .packet packet => (receive packet unit).unit
  | .wake => wakeUp unit
  | .task => upgradeTask unit

end Pyrometer.UpgradeSession
