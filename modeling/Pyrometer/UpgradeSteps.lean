import Pyrometer.UpgradeSession
import Pyrometer.Runs

/-!
# What one event of an upgrade can do

Every event leaves the unit as it was, or has one of nine effects: a
notification, a stored segment, a finish request, a cancellation, a delayed post,
the start of a posted task run, one of its two sector erases, or a task action
that touches neither flash nor queue. The laws of whole runs are derived from
this list.
-/

namespace Pyrometer.UpgradeSteps

open ByteMemory NorFlash FlashController BaseProtocol FirmwareInfo UpgradeSession

/-- An accepted upgrade notification. -/
def isNotify (packet : Packet) : Bool :=
  packet.accepted && packet.header.cmd == commandNotify && packet.header.opType == protOpWr &&
    packet.header.dataLen.toNat == sizeofNotify

/-- An accepted data packet whose segment the handler stores. -/
def storesSegment (packet : Packet) (unit : Upgrade) : Bool :=
  packet.accepted && packet.header.cmd == commandData && packet.header.opType == protOpWr &&
    (sameVersion packet.data unit.fwInfo && replySegIdx packet.data == unit.fwInfo.segIdx)

/-- An accepted data packet, stored or not. -/
def carriesSegment (packet : Packet) : Bool :=
  packet.accepted && packet.header.cmd == commandData && packet.header.opType == protOpWr

/-- Two payloads name the same version. -/
def sameRelease (left right : Packet) : Bool := toList left.data 0 3 == toList right.data 0 3

/-- An accepted finish request. -/
def isFinish (packet : Packet) : Bool :=
  packet.accepted && packet.header.cmd == commandFinish && packet.header.opType == protOpRd &&
    packet.header.dataLen.toNat == 5

/-- An accepted cancellation. -/
def isCancel (packet : Packet) : Bool :=
  packet.accepted && packet.header.cmd == commandCancel && packet.header.opType == protOpRd &&
    packet.header.dataLen.toNat == 2

/-- The unit after a notification. -/
def notified (packet : Packet) (unit : Upgrade) : Upgrade :=
  agentPost packet.port
    (saveInfo { unit with fwInfo := notifiedInfo packet.data packet.port unit.fwInfo })

/-- The unit after a stored segment. -/
def stored (packet : Packet) (unit : Upgrade) : Upgrade :=
  { unit with
    fmc := (gdfWriteDataByWord (segmentAddr unit.fwInfo) (replySegLen packet.data).toNat
      (window packet.data sizeofReply) unit.fmc).2
    fwInfo := { unit.fwInfo with source := packet.port, segIdx := unit.fwInfo.segIdx + 1 }
    sleeping := unit.sleeping + 1 }

/-- Error and status of a finish request. -/
def verdict (packet : Packet) (unit : Upgrade) : Byte × Byte := finishVerdict packet.data 0 unit

/-- The record a finish request writes: the new status and its checksum. -/
def finishedInfo (packet : Packet) (unit : Upgrade) : FwInfo :=
  let info := { unit.fwInfo with status := (verdict packet unit).2 }
  { info with crc32 := infoCrc (ofList info.bytes) }

/-- The unit after a finish request. -/
def finished (packet : Packet) (unit : Upgrade) : Upgrade :=
  { saveInfo { unit with fwInfo := finishedInfo packet unit } with
    reset := unit.reset || (verdict packet unit).2 == ugStateCheckPass }

/-- The unit after a cancellation. -/
def cancelled (unit : Upgrade) : Upgrade :=
  setStatus ugStateCanceled { unit with xferMb := mboxPost unit.xferMb .stopUg }

/-- The record agrees with a notification. -/
structure Announced (info : FwInfo) (notice : Packet) : Prop where
  majorVer : info.majorVer = notice.data 0
  minorVer : info.minorVer = notice.data 1
  serialVer : info.serialVer = notice.data 2
  imgSize : info.imgSize = load32 notice.data 3
  segSize : info.segSize = load16 notice.data 7
  segCount : info.segCount = load16 notice.data 9
  imgCrc32 : info.imgCrc32 = load32 notice.data 11

/-- A packet as the host sends it: built by the same routine, with its payload. -/
def wirePacket (cmd opType : Byte) (payload : List Byte) : Packet :=
  let bytes := (protoBaseBuildPkt
    ⟨protSop, 1, cmd, opType, BitVec.ofNat 16 payload.length, 0⟩
    ⟨none, 0, 0, some (ofList payload), 0⟩).1
  ⟨ofList bytes, bytes.length, 0⟩

/-- The unit after power-up on an erased flash without faults. -/
def erasedUnit : Upgrade := .start (Device.healthy (fun _ => erased))

/-- The parse structure a checked packet is dispatched with. -/
def parsed (packet : Packet) (instrLen : BitVec 16) : ParseBase :=
  ⟨some packet.header, instrLen, 0, some packet.data, packet.port⟩

/-- A packet that passes the check is dispatched with its own header and payload
and without an error. -/
theorem receive_accepted (packet : Packet) (unit : Upgrade) (accepted : packet.accepted = true) :
    ∃ instrLen, receive packet unit =
      upgradeBranchCmd packet.header (parsed packet instrLen) packet.data unit := by
  obtain ⟨instrLen, checked⟩ := check_accepted packet.inbuf packet.inlen accepted
  refine ⟨instrLen, ?_⟩
  rw [receive, checked]
  rfl

/-- A notification carries its command number. -/
theorem notify_command {packet : Packet} (notify : isNotify packet = true) :
    packet.header.cmd = commandNotify := by
  simp only [isNotify, Bool.and_eq_true, beq_iff_eq] at notify
  exact notify.1.1.2

/-- A stored segment carries its command number. -/
theorem segment_command {packet : Packet} {unit : Upgrade}
    (stores : storesSegment packet unit = true) : packet.header.cmd = commandData := by
  simp only [storesSegment, Bool.and_eq_true, beq_iff_eq] at stores
  exact stores.1.1.2

/-- A finish request carries its command number. -/
theorem finish_command {packet : Packet} (finish : isFinish packet = true) :
    packet.header.cmd = commandFinish := by
  simp only [isFinish, Bool.and_eq_true, beq_iff_eq] at finish
  exact finish.1.1.2

/-- A cancellation carries its command number. -/
theorem cancel_command {packet : Packet} (cancel : isCancel packet = true) :
    packet.header.cmd = commandCancel := by
  simp only [isCancel, Bool.and_eq_true, beq_iff_eq] at cancel
  exact cancel.1.1.2

/-- What the notification handler leaves. -/
theorem notify_unit (packet : Packet) (instrLen : BitVec 16) (unit : Upgrade)
    (accepted : packet.accepted = true) (command : packet.header.cmd = commandNotify) :
    (cmdUpNotify packet.header (parsed packet instrLen) packet.data unit).unit =
      if isNotify packet = true then notified packet unit else unit := by
  unfold cmdUpNotify
  by_cases request : packet.header.opType = protOpWr ∧ packet.header.dataLen.toNat = sizeofNotify
  · rw [if_pos request, if_pos (by simp [isNotify, accepted, command, request.1, request.2])]
    rfl
  · rw [if_neg request, if_neg (by simpa [isNotify, accepted, command] using request)]

/-- What the data handler leaves. -/
theorem data_unit (packet : Packet) (instrLen : BitVec 16) (unit : Upgrade)
    (accepted : packet.accepted = true) (command : packet.header.cmd = commandData) :
    (cmdUpData packet.header (parsed packet instrLen) packet.data unit).unit =
      if storesSegment packet unit = true then stored packet unit else unit := by
  unfold cmdUpData
  by_cases write : packet.header.opType = protOpWr
  · rw [if_pos write]
    by_cases matching : sameVersion packet.data unit.fwInfo = true ∧
        replySegIdx packet.data = unit.fwInfo.segIdx
    · rw [if_pos matching,
        if_pos (by simp [storesSegment, accepted, command, write, matching.1, matching.2])]
      rfl
    · rw [if_neg matching,
        if_neg (by simpa [storesSegment, accepted, command, write] using matching)]
  · rw [if_neg write, if_neg (by simp [storesSegment, write])]

/-- What the finish handler leaves. -/
theorem finish_unit (packet : Packet) (instrLen : BitVec 16) (unit : Upgrade)
    (accepted : packet.accepted = true) (command : packet.header.cmd = commandFinish) :
    (cmdUpFinish packet.header (parsed packet instrLen) packet.data unit).unit =
      if isFinish packet = true then finished packet unit else unit := by
  unfold cmdUpFinish
  by_cases request : packet.header.opType = protOpRd ∧ packet.header.dataLen.toNat = 5
  · rw [if_pos request, if_pos (by simp [isFinish, accepted, command, request.1, request.2])]
    have clear : (parsed packet instrLen).error = 0 := rfl
    simp only [clear, finished, verdict, finishedInfo, setStatus, saveInfo]
    cases passed : (finishVerdict packet.data 0 unit).2 == ugStateCheckPass with
    | true =>
      rw [if_pos (eq_of_beq passed)]
      simp
    | false =>
      rw [if_neg (by simpa using passed)]
      simp
  · rw [if_neg request, if_neg (by simpa [isFinish, accepted, command] using request)]

/-- What the cancellation handler leaves. -/
theorem cancel_unit (packet : Packet) (instrLen : BitVec 16) (unit : Upgrade)
    (accepted : packet.accepted = true) (command : packet.header.cmd = commandCancel) :
    (cmdUpCancel packet.header (parsed packet instrLen) unit).unit =
      if isCancel packet = true then cancelled unit else unit := by
  unfold cmdUpCancel
  by_cases request : packet.header.opType = protOpRd ∧ packet.header.dataLen.toNat = 2
  · rw [if_pos request, if_pos (by simp [isCancel, accepted, command, request.1, request.2])]
    rfl
  · rw [if_neg request, if_neg (by simpa [isCancel, accepted, command] using request)]

/-- What one packet leaves: at most one of the four kinds applies. -/
theorem receive_unit (packet : Packet) (unit : Upgrade) :
    (receive packet unit).unit =
      if isNotify packet = true then notified packet unit
      else if storesSegment packet unit = true then stored packet unit
      else if isFinish packet = true then finished packet unit
      else if isCancel packet = true then cancelled unit
      else unit := by
  cases accepted : packet.accepted with
  | false =>
    rw [(receive_rejected unit accepted).1]
    simp [isNotify, storesSegment, isFinish, isCancel, accepted]
  | true =>
    obtain ⟨instrLen, dispatched⟩ := receive_accepted packet unit accepted
    rw [dispatched, upgradeBranchCmd]
    by_cases notify : packet.header.cmd = commandNotify
    · rw [if_pos notify, notify_unit packet instrLen unit accepted notify]
      simp [storesSegment, isFinish, isCancel, notify, commandNotify, commandData, commandFinish,
        commandCancel]
    rw [if_neg notify]
    by_cases data : packet.header.cmd = commandData
    · rw [if_pos data, data_unit packet instrLen unit accepted data]
      simp [isNotify, isFinish, isCancel, data, commandNotify, commandData, commandFinish,
        commandCancel]
    rw [if_neg data]
    by_cases finish : packet.header.cmd = commandFinish
    · rw [if_pos finish, finish_unit packet instrLen unit accepted finish]
      simp [isNotify, storesSegment, isCancel, finish, commandNotify, commandData, commandFinish,
        commandCancel]
    rw [if_neg finish]
    by_cases cancel : packet.header.cmd = commandCancel
    · rw [if_pos cancel, cancel_unit packet instrLen unit accepted cancel]
      simp [isNotify, storesSegment, isFinish, cancel, commandNotify, commandData, commandFinish,
        commandCancel]
    rw [if_neg cancel]
    simp [isNotify, storesSegment, isFinish, isCancel, notify, data, finish, cancel]

/-- Exactly one of five things happens on a packet. -/
theorem receive_cases (packet : Packet) (unit : Upgrade) :
    (isNotify packet = true ∧ (receive packet unit).unit = notified packet unit) ∨
      (storesSegment packet unit = true ∧ (receive packet unit).unit = stored packet unit) ∨
      (isFinish packet = true ∧ (receive packet unit).unit = finished packet unit) ∨
      (isCancel packet = true ∧ (receive packet unit).unit = cancelled unit) ∨
      (isNotify packet = false ∧ storesSegment packet unit = false ∧ isFinish packet = false ∧
        isCancel packet = false ∧ (receive packet unit).unit = unit) := by
  rw [receive_unit packet unit]
  cases notify : isNotify packet with
  | true => exact Or.inl ⟨rfl, if_pos rfl⟩
  | false =>
    cases stores : storesSegment packet unit with
    | true => exact Or.inr (Or.inl ⟨rfl, by simp⟩)
    | false =>
      cases finish : isFinish packet with
      | true => exact Or.inr (Or.inr (Or.inl ⟨rfl, by simp⟩))
      | false =>
        cases cancel : isCancel packet with
        | true => exact Or.inr (Or.inr (Or.inr (Or.inl ⟨rfl, by simp⟩)))
        | false => exact Or.inr (Or.inr (Or.inr (Or.inr ⟨rfl, rfl, rfl, rfl, by simp⟩)))

/-- Posting a run changes the queue only, and leaves it nonempty. -/
theorem agent_post_keeps (port : BitVec 32) (unit : Upgrade) :
    ∃ queue, queue ≠ [] ∧ agentPost port unit = { unit with agentQueue := queue } := by
  unfold agentPost
  split
  · rename_i full
    refine ⟨unit.agentQueue, ?_, rfl⟩
    rintro empty
    rw [empty] at full
    exact absurd full (by decide)
  · exact ⟨unit.agentQueue ++ [port], by simp, rfl⟩

/-- A notification leaves its own record and a posted run; the rest of the unit
but the flash stays. -/
theorem notified_keeps (packet : Packet) (unit : Upgrade) :
    (notified packet unit).fwInfo = notifiedInfo packet.data packet.port unit.fwInfo ∧
      (notified packet unit).reset = unit.reset ∧ (notified packet unit).agentQueue ≠ [] ∧
      (notified packet unit).fmc =
        (saveInfo { unit with
          fwInfo := notifiedInfo packet.data packet.port unit.fwInfo }).fmc := by
  obtain ⟨queue, posted, same⟩ := agent_post_keeps packet.port
    (saveInfo { unit with fwInfo := notifiedInfo packet.data packet.port unit.fwInfo })
  rw [notified, same]
  exact ⟨rfl, rfl, posted, rfl⟩

/-- A notification is what its record announces. -/
theorem notified_announced (packet : Packet) (info : FwInfo) :
    Announced (notifiedInfo packet.data packet.port info) packet :=
  ⟨rfl, rfl, rfl, rfl, rfl, rfl, rfl⟩

/-- What the handlers change of a record is not what was announced. -/
theorem announced_keeps {info : FwInfo} {notice : Packet} (announced : Announced info notice)
    (status : Byte) (source : BitVec 32) (segIdx : BitVec 16) (crc32 : BitVec 32) :
    Announced { info with status := status, source := source, segIdx := segIdx, crc32 := crc32 }
      notice :=
  ⟨announced.majorVer, announced.minorVer, announced.serialVer, announced.imgSize,
    announced.segSize, announced.segCount, announced.imgCrc32⟩

/-- A payload with the version of the record has the version of the notification. -/
theorem announced_release {info : FwInfo} {notice packet : Packet}
    (announced : Announced info notice) (version : sameVersion packet.data info = true) :
    sameRelease packet notice = true := by
  simp only [sameVersion, Bool.and_eq_true, beq_iff_eq] at version
  obtain ⟨⟨major, minor⟩, serial⟩ := version
  simp [sameRelease, toList, List.range_succ, major, minor, serial, announced.majorVer,
    announced.minorVer, announced.serialVer]

/-- What the handler has checked of a stored segment. -/
theorem segment_parts {packet : Packet} {unit : Upgrade}
    (stores : storesSegment packet unit = true) :
    carriesSegment packet = true ∧ sameVersion packet.data unit.fwInfo = true ∧
      replySegIdx packet.data = unit.fwInfo.segIdx := by
  simp only [storesSegment, Bool.and_eq_true, beq_iff_eq] at stores
  obtain ⟨⟨⟨accepted, command⟩, write⟩, version, index⟩ := stores
  exact ⟨by simp [carriesSegment, accepted, command, write], version, index⟩

/-- A delayed post changes the mailbox only. -/
theorem wake_up_keeps (unit : Upgrade) :
    ∃ mailbox sleeping, wakeUp unit = { unit with xferMb := mailbox, sleeping := sleeping } := by
  unfold wakeUp
  split
  · exact ⟨unit.xferMb, unit.sleeping, rfl⟩
  · rename_i sleeping _
    exact ⟨_, sleeping, rfl⟩

/-- A task action that touches neither flash nor queue and is not at an erase. -/
structure Quiet (before after : Upgrade) : Prop where
  fmc : after.fmc = before.fmc
  agentQueue : after.agentQueue = before.agentQueue
  reset : after.reset = before.reset
  fwInfo : after.fwInfo = before.fwInfo ∨
    after.fwInfo = { before.fwInfo with status := ugStateFinished }
  leaving : before.task ≠ .eraseFirst ∧ before.task ≠ .eraseSecond
  entering : after.task ≠ .eraseFirst ∧ after.task ≠ .eraseSecond

/-- Ending a run is quiet. -/
theorem task_over_quiet (before unit : Upgrade) (fmc : unit.fmc = before.fmc)
    (queue : unit.agentQueue = before.agentQueue) (reset : unit.reset = before.reset)
    (info : unit.fwInfo = before.fwInfo)
    (point : before.task ≠ .eraseFirst ∧ before.task ≠ .eraseSecond) :
    Quiet before (taskOver unit) :=
  ⟨fmc, queue, reset, Or.inr (by rw [taskOver, setStatus, info]), point, by simp [taskOver]⟩

/-- Counting a retry is quiet. -/
theorem task_retry_quiet (before unit : Upgrade) (retry : Nat) (fmc : unit.fmc = before.fmc)
    (queue : unit.agentQueue = before.agentQueue) (reset : unit.reset = before.reset)
    (info : unit.fwInfo = before.fwInfo)
    (point : before.task ≠ .eraseFirst ∧ before.task ≠ .eraseSecond) :
    Quiet before (taskRetry retry unit) := by
  unfold taskRetry
  split
  · exact task_over_quiet before unit fmc queue reset info point
  · exact ⟨fmc, queue, reset, Or.inl info, point, by simp⟩

/-- The effect of taking a posted run off the queue. -/
structure Begins (before after : Upgrade) : Prop where
  fmc : after.fmc = before.fmc
  reset : after.reset = before.reset
  fwInfo : after.fwInfo = { before.fwInfo with status := ugStateTrans }
  idle : before.task = .idle
  queue : ∃ port, before.agentQueue = port :: after.agentQueue
  entering : after.task = .eraseFirst

/-- The agent starts a posted run, erases one of the two staging sectors, or acts
quietly. -/
theorem upgrade_task_cases (unit : Upgrade) :
    Begins unit (upgradeTask unit) ∨
      (unit.task = .eraseFirst ∧ upgradeTask unit =
        { unit with fmc := (gdfEraseSector 6 unit.fmc).2, task := .eraseSecond }) ∨
      (unit.task = .eraseSecond ∧ upgradeTask unit =
        { unit with fmc := (gdfEraseSector 7 unit.fmc).2, task := .loop }) ∨
      Quiet unit (upgradeTask unit) := by
  cases point : unit.task with
  | idle =>
    have away : unit.task ≠ .eraseFirst ∧ unit.task ≠ .eraseSecond := by simp [point]
    cases queue : unit.agentQueue with
    | nil =>
      have idle : upgradeTask unit = unit := by simp only [upgradeTask, point, queue]
      rw [idle]
      exact Or.inr (Or.inr (Or.inr ⟨rfl, rfl, rfl, Or.inl rfl, away, away⟩))
    | cons port rest =>
      have begins : upgradeTask unit = { setStatus ugStateTrans (upgradeInit unit) with
          agentQueue := rest, task := .eraseFirst } := by
        simp only [upgradeTask, point, queue]
      rw [begins]
      unfold upgradeInit
      refine Or.inl ?_
      split
      · exact ⟨rfl, rfl, rfl, point, ⟨port, queue⟩, rfl⟩
      · exact ⟨rfl, rfl, rfl, point, ⟨port, queue⟩, rfl⟩
  | eraseFirst => exact Or.inr (Or.inl ⟨rfl, by simp only [upgradeTask, point]⟩)
  | eraseSecond => exact Or.inr (Or.inr (Or.inl ⟨rfl, by simp only [upgradeTask, point]⟩))
  | loop =>
    have away : unit.task ≠ .eraseFirst ∧ unit.task ≠ .eraseSecond := by simp [point]
    refine Or.inr (Or.inr (Or.inr ?_))
    simp only [upgradeTask, point]
    split
    · split
      · exact task_over_quiet unit unit rfl rfl rfl rfl away
      · exact task_retry_quiet unit unit _ rfl rfl rfl rfl away
    · exact task_over_quiet unit unit rfl rfl rfl rfl away
  | request retry =>
    have away : unit.task ≠ .eraseFirst ∧ unit.task ≠ .eraseSecond := by simp [point]
    refine Or.inr (Or.inr (Or.inr ?_))
    simp only [upgradeTask, point]
    split
    · exact task_over_quiet unit unit rfl rfl rfl rfl away
    · exact ⟨rfl, rfl, rfl, Or.inl rfl, away, by simp⟩
  | fetch retry =>
    have away : unit.task ≠ .eraseFirst ∧ unit.task ≠ .eraseSecond := by simp [point]
    refine Or.inr (Or.inr (Or.inr ?_))
    simp only [upgradeTask, point]
    split
    · exact ⟨rfl, rfl, rfl, Or.inl rfl, away, by simp⟩
    · exact task_retry_quiet unit _ _ rfl rfl rfl rfl away
    · exact task_retry_quiet unit unit _ rfl rfl rfl rfl away

end Pyrometer.UpgradeSteps
