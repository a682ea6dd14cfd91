import Pyrometer.UpgradeSteps

/-!
# What a session stages

A session begins with a notification and ends before the next one. Its packets
are segments of one image in any order and number, finish requests,
cancellations, and packets the check rejects. `StoredSafely` says of one segment
that the handler stores in one state: the erase of the session is over, no
cancellation came, the segment starts at a word boundary inside the staging area,
and the bytes past its last whole word, which the word writer drops, are erased
ones. Along runs whose segments meet it, the staging area holds at every moment
the image up to the segments stored, over erased cells, and no cell was
programmed twice since its erase.

The flash refuses nothing here: `CMD_UP_data` does not look at the result of its
write.
-/

namespace Pyrometer.UpgradeStaging

open ByteMemory NorFlash FlashController BaseProtocol FirmwareInfo UpgradeSession UpgradeSteps Runs

/-- Bytes of the announced image. -/
def imageSize (notice : Packet) : Nat := (load32 notice.data 3).toNat

/-- Bytes of all segments but the last. -/
def segmentSize (notice : Packet) : Nat := (load16 notice.data 7).toNat

/-- Number of announced segments. -/
def segmentCount (notice : Packet) : Nat := (load16 notice.data 9).toNat

/-- The announced count is that of an image cut into segments of the announced
size. -/
def ProperSplit (notice : Packet) : Prop :=
  0 < segmentSize notice ∧
    segmentCount notice = (imageSize notice + segmentSize notice - 1) / segmentSize notice

/-- Where a segment starts in the image. -/
def segmentStart (notice packet : Packet) : Nat :=
  (replySegIdx packet.data).toNat * segmentSize notice

/-- A data packet carries a segment of the image, under its number and with its
length. -/
structure Genuine (notice : Packet) (image : Mem) (packet : Packet) : Prop where
  number : (replySegIdx packet.data).toNat < segmentCount notice
  length : (replySegLen packet.data).toNat =
    min (segmentSize notice) (imageSize notice - segmentStart notice packet)
  bytes : ∀ offset, offset < (replySegLen packet.data).toNat →
    packet.data (sizeofReply + offset) = image (segmentStart notice packet + offset)

/-- What the host and the line deliver during the session: no other notification,
and no data packet of its version but segments of the image. -/
def Delivers (notice : Packet) (image : Mem) : Event → Prop
  | .packet packet => isNotify packet = false ∧
      (carriesSegment packet = true → sameRelease packet notice = true →
        Genuine notice image packet)
  | .wake => True
  | .task => True

/-- A session that is watched for cancellations. -/
structure Watched where
  unit : Upgrade
  cancelled : Bool

/-- The event is a cancellation. -/
def cancels : Event → Bool
  | .packet packet => isCancel packet
  | .wake => false
  | .task => false

/-- One event of a watched session. -/
def watch (watched : Watched) (event : Event) : Watched :=
  ⟨step watched.unit event, watched.cancelled || cancels event⟩

/-- The session after its notification. -/
def opened (notice : Packet) (unit : Upgrade) : Watched := ⟨notified notice unit, false⟩

/-- An erase of the staging area is still to come. -/
def Pending (unit : Upgrade) : Prop :=
  unit.agentQueue ≠ [] ∨ unit.task = .eraseFirst ∨ unit.task = .eraseSecond

/-- A segment that would be stored meets the erased staging area of an uncancelled
session, fits into it at a word boundary, and loses only erased bytes. -/
def StoredSafely (notice : Packet) (watched : Watched) : Event → Prop
  | .packet packet => storesSegment packet watched.unit = true →
      ¬Pending watched.unit ∧ watched.cancelled = false ∧
        segmentStart notice packet % 4 = 0 ∧
        segmentStart notice packet + (replySegLen packet.data).toNat ≤ fwAreaSize ∧
        ∀ offset, 4 * ((replySegLen packet.data).toNat / 4) ≤ offset →
          offset < (replySegLen packet.data).toNat → packet.data (sizeofReply + offset) = erased
  | .wake => True
  | .task => True

/-- The cell at an offset of the staging area holds the image below a bound, is
erased above it, and was programmed at most once since its erase. -/
structure CellStaged (image : Mem) (done : Nat) (fmc : Device) (offset : Nat) : Prop where
  contents : fmc.mem (fwDataAddr + offset) = if offset < done then image offset else erased
  wear : wear fmc.log (fwDataAddr + offset) ≤ if offset < done then 1 else 0

/-- Image bytes in the first segments. -/
def covered (notice : Packet) (count : Nat) : Nat :=
  min (count * segmentSize notice) (imageSize notice)

/-- The invariant of a session: before the erase is over nothing is stored; then
the staging area holds exactly the stored segments. -/
structure Staging (notice : Packet) (image : Mem) (unit : Upgrade) : Prop where
  sound : unit.fmc.Sound
  announced : Announced unit.fwInfo notice
  number : unit.fwInfo.segIdx.toNat ≤ segmentCount notice
  waiting : Pending unit → unit.fwInfo.segIdx = 0
  half : unit.agentQueue = [] → unit.task = .eraseSecond →
    ∀ offset, offset < sectorSize 6 → CellStaged image 0 unit.fmc offset
  inside : covered notice unit.fwInfo.segIdx.toNat ≤ fwAreaSize
  staged : ¬Pending unit → ∀ offset, offset < fwAreaSize →
    CellStaged image (covered notice unit.fwInfo.segIdx.toNat) unit.fmc offset

/-- Operations outside the staging area leave its cells staged as they were. -/
theorem cell_untouched {image : Mem} {done offset : Nat} {fmc : Device}
    (staged : CellStaged image done fmc offset) (history : List Op)
    (untouched : ∀ op ∈ history, ¬Touches op (fwDataAddr + offset)) :
    CellStaged image done (fmc.perform history) offset := by
  constructor
  · rw [Device.perform_mem, replay_untouched _ _ _ untouched]
    exact staged.contents
  · rw [Device.perform_log, wear_untouched _ _ _ untouched]
    exact staged.wear

/-- An erased cell holds nothing of the image yet. -/
theorem cell_erased (image : Mem) (fmc : Device) (start len offset : Nat)
    (inside : start ≤ fwDataAddr + offset ∧ fwDataAddr + offset < start + len) :
    CellStaged image 0 (fmc.perform [.erase start len]) offset := by
  constructor
  · rw [if_neg (Nat.not_lt_zero offset)]
    exact if_pos inside
  · rw [Device.perform_log, wear_erase, if_pos inside]
    exact Nat.zero_le _

/-- The info page is written without touching the staging area. -/
theorem save_info_performs (unit : Upgrade) (sound : unit.fmc.Sound) :
    ∃ history, (saveInfo unit).fmc = unit.fmc.perform history ∧
      ∀ offset, ∀ op ∈ history, ¬Touches op (fwDataAddr + offset) := by
  refine ⟨writePlan fwInfoAddr sizeofFwInfo (ofList unit.fwInfo.bytes), ?_, ?_⟩
  · rw [saveInfo, gdf_write_data_by_page_sound _ _ _ _ sound info_page_writable]
  · intro offset
    apply write_plan_misses
    have pages : fwInfoAddr + fmcPageSize * pageCount sizeofFwInfo ≤ fwDataAddr := by decide
    omega

/-- No segment covers nothing. -/
theorem covered_none (notice : Packet) : covered notice (0 : BitVec 16).toNat = 0 := by
  simp [covered]

/-- The first segments of a proper split end where the next one starts. -/
theorem covered_start {notice : Packet} (proper : ProperSplit notice) {count : Nat}
    (before : count < segmentCount notice) :
    covered notice count = count * segmentSize notice ∧
      count * segmentSize notice < imageSize notice := by
  obtain ⟨positive, split⟩ := proper
  have below : count * segmentSize notice < imageSize notice := by
    rw [split, Nat.lt_div_iff_mul_lt positive] at before
    omega
  exact ⟨Nat.min_eq_left (Nat.le_of_lt below), below⟩

/-- One more segment covers its length more. -/
theorem covered_succ {notice : Packet} (proper : ProperSplit notice) {count : Nat}
    (before : count < segmentCount notice) :
    covered notice (count + 1) = count * segmentSize notice +
      min (segmentSize notice) (imageSize notice - count * segmentSize notice) := by
  have below := (covered_start proper before).2
  rw [covered, Nat.succ_mul]
  omega

/-- All segments of a proper split cover the image. -/
theorem covered_all {notice : Packet} (proper : ProperSplit notice) :
    covered notice (segmentCount notice) = imageSize notice := by
  obtain ⟨positive, split⟩ := proper
  have last := Nat.lt_div_mul_add positive (a := imageSize notice + segmentSize notice - 1)
  rw [← split] at last
  rw [covered]
  omega

/-- A segment whose dropped bytes are erased ones extends what is staged by its
length: its words meet erased cells, and its last bytes are there already. -/
theorem cell_programmed {image source : Mem} {start len offset : Nat} {fmc : Device}
    (staged : CellStaged image start fmc offset)
    (bytes : ∀ index, index < len → source index = image (start + index))
    (dropped : ∀ index, 4 * (len / 4) ≤ index → index < len → source index = erased) :
    CellStaged image (start + len)
      (fmc.perform (programUnits (fwDataAddr + start) source 4 (len / 4))) offset := by
  have contents := staged.contents
  have wear := staged.wear
  rcases Nat.lt_or_ge offset start with early | late
  · have outside : ¬(fwDataAddr + start ≤ fwDataAddr + offset ∧
        fwDataAddr + offset < fwDataAddr + start + 4 * (len / 4)) := by omega
    rw [if_pos early] at contents wear
    constructor
    · rw [Device.perform_mem, replay_program_units, if_neg outside, if_pos (by omega), contents]
    · rw [Device.perform_log, wear_program_units, if_neg outside, if_pos (by omega)]
      exact wear
  · obtain ⟨index, rfl⟩ := Nat.exists_eq_add_of_le late
    rw [if_neg (by omega)] at contents wear
    by_cases word : index < 4 * (len / 4)
    · have inside : fwDataAddr + start ≤ fwDataAddr + (start + index) ∧
          fwDataAddr + (start + index) < fwDataAddr + start + 4 * (len / 4) := by omega
      have position : fwDataAddr + (start + index) - (fwDataAddr + start) = index := by omega
      constructor
      · rw [Device.perform_mem, replay_program_units, if_pos inside, if_pos (by omega), contents,
          erased_and, position]
        exact bytes index (by omega)
      · rw [Device.perform_log, wear_program_units, if_pos inside, if_pos (by omega)]
        omega
    · have outside : ¬(fwDataAddr + start ≤ fwDataAddr + (start + index) ∧
          fwDataAddr + (start + index) < fwDataAddr + start + 4 * (len / 4)) := by omega
      constructor
      · rw [Device.perform_mem, replay_program_units, if_neg outside, contents]
        split
        · rw [← bytes index (by omega), dropped index (by omega) (by omega)]
        · rfl
      · rw [Device.perform_log, wear_program_units, if_neg outside]
        omega

/-- A segment stored safely keeps the invariant. -/
theorem stored_staging {notice packet : Packet} {image : Mem} {watched : Watched}
    (proper : ProperSplit notice) (staging : Staging notice image watched.unit)
    (genuine : Genuine notice image packet) (stores : storesSegment packet watched.unit = true)
    (safe : StoredSafely notice watched (.packet packet)) :
    Staging notice image (stored packet watched.unit) := by
  obtain ⟨settled, _, _, fits, dropped⟩ := safe stores
  obtain ⟨_, _, same⟩ := segment_parts stores
  have before := genuine.number
  rw [same] at before
  have begin : segmentStart notice packet =
      watched.unit.fwInfo.segIdx.toNat * segmentSize notice := by
    rw [segmentStart, same]
  obtain ⟨first, below⟩ := covered_start proper before
  have next : (watched.unit.fwInfo.segIdx + 1).toNat = watched.unit.fwInfo.segIdx.toNat + 1 := by
    have bound : segmentCount notice < 2 ^ 16 := (load16 notice.data 9).isLt
    have one : (1 : BitVec 16).toNat = 1 := rfl
    rw [BitVec.toNat_add, one]
    exact Nat.mod_eq_of_lt (by omega)
  have extended : covered notice (watched.unit.fwInfo.segIdx.toNat + 1) =
      segmentStart notice packet + (replySegLen packet.data).toNat := by
    rw [covered_succ proper before, genuine.length, begin]
  have base : fwDataAddr + fwAreaSize < 2 ^ 32 := by decide
  have address : segmentAddr watched.unit.fwInfo = fwDataAddr + segmentStart notice packet := by
    have product : watched.unit.fwInfo.segIdx.toNat * watched.unit.fwInfo.segSize.toNat =
        segmentStart notice packet := by
      rw [begin, staging.announced.segSize]
      rfl
    rw [segmentAddr, product]
    exact Nat.mod_eq_of_lt (by omega)
  have written : (stored packet watched.unit).fmc = watched.unit.fmc.perform
      (programUnits (fwDataAddr + segmentStart notice packet) (window packet.data sizeofReply) 4
        ((replySegLen packet.data).toNat / 4)) := by
    rw [stored, address, gdf_write_data_by_word_sound _ _ _ _ staging.sound (by omega)]
  refine ⟨?_, ?_, ?_, ?_, ?_, ?_, ?_⟩
  · rw [written]
    exact Device.perform_sound staging.sound _
  · exact announced_keeps staging.announced watched.unit.fwInfo.status packet.port _
      watched.unit.fwInfo.crc32
  · rw [stored, next]
    exact before
  · intro pending
    exact absurd pending settled
  · intro _ second
    exact absurd (Or.inr (Or.inr second)) settled
  · rw [stored, next, extended]
    exact fits
  · intro _ offset inside
    have cell := staging.staged settled offset inside
    rw [first, ← begin] at cell
    rw [written, stored, next, extended]
    exact cell_programmed cell genuine.bytes dropped

/-- An event that changes of the record at most status and checksum, of the flash
nothing in the staging area, and does not move the task past an erase keeps the
invariant. -/
theorem keeping_staging {notice : Packet} {image : Mem} {unit next : Upgrade} (status : Byte)
    (crc32 : BitVec 32) (history : List Op) (staging : Staging notice image unit)
    (info : next.fwInfo = { unit.fwInfo with status := status, crc32 := crc32 })
    (fmc : next.fmc = unit.fmc.perform history)
    (untouched : ∀ offset, ∀ op ∈ history, ¬Touches op (fwDataAddr + offset))
    (queue : next.agentQueue = unit.agentQueue)
    (first : next.task = .eraseFirst ↔ unit.task = .eraseFirst)
    (second : next.task = .eraseSecond ↔ unit.task = .eraseSecond) :
    Staging notice image next := by
  have pending : Pending next ↔ Pending unit := by
    simp only [Pending, queue, first, second]
  refine ⟨?_, ?_, ?_, ?_, ?_, ?_, ?_⟩
  · rw [fmc]
    exact Device.perform_sound staging.sound history
  · rw [info]
    exact announced_keeps staging.announced status unit.fwInfo.source unit.fwInfo.segIdx crc32
  · rw [info]
    exact staging.number
  · intro waits
    rw [info]
    exact staging.waiting (pending.mp waits)
  · intro empty reached offset inside
    rw [fmc]
    exact cell_untouched (staging.half (queue ▸ empty) (second.mp reached) offset inside) history
      (untouched offset)
  · rw [info]
    exact staging.inside
  · intro settled offset inside
    rw [fmc, info]
    exact cell_untouched (staging.staged (fun waits => settled (pending.mpr waits)) offset inside)
      history (untouched offset)

/-- An event that touches neither record, flash, queue nor task keeps the
invariant. -/
theorem idle_staging {notice : Packet} {image : Mem} {unit next : Upgrade}
    (staging : Staging notice image unit) (info : next.fwInfo = unit.fwInfo)
    (fmc : next.fmc = unit.fmc) (queue : next.agentQueue = unit.agentQueue)
    (task : next.task = unit.task) : Staging notice image next :=
  keeping_staging unit.fwInfo.status unit.fwInfo.crc32 [] staging info
    (by rw [fmc, Device.perform_nil]) (fun _ op member => absurd member (by simp)) queue
    (by rw [task]) (by rw [task])

/-- The first of the two sector erases. -/
theorem erase_first_staging {notice : Packet} {image : Mem} {unit : Upgrade}
    (staging : Staging notice image unit) (reached : unit.task = .eraseFirst) :
    Staging notice image
      { unit with fmc := (gdfEraseSector 6 unit.fmc).2, task := .eraseSecond } := by
  have sector : sectorStart 6 = fwDataAddr := by decide
  rw [gdf_erase_sector_sound 6 unit.fmc staging.sound, sector]
  refine ⟨Device.perform_sound staging.sound _, staging.announced, staging.number,
    fun _ => staging.waiting (Or.inr (Or.inl reached)), ?_, staging.inside, ?_⟩
  · intro _ _ offset inside
    exact cell_erased image unit.fmc _ _ offset ⟨by omega, by omega⟩
  · intro settled
    exact absurd (Or.inr (Or.inr rfl)) settled

/-- The second sector erase: the whole area is erased when no other run is
queued. -/
theorem erase_second_staging {notice : Packet} {image : Mem} {unit : Upgrade}
    (staging : Staging notice image unit) (reached : unit.task = .eraseSecond) :
    Staging notice image { unit with fmc := (gdfEraseSector 7 unit.fmc).2, task := .loop } := by
  have sector : sectorStart 7 = fwDataAddr + sectorSize 6 := by decide
  have area : sectorSize 6 + sectorSize 7 = fwAreaSize := by decide
  have empty : unit.fwInfo.segIdx = 0 := staging.waiting (Or.inr (Or.inr reached))
  rw [gdf_erase_sector_sound 7 unit.fmc staging.sound, sector]
  refine ⟨Device.perform_sound staging.sound _, staging.announced, staging.number,
    fun _ => empty, fun _ back => ?_, staging.inside, ?_⟩
  · exact TaskPoint.noConfusion back
  · intro settled offset inside
    have queue : unit.agentQueue = [] := by
      by_contra posted
      exact settled (Or.inl posted)
    rw [empty, covered_none]
    rcases Nat.lt_or_ge offset (sectorSize 6) with low | high
    · apply cell_untouched (staging.half queue reached offset low)
      intro op member
      rw [List.mem_singleton.mp member]
      rintro ⟨above, _⟩
      omega
    · exact cell_erased image unit.fmc _ _ offset ⟨by omega, by omega⟩

/-- Every action of the agent keeps the invariant. -/
theorem task_staging {notice : Packet} {image : Mem} {unit : Upgrade}
    (staging : Staging notice image unit) : Staging notice image (upgradeTask unit) := by
  rcases upgrade_task_cases unit with begins | ⟨reached, first⟩ | ⟨reached, second⟩ | quiet
  · obtain ⟨port, queue⟩ := begins.queue
    have waits : Pending unit := Or.inl (by rw [queue]; exact List.cons_ne_nil _ _)
    have empty := staging.waiting waits
    refine ⟨?_, ?_, ?_, ?_, ?_, ?_, ?_⟩
    · rw [begins.fmc]
      exact staging.sound
    · rw [begins.fwInfo]
      exact announced_keeps staging.announced ugStateTrans unit.fwInfo.source unit.fwInfo.segIdx
        unit.fwInfo.crc32
    · rw [begins.fwInfo]
      exact staging.number
    · intro _
      rw [begins.fwInfo]
      exact empty
    · intro _ second
      rw [begins.entering] at second
      exact TaskPoint.noConfusion second
    · rw [begins.fwInfo]
      exact staging.inside
    · intro settled
      exact absurd (Or.inr (Or.inl begins.entering)) settled
  · rw [first]
    exact erase_first_staging staging reached
  · rw [second]
    exact erase_second_staging staging reached
  · have info : ∃ status, (upgradeTask unit).fwInfo = { unit.fwInfo with status := status } := by
      rcases quiet.fwInfo with same | finished
      · exact ⟨unit.fwInfo.status, same⟩
      · exact ⟨ugStateFinished, finished⟩
    obtain ⟨status, info⟩ := info
    exact keeping_staging status unit.fwInfo.crc32 [] staging info
      (by rw [quiet.fmc, Device.perform_nil]) (fun _ op member => absurd member (by simp))
      quiet.agentQueue
      (iff_of_false quiet.entering.1 quiet.leaving.1)
      (iff_of_false quiet.entering.2 quiet.leaving.2)

/-- Every delivery of the session that stores safely keeps the invariant. -/
theorem step_staging {notice : Packet} {image : Mem} (proper : ProperSplit notice)
    (watched : Watched) (event : Event) (staging : Staging notice image watched.unit)
    (delivers : Delivers notice image event) (safe : StoredSafely notice watched event) :
    Staging notice image (watch watched event).unit := by
  cases event with
  | packet packet =>
    obtain ⟨notNotify, genuine⟩ := delivers
    rw [watch, step]
    rcases receive_cases packet watched.unit with ⟨notify, _⟩ | ⟨stores, left⟩ | ⟨_, left⟩ |
      ⟨_, left⟩ | ⟨_, _, _, _, left⟩
    · rw [notNotify] at notify
      exact absurd notify Bool.false_ne_true
    · obtain ⟨carries, version, _⟩ := segment_parts stores
      have release := announced_release staging.announced version
      rw [left]
      exact stored_staging proper staging (genuine carries release) stores safe
    · obtain ⟨history, saved, untouched⟩ := save_info_performs
        { watched.unit with fwInfo := finishedInfo packet watched.unit } staging.sound
      rw [left]
      exact keeping_staging _ _ history staging rfl saved untouched rfl Iff.rfl Iff.rfl
    · rw [left]
      exact keeping_staging ugStateCanceled watched.unit.fwInfo.crc32 [] staging rfl
        (Device.perform_nil _).symm (fun _ op member => absurd member (by simp)) rfl Iff.rfl
        Iff.rfl
    · rw [left]
      exact staging
  | wake =>
    obtain ⟨mailbox, sleeping, woken⟩ := wake_up_keeps watched.unit
    rw [watch, step, woken]
    exact idle_staging staging rfl rfl rfl rfl
  | task => exact task_staging staging

/-- A notification opens the session with its erase pending. -/
theorem opened_staging (notice : Packet) (image : Mem) (unit : Upgrade)
    (sound : unit.fmc.Sound) : Staging notice image (opened notice unit).unit := by
  obtain ⟨info, _, queue, fmc⟩ := notified_keeps notice unit
  have waits : Pending (notified notice unit) := Or.inl queue
  have first : (notified notice unit).fwInfo.segIdx = 0 := by
    rw [info]
    rfl
  refine ⟨?_, ?_, ?_, fun _ => first, fun empty => absurd empty queue, ?_,
    fun settled => absurd waits settled⟩
  · obtain ⟨history, saved, _⟩ := save_info_performs
      { unit with fwInfo := notifiedInfo notice.data notice.port unit.fwInfo } sound
    rw [opened, fmc, saved]
    exact Device.perform_sound sound history
  · rw [opened, info]
    exact notified_announced notice unit.fwInfo
  · rw [opened, first]
    exact Nat.zero_le _
  · rw [opened, first, covered_none]
    exact Nat.zero_le _

/-- The session has stored all its segments. -/
def AllStored (unit : Upgrade) : Prop := unit.fwInfo.segIdx = unit.fwInfo.segCount

/-- The staging area holds the image, each cell of it programmed at most once since
its erase. -/
def ImageStaged (notice : Packet) (image : Mem) (unit : Upgrade) : Prop :=
  Agree (window unit.fmc.mem fwDataAddr) image 0 (imageSize notice) ∧
    ∀ offset, offset < imageSize notice → wear unit.fmc.log (fwDataAddr + offset) ≤ 1

/-- A data packet leaves flash and segment number alone. -/
def NotStored (unit : Upgrade) (packet : Packet) : Prop :=
  (step unit (.packet packet)).fmc = unit.fmc ∧
    (step unit (.packet packet)).fwInfo.segIdx = unit.fwInfo.segIdx

/-- Under the invariant a session with all segments stored has staged its image. -/
theorem all_stored_staged {notice : Packet} {image : Mem} {unit : Upgrade}
    (proper : ProperSplit notice) (staging : Staging notice image unit) (all : AllStored unit) :
    ImageStaged notice image unit := by
  have count : unit.fwInfo.segIdx.toNat = segmentCount notice := by
    rw [all, staging.announced.segCount]
    rfl
  have whole : covered notice unit.fwInfo.segIdx.toNat = imageSize notice := by
    rw [count]
    exact covered_all proper
  have cells : ∀ offset, offset < imageSize notice →
      CellStaged image (imageSize notice) unit.fmc offset := by
    intro offset inside
    have fits := staging.inside
    rw [whole] at fits
    rw [← whole]
    apply staging.staged _ offset (by omega)
    intro waits
    rw [staging.waiting waits, covered_none] at whole
    omega
  constructor
  · intro offset _ inside
    rw [Nat.zero_add] at inside
    exact (cells offset inside).contents.trans (if_pos inside)
  · intro offset inside
    have bound := (cells offset inside).wear
    rw [if_pos inside] at bound
    exact bound

/-- A data packet that is not stored changes neither flash nor segment number. -/
theorem carried_not_stored {packet : Packet} {unit : Upgrade}
    (carries : carriesSegment packet = true) (refused : storesSegment packet unit = false) :
    NotStored unit packet := by
  simp only [carriesSegment, Bool.and_eq_true, beq_iff_eq] at carries
  obtain ⟨⟨_, command⟩, _⟩ := carries
  unfold NotStored
  rw [step]
  rcases receive_cases packet unit with ⟨notify, _⟩ | ⟨stores, _⟩ | ⟨finish, _⟩ | ⟨cancel, _⟩ |
    ⟨_, _, _, _, left⟩
  · exact absurd (command.symm.trans (notify_command notify)) (by decide)
  · rw [refused] at stores
    exact absurd stores Bool.false_ne_true
  · exact absurd (command.symm.trans (finish_command finish)) (by decide)
  · exact absurd (command.symm.trans (cancel_command cancel)) (by decide)
  · rw [left]
    exact ⟨rfl, rfl⟩

/-- Staging over runs: in every session of a properly split image, on a flash that
refuses nothing, with any delivery of its segments and any interleaving of the
task, whose stored segments all meet `StoredSafely`: whenever all segments are
stored the image is staged, each cell programmed at most once since its erase; and
no segment that arrives before the erase or after a cancellation is stored. -/
theorem sessions_stage_exactly_once (notice : Packet) (image : Mem) (unit : Upgrade)
    (proper : ProperSplit notice) (sound : unit.fmc.Sound) (events : List Event)
    (delivered : ∀ event ∈ events, Delivers notice image event)
    (met : Along watch (StoredSafely notice) (opened notice unit) events) :
    (AllStored (run watch (opened notice unit) events).unit →
        ImageStaged notice image (run watch (opened notice unit) events).unit) ∧
      ∀ earlier packet later, events = earlier ++ Event.packet packet :: later →
        carriesSegment packet = true →
        Pending (run watch (opened notice unit) earlier).unit ∨
          (run watch (opened notice unit) earlier).cancelled = true →
        NotStored (run watch (opened notice unit) earlier).unit packet := by
  have preserved : ∀ watched event, Staging notice image watched.unit →
      Delivers notice image event ∧ StoredSafely notice watched event →
      Staging notice image (watch watched event).unit :=
    fun watched event staging condition =>
      step_staging proper watched event staging condition.1 condition.2
  have staging : Staging notice image (run watch (opened notice unit) events).unit :=
    along_invariant watch preserved (opened notice unit) (opened_staging notice image unit sound)
      events (along_and watch (opened notice unit) events delivered met)
  refine ⟨all_stored_staged proper staging, ?_⟩
  intro earlier packet later split carries tooSoonOrLate
  rw [split, along_append] at met
  have safe : StoredSafely notice _ (.packet packet) := met.2.1
  apply carried_not_stored carries
  rw [Bool.eq_false_iff]
  intro stores
  obtain ⟨settled, uncancelled, _⟩ := safe stores
  rcases tooSoonOrLate with tooSoon | tooLate
  · exact settled tooSoon
  · rw [uncancelled] at tooLate
    exact Bool.false_ne_true tooLate

/-- The notification of an image of up to 255 bytes in one segment. -/
def smallNotice (image : List Byte) : Packet :=
  let size := BitVec.ofNat 8 image.length
  wirePacket commandNotify protOpWr ([1, 0, 0, size, 0, 0, 0, size, 0, 1, 0] ++ [0, 0, 0, 0])

/-- The segment of such an image. -/
def smallSegment (image : List Byte) : Packet :=
  wirePacket commandData protOpWr
    ([1, 0, 0, 0, 0, BitVec.ofNat 8 image.length, 0] ++ image)

/-- A session in which the segment arrives after the erase. -/
def smallSession (image : List Byte) : List Event :=
  [.task, .task, .task, .packet (smallSegment image)]

/-- Such a session delivers what its segment does. -/
theorem small_session_delivers (image : List Byte)
    (segment : Delivers (smallNotice image) (ofList image) (.packet (smallSegment image))) :
    ∀ event ∈ smallSession image, Delivers (smallNotice image) (ofList image) event := by
  intro event member
  simp only [smallSession, List.mem_cons, List.not_mem_nil, or_false] at member
  rcases member with rfl | rfl | rfl | rfl
  · exact True.intro
  · exact True.intro
  · exact True.intro
  · exact segment

/-- An image of one word is staged. -/
theorem word_image_staged :
    AllStored (run watch (opened (smallNotice [9, 8, 7, 6]) erasedUnit)
        (smallSession [9, 8, 7, 6])).unit ∧
      ImageStaged (smallNotice [9, 8, 7, 6]) (ofList [9, 8, 7, 6])
        (run watch (opened (smallNotice [9, 8, 7, 6]) erasedUnit)
          (smallSession [9, 8, 7, 6])).unit := by
  have all : AllStored (run watch (opened (smallNotice [9, 8, 7, 6]) erasedUnit)
      (smallSession [9, 8, 7, 6])).unit := by
    unfold AllStored
    decide +kernel
  have length : (replySegLen (smallSegment [9, 8, 7, 6]).data).toNat = 4 := by decide +kernel
  refine ⟨all, (sessions_stage_exactly_once _ (ofList [9, 8, 7, 6]) erasedUnit ?_
    (Device.healthy_sound _) _ ?_ ?_).1 all⟩
  · unfold ProperSplit
    decide +kernel
  · apply small_session_delivers
    refine ⟨by decide +kernel, fun _ _ => ⟨by decide +kernel, by decide +kernel, ?_⟩⟩
    decide +kernel
  · refine ⟨True.intro, True.intro, True.intro, fun _ => ⟨?_, by decide +kernel,
      by decide +kernel, by decide +kernel, ?_⟩, True.intro⟩
    · unfold Pending
      decide +kernel
    · intro offset low high
      omega

/-- An image of one byte is delivered and counted, and its byte is not stored. -/
theorem byte_image_dropped :
    ProperSplit (smallNotice [7]) ∧
      (∀ event ∈ smallSession [7], Delivers (smallNotice [7]) (ofList [7]) event) ∧
      AllStored (run watch (opened (smallNotice [7]) erasedUnit) (smallSession [7])).unit ∧
      ¬ImageStaged (smallNotice [7]) (ofList [7])
        (run watch (opened (smallNotice [7]) erasedUnit) (smallSession [7])).unit := by
  refine ⟨?_, ?_, ?_, ?_⟩
  · unfold ProperSplit
    decide +kernel
  · apply small_session_delivers
    refine ⟨by decide +kernel, fun _ _ => ⟨by decide +kernel, by decide +kernel, ?_⟩⟩
    decide +kernel
  · unfold AllStored
    decide +kernel
  · rintro ⟨contents, _⟩
    have first := contents 0 (Nat.le_refl 0) (by decide +kernel)
    exact absurd first (by decide +kernel)

end Pyrometer.UpgradeStaging
