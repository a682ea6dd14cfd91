import Pyrometer.UpgradeSteps

/-!
# What an upgrade leaves of the scheduler

A notification closes every soft timer but the first, and a cancellation opens all of them
that have a function and a period. Neither the task that ends an upgrade nor the finish
request opens one. Every run of the task creates a mailbox out of a pool of eight and none
is deleted. The character protocol is answered unless the status is that of a transfer.

Beside a run we watch which of the two loops the timers went through and how many runs of
the task were started. An upgrade is over when no run of the task is active or posted. The
timers change only through the two loops here; the functions that an opened timer posts at
once are left out, and so is memory exhaustion while a mailbox is created.
-/

namespace Pyrometer.UpgradeScheduling

open ByteMemory NorFlash FlashController BaseProtocol FirmwareInfo UpgradeSession UpgradeSteps
open Runs

/-- `ostimer_list_item_t`: whether it has a function, its period and whether it is enabled. -/
structure OsTimer where
  func : Bool
  period : Nat
  enable : Bool
deriving DecidableEq

/-- `OSTIMER_COUNT`. -/
def ostimerCount : Nat := 11

/-- A timer with a function and a period. -/
def OsTimer.openable (item : OsTimer) : Bool := item.func && decide (0 < item.period)

/-- What `ostimer_close` makes of a timer. -/
def OsTimer.close (item : OsTimer) : OsTimer := { item with enable := false }

/-- What `ostimer_open` makes of a timer. -/
def OsTimer.open (item : OsTimer) : OsTimer :=
  if item.openable then { item with enable := true } else item

/-- `ostimer_close`. -/
def ostimerClose (list : Nat → OsTimer) (id : Nat) : Nat → OsTimer :=
  Function.update list id (list id).close

/-- `ostimer_open`. -/
def ostimerOpen (list : Nat → OsTimer) (id : Nat) : Nat → OsTimer :=
  Function.update list id (list id).open

/-- The timers that both loops go through. -/
def loopIds : List Nat := List.range' 1 (ostimerCount - 1)

/-- The loop in `CMD_UP_notify`. -/
def closeTimers (list : Nat → OsTimer) : Nat → OsTimer := loopIds.foldl ostimerClose list

/-- The loop in `CMD_UP_cancel`. -/
def openTimers (list : Nat → OsTimer) : Nat → OsTimer := loopIds.foldl ostimerOpen list

/-- What the handlers do to the timers. -/
def branchTimers (header : ProtoBaseHead) (list : Nat → OsTimer) : Nat → OsTimer :=
  if header.cmd = commandNotify then
    if header.opType = protOpWr ∧ header.dataLen.toNat = sizeofNotify then closeTimers list
    else list
  else if header.cmd = commandCancel then
    if header.opType = protOpRd ∧ header.dataLen.toNat = 2 then openTimers list else list
  else list

/-- The upgrade unit and the soft timers. -/
structure Scheduler where
  unit : Upgrade
  ostimerList : Nat → OsTimer

/-- One event. -/
def schedule (scheduler : Scheduler) (event : Event) : Scheduler where
  unit := step scheduler.unit event
  ostimerList :=
    match event with
    | .packet packet =>
        if packet.accepted then branchTimers packet.header scheduler.ostimerList
        else scheduler.ostimerList
    | _ => scheduler.ostimerList

/-- `proto_process` passes a character command on. -/
def charAnswered (unit : Upgrade) : Bool := unit.fwInfo.status != ugStateTrans

/-- No run of the task is active or posted. -/
def Over (unit : Upgrade) : Prop := unit.task = .idle ∧ unit.agentQueue = []

instance (unit : Upgrade) : Decidable (Over unit) := inferInstanceAs (Decidable (_ ∧ _))

/-- What should hold after an upgrade: the timers are enabled as they were, a mailbox can be
created, and the character protocol is answered. -/
structure LeftAsFound (found left : Scheduler) : Prop where
  timers : ∀ id < ostimerCount,
    (left.ostimerList id).enable = (found.ostimerList id).enable
  mailbox : (upgradeInit left.unit).xferMb ≠ none
  answered : charAnswered left.unit = true

/-- The loops that the timers went through: none, only opened, closed last, or closed and then
opened. -/
inductive Timing where
  | untouched
  | opened
  | stopped
  | reopened
deriving DecidableEq

/-- The timing after a packet. -/
def Timing.next (timing : Timing) (packet : Packet) : Timing :=
  if isNotify packet then .stopped
  else if isCancel packet then
    match timing with
    | .untouched => .opened
    | .opened => .opened
    | .stopped => .reopened
    | .reopened => .reopened
  else timing

/-- A run of the scheduler with the timing and the number of started task runs. -/
structure Watched where
  scheduler : Scheduler
  timing : Timing
  starts : Nat

/-- The agent starts a posted run. -/
def startsRun (unit : Upgrade) : Bool := unit.task == .idle && !unit.agentQueue.isEmpty

/-- One event with the watch beside it. -/
def watchedNext (watched : Watched) (event : Event) : Watched where
  scheduler := schedule watched.scheduler event
  timing :=
    match event with
    | .packet packet => watched.timing.next packet
    | _ => watched.timing
  starts :=
    match event with
    | .task => if startsRun watched.scheduler.unit then watched.starts + 1 else watched.starts
    | _ => watched.starts

/-- A run before its first event. -/
def watchedFrom (scheduler : Scheduler) : Watched := ⟨scheduler, .untouched, 0⟩

/-- Between two upgrades. -/
structure Rested (unit : Upgrade) : Prop where
  ended : Over unit
  answered : charAnswered unit = true
  mailboxes : unit.mboxCount ≤ mboxMaxCount

/-- A timer is enabled as before after the loops it went through. -/
def Returns (timing : Timing) (item : OsTimer) : Prop :=
  match timing with
  | .untouched => True
  | .opened => item.openable = true → item.enable = true
  | .stopped => item.enable = false
  | .reopened => item.enable = item.openable

/-- A timer after the loops it went through. -/
def timed (timing : Timing) (item : OsTimer) : OsTimer :=
  match timing with
  | .untouched => item
  | .opened => item.open
  | .stopped => item.close
  | .reopened => item.close.open

/-- A loop that changes distinct entries of a table changes each once. Induct on the entries;
those after the first are not the first. -/
theorem update_loop {Entry : Type} (change : Entry → Entry) (ids : List Nat)
    (distinct : ids.Nodup) (table : Nat → Entry) (id : Nat) :
    ids.foldl (fun table id => Function.update table id (change (table id))) table id =
      if id ∈ ids then change (table id) else table id := by
  induction ids generalizing table with
  | nil => rfl
  | cons first rest inductionHypothesis =>
    obtain ⟨fresh, restDistinct⟩ := List.nodup_cons.mp distinct
    rw [List.foldl_cons, inductionHypothesis restDistinct]
    by_cases same : id = first
    · subst same
      simp [fresh]
    · simp [same]

/-- The timers that the loops go through. -/
theorem mem_loop_ids (id : Nat) : id ∈ loopIds ↔ 1 ≤ id ∧ id < ostimerCount := by
  rw [loopIds, List.mem_range'_1]
  have count : ostimerCount = 11 := rfl
  omega

/-- Closing a timer forgets whether it was enabled. -/
theorem close_timed (timing : Timing) (item : OsTimer) :
    (timed timing item).close = item.close := by
  cases timing with
  | untouched => rfl
  | opened =>
    show item.open.close = item.close
    unfold OsTimer.open
    split <;> rfl
  | stopped => rfl
  | reopened =>
    show item.close.open.close = item.close
    unfold OsTimer.open
    split <;> rfl

/-- Opening a timer twice opens it. -/
theorem open_open (item : OsTimer) : item.open.open = item.open := by
  have openable : item.open.openable = item.openable := by
    unfold OsTimer.open
    split <;> rfl
  rw [OsTimer.open, openable]
  unfold OsTimer.open
  split <;> rfl

/-- A notification closes the timers, a cancellation opens them, and no other packet touches
them. -/
theorem branch_timers (packet : Packet) (list : Nat → OsTimer) :
    (if packet.accepted then branchTimers packet.header list else list) =
      if isNotify packet then closeTimers list
      else if isCancel packet then openTimers list
      else list := by
  have different : commandCancel ≠ commandNotify := by decide
  cases accepted : packet.accepted with
  | false => simp [isNotify, isCancel, accepted]
  | true =>
    unfold branchTimers
    by_cases notify : packet.header.cmd = commandNotify
    · simp [isNotify, isCancel, accepted, notify, different.symm]
    · by_cases cancel : packet.header.cmd = commandCancel
      · simp [isNotify, isCancel, accepted, cancel, different]
      · simp [isNotify, isCancel, notify, cancel]

/-- A packet takes a timer from one timing to the next. -/
theorem packet_timed (found list : Nat → OsTimer) (timing : Timing) (packet : Packet) (id : Nat)
    (tracked : list id = if id ∈ loopIds then timed timing (found id) else found id) :
    (if packet.accepted then branchTimers packet.header list else list) id =
      if id ∈ loopIds then timed (timing.next packet) (found id) else found id := by
  have distinct : loopIds.Nodup := List.nodup_range'
  rw [branch_timers]
  unfold Timing.next
  by_cases notify : isNotify packet = true
  · rw [if_pos notify, if_pos notify]
    refine (update_loop OsTimer.close loopIds distinct list id).trans ?_
    by_cases inside : id ∈ loopIds
    · simp only [inside, if_true] at tracked ⊢
      rw [tracked, close_timed]
      rfl
    · simp only [inside, if_false] at tracked ⊢
      exact tracked
  · rw [if_neg notify, if_neg notify]
    by_cases cancel : isCancel packet = true
    · rw [if_pos cancel, if_pos cancel]
      refine (update_loop OsTimer.open loopIds distinct list id).trans ?_
      by_cases inside : id ∈ loopIds
      · simp only [inside, if_true] at tracked ⊢
        rw [tracked]
        cases timing with
        | untouched => rfl
        | opened => exact open_open _
        | stopped => rfl
        | reopened => exact open_open _
      · simp only [inside, if_false] at tracked ⊢
        exact tracked
    · rw [if_neg cancel, if_neg cancel]
      exact tracked

/-- A finish request never sets the status of a transfer. -/
theorem verdict_no_transfer (packet : Packet) (unit : Upgrade)
    (transfer : (verdict packet unit).2 = ugStateTrans) : unit.fwInfo.status = ugStateTrans := by
  have checked : ∀ error status : Byte,
      (if status = ugStateTransComplete then
        if unit.fwInfo.imgCrc32 ≠ stagedCrc unit then (3#8, ugStateCheckFail)
        else if tagMatches unit = false then (4#8, ugStateCheckFail)
        else (error, ugStateCheckPass)
      else (error, status)).2 = ugStateTrans → status = ugStateTrans := by
    intro error status result
    split_ifs at result
    · exact absurd result (by decide : ugStateCheckFail ≠ ugStateTrans)
    · exact absurd result (by decide : ugStateCheckFail ≠ ugStateTrans)
    · exact absurd result (by decide : ugStateCheckPass ≠ ugStateTrans)
    · exact result
  unfold verdict finishVerdict at transfer
  by_cases matching : finishMatches packet.data unit.fwInfo = false
  · rw [if_pos matching] at transfer
    exact checked _ _ transfer
  · by_cases missing : unit.fwInfo.segIdx ≠ unit.fwInfo.segCount
    · rw [if_neg matching, if_pos missing] at transfer
      exact checked _ _ transfer
    · rw [if_neg matching, if_neg missing] at transfer
      exact absurd (checked _ _ transfer) (by decide)

/-- A packet leaves the task and the mailboxes alone and begins no transfer. -/
theorem receive_keeps (packet : Packet) (unit : Upgrade) :
    (receive packet unit).unit.task = unit.task ∧
      (receive packet unit).unit.mboxCount = unit.mboxCount ∧
      ((receive packet unit).unit.fwInfo.status = ugStateTrans →
        unit.fwInfo.status = ugStateTrans) := by
  rcases receive_cases packet unit with ⟨_, same⟩ | ⟨_, same⟩ | ⟨_, same⟩ | ⟨_, same⟩ |
    ⟨_, _, _, _, same⟩
  · obtain ⟨queue, _, posted⟩ := agent_post_keeps packet.port
      (saveInfo { unit with fwInfo := notifiedInfo packet.data packet.port unit.fwInfo })
    rw [same, notified, posted]
    exact ⟨rfl, rfl, fun transfer => absurd transfer (by decide : ugStateStart ≠ ugStateTrans)⟩
  · rw [same]
    exact ⟨rfl, rfl, fun transfer => transfer⟩
  · rw [same]
    exact ⟨rfl, rfl, verdict_no_transfer packet unit⟩
  · rw [same]
    exact ⟨rfl, rfl,
      fun transfer => absurd transfer (by decide : ugStateCanceled ≠ ugStateTrans)⟩
  · rw [same]
    exact ⟨rfl, rfl, fun transfer => transfer⟩

/-- The mailboxes after one more run of the task. -/
theorem mailbox_after_start {unit : Upgrade} {found starts : Nat}
    (counted : unit.mboxCount = min mboxMaxCount (found + starts)) :
    (upgradeInit unit).mboxCount = min mboxMaxCount (found + (starts + 1)) := by
  unfold upgradeInit
  split <;> simp only <;> omega

/-- Counting a retry keeps the mailboxes, and when none is left the status is no transfer. -/
theorem retry_keeps (retry : Nat) (unit : Upgrade) :
    (taskRetry retry unit).mboxCount = unit.mboxCount ∧
      ((taskRetry retry unit).task = .idle →
        (taskRetry retry unit).fwInfo.status ≠ ugStateTrans) := by
  have finished : ugStateFinished ≠ ugStateTrans := by decide
  unfold taskRetry
  split
  · exact ⟨rfl, fun _ => finished⟩
  · exact ⟨rfl, fun idle => by cases idle⟩

/-- An active run keeps the mailboxes, and when it ends the status is no transfer. -/
theorem active_keeps {unit : Upgrade} (active : unit.task ≠ .idle) :
    (upgradeTask unit).mboxCount = unit.mboxCount ∧
      ((upgradeTask unit).task = .idle → (upgradeTask unit).fwInfo.status ≠ ugStateTrans) := by
  have finished : ugStateFinished ≠ ugStateTrans := by decide
  cases point : unit.task with
  | idle => exact absurd point active
  | eraseFirst => simp [upgradeTask, point]
  | eraseSecond => simp [upgradeTask, point]
  | loop =>
    simp only [upgradeTask, point]
    split_ifs
    · exact ⟨rfl, fun _ => finished⟩
    · exact retry_keeps fwDataRetry unit
    · exact ⟨rfl, fun _ => finished⟩
  | request retry =>
    simp only [upgradeTask, point]
    split_ifs
    · exact ⟨rfl, fun _ => finished⟩
    · exact ⟨rfl, fun idle => by cases idle⟩
  | fetch retry =>
    simp only [upgradeTask, point]
    split
    · exact ⟨rfl, fun idle => by cases idle⟩
    · exact retry_keeps (retry - 1) _
    · exact retry_keeps (retry - 1) unit

/-- Without an active run the agent starts a posted one, which creates a mailbox, or does
nothing. -/
theorem idle_cases {unit : Upgrade} (idle : unit.task = .idle) :
    (startsRun unit = true ∧ (upgradeTask unit).task ≠ .idle ∧
        (upgradeTask unit).mboxCount = (upgradeInit unit).mboxCount) ∨
      (startsRun unit = false ∧ upgradeTask unit = unit) := by
  cases queue : unit.agentQueue with
  | nil => exact Or.inr ⟨by simp [startsRun, queue], by simp only [upgradeTask, idle, queue]⟩
  | cons port rest =>
    refine Or.inl ⟨by simp [startsRun, idle, queue], ?_, ?_⟩
    · simp [upgradeTask, idle, queue]
    · simp [upgradeTask, idle, queue, setStatus]

/-- The watch tells what became of the scheduler: the timers went through the loops, every
started run has created a mailbox as long as there was one, and no run that has ended is a
transfer. -/
structure Accounts (found : Scheduler) (watched : Watched) : Prop where
  timers : ∀ id, watched.scheduler.ostimerList id =
    if id ∈ loopIds then timed watched.timing (found.ostimerList id) else found.ostimerList id
  mailboxes : watched.scheduler.unit.mboxCount =
    min mboxMaxCount (found.unit.mboxCount + watched.starts)
  answered : watched.scheduler.unit.fwInfo.status = ugStateTrans →
    watched.scheduler.unit.task ≠ .idle

/-- Every event keeps the account. -/
theorem event_accounts (found : Scheduler) (watched : Watched) (event : Event)
    (accounts : Accounts found watched) : Accounts found (watchedNext watched event) := by
  cases event with
  | packet packet =>
    obtain ⟨task, mailboxes, status⟩ := receive_keeps packet watched.scheduler.unit
    constructor
    case timers => exact fun id => packet_timed _ _ _ packet id (accounts.timers id)
    case mailboxes => exact mailboxes.trans accounts.mailboxes
    case answered =>
      intro transfer
      rw [show (watchedNext watched (.packet packet)).scheduler.unit.task = _ from task]
      exact accounts.answered (status transfer)
  | wake =>
    obtain ⟨mailbox, sleeping, same⟩ := wake_up_keeps watched.scheduler.unit
    have unit : (watchedNext watched .wake).scheduler.unit =
        { watched.scheduler.unit with xferMb := mailbox, sleeping := sleeping } := same
    constructor
    case timers => exact accounts.timers
    case mailboxes =>
      rw [unit]
      exact accounts.mailboxes
    case answered =>
      rw [unit]
      exact accounts.answered
  | task =>
    have unit : (watchedNext watched .task).scheduler.unit =
        upgradeTask watched.scheduler.unit := rfl
    have starts : (watchedNext watched .task).starts =
        if startsRun watched.scheduler.unit then watched.starts + 1 else watched.starts := rfl
    by_cases idle : watched.scheduler.unit.task = .idle
    · rcases idle_cases idle with ⟨begins, active, created⟩ | ⟨waits, same⟩
      · refine ⟨accounts.timers, ?_, fun _ => active⟩
        rw [unit, starts, begins, if_pos rfl, created]
        exact mailbox_after_start accounts.mailboxes
      · refine ⟨accounts.timers, ?_, ?_⟩
        · rw [unit, starts, waits, if_neg Bool.false_ne_true, same]
          exact accounts.mailboxes
        · rw [unit, same]
          exact accounts.answered
    · obtain ⟨kept, ended⟩ := active_keeps idle
      have noStart : startsRun watched.scheduler.unit = false := by simp [startsRun, idle]
      refine ⟨accounts.timers, ?_, fun transfer stopped => ended stopped transfer⟩
      rw [unit, starts, noStart, if_neg Bool.false_ne_true, kept]
      exact accounts.mailboxes

/-- A timer comes back exactly if it returns. -/
theorem timed_enable_iff (timing : Timing) (item : OsTimer) :
    (timed timing item).enable = item.enable ↔ Returns timing item := by
  cases timing with
  | untouched => exact ⟨fun _ => True.intro, fun _ => rfl⟩
  | opened =>
    show item.open.enable = item.enable ↔ (item.openable = true → item.enable = true)
    unfold OsTimer.open
    cases openable : item.openable with
    | false => simp
    | true => exact ⟨fun same _ => same.symm, fun enabled => (enabled rfl).symm⟩
  | stopped =>
    show false = item.enable ↔ item.enable = false
    exact eq_comm
  | reopened =>
    show item.close.open.enable = item.enable ↔ item.enable = item.openable
    have same : item.close.openable = item.openable := rfl
    unfold OsTimer.open
    rw [same]
    cases openable : item.openable with
    | false => exact eq_comm
    | true => exact eq_comm

/-- A mailbox can be created exactly while the pool is not used up. -/
theorem mailbox_left_iff (unit : Upgrade) :
    (upgradeInit unit).xferMb ≠ none ↔ unit.mboxCount ≠ mboxMaxCount := by
  unfold upgradeInit
  split
  · rename_i full
    simp [full]
  · rename_i left
    simp [left]

/-- A run starts with a right account. -/
theorem rested_accounts {found : Scheduler} (rested : Rested found.unit) :
    Accounts found (watchedFrom found) := by
  constructor
  case timers => exact fun id => (ite_self _).symm
  case mailboxes => exact (Nat.min_eq_right rested.mailboxes).symm
  case answered =>
    intro transfer
    exact absurd transfer (bne_iff_ne.mp rested.answered)

/-- After every run of events that ends with no upgrade under way, the scheduler is as it was
exactly if every timer returns and fewer mailboxes than the pool has were created. -/
theorem left_as_found_iff (found : Scheduler) (rested : Rested found.unit) (events : List Event)
    (ended : Over (run watchedNext (watchedFrom found) events).scheduler.unit) :
    LeftAsFound found (run watchedNext (watchedFrom found) events).scheduler ↔
      (∀ id, 1 ≤ id → id < ostimerCount →
        Returns (run watchedNext (watchedFrom found) events).timing (found.ostimerList id)) ∧
      found.unit.mboxCount + (run watchedNext (watchedFrom found) events).starts <
        mboxMaxCount := by
  have accounts : Accounts found (run watchedNext (watchedFrom found) events) :=
    run_invariant watchedNext (event_accounts found) (watchedFrom found)
      (rested_accounts rested) events
  set now := run watchedNext (watchedFrom found) events
  constructor
  · intro left
    constructor
    · intro id low high
      have same := left.timers id high
      rw [accounts.timers id, if_pos ((mem_loop_ids id).mpr ⟨low, high⟩)] at same
      exact (timed_enable_iff now.timing (found.ostimerList id)).mp same
    · have room := (mailbox_left_iff now.scheduler.unit).mp left.mailbox
      rw [accounts.mailboxes] at room
      omega
  · rintro ⟨returns, room⟩
    constructor
    case timers =>
      intro id high
      rw [accounts.timers id]
      split
      · rename_i inside
        obtain ⟨low, _⟩ := (mem_loop_ids id).mp inside
        exact (timed_enable_iff now.timing (found.ostimerList id)).mpr (returns id low high)
      · rfl
    case mailbox =>
      apply (mailbox_left_iff now.scheduler.unit).mpr
      rw [accounts.mailboxes]
      omega
    case answered =>
      apply bne_iff_ne.mpr
      exact fun transfer => accounts.answered transfer ended.1

/-- A device whose timer of the user interface is running, on an erased flash. -/
def panelDevice : Scheduler :=
  ⟨erasedUnit, fun id => if id = 2 then ⟨true, 10, true⟩ else ⟨false, 0, false⟩⟩

/-- The notification of an image of one segment of four bytes. -/
def oneSegment : Packet :=
  wirePacket commandNotify protOpWr [1, 0, 0, 4, 0, 0, 0, 4, 0, 1, 0, 0, 0, 0, 0]

/-- A cancellation. -/
def cancellation : Packet := wirePacket commandCancel protOpRd [1, 0]

/-- An upgrade that is cancelled after its first action. -/
def cancelledUpgrade : List Event :=
  [.packet oneSegment, .task, .packet cancellation, .task, .task, .task]

/-- An upgrade whose three requests are not answered. -/
def unansweredUpgrade : List Event := .packet oneSegment :: List.replicate 10 .task

/-- A cancelled upgrade leaves the device as it was. -/
theorem cancelled_left_as_found :
    LeftAsFound panelDevice
      (run watchedNext (watchedFrom panelDevice) cancelledUpgrade).scheduler := by
  have rested : Rested panelDevice.unit :=
    ⟨⟨rfl, rfl⟩, by decide +kernel, by decide +kernel⟩
  have ended :
      Over (run watchedNext (watchedFrom panelDevice) cancelledUpgrade).scheduler.unit := by
    decide +kernel
  have timing :
      (run watchedNext (watchedFrom panelDevice) cancelledUpgrade).timing = .reopened := by
    decide +kernel
  apply (left_as_found_iff panelDevice rested cancelledUpgrade ended).mpr
  refine ⟨fun id _ _ => ?_, by decide +kernel⟩
  rw [timing]
  unfold panelDevice Returns
  by_cases panel : id = 2 <;> simp [panel, OsTimer.openable]

/-- An upgrade that is not answered leaves the timers closed. -/
theorem unanswered_timers_closed :
    Over (run watchedNext (watchedFrom panelDevice) unansweredUpgrade).scheduler.unit ∧
      ¬LeftAsFound panelDevice
        (run watchedNext (watchedFrom panelDevice) unansweredUpgrade).scheduler := by
  refine ⟨by decide +kernel, fun left => ?_⟩
  have enabled := left.timers 2 (by decide)
  exact absurd enabled (by decide +kernel)

end Pyrometer.UpgradeScheduling
