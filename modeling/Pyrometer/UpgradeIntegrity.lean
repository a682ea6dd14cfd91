import Pyrometer.UpgradeSteps

/-!
# Which finish requests may reset the device

The session a finish request belongs to is read off the events alone: the last
notification, the segment numbers received for its version since then, and
whether a cancellation came after it. `Justified` says of one request what a
reset promises about that session and about the staged image. The handler keeps
the promise except in two kinds of state: a complete session that was cancelled,
since `CMD_UP_finish` overwrites the cancelled status, and a request that is
answered with an error while the status still says that an earlier request
passed. `resets_justified_iff` says that there are no others.
-/

namespace Pyrometer.UpgradeIntegrity

open ByteMemory Checksums NorFlash FlashController BaseProtocol FirmwareInfo UpgradeSession
  UpgradeSteps Runs

/-- The session in the packets of a run: its notification, the segment numbers
received since, and whether it was cancelled. -/
structure Session where
  notice : Option Packet
  received : List (BitVec 16)
  cancelled : Bool

/-- The session before any packet. -/
def Session.none : Session := ⟨Option.none, [], false⟩

/-- The session after a data packet. -/
def Session.hear (session : Session) (packet : Packet) : Session :=
  match session.notice with
  | some notice =>
      if sameRelease packet notice = true then
        { session with received := replySegIdx packet.data :: session.received }
      else session
  | Option.none => session

/-- The session after one more event. -/
def observe (session : Session) : Event → Session
  | .packet packet =>
      if isNotify packet = true then ⟨some packet, [], false⟩
      else if isCancel packet = true then { session with cancelled := true }
      else if carriesSegment packet = true then session.hear packet
      else session
  | .wake => session
  | .task => session

/-- The session the events of a run have led to. -/
def sessionOf (events : List Event) : Session := run observe .none events

/-- The request sets the reset flag: with the flag down before, it is up after. -/
def setsReset (packet : Packet) (unit : Upgrade) : Bool :=
  (receive packet { unit with reset := false }).unit.reset

/-- What a reset at this request promises: it names the version and segment count
of the current notification, all segments were received, the staged image has the
announced checksum and the product tag, the answer carries no error, and the
session was not cancelled. -/
structure Justified (session : Session) (notice packet : Packet) (unit : Upgrade) : Prop where
  current : session.notice = some notice
  release : sameRelease packet notice = true
  count : load16 packet.data 3 = load16 notice.data 9
  received : ∀ number : Nat, number < (load16 notice.data 9).toNat →
    BitVec.ofNat 16 number ∈ session.received
  image : calculateCrc32 (window unit.fmc.mem fwDataAddr) (asInt (load32 notice.data 3)) .big =
    load32 notice.data 11
  tag : tagMatches unit = true
  answer : (receive packet unit).error = 0
  uncancelled : session.cancelled = false

/-- The request matches the record, whose segments are all stored. -/
def completes (packet : Packet) (unit : Upgrade) : Prop :=
  finishMatches packet.data unit.fwInfo = true ∧ unit.fwInfo.segIdx = unit.fwInfo.segCount

/-- The checks of a complete session. -/
def passes (unit : Upgrade) : Prop :=
  unit.fwInfo.imgCrc32 = stagedCrc unit ∧ tagMatches unit = true

/-- A finish request that meets a complete session finds it uncancelled or failing
its checks; any other finds no passed status left over. -/
def FinishSound (session : Session) (packet : Packet) (unit : Upgrade) : Prop :=
  isFinish packet = true →
    (completes packet unit → session.cancelled = true → ¬passes unit) ∧
      (¬completes packet unit → unit.fwInfo.status ≠ ugStateCheckPass)

/-- The unit agrees with the session seen in the packets. -/
structure Follows (unit : Upgrade) (session : Session) : Prop where
  status : unit.fwInfo.status ≠ ugStateTransComplete
  silent : session.notice = Option.none → unit.fwInfo.imgSize = 0 ∧ unit.fwInfo.imgCrc32 = 0
  announced : ∀ notice, session.notice = some notice → Announced unit.fwInfo notice
  received : ∀ notice, session.notice = some notice →
    ∀ number : Nat, number < unit.fwInfo.segIdx.toNat → BitVec.ofNat 16 number ∈ session.received

/-- A request for a complete session runs the checks. -/
theorem verdict_complete (packet : Packet) (unit : Upgrade) (complete : completes packet unit) :
    verdict packet unit =
      if unit.fwInfo.imgCrc32 ≠ stagedCrc unit then (3#8, ugStateCheckFail)
      else if tagMatches unit = false then (4#8, ugStateCheckFail)
      else (0#8, ugStateCheckPass) := by
  obtain ⟨matching, all⟩ := complete
  simp [verdict, finishVerdict, matching, all]

/-- Any other request is answered with an error and keeps the status. -/
theorem verdict_incomplete (packet : Packet) (unit : Upgrade)
    (incomplete : ¬completes packet unit) (status : unit.fwInfo.status ≠ ugStateTransComplete) :
    (verdict packet unit).1 ≠ 0 ∧ (verdict packet unit).2 = unit.fwInfo.status := by
  cases matching : finishMatches packet.data unit.fwInfo with
  | false => simp [verdict, finishVerdict, matching, status]
  | true =>
    have missing : unit.fwInfo.segIdx ≠ unit.fwInfo.segCount := fun all =>
      incomplete ⟨matching, all⟩
    simp [verdict, finishVerdict, matching, missing, status]

/-- A complete session passes exactly its two checks. -/
theorem verdict_passes_iff (packet : Packet) (unit : Upgrade) (complete : completes packet unit) :
    (verdict packet unit).2 = ugStateCheckPass ↔ passes unit := by
  rw [verdict_complete packet unit complete]
  unfold passes
  by_cases image : unit.fwInfo.imgCrc32 = stagedCrc unit
  · cases tag : tagMatches unit with
    | false => simp [image, ugStateCheckFail, ugStateCheckPass]
    | true => simp [image]
  · simp [image, ugStateCheckFail, ugStateCheckPass]

/-- No request leaves the intermediate status behind. -/
theorem verdict_settles (packet : Packet) (unit : Upgrade)
    (status : unit.fwInfo.status ≠ ugStateTransComplete) :
    (verdict packet unit).2 ≠ ugStateTransComplete := by
  by_cases complete : completes packet unit
  · rw [verdict_complete packet unit complete]
    split
    · decide
    · split
      · decide
      · decide
  · rw [(verdict_incomplete packet unit complete status).2]
    exact status

/-- The error a finish request is answered with. -/
theorem finish_error (packet : Packet) (unit : Upgrade) (finish : isFinish packet = true) :
    (receive packet unit).error = (verdict packet unit).1 := by
  simp only [isFinish, Bool.and_eq_true, beq_iff_eq] at finish
  obtain ⟨⟨⟨accepted, command⟩, read⟩, length⟩ := finish
  obtain ⟨instrLen, dispatched⟩ := receive_accepted packet unit accepted
  have routed : upgradeBranchCmd packet.header (parsed packet instrLen) packet.data unit =
      cmdUpFinish packet.header (parsed packet instrLen) packet.data unit := by
    simp [upgradeBranchCmd, command, commandNotify, commandData, commandFinish]
  rw [dispatched, routed, cmdUpFinish, if_pos ⟨read, length⟩]
  rfl

/-- Only a finish request with a passed status sets the flag. -/
theorem sets_reset_iff (packet : Packet) (unit : Upgrade) :
    setsReset packet unit = true ↔
      isFinish packet = true ∧ (verdict packet unit).2 = ugStateCheckPass := by
  unfold setsReset
  rcases receive_cases packet { unit with reset := false } with ⟨notify, left⟩ |
    ⟨stores, left⟩ | ⟨finish, left⟩ | ⟨cancel, left⟩ | ⟨_, _, other, _, left⟩
  · have other : isFinish packet = false := by
      simp [isFinish, notify_command notify, commandNotify, commandFinish]
    simp [left, (notified_keeps packet _).2.1, other]
  · have other : isFinish packet = false := by
      simp [isFinish, segment_command stores, commandData, commandFinish]
    simp [left, stored, other]
  · have same : verdict packet { unit with reset := false } = verdict packet unit := rfl
    simp [left, finished, same, finish]
  · have other : isFinish packet = false := by
      simp [isFinish, cancel_command cancel, commandCancel, commandFinish]
    simp [left, cancelled, setStatus, other]
  · simp [left, other]

/-- An event that changes at most status and checksum of the record, and after
which no less was received, keeps the agreement. -/
theorem follows_status {unit next : Upgrade} {session heard : Session} (status : Byte)
    (crc32 : BitVec 32) (follows : Follows unit session)
    (info : next.fwInfo = { unit.fwInfo with status := status, crc32 := crc32 })
    (settled : status ≠ ugStateTransComplete) (notice : heard.notice = session.notice)
    (received : session.received ⊆ heard.received) : Follows next heard := by
  refine ⟨?_, ?_, ?_, ?_⟩
  · rw [info]
    exact settled
  · intro silent
    rw [info]
    exact follows.silent (notice ▸ silent)
  · intro announced current
    have agreed := follows.announced announced (notice ▸ current)
    rw [info]
    exact announced_keeps agreed status unit.fwInfo.source unit.fwInfo.segIdx crc32
  · intro announced current number small
    rw [info] at small
    exact received (follows.received announced (notice ▸ current) number small)

/-- An event that leaves the record alone keeps the agreement. -/
theorem follows_same {unit next : Upgrade} {session heard : Session}
    (follows : Follows unit session) (info : next.fwInfo = unit.fwInfo)
    (notice : heard.notice = session.notice) (received : session.received ⊆ heard.received) :
    Follows next heard :=
  follows_status unit.fwInfo.status unit.fwInfo.crc32 follows info follows.status notice received

/-- A heard packet keeps the notification and loses no segment. -/
theorem hear_keeps (session : Session) (packet : Packet) :
    (session.hear packet).notice = session.notice ∧
      session.received ⊆ (session.hear packet).received := by
  unfold Session.hear
  split
  · split
    · exact ⟨rfl, List.subset_cons_self _ _⟩
    · exact ⟨rfl, List.Subset.refl _⟩
  · exact ⟨rfl, List.Subset.refl _⟩

/-- Packets that are neither notification nor cancellation only add segments. -/
theorem observe_keeps (session : Session) (packet : Packet) (notNotify : isNotify packet = false) :
    (observe session (.packet packet)).notice = session.notice ∧
      session.received ⊆ (observe session (.packet packet)).received := by
  simp only [observe, notNotify, Bool.false_eq_true, if_false]
  split
  · exact ⟨rfl, List.Subset.refl _⟩
  · split
    · exact hear_keeps session packet
    · exact ⟨rfl, List.Subset.refl _⟩

/-- A notification starts a session of its own. -/
theorem notified_follows (packet : Packet) (unit : Upgrade) :
    Follows (notified packet unit) ⟨some packet, [], false⟩ := by
  have info := (notified_keeps packet unit).1
  refine ⟨?_, fun silent => ?_, ?_, ?_⟩
  · rw [info]
    exact (by decide : ugStateStart ≠ ugStateTransComplete)
  · exact absurd silent (Option.some_ne_none packet)
  · intro notice current
    cases current
    rw [info]
    exact notified_announced packet unit.fwInfo
  · intro notice current number small
    rw [info] at small
    exact absurd small (Nat.not_lt_zero number)

/-- A stored segment is heard, and its number joins the received ones. -/
theorem stored_follows (packet : Packet) {unit : Upgrade} {session : Session}
    (stores : storesSegment packet unit = true) (follows : Follows unit session) :
    Follows (stored packet unit) (observe session (.packet packet)) := by
  have command := segment_command stores
  have notNotify : isNotify packet = false := by
    simp [isNotify, command, commandData, commandNotify]
  have notCancel : isCancel packet = false := by
    simp [isCancel, command, commandData, commandCancel]
  obtain ⟨notice, kept⟩ := observe_keeps session packet notNotify
  refine ⟨follows.status, fun silent => follows.silent (notice ▸ silent), ?_, ?_⟩
  · intro announced current
    have agreed := follows.announced announced (notice ▸ current)
    exact announced_keeps agreed unit.fwInfo.status packet.port _ unit.fwInfo.crc32
  · intro announced current number small
    rw [notice] at current
    have agreed := follows.announced announced current
    obtain ⟨carries, version, index⟩ := segment_parts stores
    have release := announced_release agreed version
    have heard : (observe session (.packet packet)).received =
        unit.fwInfo.segIdx :: session.received := by
      simp [observe, notNotify, notCancel, carries, Session.hear, current, release, index]
    rw [heard, List.mem_cons]
    have next : (stored packet unit).fwInfo.segIdx.toNat = (unit.fwInfo.segIdx.toNat + 1) % 65536 :=
      BitVec.toNat_add _ _
    rcases Nat.lt_or_ge number unit.fwInfo.segIdx.toNat with earlier | last
    · exact Or.inr (follows.received announced current number earlier)
    · have same : number = unit.fwInfo.segIdx.toNat := by
        rw [next] at small
        have reduced := Nat.mod_le (unit.fwInfo.segIdx.toNat + 1) 65536
        omega
      rw [same, BitVec.ofNat_toNat, BitVec.setWidth_eq]
      exact Or.inl rfl

/-- Every event keeps the unit in agreement with the session. -/
theorem step_follows (unit : Upgrade) (session : Session) (event : Event)
    (follows : Follows unit session) : Follows (step unit event) (observe session event) := by
  cases event with
  | packet packet =>
    rcases receive_cases packet unit with ⟨notify, left⟩ | ⟨stores, left⟩ | ⟨finish, left⟩ |
      ⟨cancel, left⟩ | ⟨notNotify, _, _, _, left⟩
    · rw [step, left, observe, if_pos notify]
      exact notified_follows packet unit
    · rw [step, left]
      exact stored_follows packet stores follows
    · have notNotify : isNotify packet = false := by
        simp [isNotify, finish_command finish, commandFinish, commandNotify]
      obtain ⟨notice, kept⟩ := observe_keeps session packet notNotify
      rw [step, left]
      exact follows_status _ _ follows rfl (verdict_settles packet unit follows.status) notice kept
    · have notNotify : isNotify packet = false := by
        simp [isNotify, cancel_command cancel, commandCancel, commandNotify]
      obtain ⟨notice, kept⟩ := observe_keeps session packet notNotify
      rw [step, left]
      exact follows_status ugStateCanceled unit.fwInfo.crc32 follows rfl (by decide) notice kept
    · obtain ⟨notice, kept⟩ := observe_keeps session packet notNotify
      rw [step, left]
      exact follows_same follows rfl notice kept
  | wake =>
    obtain ⟨mailbox, sleeping, woken⟩ := wake_up_keeps unit
    rw [step, woken]
    exact follows_same follows rfl rfl (List.Subset.refl _)
  | task =>
    rcases upgrade_task_cases unit with begins | ⟨_, first⟩ | ⟨_, second⟩ | quiet
    · exact follows_status ugStateTrans unit.fwInfo.crc32 follows begins.fwInfo (by decide) rfl
        (List.Subset.refl _)
    · rw [step, first]
      exact follows_same follows rfl rfl (List.Subset.refl _)
    · rw [step, second]
      exact follows_same follows rfl rfl (List.Subset.refl _)
    · rcases quiet.fwInfo with same | finished
      · exact follows_same follows same rfl (List.Subset.refl _)
      · exact follows_status ugStateFinished unit.fwInfo.crc32 follows finished (by decide) rfl
          (List.Subset.refl _)

/-- After every run the unit agrees with the session in its packets. -/
theorem run_follows (fmc : Device) (events : List Event) :
    Follows (run step (.start fmc) events) (sessionOf events) := by
  induction events using List.reverseRecOn with
  | nil =>
    have settled : FwInfo.cleared.status ≠ ugStateTransComplete := by decide
    refine ⟨settled, fun _ => ⟨rfl, rfl⟩, ?_, ?_⟩
    · intro notice current
      exact absurd current (by simp [sessionOf, run, Session.none])
    · intro notice current
      exact absurd current (by simp [sessionOf, run, Session.none])
  | append_singleton earlier event inductionHypothesis =>
    rw [sessionOf, run_snoc, run_snoc]
    exact step_follows _ _ event inductionHypothesis

/-- Without a notification the checks fail: the checksum of no bytes is not the
cleared one. -/
theorem silent_fails {unit : Upgrade} {session : Session} (follows : Follows unit session)
    (silent : session.notice = Option.none) : ¬passes unit := by
  obtain ⟨size, crc⟩ := follows.silent silent
  rintro ⟨image, _⟩
  have empty : stagedCrc unit = 0xFFFFFFFF#32 := by
    rw [stagedCrc, size]
    rfl
  rw [crc, empty] at image
  exact absurd image (by decide)

/-- A complete, passing and uncancelled session justifies the request. -/
theorem complete_justified {unit : Upgrade} {session : Session} {packet : Packet}
    (follows : Follows unit session) (finish : isFinish packet = true)
    (complete : completes packet unit) (pass : passes unit)
    (uncancelled : session.cancelled = false) : ∃ notice, Justified session notice packet unit := by
  cases current : session.notice with
  | none => exact absurd pass (silent_fails follows current)
  | some notice =>
    have agreed := follows.announced notice current
    have answer : (verdict packet unit).1 = 0 := by
      simp [verdict_complete packet unit complete, pass.1, pass.2]
    obtain ⟨matching, all⟩ := complete
    simp only [finishMatches, Bool.and_eq_true, beq_iff_eq] at matching
    obtain ⟨version, count⟩ := matching
    refine ⟨notice, current, announced_release agreed version, ?_, ?_, ?_, pass.2, ?_,
      uncancelled⟩
    · rw [count, agreed.segCount]
    · intro number small
      apply follows.received notice current number
      rw [all, agreed.segCount]
      exact small
    · rw [← agreed.imgSize, ← agreed.imgCrc32]
      exact pass.1.symm
    · rw [finish_error packet unit finish, answer]

/-- One request keeps the promise of its reset exactly when it meets the
condition. -/
theorem request_justified_iff {unit : Upgrade} {session : Session} (packet : Packet)
    (follows : Follows unit session) :
    (setsReset packet unit = true → ∃ notice, Justified session notice packet unit) ↔
      FinishSound session packet unit := by
  constructor
  · intro kept finish
    constructor
    · intro complete cancelled pass
      have sets := (sets_reset_iff packet unit).mpr
        ⟨finish, (verdict_passes_iff packet unit complete).mpr pass⟩
      obtain ⟨notice, justified⟩ := kept sets
      rw [justified.uncancelled] at cancelled
      exact Bool.false_ne_true cancelled
    · intro incomplete stale
      obtain ⟨error, status⟩ := verdict_incomplete packet unit incomplete follows.status
      have sets := (sets_reset_iff packet unit).mpr ⟨finish, status.trans stale⟩
      obtain ⟨notice, justified⟩ := kept sets
      exact error (finish_error packet unit finish ▸ justified.answer)
  · intro sound sets
    obtain ⟨finish, passed⟩ := (sets_reset_iff packet unit).mp sets
    by_cases complete : completes packet unit
    · have pass := (verdict_passes_iff packet unit complete).mp passed
      have uncancelled : session.cancelled = false := by
        rw [Bool.eq_false_iff]
        exact fun cancelled => (sound finish).1 complete cancelled pass
      exact complete_justified follows finish complete pass uncancelled
    · have status := (verdict_incomplete packet unit complete follows.status).2
      exact absurd (status.symm.trans passed) ((sound finish).2 complete)

/-- Session integrity over runs: every reset that a packet of the run sets is
justified exactly when every finish request of the run meets `FinishSound` in the
state it meets, from power-up on any flash, for every order of packets and task
actions and whichever flash operations are refused. -/
theorem resets_justified_iff (fmc : Device) (events : List Event) :
    (∀ earlier packet later, events = earlier ++ Event.packet packet :: later →
        setsReset packet (run step (.start fmc) earlier) = true →
        ∃ notice, Justified (sessionOf earlier) notice packet (run step (.start fmc) earlier)) ↔
      (∀ earlier packet later, events = earlier ++ Event.packet packet :: later →
        FinishSound (sessionOf earlier) packet (run step (.start fmc) earlier)) := by
  constructor
  · intro kept earlier packet later split
    exact (request_justified_iff packet (run_follows fmc earlier)).mp
      (kept earlier packet later split)
  · intro sound earlier packet later split
    exact (request_justified_iff packet (run_follows fmc earlier)).mpr
      (sound earlier packet later split)

/-- A session of two segments, the second with the product tag, that is received
after its erase and then cancelled. -/
def cancelledSession : List Event :=
  let crc := calculateCrc32 (ofList [9, 8, 7, 6]) 4 .big
  [.packet (wirePacket commandNotify protOpWr
      ([1, 0, 0, 4, 0, 0, 0, 0x0C, 4, 2, 0] ++ bytes32 crc)),
    .task, .task, .task,
    .packet (wirePacket commandData protOpWr [1, 0, 0, 0, 0, 4, 0, 9, 8, 7, 6]), .wake,
    .packet (wirePacket commandData protOpWr
      ([1, 0, 0, 1, 0, 12, 0] ++ specalProductNum ++ [0, 0, 0])), .wake,
    .packet (wirePacket commandCancel protOpRd [0, 0])]

/-- The finish request of that session. -/
def lateFinish : Packet := wirePacket commandFinish protOpRd [1, 0, 0, 2, 0]

/-- The finish request that follows the cancellation resets the device. -/
theorem cancelled_session_still_resets :
    ¬∀ earlier packet later,
      cancelledSession ++ [.packet lateFinish] = earlier ++ Event.packet packet :: later →
        setsReset packet (run step erasedUnit earlier) = true →
        ∃ notice, Justified (sessionOf earlier) notice packet (run step erasedUnit earlier) := by
  intro kept
  have sets : setsReset lateFinish (run step erasedUnit cancelledSession) = true := by
    decide +kernel
  have cancelled : (sessionOf cancelledSession).cancelled = true := by decide +kernel
  obtain ⟨notice, justified⟩ := kept cancelledSession lateFinish [] rfl sets
  rw [justified.uncancelled] at cancelled
  exact Bool.false_ne_true cancelled

end Pyrometer.UpgradeIntegrity
