import Pyrometer.RecordPersistence

/-!
# The stop times of the logs

Each type of log has a stop time, from a start on for a duration, that a packet or the
command `RO` sets. Two tasks append records: one asks whether its log is stopped and
prints the answer, the other does not ask, and both save their record in any case unless
the error flag of the logs is set.

The stop times are an array by the type of a packet, whose entries behind the two of the
array stand for what lies there. What the tasks fill in is given with their event, and the
medium may behave in any way.
-/

namespace Pyrometer.StoppedLogs

open ByteMemory EepromStorage Runs RecordLog RecordPersistence

/-- `record_stop_t`. -/
structure RecordStop where
  type : BitVec 8
  start : BitVec 32
  duration : BitVec 32
  deriving DecidableEq

/-- The duration of a stop without end. -/
def forever : BitVec 32 := BitVec.allOnes 32

/-- `REC_TYPE_CNT`. -/
def recTypeCnt : Nat := 2

/-- The logs with `rec_stop`, `sys_state.sys_sec`, the error flag of the logs, and what the
task of the black box printed last about its stop. -/
structure Recorder (Store : Type) where
  log : Log Store
  recStop : Nat → RecordStop
  sysSec : BitVec 32
  failed : Bool
  printed : Option Bool

/-- What can happen to the recorder: a packet for `cmd_stop_record`, the command `RO`, a new
time, and the two tasks with the records that they fill. -/
inductive Event where
  | stop (info : RecordStop)
  | recordOpen (enable : Bool)
  | clock (sec : BitVec 32)
  | bboxRecord (data : Mem)
  | stateRecord (data : Mem)

section

variable {Store : Type} (medium : Medium Store)

/-- `record_is_stop`. -/
def recordIsStop (recorder : Recorder Store) (type : RecType) : Bool :=
  let info := recorder.recStop type.index
  if info.duration = forever then true
  else if 0 < info.duration then decide (recorder.sysSec < info.start + info.duration)
  else false

/-- `cmd_stop_record` for a packet that sets a stop time. -/
def cmdStopRecord (info : RecordStop) (recorder : Recorder Store) : Recorder Store :=
  { recorder with recStop := Function.update recorder.recStop info.type.toNat info }

/-- The command `RO`: both logs run, or are stopped for ever. -/
def openRecords (enable : Bool) (recorder : Recorder Store) : Recorder Store :=
  { recorder with recStop := fun index =>
      if index < recTypeCnt then
        { recorder.recStop index with duration := if enable then 0 else forever }
      else recorder.recStop index }

/-- `bbox_record_task`. -/
def bboxRecordTask (data : Mem) (recorder : Recorder Store) : Recorder Store :=
  if recorder.failed then recorder
  else
    { recorder with
      printed := some (recordIsStop recorder .bbox)
      log := (recordSave medium .bbox data recorder.log).2 }

/-- `state_record_task`. -/
def stateRecordTask (data : Mem) (recorder : Recorder Store) : Recorder Store :=
  if recorder.failed then recorder
  else { recorder with log := (recordSave medium .state data recorder.log).2 }

/-- The recorder after an event. -/
def step (recorder : Recorder Store) : Event → Recorder Store
  | .stop info => cmdStopRecord info recorder
  | .recordOpen enable => openRecords enable recorder
  | .clock sec => { recorder with sysSec := sec }
  | .bboxRecord data => bboxRecordTask medium data recorder
  | .stateRecord data => stateRecordTask medium data recorder

end

/-- The stop time covers a time: it has no end, or the time lies in its interval. -/
def RecordStop.Stops (info : RecordStop) (now : BitVec 32) : Prop :=
  info.duration = forever ∨
    (info.start.toNat ≤ now.toNat ∧ now.toNat < info.start.toNat + info.duration.toNat)

/-- The stop time has ended. -/
def RecordStop.Over (info : RecordStop) (now : BitVec 32) : Prop :=
  info.duration ≠ forever ∧ info.start.toNat + info.duration.toNat ≤ now.toNat

section

variable {Store : Type} (medium : Medium Store)

/-- A record was appended: the medium stored all of it, and the index counts it. -/
def Appended (type : RecType) (data : Mem) (before after : Log Store) : Prop :=
  (medium.write (before.recAddr type) data type.size before.store).1 = type.size ∧
    after = (recordSave medium type data before).2

/-- What is asked of a task for a type: it leaves a stopped log as it is, and appends to a
log whose stop has ended. -/
def TaskLawful (type : RecType) (data : Mem) (before after : Recorder Store) : Prop :=
  ((before.recStop type.index).Stops before.sysSec → after.log = before.log) ∧
    ((before.recStop type.index).Over before.sysSec →
      Appended medium type data before.log after.log)

/-- What is asked of an event: the tasks keep to the stop times, and a stop time is set for a
type and for no other. -/
def Lawful (recorder : Recorder Store) (event : Event) : Prop :=
  match event with
  | .stop info =>
      info.type.toNat < recTypeCnt ∧
        ∀ index, index ≠ info.type.toNat →
          (step medium recorder event).recStop index = recorder.recStop index
  | .bboxRecord data => TaskLawful medium .bbox data recorder (step medium recorder event)
  | .stateRecord data => TaskLawful medium .state data recorder (step medium recorder event)
  | _ => True

/-- The medium refuses a record and keeps what it had. -/
def Refuses (type : RecType) (data : Mem) (log : Log Store) : Prop :=
  (medium.write (log.recAddr type) data type.size log.store).1 ≠ type.size ∧
    (medium.write (log.recAddr type) data type.size log.store).2 = log.store

/-- A task for a type keeps to its stop time: while it is stopped the error flag is set or
the medium refuses the record, and after that the flag is clear and the medium takes it. -/
def TaskKeeps (type : RecType) (data : Mem) (recorder : Recorder Store) : Prop :=
  ((recorder.recStop type.index).Stops recorder.sysSec →
      recorder.failed = true ∨ Refuses medium type data recorder.log) ∧
    ((recorder.recStop type.index).Over recorder.sysSec →
      recorder.failed = false ∧
        (medium.write (recorder.log.recAddr type) data type.size recorder.log.store).1 = type.size)

/-- The condition on an event, in the state it meets. -/
def Keeps (recorder : Recorder Store) (event : Event) : Prop :=
  match event with
  | .stop info => info.type.toNat < recTypeCnt
  | .bboxRecord data => TaskKeeps medium .bbox data recorder
  | .stateRecord data => TaskKeeps medium .state data recorder
  | _ => True

/-- Both tasks save their record unless the error flag is set. -/
theorem task_log (recorder : Recorder Store) (data : Mem) :
    (step medium recorder (.bboxRecord data)).log =
        (if recorder.failed then recorder.log
          else (recordSave medium .bbox data recorder.log).2) ∧
      (step medium recorder (.stateRecord data)).log =
        (if recorder.failed then recorder.log
          else (recordSave medium .state data recorder.log).2) := by
  cases failed : recorder.failed with
  | false => simp [step, bboxRecordTask, stateRecordTask, failed]
  | true => simp [step, bboxRecordTask, stateRecordTask, failed]

/-- A save leaves the logs as they are exactly when the medium refuses it. -/
theorem save_unchanged_iff (type : RecType) (data : Mem) (log : Log Store) :
    (recordSave medium type data log).2 = log ↔ Refuses medium type data log := by
  rcases written : medium.write (log.recAddr type) data type.size log.store with ⟨len, store⟩
  rw [Refuses, written]
  by_cases whole : len = type.size
  · refine iff_of_false (fun same => ?_) (fun refused => refused.1 whole)
    have tail : ((recordSave medium type data log).2.recIndex type).tailNum =
        ((log.recIndex type).tailNum + 1) % 2 ^ 32 := by
      simp [recordSave, written, whole, saveIndex, advance, RecordIndex.sealed]
    rw [same] at tail
    omega
  · have kept : (recordSave medium type data log).2 = { log with store := store } := by
      simp [recordSave, written, whole]
    rw [kept]
    constructor
    · intro same
      exact ⟨whole, congrArg Log.store same⟩
    · rintro ⟨_, same⟩
      simp only at same
      rw [same]

/-- A task that saves unless the error flag is set is as it is asked for exactly when it keeps
to its stop time. -/
theorem task_lawful_iff (type : RecType) (data : Mem) (before after : Recorder Store)
    (saved : after.log = if before.failed then before.log
      else (recordSave medium type data before.log).2) :
    TaskLawful medium type data before after ↔ TaskKeeps medium type data before := by
  have differs : ∀ log : Log Store,
      (medium.write (log.recAddr type) data type.size log.store).1 = type.size →
        (recordSave medium type data log).2 ≠ log := by
    intro log whole same
    exact ((save_unchanged_iff medium type data log).mp same).1 whole
  refine and_congr (imp_congr_right (fun _ => ?_)) (imp_congr_right (fun _ => ?_))
  · rw [saved]
    cases before.failed with
    | true => simp
    | false => simpa using save_unchanged_iff medium type data before.log
  · rw [saved, Appended]
    cases before.failed with
    | true =>
      simp only [if_true, Bool.true_eq_false, false_and, iff_false, not_and]
      exact fun whole same => differs before.log whole same.symm
    | false => simp

/-- An event is as it is asked for exactly when it keeps to the stop times. -/
theorem lawful_iff (recorder : Recorder Store) (event : Event) :
    Lawful medium recorder event ↔ Keeps medium recorder event := by
  cases event with
  | stop info =>
    refine and_iff_left (fun index other => ?_)
    exact Function.update_of_ne other info recorder.recStop
  | recordOpen enable => exact Iff.rfl
  | clock sec => exact Iff.rfl
  | bboxRecord data =>
    exact task_lawful_iff medium .bbox data recorder _ (task_log medium recorder data).1
  | stateRecord data =>
    exact task_lawful_iff medium .state data recorder _ (task_log medium recorder data).2

/-- In every run the stop times are kept at each event exactly when no event breaks them: no
task gets to its save while its log is stopped, unless the medium refuses the record, every
task after a stop can save, and every stop time is for one of the two types. -/
theorem stopped_logs_iff (start : Recorder Store) (events : List Event) :
    Along (step medium) (Lawful medium) start events ↔
      Along (step medium) (Keeps medium) start events :=
  @along_iff _ _ (step medium) (fun _ => True) _ _ (fun _ _ _ => True.intro)
    (fun recorder event _ => lawful_iff medium recorder event) start True.intro events

end

/-- `record_is_stop` answers by the interval exactly when the time is not before its start,
and its end is no overflow. -/
theorem is_stop_interval {Store : Type} (recorder : Recorder Store) (type : RecType)
    (begun : (recorder.recStop type.index).start.toNat ≤ recorder.sysSec.toNat)
    (plain : (recorder.recStop type.index).start.toNat +
      (recorder.recStop type.index).duration.toNat < 2 ^ 32) :
    recordIsStop recorder type = true ↔ (recorder.recStop type.index).Stops recorder.sysSec := by
  rw [recordIsStop, RecordStop.Stops]
  by_cases endless : (recorder.recStop type.index).duration = forever
  · rw [if_pos endless]
    exact iff_of_true rfl (Or.inl endless)
  · have sum : ((recorder.recStop type.index).start +
          (recorder.recStop type.index).duration).toNat =
        (recorder.recStop type.index).start.toNat +
          (recorder.recStop type.index).duration.toNat := by
      rw [BitVec.toNat_add]
      exact Nat.mod_eq_of_lt plain
    have before : recorder.sysSec < (recorder.recStop type.index).start +
          (recorder.recStop type.index).duration ↔
        recorder.sysSec.toNat < (recorder.recStop type.index).start.toNat +
          (recorder.recStop type.index).duration.toNat := by
      rw [BitVec.lt_def, sum]
    rw [if_neg endless, or_iff_right endless, and_iff_right begun]
    by_cases positive : 0 < (recorder.recStop type.index).duration
    · rw [if_pos positive, decide_eq_true_iff]
      exact before
    · have zero : (recorder.recStop type.index).duration.toNat = 0 := by
        rw [BitVec.lt_def] at positive
        exact Nat.eq_zero_of_not_pos positive
      rw [if_neg positive]
      refine iff_of_false Bool.false_ne_true ?_
      omega

/-- On the EEPROM no task appends to a log whose stop has ended. -/
theorem eeprom_never_appends {type : RecType} {data : Mem} {before after : Recorder Eeprom}
    (ended : (before.recStop type.index).Over before.sysSec) :
    ¬TaskLawful eepromMedium type data before after := by
  intro lawful
  have whole : (eepromMedium.write (before.log.recAddr type) data type.size
      before.log.store).1 = type.size := (lawful.2 ended).1
  have code : (eepromMedium.write (before.log.recAddr type) data type.size
      before.log.store).1 = 0 ∨ (eepromMedium.write (before.log.recAddr type) data type.size
      before.log.store).1 = -1 :=
    write_lock_code (before.log.recAddr type) data type.size before.log.store
  have positive := (end_inside type).1
  omega

/-- A recorder with empty logs that run. -/
def fresh {Store : Type} (store : Store) : Recorder Store :=
  ⟨⟨fun _ => RecordIndex.cleared, RecType.startAddr, store⟩, fun _ => ⟨0, 0, 0⟩, 0, false, none⟩

/-- A stop of the black box without end, and its task. -/
def stopAndRecord : List Event := [.stop ⟨0, 0, forever⟩, .bboxRecord (fun _ => 0)]

/-- A stop of the black box for five seconds, their end, and its task. -/
def waitAndRecord : List Event := [.stop ⟨0, 0, 5⟩, .clock 5, .bboxRecord (fun _ => 0)]

/-- Where a write returns the number of bytes, a record is appended although the black box is
stopped for ever. On an EEPROM whose transfers all succeed, no record is appended after the end
of a stop. -/
theorem stopped_appends :
    ¬Along (step (byteArray (fun len => len))) (Lawful (byteArray (fun len => len)))
        (fresh fun _ => 0) stopAndRecord ∧
      ¬Along (step eepromMedium) (Lawful eepromMedium) (fresh (Eeprom.healthy fun _ => 0))
        waitAndRecord := by
  constructor
  · rintro ⟨_, ⟨stopped, _⟩, _⟩
    have same := stopped (Or.inl rfl)
    have tail := congrArg (fun log => (log.recIndex .bbox).tailNum) same
    simp [step, bboxRecordTask, cmdStopRecord, fresh, recordSave, byteArray, saveIndex, advance,
      RecordIndex.sealed, RecordIndex.cleared] at tail
  · rintro ⟨-, -, lawful, -⟩
    exact eeprom_never_appends (by unfold RecordStop.Over; decide) lawful

end Pyrometer.StoppedLogs
