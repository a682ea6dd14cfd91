import Pyrometer.RecordLog

/-!
# The event logs across a restart

`load_index` and `record_save` compare what `storage.c` returns with the number of bytes
they asked for, as the functions of `eeprom.c` below it would return it. The locked
accesses return 0 or -1. So no save is ever taken for successful, and no index for loaded.

A restart clears RAM and runs `record_init`, which does nothing if the interval between
two records is too short.
-/

namespace Pyrometer.RecordPersistence

open ByteMemory Checksums Runs RecordLog EepromStorage

/-- The locked accesses of `storage.c`. -/
def eepromMedium : Medium Eeprom := ⟨eepromWriteLock, eepromReadLock⟩

/-- `REC_INTVAL_MIN`. -/
def recIntvalMin : Nat := 300

section

variable {Store : Type} (medium : Medium Store)

/-- `load_index`. The index is read in place. -/
def loadIndex (type : RecType) (log : Log Store) : Int × Log Store :=
  match medium.read (indexAddr type) (ofList (log.recIndex type).bytes) RecordIndex.sizeof
      log.store with
  | (ret, buff, store) =>
      let idx := RecordIndex.ofBytes buff
      (if ret = RecordIndex.sizeof ∧ (crc16RTU buff (RecordIndex.sizeof - 2)).toNat = idx.crc
        then 0 else -1,
        { log with recIndex := Function.update log.recIndex type idx, store := store })

/-- The body of the loop of `record_init`, with the value it will return. -/
def initType (state : Int × Log Store) (type : RecType) : Int × Log Store :=
  match loadIndex medium type state.2 with
  | (code, log) =>
      let failed := decide (code ≠ 0)
      let recIndex := if failed then Function.update log.recIndex type RecordIndex.cleared
        else log.recIndex
      (if failed then -1 else state.1,
        { log with
          recIndex := recIndex
          recAddr := Function.update log.recAddr type
            (type.recordAddr (recIndex type).tailNum) })

/-- `record_init`. -/
def recordInit (interval : Nat) (log : Log Store) : Int × Log Store :=
  if interval < recIntvalMin then (-1, log) else RecType.all.foldl (initType medium) (0, log)

/-- The logs after a restart: RAM is zero before `record_init`. -/
def reboot (interval : Nat) (store : Store) : Log Store :=
  (recordInit medium interval ⟨fun _ => RecordIndex.cleared, fun _ => 0, store⟩).2

/-- An operation does what it is meant to do: a save succeeds and advances the index. -/
def Advances (log : Log Store) : Op → Prop
  | .save type data =>
      (recordSave medium type data log).1 = 0 ∧
        (recordSave medium type data log).2.recIndex type =
          (advance type (log.recIndex type)).sealed
  | .clear => True

/-- A restart finds the numbers and the count of every log, and appends behind its last
record. -/
def Restores (interval : Nat) (log : Log Store) : Prop :=
  ∀ type,
    ((reboot medium interval log.store).recIndex type).headNum = (log.recIndex type).headNum ∧
    ((reboot medium interval log.store).recIndex type).tailNum = (log.recIndex type).tailNum ∧
    ((reboot medium interval log.store).recIndex type).count = (log.recIndex type).count ∧
    (reboot medium interval log.store).recAddr type =
      type.recordAddr (log.recIndex type).tailNum

/-- Every save of a history succeeds, and a restart after it restores the logs. -/
def Persists (interval : Nat) (store : Store) (history : List Op) : Prop :=
  Along (step medium) (Advances medium) (reboot medium interval store) history ∧
    Restores medium interval (run (step medium) (reboot medium interval store) history)

end

/-- A locked write returns 0 or -1. -/
theorem write_lock_code (addr : Nat) (buff : Mem) (len : Nat) (chip : Eeprom) :
    (eepromWriteLock addr buff len chip).1 = 0 ∨ (eepromWriteLock addr buff len chip).1 = -1 := by
  unfold eepromWriteLock
  split
  · exact Or.inl rfl
  · simp only
    split
    · exact Or.inl rfl
    · exact Or.inr rfl

/-- A locked read returns 0 or -1. -/
theorem read_lock_code (addr : Nat) (buff : Mem) (len : Nat) (chip : Eeprom) :
    (eepromReadLock addr buff len chip).1 = 0 ∨ (eepromReadLock addr buff len chip).1 = -1 := by
  unfold eepromReadLock
  split
  · exact Or.inl rfl
  · simp only
    split
    · exact Or.inl rfl
    · exact Or.inr rfl

/-- On the EEPROM every save fails and advances nothing. -/
theorem eeprom_save_fails (type : RecType) (data : Mem) (log : Log Eeprom) :
    (recordSave eepromMedium type data log).1 = -1 := by
  have code := write_lock_code (log.recAddr type) data type.size log.store
  have positive := (end_inside type).1
  have differs : (eepromWriteLock (log.recAddr type) data type.size log.store).1 ≠ type.size := by
    omega
  simp [recordSave, eepromMedium, differs]

/-- On the EEPROM no index is ever loaded. -/
theorem eeprom_load_fails (type : RecType) (log : Log Eeprom) :
    (loadIndex eepromMedium type log).1 = -1 := by
  have code := read_lock_code (indexAddr type) (ofList (log.recIndex type).bytes)
    RecordIndex.sizeof log.store
  have size : (RecordIndex.sizeof : Int) = 16 := rfl
  have differs : (eepromReadLock (indexAddr type) (ofList (log.recIndex type).bytes)
      RecordIndex.sizeof log.store).1 ≠ RecordIndex.sizeof := by
    omega
  simp [loadIndex, eepromMedium, differs]

/-- The logs are empty: their numbers and counts are zero. -/
def Empty {Store : Type} (log : Log Store) : Prop :=
  ∀ type, (log.recIndex type).headNum = 0 ∧ (log.recIndex type).tailNum = 0 ∧
    (log.recIndex type).count = 0

/-- Initialization of a type on the EEPROM: its index is cleared and its address is that of
the first record; the other type keeps its own. -/
theorem eeprom_init_type (state : Int × Log Eeprom) (type : RecType) :
    (initType eepromMedium state type).2.recIndex =
        Function.update state.2.recIndex type RecordIndex.cleared ∧
      (initType eepromMedium state type).2.recAddr =
        Function.update state.2.recAddr type type.startAddr := by
  have failed := eeprom_load_fails type state.2
  have start : type.recordAddr 0 = type.startAddr := by
    simp [RecType.recordAddr]
  simp only [initType, failed]
  refine ⟨?_, ?_⟩
  · simp [loadIndex, Function.update_idem]
  · simp [loadIndex, RecordIndex.cleared, start]

/-- A restart on the EEPROM with a sufficient interval gives empty logs that append at
their start. -/
theorem eeprom_reboot (interval : Nat) (store : Eeprom) (long : recIntvalMin ≤ interval) :
    Empty (reboot eepromMedium interval store) ∧
      ∀ type, (reboot eepromMedium interval store).recAddr type = type.startAddr := by
  have unfolded : reboot eepromMedium interval store =
      (initType eepromMedium (initType eepromMedium
        (0, ⟨fun _ => RecordIndex.cleared, fun _ => 0, store⟩) .bbox) .state).2 := by
    simp [reboot, recordInit, Nat.not_lt.mpr long, RecType.all]
  have first := eeprom_init_type (0, ⟨fun _ => RecordIndex.cleared, fun _ => 0, store⟩) .bbox
  have second := eeprom_init_type (initType eepromMedium
    (0, ⟨fun _ => RecordIndex.cleared, fun _ => 0, store⟩) .bbox) .state
  rw [first.1, first.2] at second
  refine ⟨fun type => ?_, fun type => ?_⟩
  · rw [unfolded, second.1]
    cases type <;> simp [RecordIndex.cleared]
  · rw [unfolded, second.2]
    cases type <;> simp

/-- With a short interval a restart leaves the addresses at zero. -/
theorem short_reboot (interval : Nat) (store : Eeprom) (short : interval < recIntvalMin)
    (type : RecType) : (reboot eepromMedium interval store).recAddr type = 0 := by
  simp [reboot, recordInit, short]

/-- Clearing empties the logs. -/
theorem clear_empty {Store : Type} (medium : Medium Store) (log : Log Store) :
    Empty (recordClear medium log) := by
  intro type
  cases type <;>
    simp [recordClear, RecType.all, clearType, saveIndex, RecordIndex.sealed, RecordIndex.cleared]

/-- A condition that no state gives an operation is not met along a run with it. -/
theorem along_excludes {Store : Type} {medium : Medium Store}
    {condition : Log Store → Op → Prop} {op : Op} (never : ∀ log, ¬condition log op)
    (start : Log Store) (history : List Op) (met : Along (step medium) condition start history) :
    op ∉ history := by
  induction history generalizing start with
  | nil => exact List.not_mem_nil
  | cons first rest inductionHypothesis =>
    rw [List.mem_cons, not_or]
    refine ⟨?_, inductionHypothesis (step medium start first) met.2⟩
    rintro rfl
    exact never start met.1

/-- Clears alone are always as they are meant to be. -/
theorem along_clears {Store : Type} (medium : Medium Store) (start : Log Store)
    (history : List Op) (clears : ∀ op ∈ history, op = .clear) :
    Along (step medium) (Advances medium) start history := by
  induction history generalizing start with
  | nil => exact True.intro
  | cons first rest inductionHypothesis =>
    refine ⟨?_, inductionHypothesis _ fun op member => clears op (List.mem_cons_of_mem _ member)⟩
    rw [clears first List.mem_cons_self]
    exact True.intro

/-- Empty logs stay empty while they are only cleared. -/
theorem run_clears_empty {Store : Type} (medium : Medium Store) (start : Log Store)
    (empty : Empty start) (history : List Op) (clears : ∀ op ∈ history, op = .clear) :
    Empty (run (step medium) start history) := by
  induction history generalizing start with
  | nil => exact empty
  | cons first rest inductionHypothesis =>
    refine inductionHypothesis _ ?_ fun op member => clears op (List.mem_cons_of_mem _ member)
    rw [clears first List.mem_cons_self]
    exact clear_empty medium start

/-- Whatever the EEPROM does, a history persists exactly if it saves nothing and the
interval is long enough for `record_init` to do its work. -/
theorem record_persists_iff (interval : Nat) (chip : Eeprom) (history : List Op) :
    Persists eepromMedium interval chip history ↔
      (∀ op ∈ history, op = .clear) ∧ recIntvalMin ≤ interval := by
  constructor
  · rintro ⟨advances, restores⟩
    refine ⟨fun op member => ?_, ?_⟩
    · cases op with
      | clear => rfl
      | save type data =>
        have never : ∀ log, ¬Advances eepromMedium log (.save type data) := by
          rintro log ⟨success, -⟩
          rw [eeprom_save_fails] at success
          exact absurd success (by decide)
        exact absurd member (along_excludes never _ history advances)
    · by_contra short
      have address := (restores .bbox).2.2.2
      rw [short_reboot interval _ (Nat.lt_of_not_le short)] at address
      have inside := (record_addr_inside .bbox ((run (step eepromMedium)
        (reboot eepromMedium interval chip) history).recIndex .bbox).tailNum).1
      have positive : 0 < RecType.startAddr .bbox := by decide
      omega
  · rintro ⟨clears, long⟩
    have booted := eeprom_reboot interval chip long
    have empty := run_clears_empty eepromMedium _ booted.1 history clears
    refine ⟨along_clears eepromMedium _ history clears, fun type => ?_⟩
    obtain ⟨again, address⟩ := eeprom_reboot interval
      (run (step eepromMedium) (reboot eepromMedium interval chip) history).store long
    obtain ⟨head, tail, count⟩ := empty type
    obtain ⟨headAgain, tailAgain, countAgain⟩ := again type
    rw [head, tail, count, headAgain, tailAgain, countAgain, address type]
    refine ⟨rfl, rfl, rfl, ?_⟩
    simp [RecType.recordAddr]

/-- On an EEPROM whose transfers all succeed the first save fails. -/
theorem first_save_fails :
    ¬∀ (interval : Nat) (chip : Eeprom) (history : List Op), recIntvalMin ≤ interval →
      chip.Sound → Persists eepromMedium interval chip history := by
  intro persists
  have saved := (persists 300 (Eeprom.healthy fun _ => 0) [.save .bbox fun _ => 0]
    (Nat.le_refl _) (healthy_sound _)).1.1.1
  rw [eeprom_save_fails] at saved
  exact absurd saved (by decide)

end Pyrometer.RecordPersistence
