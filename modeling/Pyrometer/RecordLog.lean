import Pyrometer.Checksums
import Pyrometer.EepromAliasing
import Pyrometer.RingBuffers
import Pyrometer.Runs

/-!
# The event logs of `record.c`

Two logs, of the black box and of the working states, are rings of fixed-size records in
the EEPROM. An index for each log holds the numbers of its first record and of the record
behind its last one, neither of which goes round, and the number of records. It is kept
in RAM, sealed by a checksum, and written to its place in the EEPROM after every record;
the address for the next record is kept in RAM only.

The functions take the medium they store to as an argument, for the sake of two: a byte
array whose accesses all succeed, and the locked EEPROM of `storage.c`. On the byte array
the value a successful access returns is an argument as well: `record.c` compares it with
the number of bytes, and an access that returns anything else counts as failed.

Left out are the stop times, the export of a log, and the error flag that
`record_init` raises and the tasks look at before they save.
-/

namespace Pyrometer.RecordLog

open ByteMemory Checksums Runs
open EepromAliasing (Area)

/-- `REC_TYPE_BBOX` and `REC_TYPE_STATE`. -/
inductive RecType where
  | bbox
  | state
  deriving DecidableEq, Repr

namespace RecType

/-- The types in their order. -/
def all : List RecType := [.bbox, .state]

/-- The number of a type. -/
def index : RecType → Nat
  | .bbox => 0
  | .state => 1

/-- The area of the EEPROM map that holds the records of a type. -/
def area : RecType → Area
  | .bbox => .recBbox
  | .state => .recState

/-- `REC_SIZE`: the size of `bbox_record_t` and of `state_record_t`. -/
def size : RecType → Nat
  | .bbox => 26
  | .state => 5

/-- `REC_CAPACITY`. -/
def capacity (type : RecType) : Nat := (type.area.off - type.area.on) / type.size

/-- `REC_START_ADDR`. -/
def startAddr (type : RecType) : Nat := type.area.on

/-- `REC_END_ADDR`. -/
def endAddr (type : RecType) : Nat := type.startAddr + type.capacity * type.size

/-- The address of the record with a number. -/
def recordAddr (type : RecType) (num : Nat) : Nat :=
  type.startAddr + num % type.capacity * type.size

end RecType

/-- `record_index_t`; the numbers are 32 and 16 bits wide. -/
structure RecordIndex where
  headNum : Nat
  tailNum : Nat
  count : Nat
  rsvd : Nat
  crc : Nat

namespace RecordIndex

/-- `sizeof(record_index_t)`. -/
def sizeof : Nat := 16

/-- The bytes of an index. -/
def bytes (idx : RecordIndex) : List Byte :=
  leBytes 4 idx.headNum ++ leBytes 4 idx.tailNum ++ leBytes 4 idx.count ++ leBytes 2 idx.rsvd ++
    leBytes 2 idx.crc

/-- The index some bytes hold. -/
def ofBytes (buff : Mem) : RecordIndex where
  headNum := littleEndian (toList buff 0 4)
  tailNum := littleEndian (toList buff 4 4)
  count := littleEndian (toList buff 8 4)
  rsvd := littleEndian (toList buff 12 2)
  crc := littleEndian (toList buff 14 2)

/-- The index after `mem_set` to zero. -/
def cleared : RecordIndex := ⟨0, 0, 0, 0, 0⟩

/-- The checksum of an index, over all bytes but its own. -/
def checksum (idx : RecordIndex) : Nat := (crc16RTU (ofList idx.bytes) (sizeof - 2)).toNat

/-- The index with its checksum set. -/
def sealed (idx : RecordIndex) : RecordIndex := { idx with crc := idx.checksum }

end RecordIndex

/-- The address of the index of a type in the EEPROM. -/
def indexAddr (type : RecType) : Nat := Area.recIndex.on + RecordIndex.sizeof * type.index

/-- What the logs are stored to: a write returns a code, a read a code and the buffer. -/
structure Medium (Store : Type) where
  write : Nat → Mem → Nat → Store → Int × Store
  read : Nat → Mem → Nat → Store → Int × Mem × Store

/-- The variables `rec_index` and `rec_addr`, and the medium's state. -/
structure Log (Store : Type) where
  recIndex : RecType → RecordIndex
  recAddr : RecType → Nat
  store : Store

section

variable {Store : Type} (medium : Medium Store)

/-- `save_index`. The result of the write is not looked at. -/
def saveIndex (type : RecType) (log : Log Store) : Log Store :=
  let idx := (log.recIndex type).sealed
  { log with
    recIndex := Function.update log.recIndex type idx
    store := (medium.write (indexAddr type) (ofList idx.bytes) RecordIndex.sizeof log.store).2 }

/-- The index after one more record. -/
def advance (type : RecType) (idx : RecordIndex) : RecordIndex :=
  let tailNum := (idx.tailNum + 1) % 2 ^ 32
  { idx with
    tailNum := tailNum
    headNum := if type.capacity ≤ tailNum then (idx.headNum + 1) % 2 ^ 32 else idx.headNum
    count := if idx.count < type.capacity then idx.count + 1 else idx.count }

/-- The address behind the record at an address. -/
def nextAddr (type : RecType) (addr : Nat) : Nat :=
  if addr + type.size = type.endAddr then type.startAddr else addr + type.size

/-- `record_save`. -/
def recordSave (type : RecType) (data : Mem) (log : Log Store) : Int × Log Store :=
  match medium.write (log.recAddr type) data type.size log.store with
  | (len, store) =>
      if len ≠ type.size then (-1, { log with store := store })
      else
        (0, saveIndex medium type
          { recIndex := Function.update log.recIndex type (advance type (log.recIndex type))
            recAddr := Function.update log.recAddr type (nextAddr type (log.recAddr type))
            store := store })

/-- The body of the loop of `record_clear`. -/
def clearType (log : Log Store) (type : RecType) : Log Store :=
  let log := saveIndex medium type
    { log with recIndex := Function.update log.recIndex type RecordIndex.cleared }
  { log with recAddr := Function.update log.recAddr type type.startAddr }

/-- `record_clear`. -/
def recordClear (log : Log Store) : Log Store := RecType.all.foldl (clearType medium) log

/-- `record_read`. -/
def recordRead (type : RecType) (num : Nat) (buff : Mem) (log : Log Store) :
    Int × Mem × Log Store :=
  match medium.read (type.recordAddr num) buff type.size log.store with
  | (ret, buff, store) => (if ret = type.size then 0 else -1, buff, { log with store := store })

/-- The loop of `record_load`; `num` counts on from `start` and is used for its distance
from there only. -/
def recordLoadLoop (type : RecType) (start count num addr : Nat) (buff : Mem) (data size : Nat)
    (store : Store) : Nat × Mem × Store :=
  if _ : size < type.size then (num, buff, store)
  else
    match medium.read addr (window buff data) type.size store with
    | (ret, record, store) =>
        let buff := overlay buff record data type.size
        if ret ≠ type.size then (num, buff, store)
        else if num + 1 - start = count then (num + 1, buff, store)
        else recordLoadLoop type start count (num + 1) (nextAddr type addr) buff
          (data + type.size) (size - type.size) store
termination_by size
decreasing_by
  have positive : 0 < type.size := by cases type <;> decide
  omega

/-- `record_load`. -/
def recordLoad (type : RecType) (start count : Nat) (buff : Mem) (size : Nat) (log : Log Store) :
    Nat × Mem × Log Store :=
  let count := min count (log.recIndex type).count
  if count = 0 then (0, buff, log)
  else
    match recordLoadLoop medium type start count start (type.recordAddr start) buff 0 size
        log.store with
    | (num, buff, store) => (num - start, buff, { log with store := store })

end

/-- What can happen to the logs. -/
inductive Op where
  | save (type : RecType) (data : Mem)
  | clear

/-- The logs after an operation. -/
def step {Store : Type} (medium : Medium Store) (log : Log Store) : Op → Log Store
  | .save type data => (recordSave medium type data log).2
  | .clear => recordClear medium log

/-- A byte array whose accesses succeed and return what `report` says of their length. -/
def byteArray (report : Nat → Int) : Medium Mem where
  write addr buff len cells := (report len, overlay cells buff addr len)
  read addr buff len cells := (report len, overlay buff (window cells addr) 0 len, cells)

/-- The records saved since the last clear. -/
def journalStep (report : Nat → Int) (journal : RecType → List Mem) : Op → RecType → List Mem
  | .save type data =>
      if report type.size = type.size then
        Function.update journal type (journal type ++ [data])
      else journal
  | .clear => fun _ => []

/-- A full ring ends where the area of its type ends or before. -/
theorem end_inside (type : RecType) :
    0 < type.size ∧ 0 < type.capacity ∧ type.endAddr ≤ type.area.off ∧ type.capacity < 2 ^ 31 := by
  cases type <;> decide

/-- The records of a type lie between its start and its end. -/
theorem record_addr_inside (type : RecType) (num : Nat) :
    type.startAddr ≤ type.recordAddr num ∧
      type.recordAddr num + type.size ≤ type.endAddr := by
  have positive := (end_inside type).2.1
  have below : num % type.capacity + 1 ≤ type.capacity := Nat.mod_lt num positive
  have scaled := Nat.mul_le_mul_right type.size below
  rw [Nat.succ_mul] at scaled
  unfold RecType.endAddr RecType.recordAddr
  omega

/-- The address behind a record is that of the next record. -/
theorem next_addr_record (type : RecType) (num : Nat) :
    nextAddr type (type.recordAddr num) = type.recordAddr (num + 1) := by
  obtain ⟨sizePositive, positive, -⟩ := end_inside type
  have below : num % type.capacity + 1 ≤ type.capacity := Nat.mod_lt num positive
  have place : type.recordAddr num + type.size =
      type.startAddr + (num % type.capacity + 1) * type.size := by
    rw [RecType.recordAddr, Nat.succ_mul, Nat.add_assoc]
  rw [nextAddr, place, RecType.endAddr, RecType.recordAddr, Nat.add_mod num 1]
  rcases Nat.lt_or_eq_of_le below with before | last
  · have small : (num % type.capacity + 1 % type.capacity) % type.capacity =
        num % type.capacity + 1 := by
      rw [Nat.mod_eq_of_lt (by omega : 1 < type.capacity), Nat.mod_eq_of_lt before]
    have apart : (num % type.capacity + 1) * type.size < type.capacity * type.size :=
      Nat.mul_lt_mul_of_pos_right before sizePositive
    rw [small, if_neg (by omega)]
  · rw [← Nat.add_mod, ← Nat.mod_add_mod, last, Nat.mod_self, if_pos rfl, Nat.zero_mul,
      Nat.add_zero]

/-- Different slots do not overlap. -/
theorem record_addr_apart (type : RecType) (first second : Nat)
    (different : first % type.capacity ≠ second % type.capacity) :
    type.recordAddr first + type.size ≤ type.recordAddr second ∨
      type.recordAddr second + type.size ≤ type.recordAddr first := by
  unfold RecType.recordAddr
  rcases Nat.lt_or_gt_of_ne different with before | behind
  · have scaled := Nat.mul_le_mul_right type.size (Nat.succ_le_of_lt before)
    rw [Nat.succ_mul] at scaled
    omega
  · have scaled := Nat.mul_le_mul_right type.size (Nat.succ_le_of_lt behind)
    rw [Nat.succ_mul] at scaled
    omega

/-- The areas of the logs and the index lie apart. -/
theorem areas_apart (type other : RecType) (different : type ≠ other) :
    Area.recIndex.off ≤ type.startAddr ∧
      (type.endAddr ≤ other.startAddr ∨ other.endAddr ≤ type.startAddr) := by
  cases type <;> cases other <;> first | exact absurd rfl different | decide

/-- The entries of the index lie in their area, behind the parameters, and apart. -/
theorem index_addr_inside (type : RecType) :
    Area.recIndex.on ≤ indexAddr type ∧
      indexAddr type + RecordIndex.sizeof ≤ Area.recIndex.off ∧
      Area.recIndex.off ≤ type.startAddr := by
  cases type <;> decide

/-- The entries of different types lie apart. -/
theorem index_addr_apart (type other : RecType) (different : type ≠ other) :
    indexAddr type + RecordIndex.sizeof ≤ indexAddr other ∨
      indexAddr other + RecordIndex.sizeof ≤ indexAddr type := by
  cases type <;> cases other <;> first | exact absurd rfl different | decide

section

variable {report : Nat → Int}

/-- What the ring of a type and its index hold of the records saved since the last clear. -/
structure Ring (report : Nat → Int) (type : RecType) (journal : List Mem) (log : Log Mem) :
    Prop where
  reported : report type.size ≠ type.size → journal = []
  place : log.recAddr type = type.recordAddr journal.length
  tail : (log.recIndex type).tailNum = journal.length % 2 ^ 32
  count : (log.recIndex type).count = min journal.length type.capacity
  head : journal.length < 2 ^ 32 →
    (log.recIndex type).headNum = journal.length + 1 - type.capacity
  contents : ∀ (num : Nat) (record : Mem), journal[num]? = some record →
    journal.length ≤ num + type.capacity →
      Agree (window log.store (type.recordAddr num)) record 0 type.size
  index : Agree (window log.store (indexAddr type)) (ofList (log.recIndex type).bytes) 0
    RecordIndex.sizeof

/-- The logs after a save to a byte array. -/
theorem record_save_result (type : RecType) (data : Mem) (log : Log Mem) :
    (report type.size = type.size ∧ recordSave (byteArray report) type data log =
      (0, ⟨Function.update log.recIndex type (advance type (log.recIndex type)).sealed,
        Function.update log.recAddr type (nextAddr type (log.recAddr type)),
        overlay (overlay log.store data (log.recAddr type) type.size)
          (ofList (advance type (log.recIndex type)).sealed.bytes) (indexAddr type)
          RecordIndex.sizeof⟩)) ∨
    (report type.size ≠ type.size ∧ recordSave (byteArray report) type data log =
      (-1, ⟨log.recIndex, log.recAddr,
        overlay log.store data (log.recAddr type) type.size⟩)) := by
  by_cases success : report type.size = type.size
  · refine Or.inl ⟨success, ?_⟩
    simp [recordSave, byteArray, success, saveIndex]
  · refine Or.inr ⟨success, ?_⟩
    simp [recordSave, byteArray, success]

/-- A save leaves everything but its type's records and its type's index entry. -/
theorem record_save_frame (type : RecType) (data : Mem) (log : Log Mem) (num : Nat)
    (place : log.recAddr type = type.recordAddr num) (address : Nat)
    (noRecord : address < type.startAddr ∨ type.endAddr ≤ address)
    (noIndex : address < indexAddr type ∨ indexAddr type + RecordIndex.sizeof ≤ address) :
    (recordSave (byteArray report) type data log).2.store address = log.store address := by
  have inside := record_addr_inside type num
  rcases @record_save_result report type data log with ⟨-, call⟩ | ⟨-, call⟩
  · rw [call]
    simp only
    rw [overlay_outside _ _ _ _ _ noIndex, overlay_outside _ _ _ _ _ (by omega)]
  · rw [call]
    simp only
    rw [overlay_outside _ _ _ _ _ (by omega)]

/-- A save to one type keeps the ring of the other. -/
theorem record_save_other (type other : RecType) (different : type ≠ other) (data : Mem)
    (journal saved : List Mem) (log : Log Mem) (ring : Ring report type saved log)
    (otherRing : Ring report other journal log) :
    Ring report other journal (recordSave (byteArray report) type data log).2 := by
  have apart := areas_apart type other different
  have entries := index_addr_apart type other different
  have entry := index_addr_inside type
  have otherEntry := index_addr_inside other
  have typeEnds := record_addr_inside type saved.length
  have untouched : ∀ address,
      (other.startAddr ≤ address ∧ address < other.endAddr) ∨
        (indexAddr other ≤ address ∧ address < indexAddr other + RecordIndex.sizeof) →
      (recordSave (byteArray report) type data log).2.store address = log.store address := by
    intro address inside
    exact record_save_frame type data log saved.length ring.place address (by omega) (by omega)
  have sameIndex :
      (recordSave (byteArray report) type data log).2.recIndex other = log.recIndex other := by
    rcases @record_save_result report type data log with ⟨-, call⟩ | ⟨-, call⟩ <;> rw [call]
    exact Function.update_of_ne different.symm _ _
  have sameAddr :
      (recordSave (byteArray report) type data log).2.recAddr other = log.recAddr other := by
    rcases @record_save_result report type data log with ⟨-, call⟩ | ⟨-, call⟩ <;> rw [call]
    exact Function.update_of_ne different.symm _ _
  refine ⟨otherRing.reported, ?_, ?_, ?_, ?_, ?_, ?_⟩
  · rw [sameAddr, otherRing.place]
  · rw [sameIndex, otherRing.tail]
  · rw [sameIndex, otherRing.count]
  · rw [sameIndex]
    exact otherRing.head
  · intro num record found recent offset low high
    have inside := record_addr_inside other num
    rw [← otherRing.contents num record found recent offset low high]
    exact untouched _ (Or.inl ⟨by omega, by omega⟩)
  · rw [sameIndex]
    intro offset low high
    rw [← otherRing.index offset low high]
    exact untouched _ (Or.inr ⟨by omega, by omega⟩)

/-- Numbers less than a round apart have different slots. -/
theorem slots_different (type : RecType) (num later : Nat) (before : num < later)
    (near : later < num + type.capacity) : num % type.capacity ≠ later % type.capacity := by
  intro same
  have distance : num + (later - num) = later := by omega
  have zero : 0 = later - num := by
    refine RingBuffers.index_injective num (end_inside type).2.1 (by omega) ?_
    rw [Nat.add_zero, distance]
    exact same
  omega

/-- A save to a type appends to its ring, if the medium reports the length. -/
theorem record_save_own (type : RecType) (data : Mem) (journal : RecType → List Mem)
    (log : Log Mem) (ring : Ring report type (journal type) log) :
    Ring report type (journalStep report journal (.save type data) type)
      (recordSave (byteArray report) type data log).2 := by
  have entry := index_addr_inside type
  have slot := record_addr_inside type (journal type).length
  have positive := (end_inside type).2.1
  have bounded := (end_inside type).2.2.2
  rcases @record_save_result report type data log with ⟨success, call⟩ | ⟨failure, call⟩
  · rw [call, journalStep, if_pos success, Function.update_self]
    refine ⟨fun refused => absurd success refused, ?_, ?_, ?_, ?_, ?_, ?_⟩
    · simp only [Function.update_self, ring.place, next_addr_record, List.length_append,
        List.length_singleton]
    · simp only [Function.update_self, RecordIndex.sealed, advance, ring.tail, List.length_append,
        List.length_singleton]
      omega
    · simp only [Function.update_self, RecordIndex.sealed, advance, ring.count,
        List.length_append, List.length_singleton]
      split <;> omega
    · simp only [Function.update_self, RecordIndex.sealed, advance, ring.tail, List.length_append,
        List.length_singleton]
      intro fewer
      rw [ring.head (by omega)]
      split <;> omega
    · intro num record found recent offset low high
      have place := record_addr_inside type num
      rw [List.length_append, List.length_singleton] at recent
      simp only [window]
      rw [overlay_outside _ _ _ _ _ (by omega), ring.place]
      rcases Nat.lt_or_ge num (journal type).length with earlier | last
      · rw [List.getElem?_append_left earlier] at found
        have apart := record_addr_apart type num (journal type).length
          (slots_different type num _ earlier (by omega))
        rw [overlay_outside _ _ _ _ _ (by omega)]
        exact ring.contents num record found (by omega) offset low high
      · have inside := (List.getElem?_eq_some_iff.mp found).1
        rw [List.length_append, List.length_singleton] at inside
        have new : num = (journal type).length := by omega
        rw [new, List.getElem?_append_right (Nat.le_refl _), Nat.sub_self] at found
        obtain rfl : data = record := by simpa using found
        rw [new, overlay_inside _ _ _ _ _ (by omega) (by omega), Nat.add_sub_cancel_left]
    · intro offset low high
      simp only [Function.update_self, window]
      rw [overlay_inside _ _ _ _ _ (by omega) (by omega), Nat.add_sub_cancel_left]
  · have absent := ring.reported failure
    rw [call, journalStep, if_neg failure]
    refine ⟨fun _ => absent, ring.place, ring.tail, ring.count, ring.head, ?_, ?_⟩
    · intro num record found
      rw [absent] at found
      simp at found
    · intro offset low high
      rw [← ring.index offset low high]
      simp only [window]
      rw [overlay_outside _ _ _ _ _ (by rw [ring.place]; omega)]

/-- Clearing a type empties its ring. -/
theorem clear_type_own (type : RecType) (log : Log Mem) :
    Ring report type [] (clearType (byteArray report) log type) := by
  have entry := index_addr_inside type
  refine ⟨fun _ => rfl, ?_, ?_, ?_, fun _ => ?_, ?_, ?_⟩
  · simp [clearType, RecType.recordAddr]
  · simp [clearType, saveIndex, RecordIndex.sealed, RecordIndex.cleared]
  · simp [clearType, saveIndex, RecordIndex.sealed, RecordIndex.cleared]
  · have positive := (end_inside type).2.1
    simp only [clearType, saveIndex, Function.update_self, RecordIndex.sealed,
      RecordIndex.cleared, List.length_nil]
    omega
  · intro num record found
    simp at found
  · intro offset low high
    simp only [clearType, saveIndex, byteArray, Function.update_self, window]
    rw [overlay_inside _ _ _ _ _ (by omega) (by omega), Nat.add_sub_cancel_left]

/-- Clearing one type keeps the empty ring of the other. -/
theorem clear_type_other (type other : RecType) (different : type ≠ other) (log : Log Mem)
    (ring : Ring report other [] log) :
    Ring report other [] (clearType (byteArray report) log type) := by
  have entries := index_addr_apart type other different
  have sameIndex : (clearType (byteArray report) log type).recIndex other =
      log.recIndex other := by
    simp [clearType, saveIndex, Function.update_of_ne different.symm]
  have sameAddr : (clearType (byteArray report) log type).recAddr other = log.recAddr other := by
    simp [clearType, saveIndex, Function.update_of_ne different.symm]
  refine ⟨fun _ => rfl, ?_, ?_, ?_, ?_, ?_, ?_⟩
  · rw [sameAddr, ring.place]
  · rw [sameIndex, ring.tail]
  · rw [sameIndex, ring.count]
  · rw [sameIndex]
    exact ring.head
  · intro num record found
    simp at found
  · rw [sameIndex]
    intro offset low high
    rw [← ring.index offset low high]
    simp only [clearType, saveIndex, byteArray, window]
    rw [overlay_outside _ _ _ _ _ (by omega)]

/-- Clearing empties all rings. -/
theorem record_clear_rings (log : Log Mem) (type : RecType) :
    Ring report type [] (recordClear (byteArray report) log) := by
  change Ring report type [] (clearType (byteArray report)
    (clearType (byteArray report) log .bbox) .state)
  cases type with
  | bbox => exact clear_type_other .state .bbox (by decide) _ (clear_type_own .bbox log)
  | state => exact clear_type_own .state _

/-- Every operation keeps the rings in step with the journals. -/
theorem step_rings (journal : RecType → List Mem) (log : Log Mem) (op : Op)
    (rings : ∀ type, Ring report type (journal type) log) (type : RecType) :
    Ring report type (journalStep report journal op type) (step (byteArray report) log op) := by
  cases op with
  | save saved data =>
    by_cases same : saved = type
    · rw [← same]
      exact record_save_own saved data journal log (rings saved)
    · have unchanged : journalStep report journal (.save saved data) type = journal type := by
        by_cases success : report saved.size = saved.size
        · rw [journalStep, if_pos success]
          exact Function.update_of_ne (Ne.symm same) _ _
        · rw [journalStep, if_neg success]
      rw [unchanged]
      exact record_save_other saved type same data _ _ log (rings saved) (rings type)
  | clear => exact record_clear_rings log type

/-- After every history that starts with a clear the rings hold the journals. -/
theorem run_rings (start : Log Mem) (history : List Op) (type : RecType) :
    Ring report type (run (journalStep report) (fun _ => []) history type)
      (run (step (byteArray report)) (recordClear (byteArray report) start) history) := by
  have preserved : ∀ (pair : Log Mem × (RecType → List Mem)) (op : Op),
      (∀ type, Ring report type (pair.2 type) pair.1) →
      ∀ type, Ring report type
        ((both (step (byteArray report)) (journalStep report) pair op).2 type)
        (both (step (byteArray report)) (journalStep report) pair op).1 :=
    fun pair op rings => step_rings pair.2 pair.1 op rings
  have rings := run_invariant (both (step (byteArray report)) (journalStep report)) preserved
    (recordClear (byteArray report) start, fun _ => []) (record_clear_rings start) history
  rw [run_both] at rings
  exact rings type

/-- The loop of `record_load` copies the records of consecutive numbers, as many as were
asked for and as fit. -/
theorem record_load_loop_result (type : RecType) (start count num addr : Nat) (buff : Mem)
    (data size : Nat) (store : Mem) (success : report type.size = type.size)
    (begun : start ≤ num) (more : num - start < count) (place : addr = type.recordAddr num) :
    ∃ buffer, recordLoadLoop (byteArray report) type start count num addr buff data size store =
        (num + min (start + count - num) (size / type.size), buffer, store) ∧
      (∀ address < data, buffer address = buff address) ∧
      ∀ index < min (start + count - num) (size / type.size),
        Agree (window buffer (data + index * type.size))
          (window store (type.recordAddr (num + index))) 0 type.size := by
  have positive := (end_inside type).1
  induction size using Nat.strong_induction_on generalizing num addr buff data with
  | _ size inductionHypothesis =>
    rw [recordLoadLoop]
    by_cases short : size < type.size
    · have zero : size / type.size = 0 := Nat.div_eq_of_lt short
      rw [dif_pos short, zero, Nat.min_zero, Nat.add_zero]
      exact ⟨buff, rfl, fun _ _ => rfl, fun index below => absurd below (Nat.not_lt_zero _)⟩
    · have fits : 1 ≤ size / type.size := (Nat.one_le_div_iff positive).mpr (by omega)
      have lessRoom := Nat.div_eq_sub_div positive (Nat.le_of_not_lt short)
      rw [dif_neg short]
      simp only [byteArray, success, ne_eq, not_true_eq_false, if_false]
      have copied : Agree (window (overlay buff (overlay (window buff data) (window store addr) 0
          type.size) data type.size) data) (window store (type.recordAddr num)) 0 type.size := by
        intro offset low high
        rw [window, overlay_inside _ _ _ _ _ (by omega) (by omega), Nat.add_sub_cancel_left,
          overlay_inside _ _ _ _ _ low (by omega), Nat.sub_zero, place]
      have kept : ∀ address < data, overlay buff (overlay (window buff data) (window store addr)
          0 type.size) data type.size address = buff address :=
        fun address below => overlay_outside _ _ _ _ _ (Or.inl below)
      by_cases last : num + 1 - start = count
      · have one : min (start + count - num) (size / type.size) = 1 := by omega
        rw [if_pos last, one]
        refine ⟨_, rfl, kept, fun index below => ?_⟩
        rw [Nat.lt_one_iff.mp below, Nat.zero_mul, Nat.add_zero, Nat.add_zero]
        exact copied
      · obtain ⟨buffer, call, early, records⟩ := inductionHypothesis (size - type.size) (by omega)
          (num + 1) (nextAddr type addr) (overlay buff (overlay (window buff data)
            (window store addr) 0 type.size) data type.size) (data + type.size) (by omega)
          (by omega) (by rw [place, next_addr_record])
        rw [if_neg last]
        refine ⟨buffer, ?_, ?_, ?_⟩
        · refine call.trans ?_
          congr 1
          omega
        · intro address below
          rw [early address (by omega), kept address below]
        · intro index below
          cases index with
          | zero =>
            intro offset low high
            rw [Nat.zero_mul, Nat.add_zero, Nat.add_zero, window, early _ (by omega)]
            exact copied offset low high
          | succ index =>
            have rest := records index (by omega)
            have shifted : data + type.size + index * type.size =
                data + (index + 1) * type.size := by
              rw [Nat.succ_mul]
              omega
            have number : num + 1 + index = num + (index + 1) := by omega
            rw [shifted, number] at rest
            exact rest

end

/-- The log of a type as it is meant to be, but for the distance of its numbers: the count
fits the ring, the address is that of the next record, and reading and loading return the
records saved since the last clear. -/
structure RingKept (report : Nat → Int) (type : RecType) (journal : List Mem) (log : Log Mem) :
    Prop where
  bounded : (log.recIndex type).count ≤ type.capacity
  address : log.recAddr type = type.recordAddr (log.recIndex type).tailNum
  inside : type.startAddr ≤ log.recAddr type ∧ log.recAddr type < type.endAddr
  reads : ∀ (num : Nat) (buff : Mem), (log.recIndex type).headNum ≤ num →
    num < (log.recIndex type).tailNum → ∃ record, journal[num]? = some record ∧
      (recordRead (byteArray report) type num buff log).1 = 0 ∧
      Agree (recordRead (byteArray report) type num buff log).2.1 record 0 type.size
  loads : ∀ (first count : Nat) (buff : Mem) (size : Nat),
    (recordLoad (byteArray report) type first count buff size log).1 =
        min (min count (log.recIndex type).count) (size / type.size) ∧
      ∀ index < (recordLoad (byteArray report) type first count buff size log).1,
        (log.recIndex type).headNum ≤ first + index →
        first + index < (log.recIndex type).tailNum →
        ∃ record, journal[first + index]? = some record ∧
          Agree (window (recordLoad (byteArray report) type first count buff size log).2.1
            (index * type.size)) record 0 type.size

/-- The log of a type as it is meant to be. -/
structure RingSound (report : Nat → Int) (type : RecType) (journal : List Mem) (log : Log Mem) :
    Prop extends RingKept report type journal log where
  span : ((log.recIndex type).tailNum + 2 ^ 32 - (log.recIndex type).headNum) % 2 ^ 32 =
    (log.recIndex type).count

/-- What a save of a type must leave alone: the area of the other type, the parameters, and
the index, except that its own entry becomes that of the index in RAM. -/
structure SaveFrame (type : RecType) (before after : Log Mem) : Prop where
  records : ∀ other, type ≠ other → ∀ address, other.area.on ≤ address →
    address < other.area.off → after.store address = before.store address
  parameters : ∀ address, address < Area.backupPara.off →
    after.store address = before.store address
  entries : ∀ other, type ≠ other →
    Agree after.store before.store (indexAddr other) RecordIndex.sizeof
  entry : Agree (window after.store (indexAddr type)) (ofList (after.recIndex type).bytes) 0
    RecordIndex.sizeof

section

variable {report : Nat → Int}

/-- A record that a ring still holds was saved, and its slot holds it. -/
theorem ring_record {type : RecType} {journal : List Mem} {log : Log Mem}
    (ring : Ring report type journal log) (fewer : journal.length < 2 ^ 32) (num : Nat)
    (low : (log.recIndex type).headNum ≤ num) (high : num < (log.recIndex type).tailNum) :
    ∃ record, journal[num]? = some record ∧ report type.size = type.size ∧
      Agree (window log.store (type.recordAddr num)) record 0 type.size := by
  rw [ring.head fewer] at low
  rw [ring.tail, Nat.mod_eq_of_lt fewer] at high
  refine ⟨journal[num], List.getElem?_eq_getElem high, ?_,
    ring.contents num _ (List.getElem?_eq_getElem high) (by omega)⟩
  by_contra refused
  rw [ring.reported refused] at high
  exact absurd high (Nat.not_lt_zero _)

/-- A ring that holds its journal is as it is meant to be, but for the distance. -/
theorem ring_kept {type : RecType} {journal : List Mem} {log : Log Mem}
    (ring : Ring report type journal log) (fewer : journal.length < 2 ^ 32) :
    RingKept report type journal log := by
  have slot := record_addr_inside type journal.length
  have positive := (end_inside type).1
  refine ⟨?_, ?_, ?_, ?_, ?_⟩
  · rw [ring.count]
    exact Nat.min_le_right _ _
  · rw [ring.place, ring.tail, Nat.mod_eq_of_lt fewer]
  · rw [ring.place]
    omega
  · intro num buff low high
    obtain ⟨record, found, success, held⟩ := ring_record ring fewer num low high
    refine ⟨record, found, ?_, ?_⟩
    · simp [recordRead, byteArray, success]
    · intro offset start inside
      simp only [recordRead, byteArray]
      rw [overlay_inside _ _ _ _ _ start inside, Nat.sub_zero]
      exact held offset start inside
  · intro first count buff size
    by_cases none : min count (log.recIndex type).count = 0
    · have result : recordLoad (byteArray report) type first count buff size log =
          (0, buff, log) := by
        simp only [recordLoad, none, if_true]
      rw [result, none, Nat.zero_min]
      exact ⟨rfl, fun index below => absurd below (Nat.not_lt_zero _)⟩
    · have nonzero : 0 < journal.length := by
        rw [ring.count] at none
        omega
      have success : report type.size = type.size := by
        by_contra refused
        rw [ring.reported refused] at nonzero
        exact absurd nonzero (Nat.not_lt_zero _)
      obtain ⟨buffer, call, -, records⟩ := record_load_loop_result type first
        (min count (log.recIndex type).count) first (type.recordAddr first) buff 0 size log.store
        success (Nat.le_refl _) (by omega) rfl
      rw [Nat.add_sub_cancel_left] at call records
      have result : recordLoad (byteArray report) type first count buff size log =
          (min (min count (log.recIndex type).count) (size / type.size), buffer, log) := by
        simp only [recordLoad, none, if_false, call, Nat.add_sub_cancel_left]
      rw [result]
      refine ⟨rfl, fun index below low high => ?_⟩
      obtain ⟨record, found, -, held⟩ := ring_record ring fewer (first + index) low high
      have copied := records index below
      rw [Nat.zero_add] at copied
      exact ⟨record, found, agree_trans copied held⟩

/-- The numbers are as far apart as there are records exactly until the ring is full. -/
theorem ring_span_iff {type : RecType} {journal : List Mem} {log : Log Mem}
    (ring : Ring report type journal log) (fewer : journal.length < 2 ^ 32) :
    ((log.recIndex type).tailNum + 2 ^ 32 - (log.recIndex type).headNum) % 2 ^ 32 =
      (log.recIndex type).count ↔ journal.length < type.capacity := by
  have bounds := end_inside type
  rw [ring.tail, ring.head fewer, ring.count, Nat.mod_eq_of_lt fewer]
  omega

/-- A save keeps what it must leave alone. -/
theorem ring_save_frame {type : RecType} {journal : RecType → List Mem} {log : Log Mem}
    (ring : Ring report type (journal type) log) (data : Mem) :
    SaveFrame type log (recordSave (byteArray report) type data log).2 := by
  have own := record_save_own type data journal log ring
  have entry := index_addr_inside type
  have ends := (end_inside type).2.2.1
  have index : Area.backupPara.off ≤ Area.recIndex.on := by decide
  have kept := @record_save_frame report type data log _ ring.place
  refine ⟨?_, ?_, ?_, own.index⟩
  · intro other different address low high
    have apart : Area.recIndex.off ≤ other.area.on ∧
        (other.area.off ≤ type.startAddr ∨ type.area.off ≤ other.area.on) := by
      cases type <;> cases other <;> first | exact absurd rfl different | decide
    exact kept address (by omega) (by omega)
  · intro address below
    exact kept address (by omega) (by omega)
  · intro other different address low high
    have otherEntry := index_addr_inside other
    have apart := index_addr_apart type other different
    exact kept address (by omega) (by omega)

end

/-- After every history of saves and clears the log of a type is as it is meant to be if
fewer records than the ring holds were saved since the last clear. From the first record
that fills the ring on, the numbers are one less apart than there are records, while
everything else stays as it is meant to be up to the width of the numbers. A save never
touches the other log, the parameters or the other entry of the index. -/
theorem log_ring_iff (report : Nat → Int) (start : Log Mem) (history : List Op)
    (type : RecType) :
    ((run (journalStep report) (fun _ => []) history type).length < type.capacity →
      RingSound report type (run (journalStep report) (fun _ => []) history type)
        (run (step (byteArray report)) (recordClear (byteArray report) start) history)) ∧
    ((run (journalStep report) (fun _ => []) history type).length < 2 ^ 32 →
      RingKept report type (run (journalStep report) (fun _ => []) history type)
        (run (step (byteArray report)) (recordClear (byteArray report) start) history) ∧
      (RingSound report type (run (journalStep report) (fun _ => []) history type)
        (run (step (byteArray report)) (recordClear (byteArray report) start) history) →
          (run (journalStep report) (fun _ => []) history type).length < type.capacity)) ∧
    ∀ data, SaveFrame type
      (run (step (byteArray report)) (recordClear (byteArray report) start) history)
      (recordSave (byteArray report) type data
        (run (step (byteArray report)) (recordClear (byteArray report) start) history)).2 := by
  have ring := @run_rings report start history type
  have bounds := end_inside type
  refine ⟨fun partly => ?_, fun fewer => ⟨ring_kept ring fewer, fun sound => ?_⟩, fun data =>
    ring_save_frame ring data⟩
  · have fewer : (run (journalStep report) (fun _ => []) history type).length < 2 ^ 32 := by omega
    exact ⟨ring_kept ring fewer, (ring_span_iff ring fewer).mpr partly⟩
  · exact (ring_span_iff ring fewer).mp sound.span

/-- Saving one record many times makes a journal of that length. -/
theorem journal_replicate (report : Nat → Int) (type : RecType) (data : Mem)
    (success : report type.size = type.size) (count : Nat) (journal : RecType → List Mem) :
    (run (journalStep report) journal (List.replicate count (.save type data)) type).length =
      (journal type).length + count := by
  induction count generalizing journal with
  | zero => rfl
  | succ count inductionHypothesis =>
    have rest := inductionHypothesis (journalStep report journal (.save type data))
    rw [journalStep, if_pos success, Function.update_self, List.length_append,
      List.length_singleton] at rest
    rw [List.replicate_succ]
    change (run (journalStep report) (journalStep report journal (.save type data))
      (List.replicate count (.save type data)) type).length = _
    rw [journalStep, if_pos success, rest]
    omega

/-- The record that fills the black box log makes its numbers disagree with its count. -/
theorem full_ring_miscounts :
    ¬∀ (report : Nat → Int) (start : Log Mem) (history : List Op) (type : RecType),
      RingSound report type (run (journalStep report) (fun _ => []) history type)
        (run (step (byteArray report)) (recordClear (byteArray report) start) history) := by
  intro sound
  have length := journal_replicate (fun len => len) .bbox (fun _ => 0) rfl 2269 (fun _ => [])
  have ring := @run_rings (fun len => len)
    ⟨fun _ => RecordIndex.cleared, fun _ => 0, fun _ => 0⟩
    (List.replicate 2269 (.save .bbox fun _ => 0)) .bbox
  have span := (sound (fun len => len) ⟨fun _ => RecordIndex.cleared, fun _ => 0, fun _ => 0⟩
    (List.replicate 2269 (.save .bbox fun _ => 0)) .bbox).span
  rw [ring_span_iff ring (by rw [length]; decide), length] at span
  exact absurd span (by decide)

end Pyrometer.RecordLog
