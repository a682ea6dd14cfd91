import Pyrometer.FlashController

/-!
# The EEPROM driver and the storage read outcomes

`eeprom.c` splits a write at the 256-byte page boundaries of the AT24CM01 and
stops at the first page that is not acknowledged in full. Only two address
bytes are sent and the device-select byte is constant, so address bit 16 of the
chip is always zero. `storage.c` wraps the transfers in a mutex: a timeout of
that mutex is answered with 0 although nothing was transferred, and a transfer
counts as successful as soon as one byte went through.

Every bus transfer consults `ack`: `none` acknowledges everything, `some count`
stops after that many data bytes (none at all when the address phase is
refused). `mutexTimeout` says which lock attempts time out.
-/

namespace Pyrometer.EepromStorage

open ByteMemory

/-- `AT24C_PAGE_SIZE`. -/
def at24cPageSize : Nat := 256

/-- Bytes stored by one page transfer. -/
structure PageWrite where
  address : Nat
  bytes : List Byte
  deriving DecidableEq, Repr

/-- The chip, its bus and the mutex that guards it. -/
structure Eeprom where
  cells : Mem
  ack : Nat → Option Nat
  transfers : Nat
  mutexTimeout : Nat → Bool
  locks : Nat
  log : List PageWrite

/-- A chip that acknowledges everything, with the mutex always free. -/
def Eeprom.healthy (cells : Mem) : Eeprom := ⟨cells, fun _ => none, 0, fun _ => false, 0, []⟩

/-- The two address bytes select a cell of the lower half of the chip. -/
def cellAddress (memAddr : Nat) : Nat := memAddr % 2 ^ 16

/-- Effect of one stored page transfer on the cells. -/
def storePage (cells : Mem) (page : PageWrite) : Mem :=
  overlay cells (ofList page.bytes) page.address page.bytes.length

/-- Cells after a history of stored page transfers. -/
def storePages (cells : Mem) (history : List PageWrite) : Mem := history.foldl storePage cells

/-- `write_in_page`: the number of data bytes the chip acknowledged and stored. -/
def writeInPage (memAddr : Nat) (buff : Mem) (len : Nat) (chip : Eeprom) : Nat × Eeprom :=
  let sent := match chip.ack chip.transfers with
    | none => len
    | some count => min count len
  let page : PageWrite := ⟨cellAddress memAddr, toList buff 0 sent⟩
  (sent, { chip with
    cells := storePage chip.cells page
    transfers := chip.transfers + 1
    log := chip.log ++ [page] })

/-- Size of the next page transfer: up to the page boundary, at most what remains. -/
def pageChunk (addr remain : Nat) : Nat :=
  min (at24cPageSize - addr % at24cPageSize) remain

/-- A transfer of a nonempty remainder is nonempty. -/
theorem page_chunk_pos (addr remain : Nat) (nonzero : remain ≠ 0) : 0 < pageChunk addr remain := by
  unfold pageChunk at24cPageSize
  have inPage : addr % 256 < 256 := Nat.mod_lt addr (by decide)
  omega

/-- A transfer is no longer than what remains. -/
theorem page_chunk_le (addr remain : Nat) : pageChunk addr remain ≤ remain :=
  Nat.min_le_right _ _

/-- The loop of `at24c_write`; the result is what remains unwritten. -/
def at24cWriteLoop (addr : Nat) (data : Mem) (remain : Nat) (chip : Eeprom) : Nat × Eeprom :=
  if remain = 0 then (0, chip)
  else
    let size := pageChunk addr remain
    let written := writeInPage addr data size chip
    if written.1 ≠ size then (remain, written.2)
    else at24cWriteLoop (addr + size) (window data size) (remain - size) written.2
termination_by remain
decreasing_by
  have positive := page_chunk_pos addr remain ‹_›
  have bounded := page_chunk_le addr remain
  omega

/-- `at24c_write` returns the number of bytes of the completed pages. -/
def at24cWrite (memAddr : Nat) (buff : Mem) (len : Nat) (chip : Eeprom) : Nat × Eeprom :=
  let result := at24cWriteLoop memAddr buff len chip
  (len - result.1, result.2)

/-- `at24c_read`: once the chip is addressed, `si2c_rx` clocks in every byte. -/
def at24cRead (memAddr : Nat) (buff : Mem) (len : Nat) (chip : Eeprom) : Nat × Mem × Eeprom :=
  let counted := { chip with transfers := chip.transfers + 1 }
  match chip.ack chip.transfers with
  | none =>
      let cells : Mem := fun offset => chip.cells ((cellAddress memAddr + offset) % 2 ^ 17)
      (len, overlay buff cells 0 len, counted)
  | some _ => (0, buff, counted)

/-- `eeprom_lock`: whether the mutex was obtained within its timeout. -/
def eepromLock (chip : Eeprom) : Bool × Eeprom :=
  (!chip.mutexTimeout chip.locks, { chip with locks := chip.locks + 1 })

/-- `eeprom_write_lock`: 0 on a lock timeout, otherwise 0 exactly when at least
one byte was written. -/
def eepromWriteLock (addr : Nat) (buff : Mem) (len : Nat) (chip : Eeprom) : Int × Eeprom :=
  match eepromLock chip with
  | (false, chip) => (0, chip)
  | (true, chip) =>
      match at24cWrite addr buff len chip with
      | (count, chip) => (if 0 < count then 0 else -1, chip)

/-- `eeprom_read_lock`: 0 on a lock timeout, otherwise 0 exactly when bytes were read. -/
def eepromReadLock (addr : Nat) (buff : Mem) (len : Nat) (chip : Eeprom) : Int × Mem × Eeprom :=
  match eepromLock chip with
  | (false, chip) => (0, buff, chip)
  | (true, chip) =>
      match at24cRead addr buff len chip with
      | (count, buff, chip) => (if 0 < count then 0 else -1, buff, chip)

/-- What a storage read function can do: fill the buffer and return 0, return -1
without touching it, or return 0 without touching it. -/
inductive ReadOutcome where
  | delivered
  | refused
  | skipped
  deriving DecidableEq, Repr

/-- Return value and buffer of a read with the given outcome. -/
def ReadOutcome.result (outcome : ReadOutcome) (stored buff : Mem) (len : Nat) : Int × Mem :=
  match outcome with
  | .delivered => (0, overlay buff stored 0 len)
  | .refused => (-1, buff)
  | .skipped => (0, buff)

/-- The flash read always delivers. -/
theorem flash_read_outcome (addr : Nat) (buff : Mem) (len : Nat) (fmc : NorFlash.Device) :
    FlashController.flashRead addr buff len fmc =
      ReadOutcome.delivered.result (window fmc.mem addr) buff len := rfl

/-- The locked EEPROM read has one of the three outcomes: skipped on a lock
timeout, refused when the chip is not addressed, delivered otherwise. -/
theorem eeprom_read_lock_outcome (addr : Nat) (buff : Mem) (len : Nat) (chip : Eeprom)
    (nonempty : 0 < len) (inside : addr + len ≤ 2 ^ 16) :
    ∃ outcome : ReadOutcome,
      (eepromReadLock addr buff len chip).1 =
          (outcome.result (window chip.cells addr) buff len).1 ∧
        (eepromReadLock addr buff len chip).2.1 =
          (outcome.result (window chip.cells addr) buff len).2 := by
  cases timedOut : chip.mutexTimeout chip.locks with
  | true => exact ⟨.skipped, by simp [eepromReadLock, eepromLock, timedOut, ReadOutcome.result],
      by simp [eepromReadLock, eepromLock, timedOut, ReadOutcome.result]⟩
  | false =>
    cases acked : chip.ack chip.transfers with
    | some count =>
      exact ⟨.refused,
        by simp [eepromReadLock, eepromLock, timedOut, at24cRead, acked, ReadOutcome.result],
        by simp [eepromReadLock, eepromLock, timedOut, at24cRead, acked, ReadOutcome.result]⟩
    | none =>
      have small : cellAddress addr = addr := Nat.mod_eq_of_lt (by omega)
      refine ⟨.delivered, by simp [eepromReadLock, eepromLock, timedOut, at24cRead, acked,
        ReadOutcome.result, nonempty], ?_⟩
      simp only [eepromReadLock, eepromLock, timedOut, at24cRead, acked, Bool.not_false,
        ReadOutcome.result, small]
      funext address
      by_cases covered : 0 ≤ address ∧ address < 0 + len
      · have unwrapped : (addr + (address - 0)) % 2 ^ 17 = addr + (address - 0) :=
          Nat.mod_eq_of_lt (by omega)
        simp only [overlay, covered, and_self, if_true, unwrapped, window]
      · simp only [overlay, if_neg covered]

/-- The chip acknowledges every later transfer and its mutex never times out. -/
def Eeprom.Sound (chip : Eeprom) : Prop :=
  (∀ index, chip.ack index = none) ∧ ∀ index, chip.mutexTimeout index = false

/-- A healthy chip is sound. -/
theorem healthy_sound (cells : Mem) : (Eeprom.healthy cells).Sound :=
  ⟨fun _ => rfl, fun _ => rfl⟩

/-- The page transfers of a write, in the order they are issued. -/
def pagePlan (addr : Nat) (buff : Mem) (len : Nat) : List PageWrite :=
  if len = 0 then []
  else
    ⟨addr, toList buff 0 (pageChunk addr len)⟩ ::
      pagePlan (addr + pageChunk addr len) (window buff (pageChunk addr len))
        (len - pageChunk addr len)
termination_by len
decreasing_by
  have positive := page_chunk_pos addr len ‹_›
  have bounded := page_chunk_le addr len
  omega

/-- The chip after a list of page transfers that were all stored. -/
def Eeprom.perform (chip : Eeprom) (history : List PageWrite) : Eeprom :=
  { chip with
    cells := storePages chip.cells history
    transfers := chip.transfers + history.length
    log := chip.log ++ history }

/-- Two histories stored in turn are their concatenation stored at once. -/
theorem perform_append (chip : Eeprom) (first second : List PageWrite) :
    chip.perform (first ++ second) = (chip.perform first).perform second := by
  simp [Eeprom.perform, storePages, Nat.add_assoc]

/-- A concatenated history is replayed in two parts. -/
theorem store_pages_append (cells : Mem) (first second : List PageWrite) :
    storePages cells (first ++ second) = storePages (storePages cells first) second := by
  simp [storePages, List.foldl_append]

/-- A sound chip stores every page of the write loop and leaves nothing over. -/
theorem at24c_write_loop_sound (addr : Nat) (data : Mem) (remain : Nat) (chip : Eeprom)
    (sound : chip.Sound) (inside : addr + remain ≤ 2 ^ 16) :
    at24cWriteLoop addr data remain chip = (0, chip.perform (pagePlan addr data remain)) := by
  induction remain using Nat.strong_induction_on generalizing addr data chip with
  | _ remain inductionHypothesis =>
    rw [at24cWriteLoop, pagePlan]
    by_cases finished : remain = 0
    · simp [finished, Eeprom.perform, storePages]
    · have positive := page_chunk_pos addr remain finished
      have bounded := page_chunk_le addr remain
      have small : cellAddress addr = addr := Nat.mod_eq_of_lt (by omega)
      have written : writeInPage addr data (pageChunk addr remain) chip =
          (pageChunk addr remain,
            chip.perform [⟨addr, toList data 0 (pageChunk addr remain)⟩]) := by
        simp [writeInPage, sound.1 chip.transfers, small, Eeprom.perform, storePages]
      have rest := inductionHypothesis (remain - pageChunk addr remain) (by omega)
        (addr + pageChunk addr remain) (window data (pageChunk addr remain))
        (chip.perform [⟨addr, toList data 0 (pageChunk addr remain)⟩]) sound (by omega)
      simp only [finished, if_false, written, ne_eq, not_true_eq_false, rest]
      rw [← perform_append]
      rfl

/-- A locked write of a nonempty buffer to the lower half of a sound chip stores
exactly its page plan and reports success. -/
theorem eeprom_write_lock_sound (addr : Nat) (buff : Mem) (len : Nat) (chip : Eeprom)
    (sound : chip.Sound) (nonempty : 0 < len) (inside : addr + len ≤ 2 ^ 16) :
    eepromWriteLock addr buff len chip =
      (0, { chip with locks := chip.locks + 1 }.perform (pagePlan addr buff len)) := by
  have locked : Eeprom.Sound { chip with locks := chip.locks + 1 } := sound
  simp only [eepromWriteLock, eepromLock, sound.2 chip.locks, Bool.not_false, at24cWrite,
    at24c_write_loop_sound addr buff len _ locked inside]
  simp [nonempty]

/-- A completed page plan is one block copy. Induct on the remaining length: the
first page is stored, and the later pages start behind it. -/
theorem page_plan_contents (cells : Mem) (addr : Nat) (buff : Mem) (len : Nat) :
    storePages cells (pagePlan addr buff len) = overlay cells buff addr len := by
  induction len using Nat.strong_induction_on generalizing cells addr buff with
  | _ len inductionHypothesis =>
    rw [pagePlan]
    by_cases finished : len = 0
    · funext address
      rw [overlay_outside cells buff addr len address (by omega)]
      simp [finished, storePages]
    · have positive := page_chunk_pos addr len finished
      have bounded := page_chunk_le addr len
      rw [if_neg finished]
      change storePages (storePage cells _) _ = _
      rw [inductionHypothesis (len - pageChunk addr len) (by omega)]
      funext address
      simp only [overlay, storePage, toList, List.length_map, List.length_range, window, ofList]
      by_cases first : addr ≤ address ∧ address < addr + pageChunk addr len
      · have notLater : ¬(addr + pageChunk addr len ≤ address ∧
            address < addr + pageChunk addr len + (len - pageChunk addr len)) := by omega
        have covered : addr ≤ address ∧ address < addr + len := by omega
        have index : address - addr < pageChunk addr len := by omega
        rw [if_neg notLater, if_pos first, if_pos covered]
        simp [List.getD_eq_getElem?_getD, index]
      · rw [if_neg first]
        by_cases later : addr + pageChunk addr len ≤ address ∧ address < addr + len
        · have reach : addr + pageChunk addr len ≤ address ∧
              address < addr + pageChunk addr len + (len - pageChunk addr len) := by omega
          have covered : addr ≤ address ∧ address < addr + len := by omega
          have position : pageChunk addr len + (address - (addr + pageChunk addr len)) =
              address - addr := by omega
          rw [if_pos reach, if_pos covered, position]
        · have miss : ¬(addr + pageChunk addr len ≤ address ∧
              address < addr + pageChunk addr len + (len - pageChunk addr len)) := by omega
          have outside : ¬(addr ≤ address ∧ address < addr + len) := by omega
          rw [if_neg miss, if_neg outside]

end Pyrometer.EepromStorage
