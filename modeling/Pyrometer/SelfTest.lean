import Pyrometer.RecordLog
import Pyrometer.Runs

/-!
# The self-test of the EEPROM

Each start writes a pattern of 64 bytes, reads it back and compares it. What the write returns is
not looked at, and the pattern stays where it is: a test that has passed once passes again as long
as the chip can be read, even if it takes no write any more, until something else is written over
the pattern. The address of the test lies in the half of the chip that the driver does not reach,
so the pattern goes into the log of working states.

Of `dev_self_check` this test is modelled, on the chip behind the driver; it does not ask for the
mutex.
-/

namespace Pyrometer.SelfTest

open ByteMemory EepromStorage EepromAliasing RecordLog Runs

/-- `MEM_TEST_SIZE`. -/
def memTestSize : Nat := 64

/-- `EEPROM_TEST_ADDR`. -/
def eepromTestAddr : Nat := Area.test.on

/-- The byte that is written and expected. -/
def testByte : Byte := 0x5A

/-- The loop that compares: the bytes that are left when it ends. -/
def compareLoop (data : Mem) : Nat → Nat → Nat
  | _, 0 => 0
  | place, left + 1 => if data place ≠ testByte then left + 1 else compareLoop data (place + 1) left

/-- `eeprom_test`. -/
def eepromTest (chip : Eeprom) : Int × Eeprom :=
  let written := (at24cWrite eepromTestAddr (fun _ => testByte) memTestSize chip).2
  match at24cRead eepromTestAddr (fun _ => 0) memTestSize written with
  | (len, data, chip) =>
      (if len ≠ memTestSize then -1 else if compareLoop data 0 len = 0 then 0 else -1, chip)

/-- A start, or an access of the parameters or of a log. -/
inductive Event where
  | start
  | write (addr : Nat) (data : Mem) (len : Nat)
  | read (addr len : Nat)

/-- One event. -/
def step (chip : Eeprom) : Event → Eeprom
  | .start => (eepromTest chip).2
  | .write addr data len => (at24cWrite addr data len chip).2
  | .read addr len => (at24cRead addr (fun _ => 0) len chip).2.2

/-- The first of the cells that the test writes. -/
def testCell : Nat := 65472

/-- The event writes none of the cells of the test. -/
def Spares : Event → Prop
  | .write addr _ len => ∀ offset < len, cellAddress (addr + offset) < testCell
  | _ => True

/-- The cells of the test hold the pattern. -/
def Patterned (cells : Mem) : Prop :=
  ∀ address, testCell ≤ address → address < testCell + memTestSize → cells address = testByte

/-- The bytes of the pattern that the chip takes. -/
def takenBytes (chip : Eeprom) : Nat :=
  match chip.ack chip.transfers with
  | none => memTestSize
  | some count => min count memTestSize

/-- The loop ends behind the last byte exactly if all are as expected. -/
theorem compare_loop_iff (data : Mem) (left place : Nat) :
    compareLoop data place left = 0 ↔
      ∀ offset < left, data (place + offset) = testByte := by
  induction left generalizing place with
  | zero =>
    constructor
    · intro _ offset inside
      exact absurd inside (Nat.not_lt_zero offset)
    · intro _
      rfl
  | succ left inductionHypothesis =>
    rw [compareLoop]
    by_cases first : data place = testByte
    · rw [if_neg (not_not_intro first), inductionHypothesis]
      constructor
      · intro rest offset inside
        cases offset with
        | zero => exact first
        | succ offset =>
          rw [← Nat.add_assoc, Nat.add_right_comm]
          exact rest offset (Nat.lt_of_succ_lt_succ inside)
      · intro all offset inside
        rw [Nat.add_assoc, Nat.add_comm 1 offset]
        exact all (offset + 1) (Nat.succ_lt_succ inside)
    · rw [if_pos first]
      constructor
      · intro nothing
        cases nothing
      · intro all
        exact absurd (all 0 (Nat.succ_pos left)) first

/-- The pattern is one page transfer. -/
theorem test_written (chip : Eeprom) :
    (at24cWrite eepromTestAddr (fun _ => testByte) memTestSize chip).2 =
      (writeInPage eepromTestAddr (fun _ => testByte) memTestSize chip).2 := by
  have chunk : pageChunk eepromTestAddr memTestSize = memTestSize := by decide
  rw [at24cWrite, at24cWriteLoop, if_neg (by decide)]
  simp only [chunk, Nat.sub_self]
  split
  · rfl
  · rw [at24cWriteLoop, if_pos rfl]

/-- A read leaves the cells. -/
theorem read_cells (addr : Nat) (buff : Mem) (len : Nat) (chip : Eeprom) :
    (at24cRead addr buff len chip).2.2.cells = chip.cells := by
  unfold at24cRead
  cases chip.ack chip.transfers with
  | none => rfl
  | some count => rfl

/-- The cells behind a test are those behind its write. -/
theorem test_stored (chip : Eeprom) :
    (eepromTest chip).2.cells =
      (writeInPage eepromTestAddr (fun _ => testByte) memTestSize chip).2.cells := by
  rw [← test_written]
  exact read_cells eepromTestAddr (fun _ => 0) memTestSize _

/-- The cells behind a test: as many bytes of the pattern as the chip took. -/
theorem test_cells (chip : Eeprom) (address : Nat) :
    (eepromTest chip).2.cells address =
      if testCell ≤ address ∧ address < testCell + takenBytes chip then testByte
      else chip.cells address := by
  have place : cellAddress eepromTestAddr = testCell := by decide
  rw [test_stored]
  change overlay chip.cells (ofList (toList (fun _ => testByte) 0 (takenBytes chip)))
    (cellAddress eepromTestAddr) (toList (fun _ => testByte) 0 (takenBytes chip)).length address = _
  rw [to_list_length, place]
  by_cases inside : testCell ≤ address ∧ address < testCell + takenBytes chip
  · rw [if_pos inside, overlay_inside _ _ _ _ _ inside.1 inside.2,
      of_list_to_list _ _ _ _ (by omega)]
  · rw [if_neg inside, overlay_outside _ _ _ _ _ (by omega)]

/-- The comparison finds the pattern exactly if the cells hold it. -/
theorem compared_iff (cells : Mem) :
    compareLoop (overlay (fun _ => 0)
      (fun offset => cells ((cellAddress eepromTestAddr + offset) % 2 ^ 17)) 0 memTestSize) 0
      memTestSize = 0 ↔ Patterned cells := by
  have fetched : ∀ offset < memTestSize, overlay (fun _ => 0)
      (fun offset => cells ((cellAddress eepromTestAddr + offset) % 2 ^ 17)) 0 memTestSize
      (0 + offset) = cells (testCell + offset) := by
    intro offset inside
    have place : (cellAddress eepromTestAddr + offset) % 2 ^ 17 = testCell + offset := by
      have start : cellAddress eepromTestAddr = testCell := by decide
      simp only [memTestSize] at inside
      rw [start, testCell]
      exact Nat.mod_eq_of_lt (by omega)
    rw [Nat.zero_add, overlay_inside _ _ _ _ _ (Nat.zero_le _) (by omega), Nat.sub_zero, place]
  rw [compare_loop_iff]
  constructor
  · intro all address low high
    have byte := all (address - testCell) (by omega)
    rw [fetched _ (by omega), Nat.add_sub_cancel' low] at byte
    exact byte
  · intro patterned offset inside
    rw [fetched offset inside]
    exact patterned _ (by omega) (by omega)

/-- A test passes exactly if the chip can be read and the pattern is there behind the write. -/
theorem test_passes_iff (chip : Eeprom) :
    (eepromTest chip).1 = 0 ↔
      chip.ack (chip.transfers + 1) = none ∧ Patterned (eepromTest chip).2.cells := by
  rw [test_stored, ← compared_iff]
  simp only [eepromTest, test_written, at24cRead]
  have asked : (writeInPage eepromTestAddr (fun _ => testByte) memTestSize chip).2.ack
      (writeInPage eepromTestAddr (fun _ => testByte) memTestSize chip).2.transfers =
        chip.ack (chip.transfers + 1) := rfl
  rw [asked]
  cases chip.ack (chip.transfers + 1) with
  | some count => simp [memTestSize]
  | none =>
    simp only [ne_eq, not_true_eq_false, if_false, true_and]
    split
    case isTrue equal => exact ⟨fun _ => equal, fun _ => rfl⟩
    case isFalse differ =>
      constructor
      · intro passed
        cases passed
      · intro equal
        exact absurd equal differ

/-- A test leaves a pattern that is there. -/
theorem test_patterned {chip : Eeprom} (patterned : Patterned chip.cells) :
    Patterned (eepromTest chip).2.cells := by
  intro address low high
  rw [test_cells]
  split
  · rfl
  · exact patterned address low high

/-- A page transfer changes only cells that its addresses name. -/
theorem page_spares (addr : Nat) (data : Mem) (len : Nat) (chip : Eeprom) (cell : Nat)
    (inside : cellAddress addr + len ≤ 2 ^ 16)
    (spared : ∀ offset < len, cellAddress (addr + offset) ≠ cell) :
    (writeInPage addr data len chip).2.cells cell = chip.cells cell := by
  obtain ⟨sent, most, stored⟩ : ∃ sent ≤ len, (writeInPage addr data len chip).2.cells =
      storePage chip.cells ⟨cellAddress addr, toList data 0 sent⟩ := by
    cases acked : chip.ack chip.transfers with
    | none => exact ⟨len, Nat.le_refl _, by simp only [writeInPage, acked]⟩
    | some count => exact ⟨min count len, Nat.min_le_right _ _, by simp only [writeInPage, acked]⟩
  rw [stored]
  refine overlay_outside _ _ _ _ _ ?_
  rw [to_list_length]
  change cell < cellAddress addr ∨ cellAddress addr + sent ≤ cell
  by_contra covered
  refine spared (cell - cellAddress addr) (by omega) ?_
  unfold cellAddress at covered inside ⊢
  omega

/-- A write changes only cells that its addresses name, whatever the chip acknowledges. -/
theorem write_loop_spares (addr : Nat) (data : Mem) (remain : Nat) (chip : Eeprom) (cell : Nat)
    (spared : ∀ offset < remain, cellAddress (addr + offset) ≠ cell) :
    (at24cWriteLoop addr data remain chip).2.cells cell = chip.cells cell := by
  induction remain using Nat.strong_induction_on generalizing addr data chip with
  | _ remain inductionHypothesis =>
    rw [at24cWriteLoop]
    by_cases finished : remain = 0
    · rw [if_pos finished]
    · have positive := page_chunk_pos addr remain finished
      have bounded := page_chunk_le addr remain
      have page := page_spares addr data (pageChunk addr remain) chip cell
        (page_chunk_inside addr remain)
        (fun offset below => spared offset (Nat.lt_of_lt_of_le below bounded))
      rw [if_neg finished]
      simp only
      split
      · exact page
      · rw [inductionHypothesis (remain - pageChunk addr remain) (by omega), page]
        intro offset below
        rw [Nat.add_assoc]
        exact spared (pageChunk addr remain + offset) (by omega)

/-- An event that spares the cells of the test leaves the pattern. -/
theorem step_patterned {chip : Eeprom} {event : Event} (patterned : Patterned chip.cells)
    (spares : Spares event) : Patterned (step chip event).cells := by
  cases event with
  | start => exact test_patterned patterned
  | write addr data len =>
    intro address low high
    refine (write_loop_spares addr data len chip address fun offset below => ?_).trans
      (patterned address low high)
    exact Nat.ne_of_lt (Nat.lt_of_lt_of_le (spares offset below) low)
  | read addr len =>
    have same : (step chip (.read addr len)).cells = chip.cells :=
      read_cells addr (fun _ => 0) len chip
    rw [same]
    exact patterned

/-- Once a test has passed, a later one, behind any accesses that do not write the cells of the
test, passes exactly if the chip acknowledges its read. Whether the chip takes its write, or took
any since, makes no difference. -/
theorem self_test_blind (chip : Eeprom) (passed : (eepromTest chip).1 = 0) (events : List Event)
    (spared : ∀ event ∈ events, Spares event) :
    let later := run step (eepromTest chip).2 events
    (eepromTest later).1 = 0 ↔ later.ack (later.transfers + 1) = none := by
  intro later
  have met : Along step (fun _ event => Spares event) (eepromTest chip).2 events :=
    (along_events step (eepromTest chip).2 events).mpr spared
  have preserved : ∀ chip event, Patterned chip.cells → Spares event →
      Patterned (step chip event).cells := fun _ _ before spares => step_patterned before spares
  have patterned : Patterned later.cells :=
    along_invariant step preserved (eepromTest chip).2 ((test_passes_iff chip).mp passed).2 events
      met
  rw [test_passes_iff]
  exact and_iff_left (test_patterned patterned)

/-- A chip that takes one transfer and then only reads. -/
def wornChip : Eeprom :=
  { Eeprom.healthy (fun _ => 0) with
    ack := fun transfer => if transfer = 2 ∨ transfer = 3 then some 0 else none }

/-- The parameters are no longer stored, and the test does not notice. -/
theorem self_test_blind_worn :
    let later := run step (eepromTest wornChip).2 [.write 0 (fun _ => 1) 4]
    later.cells 0 = 0 ∧ takenBytes later = 0 ∧ (eepromTest later).1 = 0 := by
  intro later
  have passed : (eepromTest wornChip).1 = 0 := by decide +kernel
  have spared : ∀ event ∈ [Event.write 0 (fun _ => 1) 4], Spares event := by
    intro event member
    rw [List.mem_singleton.mp member]
    intro offset below
    unfold cellAddress testCell
    omega
  exact ⟨by decide +kernel, by decide +kernel,
    (self_test_blind wornChip passed _ spared).mpr (by decide +kernel)⟩

/-- The byte that a read brings from one place of a readable chip. -/
theorem read_byte (addr : Nat) (buff : Mem) (len : Nat) (chip : Eeprom) (sound : chip.Sound)
    (offset : Nat) (inside : offset < len) :
    (at24cRead addr buff len chip).2.1 offset =
      chip.cells ((cellAddress addr + offset) % 2 ^ 17) := by
  simp only [at24cRead, sound.1 chip.transfers]
  rw [overlay_inside _ _ _ _ _ (Nat.zero_le _) (by omega), Nat.sub_zero]

/-- A test leaves a sound chip sound. -/
theorem test_sound {chip : Eeprom} (sound : chip.Sound) : (eepromTest chip).2.Sound := by
  have written : (writeInPage eepromTestAddr (fun _ => testByte) memTestSize chip).2.Sound :=
    (write_in_page_sound _ _ _ chip sound).2.2
  simp only [eepromTest, test_written, at24cRead, written.1 _]
  exact written

/-- The byte of a record of the working states lies in the cells of the test. -/
def Overwritten (num offset : Nat) : Prop :=
  testCell ≤ RecType.recordAddr .state num + offset ∧
    RecType.recordAddr .state num + offset < testCell + memTestSize

instance (num offset : Nat) : Decidable (Overwritten num offset) :=
  inferInstanceAs (Decidable (_ ∧ _))

/-- A read of a record reaches the cells of the test exactly with the bytes that lie in them. -/
theorem overwritten_iff (num offset : Nat) (inside : offset < RecType.size .state) :
    testCell ≤ (cellAddress (RecType.recordAddr .state num) + offset) % 2 ^ 17 ∧
        (cellAddress (RecType.recordAddr .state num) + offset) % 2 ^ 17 < testCell + memTestSize ↔
      Overwritten num offset := by
  have slots : RecType.capacity .state = 13529 := by decide
  have below : num % 13529 < 13529 := Nat.mod_lt num (by decide)
  have place : RecType.recordAddr .state num = 63360 + num % 13529 * 5 := by
    rw [RecType.recordAddr, slots]
    rfl
  have width : offset < 5 := inside
  rw [Overwritten, place]
  generalize num % 13529 = slot at below
  unfold cellAddress testCell memTestSize
  rcases Nat.lt_or_ge (63360 + slot * 5) (2 ^ 16) with low | high
  · rw [Nat.mod_eq_of_lt low, Nat.mod_eq_of_lt (by omega)]
  · rw [Nat.mod_eq_sub_mod high, Nat.mod_eq_of_lt (by omega), Nat.mod_eq_of_lt (by omega)]
    omega

/-- Each test on a sound chip overwrites the bytes of the records of the working states that lie
in its cells, whatever they hold, and no other byte of these records. What lies below the log of
working states, the parameters, the indices and the other log, reads as before. -/
theorem self_test_wipes_log (chip : Eeprom) (sound : chip.Sound) :
    (∀ num buff offset, offset < RecType.size .state →
        (at24cRead (RecType.recordAddr .state num) buff (RecType.size .state)
            (eepromTest chip).2).2.1 offset =
          if Overwritten num offset then testByte
          else (at24cRead (RecType.recordAddr .state num) buff (RecType.size .state)
            chip).2.1 offset) ∧
      ∀ addr buff len, addr + len ≤ Area.recState.on →
        (at24cRead addr buff len (eepromTest chip).2).2.1 = (at24cRead addr buff len chip).2.1 := by
  have whole : takenBytes chip = memTestSize := by
    rw [takenBytes, sound.1 chip.transfers]
  have later := test_sound sound
  constructor
  · intro num buff offset inside
    rw [read_byte _ _ _ _ later offset inside, read_byte _ _ _ _ sound offset inside, test_cells,
      whole]
    exact if_congr (overwritten_iff num offset inside) rfl rfl
  · intro addr buff len low
    funext place
    by_cases inside : place < len
    · rw [read_byte _ _ _ _ later place inside, read_byte _ _ _ _ sound place inside, test_cells,
        if_neg]
      simp only [Area.on] at low
      unfold cellAddress testCell
      omega
    · simp only [at24cRead, later.1 _, sound.1 _]
      rw [overlay_outside _ _ _ _ _ (by omega), overlay_outside _ _ _ _ _ (by omega)]

/-- A record of the working states that is lost at the next start. -/
theorem self_test_wipes_log_record :
    (at24cRead (RecType.recordAddr .state 430) (fun _ => 0) 5
      (eepromTest (Eeprom.healthy fun _ => 7)).2).2.1 3 = testByte := by
  have lost : Overwritten 430 3 := by decide
  have record := (self_test_wipes_log (Eeprom.healthy fun _ => 7) (healthy_sound _)).1 430
    (fun _ => 0) 3 (by decide)
  rw [if_pos lost] at record
  exact record

end Pyrometer.SelfTest
