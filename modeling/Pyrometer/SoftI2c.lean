import Pyrometer.EepromAliasing

/-!
# EEPROM transfers down to the acknowledge bit

`rx_ack` polls the data line until it is low or 100 polls are over, and then tests
whether its counter stands at zero. A line that never went low has taken the counter
past zero, so a missing acknowledge counts as one; a line that goes low at the last
poll counts as a missing one. `si2c_rx` clocks in bytes whether anybody sends them or
not. `at24c_write` returns the bytes of the pages before the first one that failed, and
`storage.c` answers 0 when that number is not zero, and also when it did not get the
mutex at all.

The device decides at which poll, if at any, the line is low for each byte on the bus.
It takes the bytes of a transfer up to the first one it does not acknowledge, and stores
them at the stop condition. When it was not addressed, the bytes clocked in are noise.
Behaviour is given for each call of `storage.c` and each byte of the call, apart from the
contents.
-/

namespace Pyrometer.SoftI2c

open ByteMemory
open EepromStorage (cellAddress pageChunk page_chunk_pos page_chunk_le)
open EepromAliasing (page_chunk_inside)

/-- `SI2C_ACK_TIMEOUT`. -/
def si2cAckTimeout : Nat := 100

/-- When the data line is low for the acknowledge of a byte: from which poll on. -/
abbrev Low := Option Nat

/-- The line is low at a poll. -/
def Low.at (low : Low) (poll : Nat) : Bool :=
  match low with
  | none => false
  | some start => decide (start ≤ poll)

/-- The loop of `rx_ack`: the value its unsigned counter is left with. -/
def rxAckLoop (low : Low) : Nat → Nat → Nat
  | _, 0 => 2 ^ 32 - 1
  | poll, timeout + 1 => if low.at poll then timeout else rxAckLoop low (poll + 1) timeout

/-- `rx_ack`. -/
def rxAck (low : Low) : Int := if rxAckLoop low 0 si2cAckTimeout = 0 then -1 else 0

/-- The device acknowledges the byte. -/
def Low.acknowledges (low : Low) : Bool := low.at (si2cAckTimeout - 1)

/-- The line goes low at the last poll. -/
def Low.atLastPoll (low : Low) : Bool := low = some (si2cAckTimeout - 1)

/-- The EEPROM during a call: its cells, and how many bytes were on the bus. -/
structure Bus where
  cells : Mem
  sent : Nat

section

variable (line : Nat → Low)

/-- `si2c_tx` of some bytes to a device that listens or not: the number of bytes the
driver takes for transferred, the number the device took, and the bus behind them. -/
def si2cTx : Bool → Nat → Bus → Nat × Nat × Bus
  | _, 0, bus => (0, 0, bus)
  | listening, len + 1, bus =>
      let low := line bus.sent
      let taken := listening && low.acknowledges
      let bus := { bus with sent := bus.sent + 1 }
      if rxAck low ≠ 0 then (0, taken.toNat, bus)
      else
        match si2cTx taken len bus with
        | (count, took, bus) => (count + 1, taken.toNat + took, bus)

/-- `si2c_select`, with whether the device listens then. -/
def si2cSelect (listening : Bool) (bus : Bus) : Int × Bool × Bus :=
  let low := line bus.sent
  (rxAck low, listening && low.acknowledges, { bus with sent := bus.sent + 1 })

/-- `write_in_page`. -/
def writeInPage (memAddr : Nat) (buff : Mem) (len : Nat) (bus : Bus) : Nat × Bus :=
  match si2cSelect line true bus with
  | (selected, listening, bus) =>
      if selected ≠ 0 then (0, bus)
      else
        match si2cTx line listening 2 bus with
        | (count, took, bus) =>
            if count ≠ 2 then (0, bus)
            else
              match si2cTx line (listening && took == 2) len bus with
              | (count, took, bus) =>
                  (count, { bus with cells := overlay bus.cells buff (cellAddress memAddr) took })

/-- The loop of `at24c_write`; the result is what remains unwritten. -/
def at24cWriteLoop (addr : Nat) (data : Mem) (remain : Nat) (bus : Bus) : Nat × Bus :=
  if remain = 0 then (0, bus)
  else
    let size := pageChunk addr remain
    let written := writeInPage line addr data size bus
    if written.1 ≠ size then (remain, written.2)
    else at24cWriteLoop (addr + size) (window data size) (remain - size) written.2
termination_by remain
decreasing_by
  have positive := page_chunk_pos addr remain ‹_›
  have bounded := page_chunk_le addr remain
  omega

/-- `at24c_write`. -/
def at24cWrite (memAddr : Nat) (buff : Mem) (len : Nat) (bus : Bus) : Nat × Bus :=
  let result := at24cWriteLoop line memAddr buff len bus
  (len - result.1, result.2)

/-- `at24c_read`. A device that did not hear all of the addressing sends nothing. -/
def at24cRead (noise : Mem) (memAddr : Nat) (buff : Mem) (len : Nat) (bus : Bus) :
    Nat × Mem × Bus :=
  match si2cSelect line true bus with
  | (selected, listening, bus) =>
      if selected ≠ 0 then (0, buff, bus)
      else
        match si2cTx line listening 2 bus with
        | (count, took, bus) =>
            if count ≠ 2 then (0, buff, bus)
            else
              match si2cSelect line (listening && took == 2) bus with
              | (selected, listening, bus) =>
                  if selected ≠ 0 then (0, buff, bus)
                  else
                    let source : Mem := if listening then
                        fun offset => bus.cells ((cellAddress memAddr + offset) % 2 ^ 17)
                      else noise
                    (len, overlay buff source 0 len, bus)

end

/-- How the device and the mutex behave in each call of `storage.c`: the line for each
byte on the bus, the bytes clocked in when nobody sends, and whether the lock times out. -/
structure Behaviour where
  line : Nat → Nat → Low
  noise : Nat → Mem
  mutexTimeout : Nat → Bool

/-- The EEPROM between calls: its cells, and how many calls there were. -/
structure Chip where
  cells : Mem
  calls : Nat

section

variable (behaviour : Behaviour)

/-- `eeprom_write_lock`. -/
def eepromWriteLock (addr : Nat) (buff : Mem) (len : Nat) (chip : Chip) : Int × Chip :=
  if behaviour.mutexTimeout chip.calls then (0, ⟨chip.cells, chip.calls + 1⟩)
  else
    match at24cWrite (behaviour.line chip.calls) addr buff len ⟨chip.cells, 0⟩ with
    | (count, bus) => (if 0 < count then 0 else -1, ⟨bus.cells, chip.calls + 1⟩)

/-- `eeprom_read_lock`. -/
def eepromReadLock (addr : Nat) (buff : Mem) (len : Nat) (chip : Chip) : Int × Mem × Chip :=
  if behaviour.mutexTimeout chip.calls then (0, buff, ⟨chip.cells, chip.calls + 1⟩)
  else
    match at24cRead (behaviour.line chip.calls) (behaviour.noise chip.calls) addr buff len
        ⟨chip.cells, 0⟩ with
    | (count, buff, bus) => (if 0 < count then 0 else -1, buff, ⟨bus.cells, chip.calls + 1⟩)

end

/-- The loop of `rx_ack` counts down to the poll that finds the line low. -/
theorem rx_ack_loop_some (start poll timeout : Nat) (ahead : poll ≤ start) :
    rxAckLoop (some start) poll timeout =
      if start < poll + timeout then poll + timeout - 1 - start else 2 ^ 32 - 1 := by
  induction timeout generalizing poll with
  | zero => rw [rxAckLoop, if_neg (by omega)]
  | succ timeout inductionHypothesis =>
    simp only [rxAckLoop, Low.at, decide_eq_true_eq]
    by_cases low : start ≤ poll
    · rw [if_pos low, if_pos (by omega)]
      omega
    · rw [if_neg low, inductionHypothesis (poll + 1) (by omega)]
      have same : poll + 1 + timeout = poll + (timeout + 1) := by omega
      rw [same]

/-- A line that is never low takes the counter past zero. -/
theorem rx_ack_loop_none (poll timeout : Nat) : rxAckLoop none poll timeout = 2 ^ 32 - 1 := by
  induction timeout generalizing poll with
  | zero => rfl
  | succ timeout inductionHypothesis => exact inductionHypothesis (poll + 1)

/-- `rx_ack` fails exactly when the line goes low at the last poll. -/
theorem rx_ack_ne_zero (low : Low) : rxAck low ≠ 0 ↔ low.atLastPoll = true := by
  have failed : rxAck low ≠ 0 ↔ rxAckLoop low 0 si2cAckTimeout = 0 := by
    unfold rxAck
    split <;> simp_all
  rw [failed]
  cases low with
  | none =>
    rw [rx_ack_loop_none]
    simp [Low.atLastPoll]
  | some start =>
    rw [rx_ack_loop_some start 0 si2cAckTimeout (Nat.zero_le _)]
    simp only [Low.atLastPoll, decide_eq_true_eq, Option.some.injEq]
    have timeout : si2cAckTimeout = 100 := rfl
    split <;> omega

section

variable {line : Nat → Low}

/-- The driver finds nothing wrong with the next bytes. -/
def Quiet (line : Nat → Low) (bus : Bus) (count : Nat) : Prop :=
  ∀ index < count, (line (bus.sent + index)).atLastPoll = false

/-- The device acknowledges the next bytes. -/
def Heard (line : Nat → Low) (bus : Bus) (count : Nat) : Prop :=
  ∀ index < count, (line (bus.sent + index)).acknowledges = true

/-- The bus some bytes later. -/
def Bus.after (bus : Bus) (count : Nat) : Bus := ⟨bus.cells, bus.sent + count⟩

/-- A property of the next bytes is one of the first and of the rest. -/
theorem next_add (property : Nat → Prop) (start first second : Nat) :
    (∀ index < first + second, property (start + index)) ↔
      (∀ index < first, property (start + index)) ∧
        ∀ index < second, property (start + first + index) := by
  constructor
  · intro all
    refine ⟨fun index below => all index (by omega), fun index below => ?_⟩
    rw [Nat.add_assoc]
    exact all (first + index) (by omega)
  · rintro ⟨early, late⟩ index below
    rcases Nat.lt_or_ge index first with inFirst | inSecond
    · exact early index inFirst
    · have place : start + first + (index - first) = start + index := by omega
      rw [← place]
      exact late (index - first) (by omega)

/-- Bytes the driver finds nothing wrong with, in two parts. -/
theorem quiet_add (bus : Bus) (first second : Nat) :
    Quiet line bus (first + second) ↔ Quiet line bus first ∧ Quiet line (bus.after first) second :=
  next_add (fun index => (line index).atLastPoll = false) bus.sent first second

/-- Acknowledged bytes, in two parts. -/
theorem heard_add (bus : Bus) (first second : Nat) :
    Heard line bus (first + second) ↔ Heard line bus first ∧ Heard line (bus.after first) second :=
  next_add (fun index => (line index).acknowledges = true) bus.sent first second

/-- One byte without a complaint. -/
theorem quiet_one (bus : Bus) : Quiet line bus 1 ↔ (line bus.sent).atLastPoll = false := by
  constructor
  · intro quiet
    exact quiet 0 Nat.zero_lt_one
  · intro first index below
    rw [Nat.lt_one_iff.mp below]
    exact first

/-- One acknowledged byte. -/
theorem heard_one (bus : Bus) : Heard line bus 1 ↔ (line bus.sent).acknowledges = true := by
  constructor
  · intro heard
    exact heard 0 Nat.zero_lt_one
  · intro first index below
    rw [Nat.lt_one_iff.mp below]
    exact first

/-- `rx_ack` succeeds exactly on a byte without a complaint. -/
theorem rx_ack_quiet (bus : Bus) : rxAck (line bus.sent) = 0 ↔ Quiet line bus 1 := by
  rw [quiet_one, ← Bool.not_eq_true, ← rx_ack_ne_zero, not_not]

/-- What `si2c_tx` of one byte more does. -/
theorem si2c_tx_succ (listening : Bool) (len : Nat) (bus : Bus) :
    (Quiet line bus 1 ∧
      si2cTx line listening (len + 1) bus =
        ((si2cTx line (listening && (line bus.sent).acknowledges) len (bus.after 1)).1 + 1,
          (listening && (line bus.sent).acknowledges).toNat +
            (si2cTx line (listening && (line bus.sent).acknowledges) len (bus.after 1)).2.1,
          (si2cTx line (listening && (line bus.sent).acknowledges) len (bus.after 1)).2.2)) ∨
    (¬Quiet line bus 1 ∧
      si2cTx line listening (len + 1) bus =
        (0, (listening && (line bus.sent).acknowledges).toNat, bus.after 1)) := by
  rw [← rx_ack_quiet]
  by_cases acked : rxAck (line bus.sent) = 0
  · refine Or.inl ⟨acked, ?_⟩
    simp [si2cTx, acked, Bus.after]
  · refine Or.inr ⟨acked, ?_⟩
    simp [si2cTx, acked, Bus.after]

/-- `si2c_tx` counts all bytes exactly when the driver found nothing wrong, and the bus is
then all bytes further. -/
theorem si2c_tx_count (listening : Bool) (len : Nat) (bus : Bus) :
    (si2cTx line listening len bus).1 ≤ len ∧
      ((si2cTx line listening len bus).1 = len ↔ Quiet line bus len) ∧
      (Quiet line bus len → (si2cTx line listening len bus).2.2 = bus.after len) := by
  induction len generalizing listening bus with
  | zero =>
    refine ⟨Nat.le_refl _, ⟨fun _ index below => ?_, fun _ => rfl⟩, fun _ => rfl⟩
    exact absurd below (Nat.not_lt_zero _)
  | succ len inductionHypothesis =>
    rw [Nat.add_comm len 1, quiet_add, Nat.add_comm 1 len]
    rcases si2c_tx_succ listening len bus with ⟨quiet, call⟩ | ⟨noisy, call⟩
    · obtain ⟨most, counted, behind⟩ := inductionHypothesis
        (listening && (line bus.sent).acknowledges) (bus.after 1)
      rw [call]
      refine ⟨Nat.succ_le_succ most, ?_, ?_⟩
      · rw [Nat.succ_inj, counted]
        exact ⟨fun rest => ⟨quiet, rest⟩, fun both => both.2⟩
      · rintro ⟨-, rest⟩
        refine (behind rest).trans ?_
        rw [Bus.after, Bus.after, Bus.after, Nat.add_assoc, Nat.add_comm 1 len]
    · rw [call]
      refine ⟨Nat.zero_le _, ⟨fun nothing => ?_, fun both => absurd both.1 noisy⟩,
        fun both => absurd both.1 noisy⟩
      exact absurd nothing (Nat.succ_ne_zero len).symm

/-- `si2c_tx` changes no cell. -/
theorem si2c_tx_cells (listening : Bool) (len : Nat) (bus : Bus) :
    (si2cTx line listening len bus).2.2.cells = bus.cells := by
  induction len generalizing listening bus with
  | zero => rfl
  | succ len inductionHypothesis =>
    rcases si2c_tx_succ listening len bus with ⟨-, call⟩ | ⟨-, call⟩
    · rw [call]
      exact inductionHypothesis _ (bus.after 1)
    · rw [call]
      rfl

/-- A device that does not listen takes nothing. -/
theorem si2c_tx_deaf (len : Nat) (bus : Bus) : (si2cTx line false len bus).2.1 = 0 := by
  induction len generalizing bus with
  | zero => rfl
  | succ len inductionHypothesis =>
    rcases si2c_tx_succ false len bus with ⟨-, call⟩ | ⟨-, call⟩
    · rw [call]
      simpa using inductionHypothesis (bus.after 1)
    · rw [call]
      rfl

/-- A device takes at most the bytes sent. -/
theorem si2c_tx_took_le (listening : Bool) (len : Nat) (bus : Bus) :
    (si2cTx line listening len bus).2.1 ≤ len := by
  induction len generalizing listening bus with
  | zero => exact Nat.le_refl _
  | succ len inductionHypothesis =>
    have one : (listening && (line bus.sent).acknowledges).toNat ≤ 1 := Bool.toNat_le _
    rcases si2c_tx_succ listening len bus with ⟨-, call⟩ | ⟨-, call⟩
    · have rest := inductionHypothesis (listening && (line bus.sent).acknowledges) (bus.after 1)
      rw [call]
      simp only
      omega
    · rw [call]
      simp only
      omega

/-- A listening device takes all bytes exactly when it acknowledges them and the driver
sends them all. -/
theorem si2c_tx_took (len : Nat) (bus : Bus) :
    (si2cTx line true (len + 1) bus).2.1 = len + 1 ↔
      Heard line bus (len + 1) ∧ Quiet line bus len := by
  induction len generalizing bus with
  | zero =>
    have quiet : Quiet line bus 0 := fun index below => absurd below (Nat.not_lt_zero _)
    rw [heard_one]
    rcases si2c_tx_succ true 0 bus with ⟨-, call⟩ | ⟨-, call⟩
    all_goals
      rw [call]
      cases (line bus.sent).acknowledges <;> simp [si2cTx, quiet]
  | succ len inductionHypothesis =>
    have heardSplit : Heard line bus (len + 1 + 1) ↔
        (line bus.sent).acknowledges = true ∧ Heard line (bus.after 1) (len + 1) := by
      rw [Nat.add_comm (len + 1) 1, heard_add, heard_one]
    have quietSplit : Quiet line bus (len + 1) ↔
        Quiet line bus 1 ∧ Quiet line (bus.after 1) len := by
      rw [Nat.add_comm len 1, quiet_add]
    rw [heardSplit, quietSplit]
    rcases si2c_tx_succ true (len + 1) bus with ⟨quiet, call⟩ | ⟨noisy, call⟩
    · rw [call]
      cases (line bus.sent).acknowledges with
      | false => simp [si2c_tx_deaf]
      | true =>
        have rest := inductionHypothesis (bus.after 1)
        simp only [Bool.true_and, Bool.toNat_true, true_and]
        rw [Nat.add_comm 1, Nat.succ_inj, rest]
        exact ⟨fun both => ⟨both.1, quiet, both.2⟩, fun all => ⟨all.1, all.2.2⟩⟩
    · rw [call]
      have one : (true && (line bus.sent).acknowledges).toNat ≤ 1 := Bool.toNat_le _
      simp only
      exact ⟨fun many => absurd many (by omega), fun all => absurd all.2.1 noisy⟩

/-- The driver goes through the device address and the two address bytes exactly when it
finds nothing wrong with them, and the device listens then exactly when it acknowledged
them. -/
theorem addressing (bus : Bus) :
    (Quiet line bus 3 ↔ rxAck (line bus.sent) = 0 ∧
      (si2cTx line (line bus.sent).acknowledges 2 (bus.after 1)).1 = 2) ∧
    (Quiet line bus 3 →
      (si2cTx line (line bus.sent).acknowledges 2 (bus.after 1)).2.2 = bus.after 3 ∧
      (((line bus.sent).acknowledges &&
        (si2cTx line (line bus.sent).acknowledges 2 (bus.after 1)).2.1 == 2) = true ↔
          Heard line bus 3)) := by
  obtain ⟨-, counted, behind⟩ :=
    @si2c_tx_count line (line bus.sent).acknowledges 2 (bus.after 1)
  have quietSplit := @quiet_add line bus 1 2
  have heardSplit := @heard_add line bus 1 2
  refine ⟨?_, ?_⟩
  · rw [rx_ack_quiet, counted]
    exact quietSplit
  · intro quiet
    have parts := quietSplit.mp quiet
    refine ⟨behind parts.2, ?_⟩
    have second := ((quiet_add (bus.after 1) 1 1).mp parts.2).1
    have heardIff : Heard line bus 3 ↔
        (line bus.sent).acknowledges = true ∧ Heard line (bus.after 1) 2 := by
      rw [← heard_one]
      exact heardSplit
    rw [heardIff, Bool.and_eq_true, beq_iff_eq]
    constructor
    · rintro ⟨first, took⟩
      rw [first] at took
      exact ⟨first, ((si2c_tx_took 1 (bus.after 1)).mp took).1⟩
    · rintro ⟨first, rest⟩
      rw [first]
      exact ⟨rfl, (si2c_tx_took 1 (bus.after 1)).mpr ⟨rest, second⟩⟩

/-- A page transfer reaches its data exactly when the driver finds nothing wrong with the
addressing. -/
theorem write_in_page_cases (addr : Nat) (data : Mem) (len : Nat) (bus : Bus) :
    (Quiet line bus 3 ∧ ∃ listening, (listening = true ↔ Heard line bus 3) ∧
      writeInPage line addr data len bus =
        ((si2cTx line listening len (bus.after 3)).1,
          ⟨overlay bus.cells data (cellAddress addr)
            (si2cTx line listening len (bus.after 3)).2.1,
            (si2cTx line listening len (bus.after 3)).2.2.sent⟩)) ∨
    (¬Quiet line bus 3 ∧ (writeInPage line addr data len bus).1 = 0 ∧
      (writeInPage line addr data len bus).2.cells = bus.cells) := by
  obtain ⟨through, reached⟩ := @addressing line bus
  by_cases quiet : Quiet line bus 3
  · obtain ⟨behind, listens⟩ := reached quiet
    obtain ⟨acked, counted⟩ := through.mp quiet
    refine Or.inl ⟨quiet, _, listens, ?_⟩
    change (si2cTx line (line bus.sent).acknowledges 2 ⟨bus.cells, bus.sent + 1⟩).2.2 = _ at behind
    change (si2cTx line (line bus.sent).acknowledges 2 ⟨bus.cells, bus.sent + 1⟩).1 = _ at counted
    simp only [writeInPage, si2cSelect, acked, Bool.true_and, ne_eq, not_true_eq_false, if_false,
      counted, behind, si2c_tx_cells]
    rfl
  · refine Or.inr ⟨quiet, ?_⟩
    rw [through] at quiet
    by_cases acked : rxAck (line bus.sent) = 0
    · have stopped : (si2cTx line (line bus.sent).acknowledges 2
          ⟨bus.cells, bus.sent + 1⟩).1 ≠ 2 := fun counted => quiet ⟨acked, counted⟩
      simp [writeInPage, si2cSelect, acked, stopped, si2c_tx_cells]
    · simp [writeInPage, si2cSelect, acked]

/-- A page transfer of some bytes: the device stores the first ones it took, all of them
exactly when it acknowledged everything and everything was sent; the driver takes the
page for written exactly when it found nothing wrong. -/
theorem write_in_page_spec (addr : Nat) (data : Mem) (len : Nat) (bus : Bus) (positive : 0 < len) :
    ∃ took ≤ len,
      (writeInPage line addr data len bus).2.cells =
        overlay bus.cells data (cellAddress addr) took ∧
      (took = len ↔ Heard line bus (3 + len) ∧ Quiet line bus (2 + len)) ∧
      ((writeInPage line addr data len bus).1 = len ↔ Quiet line bus (3 + len)) ∧
      (Quiet line bus (3 + len) →
        (writeInPage line addr data len bus).2.sent = bus.sent + (3 + len)) := by
  obtain ⟨rest, rfl⟩ : ∃ rest, len = rest + 1 := ⟨len - 1, by omega⟩
  have quietSplit : Quiet line bus (2 + (rest + 1)) ↔
      Quiet line bus 3 ∧ Quiet line (bus.after 3) rest := by
    have sum : 2 + (rest + 1) = 3 + rest := by omega
    rw [sum, quiet_add]
  rw [quietSplit, quiet_add bus 3, heard_add]
  rcases @write_in_page_cases line addr data (rest + 1) bus with
    ⟨quiet, listening, listens, call⟩ | ⟨noisy, none, kept⟩
  · obtain ⟨-, counted, behind⟩ := @si2c_tx_count line listening (rest + 1) (bus.after 3)
    refine ⟨(si2cTx line listening (rest + 1) (bus.after 3)).2.1,
      si2c_tx_took_le listening (rest + 1) (bus.after 3), ?_, ?_, ?_, ?_⟩
    · rw [call]
    · cases listening with
      | false =>
        rw [si2c_tx_deaf]
        constructor
        · intro impossible
          omega
        · rintro ⟨⟨heard, -⟩, -⟩
          exact absurd (listens.mpr heard) Bool.false_ne_true
      | true =>
        rw [si2c_tx_took]
        have heard := listens.mp rfl
        exact ⟨fun both => ⟨⟨heard, both.1⟩, quiet, both.2⟩, fun all => ⟨all.1.2, all.2.2⟩⟩
    · rw [call, counted]
      exact ⟨fun all => ⟨quiet, all⟩, fun all => all.2⟩
    · rintro ⟨-, all⟩
      rw [call, behind all]
      exact Nat.add_assoc _ _ _
  · refine ⟨0, Nat.zero_le _, ?_, ?_, ?_, fun all => absurd all.1 noisy⟩
    · rw [kept]
      funext address
      rw [overlay_outside _ _ _ _ _ (by omega)]
    · exact ⟨fun impossible => absurd impossible (by omega), fun all => absurd all.2.1 noisy⟩
    · rw [none]
      exact ⟨fun impossible => absurd impossible (by omega), fun all => absurd all.1 noisy⟩

/-- How many bytes are on the bus while a transfer is written: for each page the device
address, two address bytes and the data. -/
def busBytes (addr remain : Nat) : Nat :=
  if remain = 0 then 0
  else 3 + pageChunk addr remain +
    busBytes (addr + pageChunk addr remain) (remain - pageChunk addr remain)
termination_by remain
decreasing_by
  have positive := page_chunk_pos addr remain ‹_›
  have bounded := page_chunk_le addr remain
  omega

/-- The bytes of a transfer are its first page's and those of the other pages. -/
theorem bus_bytes_split (addr remain : Nat) (nonzero : remain ≠ 0) :
    busBytes addr remain = 3 + pageChunk addr remain +
      busBytes (addr + pageChunk addr remain) (remain - pageChunk addr remain) := by
  rw [busBytes, if_neg nonzero]

/-- The device acknowledges all bytes of a transfer, and the driver finds nothing wrong
with those before the last. -/
def Taken (line : Nat → Low) (bus : Bus) (addr remain : Nat) : Prop :=
  Heard line bus (busBytes addr remain) ∧ Quiet line bus (busBytes addr remain - 1)

/-- The loop of `at24c_write` leaves no more than there was. -/
theorem write_loop_le (addr : Nat) (data : Mem) (remain : Nat) (bus : Bus) :
    (at24cWriteLoop line addr data remain bus).1 ≤ remain := by
  induction remain using Nat.strong_induction_on generalizing addr data bus with
  | _ remain inductionHypothesis =>
    rw [at24cWriteLoop]
    by_cases finished : remain = 0
    · rw [if_pos finished]
      exact Nat.zero_le _
    · have positive := page_chunk_pos addr remain finished
      have rest := inductionHypothesis (remain - pageChunk addr remain) (by omega)
        (addr + pageChunk addr remain) (window data (pageChunk addr remain))
        (writeInPage line addr data (pageChunk addr remain) bus).2
      rw [if_neg finished]
      simp only
      split
      · exact Nat.le_refl _
      · omega

/-- The loop of `at24c_write` has some bytes to show for itself exactly when the driver
found nothing wrong with the first page. -/
theorem write_loop_progress (addr : Nat) (data : Mem) (remain : Nat) (bus : Bus)
    (nonzero : 0 < remain) :
    (at24cWriteLoop line addr data remain bus).1 < remain ↔
      Quiet line bus (3 + pageChunk addr remain) := by
  have positive := page_chunk_pos addr remain (by omega)
  obtain ⟨-, -, -, -, counted, -⟩ :=
    @write_in_page_spec line addr data (pageChunk addr remain) bus positive
  rw [at24cWriteLoop, if_neg (by omega)]
  by_cases quiet : Quiet line bus (3 + pageChunk addr remain)
  · simp only [counted.mpr quiet, ne_eq, not_true_eq_false, if_false, quiet, iff_true]
    have rest := @write_loop_le line (addr + pageChunk addr remain)
      (window data (pageChunk addr remain)) (remain - pageChunk addr remain)
      (writeInPage line addr data (pageChunk addr remain) bus).2
    omega
  · have stopped : (writeInPage line addr data (pageChunk addr remain) bus).1 ≠
        pageChunk addr remain := fun whole => quiet (counted.mp whole)
    simp only [ne_eq, stopped, not_false_eq_true, if_true, quiet, Nat.lt_irrefl]

/-- A page transfer touches no cell outside of the page's part of the lower half. -/
theorem write_in_page_outside (addr : Nat) (data : Mem) (remain : Nat) (bus : Bus)
    (nonzero : 0 < remain) (address : Nat)
    (outside : address < cellAddress addr ∨ cellAddress addr + pageChunk addr remain ≤ address) :
    (writeInPage line addr data (pageChunk addr remain) bus).2.cells address =
      bus.cells address := by
  have positive := page_chunk_pos addr remain (by omega)
  obtain ⟨took, most, cells, -⟩ :=
    @write_in_page_spec line addr data (pageChunk addr remain) bus positive
  rw [cells, overlay_outside _ _ _ _ _ (by omega)]

/-- The loop of `at24c_write` touches no cell of the upper half, and none outside of a
transfer that fits into the lower one. -/
theorem write_loop_outside (addr : Nat) (data : Mem) (remain : Nat) (bus : Bus) (address : Nat)
    (outside : 2 ^ 16 ≤ address ∨
      (addr + remain ≤ 2 ^ 16 ∧ (address < addr ∨ addr + remain ≤ address))) :
    (at24cWriteLoop line addr data remain bus).2.cells address = bus.cells address := by
  induction remain using Nat.strong_induction_on generalizing addr data bus with
  | _ remain inductionHypothesis =>
    rw [at24cWriteLoop]
    by_cases finished : remain = 0
    · rw [if_pos finished]
    · have positive := page_chunk_pos addr remain finished
      have bounded := page_chunk_le addr remain
      have inside := page_chunk_inside addr remain
      have page := @write_in_page_outside line addr data remain bus (by omega) address (by
        unfold cellAddress at inside ⊢
        omega)
      have rest := inductionHypothesis (remain - pageChunk addr remain) (by omega)
        (addr + pageChunk addr remain) (window data (pageChunk addr remain))
        (writeInPage line addr data (pageChunk addr remain) bus).2 (by omega)
      rw [if_neg finished]
      simp only
      split
      · exact page
      · rw [rest, page]

/-- The cells of a transfer's first page are final when that page was transferred. -/
theorem write_loop_first_page (addr : Nat) (data : Mem) (remain : Nat) (bus : Bus)
    (positive : 0 < remain) (fits : addr + remain ≤ 2 ^ 16) (address : Nat)
    (inFirst : address < addr + pageChunk addr remain) :
    (at24cWriteLoop line addr data remain bus).2.cells address =
      (writeInPage line addr data (pageChunk addr remain) bus).2.cells address := by
  have bounded := page_chunk_le addr remain
  rw [at24cWriteLoop, if_neg (by omega)]
  simp only
  split
  · rfl
  · exact write_loop_outside _ _ _ _ _ (Or.inr ⟨by omega, Or.inl inFirst⟩)

/-- The device takes a transfer exactly when it takes the first page and, unless that was
all, the driver goes on and the device takes the other pages. -/
theorem taken_split (addr remain : Nat) (bus next : Bus) (positive : 0 < remain)
    (behind : next.sent = bus.sent + (3 + pageChunk addr remain)) :
    Taken line bus addr remain ↔
      (Heard line bus (3 + pageChunk addr remain) ∧
        Quiet line bus (2 + pageChunk addr remain)) ∧
      (pageChunk addr remain < remain → Quiet line bus (3 + pageChunk addr remain) ∧
        Taken line next (addr + pageChunk addr remain) (remain - pageChunk addr remain)) := by
  have bounded := page_chunk_le addr remain
  have moved : ∀ count, (Heard line (bus.after (3 + pageChunk addr remain)) count ↔
      Heard line next count) ∧ (Quiet line (bus.after (3 + pageChunk addr remain)) count ↔
      Quiet line next count) := by
    intro count
    simp only [Heard, Quiet, Bus.after, behind, and_self]
  rcases Nat.lt_or_eq_of_le bounded with more | last
  · have another : 1 ≤ busBytes (addr + pageChunk addr remain)
        (remain - pageChunk addr remain) := by
      rw [bus_bytes_split _ _ (by omega)]
      omega
    have before : 3 + pageChunk addr remain + busBytes (addr + pageChunk addr remain)
        (remain - pageChunk addr remain) - 1 = 3 + pageChunk addr remain +
          (busBytes (addr + pageChunk addr remain) (remain - pageChunk addr remain) - 1) := by
      omega
    have shorter : Quiet line bus (3 + pageChunk addr remain) →
        Quiet line bus (2 + pageChunk addr remain) :=
      fun quiet index below => quiet index (by omega)
    rw [Taken, bus_bytes_split addr remain (by omega), before, heard_add, quiet_add,
      (moved _).1, (moved _).2]
    constructor
    · rintro ⟨⟨heard, heardRest⟩, quiet, quietRest⟩
      exact ⟨⟨heard, shorter quiet⟩, fun _ => ⟨quiet, heardRest, quietRest⟩⟩
    · rintro ⟨⟨heard, -⟩, others⟩
      obtain ⟨quiet, heardRest, quietRest⟩ := others more
      exact ⟨⟨heard, heardRest⟩, quiet, quietRest⟩
  · have all : busBytes addr remain = 3 + pageChunk addr remain := by
      rw [bus_bytes_split addr remain (by omega), last, Nat.sub_self, busBytes, if_pos rfl,
        Nat.add_zero]
    have before : 3 + pageChunk addr remain - 1 = 2 + pageChunk addr remain := by omega
    rw [Taken, all, before]
    exact ⟨fun both => ⟨both, fun more => absurd more (by omega)⟩, fun both => both.1⟩

/-- A transfer that fits and that the device takes is stored. Induct on the remaining
length: the first page is stored, and the other pages lie behind it. -/
theorem write_loop_stores (addr : Nat) (data : Mem) (remain : Nat) (bus : Bus)
    (fits : addr + remain ≤ 2 ^ 16) (taken : Taken line bus addr remain) :
    (at24cWriteLoop line addr data remain bus).2.cells = overlay bus.cells data addr remain := by
  induction remain using Nat.strong_induction_on generalizing addr data bus with
  | _ remain inductionHypothesis =>
    rw [at24cWriteLoop]
    by_cases finished : remain = 0
    · rw [if_pos finished]
      funext address
      rw [overlay_outside _ _ _ _ _ (by omega)]
    · have positive := page_chunk_pos addr remain finished
      have bounded := page_chunk_le addr remain
      have place : cellAddress addr = addr := Nat.mod_eq_of_lt (by omega)
      obtain ⟨took, -, cells, all, counted, behind⟩ :=
        @write_in_page_spec line addr data (pageChunk addr remain) bus positive
      have split := fun next same =>
        (@taken_split line addr remain bus next (by omega) same).mp taken
      rw [place, all.mpr (split (bus.after _) rfl).1] at cells
      rw [if_neg finished]
      simp only
      rcases Nat.lt_or_eq_of_le bounded with more | last
      · have quiet := ((split (bus.after _) rfl).2 more).1
        have rest := inductionHypothesis (remain - pageChunk addr remain) (by omega)
          (addr + pageChunk addr remain) (window data (pageChunk addr remain))
          (writeInPage line addr data (pageChunk addr remain) bus).2 (by omega)
          ((split _ (behind quiet)).2 more).2
        rw [counted.mpr quiet, if_neg (by simp), rest, cells]
        funext address
        simp only [overlay, window]
        grind
      · have stop : (at24cWriteLoop line (addr + pageChunk addr remain)
            (window data (pageChunk addr remain)) (remain - pageChunk addr remain)
            (writeInPage line addr data (pageChunk addr remain) bus).2).2 =
              (writeInPage line addr data (pageChunk addr remain) bus).2 := by
          rw [at24cWriteLoop, if_pos (by omega)]
        split
        · rw [cells, last]
        · rw [stop, cells, last]

/-- If the cells of a transfer that fits held other values and hold the data now, except
perhaps for some bytes at the start of the first page, the device took the transfer. -/
theorem write_loop_taken (addr : Nat) (data : Mem) (remain first : Nat) (bus : Bus)
    (fits : addr + remain ≤ 2 ^ 16) (nonzero : 0 < remain) (inPage : first < pageChunk addr remain)
    (different : ∀ offset < remain, bus.cells (addr + offset) ≠ data offset)
    (stored : ∀ offset, first ≤ offset → offset < remain →
      (at24cWriteLoop line addr data remain bus).2.cells (addr + offset) = data offset) :
    Taken line bus addr remain := by
  induction remain using Nat.strong_induction_on generalizing addr data bus first with
  | _ remain inductionHypothesis =>
    have positive := page_chunk_pos addr remain (by omega)
    have bounded := page_chunk_le addr remain
    have place : cellAddress addr = addr := Nat.mod_eq_of_lt (by omega)
    obtain ⟨took, most, cells, all, counted, behind⟩ :=
      @write_in_page_spec line addr data (pageChunk addr remain) bus positive
    rw [place] at cells
    have whole : took = pageChunk addr remain := by
      by_contra fewer
      have final := stored (pageChunk addr remain - 1) (by omega) (by omega)
      rw [write_loop_first_page addr data remain bus nonzero fits _ (by omega), cells,
        overlay_outside _ _ _ _ _ (by omega)] at final
      exact different _ (by omega) final
    have untouched : ∀ offset, pageChunk addr remain ≤ offset →
        (writeInPage line addr data (pageChunk addr remain) bus).2.cells (addr + offset) =
          bus.cells (addr + offset) := by
      intro offset behindPage
      rw [cells, overlay_outside _ _ _ _ _ (by omega)]
    rw [at24cWriteLoop, if_neg (by omega)] at stored
    simp only at stored
    by_cases quiet : Quiet line bus (3 + pageChunk addr remain)
    · rw [taken_split addr remain bus _ nonzero (behind quiet)]
      refine ⟨all.mp whole, fun more => ⟨quiet, ?_⟩⟩
      rw [counted.mpr quiet, if_neg (by simp)] at stored
      refine inductionHypothesis (remain - pageChunk addr remain) (by omega)
        (addr + pageChunk addr remain) (window data (pageChunk addr remain)) 0 _ (by omega)
        (by omega) (page_chunk_pos _ _ (by omega)) ?_ ?_
      · intro offset inside
        rw [Nat.add_assoc, untouched _ (by omega)]
        exact different (pageChunk addr remain + offset) (by omega)
      · intro offset _ inside
        rw [Nat.add_assoc]
        exact stored (pageChunk addr remain + offset) (by omega) (by omega)
    · rw [taken_split addr remain bus (bus.after _) nonzero rfl]
      refine ⟨all.mp whole, fun more => ?_⟩
      rw [if_pos (fun same => quiet (counted.mp same))] at stored
      have final := stored (pageChunk addr remain) (by omega) more
      rw [untouched _ (Nat.le_refl _)] at final
      exact absurd final (different _ more)

/-- A read fetches its bytes exactly when the driver finds nothing wrong with the
addressing; they are the device's exactly when it acknowledged the addressing. -/
theorem at24c_read_cases (noise : Mem) (addr : Nat) (buff : Mem) (len : Nat) (bus : Bus) :
    (Quiet line bus 4 ∧ ∃ listening, (listening = true ↔ Heard line bus 4) ∧
      at24cRead line noise addr buff len bus =
        (len, overlay buff (if listening then
            fun offset => bus.cells ((cellAddress addr + offset) % 2 ^ 17) else noise) 0 len,
          bus.after 4)) ∨
    (¬Quiet line bus 4 ∧ (at24cRead line noise addr buff len bus).1 = 0) := by
  obtain ⟨through, reached⟩ := @addressing line bus
  have quietSplit := @quiet_add line bus 3 1
  have heardSplit := @heard_add line bus 3 1
  have last := @rx_ack_quiet line (bus.after 3)
  by_cases quiet : Quiet line bus 3
  · obtain ⟨behind, listens⟩ := reached quiet
    obtain ⟨acked, counted⟩ := through.mp quiet
    change (si2cTx line (line bus.sent).acknowledges 2 ⟨bus.cells, bus.sent + 1⟩).2.2 = _ at behind
    change (si2cTx line (line bus.sent).acknowledges 2 ⟨bus.cells, bus.sent + 1⟩).1 = _ at counted
    by_cases selected : rxAck (line (bus.after 3).sent) = 0
    · refine Or.inl ⟨quietSplit.mpr ⟨quiet, last.mp selected⟩,
        ((line bus.sent).acknowledges && (si2cTx line (line bus.sent).acknowledges 2
          (bus.after 1)).2.1 == 2) && (line (bus.after 3).sent).acknowledges, ?_, ?_⟩
      · rw [Bool.and_eq_true, listens, ← heard_one]
        exact heardSplit.symm
      · simp only [at24cRead, si2cSelect, acked, Bool.true_and, ne_eq, not_true_eq_false,
          if_false, counted, behind, selected]
        rfl
    · refine Or.inr ⟨fun all => selected (last.mpr (quietSplit.mp all).2), ?_⟩
      simp [at24cRead, si2cSelect, acked, counted, behind, selected]
  · refine Or.inr ⟨fun all => quiet (quietSplit.mp all).1, ?_⟩
    rw [through] at quiet
    by_cases acked : rxAck (line bus.sent) = 0
    · have stopped : (si2cTx line (line bus.sent).acknowledges 2
          ⟨bus.cells, bus.sent + 1⟩).1 ≠ 2 := fun counted => quiet ⟨acked, counted⟩
      simp [at24cRead, si2cSelect, acked, stopped]
    · simp [at24cRead, si2cSelect, acked]

end

end Pyrometer.SoftI2c
