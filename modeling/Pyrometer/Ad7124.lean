import Pyrometer.BinaryFloats
import Pyrometer.SpiRegisters
import Mathlib.Data.List.Nodup

/-!
# The converter of `ad7124.c` and the samples that are read from it

The driver reads and writes the registers of the converter in frames on its serial bus, and polls
the error register before each frame. The converter is the chip of `SpiRegisters` with the
register sizes of the driver's table. Its status, data, identity and error registers are its own:
the first two and the last have any value in any frame, and bit 6 of the error register says
whether a write in that frame is lost.

Delays are left out, and the select pin is high outside the frames. The wait of `sample_task` for
a conversion is not here: a sample is taken when the task gets to it.
-/

namespace Pyrometer.Ad7124

open ByteMemory SpiRegisters

/-- `OP_RW` and `OP_R`. -/
inductive Access where
  | rw
  | r
deriving DecidableEq

/-- `ad7124_reg_t`. -/
structure Reg where
  addr : Nat
  value : Nat
  size : Nat
  rw : Access
deriving DecidableEq

/-- `AD7124_DEF_REG_CFG0`. -/
def defRegCfg : List Reg := [
    ⟨0x00, 0x00, 1, .r⟩, ⟨0x01, 0x05C0, 2, .rw⟩, ⟨0x02, 0x000000, 4, .r⟩,
    ⟨0x03, 0x000000, 3, .rw⟩, ⟨0x04, 0x0000, 2, .rw⟩, ⟨0x05, 0x00, 1, .r⟩,
    ⟨0x06, 0x000000, 3, .r⟩, ⟨0x07, 0x000040, 3, .rw⟩, ⟨0x08, 0x00, 1, .r⟩,
    ⟨0x09, 0x8011, 2, .rw⟩, ⟨0x0A, 0x0001, 2, .rw⟩, ⟨0x0B, 0x8051, 2, .rw⟩,
    ⟨0x0C, 0x0001, 2, .rw⟩, ⟨0x0D, 0x9091, 2, .rw⟩, ⟨0x0E, 0x0001, 2, .rw⟩,
    ⟨0x0F, 0x90D1, 2, .rw⟩, ⟨0x10, 0x0001, 2, .rw⟩, ⟨0x11, 0x0001, 2, .rw⟩,
    ⟨0x12, 0x0001, 2, .rw⟩, ⟨0x13, 0x0001, 2, .rw⟩, ⟨0x14, 0x0001, 2, .rw⟩,
    ⟨0x15, 0x0001, 2, .rw⟩, ⟨0x16, 0x0001, 2, .rw⟩, ⟨0x17, 0x0001, 2, .rw⟩,
    ⟨0x18, 0x0001, 2, .rw⟩, ⟨0x19, 0x0060, 2, .rw⟩, ⟨0x1A, 0x0060, 2, .rw⟩,
    ⟨0x1B, 0x8060, 2, .rw⟩, ⟨0x1C, 0x0060, 2, .rw⟩, ⟨0x1D, 0x0060, 2, .rw⟩,
    ⟨0x1E, 0x0060, 2, .rw⟩, ⟨0x1F, 0x0060, 2, .rw⟩, ⟨0x20, 0x0060, 2, .rw⟩,
    ⟨0x21, 0x06001E, 3, .rw⟩, ⟨0x22, 0x060001, 3, .rw⟩, ⟨0x23, 0x06001E, 3, .rw⟩,
    ⟨0x24, 0x060180, 3, .rw⟩, ⟨0x25, 0x060180, 3, .rw⟩, ⟨0x26, 0x060180, 3, .rw⟩,
    ⟨0x27, 0x060180, 3, .rw⟩, ⟨0x28, 0x060180, 3, .rw⟩, ⟨0x29, 0x8003F8, 3, .rw⟩,
    ⟨0x2A, 0x800000, 3, .rw⟩, ⟨0x2B, 0x7FFE80, 3, .rw⟩, ⟨0x2C, 0x800000, 3, .rw⟩,
    ⟨0x2D, 0x800000, 3, .rw⟩, ⟨0x2E, 0x800000, 3, .rw⟩, ⟨0x2F, 0x800000, 3, .rw⟩,
    ⟨0x30, 0x800000, 3, .rw⟩, ⟨0x31, 0x500000, 3, .rw⟩, ⟨0x32, 0x500000, 3, .rw⟩,
    ⟨0x33, 0x500000, 3, .rw⟩, ⟨0x34, 0x500000, 3, .rw⟩, ⟨0x35, 0x500000, 3, .rw⟩,
    ⟨0x36, 0x500000, 3, .rw⟩, ⟨0x37, 0x500000, 3, .rw⟩, ⟨0x38, 0x500000, 3, .rw⟩]

/-- `AD7124_REG_CNT`. -/
def regCnt : Nat := 0x39

/-- `AD7124_REG_STAT`. -/
def regStat : Nat := 0x00

/-- `AD7124_REG_ADC_CTRL`. -/
def regAdcCtrl : Nat := 0x01

/-- `AD7124_REG_DATA`. -/
def regData : Nat := 0x02

/-- `AD7124_REG_ID`. -/
def regId : Nat := 0x05

/-- `AD7124_REG_ERR`. -/
def regErr : Nat := 0x06

/-- `AD7124_REG_OFFS0`. -/
def regOffs0 : Nat := 0x29

/-- `AD7124_REG_OFFS2`. -/
def regOffs2 : Nat := 0x2B

/-- `AD7124_REG_OFFS7`. -/
def regOffs7 : Nat := 0x30

/-- An entry of the default table. -/
def reg (addr : Nat) : Reg := defRegCfg.getD addr ⟨0, 0, 0, .r⟩

/-- What the converter shows of itself, frame by frame. -/
structure Signals where
  error : Nat → Nat
  status : Nat → Nat
  data : Nat → Nat
  id : Nat
  powerUp : Nat → Nat

/-- The registers that are the converter's own. -/
def Signals.live (signals : Signals) (frame addr : Nat) : Option Nat :=
  if addr = regStat then some (signals.status frame)
  else if addr = regData then some (signals.data frame)
  else if addr = regId then some signals.id
  else if addr = regErr then some (signals.error frame)
  else none

/-- The converter as a chip with registers. -/
def Signals.world (signals : Signals) : World where
  width addr := (reg addr).size
  powerUp := signals.powerUp
  live := signals.live
  ignoring frame := (signals.error frame).testBit 6

/-- `RD_REGISTER`. -/
def rdRegister (addr : Nat) : Byte := (BitVec.ofNat 8 addr &&& 0x3F) ||| 0x40

/-- `WR_REGISTER`. -/
def wrRegister (addr : Nat) : Byte := (BitVec.ofNat 8 addr &&& 0x3F) &&& ~~~0x40

/-- The loop of `read_reg` that builds the result. -/
def buildResult (buff : List Byte) : BitVec 32 :=
  buff.foldl (fun result byte => result <<< 8 ||| byte.zeroExtend 32) 0

/-- The loop of `write_reg` that fills the buffer from its end. -/
def fillBuff : Nat → Nat → List Byte → List Byte
  | 0, _, buff => buff
  | left + 1, val, buff => fillBuff left (val / 2 ^ 8) (BitVec.ofNat 8 val :: buff)

section

variable (signals : Signals)

/-- The frame of `read_reg`. -/
def readFrame (addr : Nat) (chip : Chip) : Nat × Chip :=
  match chip.take signals.world (rdRegister addr :: List.replicate (reg addr).size 0) with
  | (buff, chip) => ((buildResult buff.tail).toNat, chip)

/-- `wait_spi_ready` with the polls that are left. -/
def waitSpiReady : Nat → Chip → Int × Chip
  | 0, chip => (-1, chip)
  | left + 1, chip =>
      match readFrame signals regErr chip with
      | (aux, chip) => if aux.testBit 6 = false then (0, chip) else waitSpiReady left chip

/-- `read_reg`; no value where it returns -1. -/
def readReg (addr : Nat) (chip : Chip) : Option Nat × Chip :=
  if regCnt ≤ addr then (none, chip)
  else if addr = regErr then
    match readFrame signals addr chip with
    | (aux, chip) => (some aux, chip)
  else
    match waitSpiReady signals 300 chip with
    | (ready, chip) =>
        if ready ≠ 0 then (none, chip)
        else
          match readFrame signals addr chip with
          | (aux, chip) => (some aux, chip)

/-- `write_reg`. -/
def writeReg (addr val : Nat) (chip : Chip) : Int × Chip :=
  if regCnt ≤ addr then (-1, chip)
  else if (reg addr).rw = .r then (-1, chip)
  else
    match waitSpiReady signals 300 chip with
    | (ready, chip) =>
        if ready ≠ 0 then (-1, chip)
        else (0, (chip.take signals.world (wrRegister addr :: fillBuff (reg addr).size val [])).2)

/-- `AD7124_ADC_CTRL_MODE`. -/
def adcCtrlMode (mode : Nat) : Nat := (mode &&& 0xF) <<< 2

/-- `ad7124_set_mode`. -/
def ad7124SetMode (opMode : Nat) (chip : Chip) : Int × Chip :=
  match readReg signals regAdcCtrl chip with
  | (none, chip) => (-1, chip)
  | (some aux, chip) =>
      match writeReg signals regAdcCtrl
        (aux &&& (2 ^ 32 - 1 - adcCtrlMode 0xF) ||| adcCtrlMode opMode) chip with
      | (ret, chip) => (if ret ≠ 0 then -1 else 0, chip)

/-- `ad7124_reset`. -/
def ad7124Reset (chip : Chip) : Chip := (chip.take signals.world (List.replicate 8 255)).2

/-- `ad7124_wait_power_on` with the polls that are left. -/
def ad7124WaitPowerOn : Nat → Chip → Int × Chip
  | 0, chip => (-1, chip)
  | left + 1, chip =>
      match readReg signals regStat chip with
      | (none, chip) => ad7124WaitPowerOn left chip
      | (some aux, chip) =>
          if aux.testBit 4 = false then (0, chip) else ad7124WaitPowerOn left chip

/-- `ad7124_read_id`. -/
def ad7124ReadId (chip : Chip) : Int × Chip :=
  match readReg signals regId chip with
  | (none, chip) => (-1, chip)
  | (some id, chip) => (if id = 0x07 ∨ id = 0x04 then 0 else -1, chip)

/-- `ad7124_reg_cfg0` as `ad7124_init` fills it. -/
def regCfg (offs0 offs2 : Nat) : List Reg :=
  (defRegCfg.modify regOffs0 fun entry => { entry with value := offs0 }).modify regOffs2
    fun entry => { entry with value := offs2 }

/-- The loop of `ad7124_init` over the entries that are left. -/
def writeDefaults : List Reg → Chip → Int × Chip
  | [], chip => (0, chip)
  | entry :: rest, chip =>
      if entry.rw = .rw then
        match writeReg signals entry.addr entry.value chip with
        | (ret, chip) => if ret ≠ 0 then (-4, chip) else writeDefaults rest chip
      else writeDefaults rest chip

/-- `ad7124_init`. -/
def ad7124Init (offs0 offs2 : Nat) (chip : Chip) : Int × Chip :=
  match ad7124WaitPowerOn signals 300 (ad7124Reset signals chip) with
  | (ret, chip) =>
      if ret ≠ 0 then (-1, chip)
      else
        match ad7124ReadId signals chip with
        | (ret, chip) =>
            if ret ≠ 0 then (-2, chip)
            else
              match ad7124SetMode signals 4 chip with
              | (ret, chip) =>
                  if ret ≠ 0 then (-3, chip)
                  else
                    match writeDefaults signals ((regCfg offs0 offs2).take regOffs7) chip with
                    | (ret, chip) =>
                        if ret ≠ 0 then (-4, chip)
                        else
                          match ad7124SetMode signals 0 chip with
                          | (ret, chip) => (if ret ≠ 0 then -5 else 0, chip)

/-- The voltages that `sample_task` fills in. -/
structure Volts where
  specNb : Nat
  specWb : Nat
  ntcSpec : Nat
  ntcTia : Nat

/-- The channels whose conversions are kept. -/
def Routed (chActive : Nat) : Prop :=
  chActive = 0 ∨ chActive = 2 ∨ chActive = 4 ∨ chActive = 6

instance (chActive : Nat) : Decidable (Routed chActive) :=
  inferInstanceAs (Decidable (_ ∨ _))

/-- The voltage of a channel. -/
def Volts.channel (volts : Volts) (chActive : Nat) : Option Nat :=
  if chActive = 0 then some volts.specNb
  else if chActive = 2 then some volts.specWb
  else if chActive = 4 then some volts.ntcSpec
  else if chActive = 6 then some volts.ntcTia
  else none

variable {signals}

/-- The entries stand at their addresses. -/
theorem reg_addr (addr : Nat) (small : addr < regCnt) : (reg addr).addr = addr := by
  revert addr
  decide

/-- No register has more bytes than a word. -/
theorem reg_size (addr : Nat) : (reg addr).size ≤ 4 := by
  by_cases small : addr < regCnt
  · revert addr
    decide
  · have absent : defRegCfg[addr]? = none :=
      List.getElem?_eq_none (by simpa [defRegCfg, regCnt] using small)
    simp [reg, absent]

/-- The command of a read. -/
theorem rd_register (addr : Nat) (small : addr < regCnt) :
    (rdRegister addr).toNat = 64 + addr := by
  revert addr
  decide

/-- The command of a write. -/
theorem wr_register (addr : Nat) (small : addr < regCnt) : (wrRegister addr).toNat = addr := by
  revert addr
  decide

/-- A byte moves into a word that has room for it. -/
theorem shift_byte {result : BitVec 32} (byte : Byte) (room : result.toNat < 2 ^ 24) :
    (result <<< 8 ||| byte.zeroExtend 32).toNat = result.toNat * 256 + byte.toNat := by
  have small := byte.isLt
  have moved : result.toNat <<< 8 % 2 ^ 32 = result.toNat <<< 8 := by
    rw [Nat.shiftLeft_eq]
    omega
  rw [BitVec.toNat_or, BitVec.toNat_shiftLeft, BitVec.toNat_setWidth, moved,
    Nat.mod_eq_of_lt (show byte.toNat < 2 ^ 32 by omega),
    ← Nat.shiftLeft_add_eq_or_of_lt (by omega), Nat.shiftLeft_eq]

/-- Up to four bytes are built into the number that they write. -/
theorem build_result (buff : List Byte) (short : buff.length ≤ 4) :
    (buildResult buff).toNat = bigEndian buff := by
  induction buff using List.reverseRecOn with
  | nil => rfl
  | append_singleton buff byte inductionHypothesis =>
    rw [List.length_append, List.length_singleton] at short
    have rest := inductionHypothesis (by omega)
    have room : bigEndian buff < 2 ^ 24 :=
      calc bigEndian buff < 256 ^ buff.length := big_endian_lt buff
        _ ≤ 256 ^ 3 := Nat.pow_le_pow_right (by decide) (by omega)
        _ = 2 ^ 24 := by decide
    have step : buildResult (buff ++ [byte]) =
        buildResult buff <<< 8 ||| byte.zeroExtend 32 := by simp [buildResult]
    rw [step, shift_byte byte (by rw [rest]; exact room), rest, big_endian_snoc]

/-- The buffer is filled with the bytes of the value, the most significant one first. -/
theorem fill_buff (size val : Nat) (buff : List Byte) :
    fillBuff size val buff = beBytes size val ++ buff := by
  induction size generalizing val buff with
  | zero => rfl
  | succ size inductionHypothesis =>
    rw [fillBuff, inductionHypothesis]
    simp [beBytes, leBytes]

/-- A read gives what fits of the value of the register and changes nothing. -/
theorem read_frame (addr : Nat) (small : addr < regCnt) (chip : Chip) :
    readFrame signals addr chip = (chip.value signals.world addr % 256 ^ (reg addr).size,
      ⟨chip.registers, chip.frames + 1⟩) := by
  have fits := reg_size addr
  rw [readFrame, take_read chip _ (by unfold regCnt at small; omega) (rd_register addr small)
    (by simp [Signals.world])]
  change (_, _) = _
  rw [List.tail_cons, build_result _ (by simpa [Signals.world] using fits), big_endian_be_bytes]
  rfl

/-- The chip hears the frame that comes. -/
def Listening (signals : Signals) (chip : Chip) : Prop :=
  (signals.error chip.frames).testBit 6 = false

/-- A converter that has begun to listen goes on listening. -/
def Settles (signals : Signals) : Prop :=
  ∀ frame, (signals.error frame).testBit 6 = false →
    (signals.error (frame + 1)).testBit 6 = false

/-- The error register is read in one frame. -/
theorem read_error (chip : Chip) :
    readFrame signals regErr chip =
      (signals.error chip.frames % 2 ^ 24, ⟨chip.registers, chip.frames + 1⟩) :=
  read_frame regErr (by decide) chip

/-- The poll sees the bit that it asks for. -/
theorem error_bit (frame : Nat) :
    (signals.error frame % 2 ^ 24).testBit 6 = (signals.error frame).testBit 6 := by
  rw [Nat.testBit_mod_two_pow]
  rfl

/-- Polling changes no register. It succeeds behind a frame in which the chip listened, and fails
when all polls are used up. -/
theorem wait_spi_ready (polls : Nat) (chip : Chip) :
    ∃ ready frames, waitSpiReady signals polls chip = (ready, ⟨chip.registers, frames⟩) ∧
      ((ready = 0 ∧ chip.frames < frames ∧ (signals.error (frames - 1)).testBit 6 = false) ∨
        (ready = -1 ∧ frames = chip.frames + polls)) := by
  induction polls generalizing chip with
  | zero => exact ⟨-1, chip.frames, rfl, .inr ⟨rfl, rfl⟩⟩
  | succ polls inductionHypothesis =>
    rw [waitSpiReady, read_error]
    simp only [error_bit]
    by_cases listens : (signals.error chip.frames).testBit 6 = false
    · rw [if_pos listens]
      exact ⟨0, _, rfl, .inl ⟨rfl, Nat.lt_succ_self _, listens⟩⟩
    · rw [if_neg listens]
      obtain ⟨ready, frames, result, outcome⟩ :=
        inductionHypothesis ⟨chip.registers, chip.frames + 1⟩
      refine ⟨ready, frames, result, outcome.imp ?_ ?_⟩
      · rintro ⟨done, later, heard⟩
        exact ⟨done, by change chip.frames + 1 < frames at later; omega, heard⟩
      · rintro ⟨failed, all⟩
        exact ⟨failed, by change frames = chip.frames + 1 + polls at all; omega⟩

/-- A chip that listens is found ready at the first poll. -/
theorem wait_listening {polls : Nat} (positive : 0 < polls) {chip : Chip}
    (listens : Listening signals chip) :
    waitSpiReady signals polls chip = (0, ⟨chip.registers, chip.frames + 1⟩) := by
  obtain ⟨left, rfl⟩ := Nat.exists_eq_succ_of_ne_zero (Nat.ne_of_gt positive)
  rw [waitSpiReady, read_error]
  simp only [error_bit]
  exact if_pos listens

/-- A read from a chip that listens. -/
theorem read_reg_listening {addr : Nat} (small : addr < regCnt) (other : addr ≠ regErr)
    {chip : Chip} (listens : Listening signals chip) :
    readReg signals addr chip =
      (some (Chip.value signals.world ⟨chip.registers, chip.frames + 1⟩ addr %
        256 ^ (reg addr).size), ⟨chip.registers, chip.frames + 2⟩) := by
  rw [readReg, if_neg (by omega), if_neg other, wait_listening (by decide) listens]
  simp only [read_frame addr small]
  rfl

/-- A write to a chip that listens. -/
theorem write_reg_listening (settles : Settles signals) {addr : Nat} (small : addr < regCnt)
    (writable : (reg addr).rw = .rw) (val : Nat) {chip : Chip}
    (listens : Listening signals chip) :
    writeReg signals addr val chip =
      (0, ⟨Function.update chip.registers addr (val % 256 ^ (reg addr).size),
        chip.frames + 2⟩) := by
  rw [writeReg, if_neg (by omega), if_neg (by rw [writable]; decide),
    wait_listening (by decide) listens]
  simp only [ne_eq, not_true_eq_false, if_false, fill_buff, List.append_nil]
  have written := @take_write signals.world ⟨chip.registers, chip.frames + 1⟩ (wrRegister addr)
    addr val (by unfold regCnt at small; omega) (wr_register addr small) (settles _ listens)
  exact congrArg (Prod.mk 0) written

/-- The control register with another mode. -/
def withMode (opMode aux : Nat) : Nat :=
  aux &&& (2 ^ 32 - 1 - adcCtrlMode 0xF) ||| adcCtrlMode opMode

/-- The mode is set in a chip that listens; nothing else is written. -/
theorem set_mode_listening (settles : Settles signals) (opMode : Nat) {chip : Chip}
    (listens : Listening signals chip) :
    ad7124SetMode signals opMode chip =
      (0, ⟨Function.update chip.registers regAdcCtrl
        (withMode opMode (chip.registers regAdcCtrl % 2 ^ 16) % 2 ^ 16), chip.frames + 4⟩) := by
  have later : Listening signals ⟨chip.registers, chip.frames + 2⟩ :=
    settles _ (settles _ listens)
  have written := @write_reg_listening signals settles regAdcCtrl (by decide) (by decide)
    (withMode opMode (chip.registers regAdcCtrl % 2 ^ 16)) _ later
  rw [ad7124SetMode, read_reg_listening (by decide) (by decide) listens]
  change (match writeReg signals regAdcCtrl
    (withMode opMode (chip.registers regAdcCtrl % 2 ^ 16)) _ with
    | (ret, chip) => (if ret ≠ 0 then (-1 : Int) else 0, chip)) = _
  rw [written]
  rfl

/-- The registers after the writable ones of some entries were written. -/
def programmed : List Reg → (Nat → Nat) → Nat → Nat
  | [], registers => registers
  | entry :: rest, registers =>
      programmed rest (if entry.rw = .rw then Function.update registers entry.addr
        (entry.value % 256 ^ (reg entry.addr).size) else registers)

/-- Entries that agree with the table are all written to a chip that listens. -/
theorem write_defaults_listening (settles : Settles signals) (entries : List Reg)
    (known : ∀ entry ∈ entries, entry.addr < regCnt ∧ (reg entry.addr).rw = entry.rw)
    {chip : Chip} (listens : Listening signals chip) :
    ∃ frames, writeDefaults signals entries chip =
        (0, ⟨programmed entries chip.registers, frames⟩) ∧
      Listening signals ⟨programmed entries chip.registers, frames⟩ := by
  induction entries generalizing chip with
  | nil => exact ⟨chip.frames, rfl, listens⟩
  | cons entry rest inductionHypothesis =>
    obtain ⟨small, same⟩ := known entry List.mem_cons_self
    have others := fun entry inside => known entry (List.mem_cons_of_mem _ inside)
    rw [writeDefaults, programmed]
    by_cases writable : entry.rw = .rw
    · have written := @write_reg_listening signals settles entry.addr small (by rw [same, writable])
        entry.value _ listens
      have later : Listening signals ⟨Function.update chip.registers entry.addr
          (entry.value % 256 ^ (reg entry.addr).size), chip.frames + 2⟩ :=
        settles _ (settles _ listens)
      rw [if_pos writable, if_pos writable, written]
      exact inductionHypothesis others later
    · rw [if_neg writable, if_neg writable]
      exact inductionHypothesis others listens

/-- A register that no writable entry names keeps its value. -/
theorem programmed_other (entries : List Reg) (registers : Nat → Nat) (addr : Nat)
    (absent : ∀ entry ∈ entries, entry.rw = .rw → entry.addr ≠ addr) :
    programmed entries registers addr = registers addr := by
  induction entries generalizing registers with
  | nil => rfl
  | cons entry rest inductionHypothesis =>
    rw [programmed, inductionHypothesis _
      fun other inside => absent other (List.mem_cons_of_mem _ inside)]
    by_cases writable : entry.rw = .rw
    · rw [if_pos writable, Function.update_of_ne (absent entry List.mem_cons_self writable).symm]
    · rw [if_neg writable]

/-- A register that a writable entry names takes its value, where no two entries name one. -/
theorem programmed_entry (entries : List Reg) (registers : Nat → Nat)
    (apart : (entries.map Reg.addr).Nodup) {entry : Reg} (inside : entry ∈ entries)
    (writable : entry.rw = .rw) :
    programmed entries registers entry.addr = entry.value % 256 ^ (reg entry.addr).size := by
  induction entries generalizing registers with
  | nil => exact absurd inside List.not_mem_nil
  | cons first rest inductionHypothesis =>
    rw [List.map_cons, List.nodup_cons] at apart
    rw [programmed]
    rcases List.mem_cons.mp inside with rfl | later
    · rw [if_pos writable, programmed_other, Function.update_self]
      intro other inside _ same
      exact apart.1 (same ▸ List.mem_map_of_mem inside)
    · exact inductionHypothesis _ apart.2 later

/-- What `ad7124_init` puts into a register. -/
def configured (offs0 offs2 addr : Nat) : Nat :=
  if addr = regOffs0 then offs0 % 2 ^ 24
  else if addr = regOffs2 then offs2 % 2 ^ 24
  else (reg addr).value

/-- The registers that `ad7124_init` writes. -/
def Written (addr : Nat) : Prop := addr < regOffs7 ∧ (reg addr).rw = .rw

instance (addr : Nat) : Decidable (Written addr) := inferInstanceAs (Decidable (_ ∧ _))

/-- The value that an entry has once the parameters are filled in. -/
def setValue (offs0 offs2 addr : Nat) : Nat :=
  if addr = regOffs2 then offs2 else if addr = regOffs0 then offs0 else (reg addr).value

/-- The entries of the table in use differ from the default ones in their value only. -/
theorem reg_cfg_entry (offs0 offs2 addr : Nat) (small : addr < regCnt) :
    (regCfg offs0 offs2)[addr]? =
      some { reg addr with value := setValue offs0 offs2 addr } := by
  have known : defRegCfg[addr]? = some (reg addr) := by
    have inside : addr < defRegCfg.length := small
    rw [reg, List.getD_eq_getElem?_getD, List.getElem?_eq_getElem inside, Option.getD_some]
  rw [regCfg, List.getElem?_modify, List.getElem?_modify, known, setValue]
  by_cases first : addr = regOffs0
  · subst first
    rfl
  · by_cases second : addr = regOffs2
    · subst second
      rfl
    · simp [first, second, Ne.symm first, Ne.symm second]

/-- The entries that the loop goes through are those below the last offset. -/
theorem mem_written_entries {offs0 offs2 : Nat} {entry : Reg}
    (inside : entry ∈ (regCfg offs0 offs2).take regOffs7) :
    ∃ addr < regOffs7, entry = { reg addr with value := setValue offs0 offs2 addr } := by
  obtain ⟨addr, found⟩ := List.mem_iff_getElem?.mp inside
  rw [List.getElem?_take] at found
  split at found
  case isTrue below =>
    rw [reg_cfg_entry offs0 offs2 addr (Nat.lt_trans below (by decide))] at found
    exact ⟨addr, below, (Option.some.inj found).symm⟩
  case isFalse => exact absurd found (by simp)

/-- No two of them name one register. -/
theorem written_entries_apart (offs0 offs2 : Nat) :
    (((regCfg offs0 offs2).take regOffs7).map Reg.addr).Nodup := by
  have addresses : ((regCfg offs0 offs2).take regOffs7).map Reg.addr = List.range 0x30 := rfl
  rw [addresses]
  exact List.nodup_range

/-- A value of the table fits its register. -/
theorem value_fits (addr : Nat) (small : addr < regCnt) :
    (reg addr).value % 256 ^ (reg addr).size = (reg addr).value := by
  revert addr
  decide

/-- What fits of the value in use is what is configured. -/
theorem set_value_fits (offs0 offs2 addr : Nat) (small : addr < regCnt) :
    setValue offs0 offs2 addr % 256 ^ (reg addr).size = configured offs0 offs2 addr := by
  unfold setValue configured
  by_cases first : addr = regOffs0
  · subst first
    rfl
  · by_cases second : addr = regOffs2
    · subst second
      rfl
    · rw [if_neg second, if_neg first, if_neg first, if_neg second, value_fits addr small]

/-- The loop puts what is configured into the registers that `ad7124_init` writes, and leaves
the others. -/
theorem programmed_defaults (offs0 offs2 : Nat) (registers : Nat → Nat) (addr : Nat) :
    programmed ((regCfg offs0 offs2).take regOffs7) registers addr =
      if Written addr then configured offs0 offs2 addr else registers addr := by
  by_cases written : Written addr
  · obtain ⟨below, writable⟩ := written
    have small : addr < regCnt := Nat.lt_trans below (by decide)
    have inside : { reg addr with value := setValue offs0 offs2 addr } ∈
        (regCfg offs0 offs2).take regOffs7 := by
      apply List.mem_iff_getElem?.mpr
      exact ⟨addr, by rw [List.getElem?_take, if_pos below, reg_cfg_entry _ _ _ small]⟩
    have taken := programmed_entry _ registers (written_entries_apart offs0 offs2) inside writable
    rw [reg_addr addr small] at taken
    rw [if_pos ⟨below, writable⟩, taken]
    exact set_value_fits offs0 offs2 addr small
  · rw [if_neg written]
    apply programmed_other
    rintro entry inside writable rfl
    obtain ⟨addr, below, rfl⟩ := mem_written_entries inside
    rw [reg_addr addr (Nat.lt_trans below (by decide))] at written
    exact written ⟨below, writable⟩

/-- The power-on poll changes no register. Where it succeeds the chip listens. -/
theorem wait_power_on (settles : Settles signals) (polls : Nat) (chip : Chip) :
    ∃ ret frames, ad7124WaitPowerOn signals polls chip = (ret, ⟨chip.registers, frames⟩) ∧
      ((ret = 0 ∧ (signals.error frames).testBit 6 = false) ∨ ret = -1) := by
  induction polls generalizing chip with
  | zero => exact ⟨-1, chip.frames, rfl, .inr rfl⟩
  | succ polls inductionHypothesis =>
    obtain ⟨ready, frames, waited, outcome⟩ := @wait_spi_ready signals 300 chip
    rw [ad7124WaitPowerOn, readReg, if_neg (by decide), if_neg (by decide), waited]
    rcases outcome with ⟨rfl, later, heard⟩ | ⟨rfl, -⟩
    · have listens : (signals.error frames).testBit 6 = false := by
        have next := settles _ heard
        rwa [Nat.sub_add_cancel (by omega)] at next
      simp only [ne_eq, not_true_eq_false, if_false]
      rw [read_frame regStat (by decide)]
      simp only
      by_cases powered : (Chip.value signals.world ⟨chip.registers, frames⟩ regStat %
          256 ^ (reg regStat).size).testBit 4 = false
      · rw [if_pos powered]
        exact ⟨0, frames + 1, rfl, .inl ⟨rfl, settles _ listens⟩⟩
      · rw [if_neg powered]
        exact inductionHypothesis ⟨chip.registers, frames + 1⟩
    · exact inductionHypothesis ⟨chip.registers, frames⟩

/-- The identity is read from a chip that listens. -/
theorem read_id_listening {chip : Chip} (listens : Listening signals chip) :
    ad7124ReadId signals chip =
      (if signals.id % 2 ^ 8 = 0x07 ∨ signals.id % 2 ^ 8 = 0x04 then 0 else -1,
        ⟨chip.registers, chip.frames + 2⟩) := by
  rw [ad7124ReadId, read_reg_listening (by decide) (by decide) listens]
  rfl

/-- The converter shows from a frame on that it listens and has power. -/
def ReadyFrom (signals : Signals) (frame : Nat) : Prop :=
  ∀ later, frame ≤ later →
    (signals.error later).testBit 6 = false ∧ (signals.status later).testBit 4 = false

/-- Enough polls reach the frame from which the converter is ready. -/
theorem wait_power_on_ready {bound : Nat} (ready : ReadyFrom signals bound) (polls : Nat)
    (positive : 0 < polls) (chip : Chip)
    (enough : bound + 2 ≤ chip.frames + 2 * polls) :
    (ad7124WaitPowerOn signals polls chip).1 = 0 := by
  induction polls generalizing chip with
  | zero => exact absurd positive (by omega)
  | succ polls inductionHypothesis =>
    obtain ⟨answered, frames, waited, outcome⟩ := @wait_spi_ready signals 300 chip
    by_cases reached : bound ≤ chip.frames
    · have listens : Listening signals chip := (ready _ reached).1
      rw [ad7124WaitPowerOn, read_reg_listening (by decide) (by decide) listens]
      have powered : (signals.status (chip.frames + 1) % 2 ^ 8).testBit 4 = false := by
        rw [Nat.testBit_mod_two_pow]
        exact (ready _ (by omega)).2
      exact congrArg Prod.fst (if_pos powered)
    · rw [ad7124WaitPowerOn, readReg, if_neg (by decide), if_neg (by decide), waited]
      rcases outcome with ⟨rfl, later, -⟩ | ⟨rfl, all⟩
      · simp only [ne_eq, not_true_eq_false, if_false]
        rw [read_frame regStat (by decide)]
        simp only
        split
        · rfl
        · exact inductionHypothesis (by omega) ⟨chip.registers, frames + 1⟩ (by
            change bound + 2 ≤ frames + 1 + 2 * polls
            omega)
      · exact inductionHypothesis (by omega) ⟨chip.registers, frames⟩ (by
          change bound + 2 ≤ frames + 2 * polls
          omega)

/-- Behind the loop the continuous mode is what the control register already holds. -/
theorem configured_mode (offs0 offs2 : Nat) :
    withMode 0 (configured offs0 offs2 regAdcCtrl % 2 ^ 16) % 2 ^ 16 =
      configured offs0 offs2 regAdcCtrl := by
  have value : configured offs0 offs2 regAdcCtrl = 0x05C0 := rfl
  rw [value]
  decide

/-- A converter that listens and has a known identity is programmed. -/
theorem program_listening (settles : Settles signals) (offs0 offs2 : Nat) {chip : Chip}
    (listens : Listening signals chip) :
    ∃ frames, (match ad7124SetMode signals 4 chip with
      | (ret, chip) =>
          if ret ≠ 0 then (-3, chip)
          else
            match writeDefaults signals ((regCfg offs0 offs2).take regOffs7) chip with
            | (ret, chip) =>
                if ret ≠ 0 then (-4, chip)
                else
                  match ad7124SetMode signals 0 chip with
                  | (ret, chip) => (if ret ≠ 0 then -5 else 0, chip)) =
      ((0 : Int), ⟨fun addr => if Written addr then configured offs0 offs2 addr
        else chip.registers addr, frames⟩) := by
  have known : ∀ entry ∈ (regCfg offs0 offs2).take regOffs7,
      entry.addr < regCnt ∧ (reg entry.addr).rw = entry.rw := by
    intro entry inside
    obtain ⟨addr, below, rfl⟩ := mem_written_entries inside
    have small : addr < regCnt := Nat.lt_trans below (by decide)
    have place := reg_addr addr small
    exact ⟨place.symm ▸ small, congrArg (fun other => (reg other).rw) place⟩
  have idle := set_mode_listening settles 4 listens
  obtain ⟨frames, defaults, heard⟩ := @write_defaults_listening signals settles _ known
    ⟨Function.update chip.registers regAdcCtrl
      (withMode 4 (chip.registers regAdcCtrl % 2 ^ 16) % 2 ^ 16), chip.frames + 4⟩
    (settles _ (settles _ (settles _ (settles _ listens))))
  refine ⟨frames + 4, ?_⟩
  rw [idle]
  simp only [ne_eq, not_true_eq_false, if_false, defaults]
  rw [set_mode_listening settles 0 heard]
  simp only [if_false, not_true_eq_false]
  refine congrArg (Prod.mk 0) (congrArg (Chip.mk · (frames + 4)) (funext fun addr => ?_))
  have control : Written regAdcCtrl := by decide
  simp only [programmed_defaults, if_pos control, configured_mode]
  by_cases written : Written addr
  · rw [if_pos written]
    by_cases mode : addr = regAdcCtrl
    · subst mode
      exact Function.update_self ..
    · rw [Function.update_of_ne mode, programmed_defaults, if_pos written]
  · have other : addr ≠ regAdcCtrl := fun same => written (same ▸ control)
    rw [if_neg written, Function.update_of_ne other, programmed_defaults, if_neg written,
      Function.update_of_ne other]

/-- The channels that are enabled after the initialization are those that `sample_task` routes. -/
theorem enabled_routed (offs0 offs2 : Nat) (ch : Nat) (inside : ch < 16) :
    (configured offs0 offs2 (0x09 + ch)).testBit 15 = decide (Routed ch) := by
  have table : configured offs0 offs2 (0x09 + ch) = (reg (0x09 + ch)).value := by
    rw [configured, if_neg (by unfold regOffs0; omega), if_neg (by unfold regOffs2; omega)]
  have enabled : ∀ ch < 16, (reg (0x09 + ch)).value.testBit 15 = decide (Routed ch) := by decide
  rw [table, enabled ch inside]

/-- `ad7124_init` with a converter that goes on listening once it listens, whatever it shows
otherwise. Only 0, -1 and -2 are returned. After 0 the converter has a known identity, every
writable register below the last offset holds what is configured, the other registers what they
hold after power-up, and the enabled channels are the ones that `sample_task` routes; after an
error every register is as after power-up. A converter that is ready within 599 frames is
initialized unless its identity is unknown. -/
theorem ad7124_init_programs (signals : Signals) (settles : Settles signals) (offs0 offs2 : Nat)
    (chip : Chip) :
    ∃ ret after, ad7124Init signals offs0 offs2 chip = (ret, after) ∧
      (ret = 0 ∨ ret = -1 ∨ ret = -2) ∧
      (∀ addr, after.registers addr =
        if ret = 0 ∧ Written addr then configured offs0 offs2 addr else signals.powerUp addr) ∧
      (ret = 0 → (signals.id % 2 ^ 8 = 0x07 ∨ signals.id % 2 ^ 8 = 0x04) ∧
        ∀ ch < 16, (after.registers (0x09 + ch)).testBit 15 = decide (Routed ch)) ∧
      (ReadyFrom signals (chip.frames + 599) →
        ret = if signals.id % 2 ^ 8 = 0x07 ∨ signals.id % 2 ^ 8 = 0x04 then 0 else -2) := by
  have reset : ad7124Reset signals chip = ⟨signals.powerUp, chip.frames + 1⟩ :=
    congrArg Prod.snd (take_reset chip)
  obtain ⟨ret, frames, waited, outcome⟩ :=
    @wait_power_on signals settles 300 ⟨signals.powerUp, chip.frames + 1⟩
  rw [ad7124Init, reset, waited]
  rcases outcome with ⟨rfl, heard⟩ | rfl
  · have listens : Listening signals ⟨signals.powerUp, frames⟩ := heard
    simp only [ne_eq, not_true_eq_false, if_false, read_id_listening listens]
    by_cases known : signals.id % 2 ^ 8 = 0x07 ∨ signals.id % 2 ^ 8 = 0x04
    · have later : Listening signals ⟨signals.powerUp, frames + 2⟩ := settles _ (settles _ heard)
      obtain ⟨done, programmed⟩ := program_listening settles offs0 offs2 later
      simp only [if_pos known, not_true_eq_false, if_false]
      refine ⟨0, _, programmed, .inl rfl, fun addr => ?_, fun _ => ⟨known, ?_⟩, fun _ => rfl⟩
      · simp
      · intro ch inside
        have channel : Written (0x09 + ch) := by
          revert ch
          decide
        simp only [if_pos channel]
        exact enabled_routed offs0 offs2 ch inside
    · simp only [if_neg known]
      exact ⟨-2, _, rfl, .inr (.inr rfl), fun addr => by simp, fun zero => absurd zero (by decide),
        fun _ => rfl⟩
  · refine ⟨-1, _, rfl, .inr (.inl rfl), fun addr => by simp, fun zero => absurd zero (by decide),
      fun ready => ?_⟩
    have powered := wait_power_on_ready ready 300 (by decide) ⟨signals.powerUp, chip.frames + 1⟩
      (by change chip.frames + 599 + 2 ≤ chip.frames + 1 + 2 * 300; omega)
    rw [waited] at powered
    exact absurd powered (fun zero : (-1 : Int) = 0 => absurd zero (by decide))

/-- A converter that is always ready is initialized. -/
theorem ad7124_init_programs_ready :
    ∃ after, ad7124Init ⟨fun _ => 0, fun _ => 0, fun _ => 0, 0x07, fun _ => 0⟩ 0x800123 0x7FFE80
        ⟨fun _ => 0, 0⟩ = (0, after) ∧ after.registers 0x29 = 0x800123 ∧
      after.registers 0x2B = 0x7FFE80 ∧ after.registers 0x30 = 0 := by
  obtain ⟨ret, after, result, -, registers, -, ready⟩ :=
    ad7124_init_programs ⟨fun _ => 0, fun _ => 0, fun _ => 0, 0x07, fun _ => 0⟩
      (fun _ _ => Nat.zero_testBit 6) 0x800123 0x7FFE80 ⟨fun _ => 0, 0⟩
  have done : ret = 0 := ready fun _ _ => ⟨Nat.zero_testBit 6, Nat.zero_testBit 4⟩
  subst done
  exact ⟨after, result, registers 0x29, registers 0x2B, registers 0x30⟩

/-- The last of some words that names a channel. -/
def latest (words : List Nat) (chActive : Nat) : Option Nat :=
  words.reverse.find? fun word => word % 16 == chActive

end

end Pyrometer.Ad7124
