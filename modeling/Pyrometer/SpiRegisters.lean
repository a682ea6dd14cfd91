import Pyrometer.ByteMemory
import Mathlib.Logic.Function.Basic

/-!
# A chip whose registers stand behind a byte-serial bus

A frame is the bytes between two changes of the select line, and the chip answers as many. The
first byte is a command: its top bit must be low, the next one tells a read from a write and the
others are the address. The value of a register follows, the most significant byte first. Eight
bytes of ones put every register back to what it is after power-up.

Some registers are the chip's own; those have a value for each frame. In a frame in which the
chip ignores the bus a write is lost, while reads and the reset are not.
-/

namespace Pyrometer.SpiRegisters

open ByteMemory

/-- The chip apart from what is written to it: the bytes of each register, the values after
power-up, the registers that are its own in each frame, and the frames it ignores. -/
structure World where
  width : Nat → Nat
  powerUp : Nat → Nat
  live : Nat → Nat → Option Nat
  ignoring : Nat → Bool

/-- The registers that were written, and the frames so far. -/
structure Chip where
  registers : Nat → Nat
  frames : Nat

/-- The number that some bytes write, the most significant one first. -/
def bigEndian (bytes : List Byte) : Nat := littleEndian bytes.reverse

/-- The bytes of a number, the most significant one first. -/
def beBytes (size value : Nat) : List Byte := (leBytes size value).reverse

/-- A byte behind others writes the number of the others moved up by it. -/
theorem big_endian_snoc (bytes : List Byte) (byte : Byte) :
    bigEndian (bytes ++ [byte]) = bigEndian bytes * 256 + byte.toNat := by
  simp only [bigEndian, List.reverse_append, List.reverse_singleton, List.singleton_append]
  change byte.toNat + 256 * littleEndian bytes.reverse = _
  rw [Nat.mul_comm, Nat.add_comm]

@[simp] theorem be_bytes_length (size value : Nat) : (beBytes size value).length = size := by
  simp [beBytes]

/-- The bytes of a number write what fits of it. -/
theorem big_endian_be_bytes (size value : Nat) :
    bigEndian (beBytes size value) = value % 256 ^ size := by
  rw [bigEndian, beBytes, List.reverse_reverse, little_endian_le_bytes]

/-- Bytes write less than their number allows. -/
theorem big_endian_lt (bytes : List Byte) : bigEndian bytes < 256 ^ bytes.length := by
  induction bytes using List.reverseRecOn with
  | nil => decide
  | append_singleton bytes byte inductionHypothesis =>
    have small := byte.isLt
    rw [big_endian_snoc, List.length_append, List.length_singleton, pow_succ]
    omega

section

variable (world : World)

/-- The value of a register in the frame that comes. -/
def Chip.value (chip : Chip) (address : Nat) : Nat :=
  (world.live chip.frames address).getD (chip.registers address)

/-- The answer to a read. -/
def Chip.answer (chip : Chip) (address count : Nat) : List Byte :=
  (0 :: beBytes (world.width address) (chip.value world address) ++
    List.replicate count 0).take (count + 1)

/-- A write that has the bytes of its register is stored unless the frame is ignored. -/
def Chip.store (chip : Chip) (address : Nat) (data : List Byte) : Nat → Nat :=
  if data.length = world.width address ∧ world.ignoring chip.frames = false then
    Function.update chip.registers address (bigEndian data)
  else chip.registers

/-- The chip takes a frame. -/
def Chip.take (sent : List Byte) (chip : Chip) : List Byte × Chip :=
  match sent with
  | [] => ([], ⟨chip.registers, chip.frames + 1⟩)
  | command :: data =>
      if command :: data = List.replicate 8 255 then
        (List.replicate 8 0, ⟨world.powerUp, chip.frames + 1⟩)
      else if 128 ≤ command.toNat then
        (List.replicate (data.length + 1) 0, ⟨chip.registers, chip.frames + 1⟩)
      else if 64 ≤ command.toNat then
        (chip.answer world (command.toNat % 64) data.length, ⟨chip.registers, chip.frames + 1⟩)
      else
        (List.replicate (data.length + 1) 0,
          ⟨chip.store world command.toNat data, chip.frames + 1⟩)

variable {world}

/-- The reset puts every register back. -/
theorem take_reset (chip : Chip) :
    chip.take world (List.replicate 8 255) =
      (List.replicate 8 0, ⟨world.powerUp, chip.frames + 1⟩) := rfl

/-- A command with a low top bit does not start a reset. -/
theorem not_reset {command : Byte} (data : List Byte) (low : command.toNat < 128) :
    command :: data ≠ List.replicate 8 255 := by
  intro same
  have first : command = 255 := (List.cons.inj same).1
  subst first
  exact absurd low (by decide)

/-- A read of a whole register answers its value and changes nothing. -/
theorem take_read (chip : Chip) {command : Byte} {address : Nat} (data : List Byte)
    (small : address < 64) (reads : command.toNat = 64 + address)
    (whole : data.length = world.width address) :
    chip.take world (command :: data) =
      (0 :: beBytes (world.width address) (chip.value world address),
        ⟨chip.registers, chip.frames + 1⟩) := by
  have place : command.toNat % 64 = address := by omega
  have answered : chip.answer world address data.length =
      0 :: beBytes (world.width address) (chip.value world address) := by
    rw [Chip.answer, List.cons_append, List.take_succ_cons, List.take_append_of_le_length
      (by simp [whole]), whole, List.take_of_length_le (by simp)]
  rw [Chip.take, if_neg (not_reset data (by omega)), if_neg (by omega), if_pos (by omega),
    place, answered]

/-- A write of a whole register in a frame that is not ignored stores what fits. -/
theorem take_write (chip : Chip) {command : Byte} {address : Nat} (value : Nat)
    (small : address < 64) (writes : command.toNat = address)
    (listens : world.ignoring chip.frames = false) :
    (chip.take world (command :: beBytes (world.width address) value)).2 =
      ⟨Function.update chip.registers address (value % 256 ^ world.width address),
        chip.frames + 1⟩ := by
  rw [Chip.take, if_neg (not_reset _ (by omega)), if_neg (by omega), if_neg (by omega), writes,
    Chip.store, if_pos ⟨be_bytes_length _ _, listens⟩, big_endian_be_bytes]

end

end Pyrometer.SpiRegisters
