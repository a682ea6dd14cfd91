import Pyrometer.ByteMemory

/-!
# A two-wire bus as a listener hears it

A clock line and a data line. While the clock is high, a fall of the data line starts a transfer
and a rise of it stops one; the level of the data line at a rise of the clock is a bit. Nine bits
after a start or after nine others are an octet, the most significant bit first, and the level of
its acknowledge. What is left of an octet when a transfer starts or stops is forgotten.

The lines are wired: a line is high when nobody pulls it low. Levels between two changes, timing
and arbitration between several masters are not here.
-/

namespace Pyrometer.TwoWireBus

open ByteMemory

/-- The levels of the two lines. -/
structure Lines where
  scl : Bool
  sda : Bool
deriving DecidableEq

/-- What a change of the lines means. -/
inductive Signal where
  | start
  | stop
  | bit (level : Bool)
deriving DecidableEq

/-- What a listener hears of a change of one line. -/
def signals (before after : Lines) : List Signal :=
  if before.scl && after.scl then
    if before.sda && !after.sda then [.start]
    else if !before.sda && after.sda then [.stop]
    else []
  else if !before.scl && after.scl then [.bit after.sda]
  else []

/-- What a listener gathers. -/
inductive Item where
  | start
  | stop
  | octet (byte : Byte) (level : Bool)
deriving DecidableEq

/-- A listener: the items so far, and the bits of an octet that is not complete. -/
structure Reader where
  items : List Item
  pending : List Bool
deriving DecidableEq

/-- A bit is shifted into a byte. -/
def shiftIn (byte : Byte) (bit : Bool) : Byte := byte <<< 1 ||| (BitVec.ofBool bit).zeroExtend 8

/-- The byte of some bits, the most significant first. -/
def octetOf (bits : List Bool) : Byte := bits.foldl shiftIn 0

/-- The listener takes a signal. -/
def Reader.read (reader : Reader) : Signal → Reader
  | .start => ⟨reader.items ++ [.start], []⟩
  | .stop => ⟨reader.items ++ [.stop], []⟩
  | .bit level =>
      if reader.pending.length < 8 then ⟨reader.items, reader.pending ++ [level]⟩
      else ⟨reader.items ++ [.octet (octetOf reader.pending) level], []⟩

/-- The listener takes what it hears of a change. -/
def Reader.hear (reader : Reader) (before after : Lines) : Reader :=
  (signals before after).foldl Reader.read reader

/-- The bits of a byte below a place, the most significant first. -/
def bitsBelow (byte : Byte) : Nat → List Bool
  | 0 => []
  | place + 1 => byte.getLsbD place :: bitsBelow byte place

@[simp] theorem bits_below_length (byte : Byte) (place : Nat) :
    (bitsBelow byte place).length = place := by
  induction place with
  | zero => rfl
  | succ place inductionHypothesis => exact congrArg (· + 1) inductionHypothesis

/-- A byte is read out of its bits. -/
theorem octet_of_bits (byte : Byte) : octetOf (bitsBelow byte 8) = byte := by
  revert byte
  decide

/-- A bit of an octet that is not complete is kept. -/
theorem read_pending {reader : Reader} (level : Bool) (open' : reader.pending.length < 8) :
    reader.read (.bit level) = ⟨reader.items, reader.pending ++ [level]⟩ := if_pos open'

/-- The bit behind eight others completes an octet. -/
theorem read_octet {reader : Reader} (level : Bool) (full : reader.pending.length = 8) :
    reader.read (.bit level) =
      ⟨reader.items ++ [.octet (octetOf reader.pending) level], []⟩ := if_neg (by omega)

/-- While the clock is low nothing is heard. -/
@[simp] theorem hear_low (reader : Reader) (before after : Bool) :
    reader.hear ⟨false, before⟩ ⟨false, after⟩ = reader := rfl

/-- A rise of the clock is a bit. -/
@[simp] theorem hear_rise (reader : Reader) (level : Bool) :
    reader.hear ⟨false, level⟩ ⟨true, level⟩ = reader.read (.bit level) := rfl

/-- A fall of the clock is not heard. -/
@[simp] theorem hear_fall (reader : Reader) (before after : Bool) :
    reader.hear ⟨true, before⟩ ⟨false, after⟩ = reader := rfl

/-- A level that stays is not heard. -/
@[simp] theorem hear_still (reader : Reader) (clock level : Bool) :
    reader.hear ⟨clock, level⟩ ⟨clock, level⟩ = reader := by
  cases clock <;> cases level <;> rfl

/-- A fall of the data line while the clock is high is a start. -/
@[simp] theorem hear_start (reader : Reader) :
    reader.hear ⟨true, true⟩ ⟨true, false⟩ = reader.read .start := rfl

/-- A rise of the data line while the clock is high is a stop. -/
@[simp] theorem hear_stop (reader : Reader) :
    reader.hear ⟨true, false⟩ ⟨true, true⟩ = reader.read .stop := rfl

end Pyrometer.TwoWireBus
