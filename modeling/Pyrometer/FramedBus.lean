import Pyrometer.ByteMemory

/-!
# A three-wire bus as a listener hears it

A select line, a clock line and a data line. A frame is open while the select line is low. In an
open frame the level of the data line at a rise of the clock is a bit, and eight bits are an
octet, the least significant bit first. When the select line rises the frame is complete, and the
bits of an octet that is not complete are forgotten.

Levels between two changes and timing are not here.
-/

namespace Pyrometer.FramedBus

open ByteMemory

/-- The levels of the three lines. -/
structure Lines where
  stb : Bool
  clk : Bool
  dio : Bool
deriving DecidableEq

/-- What a change of the lines means. -/
inductive Signal where
  | select
  | release
  | bit (level : Bool)
deriving DecidableEq

/-- What a listener hears of a change of one line. -/
def signals (before after : Lines) : List Signal :=
  if before.stb && !after.stb then [.select]
  else if !before.stb && after.stb then [.release]
  else if !after.stb && !before.clk && after.clk then [.bit after.dio]
  else []

/-- A listener: the complete frames, the octets of the open one, and the bits of an octet that is
not complete. -/
structure Reader where
  frames : List (List Byte)
  octets : List Byte
  pending : List Bool
deriving DecidableEq

/-- A bit is shifted into a byte from above. -/
def shiftDown (byte : Byte) (bit : Bool) : Byte :=
  byte >>> 1 ||| (BitVec.ofBool bit).zeroExtend 8 <<< 7

/-- The byte of some bits, the least significant first. -/
def octetOf (bits : List Bool) : Byte := bits.foldl shiftDown 0

/-- The listener takes a signal. -/
def Reader.read (reader : Reader) : Signal → Reader
  | .select => ⟨reader.frames, [], []⟩
  | .release => ⟨reader.frames ++ [reader.octets], [], []⟩
  | .bit level =>
      if reader.pending.length < 7 then
        ⟨reader.frames, reader.octets, reader.pending ++ [level]⟩
      else ⟨reader.frames, reader.octets ++ [octetOf (reader.pending ++ [level])], []⟩

/-- The listener takes what it hears of a change. -/
def Reader.hear (reader : Reader) (before after : Lines) : Reader :=
  (signals before after).foldl Reader.read reader

/-- The listener takes some bits. -/
def Reader.readBits (reader : Reader) (bits : List Bool) : Reader :=
  bits.foldl (fun reader level => reader.read (.bit level)) reader

/-- The lowest bits of a byte, the least significant first. -/
def lowBits (byte : Byte) : Nat → List Bool
  | 0 => []
  | count + 1 => byte.getLsbD 0 :: lowBits (byte >>> 1) count

@[simp] theorem low_bits_length (byte : Byte) (count : Nat) :
    (lowBits byte count).length = count := by
  induction count generalizing byte with
  | zero => rfl
  | succ count inductionHypothesis => exact congrArg (· + 1) (inductionHypothesis (byte >>> 1))

/-- A byte is read out of its bits. -/
theorem octet_of_bits (byte : Byte) : octetOf (lowBits byte 8) = byte := by
  revert byte
  decide

/-- Fewer bits than an octet has left are kept. -/
theorem read_bits_pending (bits : List Bool) {reader : Reader}
    (fits : reader.pending.length + bits.length ≤ 7) :
    reader.readBits bits = ⟨reader.frames, reader.octets, reader.pending ++ bits⟩ := by
  induction bits generalizing reader with
  | nil => simp [Reader.readBits]
  | cons level rest inductionHypothesis =>
    rw [List.length_cons] at fits
    have kept : reader.read (.bit level) =
        ⟨reader.frames, reader.octets, reader.pending ++ [level]⟩ := if_pos (by omega)
    have others := @inductionHypothesis (reader.read (.bit level))
      (by rw [kept]; simp only [List.length_append, List.length_singleton]; omega)
    calc reader.readBits (level :: rest)
        = (reader.read (.bit level)).readBits rest := rfl
      _ = ⟨reader.frames, reader.octets, reader.pending ++ level :: rest⟩ := by
        rw [others, kept]
        simp

/-- Eight bits are an octet. -/
theorem read_bits_octet {bits : List Bool} (eight : bits.length = 8) {reader : Reader}
    (empty : reader.pending = []) :
    reader.readBits bits = ⟨reader.frames, reader.octets ++ [octetOf bits], []⟩ := by
  rcases List.eq_nil_or_concat bits with nothing | ⟨first, last, split⟩
  · rw [nothing] at eight
    cases eight
  · rw [split, List.concat_eq_append]
    have seven : first.length = 7 := by
      rw [split, List.length_concat] at eight
      exact Nat.succ.inj eight
    have kept := @read_bits_pending first reader (by rw [empty, seven]; decide)
    rw [empty, List.nil_append] at kept
    have full : (Reader.mk reader.frames reader.octets first).read (.bit last) =
        ⟨reader.frames, reader.octets ++ [octetOf (first ++ [last])], []⟩ :=
      if_neg (by rw [seven]; decide)
    calc reader.readBits (first ++ [last])
        = (reader.readBits first).read (.bit last) := by simp [Reader.readBits]
      _ = ⟨reader.frames, reader.octets ++ [octetOf (first ++ [last])], []⟩ := by
        rw [kept, full]

/-- While the frame stays closed nothing is heard. -/
@[simp] theorem hear_closed (reader : Reader) (clkBefore clkAfter dioBefore dioAfter : Bool) :
    reader.hear ⟨true, clkBefore, dioBefore⟩ ⟨true, clkAfter, dioAfter⟩ = reader := rfl

/-- A fall of the select line opens a frame. -/
@[simp] theorem hear_select (reader : Reader) (clkBefore clkAfter dioBefore dioAfter : Bool) :
    reader.hear ⟨true, clkBefore, dioBefore⟩ ⟨false, clkAfter, dioAfter⟩ =
      ⟨reader.frames, [], []⟩ := rfl

/-- A rise of the select line completes a frame. -/
@[simp] theorem hear_release (reader : Reader) (clkBefore clkAfter dioBefore dioAfter : Bool) :
    reader.hear ⟨false, clkBefore, dioBefore⟩ ⟨true, clkAfter, dioAfter⟩ =
      ⟨reader.frames ++ [reader.octets], [], []⟩ := rfl

/-- A rise of the clock is a bit. -/
@[simp] theorem hear_rise (reader : Reader) (before after : Bool) :
    reader.hear ⟨false, false, before⟩ ⟨false, true, after⟩ = reader.read (.bit after) := rfl

/-- A fall of the clock is not heard. -/
@[simp] theorem hear_fall (reader : Reader) (before after : Bool) :
    reader.hear ⟨false, true, before⟩ ⟨false, false, after⟩ = reader := rfl

/-- A change of the data line alone is not heard. -/
@[simp] theorem hear_data (reader : Reader) (stb clk before after : Bool) :
    reader.hear ⟨stb, clk, before⟩ ⟨stb, clk, after⟩ = reader := by
  cases stb <;> cases clk <;> rfl

end Pyrometer.FramedBus
