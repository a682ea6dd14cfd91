import Mathlib.Data.BitVec
import Mathlib.Tactic
import Mathlib.Logic.Function.Iterate

/-!
# Checksum registers

Two facts about linear feedback registers of any width. A most-significant-first
step with a polynomial whose constant term is set loses no information, so a
register driven by whole words distinguishes any two words fed from one state.
A table-driven least-significant-first register whose table maps zero to zero
shifts itself out when it is fed its own low digit.
-/

namespace Pyrometer.ShiftRegister

variable {width : Nat}

/-- One clock of the most-significant-first register: shift left, and add the
polynomial when a one leaves the register. -/
def shiftLeft (polynomial register : BitVec width) : BitVec width :=
  if register.msb then (register <<< 1) ^^^ polynomial else register <<< 1

/-- Feed one word: add it to the register, then clock once for every bit. -/
def feed (polynomial register word : BitVec width) : BitVec width :=
  (shiftLeft polynomial)^[width] (register ^^^ word)

/-- Shifting left forgets the leading bit only. -/
theorem shift_left_cancel (left right : BitVec width)
    (leading : left.msb = right.msb) (shifted : left <<< 1 = right <<< 1) : left = right := by
  apply BitVec.eq_of_getLsbD_eq
  intro position bound
  by_cases last : position + 1 < width
  · have same := congrArg (fun value => value.getLsbD (position + 1)) shifted
    simpa [BitVec.getLsbD_shiftLeft, last, BitVec.getLsbD_eq_getElem bound] using same
  · have top : position = width - 1 := by omega
    simpa [BitVec.msb_eq_getLsbD_last, top] using leading

/-- Adding one value on the right is cancelled by adding it again. -/
theorem xor_right_cancel (left right added : BitVec width)
    (same : left ^^^ added = right ^^^ added) : left = right := by
  have twice := congrArg (fun value => value ^^^ added) same
  simpa [BitVec.xor_assoc] using twice

/-- With the constant term set, the low bit of the new register is the bit that
left the old one; that bit decides whether the polynomial was added, so the old
register can be recovered. -/
theorem shift_left_injective (polynomial : BitVec width) (constant : polynomial.getLsbD 0 = true) :
    Function.Injective (shiftLeft polynomial) := by
  intro left right same
  have lowBit (register : BitVec width) :
      (shiftLeft polynomial register).getLsbD 0 = register.msb := by
    unfold shiftLeft
    split <;> rename_i leading <;> simp [constant, leading]
  have leading : left.msb = right.msb := by
    rw [← lowBit left, ← lowBit right, same]
  apply shift_left_cancel left right leading
  unfold shiftLeft at same
  rw [leading] at same
  split at same
  · exact xor_right_cancel _ _ _ same
  · exact same

/-- From one state, different words leave different registers. -/
theorem feed_injective (polynomial register : BitVec width)
    (constant : polynomial.getLsbD 0 = true) :
    Function.Injective (feed polynomial register) := by
  intro left right same
  have added : register ^^^ left = register ^^^ right :=
    (shift_left_injective polynomial constant).iterate width same
  rw [BitVec.xor_comm register left, BitVec.xor_comm register right] at added
  exact xor_right_cancel left right register added

/-- One step of a least-significant-first register that consumes `digit` bits
through a table indexed by their sum with the register's low digit. -/
def consume (digit : Nat) (table : BitVec width → BitVec width)
    (register symbol : BitVec width) : BitVec width :=
  (register >>> digit) ^^^
    table ((register &&& BitVec.ofNat width (2 ^ digit - 1)) ^^^
      (symbol &&& BitVec.ofNat width (2 ^ digit - 1)))

/-- Fed its own low digit, a register whose table keeps zero only shifts. -/
theorem consume_own (digit : Nat) (table : BitVec width → BitVec width)
    (register symbol : BitVec width) (zero : table 0 = 0)
    (own : register &&& BitVec.ofNat width (2 ^ digit - 1) =
      symbol &&& BitVec.ofNat width (2 ^ digit - 1)) :
    consume digit table register symbol = register >>> digit := by
  unfold consume
  rw [own, BitVec.xor_self]
  simpa using congrArg (fun added => register >>> digit ^^^ added) zero

end Pyrometer.ShiftRegister
