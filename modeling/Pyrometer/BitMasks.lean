import Mathlib.Data.BitVec
import Mathlib.Tactic

/-!
# Sets kept as bits of a machine word

A mask of `width` bits is a set of positions below `width`. Setting, clearing
and testing one position are the usual or, and-not and and. The laws read every
mask through `hasBit`; no law mentions the numeric value of a mask.
-/

namespace Pyrometer.BitMasks

variable {width : Nat}

/-- `1U << position`. -/
def bit (width position : Nat) : BitVec width := BitVec.ofNat width 1 <<< position

/-- The test `mask & (1U << position)`. -/
def hasBit (mask : BitVec width) (position : Nat) : Bool := (mask &&& bit width position) != 0

/-- `mask | (1U << position)`. -/
def setBit (mask : BitVec width) (position : Nat) : BitVec width := mask ||| bit width position

/-- `mask & ~(1U << position)`. -/
def clearBit (mask : BitVec width) (position : Nat) : BitVec width :=
  mask &&& ~~~(bit width position)

/-- A one-bit mask has its own bit and no other. -/
theorem bit_get (position tested : Nat) (inside : position < width) :
    (bit width position).getLsbD tested = decide (tested = position) := by
  rw [bit, ← BitVec.twoPow_eq, BitVec.getLsbD_twoPow]
  by_cases same : tested = position
  · subst same
    simp [inside]
  · simp [same, Ne.symm same]

/-- A one-bit mask is not empty. -/
theorem bit_ne_zero (position : Nat) (inside : position < width) : bit width position ≠ 0 := by
  intro empty
  have missing : (bit width position).getLsbD position = false := by
    rw [empty, BitVec.ofNat_eq_ofNat, BitVec.getLsbD_zero]
  simp [bit_get position position inside] at missing

/-- The mask test reads the stored bit. -/
theorem has_bit_get (mask : BitVec width) (position : Nat) (inside : position < width) :
    hasBit mask position = mask.getLsbD position := by
  have selected : mask &&& bit width position =
      if mask.getLsbD position then bit width position else 0 := by
    rw [bit, ← BitVec.twoPow_eq]
    exact BitVec.and_twoPow mask position
  rw [hasBit, selected]
  cases mask.getLsbD position with
  | true => exact bne_iff_ne.mpr (bit_ne_zero position inside)
  | false => rfl

/-- The empty mask has no bit. -/
theorem has_bit_zero (position : Nat) : hasBit (0 : BitVec width) position = false := by
  simp [hasBit]

/-- Setting a position adds exactly that position. -/
theorem has_bit_set (mask : BitVec width) (position tested : Nat) (inside : position < width)
    (testedInside : tested < width) :
    hasBit (setBit mask position) tested = (hasBit mask tested || decide (tested = position)) := by
  rw [has_bit_get _ _ testedInside, has_bit_get _ _ testedInside, setBit, BitVec.getLsbD_or,
    bit_get position tested inside]

/-- Clearing a position removes exactly that position. -/
theorem has_bit_clear (mask : BitVec width) (position tested : Nat) (inside : position < width)
    (testedInside : tested < width) :
    hasBit (clearBit mask position) tested =
      (hasBit mask tested && !decide (tested = position)) := by
  rw [has_bit_get _ _ testedInside, has_bit_get _ _ testedInside, clearBit, BitVec.getLsbD_and,
    BitVec.getLsbD_not, bit_get position tested inside]
  simp [testedInside]

/-- Complement takes every position not in the mask. -/
theorem has_bit_not (mask : BitVec width) (position : Nat) (inside : position < width) :
    hasBit (~~~mask) position = !hasBit mask position := by
  rw [has_bit_get _ _ inside, has_bit_get _ _ inside, BitVec.getLsbD_not]
  simp [inside]

/-- Intersection keeps the common positions. -/
theorem has_bit_and (left right : BitVec width) (position : Nat) (inside : position < width) :
    hasBit (left &&& right) position = (hasBit left position && hasBit right position) := by
  rw [has_bit_get _ _ inside, has_bit_get _ _ inside, has_bit_get _ _ inside, BitVec.getLsbD_and]

/-- Masks with the same positions are equal. -/
theorem mask_ext {left right : BitVec width}
    (same : ∀ position, position < width → hasBit left position = hasBit right position) :
    left = right := by
  apply BitVec.eq_of_getLsbD_eq
  intro position inside
  rw [← has_bit_get left position inside, ← has_bit_get right position inside]
  exact same position inside

/-- Setting, in turn, the positions of the selected items adds exactly those
positions. Induct on the items. -/
theorem has_bit_fold {α : Type} (items : List α) (position : α → Nat) (selected : α → Bool)
    (mask : BitVec width) (tested : Nat) (inside : ∀ item ∈ items, position item < width)
    (testedInside : tested < width) :
    hasBit (items.foldl (fun mask item =>
        if selected item then setBit mask (position item) else mask) mask) tested =
      (hasBit mask tested ||
        items.any (fun item => selected item && decide (tested = position item))) := by
  induction items generalizing mask with
  | nil => simp
  | cons first rest inductionHypothesis =>
    have firstInside : position first < width := inside first (by simp)
    have restInside : ∀ item ∈ rest, position item < width :=
      fun item member => inside item (by simp [member])
    rw [List.foldl_cons, inductionHypothesis _ restInside, List.any_cons]
    cases chosen : selected first with
    | false => simp
    | true =>
      rw [if_pos rfl, has_bit_set mask _ tested firstInside testedInside]
      simp [Bool.or_assoc]

end Pyrometer.BitMasks
