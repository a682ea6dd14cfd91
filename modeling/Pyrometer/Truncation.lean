import Mathlib.Tactic
import Mathlib.Algebra.Order.Floor.Ring

/-!
# Numbers cut toward zero

Converting a number to an integer type drops its fraction. `cut` does so in any ordered
ring with a floor: it is the floor from zero on and the ceiling below. The laws say that
it keeps the order, that it leaves integers alone and how the size of what is left is
read off the number.

The integers have no bounds here. A program whose integers have some relates its own.
-/

namespace Pyrometer.Truncation

variable {R : Type} [Ring R] [LinearOrder R] [FloorRing R]

/-- Drop the fraction. -/
def cut (value : R) : ℤ := if 0 ≤ value then ⌊value⌋ else ⌈value⌉

/-- From zero on the fraction is dropped downwards. -/
theorem cut_nonneg {value : R} (nonneg : 0 ≤ value) : cut value = ⌊value⌋ := if_pos nonneg

/-- Below zero the fraction is dropped upwards. -/
theorem cut_neg {value : R} (negative : value < 0) : cut value = ⌈value⌉ :=
  if_neg negative.not_ge

/-- Dropping fractions keeps the order. -/
theorem cut_mono : Monotone (cut : R → ℤ) := by
  intro low high order
  by_cases lowNonneg : 0 ≤ low
  · rw [cut_nonneg lowNonneg, cut_nonneg (lowNonneg.trans order)]
    exact Int.floor_le_floor order
  · have negative := not_le.mp lowNonneg
    by_cases highNonneg : 0 ≤ high
    · rw [cut_neg negative, cut_nonneg highNonneg]
      have below : ⌈low⌉ ≤ 0 := Int.ceil_le.mpr (by simpa using negative.le)
      exact below.trans (Int.floor_nonneg.mpr highNonneg)
    · rw [cut_neg negative, cut_neg (not_le.mp highNonneg)]
      exact Int.ceil_le_ceil order

variable [IsStrictOrderedRing R]

/-- An integer has no fraction. -/
@[simp] theorem cut_intCast (value : ℤ) : cut (value : R) = value := by
  unfold cut
  split
  · exact Int.floor_intCast value
  · exact Int.ceil_intCast value

/-- The size of what is left is the size of the number without its fraction. -/
theorem abs_cut (value : R) : |cut value| = ⌊|value|⌋ := by
  by_cases nonneg : 0 ≤ value
  · rw [cut_nonneg nonneg, abs_of_nonneg nonneg, abs_of_nonneg (Int.floor_nonneg.mpr nonneg)]
  · have negative := not_le.mp nonneg
    have below : ⌈value⌉ ≤ 0 := Int.ceil_le.mpr (by simpa using negative.le)
    rw [cut_neg negative, abs_of_neg negative, abs_of_nonpos below, Int.floor_neg]

/-- What is left is larger than a bound exactly when the number reaches the next integer. -/
theorem lt_abs_cut {bound : ℤ} {value : R} :
    bound < |cut value| ↔ ((bound + 1 : ℤ) : R) ≤ |value| := by
  rw [abs_cut, ← Int.le_floor, Int.add_one_le_iff]

end Pyrometer.Truncation
