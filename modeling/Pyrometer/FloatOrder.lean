import Pyrometer.BinaryFloats

/-!
# Numbers and their order

Which results of floating-point arithmetic are numbers, and what the comparison says
about them. Rounding never gives what is not a number, so sums with a finite number and
products and quotients with a finite one other than zero are numbers if their operands
are. Two numbers are always comparable. An encoding may have bits above its sign; they
take part in neither the test nor the comparison.
-/

namespace Pyrometer.FloatOrder

open BinaryFloats

variable {format : Format}

/-- The encoding of infinity has no sign. -/
theorem infinity_unsigned : format.infinity < format.signPlace := by
  have one := Nat.one_le_two_pow (n := format.exponentBits)
  rw [Format.infinity, Format.signPlace, pow_add]
  exact Nat.mul_lt_mul_of_pos_right (by omega) (Nat.two_pow_pos _)

/-- The magnitude under a sign. -/
theorem magnitude_with_sign (negative : Bool) {magnitude : Nat}
    (small : magnitude ≤ format.infinity) :
    format.magnitude (format.withSign negative magnitude) = magnitude := by
  have below := small.trans_lt infinity_unsigned
  rw [Format.magnitude, Format.withSign]
  split_ifs
  · rw [Nat.add_mod_left, Nat.mod_eq_of_lt below]
  · exact Nat.mod_eq_of_lt below

/-- Nothing above infinity means a number. -/
theorem with_sign_number (negative : Bool) {magnitude : Nat}
    (small : magnitude ≤ format.infinity) :
    format.isNan (format.withSign negative magnitude) = false := by
  rw [Format.isNan, magnitude_with_sign negative small]
  exact decide_eq_false (not_lt.mpr small)

/-- Rounding stays at infinity at most. -/
theorem round_ratio_small (upper lower : Nat) :
    format.roundRatio upper lower ≤ format.infinity := by
  rw [Format.roundRatio]
  split_ifs
  · exact Nat.zero_le _
  · exact min_le_right _ _

/-- Rounding gives a number. -/
theorem round_signed_number (zeroSign : Bool) (upper : Int) (lower : Nat) :
    format.isNan (format.roundSigned zeroSign upper lower) = false := by
  rw [Format.roundSigned]
  split_ifs
  · exact with_sign_number zeroSign (Nat.zero_le _)
  · exact with_sign_number _ (round_ratio_small _ _)

/-- The sum of a number and a finite one is a number. -/
theorem add_number {left right : Nat} (number : format.isNan left = false)
    (other : format.isNan right = false) (finite : format.isInfinite right = false) :
    format.isNan (format.add left right) = false := by
  rw [Format.add, number, other, finite]
  simp only [Bool.or_false, Bool.false_and, Bool.false_eq_true, if_false]
  split_ifs
  · exact number
  · exact round_signed_number _ _ _

/-- The product of a number and a finite one other than zero is a number. -/
theorem mul_number {left right : Nat} (number : format.isNan left = false)
    (other : format.isNan right = false) (finite : format.isInfinite right = false)
    (nonzero : format.magnitude right ≠ 0) : format.isNan (format.mul left right) = false := by
  rw [Format.mul, number, other, finite]
  simp only [Bool.or_false, Bool.false_eq_true, if_false]
  split_ifs with infinite zero
  · rcases zero with nothing | nothing
    · rw [Format.isInfinite, nothing] at infinite
      have empty : 0 = format.infinity := by simpa using infinite
      rw [Format.isNan, decide_eq_false_iff_not, not_lt] at other
      omega
    · exact absurd nothing nonzero
  · exact with_sign_number _ le_rfl
  · exact round_signed_number _ _ _

/-- The quotient of a number and a finite one other than zero is a number. -/
theorem div_number {left right : Nat} (number : format.isNan left = false)
    (other : format.isNan right = false) (finite : format.isInfinite right = false)
    (nonzero : format.magnitude right ≠ 0) : format.isNan (format.div left right) = false := by
  rw [Format.div, number, other, finite]
  simp only [Bool.or_false, Bool.false_eq_true, if_false, if_neg nonzero]
  split_ifs
  · exact with_sign_number _ le_rfl
  · exact with_sign_number _ (round_ratio_small _ _)

/-- A number that is not above another one is at most that one. -/
theorem not_above {left right : Nat} (number : format.isNan left = false)
    (other : format.isNan right = false) (order : format.less right left = false) :
    format.lessEq left right = true := by
  rw [Format.less, number, other] at order
  rw [Format.lessEq, number, other]
  simpa using order

/-- A number at most another one is below it unless they are equal. -/
theorem below_unless_equal {left right : Nat} (order : format.lessEq left right = true)
    (different : format.key left ≠ format.key right) : format.less left right = true := by
  rw [Format.lessEq, Bool.and_eq_true, decide_eq_true_eq] at order
  rw [Format.less, order.1, decide_eq_true (lt_of_le_of_ne order.2 different)]
  rfl

/-- What is at most something is a number. -/
theorem less_eq_number {left right : Nat} (order : format.lessEq left right = true) :
    format.isNan left = false ∧ format.isNan right = false := by
  simp only [Format.lessEq, Bool.and_eq_true, Bool.not_eq_true'] at order
  exact order.1

/-- Bits above the sign do not belong to the magnitude. -/
theorem magnitude_mod (code : Nat) :
    format.magnitude (code % (2 * format.signPlace)) = format.magnitude code :=
  Nat.mod_mul_left_mod code 2 format.signPlace

/-- Bits above the sign do not change whether an encoding is a number. -/
theorem is_nan_mod (code : Nat) :
    format.isNan (code % (2 * format.signPlace)) = format.isNan code := by
  rw [Format.isNan, magnitude_mod, Format.isNan]

/-- Bits above the sign do not change the place in the order. -/
theorem key_mod (code : Nat) : format.key (code % (2 * format.signPlace)) = format.key code := by
  have sign : format.negative (code % (2 * format.signPlace)) = format.negative code := by
    rw [Format.negative, Nat.mod_mul_left_div_self, Nat.mod_mod, Format.negative]
  rw [Format.key, sign, magnitude_mod, Format.key]

/-- Bits above the sign of the left number do not change a comparison. -/
theorem less_mod_left (left right : Nat) :
    format.less (left % (2 * format.signPlace)) right = format.less left right := by
  rw [Format.less, is_nan_mod, key_mod, Format.less]

/-- Bits above the sign of the right number do not change a comparison. -/
theorem less_mod_right (left right : Nat) :
    format.less left (right % (2 * format.signPlace)) = format.less left right := by
  rw [Format.less, is_nan_mod, key_mod, Format.less]

/-- A number nearest to an integer has no bits above its sign. -/
theorem of_int_encoded (value : Int) : format.ofInt value < 2 * format.signPlace := by
  have positive : 0 < format.signPlace := Nat.two_pow_pos _
  have signed : ∀ (negative : Bool) (magnitude : Nat), magnitude ≤ format.infinity →
      format.withSign negative magnitude < 2 * format.signPlace := by
    intro negative magnitude small
    have below := small.trans_lt (@infinity_unsigned format)
    rw [Format.withSign]
    split_ifs <;> omega
  rw [Format.ofInt, Format.roundSigned]
  split_ifs
  · exact signed _ _ (Nat.zero_le _)
  · exact signed _ _ (round_ratio_small _ _)

end Pyrometer.FloatOrder
