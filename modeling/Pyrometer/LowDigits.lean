import Mathlib.Data.Nat.Digits.Lemmas
import Mathlib.Tactic

/-!
# The digits of a number from the lowest on

The lowest digits of a number are its remainders in turn: a fixed count of them is the number
less its multiples of a power of the base. The digits of the whole number are as many as it
takes, and one for zero.
-/

namespace Pyrometer.LowDigits

/-- The lowest digits of a number, the lowest one first. -/
def lowDigits (base : Nat) : Nat → Nat → List Nat
  | 0, _ => []
  | size + 1, value => value % base :: lowDigits base size (value / base)

/-- All digits of a number, the lowest one first; zero has one digit. -/
def allDigits (base value : Nat) : List Nat := if value = 0 then [0] else Nat.digits base value

/-- There are as many lowest digits as asked for. -/
theorem low_digits_length (base size value : Nat) : (lowDigits base size value).length = size := by
  induction size generalizing value with
  | zero => rfl
  | succ size inductionHypothesis => exact congrArg (· + 1) (inductionHypothesis (value / base))

/-- Digits are smaller than the base. -/
theorem low_digits_lt {base : Nat} (positive : 0 < base) (size value : Nat) :
    ∀ digit ∈ lowDigits base size value, digit < base := by
  induction size generalizing value with
  | zero => exact fun digit member => absurd member List.not_mem_nil
  | succ size inductionHypothesis =>
    intro digit member
    rcases List.mem_cons.mp member with rfl | later
    · exact Nat.mod_lt value positive
    · exact inductionHypothesis (value / base) digit later

/-- The lowest digits write the number less the multiples of a power. -/
theorem low_digits_value (base size value : Nat) :
    Nat.ofDigits base (lowDigits base size value) = value % base ^ size := by
  induction size generalizing value with
  | zero => exact (Nat.mod_one value).symm
  | succ size inductionHypothesis =>
    calc Nat.ofDigits base (value % base :: lowDigits base size (value / base))
      _ = value % base + base * (value / base % base ^ size) := by
        rw [Nat.ofDigits_cons, inductionHypothesis]
      _ = value % (base * base ^ size) := Nat.mod_mul.symm
      _ = value % base ^ (size + 1) := by rw [Nat.pow_succ']

/-- One digit more is the next remainder. -/
theorem low_digits_succ (base size value : Nat) :
    lowDigits base (size + 1) value =
      lowDigits base size value ++ [value / base ^ size % base] := by
  induction size generalizing value with
  | zero => simp [lowDigits]
  | succ size inductionHypothesis =>
    rw [lowDigits, inductionHypothesis, lowDigits, Nat.div_div_eq_div_mul, ← Nat.pow_succ',
      List.cons_append]

/-- A number below the base is a digit. -/
theorem all_digits_small {base value : Nat} (small : value < base) :
    allDigits base value = [value] := by
  rw [allDigits]
  split
  case isTrue zero => rw [zero]
  case isFalse nonzero => exact Nat.digits_of_lt base value nonzero small

/-- The digits of a number from the base on are its remainder and those of what is left. -/
theorem all_digits_step {base value : Nat} (two : 1 < base) (large : base ≤ value) :
    allDigits base value = value % base :: allDigits base (value / base) := by
  have positive : 0 < value := Nat.lt_of_lt_of_le (Nat.zero_lt_of_lt two) large
  have left : value / base ≠ 0 :=
    Nat.div_ne_zero_iff.mpr ⟨Nat.ne_of_gt (Nat.zero_lt_of_lt two), large⟩
  rw [allDigits, allDigits, if_neg (Nat.ne_of_gt positive), if_neg left,
    Nat.digits_def' two positive]

/-- There is a digit. -/
theorem all_digits_ne_nil (base value : Nat) : allDigits base value ≠ [] := by
  rw [allDigits]
  split
  case isTrue => exact List.cons_ne_nil 0 []
  case isFalse nonzero => exact Nat.digits_ne_nil_iff_ne_zero.mpr nonzero

/-- Digits are smaller than the base. -/
theorem all_digits_lt {base : Nat} (two : 1 < base) (value : Nat) :
    ∀ digit ∈ allDigits base value, digit < base := by
  rw [allDigits]
  split
  case isTrue =>
    intro digit member
    rw [List.mem_singleton.mp member]
    omega
  case isFalse => exact fun digit member => Nat.digits_lt_base two member

/-- All digits write the number. -/
theorem all_digits_value (base value : Nat) :
    Nat.ofDigits base (allDigits base value) = value := by
  rw [allDigits]
  split
  case isTrue zero => rw [zero, Nat.ofDigits_singleton]
  case isFalse => exact Nat.ofDigits_digits base value

/-- The highest digit is not zero, unless the number is. -/
theorem all_digits_highest (base value : Nat)
    (zero : (allDigits base value).getLast? = some 0) : value = 0 := by
  rw [allDigits] at zero
  split at zero
  case isTrue isZero => exact isZero
  case isFalse nonzero =>
    have present : Nat.digits base value ≠ [] := Nat.digits_ne_nil_iff_ne_zero.mpr nonzero
    rw [List.getLast?_eq_getLast_of_ne_nil present] at zero
    exact absurd (Option.some.inj zero) (Nat.getLast_digit_ne_zero base nonzero)

end Pyrometer.LowDigits
