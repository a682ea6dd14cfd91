import Pyrometer.ShiftRegister

/-!
# Feedback registers as linear maps

A clock of a feedback register is linear in exclusive or. So a register that is fed
several bits at once is the register fed one bit after the other, a table of what some
clocks do to a digit serves for any state, and what an error does to a checksum does not
depend on the message.

For the least-significant-first register `serial` feeds single bits in their order. An
error whose bits fit the width of the register is never lost in it, wherever it stands
among the bits, as long as the polynomial has its leading bit.
-/

namespace Pyrometer.LinearRegisters

open ShiftRegister

variable {width : Nat}

/-- One clock of the least-significant-first register: shift right, and add the
polynomial when a one leaves the register. -/
def shiftRight (polynomial register : BitVec width) : BitVec width :=
  if register.getLsbD 0 then (register >>> 1) ^^^ polynomial else register >>> 1

/-- Two sums with the same value on the right. -/
theorem xor_both (left right added : BitVec width) :
    left ^^^ added ^^^ (right ^^^ added) = left ^^^ right := by
  rw [BitVec.xor_assoc, ← BitVec.xor_assoc added, BitVec.xor_comm added right, BitVec.xor_assoc,
    BitVec.xor_self, BitVec.xor_zero]

/-- A clock to the left is linear. -/
theorem shift_left_xor (polynomial left right : BitVec width) :
    shiftLeft polynomial (left ^^^ right) =
      shiftLeft polynomial left ^^^ shiftLeft polynomial right := by
  simp only [shiftLeft, BitVec.msb_xor, BitVec.shiftLeft_xor_distrib]
  cases left.msb <;> cases right.msb <;> simp [xor_both] <;> ac_rfl

/-- A clock to the right is linear. -/
theorem shift_right_xor (polynomial left right : BitVec width) :
    shiftRight polynomial (left ^^^ right) =
      shiftRight polynomial left ^^^ shiftRight polynomial right := by
  simp only [shiftRight, BitVec.getLsbD_xor, BitVec.ushiftRight_xor_distrib]
  cases left.getLsbD 0 <;> cases right.getLsbD 0 <;> simp [xor_both] <;> ac_rfl

/-- Some clocks of a linear register are linear. -/
theorem iterate_xor {step : BitVec width → BitVec width}
    (linear : ∀ left right, step (left ^^^ right) = step left ^^^ step right) (clocks : Nat)
    (left right : BitVec width) :
    step^[clocks] (left ^^^ right) = step^[clocks] left ^^^ step^[clocks] right := by
  induction clocks generalizing left right with
  | zero => rfl
  | succ clocks inductionHypothesis =>
    simp only [Function.iterate_succ_apply, linear, inductionHypothesis]

/-- As long as only zeros leave it, a register to the left is only shifted. -/
theorem shift_left_quiet (polynomial : BitVec width) (clocks : Nat) {register : BitVec width}
    (quiet : ∀ position, width - clocks ≤ position → register.getLsbD position = false) :
    (shiftLeft polynomial)^[clocks] register = register <<< clocks := by
  induction clocks with
  | zero => simp
  | succ clocks inductionHypothesis =>
    have before : (shiftLeft polynomial)^[clocks] register = register <<< clocks :=
      inductionHypothesis fun position above => quiet position (by omega)
    have leading : (register <<< clocks).msb = false := by
      rw [BitVec.msb_eq_getLsbD_last, BitVec.getLsbD_shiftLeft]
      by_cases room : width - 1 < clocks
      · simp [room]
      · simp [quiet (width - 1 - clocks) (by omega)]
    rw [Function.iterate_succ_apply', before, shiftLeft, leading, if_neg (by decide),
      ← BitVec.shiftLeft_add]

/-- As long as only zeros leave it, a register to the right is only shifted. -/
theorem shift_right_quiet (polynomial : BitVec width) (clocks : Nat) {register : BitVec width}
    (quiet : ∀ position < clocks, register.getLsbD position = false) :
    (shiftRight polynomial)^[clocks] register = register >>> clocks := by
  induction clocks with
  | zero => simp
  | succ clocks inductionHypothesis =>
    have before : (shiftRight polynomial)^[clocks] register = register >>> clocks :=
      inductionHypothesis fun position below => quiet position (by omega)
    have leaving : (register >>> clocks).getLsbD 0 = false := by
      simpa using quiet clocks (Nat.lt_succ_self clocks)
    rw [Function.iterate_succ_apply', before, shiftRight, leaving, if_neg (by decide),
      ← BitVec.shiftRight_add]

/-- What is added at once can be added in two goes: the part that leaves the register first
before the first clocks, and the rest, as far as they have moved it, behind them. -/
theorem shift_left_parts (polynomial register front : BitVec width) {rest : BitVec width}
    (first second : Nat)
    (quiet : ∀ position, width - first ≤ position → rest.getLsbD position = false) :
    (shiftLeft polynomial)^[first + second] (register ^^^ (front ^^^ rest)) =
      (shiftLeft polynomial)^[second]
        ((shiftLeft polynomial)^[first] (register ^^^ front) ^^^ rest <<< first) := by
  rw [Nat.add_comm, Function.iterate_add_apply, ← BitVec.xor_assoc,
    iterate_xor (shift_left_xor polynomial) first, shift_left_quiet polynomial first quiet]

/-- With the leading bit in the polynomial, the leading bit of the new register is the one
that left the old one, so that the old one can be recovered. -/
theorem shift_right_injective (polynomial : BitVec width)
    (leading : polynomial.getLsbD (width - 1) = true) :
    Function.Injective (shiftRight polynomial) := by
  intro left right same
  have positive : 0 < width := by
    by_contra empty
    rw [BitVec.getLsbD_of_ge _ _ (by omega)] at leading
    cases leading
  have highBit (register : BitVec width) :
      (shiftRight polynomial register).getLsbD (width - 1) = register.getLsbD 0 := by
    have outside : register.getLsbD (1 + (width - 1)) = false :=
      BitVec.getLsbD_of_ge _ _ (by omega)
    unfold shiftRight
    split <;> rename_i low <;> simp [BitVec.getLsbD_ushiftRight, outside, leading, low]
  have low : left.getLsbD 0 = right.getLsbD 0 := by rw [← highBit left, ← highBit right, same]
  have shifted : left >>> 1 = right >>> 1 := by
    unfold shiftRight at same
    rw [low] at same
    split at same
    · exact xor_right_cancel _ _ _ same
    · exact same
  apply BitVec.eq_of_getLsbD_eq
  intro position bound
  cases position with
  | zero => exact low
  | succ position =>
    have bits := congrArg (fun register => register.getLsbD position) shifted
    simpa [Nat.add_comm] using bits

/-- Feed a table the sum of a digit and the low digit of the register: with the right
table that is the register with the digit added, clocked once for every bit of it. -/
theorem consume_iterate {digit : Nat} {table : BitVec width → BitVec width}
    (polynomial : BitVec width)
    (tabulated : ∀ index, index &&& BitVec.ofNat width (2 ^ digit - 1) = index →
      table index = (shiftRight polynomial)^[digit] index)
    (register symbol : BitVec width) :
    consume digit table register symbol =
      (shiftRight polynomial)^[digit]
        (register ^^^ (symbol &&& BitVec.ofNat width (2 ^ digit - 1))) := by
  have maskBit (position : Nat) (bound : position < width) :
      (BitVec.ofNat width (2 ^ digit - 1)).getLsbD position = decide (position < digit) := by
    rw [BitVec.getLsbD_ofNat, Nat.testBit_two_pow_sub_one]
    simp [bound]
  have split : register ^^^ (symbol &&& BitVec.ofNat width (2 ^ digit - 1)) =
      ((register >>> digit) <<< digit) ^^^
        ((register &&& BitVec.ofNat width (2 ^ digit - 1)) ^^^
          (symbol &&& BitVec.ofNat width (2 ^ digit - 1))) := by
    apply BitVec.eq_of_getLsbD_eq
    intro position bound
    simp only [BitVec.getLsbD_xor, BitVec.getLsbD_and, BitVec.getLsbD_shiftLeft,
      BitVec.getLsbD_ushiftRight, maskBit position bound]
    by_cases low : position < digit
    · simp [low]
    · simp [low, bound, Nat.add_sub_cancel' (not_lt.mp low)]
  have high : (shiftRight polynomial)^[digit] ((register >>> digit) <<< digit) =
      register >>> digit := by
    rw [shift_right_quiet polynomial digit fun position below => by simp [below]]
    apply BitVec.eq_of_getLsbD_eq
    intro position bound
    simp only [BitVec.getLsbD_ushiftRight, BitVec.getLsbD_shiftLeft]
    by_cases room : digit + position < width
    · simp [room]
    · simp [room, BitVec.getLsbD_of_ge register (digit + position) (by omega)]
  rw [split, iterate_xor (shift_right_xor polynomial), high, consume, tabulated]
  apply BitVec.eq_of_getLsbD_eq
  intro position bound
  simp only [BitVec.getLsbD_and, BitVec.getLsbD_xor, maskBit position bound]
  cases decide (position < digit) <;> simp

/-- One step of a most-significant-first register that consumes `digit` bits through a table
indexed by their sum with the register's high digit. -/
def consumeLeft (digit : Nat) (table : BitVec width → BitVec width)
    (register symbol : BitVec width) : BitVec width :=
  (register <<< digit) ^^^
    table ((register >>> (width - digit)) ^^^ (symbol &&& BitVec.ofNat width (2 ^ digit - 1)))

/-- Feed a table the sum of a digit and the high digit of the register: with the right
table that is the register with the digit added at its high end, clocked once for every bit
of it. -/
theorem consume_left_iterate {digit : Nat} (fits : digit ≤ width)
    {table : BitVec width → BitVec width} (polynomial : BitVec width)
    (tabulated : ∀ index, index &&& BitVec.ofNat width (2 ^ digit - 1) = index →
      table index = (shiftLeft polynomial)^[digit] (index <<< (width - digit)))
    (register symbol : BitVec width) :
    consumeLeft digit table register symbol =
      (shiftLeft polynomial)^[digit] (register ^^^
        (symbol &&& BitVec.ofNat width (2 ^ digit - 1)) <<< (width - digit)) := by
  have maskBit (position : Nat) (bound : position < width) :
      (BitVec.ofNat width (2 ^ digit - 1)).getLsbD position = decide (position < digit) := by
    rw [BitVec.getLsbD_ofNat, Nat.testBit_two_pow_sub_one]
    simp [bound]
  obtain ⟨rest, whole⟩ := Nat.exists_eq_add_of_le fits
  have behind : width - digit = rest := by omega
  rw [behind] at tabulated ⊢
  have split : register ^^^ (symbol &&& BitVec.ofNat width (2 ^ digit - 1)) <<< rest =
      ((register <<< digit) >>> digit) ^^^
        ((register >>> rest) ^^^ (symbol &&& BitVec.ofNat width (2 ^ digit - 1))) <<< rest := by
    apply BitVec.eq_of_getLsbD_eq
    intro position bound
    simp only [BitVec.shiftLeft_xor_distrib, BitVec.getLsbD_xor, BitVec.getLsbD_shiftLeft,
      BitVec.getLsbD_ushiftRight]
    by_cases high : rest ≤ position
    · have outside : ¬ digit + position < width := by omega
      simp [bound, high, outside, Nat.add_sub_cancel' high]
    · have inside : digit + position < width := by omega
      simp [bound, not_le.mp high, inside]
  have low : (shiftLeft polynomial)^[digit] ((register <<< digit) >>> digit) =
      register <<< digit := by
    rw [shift_left_quiet polynomial digit fun position above => ?_]
    · apply BitVec.eq_of_getLsbD_eq
      intro position bound
      simp only [BitVec.getLsbD_ushiftRight, BitVec.getLsbD_shiftLeft]
      by_cases inside : position < digit
      · simp [inside]
      · have room : digit + (position - digit) = position := by omega
        simp [inside, room, bound]
    · have outside : ¬ digit + position < width := by omega
      simp [outside]
  rw [split, iterate_xor (shift_left_xor polynomial), low, consumeLeft, behind, tabulated]
  apply BitVec.eq_of_getLsbD_eq
  intro position bound
  simp only [BitVec.getLsbD_and, BitVec.getLsbD_xor, BitVec.getLsbD_ushiftRight,
    maskBit position bound]
  by_cases inside : position < digit
  · simp [inside]
  · have outside : register.getLsbD (rest + position) = false :=
      BitVec.getLsbD_of_ge _ _ (by omega)
    simp [inside, outside]

/-- A bit as a register. -/
def single (bit : Bool) : BitVec width := BitVec.ofNat width bit.toNat

/-- The register after some bits, each added to its low end before a clock. -/
def serial (polynomial : BitVec width) (bits : Nat → Bool) (register : BitVec width) :
    Nat → BitVec width
  | 0 => register
  | count + 1 =>
      shiftRight polynomial (serial polynomial bits register count ^^^ single (bits count))

/-- The first bits as a register, the first one at its low end. -/
def pattern (width : Nat) (bits : Nat → Bool) (count : Nat) : BitVec width :=
  (BitVec.ofBoolListLE ((List.range count).map bits)).setWidth width

/-- The bits of a pattern. -/
theorem pattern_bit (bits : Nat → Bool) (count : Nat) {position : Nat} (bound : position < width) :
    (pattern width bits count).getLsbD position = (decide (position < count) && bits position) := by
  simp only [pattern, BitVec.getLsbD_setWidth, bound, decide_true, Bool.true_and,
    BitVec.getLsbD_ofBoolListLE]
  by_cases inside : position < count <;> simp [inside]

/-- No bits are an empty pattern. -/
theorem pattern_zero (bits : Nat → Bool) : pattern width bits 0 = BitVec.ofNat width 0 := by
  apply BitVec.eq_of_getLsbD_eq
  intro position bound
  simp [pattern_bit bits 0 bound]

/-- One bit more goes behind the others. -/
theorem pattern_succ (bits : Nat → Bool) (count : Nat) (room : count < width) :
    pattern width bits (count + 1) =
      pattern width bits count ^^^ (single (bits count) : BitVec width) <<< count := by
  apply BitVec.eq_of_getLsbD_eq
  intro position bound
  rw [BitVec.getLsbD_xor, pattern_bit bits _ bound, pattern_bit bits _ bound,
    BitVec.getLsbD_shiftLeft]
  have digit (bit : Bool) (place : Nat) :
      (single bit : BitVec width).getLsbD place = (decide (place = 0) && bit) := by
    cases bit
    · simp [single]
    · rw [single, Bool.toNat_true, BitVec.getLsbD_one]
      simp [show 0 < width by omega]
  rw [digit]
  rcases Nat.lt_trichotomy position count with before | here | behind
  · simp [before, Nat.lt_succ_of_lt before]
  · subst here
    simp [bound]
  · have past : ¬ position < count := by omega
    have beyond : ¬ position < count + 1 := by omega
    have apart : position - count ≠ 0 := by omega
    simp [past, beyond, apart]

/-- A register that is clocked with nothing in it stays so. -/
theorem shift_right_zero (polynomial : BitVec width) :
    shiftRight polynomial (BitVec.ofNat width 0) = BitVec.ofNat width 0 := by
  simp [shiftRight]

/-- Bits fed one after the other are bits fed at once, as far as they fit the register. -/
theorem serial_iterate (polynomial : BitVec width) (bits : Nat → Bool) (register : BitVec width)
    (count : Nat) (fits : count ≤ width) :
    serial polynomial bits register count =
      (shiftRight polynomial)^[count] (register ^^^ pattern width bits count) := by
  induction count with
  | zero =>
    rw [pattern_zero, BitVec.xor_zero]
    rfl
  | succ count inductionHypothesis =>
    have room : count < width := by omega
    have waiting : (shiftRight polynomial)^[count]
        ((single (bits count) : BitVec width) <<< count) = single (bits count) := by
      rw [shift_right_quiet polynomial count fun position below => by simp [below]]
      apply BitVec.eq_of_getLsbD_eq
      intro position bound
      rw [BitVec.getLsbD_ushiftRight, BitVec.getLsbD_shiftLeft]
      by_cases inside : count + position < width
      · simp [inside]
      · have high : position ≠ 0 := by omega
        cases bits count <;> simp [single, inside, high, BitVec.getLsbD_one]
    rw [serial, inductionHypothesis (by omega), pattern_succ bits count room,
      ← BitVec.xor_assoc, iterate_xor (shift_right_xor polynomial) (count + 1),
      Function.iterate_succ_apply', Function.iterate_succ_apply', waiting, ← shift_right_xor]

/-- Only the bits that are fed matter. -/
theorem serial_congr (polynomial : BitVec width) {left right : Nat → Bool}
    (register : BitVec width) (count : Nat) (same : ∀ index < count, left index = right index) :
    serial polynomial left register count = serial polynomial right register count := by
  induction count with
  | zero => rfl
  | succ count inductionHypothesis =>
    rw [serial, serial, inductionHypothesis fun index below => same index (by omega),
      same count (Nat.lt_succ_self count)]

/-- Bits fed in two goes. -/
theorem serial_add (polynomial : BitVec width) (bits : Nat → Bool) (register : BitVec width)
    (first second : Nat) :
    serial polynomial bits register (first + second) =
      serial polynomial (fun index => bits (first + index))
        (serial polynomial bits register first) second := by
  induction second with
  | zero => rfl
  | succ second inductionHypothesis => rw [← Nat.add_assoc, serial, inductionHypothesis, serial]

/-- The sum of two streams of bits leaves the sum of what each of them leaves. -/
theorem serial_xor (polynomial : BitVec width) (left right : Nat → Bool)
    (first second : BitVec width) (count : Nat) :
    serial polynomial (fun index => left index ^^ right index) (first ^^^ second) count =
      serial polynomial left first count ^^^ serial polynomial right second count := by
  induction count with
  | zero => rfl
  | succ count inductionHypothesis =>
    have sum : (single (left count ^^ right count) : BitVec width) =
        single (left count) ^^^ single (right count) := by
      cases left count <;> cases right count <;> simp [single]
    rw [serial, serial, serial, inductionHypothesis, sum, ← shift_right_xor]
    congr 1
    ac_rfl

/-- Zeros only clock the register. -/
theorem serial_quiet (polynomial : BitVec width) (bits : Nat → Bool) (register : BitVec width)
    (count : Nat) (quiet : ∀ index < count, bits index = false) :
    serial polynomial bits register count = (shiftRight polynomial)^[count] register := by
  induction count with
  | zero => rfl
  | succ count inductionHypothesis =>
    rw [serial, inductionHypothesis fun index below => quiet index (by omega),
      quiet count (Nat.lt_succ_self count), Function.iterate_succ_apply']
    simp [single]

/-- A burst of bits no longer than the register is never lost: behind zeros the register
holds it whole, and clocks lose nothing. -/
theorem serial_burst (polynomial : BitVec width)
    (leading : polynomial.getLsbD (width - 1) = true) (bits : Nat → Bool) (start count : Nat)
    (burst : ∀ index < count, bits index = true → start ≤ index ∧ index < start + width)
    (marked : ∃ index < count, bits index = true) :
    serial polynomial bits (BitVec.ofNat width 0) count ≠ BitVec.ofNat width 0 := by
  obtain ⟨set, below, isSet⟩ := marked
  obtain ⟨behind, within⟩ := burst set below isSet
  obtain ⟨length, whole⟩ := Nat.exists_eq_add_of_le (show start ≤ count by omega)
  have lossless : ∀ (clocks : Nat) (register : BitVec width),
      (shiftRight polynomial)^[clocks] register = BitVec.ofNat width 0 →
        register = BitVec.ofNat width 0 := by
    intro clocks register zero
    have still : (shiftRight polynomial)^[clocks] (BitVec.ofNat width 0) = BitVec.ofNat width 0 :=
      Function.iterate_fixed (shift_right_zero polynomial) clocks
    exact (shift_right_injective polynomial leading).iterate clocks (zero.trans still.symm)
  have before : serial polynomial bits (BitVec.ofNat width 0) start = BitVec.ofNat width 0 := by
    rw [serial_quiet polynomial bits _ start fun index early => ?_]
    · exact Function.iterate_fixed (shift_right_zero polynomial) start
    · by_contra present
      have later := (burst index (by omega) (by simpa using present)).1
      omega
  let fitting := min length width
  obtain ⟨rest, split⟩ := Nat.exists_eq_add_of_le (show fitting ≤ length from min_le_left _ _)
  have held : pattern width (fun index => bits (start + index)) fitting ≠ BitVec.ofNat width 0 := by
    intro empty
    have bit := @pattern_bit width (fun index => bits (start + index)) fitting _
      (show set - start < width by omega)
    rw [empty, Nat.add_sub_cancel' behind, isSet] at bit
    have inside : set - start < fitting := by omega
    simp [inside] at bit
  intro zero
  rw [whole, split, serial_add, before, serial_add,
    serial_iterate polynomial _ _ fitting (min_le_right _ _), BitVec.zero_xor,
    serial_quiet polynomial _ _ rest fun index early => ?_] at zero
  · exact held (lossless _ _ (lossless _ _ zero))
  · by_contra present
    have later := (burst (start + (fitting + index)) (by omega) (by simpa using present)).2
    omega

end Pyrometer.LinearRegisters
