import Pyrometer.CommandExecution

/-!
# What counts as a decimal number

`is_dec_number` looks at the first two characters of a string and counts its digits and
points. The grammars say what a number looks like: an integer has digits only, and a
fraction one point behind its first digits; both may have a minus sign in front.

The string is not empty, as its first character is looked at whatever the length says.
-/

namespace Pyrometer.NumberRecognition

open ByteMemory UppParser CommandExecution

/-- Only digits. -/
def Digits (text : List Byte) : Prop := ∀ byte ∈ text, isDigit byte = true

/-- Digits. -/
def Integer (text : List Byte) : Prop := text ≠ [] ∧ Digits text

/-- Digits, a point, and any further digits. -/
def Fraction (text : List Byte) : Prop :=
  ∃ whole decimals, text = whole ++ point :: decimals ∧ Integer whole ∧ Digits decimals

/-- The same behind a minus sign, or without one. -/
def Signed (grammar : List Byte → Prop) (text : List Byte) : Prop :=
  grammar text ∨ ∃ rest, text = minus :: rest ∧ grammar rest

/-- The two counts of a text. -/
def points (text : List Byte) : Nat := text.countP fun byte => byte == point

/-- The result of a recogniser: one for an integer, two for a fraction, zero otherwise. -/
structure Recognises (result : Nat) (integer fraction : Prop) : Prop where
  one : result = 1 ↔ integer
  two : result = 2 ↔ fraction
  zero : result = 0 ↔ ¬ integer ∧ ¬ fraction

/-- What the two counts say. -/
def counted (text : List Byte) : Nat :=
  if text.countP isDigit = text.length ∧ points text = 0 then 1
  else if points text + text.countP isDigit = text.length ∧ points text = 1 then 2
  else 0

/-- Digits have no points among them. -/
theorem digits_points {text : List Byte} (digits : Digits text) : points text = 0 := by
  refine List.countP_eq_zero.mpr fun byte member => ?_
  rw [beq_iff_eq]
  rintro rfl
  exact absurd (digits point member) (by decide)

/-- All characters are counted as digits, and none as a point, in digits only. -/
theorem digits_iff (text : List Byte) :
    text.countP isDigit = text.length ∧ points text = 0 ↔ Digits text := by
  rw [List.countP_eq_length]
  exact ⟨fun counted => counted.1, fun digits => ⟨digits, digits_points digits⟩⟩

/-- The counts around a point. -/
theorem counts_around (whole decimals : List Byte) :
    (whole ++ point :: decimals).countP isDigit = whole.countP isDigit + decimals.countP isDigit ∧
      points (whole ++ point :: decimals) = points whole + points decimals + 1 := by
  constructor
  · rw [List.countP_append, List.countP_cons_of_neg (by decide)]
  · rw [points, List.countP_append, List.countP_cons_of_pos (by decide)]
    rfl

/-- All characters are counted, and one of them as a point, in digits around a point. -/
theorem pointed_iff (text : List Byte) :
    points text + text.countP isDigit = text.length ∧ points text = 1 ↔
      ∃ whole decimals, text = whole ++ point :: decimals ∧ Digits whole ∧ Digits decimals := by
  constructor
  · rintro ⟨counted, single⟩
    have found : point ∈ text := by
      obtain ⟨byte, member, isPoint⟩ := List.countP_pos_iff.mp (single ▸ Nat.one_pos)
      exact beq_iff_eq.mp isPoint ▸ member
    obtain ⟨whole, decimals, rfl⟩ := List.append_of_mem found
    obtain ⟨digits, others⟩ := counts_around whole decimals
    have wholeMost : whole.countP isDigit ≤ whole.length := List.countP_le_length
    have decimalsMost : decimals.countP isDigit ≤ decimals.length := List.countP_le_length
    rw [digits, List.length_append, List.length_cons] at counted
    refine ⟨whole, decimals, rfl, ?_, ?_⟩
    · exact List.countP_eq_length.mp (by omega)
    · exact List.countP_eq_length.mp (by omega)
  · rintro ⟨whole, decimals, rfl, wholeDigits, decimalDigits⟩
    obtain ⟨digits, others⟩ := counts_around whole decimals
    have wholeAll := (digits_iff whole).mpr wholeDigits
    have decimalsAll := (digits_iff decimals).mpr decimalDigits
    rw [digits, others, List.length_append, List.length_cons]
    omega

/-- Behind a first character that is no point, a point has digits in front of it. -/
theorem fraction_iff {text : List Byte} (start : text.head? ≠ some point) :
    points text + text.countP isDigit = text.length ∧ points text = 1 ↔ Fraction text := by
  rw [pointed_iff]
  constructor
  · rintro ⟨whole, decimals, rfl, wholeDigits, decimalDigits⟩
    refine ⟨whole, decimals, rfl, ⟨?_, wholeDigits⟩, decimalDigits⟩
    rintro rfl
    exact start rfl
  · rintro ⟨whole, decimals, shape, ⟨-, wholeDigits⟩, decimalDigits⟩
    exact ⟨whole, decimals, shape, wholeDigits, decimalDigits⟩

/-- A number starts with a digit. -/
theorem grammar_start {first : Byte} {rest : List Byte}
    (number : Integer (first :: rest) ∨ Fraction (first :: rest)) : isDigit first = true := by
  rcases number with ⟨-, digits⟩ | ⟨whole, decimals, shape, ⟨nonempty, digits⟩, -⟩
  · exact digits first List.mem_cons_self
  · cases whole with
    | nil => exact absurd rfl nonempty
    | cons byte others =>
      obtain ⟨rfl, -⟩ := List.cons.inj shape
      exact digits first List.mem_cons_self

/-- Nothing is no number. -/
theorem grammar_nonempty {text : List Byte} (number : Integer text ∨ Fraction text) :
    text ≠ [] := by
  rcases number with ⟨nonempty, -⟩ | ⟨whole, decimals, rfl, -, -⟩
  · exact nonempty
  · exact List.append_ne_nil_of_right_ne_nil _ (List.cons_ne_nil _ _)

/-- The counts recognise numbers without a sign, behind a first character that is no
point. -/
theorem counted_recognises {text : List Byte} (nonempty : text ≠ [])
    (start : text.head? ≠ some point) :
    Recognises (counted text) (Integer text) (Fraction text) := by
  have integer : text.countP isDigit = text.length ∧ points text = 0 ↔ Integer text := by
    rw [digits_iff]
    exact ⟨fun digits => ⟨nonempty, digits⟩, fun number => number.2⟩
  have fraction := fraction_iff start
  have apart : Integer text → ¬ Fraction text := by
    intro number other
    have absent := (integer.mpr number).2
    have single := (fraction.mpr other).2
    omega
  rw [counted]
  by_cases isInteger : Integer text
  · rw [if_pos (integer.mpr isInteger)]
    have other := apart isInteger
    exact ⟨by simp [isInteger], by simp [other], by simp [isInteger]⟩
  · rw [if_neg (integer.not.mpr isInteger)]
    by_cases isFraction : Fraction text
    · rw [if_pos (fraction.mpr isFraction)]
      exact ⟨by simp [isInteger], by simp [isFraction], by simp [isFraction]⟩
    · rw [if_neg (fraction.not.mpr isFraction)]
      exact ⟨by simp [isInteger], by simp [isFraction], by simp [isInteger, isFraction]⟩

/-- A text that no grammar allows is recognised as nothing. -/
theorem nothing_recognises {integer fraction : Prop} (neither : ¬ (integer ∨ fraction)) :
    Recognises 0 integer fraction := by
  obtain ⟨noInteger, noFraction⟩ := not_or.mp neither
  exact ⟨by simp [noInteger], by simp [noFraction], by simp [noInteger, noFraction]⟩

/-- Behind a minus sign there is a number without one. -/
theorem signed_minus {grammar : List Byte → Prop}
    (start : ∀ first rest, grammar (first :: rest) → isDigit first = true) (rest : List Byte) :
    Signed grammar (minus :: rest) ↔ grammar rest := by
  constructor
  · rintro (whole | ⟨others, shape, number⟩)
    · exact absurd (start minus rest whole) (by decide)
    · obtain ⟨-, rfl⟩ := List.cons.inj shape
      exact number
  · exact fun number => .inr ⟨rest, rfl, number⟩

/-- Without a minus sign in front there is a number without one. -/
theorem signed_plain {grammar : List Byte → Prop} {first : Byte} (plain : first ≠ minus)
    (rest : List Byte) : Signed grammar (first :: rest) ↔ grammar (first :: rest) := by
  constructor
  · rintro (whole | ⟨others, shape, -⟩)
    · exact whole
    · exact absurd (List.cons.inj shape).1 plain
  · exact .inl

/-- Behind a minus sign the first character is looked at, and the counts decide. -/
theorem dec_number_minus (rest : List Byte) :
    isDecNumber (minus :: rest) =
      if rest.head?.any isDigit then counted rest else 0 := by
  have apart : minus ≠ point := by decide
  have digits : (minus :: rest).countP isDigit = rest.countP isDigit :=
    List.countP_cons_of_neg (by decide)
  have others : (minus :: rest).countP (fun byte => byte == point) = points rest :=
    List.countP_cons_of_neg (by decide)
  cases rest with
  | nil => rfl
  | cons next rest =>
    simp only [isDecNumber, List.getD_cons_zero, List.getD_cons_succ, if_neg apart, digits, others,
      List.length_cons, counted, List.head?_cons, Option.any_some]
    cases isDigit next with
    | true => simp
    | false => simp

/-- Without a minus sign in front the counts decide, unless the first character is a
point. -/
theorem dec_number_plain {first : Byte} (plain : first ≠ minus) (rest : List Byte) :
    isDecNumber (first :: rest) = if first = point then 0 else counted (first :: rest) := by
  simp only [isDecNumber, List.getD_cons_zero, plain, false_and, if_false, Nat.add_zero]
  rfl

/-- `is_dec_number` recognises integers and fractions, with a minus sign in front or
without. -/
theorem dec_number_recognises (first : Byte) (rest : List Byte) :
    Recognises (isDecNumber (first :: rest)) (Signed Integer (first :: rest))
      (Signed Fraction (first :: rest)) := by
  by_cases signed : first = minus
  · subst signed
    rw [signed_minus fun _ _ number => grammar_start (.inl number),
      signed_minus fun _ _ number => grammar_start (.inr number), dec_number_minus]
    split
    case isTrue digit =>
      apply counted_recognises
      · rintro rfl
        cases digit
      · intro start
        rw [start] at digit
        exact absurd digit (by decide)
    case isFalse other =>
      apply nothing_recognises
      intro number
      cases rest with
      | nil => exact grammar_nonempty number rfl
      | cons next rest => exact other (grammar_start number)
  · rw [signed_plain signed, signed_plain signed, dec_number_plain signed]
    split
    case isTrue start =>
      apply nothing_recognises
      intro number
      rw [start] at number
      exact absurd (grammar_start number) (by decide)
    case isFalse start =>
      apply counted_recognises (List.cons_ne_nil _ _)
      intro same
      exact start (Option.some.inj same)

end Pyrometer.NumberRecognition
