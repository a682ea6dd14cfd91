import Pyrometer.CText

/-!
# Several numbers in one text

`sscanf` with a format of decimal numbers and single characters between them. It skips
spaces in front of a number, reads no more characters of it than the format allows, and
stops at the first part of the format that the text does not have.
-/

namespace Pyrometer.Scanning

open ByteMemory CText

/-- A part of a format: a decimal number, of some width at most, or one character. -/
inductive Directive where
  | number (width : Option Nat)
  | exactly (byte : Byte)
deriving DecidableEq

/-- A number at the front of a text, and what follows it. -/
def readField (width : Option Nat) (text : List Byte) : Option ((Bool × Nat) × List Byte) :=
  let skipped := text.dropWhile isSpace
  let field := skipped.take (width.getD skipped.length)
  let signed := readSign field
  let digits := readDigits decDigit? signed.2
  if digits.1 = [] then none
  else some ((signed.1, inBase 10 digits.1), skipped.drop (field.length - digits.2.length))

/-- The numbers that are read from a text, each with its sign. -/
def scanf : List Directive → List Byte → List (Bool × Nat)
  | [], _ => []
  | .number width :: format, text =>
      match readField width text with
      | none => []
      | some (number, rest) => number :: scanf format rest
  | .exactly _ :: _, [] => []
  | .exactly byte :: format, first :: rest => if first = byte then scanf format rest else []

/-- What `%d` stores. -/
def signed (number : Bool × Nat) : Int :=
  if number.1 then max (-(2 ^ 31)) (-(number.2 : Int)) else min (2 ^ 31 - 1) number.2

/-- A directive that reads a number. -/
def Directive.isNumber : Directive → Bool
  | .number _ => true
  | .exactly _ => false

/-- No more numbers are read than the format names. -/
theorem scanf_length_le (format : List Directive) (text : List Byte) :
    (scanf format text).length ≤ format.countP Directive.isNumber := by
  induction format generalizing text with
  | nil => exact Nat.le_refl 0
  | cons directive format inductionHypothesis =>
    cases directive with
    | number width =>
      rw [List.countP_cons_of_pos (show Directive.isNumber (.number width) = true from rfl), scanf]
      split
      · exact Nat.zero_le _
      · exact Nat.succ_le_succ (inductionHypothesis _)
    | exactly byte =>
      rw [List.countP_cons_of_neg (by simp [Directive.isNumber])]
      cases text with
      | nil => exact Nat.zero_le _
      | cons first rest =>
        rw [scanf]
        split_ifs
        · exact inductionHypothesis rest
        · exact Nat.zero_le _

end Pyrometer.Scanning
