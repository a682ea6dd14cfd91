import Mathlib.Tactic

/-!
# Binary floating-point numbers

Numbers of a binary interchange format, kept as their encodings: a sign bit, a
biased exponent and a fraction. Arithmetic is exact and rounded once, to the
nearest number and to the even one of two nearest ones. Comparison goes by the
encodings, since numbers of one sign are ordered like them and both zeros are
equal; nothing is less than a number that is not one.

Flags and signaling are left out, and every result that is not a number is the same
quiet one.
-/

namespace Pyrometer.BinaryFloats

/-- A binary interchange format. -/
structure Format where
  fractionBits : Nat
  exponentBits : Nat

/-- Single precision. -/
def single : Format := ⟨23, 8⟩

/-- Double precision. -/
def double : Format := ⟨52, 11⟩

namespace Format

variable (format : Format)

/-- The place of the sign bit. -/
def signPlace : Nat := 2 ^ (format.exponentBits + format.fractionBits)

/-- The exponent of one. -/
def bias : Nat := 2 ^ (format.exponentBits - 1) - 1

/-- The encoding of infinity, behind which there are no numbers. -/
def infinity : Nat := (2 ^ format.exponentBits - 1) * 2 ^ format.fractionBits

/-- The encoding of the result that is not a number. -/
def quietNan : Nat := format.infinity + 2 ^ (format.fractionBits - 1)

/-- An encoding without its sign. -/
def magnitude (code : Nat) : Nat := code % format.signPlace

/-- The sign of an encoding. -/
def negative (code : Nat) : Bool := code / format.signPlace % 2 == 1

/-- Not a number. -/
def isNan (code : Nat) : Bool := decide (format.infinity < format.magnitude code)

/-- One of the two infinities. -/
def isInfinite (code : Nat) : Bool := format.magnitude code == format.infinity

/-- The place of an encoding in the order of the numbers. -/
def key (code : Nat) : Int :=
  if format.negative code then -(format.magnitude code : Int) else format.magnitude code

/-- Comparison, false if one side is not a number. -/
def less (left right : Nat) : Bool :=
  !format.isNan left && !format.isNan right && decide (format.key left < format.key right)

/-- Comparison that allows equality, false if one side is not a number. -/
def lessEq (left right : Nat) : Bool :=
  !format.isNan left && !format.isNan right && decide (format.key left ≤ format.key right)

/-- A finite magnitude as a fraction. -/
def ratio (magnitude : Nat) : Nat × Nat :=
  let fraction := magnitude % 2 ^ format.fractionBits
  let exponent := magnitude / 2 ^ format.fractionBits
  let significand := if exponent = 0 then fraction else fraction + 2 ^ format.fractionBits
  let power : Int := (max exponent 1 : Nat) - (format.bias + format.fractionBits : Nat)
  if 0 ≤ power then (significand * 2 ^ power.toNat, 1) else (significand, 2 ^ (-power).toNat)

/-- The quotient of two numbers, rounded to the nearest integer and to the even one of
two nearest ones. -/
def roundQuotient (upper lower : Nat) : Nat :=
  let quotient := upper / lower
  let rest := upper % lower
  if lower < 2 * rest ∨ (2 * rest = lower ∧ quotient % 2 = 1) then quotient + 1 else quotient

/-- The largest power of two that is not above a positive fraction, but at least the
power of the smallest normal number. -/
def binade (upper lower : Nat) : Int :=
  let guess : Int := (Nat.log2 upper : Int) - Nat.log2 lower
  let scaled := if 0 ≤ guess then decide (upper < lower * 2 ^ guess.toNat)
    else decide (upper * 2 ^ (-guess).toNat < lower)
  max (if scaled then guess - 1 else guess) (1 - (format.bias : Int))

/-- The magnitude nearest to a fraction, infinity if there is none. -/
def roundRatio (upper lower : Nat) : Nat :=
  if upper = 0 then 0
  else
    let binade := format.binade upper lower
    let unit := binade - format.fractionBits
    let significand :=
      if 0 ≤ unit then roundQuotient upper (lower * 2 ^ unit.toNat)
      else roundQuotient (upper * 2 ^ (-unit).toNat) lower
    let magnitude := (binade + format.bias - 1).toNat * 2 ^ format.fractionBits + significand
    min magnitude format.infinity

/-- A magnitude with a sign. -/
def withSign (negative : Bool) (magnitude : Nat) : Nat :=
  if negative then format.signPlace + magnitude else magnitude

/-- The number nearest to a signed fraction; a zero gets the given sign. -/
def roundSigned (zeroSign : Bool) (upper : Int) (lower : Nat) : Nat :=
  if upper = 0 then format.withSign zeroSign 0
  else format.withSign (decide (upper < 0)) (format.roundRatio upper.natAbs lower)

/-- A finite number as a signed fraction. -/
def signedRatio (code : Nat) : Int × Nat :=
  let ratio := format.ratio (format.magnitude code)
  (if format.negative code then -(ratio.1 : Int) else ratio.1, ratio.2)

/-- The opposite number. -/
def neg (code : Nat) : Nat := format.withSign (!format.negative code) (format.magnitude code)

/-- Sum. -/
def add (left right : Nat) : Nat :=
  if format.isNan left || format.isNan right then format.quietNan
  else if format.isInfinite left then
    if format.isInfinite right && format.negative left != format.negative right then format.quietNan
    else left
  else if format.isInfinite right then right
  else
    let one := format.signedRatio left
    let two := format.signedRatio right
    format.roundSigned (format.negative left && format.negative right)
      (one.1 * two.2 + two.1 * one.2) (one.2 * two.2)

/-- Difference. -/
def sub (left right : Nat) : Nat := format.add left (format.neg right)

/-- Product. -/
def mul (left right : Nat) : Nat :=
  let sign := format.negative left != format.negative right
  if format.isNan left || format.isNan right then format.quietNan
  else if format.isInfinite left || format.isInfinite right then
    if format.magnitude left = 0 ∨ format.magnitude right = 0 then format.quietNan
    else format.withSign sign format.infinity
  else
    let one := format.signedRatio left
    let two := format.signedRatio right
    format.roundSigned sign (one.1 * two.1) (one.2 * two.2)

/-- Quotient. -/
def div (left right : Nat) : Nat :=
  let sign := format.negative left != format.negative right
  if format.isNan left || format.isNan right then format.quietNan
  else if format.isInfinite left then
    if format.isInfinite right then format.quietNan else format.withSign sign format.infinity
  else if format.isInfinite right then format.withSign sign 0
  else if format.magnitude right = 0 then
    if format.magnitude left = 0 then format.quietNan else format.withSign sign format.infinity
  else
    let one := format.ratio (format.magnitude left)
    let two := format.ratio (format.magnitude right)
    format.withSign sign (format.roundRatio (one.1 * two.2) (one.2 * two.1))

/-- The number nearest to an integer. -/
def ofInt (value : Int) : Nat := format.roundSigned false value 1

/-- A number cut to an integer, kept within 32 bits; zero if it is not a number. -/
def toInt32 (code : Nat) : Int :=
  let saturate (value : Int) : Int := max (-2147483648) (min 2147483647 value)
  if format.isNan code then 0
  else if format.isInfinite code then
    if format.negative code then -2147483648 else 2147483647
  else
    let ratio := format.ratio (format.magnitude code)
    let whole : Int := (ratio.1 / ratio.2 : Nat)
    saturate (if format.negative code then -whole else whole)

/-- A number cut to an integer, kept within 64 bits; zero if it is not a number. -/
def toInt64 (code : Nat) : Int :=
  let saturate (value : Int) : Int := max (-(2 ^ 63)) (min (2 ^ 63 - 1) value)
  if format.isNan code then 0
  else if format.isInfinite code then if format.negative code then -(2 ^ 63) else 2 ^ 63 - 1
  else
    let ratio := format.ratio (format.magnitude code)
    let whole : Int := (ratio.1 / ratio.2 : Nat)
    saturate (if format.negative code then -whole else whole)

end Format

/-- The nearest number in single precision. -/
def narrow (code : Nat) : Nat :=
  if double.isNan code then single.quietNan
  else if double.isInfinite code then single.withSign (double.negative code) single.infinity
  else
    let ratio := double.ratio (double.magnitude code)
    single.withSign (double.negative code) (single.roundRatio ratio.1 ratio.2)

end Pyrometer.BinaryFloats
