import Mathlib.Data.List.TakeWhile
import Pyrometer.BinaryFloats
import Pyrometer.ByteMemory

/-!
# Numbers and strings of the C library

Strings end with a zero byte. Numbers are read as `strtol`, `strtoul`, `strtod` and
`sscanf` read them: spaces in front and what follows the number do not matter, and
a number that does not fit is replaced by the nearest limit. Numbers are written
as `sprintf` writes them.

The locale is the C locale. Integers have 32 bits and long integers 64.
-/

namespace Pyrometer.CText

open ByteMemory BinaryFloats

/-- The bytes of a text. -/
def ascii (text : String) : List Byte := text.toList.map (fun char => BitVec.ofNat 8 char.toNat)

/-- The string that a zero byte ends. -/
def cString (bytes : List Byte) : List Byte := bytes.takeWhile (fun byte => byte != 0)

/-- The string at an address, as far as the given bytes go. -/
def stringAt (memory : Mem) (start limit : Nat) : List Byte := cString (toList memory start limit)

/-- A string goes on behind a byte that is not zero. -/
theorem c_string_cons {byte : Byte} (nonzero : byte ≠ 0) (rest : List Byte) :
    cString (byte :: rest) = byte :: cString rest :=
  List.takeWhile_cons_of_pos (bne_iff_ne.mpr nonzero)

/-- A string ends at a zero. -/
theorem c_string_zero (rest : List Byte) : cString (0 :: rest) = [] :=
  List.takeWhile_cons_of_neg (by decide)

/-- A string is what it was read from exactly when that has no zero. -/
theorem c_string_eq_iff (bytes : List Byte) : cString bytes = bytes ↔ 0 ∉ bytes := by
  rw [cString, List.takeWhile_eq_self_iff]
  constructor
  · intro all member
    exact absurd (all 0 member) (by decide)
  · intro plain byte member
    rw [bne_iff_ne]
    rintro rfl
    exact plain member

/-- A string has no zero. -/
theorem c_string_plain (bytes : List Byte) : 0 ∉ cString bytes := by
  intro member
  exact absurd (List.mem_takeWhile_imp member) (by decide)

/-- A string is not longer than the bytes it is in. -/
theorem c_string_length_le (bytes : List Byte) : (cString bytes).length ≤ bytes.length :=
  (List.takeWhile_prefix _).length_le

/-- `isspace`. -/
def isSpace (byte : Byte) : Bool := byte == 0x20 || (0x09#8 ≤ byte && byte ≤ 0x0D#8)

/-- The value of a decimal digit. -/
def decDigit? (byte : Byte) : Option Nat :=
  if 0x30 ≤ byte.toNat ∧ byte.toNat ≤ 0x39 then some (byte.toNat - 0x30) else none

/-- The value of a hexadecimal digit. -/
def hexDigit? (byte : Byte) : Option Nat :=
  if 0x30 ≤ byte.toNat ∧ byte.toNat ≤ 0x39 then some (byte.toNat - 0x30)
  else if 0x41 ≤ byte.toNat ∧ byte.toNat ≤ 0x46 then some (byte.toNat - 0x37)
  else if 0x61 ≤ byte.toNat ∧ byte.toNat ≤ 0x66 then some (byte.toNat - 0x57)
  else none

/-- A sign, and what follows it. -/
def readSign : List Byte → Bool × List Byte
  | [] => (false, [])
  | byte :: rest =>
      if byte = 0x2D then (true, rest) else if byte = 0x2B then (false, rest)
      else (false, byte :: rest)

/-- The digits at the front of a text, and what follows them. -/
def readDigits (digit : Byte → Option Nat) : List Byte → List Nat × List Byte
  | [] => ([], [])
  | byte :: rest =>
      match digit byte with
      | some value => (value :: (readDigits digit rest).1, (readDigits digit rest).2)
      | none => ([], byte :: rest)

/-- The number that some digits write. -/
def inBase (base : Nat) (digits : List Nat) : Nat :=
  digits.foldl (fun value digit => value * base + digit) 0

/-- The prefix of a hexadecimal number is skipped if a digit follows. -/
def skipHexPrefix : List Byte → List Byte
  | zero :: mark :: next :: rest =>
      if zero = 0x30 ∧ (mark = 0x78 ∨ mark = 0x58) ∧ (hexDigit? next).isSome then next :: rest
      else zero :: mark :: next :: rest
  | text => text

/-- An integer at the front of a text: its sign and its size. -/
def readInteger (hexadecimal : Bool) (text : List Byte) : Option (Bool × Nat) :=
  let signed := readSign (text.dropWhile isSpace)
  let digits :=
    if hexadecimal then (readDigits hexDigit? (skipHexPrefix signed.2)).1
    else (readDigits decDigit? signed.2).1
  if digits = [] then none
  else some (signed.1, inBase (if hexadecimal then 16 else 10) digits)

/-- A signed integer of some number of bits; no number reads as zero. -/
def strtol (bits : Nat) (text : List Byte) : Int :=
  match readInteger false text with
  | none => 0
  | some (negative, size) =>
      if negative then max (-(2 ^ (bits - 1))) (-(size : Int)) else min (2 ^ (bits - 1) - 1) size

/-- `atoi`. -/
def atoi (text : List Byte) : Int := strtol 32 text

/-- An unsigned integer of 32 bits. -/
def unsigned (negative : Bool) (size : Nat) : Nat :=
  if 2 ^ 32 ≤ size then 2 ^ 32 - 1
  else if negative then (2 ^ 32 - size) % 2 ^ 32 else size

/-- `strtoul` for hexadecimal numbers. -/
def strtoul16 (text : List Byte) : Nat :=
  match readInteger true text with
  | none => 0
  | some (negative, size) => unsigned negative size

/-- `sscanf` with `%u`. -/
def scanUnsigned (text : List Byte) : Option Nat :=
  (readInteger false text).map (fun number => unsigned number.1 number.2)

/-- `sscanf` with `%x`. -/
def scanHex (text : List Byte) : Option Nat :=
  (readInteger true text).map (fun number => unsigned number.1 number.2)

/-- `sscanf` with `%lld`. -/
def scanLong (text : List Byte) : Option Int :=
  (readInteger false text).map (fun _ => strtol 64 text)

/-- `sscanf` with `%c`. -/
def scanChar (text : List Byte) : Option Byte := text.head?

/-- A number that may have a fraction. -/
inductive Numeral where
  | notNumber
  | infinite
  | fraction (upper lower : Nat)

/-- A lowercase letter for an uppercase one. -/
def toLower (byte : Byte) : Byte :=
  if 0x41 ≤ byte.toNat ∧ byte.toNat ≤ 0x5A then byte + 0x20 else byte

/-- A text begins with a word, in letters of any case. -/
def startsWith (word text : List Byte) : Bool := (text.take word.length).map toLower == word

/-- An exponent and its sign, if there is one. -/
def readExponent (mark : Byte) : List Byte → Int
  | [] => 0
  | byte :: rest =>
      if toLower byte = mark then
        let signed := readSign rest
        let size := inBase 10 (readDigits decDigit? signed.2).1
        if signed.1 then -(size : Int) else size
      else 0

/-- Digits with an optional point among them: the digits before and behind it, and
what follows. -/
def readPointed (digit : Byte → Option Nat) (text : List Byte) :
    List Nat × List Nat × List Byte :=
  let whole := readDigits digit text
  match whole.2 with
  | [] => (whole.1, [], [])
  | byte :: rest =>
      if byte = 0x2E then
        (whole.1, (readDigits digit rest).1, (readDigits digit rest).2)
      else (whole.1, [], byte :: rest)

/-- A fraction scaled by a power. -/
def scaled (base : Nat) (exponent : Int) (upper lower : Nat) : Numeral :=
  if 0 ≤ exponent then .fraction (upper * base ^ exponent.toNat) lower
  else .fraction upper (lower * base ^ (-exponent).toNat)

/-- A number without its sign. -/
def readNumeral (text : List Byte) : Option Numeral :=
  if startsWith (ascii "inf") text then some .infinite
  else if startsWith (ascii "nan") text then some .notNumber
  else
    let plain := skipHexPrefix text
    if plain = text then
      let parts := readPointed decDigit? text
      if parts.1 = [] ∧ parts.2.1 = [] then none
      else some (scaled 10 (readExponent 0x65 parts.2.2)
        (inBase 10 (parts.1 ++ parts.2.1)) (10 ^ parts.2.1.length))
    else
      let parts := readPointed hexDigit? plain
      some (scaled 2 (readExponent 0x70 parts.2.2)
        (inBase 16 (parts.1 ++ parts.2.1)) (16 ^ parts.2.1.length))

/-- The number nearest to what a text writes. -/
def scanFloat (format : Format) (text : List Byte) : Option Nat :=
  let signed := readSign (text.dropWhile isSpace)
  match readNumeral signed.2 with
  | none => none
  | some .notNumber => some (format.withSign signed.1 format.quietNan)
  | some .infinite => some (format.withSign signed.1 format.infinity)
  | some (.fraction upper lower) => some (format.withSign signed.1 (format.roundRatio upper lower))

/-- `strtod` and `strtof`; no number reads as zero. -/
def strtod (format : Format) (text : List Byte) : Nat := (scanFloat format text).getD 0

/-- `%u`: a number in decimal digits. -/
def decimal (value : Nat) : List Byte :=
  (Nat.toDigits 10 value).map (fun char => BitVec.ofNat 8 char.toNat)

/-- `%d` and `%lld`. -/
def signedDecimal (value : Int) : List Byte :=
  if value < 0 then 0x2D :: decimal value.natAbs else decimal value.natAbs

/-- `%x`. -/
def hexadecimal (value : Nat) : List Byte :=
  (Nat.toDigits 16 value).map (fun char => BitVec.ofNat 8 char.toNat)

/-- An uppercase letter for a lowercase one. -/
def toUpper (byte : Byte) : Byte :=
  if 0x61 ≤ byte.toNat ∧ byte.toNat ≤ 0x7A then byte - 0x20 else byte

/-- Zeros in front up to a width. -/
def zeroPadded (width : Nat) (digits : List Byte) : List Byte :=
  List.replicate (width - digits.length) 0x30 ++ digits

/-- `%08X`. -/
def hexWord (value : Nat) : List Byte := zeroPadded 8 ((hexadecimal value).map toUpper)

/-- `%.*f`: a number with some digits behind the point. -/
def fixedPoint (format : Format) (places code : Nat) : List Byte :=
  let sign := if format.negative code then [0x2D] else []
  if format.isNan code then sign ++ ascii "nan"
  else if format.isInfinite code then sign ++ ascii "inf"
  else
    let ratio := format.ratio (format.magnitude code)
    let units := Format.roundQuotient (ratio.1 * 10 ^ places) ratio.2
    sign ++ decimal (units / 10 ^ places) ++
      (0x2E :: zeroPadded places (decimal (units % 10 ^ places)))

/-- `strtok`: from a place on, the next token and the place of its end. -/
def strtok (delimiter : Byte) (text : List Byte) (place : Nat) : Option (List Byte × Nat) :=
  let skipped := ((text.drop place).takeWhile (fun byte => byte == delimiter)).length
  let token := (text.drop (place + skipped)).takeWhile (fun byte => byte != delimiter)
  if token = [] then none else some (token, place + skipped + token.length)

/-- The string that is left when `strtok` has ended a token at a place. -/
def endedAt (text : List Byte) (place : Nat) : List Byte := text.set place 0

/-- All tokens that `strtok` finds one after the other. -/
def tokens (delimiter : Byte) (text : List Byte) : List (List Byte) :=
  (text.splitOn delimiter).filter (fun token => token != [])

end Pyrometer.CText
