import Pyrometer.ByteWriting
import Pyrometer.ConsoleCommands
import Pyrometer.LowDigits

/-!
# Numbers as strings in `hq_string.c`

`dec_to_string` and `float_to_string` write the digits of a number from the lowest on and then
turn them round in place; `hex_to_string` writes them from the highest on. `string_to_dec` and
`string_to_hex` read them back.

A number has 32 bits. The counts of digits and of decimals are not negative. The string that
is read is the list of its bytes, which ends with the list if not with a zero before.
-/

namespace Pyrometer.NumberFormatting

open ByteMemory ByteWriting CText ConsoleCommands LowDigits

/-- The decimal point. -/
def point : Byte := 0x2E

/-- A digit as a character. -/
def digitByte (ch : Nat) : Byte := BitVec.ofNat 8 ch + 0x30

/-- The loop of `dec_to_string`. -/
def decLoop (writer : Writer) (value : Nat) : Writer :=
  if 0 < value then decLoop (put writer (digitByte (value % 10))) (value / 10) else writer
termination_by value

/-- The end of the string, and its bytes turned round. -/
def finish (start : Nat) (writer : Writer) : Writer :=
  (turn (Function.update writer.1 writer.2 0) start (writer.2 - 1), writer.2)

/-- `dec_to_string`, with the pointer that it returns. -/
def decToString (memory : Mem) (str : Nat) (value : BitVec 32) : Writer :=
  if value = 0 then
    let writer := put (memory, str) 0x30
    (Function.update writer.1 writer.2 0, writer.2)
  else finish str (decLoop (memory, str) value.toNat)

/-- One digit of `hex_to_string`. -/
def hexPut (writer : Writer) (ch : Nat) : Writer :=
  if ch < 10 then put writer (digitByte ch)
  else if ch < 16 then put writer (BitVec.ofNat 8 ch - 10 + 0x41)
  else writer

/-- The loop of `hex_to_string`. -/
def hexLoop (value : BitVec 32) (writer : Writer) : Nat → Writer
  | 0 => writer
  | digits + 1 => hexLoop value (hexPut writer (value >>> (digits <<< 2) &&& 0x0F#32).toNat) digits

/-- `hex_to_string`, with the pointer that it returns. -/
def hexToString (memory : Mem) (str : Nat) (value : BitVec 32) (digits : Nat) : Writer :=
  let writer := hexLoop value (memory, str) digits
  (Function.update writer.1 writer.2 0, writer.2)

/-- The loop of `float_to_string`, with its count. -/
def floatLoop (decimal : Nat) (writer : Writer) (value i : Nat) : Writer × Nat :=
  if i < decimal ∨ 0 < value then
    let writer := put writer (digitByte (value % 10))
    floatLoop decimal (if i + 1 = decimal then put writer point else writer) (value / 10) (i + 1)
  else (writer, i)
termination_by (decimal - i) + value

/-- `float_to_string`, with the pointer that it returns. -/
def floatToString (memory : Mem) (str : Nat) (value : BitVec 32) (decimal : Nat) : Writer :=
  let after := floatLoop decimal (memory, str) value.toNat 0
  finish str (if after.2 = decimal then put after.1 0x30 else after.1)

/-- The loop of `string_to_dec`. -/
def stringToDecLoop (result : BitVec 32) : List Byte → Option (BitVec 32)
  | [] => some result
  | byte :: rest =>
      if byte = 0 then some result
      else if 0x30#8 ≤ byte ∧ byte ≤ 0x39#8 then
        stringToDecLoop (result * 10 + BitVec.ofNat 32 (byte.toNat - 0x30)) rest
      else if byte ≠ 0x20 then none
      else stringToDecLoop result rest

/-- `string_to_dec` -/
def stringToDec (str : List Byte) : Option (BitVec 32) := stringToDecLoop 0 str

/-- The loop of `string_to_hex`. -/
def stringToHexLoop (result : BitVec 32) : List Byte → Option (BitVec 32)
  | [] => some result
  | byte :: rest =>
      if byte = 0 then some result
      else if 0x30#8 ≤ byte ∧ byte ≤ 0x39#8 then
        stringToHexLoop ((result <<< 4) + BitVec.ofNat 32 (byte.toNat - 0x30)) rest
      else if 0x61#8 ≤ byte ∧ byte ≤ 0x66#8 then
        stringToHexLoop ((result <<< 4) + BitVec.ofNat 32 (byte.toNat - 0x61 + 10)) rest
      else if 0x41#8 ≤ byte ∧ byte ≤ 0x46#8 then
        stringToHexLoop ((result <<< 4) + BitVec.ofNat 32 (byte.toNat - 0x41 + 10)) rest
      else none

/-- `string_to_hex` -/
def stringToHex (str : List Byte) : Option (BitVec 32) := stringToHexLoop 0 str

/-- A string that a function wrote, and the pointer to its end that it returned. -/
structure Written (result : Writer) (str : Nat) (text : List Byte) : Prop where
  ends : Ends result.1 str text
  returned : result.2 = str + text.length

/-- A decimal numeral with some digits behind the point, and no point if there are none. -/
def Numeral (text : List Byte) (decimals : Nat) (value : ℚ) : Prop :=
  ∃ whole fraction : List Nat, whole ≠ [] ∧ (∀ digit ∈ whole ++ fraction, digit < 10) ∧
    fraction.length = decimals ∧
    text = whole.map digitByte ++ (if decimals = 0 then [] else point :: fraction.map digitByte) ∧
    (inBase 10 whole : ℚ) + inBase 10 fraction / 10 ^ decimals = value

/-- What is written without zeros and ended is a string. -/
theorem puts_written (memory : Mem) (str : Nat) {bytes : List Byte} (plain : 0 ∉ bytes) :
    Written (Function.update (puts (memory, str) bytes).1 (puts (memory, str) bytes).2 0,
      (puts (memory, str) bytes).2) str bytes := by
  have place := puts_place (memory, str) bytes
  refine ⟨⟨?_, plain, ?_⟩, place⟩
  · rw [place, to_list_update _ _ _ _ _ (.inr (Nat.le_refl _))]
    exact puts_bytes (memory, str) bytes
  · rw [place]
    exact Function.update_self _ _ _

/-- What is written without zeros, ended and turned round is a string. -/
theorem finish_written (memory : Mem) (str : Nat) {bytes : List Byte} (nonempty : bytes ≠ [])
    (plain : 0 ∉ bytes) : Written (finish str (puts (memory, str) bytes)) str bytes.reverse := by
  have ended := puts_written memory str plain
  have place : (puts (memory, str) bytes).2 = str + bytes.length := ended.returned
  have positive : 0 < bytes.length := List.length_pos_iff.mpr nonempty
  refine ⟨⟨?_, fun zero => plain (List.mem_reverse.mp zero), ?_⟩, ?_⟩
  · have turned := turn_bytes (Function.update (puts (memory, str) bytes).1
      (puts (memory, str) bytes).2 0) str bytes.length
    rw [ended.ends.bytes, ← place] at turned
    rw [List.length_reverse]
    exact turned
  · rw [List.length_reverse]
    exact (turn_behind _ (by omega)).trans ended.ends.ended
  · rw [List.length_reverse]
    exact place

/-- The loop of `dec_to_string` writes the digits from the lowest on. -/
theorem dec_loop_digits (writer : Writer) (value : Nat) :
    decLoop writer value = puts writer ((Nat.digits 10 value).map digitByte) := by
  induction writer, value using decLoop.induct with
  | case1 writer value positive inductionHypothesis =>
    rw [decLoop, if_pos positive, inductionHypothesis,
      Nat.digits_def' (by decide) positive]
    rfl
  | case2 writer value none =>
    rw [decLoop, if_neg none, Nat.eq_zero_of_not_pos none, Nat.digits_zero]
    rfl

/-- A nibble of the number is one of its digits. -/
theorem nibble_digit (value : BitVec 32) (digits : Nat) :
    (value >>> (digits <<< 2) &&& 0x0F#32).toNat = value.toNat / 16 ^ digits % 16 := by
  have places : 2 ^ (digits <<< 2) = 16 ^ digits := by
    rw [Nat.shiftLeft_eq, Nat.mul_comm, Nat.pow_mul]
  calc (value >>> (digits <<< 2) &&& 0x0F#32).toNat
    _ = value.toNat >>> (digits <<< 2) &&& (2 ^ 4 - 1) := by
      rw [BitVec.toNat_and, BitVec.toNat_ushiftRight]
      rfl
    _ = value.toNat / 16 ^ digits % 16 := by
      rw [Nat.and_two_pow_sub_one_eq_mod, Nat.shiftRight_eq_div_pow, places]

/-- A hexadecimal digit as a character. -/
def hexByte (ch : Nat) : Byte :=
  if ch < 10 then digitByte ch else BitVec.ofNat 8 ch - 10 + 0x41

/-- A hexadecimal digit is written as a character. -/
theorem hex_put_digit (writer : Writer) {ch : Nat} (small : ch < 16) :
    hexPut writer ch = put writer (hexByte ch) := by
  rw [hexPut, if_pos small, hexByte]
  split
  case isTrue => rfl
  case isFalse => rfl

/-- The loop of `hex_to_string` writes the digits from the highest on. -/
theorem hex_loop_digits (value : BitVec 32) (writer : Writer) (digits : Nat) :
    hexLoop value writer digits =
      puts writer ((lowDigits 16 digits value.toNat).reverse.map hexByte) := by
  induction digits generalizing writer with
  | zero => rfl
  | succ digits inductionHypothesis =>
    rw [hexLoop, inductionHypothesis, nibble_digit,
      hex_put_digit writer (Nat.mod_lt _ (by decide)), low_digits_succ, List.reverse_append]
    rfl

/-- A step of `float_to_string` writes a digit, and the point behind the last decimal. -/
theorem float_step {decimal value i : Nat} (writer : Writer) (goes : i < decimal ∨ 0 < value) :
    floatLoop decimal writer value i =
      floatLoop decimal
        (if i + 1 = decimal then put (put writer (digitByte (value % 10))) point
          else put writer (digitByte (value % 10)))
        (value / 10) (i + 1) := by
  rw [floatLoop, if_pos goes]

/-- Once the decimals are written, the loop of `float_to_string` is that of
`dec_to_string`. -/
theorem float_loop_whole (decimal : Nat) (writer : Writer) (value i : Nat) (done : decimal ≤ i) :
    floatLoop decimal writer value i =
      (puts writer ((Nat.digits 10 value).map digitByte), i + (Nat.digits 10 value).length) := by
  induction value using Nat.strong_induction_on generalizing writer i with
  | h value inductionHypothesis =>
    by_cases positive : 0 < value
    · have smaller : value / 10 < value := Nat.div_lt_self positive (by decide)
      have noPoint : i + 1 ≠ decimal := by omega
      rw [float_step writer (.inr positive), if_neg noPoint,
        inductionHypothesis (value / 10) smaller _ (i + 1) (by omega),
        Nat.digits_def' (by decide) positive, List.length_cons, Nat.add_right_comm, Nat.add_assoc]
      rfl
    · have finished : ¬ (i < decimal ∨ 0 < value) := by omega
      rw [floatLoop, if_neg finished, Nat.eq_zero_of_not_pos positive, Nat.digits_zero]
      rfl

/-- The loop of `float_to_string` writes the decimals first, and the point behind them. -/
theorem float_loop_decimals (decimal : Nat) (writer : Writer) (value i left : Nat)
    (remaining : i + (left + 1) = decimal) :
    floatLoop decimal writer value i =
      floatLoop decimal (puts writer ((lowDigits 10 (left + 1) value).map digitByte ++ [point]))
        (value / 10 ^ (left + 1)) decimal := by
  induction left generalizing writer value i with
  | zero =>
    rw [float_step writer (.inl (by omega)), if_pos remaining, ← remaining, Nat.pow_one]
    rfl
  | succ left inductionHypothesis =>
    have noPoint : i + 1 ≠ decimal := by omega
    rw [float_step writer (.inl (by omega)), if_neg noPoint,
      inductionHypothesis _ _ (i + 1) (by omega), Nat.div_div_eq_div_mul, ← Nat.pow_succ']
    rfl

/-- The number that digits from the lowest on write, read from the highest on. -/
theorem in_base_reverse (base : Nat) (digits : List Nat) :
    inBase base digits.reverse = Nat.ofDigits base digits := by
  rw [inBase, List.foldl_reverse]
  induction digits with
  | nil => rfl
  | cons digit rest inductionHypothesis =>
    rw [List.foldr_cons, inductionHypothesis, Nat.ofDigits_cons, Nat.add_comm, Nat.mul_comm]

/-- The character of a digit, and the digit of the character. -/
theorem digit_byte_range : ∀ digit < 10, digitByte digit ≠ 0 ∧
    (0x30#8 ≤ digitByte digit ∧ digitByte digit ≤ 0x39#8) ∧
    (digitByte digit).toNat - 0x30 = digit := by
  decide

/-- No digit is the end of a string. -/
theorem digits_plain {digits : List Nat} (small : ∀ digit ∈ digits, digit < 10) :
    0 ∉ digits.map digitByte := by
  intro member
  obtain ⟨digit, inside, zero⟩ := List.mem_map.mp member
  exact (digit_byte_range digit (small digit inside)).1 zero

/-- The digits from the highest on, as characters. -/
theorem digits_reverse (digits : List Nat) :
    (digits.map digitByte).reverse = digits.reverse.map digitByte :=
  List.map_reverse.symm

/-- `dec_to_string` writes the digits of the number. -/
theorem dec_written (memory : Mem) (str : Nat) (value : BitVec 32) :
    Written (decToString memory str value) str
      ((allDigits 10 value.toNat).reverse.map digitByte) := by
  rw [decToString]
  by_cases zero : value = 0
  · have plain : 0 ∉ [0x30#8] := by decide
    rw [if_pos zero, zero]
    exact puts_written memory str plain
  · have nonzero : value.toNat ≠ 0 := fun nothing => zero (BitVec.eq_of_toNat_eq nothing)
    have digits : allDigits 10 value.toNat = Nat.digits 10 value.toNat := if_neg nonzero
    have small := all_digits_lt (by decide : 1 < 10) value.toNat
    have present := all_digits_ne_nil 10 value.toNat
    rw [if_neg zero, dec_loop_digits, ← digits, ← digits_reverse]
    exact finish_written memory str (List.map_eq_nil_iff.not.mpr present) (digits_plain small)

/-- A loop that takes digits one by one reads the number that they write. -/
theorem reads_number {read : BitVec 32 → List Byte → Option (BitVec 32)} {base : Nat}
    {char : Nat → Byte} (ended : ∀ result, read result [] = some result)
    (step : ∀ start digit rest, digit < base →
      read (BitVec.ofNat 32 start) (char digit :: rest) =
        read (BitVec.ofNat 32 (start * base + digit)) rest)
    {digits : List Nat} (small : ∀ digit ∈ digits, digit < base) (start : Nat) :
    read (BitVec.ofNat 32 start) (digits.map char) =
      some (BitVec.ofNat 32 (digits.foldl (fun value digit => value * base + digit) start)) := by
  induction digits generalizing start with
  | nil => exact ended _
  | cons digit rest inductionHypothesis =>
    rw [List.map_cons, step start digit _ (small digit List.mem_cons_self)]
    exact inductionHypothesis (fun other member => small other (.tail _ member)) _

/-- `string_to_dec` reads digits. -/
theorem dec_read {digits : List Nat} (small : ∀ digit ∈ digits, digit < 10) :
    stringToDec (digits.map digitByte) = some (BitVec.ofNat 32 (inBase 10 digits)) := by
  apply reads_number (fun _ => rfl) _ small
  intro start digit rest below
  obtain ⟨nonzero, range, back⟩ := digit_byte_range digit below
  rw [stringToDecLoop, if_neg nonzero, if_pos range, back, BitVec.ofNat_add, BitVec.ofNat_mul]
  rfl

/-- The character of a hexadecimal digit below ten, and the digit of the character. -/
theorem hex_byte_low : ∀ digit < 10, hexByte digit = digitByte digit := by
  decide

/-- The character of a hexadecimal digit from ten on, and the digit of the character. -/
theorem hex_byte_high : ∀ digit < 16, 10 ≤ digit → hexByte digit ≠ 0 ∧
    ¬ (0x30#8 ≤ hexByte digit ∧ hexByte digit ≤ 0x39#8) ∧
    ¬ (0x61#8 ≤ hexByte digit ∧ hexByte digit ≤ 0x66#8) ∧
    (0x41#8 ≤ hexByte digit ∧ hexByte digit ≤ 0x46#8) ∧
    (hexByte digit).toNat - 0x41 + 10 = digit := by
  decide

/-- A hexadecimal digit is read as what it is. -/
theorem hex_read_digit {digit : Nat} (small : digit < 16) (result : BitVec 32)
    (rest : List Byte) :
    stringToHexLoop result (hexByte digit :: rest) =
      stringToHexLoop ((result <<< 4) + BitVec.ofNat 32 digit) rest := by
  rw [stringToHexLoop]
  rcases Nat.lt_or_ge digit 10 with low | high
  · obtain ⟨nonzero, range, back⟩ := digit_byte_range digit low
    rw [hex_byte_low digit low, if_neg nonzero, if_pos range, back]
  · obtain ⟨nonzero, decimal, lower, upper, back⟩ := hex_byte_high digit small high
    rw [if_neg nonzero, if_neg decimal, if_neg lower, if_pos upper, back]

/-- `string_to_hex` reads hexadecimal digits. -/
theorem hex_read {digits : List Nat} (small : ∀ digit ∈ digits, digit < 16) :
    stringToHex (digits.map hexByte) = some (BitVec.ofNat 32 (inBase 16 digits)) := by
  apply reads_number (fun _ => rfl) _ small
  intro start digit rest below
  rw [hex_read_digit below, BitVec.ofNat_add, BitVec.ofNat_mul, BitVec.shiftLeft_eq_mul_twoPow]
  rfl

/-- A hexadecimal digit is one as a character, and so is not the end of a string. -/
theorem hex_byte_digit : ∀ digit < 16, hexByte digit ≠ 0 ∧
    (hexDigit? (hexByte digit)).isSome = true := by
  decide

/-- `hex_to_string` writes the digits asked for. -/
theorem hex_written (memory : Mem) (str : Nat) (value : BitVec 32) (digits : Nat) :
    Written (hexToString memory str value digits) str
      ((lowDigits 16 digits value.toNat).reverse.map hexByte) := by
  have plain : 0 ∉ (lowDigits 16 digits value.toNat).reverse.map hexByte := by
    intro member
    obtain ⟨digit, inside, zero⟩ := List.mem_map.mp member
    have small := low_digits_lt (by decide : 0 < 16) digits value.toNat digit
      (List.mem_reverse.mp inside)
    exact (hex_byte_digit digit small).1 zero
  rw [hexToString, hex_loop_digits]
  exact puts_written memory str plain

/-- What `float_to_string` writes before it turns it round. -/
def floatBytes (value decimal : Nat) : List Byte :=
  (lowDigits 10 decimal value).map digitByte ++
    ((if decimal = 0 then [] else [point]) ++
      (allDigits 10 (value / 10 ^ decimal)).map digitByte)

/-- The loop of `float_to_string` writes the decimals, the point and what is left. -/
theorem float_loop_bytes (writer : Writer) (value decimal : Nat) :
    floatLoop decimal writer value 0 =
      (puts writer ((lowDigits 10 decimal value).map digitByte ++
        ((if decimal = 0 then [] else [point]) ++
          (Nat.digits 10 (value / 10 ^ decimal)).map digitByte)),
        decimal + (Nat.digits 10 (value / 10 ^ decimal)).length) := by
  cases decimal with
  | zero =>
    rw [float_loop_whole 0 writer value 0 (Nat.le_refl 0), Nat.pow_zero, Nat.div_one]
    rfl
  | succ left =>
    rw [float_loop_decimals (left + 1) writer value 0 left (Nat.zero_add _),
      float_loop_whole (left + 1) _ _ _ (Nat.le_refl _), ← puts_append, List.append_assoc,
      if_neg (Nat.succ_ne_zero left)]

/-- The zero that follows the loop of `float_to_string` is written when no digits were
left. -/
theorem float_bytes (writer : Writer) (value decimal : Nat) :
    (if (floatLoop decimal writer value 0).2 = decimal
      then put (floatLoop decimal writer value 0).1 0x30
      else (floatLoop decimal writer value 0).1) = puts writer (floatBytes value decimal) := by
  rw [float_loop_bytes, floatBytes, allDigits]
  by_cases none : value / 10 ^ decimal = 0
  · rw [none, Nat.digits_zero, List.map_nil, List.append_nil]
    refine (if_pos rfl).trans ?_
    rw [if_pos rfl, ← List.append_assoc]
    exact (puts_append writer _ [0x30#8]).symm
  · have positive : 0 < (Nat.digits 10 (value / 10 ^ decimal)).length :=
      List.length_pos_iff.mpr (Nat.digits_ne_nil_iff_ne_zero.mpr none)
    rw [if_neg (by omega), if_neg none]

/-- `float_to_string` writes these bytes, turned round. -/
theorem float_written (memory : Mem) (str : Nat) (value : BitVec 32) (decimal : Nat) :
    Written (floatToString memory str value decimal) str
      (floatBytes value.toNat decimal).reverse := by
  have fraction := low_digits_lt (by decide : 0 < 10) decimal value.toNat
  have whole := all_digits_lt (by decide : 1 < 10) (value.toNat / 10 ^ decimal)
  have nonempty : floatBytes value.toNat decimal ≠ [] := by
    have present : (allDigits 10 (value.toNat / 10 ^ decimal)).map digitByte ≠ [] :=
      List.map_eq_nil_iff.not.mpr (all_digits_ne_nil 10 _)
    exact List.append_ne_nil_of_right_ne_nil _ (List.append_ne_nil_of_right_ne_nil _ present)
  have noPoint : 0 ∉ (if decimal = 0 then [] else [point]) := by
    split
    case isTrue => exact List.not_mem_nil
    case isFalse => decide
  have plain : 0 ∉ floatBytes value.toNat decimal := by
    rw [floatBytes, List.mem_append, List.mem_append]
    exact not_or.mpr ⟨digits_plain fraction, not_or.mpr ⟨noPoint, digits_plain whole⟩⟩
  rw [floatToString, float_bytes]
  exact finish_written memory str nonempty plain

/-- The bytes turned round are a numeral of the number divided by a power of ten. -/
theorem float_numeral (value decimal : Nat) :
    Numeral (floatBytes value decimal).reverse decimal (value / 10 ^ decimal) := by
  refine ⟨(allDigits 10 (value / 10 ^ decimal)).reverse, (lowDigits 10 decimal value).reverse,
    ?_, ?_, ?_, ?_, ?_⟩
  · exact List.reverse_ne_nil_iff.mpr (all_digits_ne_nil 10 _)
  · intro digit member
    rcases List.mem_append.mp member with whole | fraction
    · exact all_digits_lt (by decide) _ digit (List.mem_reverse.mp whole)
    · exact low_digits_lt (by decide) _ _ digit (List.mem_reverse.mp fraction)
  · rw [List.length_reverse, low_digits_length]
  · rw [floatBytes, List.reverse_append, List.reverse_append, digits_reverse, digits_reverse,
      List.append_assoc]
    split
    case isTrue none =>
      rw [none]
      rfl
    case isFalse => rfl
  · rw [in_base_reverse, in_base_reverse, all_digits_value, low_digits_value]
    have power : (10 ^ decimal : ℚ) ≠ 0 := pow_ne_zero decimal (by norm_num)
    have whole :
        ((10 ^ decimal * (value / 10 ^ decimal) + value % 10 ^ decimal : Nat) : ℚ) = value :=
      congrArg Nat.cast (Nat.div_add_mod value (10 ^ decimal))
    rw [eq_div_iff power, add_mul, div_mul_cancel₀ _ power, mul_comm]
    push_cast at whole
    exact whole

/-- What the conversions of a number are for. -/
structure Formats (memory : Mem) (str : Nat) (value : BitVec 32) : Prop where
  dec : ∃ text, Written (decToString memory str value) str text ∧
    stringToDec text = some value ∧ (text.head? = some 0x30 → value = 0)
  hex : ∀ digits, 1 ≤ digits → digits ≤ 8 → value.toNat < 16 ^ digits →
    ∃ text, Written (hexToString memory str value digits) str text ∧ text.length = digits ∧
      (∀ byte ∈ text, (hexDigit? byte).isSome = true) ∧ stringToHex text = some value
  float : ∀ decimal, ∃ text, Written (floatToString memory str value decimal) str text ∧
    Numeral text decimal (value.toNat / 10 ^ decimal)

/-- `dec_to_string` and `string_to_dec` are inverse, and no zero leads. -/
theorem dec_formats (memory : Mem) (str : Nat) (value : BitVec 32) :
    ∃ text, Written (decToString memory str value) str text ∧
      stringToDec text = some value ∧ (text.head? = some 0x30 → value = 0) := by
  have small : ∀ digit ∈ (allDigits 10 value.toNat).reverse, digit < 10 := fun digit member =>
    all_digits_lt (by decide) value.toNat digit (List.mem_reverse.mp member)
  refine ⟨_, dec_written memory str value, ?_, ?_⟩
  · calc stringToDec ((allDigits 10 value.toNat).reverse.map digitByte)
      _ = some (BitVec.ofNat 32 (inBase 10 (allDigits 10 value.toNat).reverse)) := dec_read small
      _ = some (BitVec.ofNat 32 value.toNat) := by rw [in_base_reverse, all_digits_value]
      _ = some value := by rw [BitVec.ofNat_toNat, BitVec.setWidth_eq]
  · intro leads
    rw [List.head?_map, List.head?_reverse, Option.map_eq_some_iff] at leads
    obtain ⟨digit, highest, zero⟩ := leads
    have below := all_digits_lt (by decide : 1 < 10) value.toNat digit
      (List.mem_of_getLast? highest)
    have nothing : digit = 0 := by
      rw [← (digit_byte_range digit below).2.2, zero]
      rfl
    exact BitVec.eq_of_toNat_eq (all_digits_highest 10 value.toNat (nothing ▸ highest))

/-- `hex_to_string` and `string_to_hex` are inverse, for as many digits as it takes. -/
theorem hex_formats (memory : Mem) (str : Nat) (value : BitVec 32) (digits : Nat)
    (fits : value.toNat < 16 ^ digits) :
    ∃ text, Written (hexToString memory str value digits) str text ∧ text.length = digits ∧
      (∀ byte ∈ text, (hexDigit? byte).isSome = true) ∧ stringToHex text = some value := by
  have small : ∀ digit ∈ (lowDigits 16 digits value.toNat).reverse, digit < 16 :=
    fun digit member => low_digits_lt (by decide) digits value.toNat digit
      (List.mem_reverse.mp member)
  refine ⟨_, hex_written memory str value digits, ?_, ?_, ?_⟩
  · rw [List.length_map, List.length_reverse, low_digits_length]
  · intro byte member
    obtain ⟨digit, inside, rfl⟩ := List.mem_map.mp member
    exact (hex_byte_digit digit (small digit inside)).2
  · calc stringToHex ((lowDigits 16 digits value.toNat).reverse.map hexByte)
      _ = some (BitVec.ofNat 32 (inBase 16 (lowDigits 16 digits value.toNat).reverse)) :=
        hex_read small
      _ = some (BitVec.ofNat 32 value.toNat) := by
        rw [in_base_reverse, low_digits_value, Nat.mod_eq_of_lt fits]
      _ = some value := by rw [BitVec.ofNat_toNat, BitVec.setWidth_eq]

/-- Every number is written as it is read, in each of the three ways. -/
theorem number_formats (memory : Mem) (str : Nat) (value : BitVec 32) :
    Formats memory str value where
  dec := dec_formats memory str value
  hex := fun digits _ _ fits => hex_formats memory str value digits fits
  float := fun decimal =>
    ⟨_, float_written memory str value decimal, float_numeral value.toNat decimal⟩

end Pyrometer.NumberFormatting
