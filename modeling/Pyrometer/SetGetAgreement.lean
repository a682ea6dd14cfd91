import Mathlib.Data.List.TakeWhile
import Pyrometer.DeviceUse
import Pyrometer.SetFrame
import Pyrometer.UppGrammar

/-!
# Agreement of set and get commands

With the checks on, a query behind an accepted set command is to return what was set:
the canonical numeral for a number, the data themselves for a character or a checked
string. A row that is saved is to return it after a restart as well, whatever RAM
holds then.

Numbers and characters always come back. A string is checked and kept up to its first
zero only, while its length is that of the data, so data with a zero come back
shortened. The rows `OI`, `SN`, `SW` and `SM` are marked as saved, but their objects
lie in `sys_state`, which no storage holds.
-/

namespace Pyrometer.SetGetAgreement

open ByteMemory CText CommandTable ParameterLayout ParameterManager
open ParameterChecks ParameterLoading ParameterSaving ParameterRepair ParameterPersistence
open InstrumentState UppParser UppLines CommandExecution UppStream CommandReplies
open CommandEffects SetCommands SetFrame DeviceUse Instrument

/-- The width and the limits of a format for unsigned numbers. -/
def unsignedRule : RuleData → Option (Nat × Nat × Nat)
  | .u8 min max => some (1, min, max)
  | .u16 min max => some (2, min, max)
  | .u32 min max => some (4, min, max)
  | _ => none

/-- The formats of the commands that are to agree: unsigned numbers, characters and
strings with a check. -/
def agreeing : RuleData → Bool
  | .u8 _ _ => true
  | .u16 _ _ => true
  | .u32 _ _ => true
  | .c _ => true
  | .s (some _) => true
  | _ => false

/-- The number that digits behind an optional sign write. -/
def numberOf (data : List Byte) : Int :=
  if data.head? = some minus then -(decValue data.tail : Int) else decValue data

/-- What a query is to return for the data of a set command. -/
def canonical (rule : RuleData) (data : List Byte) : List Byte :=
  if (unsignedRule rule).isSome then signedDecimal (numberOf data) else data

/-- Every line that asks for a word is answered with a value. -/
def Returns (instrument : Instrument) (word value : List Byte) : Prop :=
  ∀ around line query, readLine (ownAddr instrument) line = .ok query → query.op = uppOpGet →
    query.word = word →
      (answerLine around line instrument).1 =
        answerAddr (parsedLine query) instrument ++ (0x21 :: word) ++ value ++ lineEnd

/-- A value is returned after a restart: the chips have kept their contents, `para_init`
has run, and anything may be in the rest of RAM. -/
def Survives (instrument : Instrument) (word value : List Byte) : Prop :=
  ∀ next restarted, next.chips = instrument.pmm.chips →
    restarted.pmm = paraInit delivered next → Returns restarted word value

/-- What is asked of a line: with the checks on, an executed command whose row can be asked
and has one of the formats is returned by queries, and after a restart if its row is
saved. The execution has called `pmm_save_group` then. -/
def SetGetAgree (around : Surroundings) (line : List Byte) (instrument : Instrument) : Prop :=
  ∀ parsed item, Accepted around line instrument parsed item → instrument.develop = false →
    item.props.contains .p = true → agreeing item.rule.data = true →
      Returns (answerLine around line instrument).2 item.cmd
          (canonical item.rule.data parsed.data) ∧
        (item.props.contains .m = true → Survives (answerLine around line instrument).2 item.cmd
          (canonical item.rule.data parsed.data))

/-- The data of a checked string have no zero, and the object of a saved row is a parameter. -/
def Agreeable (item : CmdItem) (data : List Byte) : Prop :=
  ((∃ chk, item.rule.data = .s (some chk)) → 0 ∉ data) ∧
    (item.props.contains .m = true → item.arg.target.region = .para)

/-- A digit and its value. -/
theorem dec_digit_some {byte : Byte} (digit : isDigit byte = true) :
    decDigit? byte = some (byte.toNat - 0x30) := by
  simp only [isDigit, Bool.and_eq_true, decide_eq_true_eq, BitVec.le_def] at digit
  exact if_pos digit

/-- Digits are read to their end. -/
theorem read_digits_all {digits : List Byte} (all : ∀ byte ∈ digits, isDigit byte = true) :
    (readDigits decDigit? digits).1 = digits.map (fun byte => byte.toNat - 0x30) := by
  induction digits with
  | nil => rfl
  | cons byte rest inductionHypothesis =>
    obtain ⟨digit, others⟩ := List.forall_mem_cons.mp all
    simp only [readDigits, dec_digit_some digit, List.map_cons]
    rw [inductionHypothesis others]

/-- The number that digits write, as both readers of numbers have it. -/
theorem in_base_digits (digits : List Byte) :
    inBase 10 (digits.map (fun byte => byte.toNat - 0x30)) = decValue digits := by
  rw [inBase, List.foldl_map]
  rfl

/-- A number has at most as many digits as it is written with. -/
theorem dec_value_lt {digits : List Byte} (all : ∀ byte ∈ digits, isDigit byte = true) :
    decValue digits < 10 ^ digits.length := by
  induction digits using List.reverseRecOn with
  | nil => decide
  | append_singleton digits last inductionHypothesis =>
    have before := inductionHypothesis (fun byte member => all byte (by simp [member]))
    have digit := all last (by simp)
    simp only [isDigit, Bool.and_eq_true, decide_eq_true_eq, BitVec.le_def] at digit
    have high : last.toNat ≤ 57 := digit.2
    have step : decValue (digits ++ [last]) = decValue digits * 10 + (last.toNat - 0x30) := by
      simp [decValue, decStep]
    rw [step, List.length_append, List.length_singleton, pow_succ]
    omega

/-- What is read as a whole number: digits, or digits behind a minus sign. -/
theorem dec_number_shape {str : List Byte} (whole : isDecNumber str = 1) :
    (∀ byte ∈ str, isDigit byte = true) ∨
      ∃ digits, str = minus :: digits ∧ ∀ byte ∈ digits, isDigit byte = true := by
  cases str with
  | nil => exact Or.inl (by simp)
  | cons first rest =>
    have counted : (first :: rest).countP isDigit + (if first = minus then 1 else 0) =
        (first :: rest).length := by
      by_contra other
      revert whole
      simp only [isDecNumber, List.getD_cons_zero]
      rw [if_neg (not_and.mpr (fun total => absurd total other))]
      split_ifs <;> decide
    by_cases signed : first = minus
    · subst signed
      refine Or.inr ⟨rest, rfl, ?_⟩
      rw [if_pos rfl, List.countP_cons_of_neg (by decide), List.length_cons] at counted
      exact List.countP_eq_length.mp (by omega)
    · rw [if_neg signed] at counted
      exact Or.inl (List.countP_eq_length.mp counted)

/-- No byte of a whole number is a zero. -/
theorem digit_nonzero {byte : Byte} (digit : isDigit byte = true) : byte ≠ 0 := by
  rintro rfl
  cases digit

/-- No digit is a space. -/
theorem digit_no_space {byte : Byte} (digit : isDigit byte = true) : isSpace byte = false := by
  revert byte
  decide

/-- A whole number as `sscanf` reads it. -/
theorem scan_digits {digits : List Byte} (all : ∀ byte ∈ digits, isDigit byte = true)
    {value : Nat} (scanned : scanUnsigned digits = some value) :
    value = unsigned false (decValue digits) := by
  cases digits with
  | nil => cases scanned
  | cons first rest =>
    have digit := all first (by simp)
    have noSpace := digit_no_space digit
    have noSign : first ≠ 0x2D ∧ first ≠ 0x2B := by
      constructor <;> rintro rfl <;> cases digit
    have read : readInteger false (first :: rest) = some (false, decValue (first :: rest)) := by
      rw [readInteger, List.dropWhile_cons_of_neg (by simp [noSpace])]
      simp only [readSign, if_neg noSign.1, if_neg noSign.2, Bool.false_eq_true, if_false]
      rw [read_digits_all all, in_base_digits]
      simp
    rw [scanUnsigned, read] at scanned
    exact (Option.some.inj scanned).symm

/-- A whole number behind a minus sign. -/
theorem scan_signed {digits : List Byte} (all : ∀ byte ∈ digits, isDigit byte = true)
    {value : Nat} (scanned : scanUnsigned (minus :: digits) = some value) :
    value = unsigned true (decValue digits) := by
  have read : readInteger false (minus :: digits) =
      if digits = [] then none else some (true, decValue digits) := by
    rw [readInteger, List.dropWhile_cons_of_neg (by decide)]
    have sign : readSign (minus :: digits) = (true, digits) := rfl
    simp only [sign, Bool.false_eq_true, if_false]
    rw [read_digits_all all, in_base_digits]
    simp only [List.map_eq_nil_iff]
  rw [scanUnsigned, read] at scanned
  split_ifs at scanned
  · cases scanned
  · exact (Option.some.inj scanned).symm

/-- The digits of a whole number that is not negative. -/
theorem signed_decimal_nat (value : Nat) : signedDecimal value = decimal value := by
  rw [signedDecimal, if_neg (by omega), Int.natAbs_natCast]

/-- A number within its limits, as it was written. A number below zero has nine digits at
most and wraps around to one above the limit. -/
theorem unsigned_canonical {parse : Parse} {min max value : Nat}
    (short : (raw parse).length ≤ 10) (small : max ≤ 3000000000)
    (read : readUnsigned false parse min max = .ok value) :
    signedDecimal (numberOf (raw parse)) = decimal value := by
  have range := (read_unsigned_range read).2
  unfold readUnsigned at read
  split_ifs at read with shaped
  rw [not_not] at shaped
  have scanned : scanUnsigned (text parse) = some value := by
    cases scan : scanUnsigned (text parse) with
    | none =>
      rw [scan] at read
      cases read
    | some number =>
      rw [scan] at read
      simp only [and_true] at read
      split_ifs at read
      rw [Except.ok.inj read]
  have limit : value ≤ 3000000000 := range.trans small
  rw [text] at scanned
  rcases dec_number_shape shaped with all | ⟨digits, signed, all⟩
  · have plain : cString (raw parse) = raw parse :=
      (c_string_eq_iff _).mpr (fun member => digit_nonzero (all 0 member) rfl)
    rw [plain] at scanned
    have number := scan_digits all scanned
    have positive : (raw parse).head? ≠ some minus := by
      intro head
      have sign := all minus (List.mem_of_mem_head? head)
      cases sign
    have size : decValue (raw parse) = value := by
      simp only [unsigned, Bool.false_eq_true, if_false] at number
      split_ifs at number
      · omega
      · exact number.symm
    rw [numberOf, if_neg positive, size, signed_decimal_nat]
  · have plain : cString (raw parse) = raw parse := by
      rw [c_string_eq_iff, signed]
      intro member
      rcases List.mem_cons.mp member with sign | digit
      · cases sign
      · exact digit_nonzero (all 0 digit) rfl
    rw [plain, signed] at scanned
    have number := scan_signed all scanned
    have few : digits.length ≤ 9 := by
      rw [signed, List.length_cons] at short
      omega
    have below : decValue digits < 10 ^ 9 :=
      (dec_value_lt all).trans_le (Nat.pow_le_pow_right (by decide) few)
    have zero : decValue digits = 0 ∧ value = 0 := by
      rw [number, unsigned, if_neg (by omega), if_pos rfl] at limit
      rw [number, unsigned, if_neg (by omega), if_pos rfl]
      omega
    rw [signed, numberOf, List.head?_cons, if_pos rfl, List.tail_cons, zero.1, zero.2]
    rfl

/-- The bytes that a command with the checks on writes to its object at most. -/
def objectSize (item : CmdItem) : Nat :=
  match item.rule.data with
  | .s _ => item.rule.maxLen + 1
  | data => fmtWidth data

/-- The format is that of a character. -/
def isChar : RuleData → Bool
  | .c _ => true
  | _ => false

/-- The rows that are to agree: what their formats allow. -/
theorem agreeing_rows : ∀ item ∈ cmdTbl, item.props.contains .s = true →
    agreeing item.rule.data = true →
      isNeedConverUnit item.cmd = false ∧ isCoefCmd item.id = false ∧ item.id ≠ .cmdCa ∧
        (∀ rule ∈ unsignedRule item.rule.data, rule.2.2 < 256 ^ rule.1 ∧
          rule.2.2 ≤ 3000000000 ∧ item.rule.maxLen ≤ 10) ∧
        (isChar item.rule.data = true → item.rule.maxLen = 1) ∧
        item.arg.target.offset + objectSize item ≤ regionSize item.arg.target.region := by
  decide +kernel

/-- The rows that are to agree: where their objects lie. -/
theorem agreeing_objects : ∀ item ∈ cmdTbl, item.props.contains .s = true →
    agreeing item.rule.data = true →
      InGroup item.group ⟨item.arg.target.region, item.arg.target.offset, objectSize item⟩ ∧
        (item.id ≠ .cmdBr → Apart ((assigned item.id).map Member.target)
          ⟨item.arg.target.region, item.arg.target.offset, objectSize item⟩) ∧
        ((uvcRequest item.id).isSome = true → Apart
          [Member.videoCtlState.target, Member.videoCtlVal.target]
          ⟨item.arg.target.region, item.arg.target.offset, fmtWidth item.rule.data⟩ ∧
            (unsignedRule item.rule.data).isSome = true) ∧
        (item.arg.target.region = .para → item.id ≠ .cmdDa → ParameterLayout.devAddr <
          item.arg.target.offset ∨
            item.arg.target.offset + objectSize item ≤ ParameterLayout.devAddr) := by
  decide +kernel

/-- The rows that are named in the argument, and those that are saved without a place. -/
theorem special_objects : ∀ item ∈ cmdTbl, item.props.contains .s = true →
    (item.id = .cmdBr → item.arg = .portBaudrate ∧ objectSize item = 4) ∧
      (item.id = .cmdDa → item.arg = .devAddr ∧ item.rule.data = .u8 0 32) ∧
      (agreeing item.rule.data = true → item.props.contains .m = true →
        item.arg.target.region = .state → (unsignedRule item.rule.data).map Prod.fst = some 4) := by
  decide +kernel

/-- The word of a line that was read has one to four uppercase letters. -/
theorem read_word {own : Byte} {line : List Byte} {parsed : Line}
    (read : readLine own line = .ok parsed) :
    (1 ≤ parsed.word.length ∧ parsed.word.length ≤ 4) ∧
      ∀ byte ∈ parsed.word, isUpper byte = true := by
  obtain ⟨_, _, behind⟩ := bind_ok read
  generalize line.drop (lineAddress line).length = body at behind
  rw [readBody] at behind
  split_ifs at behind with query
  · obtain ⟨word, taken, made⟩ := bind_ok behind
    obtain rfl := Except.ok.inj made
    obtain ⟨positive, small, rfl, upper⟩ := UppGrammar.take_word_ok taken
    have narrow := Nat.mod_le body.tail.length 256
    refine ⟨?_, upper⟩
    rw [List.length_take]
    omega
  · cases place : body.findIdx? (fun byte => byte == uppOpSet) with
    | none =>
      rw [place] at behind
      cases behind
    | some length =>
      rw [place] at behind
      obtain ⟨word, taken, made⟩ := bind_ok behind
      split_ifs at made
      obtain rfl := Except.ok.inj made
      obtain ⟨positive, small, rfl, upper⟩ := UppGrammar.take_word_ok taken
      have narrow := Nat.mod_le length 256
      have inside : length < body.length := (List.findIdx?_eq_some_iff_getElem.mp place).1
      refine ⟨?_, upper⟩
      rw [List.length_take]
      omega

/-- The object of a row with the bytes of an attempt in it. -/
def placed (item : CmdItem) (bytes : List Byte) : Overrun :=
  ⟨item.arg.target.region, item.arg.target.offset, bytes⟩

/-- With the checks on, an attempt writes no more than its object may hold. -/
theorem attempt_size {instrument : Instrument} {line : List Byte} {parsed : Line} {item : CmdItem}
    {bytes : List Byte} (attempt : Attempt instrument line parsed item bytes)
    (checks : instrument.develop = false) : bytes.length ≤ objectSize item := by
  have short := text_length attempt checks
  by_cases string : ∃ chk, item.rule.data = .s chk
  · obtain ⟨chk, rule⟩ := string
    rw [new_bytes_text rule attempt.value, text, raw_parsed, List.length_append, objectSize, rule]
    simpa using short
  · have length := new_bytes_length (fun chk rule => string ⟨chk, rule⟩) attempt.value
    rw [length, objectSize]
    split
    · rename_i chk rule
      exact absurd ⟨chk, rule⟩ string
    · exact le_rfl

/-- A smaller object is apart from what a larger one is apart from. -/
theorem apart_shorter {targets : List Target} {region : Region} {offset size smaller : Nat}
    (apart : Apart targets ⟨region, offset, size⟩) (fits : smaller ≤ size) :
    Apart targets ⟨region, offset, smaller⟩ := by
  intro other listed
  rcases apart other listed with different | before | behind
  · exact Or.inl different
  · exact Or.inr (Or.inl before)
  · exact Or.inr (Or.inr ((Nat.add_le_add_left fits offset).trans behind))

/-- A smaller object is in the group of a larger one. -/
theorem in_group_shorter {group : ParaType} {region : Region} {offset size smaller : Nat}
    (inGroup : InGroup group ⟨region, offset, size⟩) (fits : smaller ≤ size) :
    InGroup group ⟨region, offset, smaller⟩ :=
  fun para => ⟨(inGroup para).1, (Nat.add_le_add_left fits offset).trans (inGroup para).2⟩

/-- A rate that was accepted stays. -/
theorem pc_init_valid {instrument : Instrument}
    (valid : isValidBaudrate (instrument.value .portBaudrate) = true) :
    (pcInit instrument).pmm = instrument.pmm := by
  rw [pcInit, if_pos valid]

/-- The bytes of an accepted command are in its object when the callback is done. -/
theorem accepted_placed (around : Surroundings) {instrument : Instrument} {line : List Byte}
    {parsed : Line} {item : CmdItem} {bytes : List Byte} {left : Instrument}
    (attempt : Attempt instrument line parsed item bytes) (checks : instrument.develop = false)
    (format : agreeing item.rule.data = true)
    (called : setEffect around (parsedLine parsed) (written instrument item bytes) item.id =
      (true, left)) : (placed item bytes).There left := by
  have there : (placed item bytes).There (written instrument item bytes) :=
    store_read instrument item.arg.target.offset bytes item.arg.target.region
  have size := attempt_size attempt checks
  obtain ⟨_, apart, _⟩ := agreeing_objects item attempt.listed attempt.settable format
  obtain ⟨_, plain, other, _⟩ := agreeing_rows item attempt.listed attempt.settable format
  obtain ⟨rate, _⟩ := special_objects item attempt.listed attempt.settable
  by_cases baud : item.id = .cmdBr
  · obtain ⟨arg, _⟩ := rate baud
    rw [baud, setEffect] at called
    split_ifs at called with valid
    · obtain rfl : pcInit (written instrument item bytes) = left := congrArg Prod.snd called
      have para : item.arg.target.region = .para := by rw [arg]; rfl
      rw [Overrun.There, placed, para] at there ⊢
      rw [Instrument.region, pc_init_valid valid]
      exact there
    · cases called
  · have effect := set_effect_confined around (parsedLine parsed) (written instrument item bytes)
      item.id
    rw [called, effectTargets, loaded, if_neg (by simp [plain]), if_neg other, List.append_nil,
      List.append_nil] at effect
    exact there_kept effect (apart_shorter (apart baud) size) there

/-- The bytes of an accepted command are in its object behind the command. -/
theorem kept_placed (around : Surroundings) {instrument : Instrument} {line : List Byte}
    {parsed : Line} {item : CmdItem} {bytes : List Byte} {left : Instrument}
    (attempt : Attempt instrument line parsed item bytes) (checks : instrument.develop = false)
    (format : agreeing item.rule.data = true)
    (called : setEffect around (parsedLine parsed) (written instrument item bytes) item.id =
      (true, left)) : (placed item bytes).There (kept item left) := by
  obtain ⟨inGroup, _⟩ := agreeing_objects item attempt.listed attempt.settable format
  exact there_after_save (in_group_shorter inGroup (attempt_size attempt checks))
    (accepted_placed around attempt checks format called)

/-- What the formats for unsigned numbers have in common. -/
theorem unsigned_format {item : CmdItem} {width min max : Nat}
    (rule : unsignedRule item.rule.data = some (width, min, max)) :
    (∀ instrument parse, newBytes instrument parse item =
        (readUnsigned instrument.develop parse min max).map (leBytes width)) ∧
      (∀ memory start limit, dataToString memory start limit item.rule.data =
        decimal (littleEndian (toList memory start width))) ∧
      fmtWidth item.rule.data = width := by
  cases format : item.rule.data <;> rw [format] at rule <;> cases rule
  all_goals
    refine ⟨fun instrument parse => ?_, fun memory start limit => rfl, rfl⟩
    rw [newBytes, format]

/-- A string that is followed by its zero, in memory. -/
theorem string_at_placed {memory : Mem} {start limit : Nat} {string : List Byte}
    (stored : toList memory start (string ++ [0]).length = string ++ [0]) (plain : 0 ∉ string)
    (fits : (string ++ [0]).length ≤ limit) : stringAt memory start limit = string := by
  have nonzero : ∀ byte ∈ string, (byte != 0) = true := by
    intro byte member
    rw [bne_iff_ne]
    rintro rfl
    exact plain member
  obtain ⟨rest, rfl⟩ := Nat.exists_eq_add_of_le fits
  rw [stringAt, to_list_append, stored, cString, List.append_assoc,
    List.takeWhile_append_of_pos nonzero]
  simp

/-- What a query shows of data that were set: a string up to its first zero, the rest as it
is to be. -/
def shown (rule : RuleData) (data : List Byte) : List Byte :=
  match rule with
  | .s _ => cString data
  | rule => canonical rule data

/-- The character that one byte of data was read as. -/
theorem read_char_data {develop : Bool} {parsed : Line} {str : List Byte} {value : Byte}
    (short : parsed.data.length ≤ 1)
    (read : readChar develop (parsedLine parsed) str = .ok value) : parsed.data = [value] := by
  unfold readChar at read
  rw [text, raw_parsed, scanChar] at read
  cases data : parsed.data with
  | nil =>
    rw [data] at read
    cases read
  | cons first rest =>
    rw [data, List.length_cons] at short
    obtain rfl : rest = [] := List.eq_nil_of_length_eq_zero (by omega)
    rw [data] at read
    by_cases zero : first = 0
    · subst zero
      cases read
    · have head : (cString [first]).head? = some first := by
        have plain : (first != 0) = true := bne_iff_ne.mpr zero
        simp only [cString, List.takeWhile_cons, plain, if_true, List.head?_cons]
      rw [head] at read
      simp only at read
      split_ifs at read
      rw [Except.ok.inj read]

/-- The text of an object that holds the bytes of an attempt. -/
theorem placed_text {instrument after : Instrument} {line : List Byte} {parsed : Line}
    {item : CmdItem} {bytes : List Byte} (attempt : Attempt instrument line parsed item bytes)
    (checks : instrument.develop = false) (format : agreeing item.rule.data = true)
    (there : (placed item bytes).There after) :
    objectText after item = shown item.rule.data parsed.data := by
  obtain ⟨_, _, _, limits, one, inside⟩ := agreeing_rows item attempt.listed attempt.settable format
  have size := attempt_size attempt checks
  have short : parsed.data.length ≤ item.rule.maxLen := by
    rcases attempt.length with ⟨_, short⟩ | develop
    · exact short
    · rw [checks] at develop
      cases develop
  rw [objectText]
  cases rule : unsignedRule item.rule.data with
  | some limit =>
    obtain ⟨width, min, max⟩ := limit
    obtain ⟨small, low, ten⟩ := limits _ rule
    obtain ⟨reads, writes, _⟩ := unsigned_format rule
    have passed := attempt.value
    rw [reads, checks] at passed
    obtain ⟨value, read, rfl⟩ := map_ok passed
    have range : value < 256 ^ width := (read_unsigned_range read).2.trans_lt small
    have number := unsigned_canonical (by rw [raw_parsed]; exact short.trans ten) low read
    rw [raw_parsed] at number
    rw [Overrun.There, placed, le_bytes_length] at there
    rw [writes, there, little_endian_le_bytes, Nat.mod_eq_of_lt range, ← number]
    cases data : item.rule.data <;> rw [data] at rule <;> cases rule <;> rfl
  | none =>
    cases data : item.rule.data with
    | s chk =>
      obtain rfl := new_bytes_text data attempt.value
      rw [text, raw_parsed] at there size
      exact string_at_placed there (c_string_plain _) (size.trans (Nat.le_sub_of_add_le (by
        rw [Nat.add_comm]
        exact inside)))
    | c str =>
      have passed := attempt.value
      rw [newBytes, data] at passed
      obtain ⟨value, read, rfl⟩ := map_ok passed
      have single := one (by rw [data]; rfl)
      have same : parsed.data = [value] := read_char_data (by omega) read
      have kept : toList (after.region item.arg.target.region) item.arg.target.offset 1 =
          [value] := there
      have character : shown (.c str) [value] = [value] := rfl
      rw [to_list_one] at kept
      rw [same, character]
      exact kept
    | _ => simp_all [agreeing, unsignedRule]

/-- A camera request leaves the text of an object that is apart from it. -/
theorem uvc_text (instrument : Instrument) {item : CmdItem} (request : Nat)
    (apart : Apart [Member.videoCtlState.target, Member.videoCtlVal.target]
      ⟨item.arg.target.region, item.arg.target.offset, fmtWidth item.rule.data⟩)
    (number : (unsignedRule item.rule.data).isSome = true) :
    objectText (uvcControl instrument request) item = objectText instrument item := by
  obtain ⟨⟨width, min, max⟩, rule⟩ := Option.isSome_iff_exists.mp number
  obtain ⟨_, writes, size⟩ := unsigned_format rule
  rw [size] at apart
  rw [objectText, objectText, writes, writes]
  exact congrArg (fun bytes => decimal (littleEndian bytes)) (to_list_congr (fun _ low high =>
    confined_uvc instrument request _ _ (apart_outside apart low high)))

/-- A query of a row is answered with the text of its object. -/
theorem query_answered (around : Surroundings) {instrument : Instrument} {line : List Byte}
    {query : Line} {item : CmdItem} (read : readLine (ownAddr instrument) line = .ok query)
    (asked : query.op = uppOpGet) (row : cmdFound query.word = some item)
    (settable : item.props.contains .s = true) (pollable : item.props.contains .p = true)
    (format : agreeing item.rule.data = true) :
    (answerLine around line instrument).1 = answerAddr (parsedLine query) instrument ++
      (0x21 :: item.cmd) ++ objectText instrument item ++ lineEnd := by
  have listed := (cmd_found_row row).1
  obtain ⟨plainUnit, plainCoef, _⟩ := agreeing_rows item listed settable format
  obtain ⟨_, _, camera, _⟩ := agreeing_objects item listed settable format
  have noAlgo : item.id ≠ .cmdAp := by
    intro algo
    rw [algo] at plainCoef
    cases plainCoef
  have op : (parsedLine query).op = uppOpGet := asked
  have noSet : ¬((parsedLine query).op = uppOpSet ∧ item.props.contains .n = false) := by
    rw [op]
    exact fun both => absurd both.1 (by decide)
  have noText : (parsedLine query).dataOutEn = false := rfl
  have shows : ∀ left, uppRspBuildFlk (parsedLine query) item left =
      answerAddr (parsedLine query) left ++ (0x21 :: item.cmd) ++ objectText left item ++
        lineEnd := by
    intro left
    rw [uppRspBuildFlk, if_neg noSet, payload, plainUnit, noText]
    rfl
  rw [answer_query around read asked row pollable, executeGet, if_neg noAlgo,
    if_neg (by simp [plainCoef])]
  cases request : uvcRequest item.id with
  | none => exact shows instrument
  | some number =>
    obtain ⟨apart, unsigned⟩ := camera (by rw [request]; rfl)
    have address : (uvcControl instrument (number + 5)).value .devAddr =
        instrument.value .devAddr :=
      value_kept (confined_uvc instrument (number + 5)) (by decide)
    simp only [shows, uvc_text instrument (number + 5) apart unsigned, answerAddr, address]

/-- The address of all devices. -/
def everyone : List Byte := ascii "099"

/-- Every device reads a line that is sent to all. -/
theorem everyone_read (own : Byte) {op : Byte} {word data : List Byte}
    (counted : 1 ≤ word.length ∧ word.length ≤ 4) (upper : ∀ byte ∈ word, isUpper byte = true)
    (asked : (op = uppOpGet ∧ data = []) ∨ (op = uppOpSet ∧ data ≠ [] ∧ carriageReturn ∉ data)) :
    readLine own (UppGrammar.text ⟨everyone, op, word, data⟩) = .ok ⟨everyone, op, word, data⟩ := by
  have broadcast : decValue everyone = broadcastAddr := by decide
  have digits : everyone.length = addrLen ∧ ∀ byte ∈ everyone, isDigit byte = true := by decide
  have formed : UppGrammar.WellFormed own ⟨everyone, op, word, data⟩ :=
    ⟨Or.inr digits, Or.inr broadcast, counted, upper, asked⟩
  exact (UppGrammar.read_line_formed formed).1 (Or.inr broadcast)

/-- The queries of a row return a value exactly when it is the text of the object. -/
theorem returns_iff (instrument : Instrument) {before : Instrument} {line : List Byte}
    {parsed : Line} {item : CmdItem} {bytes : List Byte}
    (attempt : Attempt before line parsed item bytes) (pollable : item.props.contains .p = true)
    (format : agreeing item.rule.data = true) (value : List Byte) :
    Returns instrument item.cmd value ↔ objectText instrument item = value := by
  have row := attempt.row
  have settable := attempt.settable
  obtain ⟨counted, upper⟩ := read_word attempt.read
  rw [← (cmd_found_row attempt.row).2] at row counted upper
  constructor
  · intro returns
    have read := everyone_read (ownAddr instrument) counted upper (Or.inl ⟨rfl, rfl⟩)
    have answer := returns quiet _ _ read rfl rfl
    rw [query_answered quiet read rfl row settable pollable format] at answer
    exact List.append_cancel_left (List.append_cancel_right answer)
  · rintro rfl around line query read asked word
    rw [← word] at row
    exact query_answered around read asked row settable pollable format

/-- The device address of an accepted command is within its limits. -/
theorem address_accepted {instrument after : Instrument} {line : List Byte} {parsed : Line}
    {item : CmdItem} {bytes : List Byte} (attempt : Attempt instrument line parsed item bytes)
    (checks : instrument.develop = false) (address : item.id = .cmdDa)
    (there : (placed item bytes).There after) : addrRejected after.pmm.sysPara = false := by
  obtain ⟨_, row, _⟩ := special_objects item attempt.listed attempt.settable
  obtain ⟨arg, rule⟩ := row address
  have passed := attempt.value
  rw [newBytes, rule, checks] at passed
  obtain ⟨value, read, rfl⟩ := map_ok passed
  have range := (read_unsigned_range read).2
  rw [Overrun.There, placed, arg, le_bytes_length, to_list_one] at there
  have byte : after.pmm.sysPara ParameterLayout.devAddr = BitVec.ofNat 8 value :=
    (List.cons.inj there).1
  have limits : ParameterManager.devMaxAddr = 32 ∧ devMinAddr = 0 := ⟨rfl, rfl⟩
  rw [addrRejected, byte, BitVec.toNat_ofNat, decide_eq_false_iff_not]
  omega

/-- The bytes of a saved parameter are in its object after a restart. -/
theorem restarted_placed {instrument saved restarted : Instrument} {line : List Byte}
    {parsed : Line} {item : CmdItem} {bytes : List Byte} {next : Pmm}
    (attempt : Attempt instrument line parsed item bytes) (checks : instrument.develop = false)
    (format : agreeing item.rule.data = true) (para : item.arg.target.region = .para)
    (there : (placed item bytes).There saved) (current : UserCurrent saved.pmm)
    (contents : next.chips = saved.pmm.chips)
    (booted : restarted.pmm = paraInit delivered next) : (placed item bytes).There restarted := by
  obtain ⟨inGroup, _, _, elsewhere⟩ :=
    agreeing_objects item attempt.listed attempt.settable format
  have inside := in_group_shorter inGroup (attempt_size attempt checks) para
  have size := attempt_size attempt checks
  have restores := reboot_restores current contents item.group
  rw [Overrun.There, placed, para] at there ⊢
  refine Eq.trans (to_list_congr (fun address low high => ?_)) there
  have above : item.arg.target.offset ≤ address := low
  have below : address < item.arg.target.offset + bytes.length := high
  have restored := restores address (inside.1.trans above) (below.trans_le inside.2)
  have kept : ¬(address = ParameterLayout.devAddr ∧ addrRejected saved.pmm.sysPara = true) := by
    rintro ⟨rfl, rejected⟩
    by_cases device : item.id = .cmdDa
    · have accepted := address_accepted attempt checks device (by
        rw [Overrun.There, placed, para]
        exact there)
      rw [accepted] at rejected
      cases rejected
    · rcases elsewhere para device with before | behind
      · omega
      · omega
  rw [if_neg kept] at restored
  show restarted.pmm.sysPara address = saved.pmm.sysPara address
  rw [booted, restored]

/-- A number in `sys_state` is not what every restart leaves there. -/
theorem state_forgotten (saved : Instrument) {before : Instrument} {line : List Byte}
    {parsed : Line} {item : CmdItem} {bytes : List Byte}
    (attempt : Attempt before line parsed item bytes) (pollable : item.props.contains .p = true)
    (format : agreeing item.rule.data = true) (stored : item.props.contains .m = true)
    (state : item.arg.target.region = .state) (value : List Byte) :
    ¬Survives saved item.cmd value := by
  intro survives
  obtain ⟨_, _, four⟩ := special_objects item attempt.listed attempt.settable
  obtain ⟨⟨width, min, max⟩, rule, wide⟩ :=
    Option.map_eq_some_iff.mp (four format stored state)
  obtain rfl : width = 4 := wide
  obtain ⟨_, writes, _⟩ := unsigned_format rule
  have texts : ∀ ram : Mem,
      decimal (littleEndian (toList ram item.arg.target.offset 4)) = value := by
    intro ram
    have returns := survives saved.pmm
      { saved with pmm := paraInit delivered saved.pmm, sysState := ram } rfl rfl
    rw [returns_iff _ attempt pollable format, objectText, writes, state] at returns
    exact returns
  have cleared := texts (fun _ => 0)
  have filled := texts (fun _ => 1)
  have bytes : ∀ byte : Byte, toList (fun _ => byte) item.arg.target.offset 4 =
      [byte, byte, byte, byte] := fun _ => rfl
  rw [← cleared, bytes, bytes] at filled
  exact absurd filled (by decide)

/-- An accepted command agrees with the queries behind it exactly when its data and its row
are agreeable. -/
theorem accepted_agree_iff (around : Surroundings) {instrument : Instrument} {line : List Byte}
    {parsed : Line} {item : CmdItem} {bytes : List Byte} {left : Instrument}
    (sound : instrument.pmm.Sound) (attempt : Attempt instrument line parsed item bytes)
    (checks : instrument.develop = false) (pollable : item.props.contains .p = true)
    (format : agreeing item.rule.data = true)
    (called : setEffect around (parsedLine parsed) (written instrument item bytes) item.id =
      (true, left)) :
    (Returns (kept item left) item.cmd (canonical item.rule.data parsed.data) ∧
        (item.props.contains .m = true →
          Survives (kept item left) item.cmd (canonical item.rule.data parsed.data))) ↔
      Agreeable item parsed.data := by
  have there := kept_placed around attempt checks format called
  have asText : shown item.rule.data parsed.data = canonical item.rule.data parsed.data ↔
      ((∃ chk, item.rule.data = .s (some chk)) → 0 ∉ parsed.data) := by
    cases rule : item.rule.data with
    | s chk =>
      cases chk with
      | none =>
        rw [rule] at format
        cases format
      | some chk =>
        have whole : canonical (.s (some chk)) parsed.data = parsed.data := rfl
        rw [shown, whole, c_string_eq_iff]
        exact ⟨fun plain _ => plain, fun plain => plain ⟨chk, rfl⟩⟩
    | _ => exact ⟨fun _ string => by simp at string, fun _ => rfl⟩
  have returned : Returns (kept item left) item.cmd (canonical item.rule.data parsed.data) ↔
      ((∃ chk, item.rule.data = .s (some chk)) → 0 ∉ parsed.data) := by
    rw [returns_iff _ attempt pollable format, placed_text attempt checks format there,
      asText]
  rw [returned, Agreeable]
  refine and_congr_right (fun plain => forall_congr' (fun stored => ?_))
  constructor
  · intro survives
    by_contra other
    have state : item.arg.target.region = .state := by
      cases region : item.arg.target.region with
      | para => exact absurd region other
      | state => rfl
    exact state_forgotten _ attempt pollable format stored state _ survives
  · intro para next restarted contents booted
    have leftSound : left.pmm.Sound := by
      have after := set_effect_sound around (parsedLine parsed)
        (store_sound sound item.arg.target.offset bytes item.arg.target.region) item.id
      rw [← written, called] at after
      exact after
    have saves : kept item left = left.saveGroup item.group := if_pos stored
    have saved := group_save item.group left.pmm leftSound
    have current : UserCurrent (kept item left).pmm := by
      rw [saves]
      exact ⟨saved.valid, saved.user⟩
    rw [returns_iff _ attempt pollable format, placed_text attempt checks format
      (restarted_placed attempt checks format para there current contents booted)]
    exact asText.mpr plain

/-- For a device in use, an accepted set command is returned by the queries behind it, and
after a restart if its row is saved, exactly when the data of a checked string have no zero
and the object of a saved row is a parameter. -/
theorem set_get_agree_iff (around : Surroundings) (line : List Byte) (instrument : Instrument)
    (reachable : Reachable instrument) :
    SetGetAgree around line instrument ↔
      ∀ parsed item, Accepted around line instrument parsed item → instrument.develop = false →
        item.props.contains .p = true → agreeing item.rule.data = true →
          Agreeable item parsed.data := by
  refine forall_congr' (fun parsed => forall_congr' (fun item => forall_congr' (fun accepted =>
    forall_congr' (fun checks => forall_congr' (fun pollable =>
      forall_congr' (fun format => ?_))))))
  obtain ⟨bytes, left, attempt, called⟩ := accepted.attempt
  rw [answer_accepted around attempt called]
  exact accepted_agree_iff around (reachable_sound reachable) attempt checks pollable format called

/-- A device that has started on erased chips. -/
def startedDevice : Instrument := startedOn ⟨fun _ => NorFlash.erased, fun _ => NorFlash.erased⟩

/-- A new unit is returned, after a restart as well. -/
theorem unit_agrees : SetGetAgree quiet (UppGrammar.text ⟨everyone, uppOpSet, ascii "U", ascii "F"⟩)
    startedDevice := by
  refine (set_get_agree_iff quiet _ _ (started_reachable _)).mpr
    (fun parsed item accepted _ _ _ => ?_)
  have read : readLine (ownAddr startedDevice)
      (UppGrammar.text ⟨everyone, uppOpSet, ascii "U", ascii "F"⟩) = .ok _ :=
    everyone_read _ (by decide) (by decide) (Or.inr ⟨rfl, by decide, by decide⟩)
  obtain rfl := Except.ok.inj (accepted.read.symm.trans read)
  have row : ∀ item ∈ cmdTbl, item.cmd = ascii "U" →
      (∀ chk ∈ [StrChk.pureDigit, .checkFmt, .validIp, .cmdList], item.rule.data ≠ .s (some chk)) ∧
        item.arg.target.region = .para := by decide +kernel
  obtain ⟨listed, word⟩ := cmd_found_row accepted.row
  obtain ⟨noText, para⟩ := row item listed word
  refine ⟨?_, fun _ => para⟩
  rintro ⟨chk, rule⟩
  exact absurd rule (noText chk (by cases chk <;> decide))

/-- An IP address with a zero behind it. -/
def endedIp : List Byte := ascii "1.2.3.4" ++ [0]

/-- The row of the IP address. -/
def ipRow : CmdItem :=
  ⟨ascii "IP", .cmdIp, .net, [.p, .s, .n, .m], ⟨7, 15, .s (some .validIp)⟩, .netIpAddr⟩

/-- An IP address with a zero behind it is accepted and comes back without the zero. -/
theorem ended_ip_shortened : Reachable startedDevice ∧
    ¬SetGetAgree quiet (UppGrammar.text ⟨everyone, uppOpSet, ascii "IP", endedIp⟩)
      startedDevice := by
  refine ⟨started_reachable _, fun agree => ?_⟩
  have checks : startedDevice.develop = false := rfl
  have read : readLine (ownAddr startedDevice)
      (UppGrammar.text ⟨everyone, uppOpSet, ascii "IP", endedIp⟩) = .ok _ :=
    everyone_read _ (by decide) (by decide) (Or.inr ⟨rfl, by decide, by decide⟩)
  have passed : newBytes startedDevice
      (parsedLine ⟨everyone, uppOpSet, ascii "IP", endedIp⟩) ipRow =
        .ok (ascii "1.2.3.4" ++ [0]) := by
    have text : text (parsedLine ⟨everyone, uppOpSet, ascii "IP", endedIp⟩) = ascii "1.2.3.4" := by
      decide
    have valid : strChk .validIp (ascii "1.2.3.4") = true := by decide
    simp only [newBytes, ipRow, readText, text, valid, Bool.true_eq_false, false_and, if_false]
  have attempt : Attempt startedDevice
      (UppGrammar.text ⟨everyone, uppOpSet, ascii "IP", endedIp⟩)
      ⟨everyone, uppOpSet, ascii "IP", endedIp⟩ ipRow (ascii "1.2.3.4" ++ [0]) :=
    ⟨read, rfl, by decide, by decide, rfl, Or.inl (by decide), passed⟩
  have called : setEffect quiet (parsedLine ⟨everyone, uppOpSet, ascii "IP", endedIp⟩)
      (written startedDevice ipRow (ascii "1.2.3.4" ++ [0])) ipRow.id =
        (true, written startedDevice ipRow (ascii "1.2.3.4" ++ [0])) := rfl
  have accepted := attempt_accepted quiet attempt called
  have agreed := agree _ _ accepted checks (by decide) rfl
  rw [answer_accepted quiet attempt called] at agreed
  have plain := ((accepted_agree_iff quiet (reachable_sound (started_reachable _)) attempt checks
    (by decide) rfl called).mp agreed).1 ⟨.validIp, rfl⟩
  exact plain (by decide)

end Pyrometer.SetGetAgreement
