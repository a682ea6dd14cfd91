import Pyrometer.CommandRanges
import Pyrometer.FloatOrder

/-!
# The limits of the device and of the analog output

The range of the device and that of the analog output are pairs of settings of their
own. A command for one of the four checks it against some of the others and only when
it is set; the pages of the panel, `do_analog_out_low` and `do_analog_out_high` of
`display.c`, keep a turned value in the range of the device but do not look at the
other limit. A run is a list of commands and of passes of these pages, in any order.

A pass finds the `ui` that keys and other pages left behind, so it may be any. What it
draws is left out. Commands read and convert decimal numbers, which never gives what is
no number.
-/

namespace Pyrometer.AnalogLimits

open ByteMemory BinaryFloats CText CommandTable ParameterLayout InstrumentState UppParser UppLines
open CommandExecution UppStream CommandReplies CommandEffects SetCommands SetFrame SetAtomicity
open SetGetAgreement CommandRanges FloatOrder Runs Instrument

/-- The members of `ui` that the pages of the limits use. -/
structure Ui where
  disValue : Int
  setValue : Int
  cfgStates : Bool
  setStates : Bool
  isBlinking : Bool
  deriving DecidableEq

/-- A number cut to an `int16_t`. -/
def toInt16 (code : Nat) : Int := Int.bmod (single.toInt32 code) (2 ^ 16)

/-- The displayed value of a page, once the limit was read and a turn of the knob was added
and kept in the range of the device. -/
def disValue (member : Member) (ui : Ui) (instrument : Instrument) : Int :=
  let minLimit := toInt16 (instrument.value .tempDevTempMin)
  let maxLimit := toInt16 (instrument.value .tempDevTempMax)
  let shown := if ui.isBlinking then ui.disValue else toInt16 (instrument.value member)
  if ui.setStates then
    let turned := Int.bmod (shown + ui.setValue) (2 ^ 32)
    if turned < minLimit then minLimit else if maxLimit < turned then maxLimit else turned
  else shown

/-- A pass of the page of a limit: what the panel and the instrument are left with. -/
def doAnalogOut (member : Member) (ui : Ui) (instrument : Instrument) : Ui × Instrument :=
  let value := disValue member ui instrument
  ({ ui with disValue := value, setStates := false, cfgStates := false },
    if ui.cfgStates then (instrument.put member (single.ofInt value)).saveGroup .ana
    else instrument)

/-- `do_analog_out_low`. -/
def doAnalogOutLow : Ui → Instrument → Ui × Instrument := doAnalogOut .anaLower

/-- `do_analog_out_high`. -/
def doAnalogOutHigh : Ui → Instrument → Ui × Instrument := doAnalogOut .anaUpper

/-- A command, or a pass of one of the two pages. -/
inductive Event where
  | command (around : Surroundings) (line : List Byte)
  | low (ui : Ui)
  | high (ui : Ui)

/-- What an event leaves. -/
def step (instrument : Instrument) : Event → Instrument
  | .command around line => (answerLine around line instrument).2
  | .low ui => (doAnalogOutLow ui instrument).2
  | .high ui => (doAnalogOutHigh ui instrument).2

/-- The parameters are the default ones, and `sys_state` is cleared. -/
structure Starting (instrument : Instrument) : Prop where
  para : instrument.pmm.sysPara = DefaultParameters.sysDefPara
  state : instrument.sysState = fun _ => 0

/-- The limits of the device are in order. -/
def DeviceOrdered (instrument : Instrument) : Prop :=
  single.lessEq (instrument.value .tempDevTempMin) (instrument.value .tempDevTempMax) = true

/-- The limits of the analog output differ, are in order, and lie in the range of the device. -/
structure AnalogInside (instrument : Instrument) : Prop where
  low : single.lessEq (instrument.value .tempDevTempMin) (instrument.value .anaLower) = true
  order : single.less (instrument.value .anaLower) (instrument.value .anaUpper) = true
  high : single.lessEq (instrument.value .anaUpper) (instrument.value .tempDevTempMax) = true

/-- A command that is executed does not set the two limits of the analog output to the same
number, and moves no limit of the device past one of them. -/
structure CarefulSet (instrument : Instrument) (item : CmdItem) (value : Nat) : Prop where
  lower : item.id = .cmdAl → single.key value ≠ single.key (instrument.value .anaUpper)
  upper : item.id = .cmdAh → single.key value ≠ single.key (instrument.value .anaLower)
  min : item.id = .cmdDl → single.lessEq value (instrument.value .anaLower) = true
  max : item.id = .cmdDh → single.lessEq (instrument.value .anaUpper) value = true

/-- A page stores a number of the range of the device only. -/
def StoresInside (instrument : Instrument) (value : Nat) : Prop :=
  single.lessEq (instrument.value .tempDevTempMin) value = true ∧
    single.lessEq value (instrument.value .tempDevTempMax) = true

/-- A step that takes care of what the code does not check: of commands see above; what a
page stores lies in the range of the device and on its side of the other limit. -/
def Careful (instrument : Instrument) : Event → Prop
  | .command around line => ∀ parsed item bytes, Attempt instrument line parsed item bytes →
      Accepted around line instrument parsed item →
        CarefulSet instrument item (littleEndian bytes)
  | .low ui => ui.cfgStates = true →
      let value := single.ofInt (disValue .anaLower ui instrument)
      StoresInside instrument value ∧ single.less value (instrument.value .anaUpper) = true
  | .high ui => ui.cfgStates = true →
      let value := single.ofInt (disValue .anaUpper ui instrument)
      StoresInside instrument value ∧ single.less (instrument.value .anaLower) value = true

/-- A byte of a decimal number. -/
def isDecimal (byte : Byte) : Bool := isDigit byte || byte == point

/-- Digits and points are counted apart. -/
theorem count_decimal (str : List Byte) :
    str.countP isDecimal = str.countP isDigit + str.countP (fun byte => byte == point) := by
  have apart : ∀ byte : Byte, isDigit byte = true → (byte == point) = false := by decide
  induction str with
  | nil => rfl
  | cons byte rest inductionHypothesis =>
    simp only [List.countP_cons, inductionHypothesis, isDecimal]
    by_cases digit : isDigit byte = true
    · simp only [digit, apart byte digit, Bool.true_or, if_true, Bool.false_eq_true, if_false]
      omega
    · simp only [digit, Bool.false_or, Bool.false_eq_true, if_false]
      omega

/-- What is read as a decimal number has digits and points, behind a sign at most. -/
theorem dec_number_bytes {str : List Byte} (decimal : isDecNumber str ≠ 0) :
    ∀ byte ∈ str, isDecimal byte = true ∨ byte = minus := by
  cases str with
  | nil => simp
  | cons first rest =>
    have counted : (first :: rest).countP isDecimal + (if first = minus then 1 else 0) =
        (first :: rest).length := by
      rw [count_decimal]
      by_contra other
      refine decimal ?_
      have whole : ¬((first :: rest).countP isDigit + (if first = minus then 1 else 0) =
          (first :: rest).length ∧ (first :: rest).countP (fun byte => byte == point) = 0) := by
        rintro ⟨total, nothing⟩
        exact other (by rw [nothing, Nat.add_zero, total])
      have pointed : ¬((first :: rest).countP (fun byte => byte == point) +
          (first :: rest).countP isDigit + (if first = minus then 1 else 0) =
            (first :: rest).length ∧ (first :: rest).countP (fun byte => byte == point) = 1) := by
        rintro ⟨total, _⟩
        exact other (by rw [Nat.add_comm (List.countP isDigit _), total])
      simp only [isDecNumber, List.getD_cons_zero]
      rw [if_neg whole, if_neg pointed, ite_self, ite_self]
    by_cases signed : first = minus
    · subst signed
      rw [if_pos rfl, List.countP_cons_of_neg (by decide), List.length_cons] at counted
      intro byte member
      rcases List.mem_cons.mp member with rfl | behind
      · exact Or.inr rfl
      · exact Or.inl (List.countP_eq_length.mp (Nat.succ.inj counted) byte behind)
    · rw [if_neg signed] at counted
      exact fun byte member => Or.inl (List.countP_eq_length.mp counted byte member)

/-- No decimal number is spelled as a word. -/
theorem starts_with_letter {text : List Byte}
    (decimal : ∀ byte ∈ text, isDecimal byte = true ∨ byte = minus) :
    startsWith (ascii "nan") text = false := by
  have letters : ∀ byte : Byte, isDecimal byte = true ∨ byte = minus → toLower byte ≠ 0x6E := by
    decide
  cases text with
  | nil => rfl
  | cons first rest =>
    have other := letters first (decimal first List.mem_cons_self)
    rw [startsWith, beq_eq_false_iff_ne]
    intro same
    exact other (List.cons.inj same).1

/-- What is not spelled as a word for it is a number. -/
theorem read_numeral_number {text : List Byte} (word : startsWith (ascii "nan") text = false)
    {numeral : Numeral} (read : readNumeral text = some numeral) : numeral ≠ .notNumber := by
  have fraction : ∀ base exponent upper lower, scaled base exponent upper lower ≠ .notNumber := by
    intro base exponent upper lower
    rw [scaled]
    split_ifs <;> exact Numeral.noConfusion
  rw [readNumeral, word] at read
  simp only [Bool.false_eq_true, if_false] at read
  split_ifs at read
  · rw [← Option.some.inj read]
    exact Numeral.noConfusion
  · rw [← Option.some.inj read]
    exact fraction _ _ _ _
  · rw [← Option.some.inj read]
    exact fraction _ _ _ _

/-- What follows a sign was there before. -/
theorem read_sign_subset (text : List Byte) : (readSign text).2 ⊆ text := by
  cases text with
  | nil => exact List.Subset.refl _
  | cons byte rest =>
    rw [readSign]
    split_ifs
    · exact List.subset_cons_self _ _
    · exact List.subset_cons_self _ _
    · exact List.Subset.refl _

/-- A decimal number reads as a number. -/
theorem read_float_number {parse : Parse} {value : Nat}
    (read : readFloat single parse = .ok value) : single.isNan value = false := by
  rw [readFloat] at read
  split_ifs at read with illegal
  have bytes : (readSign ((text parse).dropWhile isSpace)).2 ⊆ raw parse := fun byte member =>
    (List.takeWhile_prefix _).subset
      ((List.dropWhile_suffix _).subset (read_sign_subset _ member))
  have word := starts_with_letter (fun byte member =>
    dec_number_bytes illegal byte (bytes member))
  cases scan : scanFloat single (text parse) with
  | none =>
    rw [scan] at read
    cases read
  | some number =>
    rw [scan] at read
    obtain rfl := Except.ok.inj read
    rw [scanFloat] at scan
    split at scan
    · cases scan
    · rename_i found
      exact absurd rfl (read_numeral_number word found)
    · rw [← Option.some.inj scan]
      exact with_sign_number _ le_rfl
    · rw [← Option.some.inj scan]
      exact with_sign_number _ (round_ratio_small _ _)

/-- A linear conversion of a number by finite constants is a number. -/
theorem linear_number {value : Nat} {factor offset divisor : Int}
    (number : single.isNan value = false) (finite : single.isInfinite (single.ofInt factor) = false)
    (nonzero : single.magnitude (single.ofInt factor) ≠ 0)
    (small : single.isInfinite (single.ofInt offset) = false)
    (whole : single.isInfinite (single.ofInt divisor) = false)
    (divisible : single.magnitude (single.ofInt divisor) ≠ 0) :
    single.isNan (linear value factor offset divisor) = false := by
  have constant : ∀ value, single.isNan (single.ofInt value) = false :=
    fun value => round_signed_number false value 1
  refine div_number ?_ (constant divisor) whole divisible
  refine add_number ?_ (constant offset) small
  exact mul_number number (constant factor) finite nonzero

/-- The conversion to the unit of the device is linear. -/
theorem convert_internal (value : Nat) (unit : Byte) :
    convertUint value unit tempUnitInternal = value ∨
      convertUint value unit tempUnitInternal = linear value 1000 (-32000) 1800 ∨
      convertUint value unit tempUnitInternal = linear value 100 (-27315) 100 := by
  have celsius : tempUnitInternal = 0x43 := rfl
  have fahrenheit : ¬tempUnitInternal = 0x46 := by decide
  have kelvin : ¬tempUnitInternal = 0x4B := by decide
  simp only [convertUint, if_pos celsius, if_neg fahrenheit, if_neg kelvin]
  by_cases own : unit = 0x43
  · exact Or.inl (if_pos own)
  rw [if_neg own]
  by_cases degrees : unit = 0x46
  · exact Or.inr (Or.inl (if_pos degrees))
  rw [if_neg degrees]
  by_cases kelvins : unit = 0x4B
  · exact Or.inr (Or.inr (if_pos kelvins))
  · exact Or.inl (if_neg kelvins)

/-- A number is a number in the unit of the device. -/
theorem internal_number (instrument : Instrument) (cmd : List Byte) {value : Nat}
    (number : single.isNan value = false) :
    single.isNan (internalValue instrument cmd value) = false := by
  rw [internalValue]
  split_ifs
  · rcases convert_internal value (tempUnit instrument) with same | degrees | kelvins
    · rw [same]
      exact number
    · rw [degrees]
      exact linear_number number (by decide) (by decide) (by decide)
        (by decide) (by decide)
    · rw [kelvins]
      exact linear_number number (by decide) (by decide) (by decide)
        (by decide) (by decide)
  · exact number

/-- The four limits. -/
def limitMembers : List Member := [.anaLower, .anaUpper, .tempDevTempMin, .tempDevTempMax]

/-- The limits are out of reach of queries and of the rows of other members of their group. -/
theorem limits_apart : ∀ group ∈ [ParaType.ana, .temp], ∀ member ∈ limitMembers,
    Apart queried member.target ∧ (InGroup .ana member.target ∨ InGroup .temp member.target) ∧
      ∀ item ∈ groupRows group, Apart (reach item) member.target ∨ item.arg = member := by
  decide

/-- The rows of the limits. -/
theorem limit_rows : ∀ item ∈ cmdTbl, item.arg ∈ limitMembers →
    (item.arg, item.id) ∈ [(Member.anaLower, CmdId.cmdAl), (.anaUpper, .cmdAh),
        (.tempDevTempMin, .cmdDl), (.tempDevTempMax, .cmdDh)] ∧
      item.rule.data = .f (whole 100) (whole 3500) ∧
      (item.id ∈ [CmdId.cmdAl, .cmdAh] → isNeedLimitRange item.cmd = true) := by
  decide +kernel

/-- A limit is out of reach of the rows of other members. -/
theorem limit_apart {member : Member} (limit : member ∈ limitMembers) {item : CmdItem}
    (listed : item ∈ cmdTbl) (settable : item.props.contains .s = true)
    (other : item.arg ≠ member) : Apart (reach item) member.target := by
  have para : ∀ member ∈ limitMembers, member.target.region = .para := by decide
  by_cases near : item.group ∈ [ParaType.ana, .temp]
  · obtain ⟨_, _, apart⟩ := limits_apart item.group near member limit
    exact (apart item (mem_group_rows listed settable)).resolve_right other
  · obtain ⟨_, inGroup, _⟩ := limits_apart .ana (by decide) member limit
    simp only [List.mem_cons, List.not_mem_nil, or_false, not_or] at near
    rcases inGroup with ana | temp
    · exact other_group_apart listed settable near.1 (para member limit) ana
    · exact other_group_apart listed settable near.2 (para member limit) temp

section Attempts

variable (around : Surroundings) {instrument : Instrument} {line : List Byte} {parsed : Line}
  {item : CmdItem} {bytes : List Byte}

/-- What an attempt writes to a limit is a number, and for the analog output one of the range
of the device. -/
theorem limit_number (attempt : Attempt instrument line parsed item bytes)
    (limit : item.rule.data = .f (whole 100) (whole 3500)) :
    bytes.length = 4 ∧ single.isNan (littleEndian bytes) = false ∧
      (isNeedLimitRange item.cmd = true →
        single.less (instrument.value .tempDevTempMax) (littleEndian bytes) = false ∧
          single.less (littleEndian bytes) (instrument.value .tempDevTempMin) = false) := by
  have encoding : 256 ^ 4 = 2 * single.signPlace := rfl
  have value := attempt.value
  rw [newBytes, limit] at value
  obtain ⟨number, read, ranged⟩ := bind_ok value
  obtain ⟨same, checked, limited⟩ := bind_ok ranged
  obtain ⟨kept, inside, rfl⟩ := map_ok limited
  rw [chkRange] at checked
  split_ifs at checked
  obtain rfl := Except.ok.inj checked
  have internal := internal_number instrument item.cmd (read_float_number read)
  rw [chkLimit] at inside
  split_ifs at inside with outside
  obtain rfl := Except.ok.inj inside
  rw [little_endian_le_bytes, encoding, is_nan_mod, less_mod_left, less_mod_right]
  refine ⟨le_bytes_length 4 _, internal, fun need => ?_⟩
  rw [need, Bool.true_and, Bool.or_eq_true, not_or] at outside
  exact ⟨by simpa using outside.1, by simpa using outside.2⟩

/-- The limits with the bytes of an attempt in one of them. -/
theorem written_limits (limit : item.arg ∈ limitMembers) (four : bytes.length = 4) (member : Member)
    (listed : member ∈ limitMembers) :
    (written instrument item bytes).value member =
      if member = item.arg then littleEndian bytes else instrument.value member := by
  have size : ∀ member ∈ limitMembers, member.target.size = 4 := by decide
  have apart : ∀ first ∈ limitMembers, ∀ second ∈ limitMembers, second ≠ first →
      Apart [first.target] second.target := by decide
  split_ifs with own
  · have read := store_read instrument item.arg.target.offset bytes item.arg.target.region
    rw [four, ← size item.arg limit] at read
    rw [own]
    exact congrArg littleEndian read
  · have confined := confined_store instrument item.arg.target.offset bytes item.arg.target.region
    rw [four, ← size item.arg limit] at confined
    exact value_kept confined (apart item.arg limit member listed own)

/-- The command of a limit. -/
theorem limit_id (listed : item ∈ cmdTbl) (limit : item.arg ∈ limitMembers) :
    item.id ∈ [CmdId.cmdAl, .cmdAh, .cmdDl, .cmdDh] :=
  List.mem_map_of_mem (f := Prod.snd) (limit_rows item listed limit).1

/-- The callback of a limit does not touch the limits, nor does a save. -/
theorem kept_limits {left : Instrument} {success : Bool} (listed : item ∈ cmdTbl)
    (limit : item.arg ∈ limitMembers)
    (called : setEffect around (parsedLine parsed) (written instrument item bytes) item.id =
      (success, left)) (member : Member) (one : member ∈ limitMembers) :
    (kept item left).value member = (written instrument item bytes).value member := by
  have places : ∀ id ∈ [CmdId.cmdAl, .cmdAh, .cmdDl, .cmdDh], isCoefCmd id = false ∧ id ≠ .cmdCa ∧
      ∀ member ∈ limitMembers, Apart ((assigned id).map Member.target) member.target := by decide
  have words : ∀ member ∈ limitMembers, Apart sealed member.target := by decide
  obtain ⟨plain, other, apart⟩ := places item.id (limit_id listed limit)
  have effect := set_effect_confined around (parsedLine parsed) (written instrument item bytes)
    item.id
  rw [called, effectTargets, loaded, if_neg (by simp [plain]), if_neg other, List.append_nil,
    List.append_nil] at effect
  rw [← value_kept effect (apart member one), kept]
  split_ifs
  · exact value_kept (confined_save left item.group) (words member one)
  · rfl

/-- A limit is refused before its callback has done anything. -/
theorem refused_limit {left : Instrument} (listed : item ∈ cmdTbl) (limit : item.arg ∈ limitMembers)
    (called : setEffect around (parsedLine parsed) (written instrument item bytes) item.id =
      (false, left)) : left = written instrument item bytes := by
  have row := limit_id listed limit
  have others : ∀ id ∈ [CmdId.cmdAl, .cmdAh, .cmdDl, .cmdDh], id ≠ .cmdBr ∧ id ≠ .cmdCa ∧
      isCoefCmd id = false := by decide
  obtain ⟨rate, calibration, coefficients⟩ := others item.id row
  rcases set_effect_refused called with ⟨id, _⟩ | ⟨id, _⟩ | ⟨id, _⟩ | ⟨_, same⟩
  · exact absurd id rate
  · exact absurd id calibration
  · rw [coefficients] at id
    cases id
  · exact same

/-- An accepted limit is in order with its partner. -/
theorem accepted_ordered {left : Instrument} (listed : item ∈ cmdTbl)
    (limit : item.arg ∈ limitMembers)
    (called : setEffect around (parsedLine parsed) (written instrument item bytes) item.id =
      (true, left)) :
    (item.id ∈ [CmdId.cmdAl, .cmdAh] → anaOrdered (kept item left) = true) ∧
      (item.id ∈ [CmdId.cmdDl, .cmdDh] → devOrdered (kept item left) = true) := by
  have same := kept_limits around listed limit called
  have lower := same .anaLower (by decide)
  have upper := same .anaUpper (by decide)
  have min := same .tempDevTempMin (by decide)
  have max := same .tempDevTempMax (by decide)
  rw [anaOrdered, devOrdered, lower, upper, min, max, ← anaOrdered, ← devOrdered]
  constructor
  · intro analog
    simp only [List.mem_cons, List.not_mem_nil, or_false] at analog
    rcases analog with id | id <;> rw [id, setEffect] at called <;> split_ifs at called with order
    all_goals first | exact order | cases called
  · intro device
    simp only [List.mem_cons, List.not_mem_nil, or_false] at device
    rcases device with id | id <;> rw [id, setEffect] at called <;> exact (Prod.mk.inj called).1

/-- An accepted limit is what was written. -/
theorem accepted_limits {left : Instrument} (attempt : Attempt instrument line parsed item bytes)
    (limit : item.arg ∈ limitMembers)
    (called : setEffect around (parsedLine parsed) (written instrument item bytes) item.id =
      (true, left)) (member : Member) (listed : member ∈ limitMembers) :
    (answerLine around line instrument).2.value member =
      if member = item.arg then littleEndian bytes else instrument.value member := by
  obtain ⟨_, data, _⟩ := limit_rows item attempt.listed limit
  rw [answer_accepted around attempt called, kept_limits around attempt.listed limit called member
    listed]
  exact written_limits limit (limit_number attempt data).1 member listed

/-- What a line does to the limits: nothing, or it sets one of them to a number that has
passed the checks. -/
theorem line_limits (line : List Byte) (checks : instrument.develop = false) :
    (∀ member ∈ limitMembers,
        (answerLine around line instrument).2.value member = instrument.value member) ∨
      ∃ parsed item bytes, Attempt instrument line parsed item bytes ∧
        Accepted around line instrument parsed item ∧ item.arg ∈ limitMembers ∧
        (∀ member ∈ limitMembers, (answerLine around line instrument).2.value member =
          if member = item.arg then littleEndian bytes else instrument.value member) ∧
        (item.id ∈ [CmdId.cmdAl, .cmdAh] →
          anaOrdered (answerLine around line instrument).2 = true) ∧
        (item.id ∈ [CmdId.cmdDl, .cmdDh] →
          devOrdered (answerLine around line instrument).2 = true) := by
  by_cases tried : ∃ parsed item bytes, Attempt instrument line parsed item bytes
  · obtain ⟨parsed, item, bytes, attempt⟩ := tried
    by_cases limit : item.arg ∈ limitMembers
    · obtain ⟨_, data, _⟩ := limit_rows item attempt.listed limit
      rcases attempt_outcome around attempt with ⟨left, called, after⟩ | ⟨left, called, after⟩
      · refine Or.inr ⟨parsed, item, bytes, attempt, attempt_accepted around attempt called, limit,
          accepted_limits around attempt limit called, ?_⟩
        rw [after]
        exact accepted_ordered around attempt.listed limit called
      · refine Or.inl (fun member _ => ?_)
        rw [after, refused_limit around attempt.listed limit called,
          rolled_back_written around instrument parsed item bytes (by simp [data]) attempt.value]
    · refine Or.inl (fun member listed => ?_)
      refine value_kept (attempt_reached around attempt checks) ?_
      refine limit_apart listed attempt.listed attempt.settable ?_
      rintro rfl
      exact limit listed
  · exact Or.inl (fun member listed => value_kept (other_line_confined around tried)
      (limits_apart .ana (by decide) member listed).1)

/-- With the checks on, a line keeps the limits of the device in order. -/
theorem line_device_ordered (line : List Byte) (checks : instrument.develop = false)
    (ordered : DeviceOrdered instrument) :
    DeviceOrdered (answerLine around line instrument).2 := by
  obtain ⟨minNumber, maxNumber⟩ := less_eq_number ordered
  rcases line_limits around line checks with
    same | ⟨parsed, item, bytes, attempt, _, limit, values, _, device⟩
  · rw [DeviceOrdered, same .tempDevTempMin (by decide), same .tempDevTempMax (by decide)]
    exact ordered
  · obtain ⟨row, data, _⟩ := limit_rows item attempt.listed limit
    obtain ⟨_, number, _⟩ := limit_number attempt data
    have min := values .tempDevTempMin (by decide)
    have max := values .tempDevTempMax (by decide)
    simp only [List.mem_cons, List.not_mem_nil, or_false, Prod.mk.injEq] at row
    rcases row with ⟨arg, id⟩ | ⟨arg, id⟩ | ⟨arg, id⟩ | ⟨arg, id⟩ <;> rw [arg] at min max <;>
      simp only [reduceCtorEq, if_true, if_false] at min max
    · rw [DeviceOrdered, min, max]
      exact ordered
    · rw [DeviceOrdered, min, max]
      exact ordered
    · have order := device (by rw [id]; decide)
      rw [devOrdered, min, max, Bool.not_eq_true'] at order
      rw [DeviceOrdered, min, max]
      exact not_above number maxNumber order
    · have order := device (by rw [id]; decide)
      rw [devOrdered, min, max, Bool.not_eq_true'] at order
      rw [DeviceOrdered, min, max]
      exact not_above minNumber number order

/-- The limits of the analog output, by their numbers. -/
theorem analog_inside_values {after : Instrument} {min lower upper max : Nat}
    (minValue : after.value .tempDevTempMin = min) (lowerValue : after.value .anaLower = lower)
    (upperValue : after.value .anaUpper = upper) (maxValue : after.value .tempDevTempMax = max)
    (low : single.lessEq min lower = true) (order : single.less lower upper = true)
    (high : single.lessEq upper max = true) : AnalogInside after := by
  subst minValue lowerValue upperValue maxValue
  exact ⟨low, order, high⟩

/-- A careful line keeps the limits of the analog output in order and in the range of the
device. -/
theorem line_analog_inside (line : List Byte) (checks : instrument.develop = false)
    (careful : Careful instrument (.command around line)) (inside : AnalogInside instrument) :
    AnalogInside (answerLine around line instrument).2 := by
  obtain ⟨low, order, high⟩ := inside
  rcases line_limits around line checks with
    same | ⟨parsed, item, bytes, attempt, accepted, limit, values, analog, _⟩
  · exact analog_inside_values (same .tempDevTempMin (by decide)) (same .anaLower (by decide))
      (same .anaUpper (by decide)) (same .tempDevTempMax (by decide)) low order high
  · obtain ⟨row, data, need⟩ := limit_rows item attempt.listed limit
    obtain ⟨_, number, range⟩ := limit_number attempt data
    obtain ⟨minNumber, lowerNumber⟩ := less_eq_number low
    obtain ⟨upperNumber, maxNumber⟩ := less_eq_number high
    have care := careful parsed item bytes attempt accepted
    have lower := values .anaLower (by decide)
    have upper := values .anaUpper (by decide)
    have min := values .tempDevTempMin (by decide)
    have max := values .tempDevTempMax (by decide)
    simp only [List.mem_cons, List.not_mem_nil, or_false, Prod.mk.injEq] at row
    rcases row with ⟨arg, id⟩ | ⟨arg, id⟩ | ⟨arg, id⟩ | ⟨arg, id⟩ <;>
      rw [arg] at lower upper min max <;>
      simp only [reduceCtorEq, if_true, if_false] at lower upper min max
    · have ordered := analog (by rw [id]; decide)
      obtain ⟨_, above⟩ := range (need (by rw [id]; decide))
      rw [anaOrdered, lower, upper, Bool.not_eq_true'] at ordered
      exact analog_inside_values min lower upper max (not_above minNumber number above)
        (below_unless_equal (not_above number upperNumber ordered) (care.lower id)) high
    · have ordered := analog (by rw [id]; decide)
      obtain ⟨below, _⟩ := range (need (by rw [id]; decide))
      rw [anaOrdered, lower, upper, Bool.not_eq_true'] at ordered
      exact analog_inside_values min lower upper max low
        (below_unless_equal (not_above lowerNumber number ordered) (care.upper id).symm)
        (not_above number maxNumber below)
    · exact analog_inside_values min lower upper max (care.min id) order high
    · exact analog_inside_values min lower upper max low order (care.max id)

end Attempts

/-- What a page stores: one limit is the displayed value, and the others are kept. -/
theorem page_limits {member : Member} (limit : member ∈ [Member.anaLower, .anaUpper]) {ui : Ui}
    (stored : ui.cfgStates = true) (instrument : Instrument) (other : Member)
    (listed : other ∈ limitMembers) :
    (doAnalogOut member ui instrument).2.value other =
      if other = member then single.ofInt (disValue member ui instrument)
      else instrument.value other := by
  have words : ∀ member ∈ limitMembers, Apart sealed member.target := by decide
  have apart : ∀ first ∈ [Member.anaLower, .anaUpper], ∀ second ∈ limitMembers, second ≠ first →
      Apart [first.target] second.target := by decide
  have size : ∀ member ∈ [Member.anaLower, .anaUpper], member.target.size = 4 := by decide
  have encoding : 256 ^ 4 = 2 * single.signPlace := rfl
  simp only [doAnalogOut, stored, if_true]
  rw [value_kept (confined_save _ .ana) (words other listed)]
  split_ifs with own
  · rw [own, value, put_bytes, little_endian_le_bytes, size member limit, encoding,
      Nat.mod_eq_of_lt (of_int_encoded _)]
  · exact value_kept (confined_put instrument member _) (apart member limit other listed own)

/-- A page that stores nothing changes nothing. -/
theorem page_idle (member : Member) {ui : Ui} (idle : ui.cfgStates = false)
    (instrument : Instrument) : (doAnalogOut member ui instrument).2 = instrument := by
  simp only [doAnalogOut, idle, Bool.false_eq_true, if_false]

/-- What a page may touch. -/
def shown : List Target := [Member.anaLower.target, Member.anaUpper.target] ++ sealed

/-- No integer field is shown on a page of the limits. -/
theorem fields_not_shown : ∀ item ∈ cmdTbl, ∀ rule ∈ unsignedRule item.rule.data,
    Apart shown item.arg.target := by
  decide +kernel

/-- A page touches its limit and the words of a save. -/
theorem page_confined {member : Member} (limit : member ∈ [Member.anaLower, .anaUpper]) (ui : Ui)
    (instrument : Instrument) :
    Confined shown instrument (doAnalogOut member ui instrument).2 := by
  cases stored : ui.cfgStates with
  | false =>
    rw [page_idle member stored]
    exact confined_refl _ _
  | true =>
    have placed : [member.target] ⊆ shown := by
      intro target listed
      obtain rfl := List.mem_singleton.mp listed
      exact List.mem_append_left _ (List.mem_map_of_mem limit)
    simp only [doAnalogOut, stored, if_true]
    exact confined_trans (confined_mono placed (confined_put instrument member _))
      (confined_mono (List.subset_append_right _ _) (confined_save _ .ana))

/-- A page keeps the limits of the device. -/
theorem page_device_ordered {member : Member} (limit : member ∈ [Member.anaLower, .anaUpper])
    (ui : Ui) {instrument : Instrument} (ordered : DeviceOrdered instrument) :
    DeviceOrdered (doAnalogOut member ui instrument).2 := by
  have min : Apart shown Member.tempDevTempMin.target := by decide
  have max : Apart shown Member.tempDevTempMax.target := by decide
  have confined := page_confined limit ui instrument
  rw [DeviceOrdered, value_kept confined min, value_kept confined max]
  exact ordered

/-- A page keeps the integer fields in their ranges. -/
theorem page_in_range {member : Member} (limit : member ∈ [Member.anaLower, .anaUpper]) (ui : Ui)
    {without : List CmdId} {instrument : Instrument}
    (inRange : IntegersInRange without instrument) :
    IntegersInRange without (doAnalogOut member ui instrument).2 :=
  fun item listed settable counted limits named =>
    apart_in_range (page_confined limit ui instrument) (fields_not_shown item listed limits named)
      (inRange item listed settable counted) limits named

/-- With the checks on, an event keeps the integer fields in their ranges and the limits of the
device in order. -/
theorem step_settings {without : List CmdId} (instrument : Instrument) (event : Event)
    (settings : IntegersInRange without instrument ∧ DeviceOrdered instrument)
    (checks : instrument.develop = false) :
    IntegersInRange without (step instrument event) ∧ DeviceOrdered (step instrument event) := by
  obtain ⟨inRange, ordered⟩ := settings
  cases event with
  | command around line =>
    exact ⟨line_in_range around line checks inRange, line_device_ordered around line checks ordered⟩
  | low ui =>
    exact ⟨page_in_range (by decide) ui inRange, page_device_ordered (by decide) ui ordered⟩
  | high ui =>
    exact ⟨page_in_range (by decide) ui inRange, page_device_ordered (by decide) ui ordered⟩

/-- With the checks on, a careful event keeps the limits of the analog output in order and in
the range of the device. -/
theorem step_analog_inside (instrument : Instrument) (event : Event)
    (inside : AnalogInside instrument)
    (met : instrument.develop = false ∧ Careful instrument event) :
    AnalogInside (step instrument event) := by
  obtain ⟨checks, careful⟩ := met
  cases event with
  | command around line => exact line_analog_inside around line checks careful inside
  | low ui =>
    cases stored : ui.cfgStates with
    | false =>
      rw [step, doAnalogOutLow, page_idle _ stored]
      exact inside
    | true =>
      obtain ⟨⟨above, _⟩, order⟩ := careful stored
      have low : Member.anaLower ∈ [Member.anaLower, .anaUpper] := by decide
      have values := page_limits low stored instrument
      have lower := values .anaLower (by decide)
      have upper := values .anaUpper (by decide)
      have min := values .tempDevTempMin (by decide)
      have max := values .tempDevTempMax (by decide)
      simp only [reduceCtorEq, if_true, if_false] at lower upper min max
      exact analog_inside_values min lower upper max above order inside.high
  | high ui =>
    cases stored : ui.cfgStates with
    | false =>
      rw [step, doAnalogOutHigh, page_idle _ stored]
      exact inside
    | true =>
      obtain ⟨⟨_, below⟩, order⟩ := careful stored
      have high : Member.anaUpper ∈ [Member.anaLower, .anaUpper] := by decide
      have values := page_limits high stored instrument
      have lower := values .anaLower (by decide)
      have upper := values .anaUpper (by decide)
      have min := values .tempDevTempMin (by decide)
      have max := values .tempDevTempMax (by decide)
      simp only [reduceCtorEq, if_true, if_false] at lower upper min max
      exact analog_inside_values min lower upper max inside.low order below

/-- A start has the numbers of the default parameters and of a cleared `sys_state`. -/
theorem start_value {start : Instrument} (begun : Starting start) (member : Member) :
    start.value member = defaultInstrument.value member := by
  have same : ∀ region, start.region region = defaultInstrument.region region := by
    intro region
    cases region with
    | para => exact begun.para
    | state => exact begun.state
  rw [value, bytes, same, ← bytes, ← value]

/-- The number of a member in the defaults of its group. -/
theorem default_value {group : ParaType} {member : Member} (para : member.target.region = .para)
    (inGroup : InGroup group member.target) :
    defaultInstrument.value member =
      littleEndian (toList (ofList (DefaultParameters.groupDefault group))
        (member.target.offset - group.offset) member.target.size) := by
  obtain ⟨low, high⟩ := inGroup para
  have place := DefaultParameters.group_default_place group
  rw [value, bytes, para]
  refine congrArg littleEndian (List.map_congr_left (fun offset inside => ?_))
  have below := List.mem_range.mp inside
  have same := place (member.target.offset - group.offset + offset) (Nat.zero_le _) (by omega)
  rw [← same, window]
  exact congrArg DefaultParameters.sysDefPara (by omega)

/-- The default parameters are in the ranges of their rows, which begin at zero for the fields
of `sys_state`. -/
theorem defaults_in_range : ∀ item ∈ cmdTbl, item.props.contains .s = true →
    item.id ∉ [CmdId.cmdPr] → ∀ rule ∈ unsignedRule item.rule.data,
      (item.arg.target.region = .state → rule.2.1 = 0) ∧
        (item.arg.target.region = .para →
          rule.2.1 ≤ littleEndian (toList (ofList (DefaultParameters.groupDefault item.group))
            (item.arg.target.offset - item.group.offset) item.arg.target.size) ∧
          littleEndian (toList (ofList (DefaultParameters.groupDefault item.group))
            (item.arg.target.offset - item.group.offset) item.arg.target.size) ≤ rule.2.2) := by
  decide +kernel

/-- Zeros write zero. -/
theorem little_endian_zeros (start len : Nat) :
    littleEndian (toList (fun _ => 0) start len) = 0 := by
  have zeros : toList (fun _ => 0) start len = List.replicate len 0 := by simp [toList]
  rw [zeros]
  induction len with
  | zero => rfl
  | succ len inductionHypothesis => simp_all [List.replicate_succ, littleEndian, toList]

/-- The integer fields of a start are in the ranges of their rows. -/
theorem start_in_range {start : Instrument} (begun : Starting start) :
    IntegersInRange [.cmdPr] start := by
  intro item listed settable counted limits named
  obtain ⟨state, para⟩ := defaults_in_range item listed settable counted limits named
  rw [start_value begun]
  cases region : item.arg.target.region with
  | state =>
    have zero : defaultInstrument.value item.arg = 0 := by
      rw [value, bytes, region]
      exact little_endian_zeros _ _
    rw [zero]
    exact ⟨(state region).le, Nat.zero_le _⟩
  | para =>
    obtain ⟨inGroup, _⟩ := rows_in_group item listed settable
    rw [default_value region inGroup]
    exact para region

/-- A start has the limits in order. -/
theorem start_limits {start : Instrument} (begun : Starting start) :
    DeviceOrdered start ∧ AnalogInside start := by
  refine ⟨?_, ?_⟩
  · rw [DeviceOrdered, start_value begun, start_value begun]
    decide
  · refine analog_inside_values (start_value begun _) (start_value begun _) (start_value begun _)
      (start_value begun _) ?_ ?_ ?_ <;> decide

/-- From the default parameters on, as long as develop mode is off, commands and passes of the
pages keep every integer field except the request of `PR` in the range of its row and the
limits of the device in order; if they are careful, the limits of the analog output are in
order and in the range of the device. -/
theorem configuration_kept {start : Instrument} (begun : Starting start) (events : List Event)
    (off : Along step (fun instrument _ => instrument.develop = false) start events) :
    IntegersInRange [.cmdPr] (run step start events) ∧ DeviceOrdered (run step start events) ∧
      (Along step Careful start events → AnalogInside (run step start events)) := by
  obtain ⟨device, inside⟩ := start_limits begun
  obtain ⟨inRange, ordered⟩ :=
    along_invariant step step_settings start ⟨start_in_range begun, device⟩ events off
  refine ⟨inRange, ordered, fun careful => ?_⟩
  exact along_invariant step step_analog_inside start inside events
    (along_both step start events off careful)

/-- The row of the lower limit of the analog output. -/
def lowerRow : CmdItem :=
  ⟨ascii "AL", .cmdAl, .ana, [.p, .b, .s, .n, .m], ⟨3, 7, .f (whole 100) (whole 3500)⟩, .anaLower⟩

/-- The row of the upper limit of the device. -/
def maxRow : CmdItem :=
  ⟨ascii "DH", .cmdDh, .temp, [.p, .s, .n, .m, .i], ⟨3, 7, .f (whole 100) (whole 3500)⟩,
    .tempDevTempMax⟩

/-- A lower limit of the analog output inside the others. -/
theorem lower_attempt : Attempt defaultInstrument (ascii "AL=900")
    ⟨[], uppOpSet, ascii "AL", ascii "900"⟩ lowerRow (leBytes 4 (whole 900)) :=
  ⟨by decide, rfl, by decide, by decide, by decide, Or.inl (by decide),
    by decide⟩

/-- A lower limit of the analog output that meets the upper one. -/
theorem meeting_attempt : Attempt defaultInstrument (ascii "AL=2800")
    ⟨[], uppOpSet, ascii "AL", ascii "2800"⟩ lowerRow (leBytes 4 (whole 2800)) :=
  ⟨by decide, rfl, by decide, by decide, by decide, Or.inl (by decide),
    by decide⟩

/-- An upper limit of the device below that of the analog output. -/
theorem narrowing_attempt : Attempt defaultInstrument (ascii "DH=1000")
    ⟨[], uppOpSet, ascii "DH", ascii "1000"⟩ maxRow (leBytes 4 (whole 1000)) :=
  ⟨by decide, rfl, by decide, by decide, by decide, Or.inl (by decide),
    by decide⟩

/-- The panel when the value of a page was turned by one and is stored. -/
def turnedDown : Ui := ⟨0, -1, true, true, false⟩

/-- The panel when a value that was turned up to 2800 is stored. -/
def meeting : Ui := ⟨2800, 0, true, false, true⟩

/-- From the default parameters on, a lower limit inside the range, or an upper one that was
turned down by one degree, leaves everything in order. -/
theorem inner_limits_kept :
    AnalogInside (run step defaultInstrument [.command quiet (ascii "AL=900")]) ∧
      AnalogInside (run step defaultInstrument [.high turnedDown]) := by
  have begun : Starting defaultInstrument := ⟨rfl, rfl⟩
  have off : defaultInstrument.develop = false := by decide
  constructor
  · refine (configuration_kept begun [.command quiet (ascii "AL=900")] ⟨off, True.intro⟩).2.2
      ⟨?_, True.intro⟩
    intro parsed item bytes attempt _
    obtain ⟨_, rfl, rfl⟩ := attempt.unique lower_attempt
    refine ⟨fun _ => by decide, fun id => ?_, fun id => ?_, fun id => ?_⟩ <;> cases id
  · refine (configuration_kept begun [.high turnedDown] ⟨off, True.intro⟩).2.2
      ⟨fun _ => ?_, True.intro⟩
    refine ⟨⟨?_, ?_⟩, ?_⟩ <;> decide

/-- From the default parameters on, the limits of the analog output may be set to the same
number by a command or on the panel, the range of the device may be set to less than theirs,
develop mode lets a field leave its range, and the request of `PR` is in none at first. -/
theorem configuration_lost :
    ¬AnalogInside (run step defaultInstrument [.command quiet (ascii "AL=2800")]) ∧
      ¬AnalogInside (run step defaultInstrument [.low meeting]) ∧
      ¬AnalogInside (run step defaultInstrument [.command quiet (ascii "DH=1000")]) ∧
      ¬IntegersInRange [.cmdPr] (run step defaultInstrument
        [.command quiet (ascii "DEV=1"), .command quiet (ascii "UL=7")]) ∧
      ¬IntegersInRange [] (run step defaultInstrument []) := by
  refine ⟨fun inside => ?_, fun inside => ?_, fun inside => ?_, fun inRange => ?_,
    fun inRange => ?_⟩
  · have called : setEffect quiet (parsedLine ⟨[], uppOpSet, ascii "AL", ascii "2800"⟩)
        (written defaultInstrument lowerRow (leBytes 4 (whole 2800))) .cmdAl =
          (true, anologOutInit (written defaultInstrument lowerRow (leBytes 4 (whole 2800)))) := by
      rw [setEffect, if_pos (by decide)]
    have values := accepted_limits quiet meeting_attempt (by decide) called
    have order := inside.order
    rw [run, List.foldl_cons, List.foldl_nil, step, values .anaLower (by decide),
      values .anaUpper (by decide)] at order
    exact absurd order (by decide)
  · have low : Member.anaLower ∈ [Member.anaLower, .anaUpper] := by decide
    have stored : meeting.cfgStates = true := rfl
    have values := page_limits low stored defaultInstrument
    have order := inside.order
    rw [run, List.foldl_cons, List.foldl_nil, step, doAnalogOutLow, values .anaLower (by decide),
      values .anaUpper (by decide)] at order
    exact absurd order (by decide)
  · have called : setEffect quiet (parsedLine ⟨[], uppOpSet, ascii "DH", ascii "1000"⟩)
        (written defaultInstrument maxRow (leBytes 4 (whole 1000))) .cmdDh =
          (true, written defaultInstrument maxRow (leBytes 4 (whole 1000))) := by
      rw [setEffect, show devOrdered _ = true by decide]
    have values := accepted_limits quiet narrowing_attempt (by decide) called
    have high := inside.high
    rw [run, List.foldl_cons, List.foldl_nil, step, values .anaUpper (by decide),
      values .tempDevTempMax (by decide)] at high
    exact absurd high (by decide)
  · have unlock := inRange ⟨ascii "UL", .cmdUl, .dev, [.p, .s, .n, .i], ⟨1, 1, .u8 0 1⟩, .unlock⟩
      (by decide) (by decide) (by decide) (1, 0, 1) rfl
    exact absurd unlock.2 (by decide)
  · have recover := inRange ⟨ascii "PR", .cmdPr, .dev, [.s, .n, .l, .i], ⟨1, 1, .u8 1 4⟩,
      .sysOpRecover⟩ (by decide) (by decide) (by decide) (1, 1, 4) rfl
    exact absurd recover.1 (by decide)

end Pyrometer.AnalogLimits
