import Pyrometer.UppStream

/-!
# Which commands are answered, and how

Every refusal of a set command has an error with a line of its own, and so has every
line that cannot be read, except one for another device. A command that is executed
is answered with its word; the only query without an answer is one for coefficients
whose text has become too long. Answers begin with `!` or with a digit of an address,
lines of errors with a letter, so no answer is taken for an error.
-/

namespace Pyrometer.CommandReplies

open ByteMemory CText CommandTable InstrumentState AlgorithmCommands UppParser UppLines
open CommandExecution UppStream

/-- A line that reports an error. -/
def ErrorLine (reply : List Byte) : Prop := ∃ err, err ≠ .ok ∧ reply = uppPktError err

/-- The line is for this device or for all. -/
def addressed (own : Byte) (line : List Byte) : Bool :=
  decValue (lineAddress line) == own.toNat || decValue (lineAddress line) == broadcastAddr

/-- The line asks for coefficients whose text has become too long. -/
def tooLong (instrument : Instrument) (line : List Byte) : Bool :=
  match readLine (ownAddr instrument) line with
  | .error _ => false
  | .ok line =>
      line.op == uppOpGet && line.word == ascii "AP" && algoGet instrument.pmm.sysPara == none

/-- A line gets an answer. -/
def answered (instrument : Instrument) (line : List Byte) : Bool :=
  addressed (ownAddr instrument) line && !tooLong instrument line

/-- An error other than success has a line, and it begins with `E`. -/
theorem error_head {err : UppErr} (real : err ≠ .ok) : (uppPktError err).head? = some 0x45 := by
  rw [uppPktError, if_neg real]
  simp [ascii]

/-- Only success has no line. -/
theorem error_visible (err : UppErr) : uppPktError err = [] ↔ err = .ok := by
  constructor
  · intro nothing
    by_contra real
    have head := error_head real
    rw [nothing] at head
    cases head
  · rintro rfl
    rfl

/-- Decimal digits are digits. -/
theorem decimal_digits (value : Nat) : ∀ byte ∈ decimal value, isDigit byte = true := by
  intro byte member
  obtain ⟨char, digit, rfl⟩ := List.mem_map.mp member
  have range := Nat.isDigit_of_mem_toDigits (by decide) (by decide) digit
  simp only [Char.isDigit, Bool.and_eq_true, decide_eq_true_eq] at range
  obtain ⟨low, high⟩ := range
  have lower : 48 ≤ char.toNat := low
  have upper : char.toNat ≤ 57 := high
  simp only [isDigit, Bool.and_eq_true, decide_eq_true_eq, BitVec.le_def, BitVec.toNat_ofNat]
  omega

/-- A padded number consists of digits. -/
theorem zero_padded_digits (width value : Nat) :
    ∀ byte ∈ zeroPadded width (decimal value), isDigit byte = true := by
  intro byte member
  rcases List.mem_append.mp member with zero | digit
  · rw [List.eq_of_mem_replicate zero]
    rfl
  · exact decimal_digits value byte digit

/-- An answer begins with `!` or with a digit. -/
theorem build_head (parse : Parse) (item : CmdItem) (instrument : Instrument) (byte : Byte)
    (first : (uppRspBuildFlk parse item instrument).head? = some byte) :
    byte = 0x21 ∨ isDigit byte = true := by
  rw [uppRspBuildFlk] at first
  split_ifs at first
  · cases first
  · cases address : answerAddr parse instrument with
    | nil =>
      rw [address] at first
      exact Or.inl (Option.some.inj first).symm
    | cons digit rest =>
      rw [address] at first
      obtain rfl : digit = byte := Option.some.inj first
      right
      rw [answerAddr] at address
      cases mode : parse.addrMode with
      | single => simp [mode] at address
      | multi =>
        simp only [mode] at address
        exact zero_padded_digits _ _ digit (by rw [address]; exact List.mem_cons_self)

/-- An answer is never the line of an error. -/
theorem build_not_error (parse : Parse) (item : CmdItem) (instrument : Instrument) :
    ¬ErrorLine (uppRspBuildFlk parse item instrument) := by
  rintro ⟨err, real, same⟩
  have head := build_head parse item instrument 0x45 (by rw [same]; exact error_head real)
  revert head
  decide

/-- The errors of a value check. -/
theorem new_bytes_error {instrument : Instrument} {parse : Parse} {item : CmdItem} {err : UppErr}
    (failed : newBytes instrument parse item = .error err) :
    err = .dataIllegal ∨ err = .dataRange := by
  unfold newBytes at failed
  cases rule : item.rule.data <;> rw [rule] at failed <;>
    simp only [Except.map, bind, Except.bind, readUnsigned, readLong, readFloat, chkRange, chkLimit,
      readHex, readChar] at failed
  case s chk =>
    cases chk with
    | none => cases failed
    | some chk =>
      rw [readText] at failed
      split_ifs at failed
      exact Or.inr (Except.error.inj failed).symm
  all_goals grind

/-- The errors of `cmd_data_chk`. -/
theorem data_chk_error {instrument : Instrument} {parse : Parse} {item : CmdItem} {err : UppErr}
    (failed : cmdDataChk instrument parse item = .error err) :
    err = .dataLen ∨ err = .dataIllegal ∨ err = .dataRange := by
  rw [cmdDataChk] at failed
  split_ifs at failed
  · exact Or.inl (Except.error.inj failed).symm
  · right
    cases result : newBytes instrument parse item with
    | error other =>
      rw [result] at failed
      obtain rfl : other = err := Except.error.inj failed
      exact new_bytes_error result
    | ok bytes =>
      rw [result] at failed
      cases failed

/-- How a set command ends: its data are refused and nothing has changed, its callback
accepts it, or its callback refuses it and the saved bytes are copied back. -/
theorem execute_set_cases (around : Surroundings) (parse : Parse) (item : CmdItem)
    (instrument : Instrument) :
    (∃ err, cmdDataChk instrument parse item = .error err ∧ err ≠ .ok ∧
        executeSet around parse item instrument = (.error err, instrument)) ∨
      (∃ written left, cmdDataChk instrument parse item = .ok written ∧
        uppSetCallback around parse item written = (true, left) ∧
        executeSet around parse item instrument = (.ok parse, left)) ∨
      ∃ written refused, cmdDataChk instrument parse item = .ok written ∧
        uppSetCallback around parse item written = (false, refused) ∧
        executeSet around parse item instrument =
          (.error .dataIllegal, refused.store item.arg.target.offset
            (dataBkp around instrument parse item) item.arg.target.region) := by
  rw [executeSet]
  cases chk : cmdDataChk instrument parse item with
  | error err =>
    refine Or.inl ⟨err, rfl, ?_, rfl⟩
    rcases data_chk_error chk with rfl | rfl | rfl <;> decide
  | ok written =>
    rcases call : uppSetCallback around parse item written with ⟨accepted, left⟩
    cases accepted with
    | true => exact Or.inr (Or.inl ⟨written, left, rfl, call, by simp [call]⟩)
    | false => exact Or.inr (Or.inr ⟨written, left, rfl, call, by simp [call]⟩)

/-- Every row that can be set is answered. -/
theorem set_rows_answered : ∀ item ∈ cmdTbl, item.props.contains .s = true →
    item.props.contains .n = true := by
  decide +kernel

/-- Only one row is asked with `algo_get`, and it can be asked. -/
theorem algo_rows : ∀ item ∈ cmdTbl, (item.id = .cmdAp ↔ item.cmd = ascii "AP") ∧
    (item.id = .cmdAp → item.props.contains .p = true) := by
  decide +kernel

/-- A row that was found is in the table and has the word that was looked for. -/
theorem cmd_found_row {word : List Byte} {item : CmdItem} (found : cmdFound word = some item) :
    item ∈ cmdTbl ∧ item.cmd = word :=
  ⟨List.mem_of_find?_eq_some found, by simpa using List.find?_some found⟩

/-- A line that was read asks or sets. -/
theorem read_line_op {own : Byte} {text : List Byte} {line : Line}
    (read : readLine own text = .ok line) : line.op = uppOpGet ∨ line.op = uppOpSet := by
  unfold readLine at read
  cases passed : checkAddr own (lineAddress text) with
  | error err =>
    rw [passed] at read
    cases read
  | ok _ =>
    rw [passed] at read
    simp only [bind, Except.bind, readBody] at read
    grind

/-- A line that is not for the device is the only one that fails without an error. -/
theorem read_line_silent (own : Byte) (text : List Byte) :
    readLine own text = .error .ok ↔ addressed own text = false := by
  unfold readLine checkAddr addressed
  by_cases other : decValue (lineAddress text) ≠ own.toNat ∧
      decValue (lineAddress text) ≠ broadcastAddr
  · simp [other, bind, Except.bind]
  · rw [if_neg other]
    have mine : (decValue (lineAddress text) == own.toNat ||
        decValue (lineAddress text) == broadcastAddr) = true := by
      simp only [Bool.or_eq_true, beq_iff_eq]
      omega
    simp only [mine, Bool.true_eq_false, iff_false]
    simp only [bind, Except.bind, readBody, takeWord]
    grind

/-- An answer is built unless the row of a set command has no property `N`. -/
theorem build_visible (parse : Parse) (item : CmdItem) (instrument : Instrument)
    (shown : ¬(parse.op = uppOpSet ∧ item.props.contains .n = false)) :
    uppRspBuildFlk parse item instrument ≠ [] := by
  rw [uppRspBuildFlk, if_neg shown]
  simp

/-- How a query ends: it is answered, or it asked for coefficients whose text is too long. -/
theorem execute_get_cases (parse : Parse) (item : CmdItem) (instrument : Instrument) :
    (item.id = .cmdAp ∧ algoGet instrument.pmm.sysPara = none ∧
        executeGet parse item instrument = (.error .ok, instrument)) ∨
      ¬(item.id = .cmdAp ∧ algoGet instrument.pmm.sysPara = none) ∧
        ∃ filled left, executeGet parse item instrument = (.ok filled, left) ∧
          filled.op = parse.op := by
  rw [executeGet]
  split_ifs with algo coef
  · cases text : algoGet instrument.pmm.sysPara with
    | none => exact Or.inl ⟨algo, rfl, rfl⟩
    | some payload => exact Or.inr ⟨by simp, _, _, rfl, rfl⟩
  · exact Or.inr ⟨fun both => algo both.1, _, _, rfl, rfl⟩
  · cases request : uvcRequest item.id with
    | none => exact Or.inr ⟨fun both => algo both.1, _, _, rfl, rfl⟩
    | some number => exact Or.inr ⟨fun both => algo both.1, _, _, rfl, rfl⟩

/-- The only command without an answer is a query whose text is too long. -/
theorem run_cmd_silent (around : Surroundings) (parse : Parse) (instrument : Instrument)
    (op : parse.op = uppOpGet ∨ parse.op = uppOpSet) :
    (runCmd around parse instrument).1 = [] ↔
      parse.op = uppOpGet ∧ parse.cmdWord = ascii "AP" ∧ algoGet instrument.pmm.sysPara = none := by
  have known : (cmdFound (ascii "AP")).isSome = true := by decide
  have apart : uppOpGet ≠ uppOpSet := by decide
  have loud : ∀ err, err ≠ .ok → uppPktError err ≠ [] :=
    fun err real nothing => real ((error_visible err).mp nothing)
  rw [runCmd]
  cases found : cmdFound parse.cmdWord with
  | none =>
    refine iff_of_false (loud .noSupportCmd (by decide)) (fun asked => ?_)
    rw [asked.2.1] at found
    rw [found] at known
    cases known
  | some item =>
    obtain ⟨row, word⟩ := cmd_found_row found
    obtain ⟨algo, asks⟩ := algo_rows item row
    rw [word] at algo
    simp only [executeRow]
    by_cases mismatch : opMismatch parse item = true
    · rw [if_pos mismatch]
      refine iff_of_false (loud .opType (by decide)) (fun asked => ?_)
      have contains := asks (algo.mpr asked.2.1)
      rw [opMismatch, asked.1, contains] at mismatch
      revert mismatch
      simp [uppOpGet, uppOpSet]
    rw [if_neg mismatch]
    by_cases lock : locked parse item instrument = true
    · rw [if_pos lock]
      refine iff_of_false (loud .cmdLocked (by decide)) (fun asked => ?_)
      rw [locked, asked.1] at lock
      revert lock
      simp [uppOpGet, uppOpSet]
    rw [if_neg lock]
    rcases op with query | set
    · rw [if_neg (by rw [query]; exact apart), if_pos query]
      rcases execute_get_cases parse item instrument with
        ⟨long, none, run⟩ | ⟨fits, filled, left, run, kept⟩
      · rw [run]
        exact iff_of_true rfl ⟨query, algo.mp long, none⟩
      · rw [run]
        refine iff_of_false (build_visible _ _ _ ?_) (fun asked => ?_)
        · rw [kept, query]
          exact fun both => apart both.1
        · exact fits ⟨algo.mpr asked.2.1, asked.2.2⟩
    · rw [if_pos set]
      refine iff_of_false ?_ (fun asked => apart (asked.1.symm.trans set))
      rcases execute_set_cases around parse item instrument with
        ⟨err, _, real, run⟩ | ⟨_, left, _, _, run⟩ | ⟨_, refused, _, _, run⟩
      · rw [run]
        exact loud err real
      · rw [run]
        refine build_visible _ _ _ (fun both => ?_)
        have settable : item.props.contains .s = true := by
          by_contra missing
          refine mismatch ?_
          rw [opMismatch, set, Bool.eq_false_of_not_eq_true missing]
          rfl
        rw [set_rows_answered item row settable] at both
        exact absurd both.2 (by decide)
      · rw [run]
        exact loud .dataIllegal (by decide)

/-- A line is answered exactly when it is for the device and its answer is not too long. -/
theorem answer_line_visible (around : Surroundings) (line : List Byte) (instrument : Instrument) :
    (answerLine around line instrument).1 = [] ↔ answered instrument line = false := by
  have silent := read_line_silent (ownAddr instrument) line
  rw [answerLine, answered, tooLong]
  cases read : readLine (ownAddr instrument) line with
  | error err =>
    rw [read] at silent
    simp only [error_visible, Bool.not_false, Bool.and_true]
    rw [← silent, Except.error.injEq]
  | ok parsed =>
    rw [read] at silent
    have mine : addressed (ownAddr instrument) line = true := by
      by_contra other
      exact absurd (silent.mpr (by simpa using other)) (by simp)
    have same := run_cmd_silent around (parsed.parse 0 0) instrument (read_line_op read)
    simp only [same, mine, Bool.true_and, Bool.not_eq_false', Bool.and_eq_true, beq_iff_eq]
    exact (and_assoc).symm

/-- What is sent for a command is the line of an error or an answer. -/
theorem run_cmd_reply (around : Surroundings) (parse : Parse) (instrument : Instrument) :
    (∃ err, (runCmd around parse instrument).1 = uppPktError err) ∨
      ∃ filled item left, (runCmd around parse instrument).1 = uppRspBuildFlk filled item left := by
  rw [runCmd]
  cases cmdFound parse.cmdWord with
  | none => exact Or.inl ⟨.noSupportCmd, rfl⟩
  | some item =>
    simp only
    rcases executeRow around parse item instrument with ⟨outcome, left⟩
    cases outcome with
    | error err => exact Or.inl ⟨err, rfl⟩
    | ok filled => exact Or.inr ⟨filled, item, left, rfl⟩

/-- What is sent for a packet is the line of an error or an answer. -/
theorem answer_reply (around : Surroundings) (packet : Packet) (instrument : Instrument) :
    (∃ err, (answer around instrument packet).1 = uppPktError err) ∨
      ∃ filled item left,
        (answer around instrument packet).1 = uppRspBuildFlk filled item left := by
  cases packet with
  | cut bytes => exact Or.inl ⟨_, rfl⟩
  | whole line =>
    simp only [answer, answerLine]
    cases readLine (ownAddr instrument) line with
    | error err => exact Or.inl ⟨err, rfl⟩
    | ok parsed => exact run_cmd_reply around (parsed.parse 0 0) instrument

/-- No answer begins with a zero. -/
theorem answer_head (around : Surroundings) (packet : Packet) (instrument : Instrument)
    (byte : Byte) (first : (answer around instrument packet).1.head? = some byte) : byte ≠ 0 := by
  rcases answer_reply around packet instrument with ⟨err, line⟩ | ⟨filled, item, left, built⟩
  · rw [line] at first
    by_cases success : err = .ok
    · rw [success] at first
      cases first
    · rw [error_head success] at first
      obtain rfl : (0x45 : Byte) = byte := Option.some.inj first
      decide
  · rw [built] at first
    rcases build_head filled item left byte first with rfl | digit
    · decide
    · rintro rfl
      exact absurd digit (by decide)

end Pyrometer.CommandReplies
