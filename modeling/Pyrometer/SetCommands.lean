import Pyrometer.CommandEffects
import Pyrometer.CommandReplies

/-!
# Set commands that reach their callback

A line is an attempt to set a value when it can be read, its word has a row that can be
set and is not locked, and its data pass the checks. Only an attempt writes anything:
its bytes go to the object of the row, and the callback then decides whether they stay.
-/

namespace Pyrometer.SetCommands

open ByteMemory CommandTable ParameterLayout InstrumentState AlgorithmCommands UppParser UppLines
open CommandExecution UppStream CommandReplies CommandEffects Instrument

/-- The parse structure of a line that was read. -/
def parsedLine (parsed : Line) : Parse := parsed.parse 0 0

/-- A line reaches the callback of a row, with the bytes that are written for it. -/
structure Attempt (instrument : Instrument) (line : List Byte) (parsed : Line) (item : CmdItem)
    (bytes : List Byte) : Prop where
  read : readLine (ownAddr instrument) line = .ok parsed
  set : parsed.op = uppOpSet
  row : cmdFound parsed.word = some item
  settable : item.props.contains .s = true
  unlocked : locked (parsedLine parsed) item instrument = false
  length : (item.rule.minLen ≤ parsed.data.length ∧ parsed.data.length ≤ item.rule.maxLen) ∨
    instrument.develop = true
  value : newBytes instrument (parsedLine parsed) item = .ok bytes

/-- The instrument with the bytes of an attempt in the object of its row. -/
def written (instrument : Instrument) (item : CmdItem) (bytes : List Byte) : Instrument :=
  instrument.store item.arg.target.offset bytes item.arg.target.region

/-- The instrument that an accepted command leaves. -/
def kept (item : CmdItem) (left : Instrument) : Instrument :=
  if item.props.contains .m then left.saveGroup item.group else left

/-- The instrument that a refused command leaves. -/
def rolledBack (around : Surroundings) (instrument : Instrument) (parsed : Line) (item : CmdItem)
    (refused : Instrument) : Instrument :=
  refused.store item.arg.target.offset (dataBkp around instrument (parsedLine parsed) item)
    item.arg.target.region

/-- The received data of a line are the data of its parse structure. -/
@[simp] theorem raw_parsed (parsed : Line) : raw (parsedLine parsed) = parsed.data := by
  have same := to_list_overlay (fun _ => 0) parsed.data 0
  have inside : Agree (overlay (fun _ => 0) (ofList parsed.data) 0 parsed.data.length)
      (ofList parsed.data) 0 parsed.data.length := by
    intro address _ high
    rw [overlay_inside _ _ _ _ _ (Nat.zero_le _) high, Nat.sub_zero]
  exact (to_list_congr inside).symm.trans same

/-- The data check of an attempt. -/
theorem Attempt.checked {instrument : Instrument} {line : List Byte} {parsed : Line}
    {item : CmdItem} {bytes : List Byte} (attempt : Attempt instrument line parsed item bytes) :
    cmdDataChk instrument (parsedLine parsed) item = .ok (written instrument item bytes) := by
  have fits : ¬(((parsedLine parsed).dataLen < item.rule.minLen ∨
      item.rule.maxLen < (parsedLine parsed).dataLen) ∧ instrument.develop = false) := by
    rintro ⟨outside, off⟩
    rcases attempt.length with inside | on
    · have length : (parsedLine parsed).dataLen = parsed.data.length := rfl
      omega
    · rw [off] at on
      cases on
  rw [cmdDataChk, if_neg fits, attempt.value]
  rfl

/-- A string is written with the zero that ends it. -/
theorem new_bytes_text {instrument : Instrument} {parse : Parse} {item : CmdItem}
    {bytes : List Byte} {chk : Option StrChk} (rule : item.rule.data = .s chk)
    (passed : newBytes instrument parse item = .ok bytes) : bytes = text parse ++ [0] := by
  rw [newBytes, rule] at passed
  cases chk with
  | none => exact (Except.ok.inj passed).symm
  | some chk =>
    simp only [readText] at passed
    split_ifs at passed
    exact (Except.ok.inj passed).symm

/-- A mapped result that succeeded. -/
theorem map_ok {α : Type} {result : Except UppErr α} {write : α → List Byte} {bytes : List Byte}
    (mapped : result.map write = .ok bytes) :
    ∃ value, result = .ok value ∧ bytes = write value := by
  cases result with
  | error err => cases mapped
  | ok value => exact ⟨value, rfl, (Except.ok.inj mapped).symm⟩

/-- Two steps that succeeded in turn. -/
theorem bind_ok {α β : Type} {first : Except UppErr α} {second : α → Except UppErr β} {result : β}
    (bound : (first >>= second) = .ok result) :
    ∃ value, first = .ok value ∧ second value = .ok result := by
  cases first with
  | error err => cases bound
  | ok value => exact ⟨value, rfl, bound⟩

/-- The other formats write as many bytes as they have. -/
theorem new_bytes_length {instrument : Instrument} {parse : Parse} {item : CmdItem}
    {bytes : List Byte} (plain : ∀ chk, item.rule.data ≠ .s chk)
    (passed : newBytes instrument parse item = .ok bytes) :
    bytes.length = fmtWidth item.rule.data := by
  unfold newBytes at passed
  cases rule : item.rule.data <;> rw [rule] at passed
  case s chk => exact absurd rule (plain chk)
  case lf min max =>
    obtain ⟨_, _, ranged⟩ := bind_ok passed
    obtain ⟨_, _, rfl⟩ := map_ok ranged
    exact le_bytes_length 8 _
  case f6 min max =>
    obtain ⟨_, _, ranged⟩ := bind_ok passed
    obtain ⟨_, _, rfl⟩ := map_ok ranged
    exact le_bytes_length 4 _
  case f min max =>
    obtain ⟨_, _, ranged⟩ := bind_ok passed
    obtain ⟨_, _, limited⟩ := bind_ok ranged
    obtain ⟨_, _, rfl⟩ := map_ok limited
    exact le_bytes_length 4 _
  all_goals
    obtain ⟨_, _, rfl⟩ := map_ok passed
    simp [fmtWidth]

/-- An attempt of a line is unique. -/
theorem Attempt.unique {instrument : Instrument} {line : List Byte} {parsed other : Line}
    {item second : CmdItem} {bytes data : List Byte}
    (attempt : Attempt instrument line parsed item bytes)
    (also : Attempt instrument line other second data) :
    parsed = other ∧ item = second ∧ bytes = data := by
  obtain rfl : parsed = other := Except.ok.inj (attempt.read.symm.trans also.read)
  obtain rfl : item = second := Option.some.inj (attempt.row.symm.trans also.row)
  exact ⟨rfl, rfl, Except.ok.inj (attempt.value.symm.trans also.value)⟩

/-- The row of an attempt is in the table. -/
theorem Attempt.listed {instrument : Instrument} {line : List Byte} {parsed : Line}
    {item : CmdItem} {bytes : List Byte} (attempt : Attempt instrument line parsed item bytes) :
    item ∈ cmdTbl := (cmd_found_row attempt.row).1

/-- An attempt is executed as a set command of its row. -/
theorem answer_attempt (around : Surroundings) {instrument : Instrument} {line : List Byte}
    {parsed : Line} {item : CmdItem} {bytes : List Byte}
    (attempt : Attempt instrument line parsed item bytes) :
    answerLine around line instrument =
      match executeSet around (parsedLine parsed) item instrument with
      | (.error err, left) => (uppPktError err, left)
      | (.ok parse, left) => (uppRspBuildFlk parse item left, left) := by
  have op : (parsedLine parsed).op = uppOpSet := attempt.set
  have apart : (uppOpSet == uppOpGet) = false := by decide
  have matching : opMismatch (parsedLine parsed) item = false := by
    rw [opMismatch, op, attempt.settable, apart]
    rfl
  rw [answerLine, attempt.read]
  simp only [runCmd]
  rw [show (parsed.parse 0 0).cmdWord = parsed.word from rfl, attempt.row]
  simp only [executeRow]
  rw [show parsed.parse 0 0 = parsedLine parsed from rfl, matching, attempt.unlocked, if_pos op]
  rfl

/-- An attempt whose callback accepts is answered with its value, and its group is saved if
the row says so. -/
theorem answer_accepted (around : Surroundings) {instrument : Instrument} {line : List Byte}
    {parsed : Line} {item : CmdItem} {bytes : List Byte} {left : Instrument}
    (attempt : Attempt instrument line parsed item bytes)
    (called : setEffect around (parsedLine parsed) (written instrument item bytes) item.id =
      (true, left)) :
    answerLine around line instrument =
      (uppRspBuildFlk (parsedLine parsed) item (kept item left), kept item left) := by
  rw [answer_attempt around attempt, executeSet, attempt.checked]
  simp only [uppSetCallback, called, kept]

/-- An attempt whose callback refuses is answered with an error, and the saved bytes are
copied back. -/
theorem answer_refused (around : Surroundings) {instrument : Instrument} {line : List Byte}
    {parsed : Line} {item : CmdItem} {bytes : List Byte} {left : Instrument}
    (attempt : Attempt instrument line parsed item bytes)
    (called : setEffect around (parsedLine parsed) (written instrument item bytes) item.id =
      (false, left)) :
    answerLine around line instrument =
      (uppPktError .dataIllegal, rolledBack around instrument parsed item left) := by
  rw [answer_attempt around attempt, executeSet, attempt.checked]
  simp only [uppSetCallback, called, rolledBack]

/-- The three kinds of lines: attempts to set, queries, and lines that change nothing. The
latter are answered with an error if they can be read. -/
theorem line_cases (around : Surroundings) (instrument : Instrument) (line : List Byte) :
    (∃ parsed item bytes, Attempt instrument line parsed item bytes) ∨
      (∃ parsed, readLine (ownAddr instrument) line = .ok parsed ∧ parsed.op = uppOpGet) ∨
      ∃ err, answerLine around line instrument = (uppPktError err, instrument) ∧
        (err ≠ .ok ∨ ∃ failed, readLine (ownAddr instrument) line = .error failed) := by
  rw [answerLine]
  cases read : readLine (ownAddr instrument) line with
  | error err => exact Or.inr (Or.inr ⟨err, rfl, Or.inr ⟨err, rfl⟩⟩)
  | ok parsed =>
    rcases read_line_op read with query | set
    · exact Or.inr (Or.inl ⟨parsed, rfl, query⟩)
    have op : (parsedLine parsed).op = uppOpSet := set
    simp only [runCmd]
    rw [show (parsed.parse 0 0).cmdWord = parsed.word from rfl]
    cases row : cmdFound parsed.word with
    | none => exact Or.inr (Or.inr ⟨.noSupportCmd, rfl, Or.inl (by decide)⟩)
    | some item =>
      simp only [executeRow]
      rw [show parsed.parse 0 0 = parsedLine parsed from rfl]
      by_cases mismatch : opMismatch (parsedLine parsed) item = true
      · rw [if_pos mismatch]
        exact Or.inr (Or.inr ⟨.opType, rfl, Or.inl (by decide)⟩)
      have settable : item.props.contains .s = true := by
        by_contra missing
        refine mismatch ?_
        rw [opMismatch, op, Bool.eq_false_of_not_eq_true missing]
        rfl
      rw [if_neg mismatch]
      by_cases lock : locked (parsedLine parsed) item instrument = true
      · rw [if_pos lock]
        exact Or.inr (Or.inr ⟨.cmdLocked, rfl, Or.inl (by decide)⟩)
      rw [if_neg lock, if_pos op, executeSet, cmdDataChk]
      by_cases outside : ((parsedLine parsed).dataLen < item.rule.minLen ∨
          item.rule.maxLen < (parsedLine parsed).dataLen) ∧ instrument.develop = false
      · rw [if_pos outside]
        exact Or.inr (Or.inr ⟨.dataLen, rfl, Or.inl (by decide)⟩)
      rw [if_neg outside]
      cases value : newBytes instrument (parsedLine parsed) item with
      | error err =>
        refine Or.inr (Or.inr ⟨err, rfl, Or.inl ?_⟩)
        rcases new_bytes_error value with rfl | rfl <;> decide
      | ok bytes =>
        refine Or.inl
          ⟨parsed, item, bytes, read, set, row, settable, by simpa using lock, ?_, value⟩
        have length : (parsedLine parsed).dataLen = parsed.data.length := rfl
        by_cases develop : instrument.develop = true
        · exact Or.inr develop
        · have off : instrument.develop = false := by simpa using develop
          simp only [off, and_true, not_or, not_lt] at outside
          exact Or.inl outside

/-- A query of a row that can be asked is answered by its getter. -/
theorem answer_query (around : Surroundings) {instrument : Instrument} {line : List Byte}
    {parsed : Line} {item : CmdItem} (read : readLine (ownAddr instrument) line = .ok parsed)
    (query : parsed.op = uppOpGet) (row : cmdFound parsed.word = some item)
    (pollable : item.props.contains .p = true) :
    answerLine around line instrument =
      match executeGet (parsedLine parsed) item instrument with
      | (.error err, left) => (uppPktError err, left)
      | (.ok parse, left) => (uppRspBuildFlk parse item left, left) := by
  have op : (parsedLine parsed).op = uppOpGet := query
  have apart : (uppOpGet == uppOpSet) = false := by decide
  have matching : opMismatch (parsedLine parsed) item = false := by
    rw [opMismatch, op, pollable, apart]
    rfl
  have open_row : locked (parsedLine parsed) item instrument = false := by
    rw [locked, op, apart, Bool.and_false, Bool.false_and]
  have other : ¬(parsedLine parsed).op = uppOpSet := by
    rw [op]
    decide
  rw [answerLine, read]
  simp only [runCmd]
  rw [show (parsed.parse 0 0).cmdWord = parsed.word from rfl, row]
  simp only [executeRow]
  rw [show parsed.parse 0 0 = parsedLine parsed from rfl, matching, open_row, if_neg other,
    if_pos op]
  rfl

/-- A query of a row that cannot be asked changes nothing. -/
theorem query_cases (around : Surroundings) {instrument : Instrument} {line : List Byte}
    {parsed : Line} (read : readLine (ownAddr instrument) line = .ok parsed)
    (query : parsed.op = uppOpGet) :
    (∃ err, answerLine around line instrument = (uppPktError err, instrument)) ∨
      ∃ item, cmdFound parsed.word = some item ∧ item.props.contains .p = true := by
  cases row : cmdFound parsed.word with
  | none =>
    refine Or.inl ⟨.noSupportCmd, ?_⟩
    rw [answerLine, read]
    simp only [runCmd]
    rw [show (parsed.parse 0 0).cmdWord = parsed.word from rfl, row]
  | some item =>
    by_cases pollable : item.props.contains .p = true
    · exact Or.inr ⟨item, rfl, pollable⟩
    · refine Or.inl ⟨.opType, ?_⟩
      have op : (parsedLine parsed).op = uppOpGet := query
      have mismatch : opMismatch (parsedLine parsed) item = true := by
        rw [opMismatch, op, Bool.eq_false_of_not_eq_true pollable]
        simp
      rw [answerLine, read]
      simp only [runCmd]
      rw [show (parsed.parse 0 0).cmdWord = parsed.word from rfl, row]
      simp only [executeRow]
      rw [show parsed.parse 0 0 = parsedLine parsed from rfl, if_pos mismatch]

end Pyrometer.SetCommands
