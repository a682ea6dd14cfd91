import Pyrometer.SetCommands

/-!
# Which bytes an accepted set command changes

With the checks on, an accepted set command is to change only the object of its row, the
magic word and its group's checksum word, and the members that its callback assigns.
Seven rows can write beyond that. `GA` and `SM` write four bytes into objects of one
byte. The zero behind a text lands behind an object that the text fills, for `BC` and
the four coefficient commands. A text for `NWA` or `NWB` may have a word too many, and
`AP` accepts two channels that its array does not have. Such a write goes unnoticed
when the bytes were there before.

Saving a group recalculates every checksum word, so the words of other groups change
when they did not match their groups.
-/

namespace Pyrometer.SetFrame

open ByteMemory CText CommandTable ParameterLayout ParameterManager ParameterChecks
open ParameterLoading
open InstrumentState AlgorithmCommands UppParser UppLines CommandExecution UppStream
open CommandReplies CommandEffects SetCommands Instrument

/-- The type of coefficients that an algorithm text names. -/
def algoType (raw : List Byte) : Option Int :=
  match strtok comma (cString raw) 0 with
  | none => none
  | some (_, first) =>
      match strtok comma (cString raw) (first + 1) with
      | none => none
      | some (token, _) => some (atoi token)

/-- The members that a coefficient text is for. -/
def coefMembers (id : CmdId) (raw : List Byte) : List Member :=
  if id = .cmdAp then
    if algoType raw = some 0 then [.algoLogPara]
    else if algoType raw = some 1 then [.algoPolyPara]
    else []
  else if id = .cmdNwa then [.algoEffectiveW1]
  else if id = .cmdNwb then [.algoEffectiveW2]
  else if id = .cmdNb then [.algoEffectiveB1, .algoEffectiveB2]
  else []

/-- The checksum word of a group. -/
def wordTarget (group : ParaType) : Target := ⟨.para, crcWord group, 2⟩

/-- What an accepted command may change. -/
def frameTargets (item : CmdItem) (raw : List Byte) : List Target :=
  item.arg.target :: magicTarget :: wordTarget item.group ::
    (assigned item.id ++ coefMembers item.id raw).map Member.target

/-- A set command that is executed: its line can be read, its word has a row, and it is not
answered with an error. -/
structure Accepted (around : Surroundings) (line : List Byte) (instrument : Instrument)
    (parsed : Line) (item : CmdItem) : Prop where
  read : readLine (ownAddr instrument) line = .ok parsed
  set : parsed.op = uppOpSet
  row : cmdFound parsed.word = some item
  answered : ¬ErrorLine (answerLine around line instrument).1

/-- What is asked of a line: with the checks on, an executed command changes only what it
may. -/
def SetFramed (around : Surroundings) (line : List Byte) (instrument : Instrument) : Prop :=
  ∀ parsed item, Accepted around line instrument parsed item → instrument.develop = false →
    ∀ region address, address < region.size →
      ¬Within (frameTargets item parsed.data) region address →
        (answerLine around line instrument).2.region region address =
          instrument.region region address

/-- Bytes that a command writes beyond what it may. -/
structure Overrun where
  region : Region
  start : Nat
  bytes : List Byte
  deriving DecidableEq

/-- The place of an overrun. -/
def Overrun.target (overrun : Overrun) : Target :=
  ⟨overrun.region, overrun.start, overrun.bytes.length⟩

/-- The zero behind a text that fills its object. -/
def textOverrun (member : Member) (raw : List Byte) : List Overrun :=
  if (cString raw).length = member.target.size then
    [⟨member.target.region, member.target.offset + member.target.size, [0]⟩]
  else []

/-- The words of a network text behind the 64 that an array has. -/
def wordOverrun (member : Member) (raw : List Byte) : List Overrun :=
  [⟨.para, member.target.offset, wordBytes (((networkWords (cString raw)).getD []).drop 64)⟩]

/-- The coefficients of a channel that the array does not have. -/
def logOverrun (raw : List Byte) : List Overrun :=
  match algoLoad raw with
  | some (some (place, bytes)) =>
      if algoType raw = some 0 ∧ Member.algoPolyPara.target.offset ≤ place then
        [⟨.para, place, bytes⟩]
      else []
  | _ => []

/-- What a command writes beyond what it may. -/
def overruns (id : CmdId) (raw : List Byte) : List Overrun :=
  match id with
  | .cmdGa => [⟨.para, Member.adcOffs0.target.offset, [0, 0, 0]⟩]
  | .cmdSm => [⟨.state, Member.tiagSwitchMode.target.offset + 1, [0, 0, 0]⟩]
  | .cmdBc => textOverrun .burstCmdList raw
  | .cmdAp => textOverrun .algoStr raw ++ logOverrun raw
  | .cmdNwa => textOverrun .algoNetworkStrW1 raw ++ wordOverrun .algoEffectiveB1 raw
  | .cmdNwb => textOverrun .algoNetworkStrW2 raw ++ wordOverrun .algoEffectiveB2 raw
  | .cmdNb => textOverrun .algoNetworkStrB raw
  | _ => []

/-- An overrun finds its bytes already there. -/
def Overrun.There (overrun : Overrun) (instrument : Instrument) : Prop :=
  toList (instrument.region overrun.region) overrun.start overrun.bytes.length = overrun.bytes

/-- The command saves its group. -/
def saves (item : CmdItem) : Bool := item.props.contains .m || decide (item.id = .cmdCa)

/-- A command writes nothing new beyond what it may, and the checksum words of the other
groups match if it saves its own. -/
def Contained (instrument : Instrument) (item : CmdItem) (raw : List Byte) : Prop :=
  (∀ overrun ∈ overruns item.id raw, overrun.There instrument) ∧
    (saves item = true → ∀ group, group ≠ item.group →
      groupValid instrument.pmm.sysPara group = true)

/-- An executed command is an attempt that its callback accepted. -/
theorem Accepted.attempt {around : Surroundings} {line : List Byte} {instrument : Instrument}
    {parsed : Line} {item : CmdItem} (accepted : Accepted around line instrument parsed item) :
    ∃ bytes left, Attempt instrument line parsed item bytes ∧
      setEffect around (parsedLine parsed) (written instrument item bytes) item.id =
        (true, left) := by
  rcases line_cases around instrument line with
    ⟨other, second, bytes, attempt⟩ | ⟨other, read, query⟩ |
      ⟨err, silent, loud⟩
  · obtain rfl : parsed = other := Except.ok.inj (accepted.read.symm.trans attempt.read)
    obtain rfl : item = second := Option.some.inj (accepted.row.symm.trans attempt.row)
    rcases called : setEffect around (parsedLine parsed) (written instrument item bytes) item.id
      with ⟨success, left⟩
    cases success with
    | true => exact ⟨bytes, left, attempt, called⟩
    | false =>
      have error := accepted.answered
      rw [answer_refused around attempt called] at error
      exact absurd ⟨.dataIllegal, by decide, rfl⟩ error
  · obtain rfl : parsed = other := Except.ok.inj (accepted.read.symm.trans read)
    exact absurd (query.symm.trans accepted.set) (by decide)
  · have error := accepted.answered
    rw [silent] at error
    rcases loud with real | ⟨failed, unread⟩
    · exact absurd ⟨err, real, rfl⟩ error
    · rw [accepted.read] at unread
      cases unread

/-- An attempt that its callback accepted is executed. -/
theorem attempt_accepted (around : Surroundings) {instrument : Instrument} {line : List Byte}
    {parsed : Line} {item : CmdItem} {bytes : List Byte} {left : Instrument}
    (attempt : Attempt instrument line parsed item bytes)
    (called : setEffect around (parsedLine parsed) (written instrument item bytes) item.id =
      (true, left)) : Accepted around line instrument parsed item := by
  refine ⟨attempt.read, attempt.set, attempt.row, ?_⟩
  rw [answer_accepted around attempt called]
  exact build_not_error _ _ _

/-- Everything that an accepted command writes, apart from the words of a save. -/
def touched (item : CmdItem) (bytes raw : List Byte) : List Target :=
  ⟨item.arg.target.region, item.arg.target.offset, bytes.length⟩ ::
    ((assigned item.id).map Member.target ++ loaded item.id raw)

/-- Bytes of the parameters that an object covers belong to the data of a group. -/
def InGroup (group : ParaType) (target : Target) : Prop :=
  target.region = .para → group.offset ≤ target.offset ∧
    target.offset + target.size ≤ group.offset + group.size

instance (group : ParaType) (target : Target) : Decidable (InGroup group target) :=
  inferInstanceAs (Decidable (_ → _))

/-- Coefficients of the logarithmic algorithm go to one of eight slots. -/
theorem parse_log_place {input : List Byte} {place : Nat} {bytes : List Byte}
    (parsed : parseLogPara input = some (place, bytes)) :
    bytes.length = sizeofLogPara ∧
      ∃ slot, slot < 8 ∧ place = Member.algoLogPara.target.offset + sizeofLogPara * slot := by
  unfold parseLogPara at parsed
  split at parsed
  · split_ifs at parsed with range
    obtain ⟨rfl, rfl⟩ := Prod.mk.inj (Option.some.inj parsed)
    refine ⟨by simp [coefBytes, sizeofLogPara], _, ?_, rfl⟩
    omega
  · cases parsed

/-- The terms of a polynomial have nine bytes each. -/
theorem read_coefs_length {count : Nat} {words : List (List Byte)} {coefs : List Byte}
    (read : readCoefs count words = some coefs) : coefs.length = sizeofCoef * count := by
  induction count generalizing words coefs with
  | zero =>
    unfold readCoefs at read
    split at read <;> simp_all
  | succ count inductionHypothesis =>
    unfold readCoefs at read
    split at read
    · omega
    · rename_i left base index rest counted
      obtain rfl : count = left := by omega
      obtain ⟨tail, later, rfl⟩ := Option.map_eq_some_iff.mp read
      rw [List.length_append, inductionHypothesis later]
      simp [coefBytes, sizeofCoef]
      ring
    · cases read

/-- Coefficients of a polynomial fit their slot. -/
theorem parse_poly_place {input : List Byte} {place : Nat} {bytes : List Byte}
    (parsed : parsePolyPara input = some (place, bytes)) :
    bytes.length ≤ sizeofPolyPara ∧
      ∃ slot, slot < 2 ∧ place = Member.algoPolyPara.target.offset + sizeofPolyPara * slot := by
  unfold parsePolyPara at parsed
  split at parsed
  · split_ifs at parsed with range
    obtain ⟨coefs, read, same⟩ := Option.map_eq_some_iff.mp parsed
    obtain ⟨rfl, rfl⟩ := Prod.mk.inj same
    have length := read_coefs_length read
    refine ⟨?_, _, ?_, rfl⟩
    · simp only [List.length_append, le_bytes_length, length, sizeofCoef, sizeofPolyPara]
      omega
    · omega
  · cases parsed

/-- What an algorithm text is loaded into, by its type. -/
theorem algo_load_cases {data : List Byte} {write : Option (Nat × List Byte)}
    (load : algoLoad data = some write) :
    write = none ∨
      (algoType data = some 0 ∧ ∃ input, parseLogPara input = write) ∨
      (algoType data = some 1 ∧ ∃ input, parsePolyPara input = write) := by
  unfold algoLoad at load
  split_ifs at load
  cases one : strtok comma (cString data) 0 with
  | none =>
    rw [one] at load
    cases load
  | some first =>
    rw [one] at load
    cases two : strtok comma (cString data) (first.2 + 1) with
    | none =>
      simp only [two] at load
      cases load
    | some second =>
      have type : algoType data = some (atoi second.1) := by simp [algoType, one, two]
      simp only [two] at load
      split_ifs at load with _ log poly network
      · obtain ⟨result, parsed, rfl⟩ := Option.map_eq_some_iff.mp load
        exact Or.inr (Or.inl ⟨by rw [type, log], _, parsed⟩)
      · obtain ⟨result, parsed, rfl⟩ := Option.map_eq_some_iff.mp load
        exact Or.inr (Or.inr ⟨by rw [type, poly], _, parsed⟩)
      · exact Or.inl (Option.some.inj load).symm

/-- A network text has 64 or 65 words. -/
theorem network_words_count {input : List Byte} {words : List Nat}
    (read : networkWords input = some words) : words.length = 64 ∨ words.length = 65 := by
  unfold networkWords at read
  split at read
  · split_ifs at read with range
    obtain rfl := Option.some.inj read
    rw [List.length_map]
    omega
  · cases read

/-- Words have four bytes each. -/
@[simp] theorem word_bytes_length (words : List Nat) :
    (wordBytes words).length = 4 * words.length := by
  induction words with
  | nil => rfl
  | cons word rest inductionHypothesis =>
    rw [wordBytes, List.flatMap_cons, List.length_append, le_bytes_length, ← wordBytes,
      inductionHypothesis, List.length_cons]
    ring

/-- The writes of a network text. -/
theorem network_load_cases {id : CmdId} {data : List Byte} {writes : List (Nat × List Byte)}
    (network : id ≠ .cmdAp) (load : coefLoad id data = some writes) :
    ∃ words, networkWords (cString data) = some words ∧ writes = networkWrites id words ∧
      (words.length = 64 ∨ words.length = 65) := by
  rw [coefLoad, if_neg network, algoNetworkParaLoad] at load
  split_ifs at load
  obtain ⟨words, read, rfl⟩ := Option.map_eq_some_iff.mp load
  exact ⟨words, read, rfl, network_words_count read⟩

/-- The write of an algorithm text, if there is one. -/
theorem algo_write_cases {data : List Byte} {writes : List (Nat × List Byte)}
    (load : coefLoad .cmdAp data = some writes) :
    (writes = [] ∧ algoLoad data = some none) ∨ ∃ place bytes, writes = [(place, bytes)] ∧
      algoLoad data = some (some (place, bytes)) ∧
      ((algoType data = some 0 ∧ bytes.length = sizeofLogPara ∧
          ∃ slot, slot < 8 ∧ place = Member.algoLogPara.target.offset + sizeofLogPara * slot) ∨
        (algoType data = some 1 ∧ bytes.length ≤ sizeofPolyPara ∧
          ∃ slot, slot < 2 ∧
            place = Member.algoPolyPara.target.offset + sizeofPolyPara * slot)) := by
  rw [coefLoad, if_pos rfl] at load
  obtain ⟨write, loads, rfl⟩ := Option.map_eq_some_iff.mp load
  cases write with
  | none => exact Or.inl ⟨rfl, loads⟩
  | some write =>
    refine Or.inr ⟨write.1, write.2, rfl, loads, ?_⟩
    rcases algo_load_cases loads with none | ⟨type, input, parsed⟩ | ⟨type, input, parsed⟩
    · cases none
    · exact Or.inl ⟨type, parse_log_place parsed⟩
    · exact Or.inr ⟨type, parse_poly_place parsed⟩

/-- Coefficients are loaded into the group of the algorithms. -/
theorem loaded_in_group (id : CmdId) (data : List Byte) (target : Target)
    (listed : target ∈ loaded id data) : InGroup .algo target := by
  rw [loaded] at listed
  split_ifs at listed with coef
  · obtain ⟨write, member, rfl⟩ := List.mem_map.mp listed
    cases load : coefLoad id data with
    | none =>
      rw [load] at member
      cases member
    | some writes =>
      rw [load] at member
      have listed : write ∈ writes := member
      intro _
      by_cases algo : id = .cmdAp
      · subst algo
        rcases algo_write_cases load with ⟨rfl, _⟩ | ⟨place, bytes, rfl, _, log | poly⟩
        · cases listed
        · obtain rfl := List.mem_singleton.mp listed
          obtain ⟨_, length, slot, below, rfl⟩ := log
          simp only [length, sizeofLogPara]
          have start : Member.algoLogPara.target.offset = ParaType.offset .algo := rfl
          have size : ParaType.size .algo = 1156 := rfl
          omega
        · obtain rfl := List.mem_singleton.mp listed
          obtain ⟨_, length, slot, below, rfl⟩ := poly
          simp only [sizeofPolyPara] at length ⊢
          have start : Member.algoPolyPara.target.offset = ParaType.offset .algo + 104 := rfl
          have size : ParaType.size .algo = 1156 := rfl
          omega
      · obtain ⟨words, _, rfl, count⟩ := network_load_cases algo load
        have size : ParaType.size .algo = 1156 := rfl
        have first : Member.algoEffectiveW1.target.offset = ParaType.offset .algo + 384 := rfl
        have second : Member.algoEffectiveW2.target.offset = ParaType.offset .algo + 896 := rfl
        have third : Member.algoEffectiveB1.target.offset = ParaType.offset .algo + 640 := rfl
        have fourth : Member.algoEffectiveB2.target.offset = ParaType.offset .algo + 1152 := rfl
        unfold networkWrites at listed
        split_ifs at listed
        · obtain rfl := List.mem_singleton.mp listed
          simp only [word_bytes_length]
          omega
        · obtain rfl := List.mem_singleton.mp listed
          simp only [word_bytes_length]
          omega
        · simp only [List.mem_cons, List.not_mem_nil, or_false] at listed
          rcases listed with rfl | rfl
          · simp only [word_bytes_length, List.length_take]
            omega
          · simp only [word_bytes_length, List.length_drop]
            omega
  · cases listed

/-- A change confined to some places that are covered by what may change and by overruns
whose bytes are those of the result keeps to what may change exactly when the bytes of the
overruns were there before, and the words of a save are as they should be. -/
theorem framed_iff {allowed places : List Target} {beyond : List Overrun}
    {before after : Instrument} {fresh : Prop}
    (confined : Confined (places ++ sealed) before after)
    (covered : ∀ region address, Within places region address →
      Within allowed region address ∨ Within (beyond.map Overrun.target) region address)
    (final : ∀ overrun ∈ beyond, overrun.There after)
    (outside : ∀ overrun ∈ beyond,
      overrun.start + overrun.bytes.length ≤ overrun.region.size ∧
        ∀ address, overrun.start ≤ address → address < overrun.start + overrun.bytes.length →
          ¬Within allowed overrun.region address)
    (words : (∀ address, Within sealed .para address → ¬Within allowed .para address →
      after.region .para address = before.region .para address) ↔ fresh) :
    (∀ region address, address < region.size → ¬Within allowed region address →
        after.region region address = before.region region address) ↔
      (∀ overrun ∈ beyond, overrun.There before) ∧ fresh := by
  constructor
  · intro framed
    refine ⟨fun overrun listed => ?_, words.mp (fun address inside free => ?_)⟩
    · obtain ⟨below, free⟩ := outside overrun listed
      refine Eq.trans (to_list_congr (fun address low high => ?_)) (final overrun listed)
      exact (framed overrun.region address (by omega) (free address low high)).symm
    · refine framed .para address ?_ free
      obtain ⟨target, listed, _, _, high⟩ := inside
      simp only [sealed, List.mem_cons, List.not_mem_nil, or_false] at listed
      rcases listed with rfl | rfl
      · exact lt_of_lt_of_le high (by decide)
      · exact lt_of_lt_of_le high (by decide)
  · rintro ⟨there, holds⟩ region address _ free
    by_cases inside : Within (beyond.map Overrun.target) region address
    · obtain ⟨target, listed, rfl, low, high⟩ := inside
      obtain ⟨overrun, member, rfl⟩ := List.mem_map.mp listed
      exact agree_of_to_list ((final overrun member).trans (there overrun member).symm) address low
        high
    by_cases save : Within sealed region address
    · obtain ⟨target, listed, rfl, place⟩ := save
      have para : target.region = .para := by
        simp only [sealed, List.mem_cons, List.not_mem_nil, or_false] at listed
        rcases listed with rfl | rfl <;> rfl
      rw [para] at free ⊢
      exact words.mpr holds address ⟨target, listed, para, place⟩ free
    · refine confined region address (fun written => ?_)
      obtain ⟨target, listed, place⟩ := written
      rcases List.mem_append.mp listed with touches | words
      · rcases covered region address ⟨target, touches, place⟩ with may | more
        · exact free may
        · exact inside more
      · exact save ⟨target, words, place⟩

/-- The rows of the table: objects of the parameters lie in the row's group, as do the
members that the callback assigns, and every format that is not a string fits the group. -/
theorem rows_in_group : ∀ item ∈ cmdTbl, item.props.contains .s = true →
    InGroup item.group item.arg.target ∧
      (∀ member ∈ assigned item.id, InGroup item.group member.target) ∧
      (isCoefCmd item.id = true → item.group = .algo) ∧
      InGroup item.group ⟨item.arg.target.region, item.arg.target.offset,
        fmtWidth item.rule.data⟩ := by
  decide +kernel

/-- The texts of the table fit the row's group, with the zero that ends them. -/
theorem texts_in_group : ∀ item ∈ cmdTbl, item.props.contains .s = true →
    ∀ chk ∈ [none, some StrChk.pureDigit, some .checkFmt, some .validIp, some .cmdList],
      item.rule.data = .s chk →
        InGroup item.group ⟨item.arg.target.region, item.arg.target.offset,
          item.rule.maxLen + 1⟩ := by
  decide +kernel

/-- Every check that a rule may name is among the listed ones. -/
theorem checks_listed (chk : Option StrChk) :
    chk ∈ [none, some StrChk.pureDigit, some .checkFmt, some .validIp, some .cmdList] := by
  cases chk with
  | none => decide
  | some chk => cases chk <;> decide

/-- The string of an attempt, with the checks on, is not longer than its row allows. -/
theorem text_length {instrument : Instrument} {line : List Byte} {parsed : Line} {item : CmdItem}
    {bytes : List Byte} (attempt : Attempt instrument line parsed item bytes)
    (checks : instrument.develop = false) : (cString parsed.data).length ≤ item.rule.maxLen := by
  rcases attempt.length with ⟨_, short⟩ | develop
  · exact (c_string_length_le parsed.data).trans short
  · rw [checks] at develop
    cases develop

/-- With the checks on, an attempt writes to the data of its group only. -/
theorem touched_in_group {instrument : Instrument} {line : List Byte} {parsed : Line}
    {item : CmdItem} {bytes : List Byte} (attempt : Attempt instrument line parsed item bytes)
    (checks : instrument.develop = false) (target : Target)
    (listed : target ∈ touched item bytes parsed.data) : InGroup item.group target := by
  obtain ⟨_, assigns, coefs, plain⟩ := rows_in_group item attempt.listed attempt.settable
  rcases List.mem_cons.mp listed with rfl | more
  · by_cases string : ∃ chk, item.rule.data = .s chk
    · obtain ⟨chk, rule⟩ := string
      have place := texts_in_group item attempt.listed attempt.settable chk (checks_listed chk) rule
      have short := text_length attempt checks
      intro para
      have inside := place para
      have length : bytes.length = (cString parsed.data).length + 1 := by
        rw [new_bytes_text rule attempt.value, text, raw_parsed, List.length_append]
        rfl
      simp only at inside ⊢
      omega
    · have length := new_bytes_length (fun chk rule => string ⟨chk, rule⟩) attempt.value
      rw [length]
      exact plain
  · rcases List.mem_append.mp more with member | coef
    · obtain ⟨own, chosen, rfl⟩ := List.mem_map.mp member
      exact assigns own chosen
    · have algo : isCoefCmd item.id = true := by
        by_contra other
        rw [loaded, if_neg other] at coef
        cases coef
      rw [coefs algo]
      exact loaded_in_group item.id parsed.data target coef

/-- An accepted command: what it wrote, and a save if there is one. -/
theorem accepted_base (around : Surroundings) {instrument : Instrument} {line : List Byte}
    {parsed : Line} {item : CmdItem} {bytes : List Byte} {left : Instrument}
    (attempt : Attempt instrument line parsed item bytes)
    (called : setEffect around (parsedLine parsed) (written instrument item bytes) item.id =
      (true, left)) :
    ∃ base, Confined (touched item bytes parsed.data) instrument base ∧
      kept item left = if saves item then base.saveGroup item.group else base := by
  have first := confined_store instrument item.arg.target.offset bytes item.arg.target.region
  have unsaved : ∀ item ∈ cmdTbl, item.id = .cmdCa →
      item.props.contains .m = false ∧ item.group = .temp := by decide +kernel
  by_cases calibration : item.id = .cmdCa
  · obtain ⟨plain, group⟩ := unsaved item attempt.listed calibration
    rw [calibration] at called
    cases mode : calibrated around ((written instrument item bytes).value .tempMode % 256) with
    | none =>
      have refused : (false, written instrument item bytes) = (true, left) := by
        rw [← called]
        simp only [setEffect, calibrateTemperature, mode]
      cases refused
    | some goal =>
      have loop : calibrateLoop around goal 50 (firstTrial (written instrument item bytes) goal)
          (written instrument item bytes) = (true, left) := by
        rw [← called]
        simp only [setEffect, calibrateTemperature, mode]
      obtain ⟨base, confined, rfl⟩ := calibrate_loop_saved around goal 50 _ _ left loop
      refine ⟨base, confined_trans (confined_mono (by simp [touched]) first)
        (confined_mono ?_ confined), ?_⟩
      · rw [touched, calibration]
        cases goal with
        | trans channel => cases channel <;> simp [assigned, Calibrated.member]
        | slope => simp [assigned, Calibrated.member]
      · rw [kept, plain, saves, calibration, group]
        simp
  · refine ⟨left, confined_trans (confined_mono (by simp [touched]) first) ?_, ?_⟩
    · have effect := set_effect_confined around (parsedLine parsed) (written instrument item bytes)
        item.id
      rw [called, raw_parsed, effectTargets, if_neg calibration, List.append_nil] at effect
      exact confined_mono (List.subset_cons_self _ _) effect
    · rw [kept, saves, decide_eq_false calibration, Bool.or_false]

/-- The checksum words that a save leaves. -/
theorem save_group_stored (instrument : Instrument) (group tested : ParaType) :
    storedCrc (instrument.saveGroup group).pmm.sysPara tested =
      groupCrc instrument.pmm.sysPara tested := by
  have data := pmm_save_group_data group instrument.pmm
  have same := group_crc_congr (same_data_group data tested)
  have valid : FullyValid (pmmSaveGroup group instrument.pmm).sysPara := by
    rw [pmm_save_group_para]
    exact recalculate_valid _
  have passes := valid.2 tested
  rw [groupValid, beq_iff_eq] at passes
  exact passes.symm.trans same

/-- Places in a group's data contain no data of another group and no checksum word. -/
theorem in_group_outside {group : ParaType} {places : List Target}
    (inGroup : ∀ target ∈ places, InGroup group target) {address : Nat}
    (other : address < group.offset ∨ group.offset + group.size ≤ address) :
    ¬Within places .para address := by
  rintro ⟨target, listed, region, low, high⟩
  have inside := inGroup target listed region
  omega

/-- The word of another group is not among what may change. -/
theorem other_word_free {group other : ParaType} {allowed : List Target}
    (only : ∀ target ∈ allowed,
      target = magicTarget ∨ target = wordTarget group ∨ InGroup group target)
    (different : other ≠ group) {address : Nat} (low : crcWord other ≤ address)
    (high : address < crcWord other + 2) : ¬Within allowed .para address := by
  rintro ⟨target, listed, region, above, below⟩
  have word := crc_word_bounds other
  have bounds := group_bounds group
  have apart := crc_words_disjoint other group different
  rcases only target listed with rfl | rfl | inGroup
  · simp only [magicTarget, crcOffset] at *
    omega
  · simp only [wordTarget] at *
    omega
  · have inside := inGroup region
    omega

/-- The words of a save: those of other groups stay exactly when they match their groups. -/
theorem words_iff {group : ParaType} {allowed places : List Target} {before base : Instrument}
    {saved : Bool} (inGroup : ∀ target ∈ places, InGroup group target)
    (confined : Confined places before base) (magic : magicTarget ∈ allowed)
    (own : wordTarget group ∈ allowed)
    (only : ∀ target ∈ allowed,
      target = magicTarget ∨ target = wordTarget group ∨ InGroup group target) :
    (∀ address, Within sealed .para address → ¬Within allowed .para address →
        (if saved then base.saveGroup group else base).region .para address =
          before.region .para address) ↔
      (saved = true → ∀ other, other ≠ group → groupValid before.pmm.sysPara other = true) := by
  have bounds := group_bounds group
  have crcs : ∀ other : ParaType, other ≠ group →
      groupCrc base.pmm.sysPara other = groupCrc before.pmm.sysPara other := by
    intro other different
    refine group_crc_congr (fun address low high => ?_)
    refine confined .para address (in_group_outside inGroup ?_)
    have apart := groups_disjoint other group different
    omega
  have word : ∀ address, Within sealed .para address → ¬Within allowed .para address →
      ∃ other, other ≠ group ∧ crcWord other ≤ address ∧ address < crcWord other + 2 := by
    intro address inside free
    obtain ⟨target, listed, _, low, high⟩ := inside
    simp only [sealed, List.mem_cons, List.not_mem_nil, or_false] at listed
    rcases listed with rfl | rfl
    · exact absurd ⟨magicTarget, magic, rfl, low, high⟩ free
    · simp only [crcTarget] at low high
      have size : sizeofSysPara = crcOffset + 28 := by decide
      have above : 4 ≤ crcOffset := by decide
      obtain ⟨other, owned⟩ := owner_exists address (by omega) (by omega)
      have data := group_bounds other
      rcases owned with ⟨_, behind⟩ | place
      · omega
      · refine ⟨other, ?_, place⟩
        rintro rfl
        exact free ⟨wordTarget other, own, rfl, place⟩
  cases saved with
  | false =>
    refine iff_of_true (fun address inside free => ?_) (fun claim => absurd claim (by decide))
    obtain ⟨other, _, low, _⟩ := word address inside free
    have bound := crc_word_bounds other
    exact confined .para address (in_group_outside inGroup (Or.inr (by omega)))
  | true =>
    have stored : ∀ other, other ≠ group →
        storedCrc (base.saveGroup group).pmm.sysPara other =
          groupCrc before.pmm.sysPara other := by
      intro other different
      rw [save_group_stored, crcs other different]
    constructor
    · intro framed _ other different
      have kept : storedCrc (base.saveGroup group).pmm.sysPara other =
          storedCrc before.pmm.sysPara other := by
        refine stored_crc_congr (fun address low high => ?_)
        have bound := crc_word_bounds other
        refine framed address ⟨crcTarget, by simp [sealed], rfl, ?_, ?_⟩
          (other_word_free only different low high)
        · simp only [crcTarget]
          omega
        · simp only [crcTarget, sizeofSysPara, crcOffset] at *
          omega
      rw [groupValid, beq_iff_eq, ← stored other different, kept]
    · intro valid address inside free
      obtain ⟨other, different, low, high⟩ := word address inside free
      have passes := valid rfl other different
      rw [groupValid, beq_iff_eq] at passes
      have same : load16 (base.saveGroup group).pmm.sysPara (crcWord other) =
          load16 before.pmm.sysPara (crcWord other) := (stored other different).trans passes
      have bytes := congrArg (fun value => byteOf value (address - crcWord other)) same
      simp only [byte_of_load16 _ _ _ (show address - crcWord other < 2 by omega)] at bytes
      rw [show crcWord other + (address - crcWord other) = address by omega] at bytes
      exact bytes

/-- What bytes written to an object leave behind its end. -/
def tail (target : Target) (bytes : List Byte) : Overrun :=
  ⟨target.region, target.offset + target.size, bytes.drop target.size⟩

/-- What is written beyond the object of a row. -/
def objectOverruns (id : CmdId) (raw : List Byte) : List Overrun :=
  match id with
  | .cmdGa => [⟨.para, Member.adcOffs0.target.offset, [0, 0, 0]⟩]
  | .cmdSm => [⟨.state, Member.tiagSwitchMode.target.offset + 1, [0, 0, 0]⟩]
  | .cmdBc => textOverrun .burstCmdList raw
  | .cmdAp => textOverrun .algoStr raw
  | .cmdNwa => textOverrun .algoNetworkStrW1 raw
  | .cmdNwb => textOverrun .algoNetworkStrW2 raw
  | .cmdNb => textOverrun .algoNetworkStrB raw
  | _ => []

/-- What is loaded beyond the members that a text is for. -/
def loadOverruns (id : CmdId) (raw : List Byte) : List Overrun :=
  match id with
  | .cmdAp => logOverrun raw
  | .cmdNwa => wordOverrun .algoEffectiveB1 raw
  | .cmdNwb => wordOverrun .algoEffectiveB2 raw
  | _ => []

/-- Overruns are of one of the two kinds. -/
theorem overruns_parts (id : CmdId) (raw : List Byte) :
    overruns id raw = objectOverruns id raw ++ loadOverruns id raw := by
  cases id <;> simp [overruns, objectOverruns, loadOverruns]

/-- The last part of a store. -/
theorem store_tail (instrument : Instrument) (start count : Nat) (bytes : List Byte)
    (region : Region) :
    toList ((instrument.store start bytes region).region region) (start + count)
      (bytes.drop count).length = bytes.drop count := by
  have read := store_read instrument start bytes region
  by_cases long : count ≤ bytes.length
  · have split : bytes.length = count + (bytes.drop count).length := by
      rw [List.length_drop]
      omega
    rw [split, to_list_append] at read
    conv_rhs => rw [← read]
    exact (List.drop_left' (by simp)).symm
  · rw [List.drop_eq_nil_of_le (by omega)]
    rfl

/-- A store lies in its object and what is behind it. -/
theorem tail_covered (target : Target) (bytes : List Byte) (region : Region) (address : Nat)
    (inside : Within [⟨target.region, target.offset, bytes.length⟩] region address) :
    Within [target] region address ∨ Within [(tail target bytes).target] region address := by
  obtain ⟨place, listed, same, low, high⟩ := inside
  obtain rfl := List.mem_singleton.mp listed
  by_cases object : address < target.offset + target.size
  · exact Or.inl ⟨target, List.mem_singleton_self _, same, low, object⟩
  · refine Or.inr ⟨_, List.mem_singleton_self _, same, ?_, ?_⟩
    · simp only [tail, Overrun.target]
      omega
    · simp only [tail, Overrun.target, List.length_drop] at *
      omega

/-- Bytes of an overrun stay when a change is apart from them. -/
theorem there_kept {targets : List Target} {before after : Instrument} {overrun : Overrun}
    (confined : Confined targets before after) (apart : Apart targets overrun.target)
    (there : overrun.There before) : overrun.There after :=
  (to_list_congr (fun _ low high => confined _ _ (apart_outside apart low high))).trans there

/-- The number of an unsigned format, with the checks on. -/
theorem read_unsigned_range {parse : Parse} {min max value : Nat}
    (read : readUnsigned false parse min max = .ok value) : min ≤ value ∧ value ≤ max := by
  unfold readUnsigned at read
  split_ifs at read
  cases scan : scanUnsigned (text parse) with
  | none =>
    rw [scan] at read
    cases read
  | some number =>
    rw [scan] at read
    simp only [and_true] at read
    split_ifs at read with outside
    obtain rfl := Except.ok.inj read
    omega

/-- The rows whose object can be overrun. -/
theorem overrun_rows : ∀ item ∈ cmdTbl, item.props.contains .s = true →
    (item.id = .cmdGa → item.arg = .adcPga ∧ item.rule.data = .u32 0 0) ∧
      (item.id = .cmdSm → item.arg = .tiagSwitchMode ∧ item.rule.data = .u32 0 1) ∧
      (item.id = .cmdBc → item.arg = .burstCmdList ∧ item.rule = ⟨1, 40, .s (some .cmdList)⟩) ∧
      (item.id = .cmdAp → item.arg = .algoStr ∧ item.rule = ⟨1, 1024, .s none⟩) ∧
      (item.id = .cmdNwa → item.arg = .algoNetworkStrW1 ∧ item.rule = ⟨1, 1024, .s none⟩) ∧
      (item.id = .cmdNwb → item.arg = .algoNetworkStrW2 ∧ item.rule = ⟨1, 1024, .s none⟩) ∧
      (item.id = .cmdNb → item.arg = .algoNetworkStrB ∧ item.rule = ⟨1, 1024, .s none⟩) := by
  decide +kernel

/-- The commands whose object can be overrun. -/
def overrunIds : List CmdId := [.cmdGa, .cmdSm, .cmdBc, .cmdAp, .cmdNwa, .cmdNwb, .cmdNb]

/-- The other rows write no more than their object has. -/
theorem fitting_rows : ∀ item ∈ cmdTbl, item.props.contains .s = true → item.id ∉ overrunIds →
    fmtWidth item.rule.data ≤ item.arg.target.size ∧
      ∀ chk ∈ [none, some StrChk.pureDigit, some .checkFmt, some .validIp, some .cmdList],
        item.rule.data = .s chk → item.rule.maxLen < item.arg.target.size := by
  decide +kernel

/-- A text overruns its object by its zero or not at all. -/
theorem text_tail (member : Member) (raw : List Byte)
    (fits : (cString raw).length ≤ member.target.size) :
    textOverrun member raw = [tail member.target (cString raw ++ [0])] ∨
      (textOverrun member raw = [] ∧ (tail member.target (cString raw ++ [0])).bytes = []) := by
  by_cases full : (cString raw).length = member.target.size
  · left
    rw [textOverrun, if_pos full, tail, List.drop_left' full]
  · right
    refine ⟨by rw [textOverrun, if_neg full], ?_⟩
    exact List.drop_eq_nil_of_le (by rw [List.length_append, List.length_singleton]; omega)

/-- What an attempt writes beyond its object, with the checks on, is what is listed. -/
theorem object_overruns_tail {instrument : Instrument} {line : List Byte} {parsed : Line}
    {item : CmdItem} {bytes : List Byte} (attempt : Attempt instrument line parsed item bytes)
    (checks : instrument.develop = false) :
    objectOverruns item.id parsed.data = [tail item.arg.target bytes] ∨
      (objectOverruns item.id parsed.data = [] ∧ (tail item.arg.target bytes).bytes = []) := by
  obtain ⟨ga, sm, bc, ap, nwa, nwb, nb⟩ := overrun_rows item attempt.listed attempt.settable
  have value := attempt.value
  have short := text_length attempt checks
  have texts : ∀ (member : Member) (chk : Option StrChk), item.arg = member →
      item.rule.data = .s chk → item.rule.maxLen = member.target.size →
        objectOverruns item.id parsed.data = textOverrun member parsed.data →
          objectOverruns item.id parsed.data = [tail item.arg.target bytes] ∨
            (objectOverruns item.id parsed.data = [] ∧
              (tail item.arg.target bytes).bytes = []) := by
    intro member chk arg rule size same
    rw [same, arg, new_bytes_text rule value, text, raw_parsed]
    exact text_tail member parsed.data (by omega)
  by_cases special : item.id ∈ overrunIds
  · simp only [overrunIds, List.mem_cons, List.not_mem_nil, or_false] at special
    rcases special with id | id | id | id | id | id | id
    · obtain ⟨arg, rule⟩ := ga id
      rw [newBytes, rule, checks] at value
      obtain ⟨number, read, rfl⟩ := map_ok value
      obtain rfl : number = 0 := by
        have range := read_unsigned_range read
        omega
      rw [id, arg]
      exact Or.inl rfl
    · obtain ⟨arg, rule⟩ := sm id
      rw [newBytes, rule, checks] at value
      obtain ⟨number, read, rfl⟩ := map_ok value
      have range := read_unsigned_range read
      rw [id, arg]
      obtain rfl | rfl : number = 0 ∨ number = 1 := by omega
      · exact Or.inl rfl
      · exact Or.inl rfl
    · obtain ⟨arg, rule⟩ := bc id
      exact texts .burstCmdList (some .cmdList) arg (by rw [rule]) (by rw [rule]; rfl)
        (by rw [id, objectOverruns])
    · obtain ⟨arg, rule⟩ := ap id
      exact texts .algoStr none arg (by rw [rule]) (by rw [rule]; rfl) (by rw [id, objectOverruns])
    · obtain ⟨arg, rule⟩ := nwa id
      exact texts .algoNetworkStrW1 none arg (by rw [rule]) (by rw [rule]; rfl)
        (by rw [id, objectOverruns])
    · obtain ⟨arg, rule⟩ := nwb id
      exact texts .algoNetworkStrW2 none arg (by rw [rule]) (by rw [rule]; rfl)
        (by rw [id, objectOverruns])
    · obtain ⟨arg, rule⟩ := nb id
      exact texts .algoNetworkStrB none arg (by rw [rule]) (by rw [rule]; rfl)
        (by rw [id, objectOverruns])
  · right
    obtain ⟨width, length⟩ := fitting_rows item attempt.listed attempt.settable special
    refine ⟨?_, List.drop_eq_nil_of_le ?_⟩
    · simp only [overrunIds, List.mem_cons, List.not_mem_nil, or_false, not_or] at special
      unfold objectOverruns
      split <;> simp_all
    · by_cases string : ∃ chk, item.rule.data = .s chk
      · obtain ⟨chk, rule⟩ := string
        have room := length chk (checks_listed chk) rule
        rw [new_bytes_text rule value, text, raw_parsed, List.length_append,
          List.length_singleton]
        omega
      · rw [new_bytes_length (fun chk rule => string ⟨chk, rule⟩) value]
        exact width

/-- The bytes of the words behind the first ones. -/
theorem word_bytes_drop (count : Nat) (words : List Nat) :
    (wordBytes words).drop (4 * count) = wordBytes (words.drop count) := by
  induction count generalizing words with
  | zero => rfl
  | succ count inductionHypothesis =>
    cases words with
    | nil => rfl
    | cons word rest =>
      have head : wordBytes (word :: rest) = leBytes 4 word ++ wordBytes rest := by
        simp [wordBytes]
      rw [head, Nat.mul_succ, Nat.add_comm, ← List.drop_drop, List.drop_left' (le_bytes_length 4 _),
        inductionHypothesis, List.drop_succ_cons]

/-- What is known of the overruns of a loaded text: they and the members that the text is
for cover what was loaded, their bytes are in place, and they lie in the group of the
algorithms, apart from these members. -/
structure LoadOverruns (id : CmdId) (raw : List Byte) (left : Instrument) : Prop where
  covered : ∀ region address, Within (loaded id raw) region address →
    Within ((coefMembers id raw).map Member.target) region address ∨
      Within ((loadOverruns id raw).map Overrun.target) region address
  final : ∀ overrun ∈ loadOverruns id raw, overrun.There left
  inGroup : ∀ overrun ∈ loadOverruns id raw,
    overrun.region = .para ∧ InGroup .algo overrun.target
  apart : ∀ overrun ∈ loadOverruns id raw,
    Apart ((coefMembers id raw).map Member.target) overrun.target

/-- One array that a network text is loaded into, and the array behind it. -/
theorem array_overruns {id : CmdId} {raw : List Byte} {words : List Nat} {member next : Member}
    (start : Instrument) (region : member.target.region = .para)
    (size : member.target.size = 256) (behind : next.target.offset = member.target.offset + 256)
    (inGroup : InGroup .algo ⟨.para, member.target.offset, 260⟩)
    (count : words.length = 64 ∨ words.length = 65)
    (read : networkWords (cString raw) = some words)
    (places : loaded id raw = [⟨.para, member.target.offset, (wordBytes words).length⟩])
    (members : coefMembers id raw = [member])
    (overruns : loadOverruns id raw = wordOverrun next raw) :
    LoadOverruns id raw (start.store member.target.offset (wordBytes words) .para) := by
  have same : loadOverruns id raw = [tail member.target (wordBytes words)] := by
    rw [overruns, wordOverrun, read, behind, tail, region, size, show 256 = 4 * 64 from rfl,
      word_bytes_drop]
    rfl
  have place : (tail member.target (wordBytes words)).target =
      ⟨.para, member.target.offset + 256, 4 * words.length - 256⟩ := by
    simp [tail, Overrun.target, region, size]
  refine ⟨?_, ?_, ?_, ?_⟩
  · intro here address inside
    rw [places, ← region] at inside
    rw [members, same]
    exact tail_covered member.target (wordBytes words) here address inside
  · rw [same]
    intro overrun listed
    obtain rfl := List.mem_singleton.mp listed
    have read := store_tail start member.target.offset member.target.size (wordBytes words) .para
    rw [← region] at read ⊢
    exact read
  · rw [same]
    intro overrun listed
    obtain rfl := List.mem_singleton.mp listed
    refine ⟨region, ?_⟩
    rw [place]
    intro _
    have whole := inGroup rfl
    simp only at whole ⊢
    omega
  · rw [same, members]
    intro overrun listed
    obtain rfl := List.mem_singleton.mp listed
    rw [place]
    intro other also
    obtain rfl := List.mem_singleton.mp also
    refine Or.inr (Or.inl ?_)
    simp only [size]
    omega

/-- The overruns of a text without any. -/
theorem no_overruns {id : CmdId} {raw : List Byte} (left : Instrument)
    (empty : loadOverruns id raw = [])
    (covered : ∀ region address, Within (loaded id raw) region address →
      Within ((coefMembers id raw).map Member.target) region address) :
    LoadOverruns id raw left := by
  refine ⟨fun region address inside => Or.inl (covered region address inside), ?_, ?_, ?_⟩ <;>
    rw [empty] <;> exact fun overrun listed => absurd listed (by simp)

/-- The overruns of an algorithm text. -/
theorem algo_overruns {raw : List Byte} {writes : List (Nat × List Byte)} (start : Instrument)
    (load : coefLoad .cmdAp raw = some writes) :
    LoadOverruns .cmdAp raw (storeAll start writes) := by
  have places : loaded .cmdAp raw =
      writes.map (fun write => ⟨.para, write.1, write.2.length⟩) := by
    rw [loaded, if_pos (by decide), load]
    rfl
  have logStart : Member.algoLogPara.target = ⟨.para, 426, 104⟩ := by decide
  have polyStart : Member.algoPolyPara.target = ⟨.para, 530, 280⟩ := by decide
  have group : ParaType.offset .algo = 426 ∧ ParaType.size .algo = 1156 := by decide
  rcases algo_write_cases load with ⟨rfl, none⟩ | ⟨place, bytes, rfl, loads, log | poly⟩
  · refine no_overruns _ ?_ (fun region address inside => ?_)
    · rw [loadOverruns, logOverrun, none]
    · rw [places] at inside
      obtain ⟨target, listed, _⟩ := inside
      cases listed
  · obtain ⟨type, length, slot, below, start⟩ := log
    have members : coefMembers .cmdAp raw = [.algoLogPara] := by
      rw [coefMembers, if_pos rfl, if_pos type]
    simp only [logStart, sizeofLogPara] at start length
    by_cases inside : slot < 4
    · refine no_overruns _ ?_ (fun region address written => ?_)
      · simp only [loadOverruns, logOverrun, loads, polyStart]
        exact if_neg (by omega)
      · rw [places] at written
        obtain ⟨target, listed, same, low, high⟩ := written
        obtain rfl := List.mem_singleton.mp listed
        rw [members]
        refine ⟨_, List.mem_singleton_self _, ?_⟩
        simp only [logStart] at same low high ⊢
        exact ⟨same, by omega, by omega⟩
    · have overrun : loadOverruns .cmdAp raw = [⟨.para, place, bytes⟩] := by
        simp only [loadOverruns, logOverrun, loads, polyStart]
        exact if_pos ⟨type, by omega⟩
      refine ⟨fun region address written => Or.inr ?_, ?_, ?_, ?_⟩
      · rw [places] at written
        rw [overrun]
        exact written
      · rw [overrun]
        intro single listed
        obtain rfl := List.mem_singleton.mp listed
        exact store_read _ place bytes .para
      · rw [overrun]
        intro single listed
        obtain rfl := List.mem_singleton.mp listed
        refine ⟨rfl, fun _ => ?_⟩
        simp only [Overrun.target]
        omega
      · rw [overrun, members]
        intro single listed other also
        obtain rfl := List.mem_singleton.mp listed
        obtain rfl := List.mem_singleton.mp also
        refine Or.inr (Or.inl ?_)
        simp only [logStart, Overrun.target]
        omega
  · obtain ⟨type, length, slot, below, start⟩ := poly
    have members : coefMembers .cmdAp raw = [.algoPolyPara] := by
      rw [coefMembers, if_pos rfl, type]
      decide
    simp only [polyStart, sizeofPolyPara] at start length
    refine no_overruns _ ?_ (fun region address written => ?_)
    · simp only [loadOverruns, logOverrun, loads, type]
      exact if_neg (by simp)
    · rw [places] at written
      obtain ⟨target, listed, same, low, high⟩ := written
      obtain rfl := List.mem_singleton.mp listed
      rw [members]
      refine ⟨_, List.mem_singleton_self _, ?_⟩
      simp only [polyStart] at same low high ⊢
      exact ⟨same, by omega, by omega⟩

/-- The overruns of every coefficient text. -/
theorem load_overruns {id : CmdId} {raw : List Byte} {writes : List (Nat × List Byte)}
    (start : Instrument) (coef : isCoefCmd id = true) (load : coefLoad id raw = some writes) :
    LoadOverruns id raw (storeAll start writes) := by
  have places : loaded id raw = writes.map (fun write => ⟨.para, write.1, write.2.length⟩) := by
    rw [loaded, if_pos coef, load]
    rfl
  by_cases algo : id = .cmdAp
  · subst algo
    exact algo_overruns start load
  obtain ⟨words, read, rfl, count⟩ := network_load_cases algo load
  have others : id = .cmdNwa ∨ id = .cmdNwb ∨ id = .cmdNb := by
    revert coef algo
    cases id <;> decide
  rcases others with rfl | rfl | rfl
  · exact array_overruns start rfl rfl rfl (by decide) count read places rfl rfl
  · exact array_overruns start rfl rfl rfl (by decide) count read places rfl rfl
  · refine no_overruns _ rfl (fun region address written => ?_)
    rw [places] at written
    obtain ⟨target, listed, same, low, high⟩ := written
    simp only [networkWrites, reduceCtorEq, if_false, List.map_cons, List.map_nil, List.mem_cons,
      List.not_mem_nil, or_false] at listed
    rcases listed with rfl | rfl
    · refine ⟨Member.algoEffectiveB1.target, by simp [coefMembers], same, low, ?_⟩
      simp only [word_bytes_length, List.length_take] at high
      have size : Member.algoEffectiveB1.target.size = 256 := rfl
      omega
    · refine ⟨Member.algoEffectiveB2.target, by simp [coefMembers], same, low, ?_⟩
      simp only [word_bytes_length, List.length_drop] at high
      have size : Member.algoEffectiveB2.target.size = 4 := rfl
      omega

/-- The members that a text is for belong to the group of the algorithms. -/
theorem coef_members_in_group (id : CmdId) (raw : List Byte) (member : Member)
    (listed : member ∈ coefMembers id raw) :
    InGroup .algo member.target ∧ member.target.region = .para ∧ isCoefCmd id = true := by
  unfold coefMembers at listed
  split_ifs at listed with ap log poly nwa nwb nb
  all_goals
    simp only [List.mem_cons, List.not_mem_nil, or_false] at listed
  · subst ap listed
    decide
  · subst ap listed
    decide
  · subst nwa listed
    decide
  · subst nwb listed
    decide
  · subst nb
    rcases listed with rfl | rfl <;> decide

/-- Data of a group lie apart from the words of a save. -/
theorem in_group_apart_sealed {group : ParaType} {target : Target}
    (inGroup : InGroup group target) : Apart sealed target := by
  intro other listed
  have bounds := group_bounds group
  cases region : target.region with
  | state =>
    simp only [sealed, List.mem_cons, List.not_mem_nil, or_false] at listed
    rcases listed with rfl | rfl <;> exact Or.inl (by decide)
  | para =>
    have inside := inGroup region
    simp only [sealed, List.mem_cons, List.not_mem_nil, or_false] at listed
    rcases listed with rfl | rfl
    · exact Or.inr (Or.inl (by simp only [magicTarget]; omega))
    · exact Or.inr (Or.inr (by simp only [crcTarget]; omega))

/-- What an accepted command leaves at a place in the data of its group, or in the state, is
what its callback left there. -/
theorem there_after_save {item : CmdItem} {left : Instrument} {group : ParaType}
    {overrun : Overrun} (inGroup : InGroup group overrun.target) (there : overrun.There left) :
    overrun.There (kept item left) := by
  rw [kept]
  split_ifs
  · exact there_kept (confined_save left item.group) (in_group_apart_sealed inGroup) there
  · exact there

/-- Only the listed commands overrun their object. -/
theorem object_overruns_special {id : CmdId} {raw : List Byte}
    (nonempty : objectOverruns id raw ≠ []) :
    id ∈ overrunIds := by
  by_contra other
  refine nonempty ?_
  simp only [overrunIds, List.mem_cons, List.not_mem_nil, or_false, not_or] at other
  unfold objectOverruns
  split <;> simp_all

/-- The commands that overrun their object assign no other members, and the texts among them
have their objects in the state. -/
theorem special_rows : ∀ item ∈ cmdTbl, item.props.contains .s = true → item.id ∈ overrunIds →
    assigned item.id = [] ∧ item.id ≠ .cmdCa ∧
      (isCoefCmd item.id = true → item.arg.target.region = .state) ∧
      (item.arg.target.region = .state →
        item.arg.target.offset + item.arg.target.size ≤ sizeofSysState ∧
          item.arg.target.offset + fmtWidth item.rule.data ≤ sizeofSysState ∧
          item.arg.target.offset + item.rule.maxLen + 1 ≤ sizeofSysState) := by
  decide +kernel

/-- What is written beyond an object stays within the data of the group and within the
structure. -/
theorem tail_inside {instrument : Instrument} {line : List Byte} {parsed : Line} {item : CmdItem}
    {bytes : List Byte} (attempt : Attempt instrument line parsed item bytes)
    (checks : instrument.develop = false) (special : item.id ∈ overrunIds) :
    InGroup item.group (tail item.arg.target bytes).target ∧
      (tail item.arg.target bytes).start + (tail item.arg.target bytes).bytes.length ≤
        item.arg.target.region.size := by
  obtain ⟨_, _, _, room⟩ := special_rows item attempt.listed attempt.settable special
  have whole := touched_in_group attempt checks _ List.mem_cons_self
  have object := (rows_in_group item attempt.listed attempt.settable).1
  have bounds := group_bounds item.group
  have rest : (tail item.arg.target bytes).bytes.length = bytes.length - item.arg.target.size :=
    List.length_drop
  have start : (tail item.arg.target bytes).start =
      item.arg.target.offset + item.arg.target.size := rfl
  have inGroup : InGroup item.group (tail item.arg.target bytes).target := by
    intro para
    have first := whole para
    have second := object para
    simp only [Overrun.target, rest, start] at *
    omega
  refine ⟨inGroup, ?_⟩
  rw [rest, start]
  cases region : item.arg.target.region with
  | para =>
    have first := whole region
    have second := object region
    simp only [Region.size, sizeofSysPara, crcOffset] at *
    omega
  | state =>
    obtain ⟨end_, width, longest⟩ := room region
    have length : bytes.length = fmtWidth item.rule.data ∨
        bytes.length ≤ item.rule.maxLen + 1 := by
      by_cases string : ∃ chk, item.rule.data = .s chk
      · obtain ⟨chk, rule⟩ := string
        have short := text_length attempt checks
        right
        rw [new_bytes_text rule attempt.value, text, raw_parsed, List.length_append,
          List.length_singleton]
        omega
      · exact Or.inl (new_bytes_length (fun chk rule => string ⟨chk, rule⟩) attempt.value)
    simp only [Region.size]
    omega

/-- What is written beyond an object is not undone, and it is not among what may change. -/
theorem tail_facts (around : Surroundings) {instrument : Instrument} {line : List Byte}
    {parsed : Line} {item : CmdItem} {bytes : List Byte} {left : Instrument}
    (attempt : Attempt instrument line parsed item bytes) (checks : instrument.develop = false)
    (called : setEffect around (parsedLine parsed) (written instrument item bytes) item.id =
      (true, left)) (special : item.id ∈ overrunIds) :
    (tail item.arg.target bytes).There (kept item left) ∧
      ∀ address, (tail item.arg.target bytes).start ≤ address →
        address < (tail item.arg.target bytes).start + (tail item.arg.target bytes).bytes.length →
          ¬Within (frameTargets item parsed.data) item.arg.target.region address := by
  obtain ⟨assigns, plain, coefs, _⟩ := special_rows item attempt.listed attempt.settable special
  obtain ⟨inGroup, _⟩ := tail_inside attempt checks special
  have bounds := group_bounds item.group
  have words := crc_word_bounds item.group
  constructor
  · refine there_after_save inGroup ?_
    have effect := set_effect_confined around (parsedLine parsed) (written instrument item bytes)
      item.id
    rw [called, raw_parsed, effectTargets, assigns, if_neg plain, List.map_nil, List.nil_append,
      List.append_nil] at effect
    refine there_kept effect (fun target listed => Or.inl ?_)
      (store_tail instrument item.arg.target.offset item.arg.target.size bytes
        item.arg.target.region)
    rw [loaded] at listed
    split_ifs at listed with coef
    · obtain ⟨write, _, rfl⟩ := List.mem_map.mp listed
      rw [show (tail item.arg.target bytes).target.region = item.arg.target.region from rfl,
        coefs coef]
      exact fun same => absurd same (by simp)
    · cases listed
  · intro address low high
    rintro ⟨target, listed, region, above, below⟩
    rw [frameTargets, assigns, List.nil_append] at listed
    have start : (tail item.arg.target bytes).start =
        item.arg.target.offset + item.arg.target.size := rfl
    have place : item.arg.target.region = .para →
        item.group.offset ≤ address ∧ address < item.group.offset + item.group.size := by
      intro para
      have inside := inGroup para
      simp only [Overrun.target] at inside
      omega
    simp only [List.mem_cons] at listed
    rcases listed with rfl | rfl | rfl | coef
    · omega
    · have inside := place region.symm
      simp only [magicTarget] at below
      omega
    · have inside := place region.symm
      simp only [wordTarget] at above
      omega
    · obtain ⟨member, chosen, rfl⟩ := List.mem_map.mp coef
      obtain ⟨_, para, isCoef⟩ := coef_members_in_group item.id parsed.data member chosen
      rw [para, coefs isCoef] at region
      cases region

/-- Everything that may change is the magic word, the group's own word, in the data of the
group, or in the state. -/
theorem frame_in_group {instrument : Instrument} {line : List Byte} {parsed : Line}
    {item : CmdItem} {bytes : List Byte} (attempt : Attempt instrument line parsed item bytes)
    (target : Target) (listed : target ∈ frameTargets item parsed.data) :
    target = magicTarget ∨ target = wordTarget item.group ∨ InGroup item.group target := by
  obtain ⟨object, assigns, coefs, _⟩ := rows_in_group item attempt.listed attempt.settable
  simp only [frameTargets, List.mem_cons] at listed
  rcases listed with rfl | rfl | rfl | more
  · exact Or.inr (Or.inr object)
  · exact Or.inl rfl
  · exact Or.inr (Or.inl rfl)
  · obtain ⟨member, chosen, rfl⟩ := List.mem_map.mp more
    rcases List.mem_append.mp chosen with own | coef
    · exact Or.inr (Or.inr (assigns member own))
    · obtain ⟨inGroup, _, isCoef⟩ := coef_members_in_group item.id parsed.data member coef
      rw [coefs isCoef]
      exact Or.inr (Or.inr inGroup)

/-- An overrun of a loaded text is not among what may change. -/
theorem load_overrun_free {instrument : Instrument} {line : List Byte} {parsed : Line}
    {item : CmdItem} {bytes : List Byte} {left : Instrument}
    (attempt : Attempt instrument line parsed item bytes) (coef : isCoefCmd item.id = true)
    (facts : LoadOverruns item.id parsed.data left) {overrun : Overrun}
    (listed : overrun ∈ loadOverruns item.id parsed.data) {address : Nat}
    (low : overrun.start ≤ address) (high : address < overrun.start + overrun.bytes.length) :
    ¬Within (frameTargets item parsed.data) .para address := by
  have special : item.id ∈ overrunIds := by
    revert coef
    cases item.id <;> decide
  obtain ⟨assigns, _, coefs, _⟩ := special_rows item attempt.listed attempt.settable special
  obtain ⟨para, inGroup⟩ := facts.inGroup overrun listed
  have group := (rows_in_group item attempt.listed attempt.settable).2.2.1 coef
  have inside := inGroup para
  have bounds := group_bounds .algo
  have words := crc_word_bounds .algo
  simp only [Overrun.target] at inside
  rintro ⟨target, member, region, above, below⟩
  rw [frameTargets, assigns, List.nil_append] at member
  simp only [List.mem_cons] at member
  rcases member with rfl | rfl | rfl | more
  · rw [coefs coef] at region
    cases region
  · simp only [magicTarget] at below
    omega
  · simp only [wordTarget, group] at above
    omega
  · rcases facts.apart overrun listed target more with different | before | behind
    · exact different (region.trans para.symm)
    · simp only [Overrun.target] at before
      omega
    · simp only [Overrun.target] at behind
      omega

/-- What an accepted command writes lies in what may change or in its overruns. -/
theorem touched_covered {instrument : Instrument} {line : List Byte} {parsed : Line}
    {item : CmdItem} {bytes : List Byte} (attempt : Attempt instrument line parsed item bytes)
    (checks : instrument.develop = false)
    (loads : isCoefCmd item.id = true → ∃ left, LoadOverruns item.id parsed.data left)
    (region : Region) (address : Nat)
    (inside : Within (touched item bytes parsed.data) region address) :
    Within (frameTargets item parsed.data) region address ∨
      Within ((overruns item.id parsed.data).map Overrun.target) region address := by
  rw [overruns_parts, List.map_append]
  obtain ⟨target, listed, place⟩ := inside
  rcases List.mem_cons.mp listed with rfl | more
  · rcases tail_covered item.arg.target bytes region address
      ⟨_, List.mem_singleton_self _, place⟩ with object | behind
    · exact Or.inl (within_mono (by simp [frameTargets]) object)
    · rcases object_overruns_tail attempt checks with single | ⟨_, none⟩
      · rw [single]
        exact Or.inr (within_mono (by simp) behind)
      · obtain ⟨other, same, _, low, high⟩ := behind
        obtain rfl := List.mem_singleton.mp same
        simp only [Overrun.target, none, List.length_nil] at low high
        omega
  · rcases List.mem_append.mp more with own | load
    · refine Or.inl ⟨target, ?_, place⟩
      rw [frameTargets, List.map_append]
      exact List.mem_cons_of_mem _ (List.mem_cons_of_mem _ (List.mem_cons_of_mem _
        (List.mem_append_left _ own)))
    · have coef : isCoefCmd item.id = true := by
        by_contra other
        rw [loaded, if_neg other] at load
        cases load
      obtain ⟨left, facts⟩ := loads coef
      rcases facts.covered region address ⟨target, load, place⟩ with may | more
      · refine Or.inl (within_mono (fun other chosen => ?_) may)
        rw [frameTargets, List.map_append]
        exact List.mem_cons_of_mem _ (List.mem_cons_of_mem _ (List.mem_cons_of_mem _
          (List.mem_append_right _ chosen)))
      · exact Or.inr (within_mono (List.subset_append_right _ _) more)

/-- The coefficients of an accepted command were loaded. -/
theorem accepted_load (around : Surroundings) {parsed : Line} {item : CmdItem}
    {start left : Instrument} (coef : isCoefCmd item.id = true)
    (called : setEffect around (parsedLine parsed) start item.id = (true, left)) :
    LoadOverruns item.id parsed.data left := by
  rw [set_effect_coef around _ _ _ coef, raw_parsed] at called
  cases load : coefLoad item.id parsed.data with
  | none =>
    rw [load] at called
    cases called
  | some writes =>
    rw [load] at called
    obtain rfl : storeAll start writes = left := congrArg Prod.snd called
    exact load_overruns start coef load

/-- An accepted command keeps to what may change exactly when it is contained. -/
theorem accepted_framed_iff (around : Surroundings) {instrument : Instrument} {line : List Byte}
    {parsed : Line} {item : CmdItem} {bytes : List Byte} {left : Instrument}
    (attempt : Attempt instrument line parsed item bytes) (checks : instrument.develop = false)
    (called : setEffect around (parsedLine parsed) (written instrument item bytes) item.id =
      (true, left)) :
    (∀ region address, address < region.size →
        ¬Within (frameTargets item parsed.data) region address →
          (kept item left).region region address = instrument.region region address) ↔
      Contained instrument item parsed.data := by
  obtain ⟨base, confined, saved⟩ := accepted_base around attempt called
  have loads : isCoefCmd item.id = true → LoadOverruns item.id parsed.data left :=
    fun coef => accepted_load around coef called
  have loadCoef : ∀ overrun ∈ loadOverruns item.id parsed.data, isCoefCmd item.id = true := by
    intro overrun listed
    revert listed
    cases item.id <;>
      first | exact fun _ => rfl | exact fun listed => absurd listed (by simp [loadOverruns])
  have objects : ∀ overrun ∈ objectOverruns item.id parsed.data,
      overrun = tail item.arg.target bytes ∧ item.id ∈ overrunIds := by
    intro overrun listed
    refine ⟨?_, object_overruns_special (List.ne_nil_of_mem listed)⟩
    rcases object_overruns_tail attempt checks with single | ⟨none, _⟩
    · rw [single] at listed
      exact List.mem_singleton.mp listed
    · rw [none] at listed
      cases listed
  refine framed_iff ?_
    (touched_covered attempt checks (fun coef => ⟨left, loads coef⟩)) ?_ ?_ ?_
  · rw [saved]
    split_ifs
    · exact confined_trans (confined_mono (List.subset_append_left _ _) confined)
        (confined_mono (List.subset_append_right _ _) (confined_save base item.group))
    · exact confined_mono (List.subset_append_left _ _) confined
  · intro overrun listed
    rw [overruns_parts] at listed
    rcases List.mem_append.mp listed with object | load
    · obtain ⟨rfl, special⟩ := objects overrun object
      exact (tail_facts around attempt checks called special).1
    · have facts := loads (loadCoef overrun load)
      exact there_after_save (facts.inGroup overrun load).2 (facts.final overrun load)
  · intro overrun listed
    rw [overruns_parts] at listed
    rcases List.mem_append.mp listed with object | load
    · obtain ⟨rfl, special⟩ := objects overrun object
      exact ⟨(tail_inside attempt checks special).2,
        (tail_facts around attempt checks called special).2⟩
    · have coef := loadCoef overrun load
      have facts := loads coef
      obtain ⟨para, inGroup⟩ := facts.inGroup overrun load
      have inside := inGroup para
      have bounds := group_bounds .algo
      rw [para]
      refine ⟨?_, fun address low high => load_overrun_free attempt coef facts load low high⟩
      simp only [Overrun.target] at inside
      simp only [Region.size, sizeofSysPara, crcOffset] at *
      omega
  · rw [saved]
    exact words_iff (touched_in_group attempt checks) confined (by simp [frameTargets])
      (by simp [frameTargets]) (frame_in_group attempt)

/-- With the checks on, an executed command changes only what it may exactly when it writes
nothing new beyond that, and all other groups match their words if it saves. -/
theorem set_framed_iff (around : Surroundings) (line : List Byte) (instrument : Instrument) :
    SetFramed around line instrument ↔
      ∀ parsed item, Accepted around line instrument parsed item → instrument.develop = false →
        Contained instrument item parsed.data := by
  refine forall_congr' (fun parsed => forall_congr' (fun item => forall_congr' (fun accepted =>
    forall_congr' (fun checks => ?_))))
  obtain ⟨bytes, left, attempt, called⟩ := accepted.attempt
  rw [answer_accepted around attempt called]
  exact accepted_framed_iff around attempt checks called

/-- A list of commands for the burst with 40 characters. -/
def fullList : List Byte := ascii "TT,I,B,E,S,NT,WT,RT,ST,TN,NS,WS,SI,DL,AM"

/-- The row of the list of commands for the burst. -/
def burstListRow : CmdItem :=
  ⟨ascii "BC", .cmdBc, .burst, [.p, .s, .n, .m], ⟨1, 40, .s (some .cmdList)⟩, .burstCmdList⟩

/-- A list that fills its array is accepted and clears the mode of the burst. -/
theorem full_list_clears_mode :
    ¬SetFramed quiet (ascii "BC=" ++ fullList) defaultInstrument := by
  intro framed
  have attempt : Attempt defaultInstrument (ascii "BC=" ++ fullList)
      ⟨[], uppOpSet, ascii "BC", fullList⟩ burstListRow (fullList ++ [0]) :=
    ⟨by decide, rfl, by decide, by decide, by decide,
      Or.inl (by decide), by decide⟩
  have called : setEffect quiet (parsedLine ⟨[], uppOpSet, ascii "BC", fullList⟩)
      (written defaultInstrument burstListRow (fullList ++ [0])) burstListRow.id =
        (true, written defaultInstrument burstListRow (fullList ++ [0])) := rfl
  have accepted := attempt_accepted quiet attempt called
  have checks : defaultInstrument.develop = false := by decide
  have only := framed _ _ accepted checks
  rw [answer_accepted quiet attempt called] at only
  have contained := (accepted_framed_iff quiet attempt checks called).mp only
  have mode : toList defaultInstrument.pmm.sysPara Member.burstMode.target.offset 1 = [0] :=
    contained.1 ⟨.para, Member.burstMode.target.offset, [0]⟩ (by decide)
  exact absurd mode (by decide +kernel)

end Pyrometer.SetFrame
