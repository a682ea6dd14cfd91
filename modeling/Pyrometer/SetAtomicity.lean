import Mathlib.Data.List.GetD
import Pyrometer.SetCommands
import Pyrometer.UppAddressing

/-!
# What a refused set command leaves behind

A set command that is answered with an error is to leave the parameters, the state and
what runs by them as they were. Checks are made before anything is written, and a value
that the callback refuses is replaced by the bytes that were saved. Three commands leave
more than that: the port has been started with the default rate, a calibration that
failed has moved what it searched, and coefficient texts have no saved bytes.

The trials of a calibration halve an interval. Which values they try depends on the
measured temperatures only, so the search is stated apart from the instrument.
-/

namespace Pyrometer.SetAtomicity

open ByteMemory BinaryFloats CText CommandTable ParameterLayout InstrumentState AlgorithmCommands
open UppParser UppLines CommandExecution UppStream CommandReplies UppAddressing CommandEffects
open SetCommands Instrument

/-- A temperature is near enough to the one that is wanted. -/
def isNear (diff : Nat) : Bool := single.less (single.magnitude diff) (thousandths 100)

/-- The value that is searched must rise. -/
def mustRise (diff : Nat) : Calibrated → Bool
  | .trans _ => single.less 0 diff
  | .slope => single.less diff 0

/-- A search with a number of trials behind the first one: whether a trial comes near, and
the last value that was tried. -/
def search (goal : Calibrated) (diffAt : Nat → Nat) : Nat → Trial → Bool × Nat
  | 0, trial => (isNear (diffAt trial.midValue), trial.midValue)
  | left + 1, trial =>
      if isNear (diffAt trial.midValue) then (true, trial.midValue)
      else search goal diffAt left (trial.next (mustRise (diffAt trial.midValue) goal))

section

variable (around : Surroundings) (goal : Calibrated)

/-- How far the temperature of a trial is from the one that is wanted. -/
def diffAt (instrument : Instrument) (value : Nat) : Nat :=
  single.sub (measure around (instrument.put goal.member value) goal).1
    (instrument.value .tempCalibration)

/-- What a trial leaves behind. -/
def tried (instrument : Instrument) (value : Nat) : Instrument :=
  (measure around (instrument.put goal.member value) goal).2

/-- The members that a trial assigns. -/
def trialMembers : List Member :=
  match goal with
  | .trans _ => [goal.member]
  | .slope => [goal.member, .ratioTempNerve]

/-- A trial is not seen by the next one. -/
theorem measure_tried (instrument : Instrument) (first second : Nat) :
    measure around ((tried around goal instrument first).put goal.member second) goal =
      measure around (instrument.put goal.member second) goal := by
  cases goal with
  | trans channel =>
    have again : ((instrument.put (Calibrated.trans channel).member first).put
        (Calibrated.trans channel).member second) =
          instrument.put (Calibrated.trans channel).member second :=
      store_again _ _ _ _ _ (by simp)
    simp only [tried, InstrumentState.measure, again]
  | slope =>
    simp only [tried, InstrumentState.measure, Calibrated.member, put, store, Member.target,
      le_bytes_length, overlay_again]

/-- A trial keeps the temperature that is wanted. -/
theorem tried_wanted (instrument : Instrument) (value : Nat) :
    (tried around goal instrument value).value .tempCalibration =
      instrument.value .tempCalibration := by
  refine value_kept (confined_measure around goal instrument value) ?_
  cases goal with
  | trans channel => cases channel <;> decide
  | slope => decide

/-- A trial is as far away as it would have been before another one. -/
theorem diff_tried (instrument : Instrument) (value : Nat) :
    diffAt around goal (tried around goal instrument value) = diffAt around goal instrument := by
  funext other
  rw [diffAt, diffAt, measure_tried, tried_wanted]

/-- One pass of the loop of a calibration. -/
theorem calibrate_loop_step (left : Nat) (trial : Trial) (instrument : Instrument) :
    calibrateLoop around goal (left + 1) trial instrument =
      if isNear (diffAt around goal instrument trial.midValue) then
        (true, (tried around goal instrument trial.midValue).saveGroup .temp)
      else
        calibrateLoop around goal left
          (trial.next (mustRise (diffAt around goal instrument trial.midValue) goal))
          (tried around goal instrument trial.midValue) := by
  have wanted := tried_wanted around goal instrument trial.midValue
  rw [tried] at wanted
  simp only [calibrateLoop, wanted]
  cases goal <;> rfl

/-- The loop of a calibration is a search. -/
theorem calibrate_loop_search (left : Nat) (trial : Trial) (instrument : Instrument) :
    calibrateLoop around goal (left + 1) trial instrument =
      match search goal (diffAt around goal instrument) left trial with
      | (true, value) => (true, (tried around goal instrument value).saveGroup .temp)
      | (false, value) => (false, tried around goal instrument value) := by
  induction left generalizing trial instrument with
  | zero =>
    rw [calibrate_loop_step, search]
    cases isNear (diffAt around goal instrument trial.midValue) <;> rfl
  | succ left inductionHypothesis =>
    have same : ∀ value, tried around goal (tried around goal instrument trial.midValue) value =
        tried around goal instrument value := by
      intro value
      rw [tried, measure_tried, ← tried]
    rw [calibrate_loop_step, inductionHypothesis, diff_tried, search]
    simp only [same]
    cases isNear (diffAt around goal instrument trial.midValue) <;> rfl

/-- A trial keeps all but its members. -/
theorem confined_tried (instrument : Instrument) (value : Nat) :
    Confined ((trialMembers goal).map Member.target) instrument
      (tried around goal instrument value) := by
  cases goal with
  | trans channel => exact confined_put instrument _ value
  | slope => exact confined_puts instrument .tempSlope .ratioTempNerve value _

/-- The members of a trial lie apart from the temperature that is wanted. -/
theorem trial_apart (member : Member) (assigned : member ∈ trialMembers goal) :
    Apart [Member.tempCalibration.target] member.target ∧
      member.target.offset + member.target.size ≤ member.target.region.size := by
  revert member
  cases goal with
  | trans channel => cases channel <;> decide
  | slope => decide

end

/-- What is to be the same after a refused command: both structures, the rate of the port,
and the range and calibration of the analog output. -/
structure Unchanged (before after : Instrument) : Prop where
  para : Agree after.pmm.sysPara before.pmm.sysPara 0 sizeofSysPara
  state : Agree after.sysState before.sysState 0 sizeofSysState
  baudrate : after.com.baudrate = before.com.baudrate
  ana : after.ana = before.ana

/-- What is asked of a line: if it is answered with an error, everything is as it was. -/
def SetAtomic (around : Surroundings) (line : List Byte) (instrument : Instrument) : Prop :=
  ErrorLine (answerLine around line instrument).1 →
    Unchanged instrument (answerLine around line instrument).2

/-- A calibration comes near the temperature, or finds in the end what it writes. -/
def SearchReturns (around : Surroundings) (asked : Instrument) : Prop :=
  ∀ goal, calibrated around (asked.value .tempMode % 256) = some goal →
    (search goal (diffAt around goal asked) 49 (firstTrial asked goal)).1 = true ∨
      ∀ member ∈ trialMembers goal,
        (tried around goal asked
          (search goal (diffAt around goal asked) 49 (firstTrial asked goal)).2).bytes member =
            asked.bytes member

/-- What a refused text of some length leaves from the start of its object on. -/
def leftover (around : Surroundings) (length : Nat) : List Byte :=
  (List.range length).map (fun index =>
    if index < burstListSize then 0 else around.stack (index - burstListSize)) ++ [0]

/-- The object of a text already holds what a refusal leaves there. -/
def LeftBefore (around : Surroundings) (instrument : Instrument) (start length : Nat) : Prop :=
  ∀ index, index ≤ length → start + index < sizeofSysState →
    instrument.sysState (start + index) = (leftover around length).getD index 0

/-- An attempt is accepted, or its refusal leaves nothing behind: a rate is supported or the
port already runs with the default one, a calibration succeeds or ends where it began, and
coefficients can be loaded or their object already looks like after a refusal. -/
def Traceless (around : Surroundings) (instrument : Instrument) (parsed : Line) (item : CmdItem)
    (bytes : List Byte) : Prop :=
  (item.id = .cmdBr →
      isValidBaudrate (littleEndian bytes) = true ∨ instrument.com.baudrate = 115200) ∧
    (item.id = .cmdCa → SearchReturns around (written instrument item bytes)) ∧
    (isCoefCmd item.id = true → (coefLoad item.id parsed.data).isSome = true ∨
      LeftBefore around instrument item.arg.target.offset (cString parsed.data).length)

/-- Equal structures, port and output are unchanged. -/
theorem unchanged_of_regions {before after : Instrument}
    (regions : ∀ region address, after.region region address = before.region region address)
    (baudrate : after.com.baudrate = before.com.baudrate) (ana : after.ana = before.ana) :
    Unchanged before after :=
  ⟨fun address _ _ => regions .para address, fun address _ _ => regions .state address, baudrate,
    ana⟩

/-- Unchanged structures have the same members. -/
theorem Unchanged.bytes {before after : Instrument} (unchanged : Unchanged before after)
    {member : Member}
    (inside : member.target.offset + member.target.size ≤ member.target.region.size) :
    after.bytes member = before.bytes member := by
  unfold Instrument.bytes
  cases region : member.target.region with
  | para =>
    rw [region] at inside
    exact to_list_congr (agree_mono unchanged.para (Nat.zero_le _) (by
      rw [Nat.zero_add]
      exact inside))
  | state =>
    rw [region] at inside
    exact to_list_congr (agree_mono unchanged.state (Nat.zero_le _) (by
      rw [Nat.zero_add]
      exact inside))

/-- A store keeps the port and the output. -/
theorem store_running (instrument : Instrument) (start : Nat) (bytes : List Byte)
    (region : Region) :
    (instrument.store start bytes region).com = instrument.com ∧
      (instrument.store start bytes region).ana = instrument.ana := by
  cases region <;> exact ⟨rfl, rfl⟩

/-- A trial keeps the port and the output. -/
theorem tried_running (around : Surroundings) (goal : Calibrated) (instrument : Instrument)
    (value : Nat) : (tried around goal instrument value).com = instrument.com ∧
      (tried around goal instrument value).ana = instrument.ana := by
  cases goal with
  | trans channel => exact store_running _ _ _ _
  | slope => exact ⟨rfl, rfl⟩

/-- The callbacks that refuse, and what they leave. -/
theorem set_effect_refused {around : Surroundings} {parse : Parse} {instrument left : Instrument}
    {id : CmdId} (called : setEffect around parse instrument id = (false, left)) :
    (id = .cmdBr ∧ isValidBaudrate (instrument.value .portBaudrate) = false ∧
        left = pcInit (instrument.put .portBaudrate 115200)) ∨
      (id = .cmdCa ∧ calibrateTemperature around instrument = (false, left)) ∨
      (isCoefCmd id = true ∧ coefLoad id (raw parse) = none ∧ left = instrument) ∨
      (id ∈ [CmdId.cmdAl, .cmdAh, .cmdDl, .cmdDh] ∧ left = instrument) := by
  have coefficients : isCoefCmd id = true →
      isCoefCmd id = true ∧ coefLoad id (raw parse) = none ∧ left = instrument := by
    intro coef
    rw [set_effect_coef around parse instrument id coef] at called
    cases load : coefLoad id (raw parse) with
    | none =>
      rw [load] at called
      exact ⟨coef, rfl, (congrArg Prod.snd called).symm⟩
    | some writes =>
      rw [load] at called
      cases called
  have limits : ∀ ordered : Bool, ∀ started : Instrument,
      (if ordered then (true, started) else (false, instrument)) = (false, left) →
        left = instrument := by
    intro ordered started called
    cases ordered with
    | true => cases called
    | false => exact (congrArg Prod.snd called).symm
  cases id
  case cmdBr =>
    rw [setEffect] at called
    split_ifs at called with valid
    · exact Bool.noConfusion (congrArg Prod.fst called : true = false)
    · exact Or.inl ⟨rfl, by simpa using valid, (congrArg Prod.snd called).symm⟩
  case cmdCa => exact Or.inr (Or.inl ⟨rfl, called⟩)
  case cmdAp => exact Or.inr (Or.inr (Or.inl (coefficients rfl)))
  case cmdNwa => exact Or.inr (Or.inr (Or.inl (coefficients rfl)))
  case cmdNwb => exact Or.inr (Or.inr (Or.inl (coefficients rfl)))
  case cmdNb => exact Or.inr (Or.inr (Or.inl (coefficients rfl)))
  case cmdAl => exact Or.inr (Or.inr (Or.inr ⟨by decide, limits _ _ called⟩))
  case cmdAh => exact Or.inr (Or.inr (Or.inr ⟨by decide, limits _ _ called⟩))
  case cmdDl => exact Or.inr (Or.inr (Or.inr ⟨by decide, (congrArg Prod.snd called).symm⟩))
  case cmdDh => exact Or.inr (Or.inr (Or.inr ⟨by decide, (congrArg Prod.snd called).symm⟩))
  all_goals exact Bool.noConfusion (congrArg Prod.fst called : true = false)

/-- The rows of the commands that may be refused. -/
theorem refusing_rows : ∀ item ∈ cmdTbl,
    (item.id = .cmdBr → item.arg = .portBaudrate ∧ item.rule.data = .u32 2400 230400) ∧
      (item.id = .cmdCa → item.arg = .tempCalibration ∧
        item.rule.data = .f (whole 100) (whole 3500)) ∧
      (isCoefCmd item.id = true → item.arg.target.region = .state ∧ item.rule.data = .s none) ∧
      (item.id ∈ [CmdId.cmdAl, .cmdAh, .cmdDl, .cmdDh] →
        item.rule.data = .f (whole 100) (whole 3500)) := by
  decide +kernel

/-- A row whose format is not a string is rolled back to the bytes that were there. -/
theorem rolled_back_plain (around : Surroundings) (instrument : Instrument) (parsed : Line)
    (item : CmdItem) (bytes : List Byte) (plain : ∀ chk, item.rule.data ≠ .s chk)
    (passed : newBytes instrument (parsedLine parsed) item = .ok bytes) :
    dataBkp around instrument (parsedLine parsed) item =
      toList (instrument.region item.arg.target.region) item.arg.target.offset bytes.length := by
  rw [new_bytes_length plain passed, dataBkp]
  cases rule : item.rule.data
  case s chk => exact absurd rule (plain chk)
  all_goals rfl

/-- A refusal of a rate leaves the port started with the default one. -/
theorem refused_rate (around : Surroundings) (instrument : Instrument) (parsed : Line)
    (item : CmdItem) (bytes : List Byte) (arg : item.arg = .portBaudrate)
    (rule : item.rule.data = .u32 2400 230400)
    (passed : newBytes instrument (parsedLine parsed) item = .ok bytes) :
    Unchanged instrument (rolledBack around instrument parsed item
        (pcInit ((written instrument item bytes).put .portBaudrate 115200))) ↔
      instrument.com.baudrate = 115200 := by
  have plain : ∀ chk, item.rule.data ≠ .s chk := by simp [rule]
  have four : bytes.length = 4 := by rw [new_bytes_length plain passed, rule, fmtWidth]
  have again : (written instrument item bytes).put .portBaudrate 115200 =
      instrument.put .portBaudrate 115200 := by
    rw [written, arg]
    exact store_again _ _ _ _ _ (by rw [four, le_bytes_length]; rfl)
  have rate : (instrument.put .portBaudrate 115200).value .portBaudrate = 115200 := by
    rw [value, put_bytes, little_endian_le_bytes]
    decide
  have started : pcInit (instrument.put .portBaudrate 115200) =
      { instrument.put .portBaudrate 115200 with
        com := ⟨115200, (instrument.put .portBaudrate 115200).bytes .portCheckFmt,
          (instrument.put .portBaudrate 115200).value .portMode⟩ } := by
    rw [pcInit, rate, if_pos (by decide)]
    simp only [rate]
  have restored : rolledBack around instrument parsed item
      (pcInit (instrument.put .portBaudrate 115200)) =
        { instrument with
          com := ⟨115200, (instrument.put .portBaudrate 115200).bytes .portCheckFmt,
            (instrument.put .portBaudrate 115200).value .portMode⟩ } := by
    rw [rolledBack, rolled_back_plain around instrument parsed item bytes plain passed, started,
      arg, four]
    have undone := store_restore instrument Member.portBaudrate.target.offset (leBytes 4 115200)
      .para
    rw [le_bytes_length] at undone
    exact congrArg (fun old : Instrument => { old with
      com := ⟨115200, (instrument.put .portBaudrate 115200).bytes .portCheckFmt,
        (instrument.put .portBaudrate 115200).value .portMode⟩ }) undone
  rw [again, restored]
  constructor
  · intro unchanged
    exact unchanged.baudrate.symm
  · intro same
    exact ⟨agree_refl _ _ _, agree_refl _ _ _, same.symm, rfl⟩

/-- A refusal of a calibration leaves what the last trial left. -/
theorem refused_calibration (around : Surroundings) (instrument : Instrument) (parsed : Line)
    (item : CmdItem) (bytes : List Byte) (arg : item.arg = .tempCalibration)
    (rule : item.rule.data = .f (whole 100) (whole 3500))
    (passed : newBytes instrument (parsedLine parsed) item = .ok bytes) (goal : Calibrated)
    (value : Nat) :
    Unchanged instrument (rolledBack around instrument parsed item
        (tried around goal (written instrument item bytes) value)) ↔
      ∀ member ∈ trialMembers goal,
        (tried around goal (written instrument item bytes) value).bytes member =
          (written instrument item bytes).bytes member := by
  have plain : ∀ chk, item.rule.data ≠ .s chk := by simp [rule]
  have four : bytes.length = 4 := by rw [new_bytes_length plain passed, rule, fmtWidth]
  have asked : written instrument item bytes =
      instrument.store Member.tempCalibration.target.offset bytes .state := by
    rw [written, arg]
    rfl
  have restored : ∀ left, rolledBack around instrument parsed item left =
      left.store Member.tempCalibration.target.offset
        (toList instrument.sysState Member.tempCalibration.target.offset 4) .state := by
    intro left
    rw [rolledBack, rolled_back_plain around instrument parsed item bytes plain passed, arg, four]
    rfl
  have first : Confined [Member.tempCalibration.target] instrument
      (written instrument item bytes) := by
    have store := confined_store instrument Member.tempCalibration.target.offset bytes .state
    rw [four] at store
    rw [asked]
    exact store
  set left := tried around goal (written instrument item bytes) value with leftDef
  have last : Confined [Member.tempCalibration.target] left
      (rolledBack around instrument parsed item left) := by
    have store := confined_store left Member.tempCalibration.target.offset
      (toList instrument.sysState Member.tempCalibration.target.offset 4) .state
    rw [to_list_length] at store
    rw [restored]
    exact store
  constructor
  · intro unchanged member assigned
    obtain ⟨apart, inside⟩ := trial_apart goal member assigned
    rw [← bytes_kept last apart, unchanged.bytes inside, bytes_kept first apart]
  · intro same
    have running := tried_running around goal (written instrument item bytes) value
    have both : Confined (Member.tempCalibration.target :: (trialMembers goal).map Member.target)
        instrument (rolledBack around instrument parsed item left) :=
      confined_trans (confined_mono (by simp) first)
        (confined_trans (confined_mono (List.subset_cons_self _ _)
          (confined_tried around goal (written instrument item bytes) value))
            (confined_mono (by simp) last))
    have regions := confined_equal both (fun target listed => ?_)
    · refine unchanged_of_regions regions ?_ ?_
      · rw [restored, (store_running _ _ _ _).1, running.1, asked, (store_running _ _ _ _).1]
      · rw [restored, (store_running _ _ _ _).2, running.2, asked, (store_running _ _ _ _).2]
    · rcases List.mem_cons.mp listed with rfl | trial
      · rw [restored]
        have read := store_read left Member.tempCalibration.target.offset
          (toList instrument.sysState Member.tempCalibration.target.offset 4) .state
        rw [to_list_length] at read
        exact read
      · obtain ⟨member, assigned, rfl⟩ := List.mem_map.mp trial
        obtain ⟨apart, _⟩ := trial_apart goal member assigned
        exact (bytes_kept last apart).trans ((same member assigned).trans (bytes_kept first apart))

/-- A refusal of coefficients leaves zeros, bytes of the stack and a zero. -/
theorem refused_coefficients (around : Surroundings) (instrument : Instrument) (parsed : Line)
    (item : CmdItem) (bytes : List Byte) (region : item.arg.target.region = .state)
    (rule : item.rule.data = .s none)
    (passed : newBytes instrument (parsedLine parsed) item = .ok bytes) :
    Unchanged instrument (rolledBack around instrument parsed item
        (written instrument item bytes)) ↔
      LeftBefore around instrument item.arg.target.offset (cString parsed.data).length := by
  have saved : dataBkp around instrument (parsedLine parsed) item ++ [0] =
      leftover around (cString parsed.data).length := by
    rw [dataBkp, rule]
    simp only [text, raw_parsed]
    rfl
  have length : (dataBkp around instrument (parsedLine parsed) item).length =
      (cString parsed.data).length := by
    rw [dataBkp, rule]
    simp [text]
  obtain rfl : bytes = cString parsed.data ++ [0] := by
    rw [new_bytes_text rule passed, text, raw_parsed]
  set size := (cString parsed.data).length with sizeDef
  have left : ∀ address, (rolledBack around instrument parsed item
      (written instrument item (cString parsed.data ++ [0]))).region .state address =
        if item.arg.target.offset ≤ address ∧ address < item.arg.target.offset + (size + 1) then
          (leftover around size).getD (address - item.arg.target.offset) 0
        else instrument.sysState address := by
    intro address
    rw [rolledBack, store_region, length, written, store_region, region, ← saved]
    simp only [true_and, List.length_append, List.length_singleton, ← sizeDef]
    by_cases text : item.arg.target.offset ≤ address ∧ address < item.arg.target.offset + size
    · rw [if_pos text, if_pos (by omega), List.getD_append _ _ _ _ (by omega)]
    by_cases ending : address = item.arg.target.offset + size
    · have place : address - item.arg.target.offset = size := by omega
      rw [if_neg text, if_pos (by omega), if_pos (by omega), place,
        List.getD_append_right _ _ _ _ (by omega), List.getD_append_right _ _ _ _ (by omega),
        length]
    · rw [if_neg text, if_neg (by omega), if_neg (by omega)]
      rfl
  have kept : ∀ address, (rolledBack around instrument parsed item
      (written instrument item (cString parsed.data ++ [0]))).region .para address =
        instrument.pmm.sysPara address := by
    intro address
    rw [rolledBack, store_region, written, store_region, region]
    simp [Instrument.region]
  have running : (rolledBack around instrument parsed item
      (written instrument item (cString parsed.data ++ [0]))).com = instrument.com ∧
      (rolledBack around instrument parsed item
        (written instrument item (cString parsed.data ++ [0]))).ana = instrument.ana :=
    ⟨(store_running _ _ _ _).1.trans (store_running _ _ _ _).1,
      (store_running _ _ _ _).2.trans (store_running _ _ _ _).2⟩
  constructor
  · intro unchanged index within inside
    have same := unchanged.state (item.arg.target.offset + index) (Nat.zero_le _) (by omega)
    have here := left (item.arg.target.offset + index)
    rw [if_pos (by omega), Nat.add_sub_cancel_left] at here
    exact same.symm.trans here
  · intro before
    refine ⟨fun address _ _ => kept address, fun address _ high => ?_, by rw [running.1],
      running.2⟩
    refine (left address).trans ?_
    split_ifs with place
    · have old := before (address - item.arg.target.offset) (by omega) (by omega)
      rw [← old]
      congr 1
      omega
    · rfl

/-- The bytes of an attempt to set a rate are the rate that is written. -/
theorem written_rate (instrument : Instrument) (item : CmdItem) (bytes : List Byte)
    (arg : item.arg = .portBaudrate) (four : bytes.length = 4) :
    (written instrument item bytes).value .portBaudrate = littleEndian bytes := by
  have read := store_read instrument Member.portBaudrate.target.offset bytes .para
  rw [four] at read
  rw [written, arg]
  exact congrArg littleEndian read

/-- A row without strings is rolled back to what it was. -/
theorem rolled_back_written (around : Surroundings) (instrument : Instrument) (parsed : Line)
    (item : CmdItem) (bytes : List Byte) (plain : ∀ chk, item.rule.data ≠ .s chk)
    (passed : newBytes instrument (parsedLine parsed) item = .ok bytes) :
    rolledBack around instrument parsed item (written instrument item bytes) = instrument := by
  rw [rolledBack, rolled_back_plain around instrument parsed item bytes plain passed, written,
    store_restore]

/-- An unchanged instrument. -/
theorem unchanged_refl (instrument : Instrument) : Unchanged instrument instrument :=
  ⟨agree_refl _ _ _, agree_refl _ _ _, rfl, rfl⟩

/-- A calibration is a search, if its mode allows one. -/
theorem calibrate_search (around : Surroundings) (asked : Instrument) (goal : Calibrated)
    (mode : calibrated around (asked.value .tempMode % 256) = some goal) :
    calibrateTemperature around asked =
      match search goal (diffAt around goal asked) 49 (firstTrial asked goal) with
      | (true, value) => (true, (tried around goal asked value).saveGroup .temp)
      | (false, value) => (false, tried around goal asked value) := by
  rw [calibrateTemperature, mode]
  exact calibrate_loop_search around goal 49 (firstTrial asked goal) asked

/-- A refusal of a traceless attempt changes nothing. -/
theorem traceless_unchanged (around : Surroundings) {instrument : Instrument} {line : List Byte}
    {parsed : Line} {item : CmdItem} {bytes : List Byte}
    (attempt : Attempt instrument line parsed item bytes)
    (traceless : Traceless around instrument parsed item bytes) {left : Instrument}
    (called : setEffect around (parsedLine parsed) (written instrument item bytes) item.id =
      (false, left)) :
    Unchanged instrument (rolledBack around instrument parsed item left) := by
  obtain ⟨rate, calibration, coefficients, limits⟩ := refusing_rows item attempt.listed
  have passed := attempt.value
  rcases set_effect_refused called with
    ⟨br, invalid, rfl⟩ | ⟨ca, failed⟩ | ⟨coef, none, rfl⟩ | ⟨limit, rfl⟩
  · obtain ⟨arg, rule⟩ := rate br
    have four := new_bytes_length (by simp [rule]) passed
    rw [rule, fmtWidth] at four
    rw [written_rate instrument item bytes arg four] at invalid
    refine (refused_rate around instrument parsed item bytes arg rule passed).mpr ?_
    rcases traceless.1 br with valid | running
    · rw [invalid] at valid
      cases valid
    · exact running
  · obtain ⟨arg, rule⟩ := calibration ca
    cases mode : calibrated around ((written instrument item bytes).value .tempMode % 256) with
    | none =>
      rw [calibrateTemperature, mode] at failed
      obtain rfl : written instrument item bytes = left := congrArg Prod.snd failed
      rw [rolled_back_written around instrument parsed item bytes (by simp [rule]) passed]
      exact unchanged_refl instrument
    | some goal =>
      rw [calibrate_search around _ goal mode] at failed
      rcases found : search goal (diffAt around goal (written instrument item bytes)) 49
        (firstTrial (written instrument item bytes) goal) with ⟨near, last⟩
      rw [found] at failed
      cases near with
      | true => exact Bool.noConfusion (congrArg Prod.fst failed : true = false)
      | false =>
        obtain rfl : tried around goal (written instrument item bytes) last = left :=
          congrArg Prod.snd failed
        refine (refused_calibration around instrument parsed item bytes arg rule passed goal
          last).mpr ?_
        rcases traceless.2.1 ca goal mode with success | returns
        · rw [found] at success
          cases success
        · rw [found] at returns
          exact returns
  · obtain ⟨region, rule⟩ := coefficients coef
    rw [raw_parsed] at none
    refine (refused_coefficients around instrument parsed item bytes region rule passed).mpr ?_
    rcases traceless.2.2 coef with loads | before
    · rw [none] at loads
      cases loads
    · exact before
  · have rule := limits limit
    rw [rolled_back_written around instrument parsed item bytes (by simp [rule]) passed]
    exact unchanged_refl instrument

/-- An attempt whose refusal changes nothing is traceless. -/
theorem unchanged_traceless (around : Surroundings) {instrument : Instrument} {line : List Byte}
    {parsed : Line} {item : CmdItem} {bytes : List Byte}
    (attempt : Attempt instrument line parsed item bytes)
    (unchanged : ∀ left, setEffect around (parsedLine parsed) (written instrument item bytes)
      item.id = (false, left) →
        Unchanged instrument (rolledBack around instrument parsed item left)) :
    Traceless around instrument parsed item bytes := by
  obtain ⟨rate, calibration, coefficients, _⟩ := refusing_rows item attempt.listed
  have passed := attempt.value
  refine ⟨fun br => ?_, fun ca goal mode => ?_, fun coef => ?_⟩
  · obtain ⟨arg, rule⟩ := rate br
    have four := new_bytes_length (by simp [rule]) passed
    rw [rule, fmtWidth] at four
    cases valid : isValidBaudrate (littleEndian bytes) with
    | true => exact Or.inl rfl
    | false =>
      refine Or.inr ((refused_rate around instrument parsed item bytes arg rule passed).mp
        (unchanged _ ?_))
      rw [br, setEffect, written_rate instrument item bytes arg four, valid]
      rfl
  · obtain ⟨arg, rule⟩ := calibration ca
    have run := calibrate_search around _ goal mode
    rcases found : search goal (diffAt around goal (written instrument item bytes)) 49
      (firstTrial (written instrument item bytes) goal) with ⟨near, last⟩
    rw [found] at run
    cases near with
    | true => exact Or.inl rfl
    | false =>
      refine Or.inr ((refused_calibration around instrument parsed item bytes arg rule passed goal
        last).mp (unchanged _ ?_))
      rw [ca]
      exact run
  · obtain ⟨region, rule⟩ := coefficients coef
    cases load : coefLoad item.id parsed.data with
    | some writes => exact Or.inl rfl
    | none =>
      refine Or.inr ((refused_coefficients around instrument parsed item bytes region rule
        passed).mp (unchanged _ ?_))
      rw [set_effect_coef _ _ _ _ coef, raw_parsed, load]

/-- A query is not answered with an error, or changes nothing. -/
theorem query_atomic (around : Surroundings) {line : List Byte} {instrument : Instrument}
    {parsed : Line} (read : readLine (ownAddr instrument) line = .ok parsed)
    (query : parsed.op = uppOpGet) : SetAtomic around line instrument := by
  intro error
  rcases query_cases around read query with ⟨err, silent⟩ | ⟨item, row, pollable⟩
  · rw [silent]
    exact unchanged_refl instrument
  · rw [answer_query around read query row pollable] at error ⊢
    rcases execute_get_cases (parsedLine parsed) item instrument with
      ⟨_, _, run⟩ | ⟨_, filled, left, run, _⟩
    · rw [run]
      exact unchanged_refl instrument
    · rw [run] at error
      exact absurd error (build_not_error filled item left)

/-- An attempt leaves everything as it was when it fails, exactly when it is traceless. -/
theorem attempt_atomic_iff (around : Surroundings) {line : List Byte} {instrument : Instrument}
    {parsed : Line} {item : CmdItem} {bytes : List Byte}
    (attempt : Attempt instrument line parsed item bytes) :
    SetAtomic around line instrument ↔ Traceless around instrument parsed item bytes := by
  constructor
  · intro atomic
    refine unchanged_traceless around attempt (fun left called => ?_)
    have answer := answer_refused around attempt called
    rw [SetAtomic, answer] at atomic
    exact atomic ⟨.dataIllegal, by decide, rfl⟩
  · intro traceless error
    rcases called : setEffect around (parsedLine parsed) (written instrument item bytes) item.id
      with ⟨accepted, left⟩
    cases accepted with
    | true =>
      rw [answer_accepted around attempt called] at error
      exact absurd error (build_not_error _ _ _)
    | false =>
      rw [answer_refused around attempt called]
      exact traceless_unchanged around attempt traceless called

/-- A line answered with an error leaves everything as it was exactly when it is no attempt
or a traceless one. -/
theorem set_atomic_iff (around : Surroundings) (line : List Byte) (instrument : Instrument) :
    SetAtomic around line instrument ↔
      ∀ parsed item bytes, Attempt instrument line parsed item bytes →
        Traceless around instrument parsed item bytes := by
  by_cases tries : ∃ parsed item bytes, Attempt instrument line parsed item bytes
  · obtain ⟨parsed, item, bytes, attempt⟩ := tries
    rw [attempt_atomic_iff around attempt]
    constructor
    · intro traceless other second data also
      obtain ⟨rfl, rfl, rfl⟩ := attempt.unique also
      exact traceless
    · intro traceless
      exact traceless parsed item bytes attempt
  · refine iff_of_true ?_ (fun parsed item bytes attempt =>
      absurd ⟨parsed, item, bytes, attempt⟩ tries)
    rcases line_cases around instrument line with some | ⟨parsed, read, query⟩ | ⟨err, silent, _⟩
    · exact absurd some tries
    · exact query_atomic around read query
    · intro _
      rw [silent]
      exact unchanged_refl instrument

/-- Surroundings in which a target at room temperature is seen. -/
def coldTarget : Surroundings := { quiet with ratioTemp := fun _ => (whole 20, whole 20) }

/-- A calibration to 1000 degrees in front of a cold target is refused, and the slope has
been moved from one to ten. -/
theorem cold_calibration_moves_slope :
    ¬SetAtomic coldTarget (ascii "CA=1000") defaultInstrument := by
  intro atomic
  have answer : (answerLine coldTarget (ascii "CA=1000") defaultInstrument).1 =
      uppPktError .dataIllegal := by decide
  have unchanged := atomic ⟨.dataIllegal, by decide, answer⟩
  have slope : (answerLine coldTarget (ascii "CA=1000") defaultInstrument).2.bytes .tempSlope ≠
      defaultInstrument.bytes .tempSlope := by decide +kernel
  exact slope (unchanged.bytes (by decide))

end Pyrometer.SetAtomicity
