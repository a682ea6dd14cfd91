import Pyrometer.ExactTemperatures
import Pyrometer.Runs

/-!
# Two-point calibration

Four commands enter two reference points, each a set temperature and the real one that
was measured, and `TTCO` asks for a calibration. `temp_two_point_calibrate` answers to
that in the next cycle of `get_temp` with enough energy. The commands store into four
numbers of `sys_state`; the calibration reads four arrays with one number for each mode,
which nothing writes. All numbers are exact.

The raw temperatures of a cycle are its input, and what `get_temp` does with the
corrected ones is left out. The other commands that matter here are those for the
coefficients, the mode, the valid voltage, and the unit and range of the device.
-/

namespace Pyrometer.TwoPointCalibration

open ExactTemperatures Runs

/-- A measuring mode: the wide channel, the narrow one, or their ratio. -/
abbrev Mode : Type := Fin 3

/-- A number for each mode. -/
abbrev PerMode : Type := Mode → ℚ

/-- A reference point: what was set and what was measured. -/
structure Reference (α : Type) where
  lowSet : α
  lowReal : α
  highSet : α
  highReal : α

/-- What the calibration has to do with of `sys_state` and of the parameters. The four
numbers that the commands store are apart from the arrays that are read. -/
structure Calibration where
  temp : TempPara
  tempMode : Mode
  validVol : Nat
  gain : PerMode
  offset : PerMode
  tempCalib : Reference ℚ
  calib : Reference PerMode
  twoCalibOpen : Nat

/-- The commands for the reference points. -/
inductive ReferenceCommand where
  | TCLS
  | TCLR
  | TCHS
  | TCHR
  deriving DecidableEq

/-- The number of a command. -/
def ReferenceCommand.read {α : Type} (reference : Reference α) : ReferenceCommand → α
  | .TCLS => reference.lowSet
  | .TCLR => reference.lowReal
  | .TCHS => reference.highSet
  | .TCHR => reference.highReal

/-- Store into the number of a command. -/
def ReferenceCommand.write (reference : Reference ℚ) (value : ℚ) : ReferenceCommand → Reference ℚ
  | .TCLS => { reference with lowSet := value }
  | .TCLR => { reference with lowReal := value }
  | .TCHS => { reference with highSet := value }
  | .TCHR => { reference with highReal := value }

/-- A command, or a cycle with the voltage of the narrow channel and the raw temperatures. -/
inductive Event where
  | reference (cmd : ReferenceCommand) (value : ℚ)
  | ttco (value : Nat)
  | gain (mode : Mode) (value : ℚ)
  | offset (mode : Mode) (value : ℚ)
  | mode (mode : Mode)
  | validVol (value : Nat)
  | device (temp : TempPara)
  | cycle (targetVolt : Nat) (raw : PerMode)

/-- A command for a reference point. Its number is a temperature inside the range of the
device. -/
def Calibration.setReference (state : Calibration) (cmd : ReferenceCommand) (value : ℚ) :
    Calibration :=
  match cmdDataChk state.temp (tempRule true) value with
  | some stored => { state with tempCalib := cmd.write state.tempCalib stored }
  | none => state

/-- The index of a mode in the arrays. -/
def modeIndex (mode : Nat) : Mode := if small : mode < 3 then ⟨mode, small⟩ else 2

/-- `temp_two_point_calibrate`: the corrected temperature, and the state behind the call. -/
def tempTwoPointCalibrate (state : Calibration) (rawTemp : ℚ) (mode : Nat) : ℚ × Calibration :=
  let index := modeIndex mode
  let calibrated :=
    if state.twoCalibOpen = 1 then
      let lowSet := state.calib.lowSet index
      let lowReal := state.calib.lowReal index
      let highSet := state.calib.highSet index
      let highReal := state.calib.highReal index
      if highReal - lowReal ≠ 0 then
        let gain := (highSet - lowSet) / (highReal - lowReal)
        { state with
          twoCalibOpen := 0
          gain := Function.update state.gain index gain
          offset := Function.update state.offset index (highSet - gain * highReal) }
      else { state with twoCalibOpen := 0 }
    else state
  (calibrated.gain index * rawTemp + calibrated.offset index, calibrated)

/-- The calls of `get_temp` in a cycle, one for each mode, unless the voltage of the
narrow channel is too small. -/
def Calibration.getTemp (state : Calibration) (targetVolt : Nat) (raw : PerMode) : Calibration :=
  if targetVolt < state.validVol then state
  else
    let wide := tempTwoPointCalibrate state (raw 0) 0
    let narrow := tempTwoPointCalibrate wide.2 (raw 1) 1
    let ratio := tempTwoPointCalibrate narrow.2 (raw 2) 2
    ratio.2

/-- One step. A command out of its range changes nothing. -/
def step (state : Calibration) : Event → Calibration
  | .reference cmd value => state.setReference cmd value
  | .ttco value => if value ≤ 1 then { state with twoCalibOpen := value } else state
  | .gain mode value =>
      if 4 / 5 ≤ value ∧ value ≤ 6 / 5 then
        { state with gain := Function.update state.gain mode value }
      else state
  | .offset mode value =>
      if -500 ≤ value ∧ value ≤ 500 then
        { state with offset := Function.update state.offset mode value }
      else state
  | .mode mode => { state with tempMode := mode }
  | .validVol value => if value ≤ 3220000 then { state with validVol := value } else state
  | .device temp => { state with temp := temp }
  | .cycle targetVolt raw => state.getTemp targetVolt raw

/-- Every reference number is 0. -/
def Reference.zero : Reference ℚ := ⟨0, 0, 0, 0⟩

/-- The state after the start: `sys_state` is cleared, the parameters are those that were
loaded. -/
def boot (temp : TempPara) (tempMode : Mode) (validVol : Nat) (gain offset : PerMode) :
    Calibration :=
  ⟨temp, tempMode, validVol, gain, offset, .zero, ⟨0, 0, 0, 0⟩, 0⟩

/-- What the coefficients of a mode make of a temperature. -/
def Calibration.corrected (state : Calibration) (mode : Mode) (temperature : ℚ) : ℚ :=
  state.gain mode * temperature + state.offset mode

/-- A cycle has answered to a request: the coefficients of the mode take both real
temperatures to the set ones, the other modes have theirs still, and the request is
cleared for good, so that later cycles change nothing. -/
structure Calibrated (before after : Calibration) (mode : Mode) (points : Reference ℚ) : Prop where
  low : after.corrected mode points.lowReal = points.lowSet
  high : after.corrected mode points.highReal = points.highSet
  others : ∀ other, other ≠ mode →
    after.gain other = before.gain other ∧ after.offset other = before.offset other
  cleared : after.twoCalibOpen = 0
  once : ∀ cycles : List (Nat × PerMode),
    run step after (cycles.map fun cycle => .cycle cycle.1 cycle.2) = after

/-- The arrays that the calibration reads are all zero. -/
def Unwritten (state : Calibration) : Prop := state.calib = ⟨0, 0, 0, 0⟩

/-- The four commands. -/
def fourCommands : List ReferenceCommand := [.TCLS, .TCLR, .TCHS, .TCHR]

/-- Entering reference points in some order of the commands. -/
def entering (order : List ReferenceCommand) (entered : Reference ℚ) : List Event :=
  order.map fun cmd => .reference cmd (cmd.read entered)

/-- The state with the request cleared, and nothing else changed. -/
def Calibration.answered (state : Calibration) : Calibration :=
  { state with twoCalibOpen := if state.twoCalibOpen = 1 then 0 else state.twoCalibOpen }

/-- A request is cleared once. -/
@[simp] theorem answered_again (state : Calibration) :
    state.answered.answered = state.answered := by
  unfold Calibration.answered
  split_ifs <;> rfl

/-- Clearing the request leaves the arrays. -/
theorem answered_unwritten {state : Calibration} (unwritten : Unwritten state) :
    Unwritten state.answered := unwritten

/-- With the arrays at zero a calibration only clears the request: the two real points
are the same there. -/
theorem calibrate_unwritten {state : Calibration} (unwritten : Unwritten state) (rawTemp : ℚ)
    (mode : Nat) : (tempTwoPointCalibrate state rawTemp mode).2 = state.answered := by
  unfold Calibration.answered
  by_cases requested : state.twoCalibOpen = 1
  · rw [Unwritten] at unwritten
    simp [tempTwoPointCalibrate, unwritten, requested]
  · simp only [tempTwoPointCalibrate, requested, if_false]

/-- With the arrays at zero a cycle only clears the request, if it has enough energy. -/
theorem getTemp_unwritten {state : Calibration} (unwritten : Unwritten state) (targetVolt : Nat)
    (raw : PerMode) :
    state.getTemp targetVolt raw =
      if targetVolt < state.validVol then state else state.answered := by
  unfold Calibration.getTemp
  split
  case isTrue weak => rfl
  case isFalse strong =>
    have wide := calibrate_unwritten unwritten (raw 0) 0
    have narrow := calibrate_unwritten (answered_unwritten unwritten) (raw 1) 1
    have ratio := calibrate_unwritten (answered_unwritten unwritten) (raw 2) 2
    rw [answered_again] at narrow ratio
    simp only [wide, narrow, ratio]

/-- Nothing writes the arrays. -/
theorem step_unwritten (state : Calibration) (event : Event) (unwritten : Unwritten state) :
    Unwritten (step state event) := by
  cases event with
  | reference cmd value =>
    simp only [step, Calibration.setReference]
    split <;> exact unwritten
  | ttco value =>
    simp only [step]
    split <;> exact unwritten
  | gain mode value =>
    simp only [step]
    split <;> exact unwritten
  | offset mode value =>
    simp only [step]
    split <;> exact unwritten
  | mode mode => exact unwritten
  | validVol value =>
    simp only [step]
    split <;> exact unwritten
  | device temp => exact unwritten
  | cycle targetVolt raw =>
    rw [step, getTemp_unwritten unwritten]
    split <;> exact unwritten

/-- The arrays are zero in every state that is reached. -/
theorem run_unwritten (temp : TempPara) (tempMode : Mode) (validVol : Nat) (gain offset : PerMode)
    (history : List Event) :
    Unwritten (run step (boot temp tempMode validVol gain offset) history) :=
  run_invariant step step_unwritten (boot temp tempMode validVol gain offset) rfl history

/-- What was stored for one command is read back, and the others keep their numbers. -/
theorem read_write (reference : Reference ℚ) (value : ℚ) (cmd other : ReferenceCommand) :
    other.read (cmd.write reference value) =
      if other = cmd then value else other.read reference := by
  cases cmd <;> cases other <;> rfl

/-- Reference points are told apart by what the commands read. -/
theorem reference_ext {left right : Reference ℚ}
    (same : ∀ cmd : ReferenceCommand, cmd.read left = cmd.read right) : left = right := by
  cases left
  cases right
  have lowSet := same .TCLS
  have lowReal := same .TCLR
  have highSet := same .TCHS
  have highReal := same .TCHR
  simp only [ReferenceCommand.read] at lowSet lowReal highSet highReal
  simp only [lowSet, lowReal, highSet, highReal]

/-- Accepted commands store their points into the four numbers and change nothing else. -/
theorem run_entering {state : Calibration} {entered points : Reference ℚ}
    (accepted : ∀ cmd : ReferenceCommand,
      cmdDataChk state.temp (tempRule true) (cmd.read entered) = some (cmd.read points))
    (order : List ReferenceCommand) :
    let after := run step state (entering order entered)
    after = { state with tempCalib := after.tempCalib } ∧
      ∀ cmd : ReferenceCommand, cmd.read after.tempCalib =
        if cmd ∈ order then cmd.read points else cmd.read state.tempCalib := by
  induction order generalizing state with
  | nil => exact ⟨rfl, fun cmd => by simp [entering, run]⟩
  | cons first rest inductionHypothesis =>
    have stored : step state (.reference first (first.read entered)) =
        { state with tempCalib := first.write state.tempCalib (first.read points) } := by
      simp only [step, Calibration.setReference, accepted first]
    have runs : run step state (entering (first :: rest) entered) =
        run step { state with tempCalib := first.write state.tempCalib (first.read points) }
          (entering rest entered) :=
      congrArg (fun next => run step next (entering rest entered)) stored
    obtain ⟨same, numbers⟩ := @inductionHypothesis
      { state with tempCalib := first.write state.tempCalib (first.read points) } accepted
    intro after
    simp only [after, runs]
    refine ⟨same, fun cmd => (numbers cmd).trans ?_⟩
    by_cases here : cmd ∈ rest
    · simp [here]
    · by_cases own : cmd = first <;> simp [here, own, read_write]

/-- With the request set, a cycle calibrates exactly if it has enough energy and the
coefficients take the real points to the set ones already. -/
theorem cycle_calibrated_iff {before : Calibration} (unwritten : Unwritten before)
    (requested : before.twoCalibOpen = 1) (mode : Mode) (points : Reference ℚ) (targetVolt : Nat)
    (raw : PerMode) :
    Calibrated before (step before (.cycle targetVolt raw)) mode points ↔
      before.validVol ≤ targetVolt ∧
        before.corrected mode points.lowReal = points.lowSet ∧
        before.corrected mode points.highReal = points.highSet := by
  have cleared : before.answered.twoCalibOpen = 0 := if_pos requested
  rw [step, getTemp_unwritten unwritten]
  by_cases weak : targetVolt < before.validVol
  · rw [if_pos weak]
    constructor
    · intro calibrated
      have absent := calibrated.cleared
      omega
    · intro enough
      omega
  · rw [if_neg weak]
    constructor
    · exact fun calibrated => ⟨not_lt.mp weak, calibrated.low, calibrated.high⟩
    · rintro ⟨-, low, high⟩
      refine ⟨low, high, fun _ _ => ⟨rfl, rfl⟩, cleared, fun cycles => ?_⟩
      induction cycles with
      | nil => rfl
      | cons cycle rest inductionHypothesis =>
        have still : step before.answered (.cycle cycle.1 cycle.2) = before.answered := by
          rw [step, getTemp_unwritten (answered_unwritten unwritten), answered_again, ite_self]
        change run step (step _ _) _ = _
        rw [still]
        exact inductionHypothesis

/-- From every state that is reached, with the four commands accepted in any order and
then the request: the points are in the four numbers, and the next cycle calibrates the
mode exactly if it has enough energy and the coefficients of the mode take the real
points to the set ones already. -/
theorem calibrated_iff (temp : TempPara) (tempMode : Mode) (validVol : Nat)
    (gain offset : PerMode) (history : List Event) (entered points : Reference ℚ)
    (order : List ReferenceCommand) (anyOrder : order.Perm fourCommands)
    (accepted : ∀ cmd : ReferenceCommand,
      cmdDataChk (run step (boot temp tempMode validVol gain offset) history).temp
        (tempRule true) (cmd.read entered) = some (cmd.read points))
    (targetVolt : Nat) (raw : PerMode) :
    let state := run step (boot temp tempMode validVol gain offset) history
    let before := run step state (entering order entered ++ [.ttco 1])
    before.tempCalib = points ∧
      (Calibrated before (step before (.cycle targetVolt raw)) before.tempMode points ↔
        before.validVol ≤ targetVolt ∧
          before.corrected before.tempMode points.lowReal = points.lowSet ∧
          before.corrected before.tempMode points.highReal = points.highSet) := by
  intro state before
  obtain ⟨-, numbers⟩ := run_entering accepted order
  have asked : before =
      { run step state (entering order entered) with twoCalibOpen := 1 } := by
    simp only [before, run_snoc, step]
    rfl
  have unwritten : Unwritten before := by
    apply run_invariant step step_unwritten
    exact run_unwritten temp tempMode validVol gain offset history
  constructor
  · apply reference_ext
    intro cmd
    have member : cmd ∈ order := anyOrder.mem_iff.mpr (by cases cmd <;> decide)
    rw [asked]
    exact (numbers cmd).trans (if_pos member)
  · exact cycle_calibrated_iff unwritten (by rw [asked]) _ points targetVolt raw

/-- Coefficients that leave a temperature as it is. -/
def identity (tempMode : Mode) : Calibration := boot defaultTemp tempMode 1000 1 0

/-- Reference points inside the range of the device are accepted as they are. -/
theorem accepted_inside {points : Reference ℚ}
    (inside : ∀ cmd : ReferenceCommand, 800 ≤ cmd.read points ∧ cmd.read points ≤ 2800)
    (cmd : ReferenceCommand) :
    cmdDataChk defaultTemp (tempRule true) (cmd.read points) = some (cmd.read points) := by
  obtain ⟨low, high⟩ := inside cmd
  have range : ¬ (3500 < cmd.read points ∨ cmd.read points < 100) := by
    rintro (above | below) <;> linarith
  have device : ¬ (2800 < cmd.read points ∨ cmd.read points < 800) := by
    rintro (above | below) <;> linarith
  simp [cmdDataChk, defaultTemp, tempRule, convertUint, range, device]

/-- Points that the coefficients fit already: the request is answered. -/
theorem fitting_calibrated :
    let before := run step (identity 2)
      (entering fourCommands ⟨1000, 1000, 2000, 2000⟩ ++ [.ttco 1])
    before.tempCalib = ⟨1000, 1000, 2000, 2000⟩ ∧
      Calibrated before (step before (.cycle 5000 fun _ => 1500)) before.tempMode
        ⟨1000, 1000, 2000, 2000⟩ := by
  have accepted := @accepted_inside ⟨1000, 1000, 2000, 2000⟩
    (by rintro (_ | _ | _ | _) <;> norm_num [ReferenceCommand.read])
  have result := calibrated_iff defaultTemp 2 1000 1 0 [] _ _ fourCommands (.refl _) accepted 5000
    fun _ => 1500
  exact ⟨result.1, result.2.mpr ⟨by decide, by decide +kernel, by decide +kernel⟩⟩

/-- Points 10 and 20 degrees off are accepted and the request is cleared, and the
coefficients are as before: the low real temperature is not corrected to the set one. -/
theorem off_not_calibrated :
    ¬ ∀ (temp : TempPara) (tempMode : Mode) (validVol : Nat) (gain offset : PerMode)
        (history : List Event) (entered points : Reference ℚ) (order : List ReferenceCommand),
      order.Perm fourCommands →
        (∀ cmd : ReferenceCommand,
          cmdDataChk (run step (boot temp tempMode validVol gain offset) history).temp
            (tempRule true) (cmd.read entered) = some (cmd.read points)) →
          points.lowReal ≠ points.highReal →
            ∀ (targetVolt : Nat) (raw : PerMode),
              let state := run step (boot temp tempMode validVol gain offset) history
              let before := run step state (entering order entered ++ [.ttco 1])
              before.validVol ≤ targetVolt →
                Calibrated before (step before (.cycle targetVolt raw)) before.tempMode points := by
  intro always
  have accepted := @accepted_inside ⟨1010, 1000, 2020, 2000⟩
    (by rintro (_ | _ | _ | _) <;> norm_num [ReferenceCommand.read])
  have low := (always defaultTemp 2 1000 1 0 [] _ _ fourCommands (.refl _) accepted
    (by norm_num) 5000 (fun _ => 1500) (by decide)).low
  revert low
  decide +kernel

end Pyrometer.TwoPointCalibration
