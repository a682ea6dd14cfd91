import Pyrometer.GainControl

/-!
# The recorded gain and the analog switch

The normalisation scales a voltage by the recorded gain, whatever the analog switch
selects. In command mode a pass first moves the switch to the recorded gain. In automatic
mode nothing does, and the two agree only as long as no command writes another gain to the
record, and the mode is not changed to automatic before a pass has moved the switch.
-/

namespace Pyrometer.GainAgreement

open GainControl Runs VoltageFilter

/-- The analog switch of a channel is where the record says. -/
def Agrees (front : Front) (spec : Spec) : Prop :=
  (front.stage spec).position = (front.stage spec).nowGain

/-- The gains are known ones, and in automatic mode the switches are where the records
say. -/
structure Consistent (front : Front) : Prop where
  known : ∀ spec, (front.stage spec).nowGain < gainCount
  agree : front.mode = tiagAutoMode → ∀ spec, Agrees front spec

/-- In automatic mode a command writes only the gain that the switch selects, and the mode
is made automatic only when the switches are where the records say. -/
def Careful (front : Front) : Event → Prop
  | .sample _ => True
  | .sn gain => 2 < gain ∨ front.mode ≠ tiagAutoMode ∨ gain = (front.stage .nb).position
  | .sw gain => 2 < gain ∨ front.mode ≠ tiagAutoMode ∨ gain = (front.stage .wb).position
  | .sm mode => mode ≠ tiagAutoMode ∨ ∀ spec, Agrees front spec

/-- What is required of a sample: a voltage is normalised with a known gain that the switch
selects, and in automatic mode no gain moves by more than a step. -/
structure Measured (para : GainPara) (front : Front) (event : Event) : Prop where
  scaled : ∀ volt ∈ normalised para front event,
    volt.position = volt.gain ∧ volt.gain < gainCount
  stepped : ∀ voltRaw, event = .sample voltRaw → front.mode = tiagAutoMode → ∀ spec,
    ((happen para front event).stage spec).nowGain ≤ (front.stage spec).nowGain + 1 ∧
      (front.stage spec).nowGain ≤ ((happen para front event).stage spec).nowGain + 1

/-- A change of a stage in automatic mode: to a known gain, by a step at most, with the
switch following the record. -/
structure Steps (before after : Stage) : Prop where
  known : after.nowGain < gainCount
  up : after.nowGain ≤ before.nowGain + 1
  down : before.nowGain ≤ after.nowGain + 1
  follows : before.position = before.nowGain → after.position = after.nowGain

/-- A stage that keeps its gain. -/
theorem steps_same {stage : Stage} (cnt : GainCnt) (known : stage.nowGain < gainCount) :
    Steps stage { stage with cnt := cnt } :=
  ⟨known, Nat.le_succ _, Nat.le_succ _, fun agree => agree⟩

/-- A counted voltage leaves the gain or sets a neighbouring one. -/
theorem steps_count {stage : Stage} (flag : GainFlag) (cntThod : Nat) {gain : Nat}
    (known : stage.nowGain < gainCount) (valid : gain < gainCount)
    (up : gain ≤ stage.nowGain + 1) (down : stage.nowGain ≤ gain + 1) :
    Steps stage (countVolt flag cntThod gain stage) := by
  rw [count_volt_cnt]
  split
  case isTrue enough => exact ⟨valid, up, down, fun _ => if_pos valid⟩
  case isFalse few => exact steps_same _ known

/-- `tiag_auto_switch` moves by a step at most. -/
theorem auto_switch_steps (limits : GainLimits) (cntThod volt : Nat) {stage : Stage}
    (known : stage.nowGain < gainCount) :
    Steps stage (tiagAutoSwitch limits cntThod volt stage.nowGain stage) := by
  unfold tiagAutoSwitch
  split_ifs with low above middle aboveMiddle below high belowHigh
  · exact steps_count .upL cntThod known (by decide) (by rw [low]; decide) (by rw [low]; decide)
  · exact steps_same stage.cnt known
  · exact steps_count .upM cntThod known (by decide) (by rw [middle]; decide)
      (by rw [middle]; decide)
  · exact steps_count .downM cntThod known (by decide) (by rw [middle]; decide)
      (by rw [middle]; decide)
  · exact steps_same stage.cnt known
  · exact steps_count .downH cntThod known (by decide) (by rw [high]; decide) (by rw [high]; decide)
  · exact steps_same stage.cnt known
  · exact steps_same stage.cnt known

/-- A pass leaves the stage of a channel with a known gain, and the switch where the record
says if it was there, or if the mode is not automatic. -/
theorem switch_agrees (mode : Nat) (limits : GainLimits) (cntThod : Nat) (voltRaw : Int)
    {stage : Stage} (known : stage.nowGain < gainCount)
    (agree : mode = tiagAutoMode → stage.position = stage.nowGain) :
    let after := tiagSwitch mode limits cntThod voltRaw stage.nowGain stage
    after.nowGain < gainCount ∧ after.position = after.nowGain ∧
      (mode = tiagAutoMode → Steps stage after) := by
  have small : stage.nowGain % 256 = stage.nowGain := Nat.mod_eq_of_lt (lt_trans known (by decide))
  unfold tiagSwitch
  rw [small]
  split
  case isTrue automatic =>
    have steps := auto_switch_steps limits cntThod (voltRaw % 2 ^ 32).toNat known
    exact ⟨steps.known, steps.follows (agree automatic), fun _ => steps⟩
  case isFalse command =>
    rw [tiagCmdSwitch, if_neg (Nat.not_le.mpr known)]
    exact ⟨known, if_pos known, fun automatic => absurd automatic command⟩

/-- What a pass does to one channel. -/
theorem switch_channel_stage (para : GainPara) (spec : Spec) (voltRaw : Int) (front : Front) :
    (gainSwitchChannel para spec voltRaw front).1.stage =
        Function.update front.stage spec (tiagSwitch front.mode (para.limits spec) para.cntThod
          voltRaw (front.stage spec).nowGain (front.stage spec)) ∧
      (gainSwitchChannel para spec voltRaw front).1.mode = front.mode := by
  unfold gainSwitchChannel
  simp only
  split <;> exact ⟨rfl, rfl⟩

/-- A pass over one channel keeps the gains consistent. Afterwards the switch of the channel
is where its record says, and the other channel is as it was. -/
theorem switch_channel_keeps (para : GainPara) {front : Front} (spec : Spec) (voltRaw : Int)
    (consistent : Consistent front) :
    Consistent (gainSwitchChannel para spec voltRaw front).1 ∧
      Agrees (gainSwitchChannel para spec voltRaw front).1 spec ∧
      (front.mode = tiagAutoMode →
        Steps (front.stage spec) ((gainSwitchChannel para spec voltRaw front).1.stage spec)) ∧
      ∀ other ≠ spec,
        (gainSwitchChannel para spec voltRaw front).1.stage other = front.stage other := by
  obtain ⟨stages, mode⟩ := switch_channel_stage para spec voltRaw front
  obtain ⟨known, agree, steps⟩ := switch_agrees front.mode (para.limits spec) para.cntThod voltRaw
    (consistent.known spec) (fun automatic => consistent.agree automatic spec)
  have others : ∀ other ≠ spec,
      (gainSwitchChannel para spec voltRaw front).1.stage other = front.stage other := by
    intro other different
    rw [stages, Function.update_of_ne different]
  have same : (gainSwitchChannel para spec voltRaw front).1.stage spec =
      tiagSwitch front.mode (para.limits spec) para.cntThod voltRaw (front.stage spec).nowGain
        (front.stage spec) := by
    rw [stages, Function.update_self]
  refine ⟨⟨fun other => ?_, fun automatic other => ?_⟩, ?_, ?_, others⟩
  · by_cases channel : other = spec
    · subst channel
      rw [same]
      exact known
    · rw [others other channel]
      exact consistent.known other
  · by_cases channel : other = spec
    · subst channel
      rw [Agrees, same]
      exact agree
    · rw [Agrees, others other channel]
      exact consistent.agree (mode ▸ automatic) other
  · rw [Agrees, same]
    exact agree
  · rw [same]
    exact steps

/-- A stage that was not changed. -/
theorem steps_refl {stage : Stage} (known : stage.nowGain < gainCount) : Steps stage stage :=
  steps_same stage.cnt known

/-- A pass keeps the gains consistent; in automatic mode none moves by more than a step, and
if the pass goes on both switches are where their records say. -/
theorem switch_process_keeps (para : GainPara) {front : Front} (voltRaw : Spec → Int)
    (consistent : Consistent front) :
    Consistent (gainSwitchProcess para voltRaw front).1 ∧
      (front.mode = tiagAutoMode → ∀ spec,
        Steps (front.stage spec) ((gainSwitchProcess para voltRaw front).1.stage spec)) ∧
      ((gainSwitchProcess para voltRaw front).2 = false → ∀ spec,
        Agrees (gainSwitchProcess para voltRaw front).1 spec) := by
  obtain ⟨first, firstAgrees, firstSteps, firstOthers⟩ :=
    switch_channel_keeps para .wb (voltRaw .wb) consistent
  obtain ⟨_, mode⟩ := switch_channel_stage para .wb (voltRaw .wb) front
  unfold gainSwitchProcess
  simp only
  split
  case isTrue ended =>
    refine ⟨first, fun automatic spec => ?_, fun goesOn => ?_⟩
    · cases spec with
      | wb => exact firstSteps automatic
      | nb =>
        rw [firstOthers .nb (by decide)]
        exact steps_refl (consistent.known .nb)
    · rw [ended] at goesOn
      exact absurd goesOn (by decide)
  case isFalse goesOn =>
    generalize (gainSwitchChannel para .wb (voltRaw .wb) front).1 = middle at *
    obtain ⟨second, secondAgrees, secondSteps, secondOthers⟩ :=
      switch_channel_keeps para .nb (voltRaw .nb) first
    refine ⟨second, fun automatic spec => ?_, fun _ spec => ?_⟩
    · cases spec with
      | wb =>
        rw [secondOthers .wb (by decide)]
        exact firstSteps automatic
      | nb =>
        rw [← firstOthers .nb (by decide)]
        exact secondSteps (mode.trans automatic)
    · cases spec with
      | wb =>
        rw [Agrees, secondOthers .wb (by decide)]
        exact firstAgrees
      | nb => exact secondAgrees

/-- A command that writes the gain the switch selects, or any gain in command mode. -/
theorem set_gain_keeps (para : GainPara) {front : Front} (spec : Spec) (gain : Nat)
    (consistent : Consistent front)
    (careful : 2 < gain ∨ front.mode ≠ tiagAutoMode ∨ gain = (front.stage spec).position) :
    Consistent (setGain para spec gain front) := by
  unfold setGain
  split
  case isFalse refused => exact consistent
  case isTrue accepted =>
    refine ⟨fun other => ?_, fun automatic other => ?_⟩
    · simp only [Function.update_apply]
      split
      case isTrue channel => exact Nat.lt_succ_of_le accepted
      case isFalse different => exact consistent.known other
    · simp only [Agrees, Function.update_apply]
      split
      case isTrue channel =>
        rcases careful with large | command | selected
        · exact absurd accepted (Nat.not_le.mpr large)
        · exact absurd automatic command
        · exact selected.symm
      case isFalse different => exact consistent.agree automatic other

/-- The command that sets the mode. -/
theorem set_mode_keeps {front : Front} (mode : Nat) (consistent : Consistent front)
    (careful : mode ≠ tiagAutoMode ∨ ∀ spec, Agrees front spec) :
    Consistent (setMode mode front) := by
  unfold setMode
  split
  case isFalse refused => exact consistent
  case isTrue accepted =>
    refine ⟨consistent.known, fun automatic => ?_⟩
    rcases careful with command | agree
    · exact absurd automatic command
    · exact agree

/-- A careful event keeps the gains consistent. -/
theorem happen_keeps (para : GainPara) (front : Front) (event : Event)
    (consistent : Consistent front) (careful : Careful front event) :
    Consistent (happen para front event) := by
  cases event with
  | sample voltRaw => exact (switch_process_keeps para voltRaw consistent).1
  | sn gain => exact set_gain_keeps para .nb gain consistent careful
  | sw gain => exact set_gain_keeps para .wb gain consistent careful
  | sm mode => exact set_mode_keeps mode consistent careful

/-- The voltages that are normalised carry the gains and the positions of their channels. -/
theorem normalised_stage {para : GainPara} {voltRaw : Spec → Int} {front : Front}
    {volt : Normalised} (member : volt ∈ voltNormalization para voltRaw front) :
    volt.gain = (front.stage volt.spec).nowGain ∧
      volt.position = (front.stage volt.spec).position := by
  unfold voltNormalization at member
  split_ifs at member
  · exact absurd member List.not_mem_nil
  · rw [List.mem_singleton.mp member]
    exact ⟨rfl, rfl⟩
  · rcases List.mem_pair.mp member with rfl | rfl <;> exact ⟨rfl, rfl⟩

/-- With consistent gains an event does what is required. -/
theorem consistent_measured (para : GainPara) {front : Front} (event : Event)
    (consistent : Consistent front) : Measured para front event := by
  constructor
  case scaled =>
    intro volt member
    cases event with
    | sample voltRaw =>
      obtain ⟨after, _, agree⟩ := switch_process_keeps para voltRaw consistent
      simp only [normalised] at member
      split at member
      case isTrue ended => exact absurd member List.not_mem_nil
      case isFalse goesOn =>
        obtain ⟨gain, position⟩ := normalised_stage member
        rw [gain, position]
        exact ⟨agree (Bool.eq_false_iff.mpr goesOn) volt.spec, after.known volt.spec⟩
    | sn gain => exact absurd member List.not_mem_nil
    | sw gain => exact absurd member List.not_mem_nil
    | sm mode => exact absurd member List.not_mem_nil
  case stepped =>
    rintro voltRaw rfl automatic spec
    have steps := (switch_process_keeps para voltRaw consistent).2.1 automatic spec
    exact ⟨steps.up, steps.down⟩

/-- A start leaves the gains consistent. -/
theorem init_consistent {gains : Spec → Nat} (known : ∀ spec, gains spec < gainCount) :
    Consistent (tiagInit gains) :=
  ⟨known, fun _ spec => if_pos (known spec)⟩

/-- In every run of careful events, each voltage is normalised with a known gain that the
switch selects, and in automatic mode no gain moves by more than a step. -/
theorem gains_agree (para : GainPara) (gains : Spec → Nat)
    (known : ∀ spec, gains spec < gainCount) (events : List Event)
    (careful : Along (happen para) Careful (tiagInit gains) events) :
    ∀ earlier event rest, events = earlier ++ event :: rest →
      Measured para (run (happen para) (tiagInit gains) earlier) event := by
  intro earlier event rest split
  rw [split, along_append] at careful
  have consistent := along_invariant (happen para) (happen_keeps para) (tiagInit gains)
    (init_consistent known) earlier careful.1
  exact consistent_measured para event consistent

/-- Bounds that no voltage is outside of, for both channels, and three to be discarded. -/
def widePara : GainPara :=
  ⟨fun _ => ⟨4000000, 0, 0, 0x3ff0000000000000, 0x3ff0000000000000⟩, 1, 3⟩

/-- A sample of half the range of the converter on both channels. -/
def halfRange : Event := .sample fun _ => 1650000

/-- A gain that is set in command mode is selected before the voltages are normalised. -/
theorem command_mode_agrees :
    Along (happen widePara) Careful (tiagInit fun _ => gainH)
        [.sm 1, .sn 1, halfRange, halfRange] ∧
      Measured widePara (run (happen widePara) (tiagInit fun _ => gainH) [.sm 1, .sn 1, halfRange])
        halfRange := by
  have careful : Along (happen widePara) Careful (tiagInit fun _ => gainH)
      [.sm 1, .sn 1, halfRange, halfRange] :=
    ⟨Or.inl (by decide), Or.inr (Or.inl (by decide)), True.intro, True.intro, True.intro⟩
  refine ⟨careful, ?_⟩
  exact gains_agree widePara (fun _ => gainH) (fun _ => by decide) _ careful
    [.sm 1, .sn 1, halfRange] halfRange [] rfl

/-- A gain that is written in automatic mode scales the second voltage after it, with the
switch at another. -/
theorem automatic_mode_disagrees :
    ¬Measured widePara (run (happen widePara) (tiagInit fun _ => gainH) [.sn 0, halfRange])
      halfRange := by
  intro measured
  have pair : (normalised widePara
      (run (happen widePara) (tiagInit fun _ => gainH) [.sn 0, halfRange]) halfRange).map
      (fun volt => (volt.gain, volt.position)) = [(2, 2), (0, 2)] := by
    decide
  have scaled : ∀ pair ∈ (normalised widePara
      (run (happen widePara) (tiagInit fun _ => gainH) [.sn 0, halfRange]) halfRange).map
      (fun volt => (volt.gain, volt.position)), pair.2 = pair.1 := by
    intro pair member
    obtain ⟨volt, among, rfl⟩ := List.mem_map.mp member
    exact (measured.scaled volt among).1
  rw [pair] at scaled
  exact absurd (scaled (0, 2) (by decide)) (by decide)

end Pyrometer.GainAgreement
