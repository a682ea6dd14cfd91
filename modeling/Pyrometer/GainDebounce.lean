import Pyrometer.GainControl

/-!
# How many voltages it takes to change the gain

In automatic mode a gain should move when the latest voltages, as many as `cnt_thod`
asks for, were all above the upper bound or all below the lower one. The source counts
the voltages outside the band and clears the counters of the other direction, but a
voltage inside the band changes no counter. A run in which every voltage inside the band
finds the counters at zero moves its gain as it should.
-/

namespace Pyrometer.GainDebounce

open GainControl Runs

/-- A voltage asks for the next gain up. -/
def outUp (limits : GainLimits) (gain volt : Nat) : Bool :=
  decide (gain < gainH) && aboveUpper limits volt

/-- A voltage asks for the next gain down. -/
def outDown (limits : GainLimits) (gain volt : Nat) : Bool :=
  if gain = gainM then belowMl limits volt
  else if gain = gainH then belowHm limits volt
  else false

/-- An amplifier and the voltages it was given at its present gain, the latest first. -/
structure Observed where
  stage : Stage
  recent : List Nat

/-- A voltage is given to the amplifier in automatic mode. -/
def sample (limits : GainLimits) (cntThod : Nat) (observed : Observed) (volt : Nat) : Observed :=
  let after := tiagAutoSwitch limits cntThod volt observed.stage.nowGain observed.stage
  ⟨after, if after.nowGain = observed.stage.nowGain then volt :: observed.recent else []⟩

/-- The latest voltages, as many as a number, all lie in a direction. -/
def Sustained (direction : Nat → Bool) (number : Nat) (volts : List Nat) : Prop :=
  number ≤ volts.length ∧ ∀ volt ∈ volts.take number, direction volt = true

/-- A voltage moves the gain as it should. At least one voltage is asked for. -/
structure Debounced (limits : GainLimits) (cntThod : Nat) (before : Observed) (volt : Nat) :
    Prop where
  up : (sample limits cntThod before volt).stage.nowGain = before.stage.nowGain + 1 ↔
    Sustained (outUp limits before.stage.nowGain) (max 1 cntThod) (volt :: before.recent)
  down : (sample limits cntThod before volt).stage.nowGain + 1 = before.stage.nowGain ↔
    Sustained (outDown limits before.stage.nowGain) (max 1 cntThod) (volt :: before.recent)
  moved : (sample limits cntThod before volt).stage.nowGain ≠ before.stage.nowGain →
    (sample limits cntThod before volt).stage.nowGain = before.stage.nowGain + 1 ∨
      (sample limits cntThod before volt).stage.nowGain + 1 = before.stage.nowGain

/-- A voltage is not outside the band in both directions, and inside the band it finds
the counters at zero. -/
def Regular (limits : GainLimits) (observed : Observed) (volt : Nat) : Prop :=
  ¬(outUp limits observed.stage.nowGain volt = true ∧
      outDown limits observed.stage.nowGain volt = true) ∧
    (outUp limits observed.stage.nowGain volt = false →
      outDown limits observed.stage.nowGain volt = false → observed.stage.cnt = gainCountInit)

/-- Whether a voltage is regular can be computed. -/
instance (limits : GainLimits) (observed : Observed) (volt : Nat) :
    Decidable (Regular limits observed volt) :=
  inferInstanceAs (Decidable (_ ∧ _))

/-- How many of the latest voltages lie in a direction without interruption. -/
def streak (direction : Nat → Bool) (volts : List Nat) : Nat := (volts.takeWhile direction).length

/-- One more voltage in the direction. -/
theorem streak_more {direction : Nat → Bool} {volt : Nat} (volts : List Nat)
    (inside : direction volt = true) :
    streak direction (volt :: volts) = streak direction volts + 1 := by
  rw [streak, List.takeWhile_cons_of_pos inside, List.length_cons, streak]

/-- A voltage that does not lie in the direction. -/
theorem streak_broken {direction : Nat → Bool} {volt : Nat} (volts : List Nat)
    (outside : direction volt = false) : streak direction (volt :: volts) = 0 := by
  rw [streak, List.takeWhile_cons_of_neg (by simp [outside]), List.length_nil]

/-- The latest voltages lie in a direction if the streak is long enough. -/
theorem sustained_iff (direction : Nat → Bool) (number : Nat) (volts : List Nat) :
    Sustained direction number volts ↔ number ≤ streak direction volts := by
  induction volts generalizing number with
  | nil => simp [Sustained, streak]
  | cons volt rest inductionHypothesis =>
    cases number with
    | zero => simp [Sustained]
    | succ number =>
      cases inside : direction volt with
      | true =>
        rw [streak_more rest inside, Nat.add_le_add_iff_right, ← inductionHypothesis]
        simp [Sustained, inside]
      | false =>
        rw [streak_broken rest inside]
        simp [Sustained, inside]

/-- The flag that counts towards the next gain up. -/
def flagUp (gain : Nat) : GainFlag := if gain = gainL then .upL else .upM

/-- The flag that counts towards the next gain down. -/
def flagDown (gain : Nat) : GainFlag := if gain = gainM then .downM else .downH

/-- The next gain up exists. -/
theorem out_up_below {limits : GainLimits} {gain volt : Nat}
    (up : outUp limits gain volt = true) : gain < gainH :=
  of_decide_eq_true (Bool.and_eq_true_iff.mp up).1

/-- The next gain down exists. -/
theorem out_down_above {limits : GainLimits} {gain volt : Nat}
    (down : outDown limits gain volt = true) : 0 < gain := by
  rcases Nat.eq_zero_or_pos gain with rfl | positive
  · exact absurd down Bool.false_ne_true
  · exact positive

/-- What `tiag_auto_switch` does with a voltage above the band. -/
theorem auto_switch_up {limits : GainLimits} {gain volt : Nat} (cntThod : Nat) (stage : Stage)
    (up : outUp limits gain volt = true) :
    tiagAutoSwitch limits cntThod volt gain stage =
      countVolt (flagUp gain) cntThod (gain + 1) stage := by
  have below : gain < 2 := out_up_below up
  have above : aboveUpper limits volt = true := (Bool.and_eq_true_iff.mp up).2
  interval_cases gain <;> simp [tiagAutoSwitch, above, flagUp, gainL, gainM, gainH]

/-- What it does with a voltage below the band. -/
theorem auto_switch_down {limits : GainLimits} {gain volt : Nat} (cntThod : Nat) (stage : Stage)
    (valid : gain < gainCount) (down : outDown limits gain volt = true)
    (notUp : outUp limits gain volt = false) :
    tiagAutoSwitch limits cntThod volt gain stage =
      countVolt (flagDown gain) cntThod (gain - 1) stage := by
  have positive : 0 < gain := out_down_above down
  have known : gain < 3 := valid
  interval_cases gain
  · simp_all [tiagAutoSwitch, outUp, outDown, flagDown, gainL, gainM, gainH]
  · simp_all [tiagAutoSwitch, outUp, outDown, flagDown, gainL, gainM, gainH]

/-- What it does with a voltage inside the band. -/
theorem auto_switch_inside {limits : GainLimits} {gain volt : Nat} (cntThod : Nat) (stage : Stage)
    (notUp : outUp limits gain volt = false) (notDown : outDown limits gain volt = false) :
    tiagAutoSwitch limits cntThod volt gain stage = stage := by
  unfold tiagAutoSwitch
  split
  case isTrue low => simp_all [outUp, gainL, gainH]
  case isFalse notLow =>
    split
    case isTrue middle => simp_all [outUp, outDown, gainM, gainH]
    case isFalse notMiddle =>
      split
      case isTrue high => simp_all [outDown, gainM, gainH]
      case isFalse unknown => rfl

/-- The counters of the present gain are the streaks of its voltages. -/
structure Counts (limits : GainLimits) (observed : Observed) : Prop where
  valid : observed.stage.nowGain < gainCount
  up : observed.stage.nowGain < gainH → observed.stage.cnt.get (flagUp observed.stage.nowGain) =
    streak (outUp limits observed.stage.nowGain) observed.recent
  down : 0 < observed.stage.nowGain → observed.stage.cnt.get (flagDown observed.stage.nowGain) =
    streak (outDown limits observed.stage.nowGain) observed.recent

/-- Counters at zero. -/
theorem count_init_get (flag : GainFlag) : gainCountInit.get flag = 0 := by
  cases flag <;> rfl

/-- The counter that is left is read back. -/
theorem only_count_same (flag : GainFlag) (value : Nat) :
    (onlyCount flag value).get flag = value := by
  cases flag <;> rfl

/-- The other counters are zero. -/
theorem only_count_other {flag other : GainFlag} (value : Nat) (different : flag ≠ other) :
    (onlyCount flag value).get other = 0 := by
  cases flag <;> cases other <;> first | rfl | exact absurd rfl different

/-- The two directions are counted by different flags. -/
theorem flags_different (gain : Nat) : flagUp gain ≠ flagDown gain := by
  unfold flagUp flagDown
  split <;> split <;> decide

/-- The counters after a change of gain. -/
theorem counts_changed (limits : GainLimits) {stage : Stage} {gain : Nat}
    (valid : gain < gainCount) :
    Counts limits ⟨gainSet gain { stage with cnt := gainCountInit }, []⟩ :=
  ⟨valid, fun _ => count_init_get _, fun _ => count_init_get _⟩

/-- A counted voltage: the number that are asked for was reached, and the gain is set, or
it was not, and only the counter has changed. -/
theorem count_volt_cases (flag : GainFlag) (cntThod gain : Nat) (stage : Stage) :
    (max 1 cntThod ≤ stage.cnt.get flag + 1 ∧
      countVolt flag cntThod gain stage = gainSet gain { stage with cnt := gainCountInit }) ∨
    (stage.cnt.get flag + 1 < max 1 cntThod ∧
      countVolt flag cntThod gain stage =
        { stage with cnt := onlyCount flag (stage.cnt.get flag + 1) }) := by
  rw [count_volt_cnt]
  split
  case isTrue enough => exact Or.inl ⟨by omega, rfl⟩
  case isFalse few => exact Or.inr ⟨by omega, rfl⟩

/-- No streak is sustained that was just broken. -/
theorem not_sustained {direction : Nat → Bool} {volt : Nat} (cntThod : Nat) (volts : List Nat)
    (outside : direction volt = false) :
    ¬Sustained direction (max 1 cntThod) (volt :: volts) := by
  rw [sustained_iff, streak_broken volts outside]
  omega

/-- A voltage that moves the gain up when it should. -/
theorem debounced_up {limits : GainLimits} {cntThod volt : Nat} {before : Observed}
    (after : (sample limits cntThod before volt).stage.nowGain = before.stage.nowGain + 1)
    (held : Sustained (outUp limits before.stage.nowGain) (max 1 cntThod) (volt :: before.recent))
    (broken : ¬Sustained (outDown limits before.stage.nowGain) (max 1 cntThod)
      (volt :: before.recent)) : Debounced limits cntThod before volt :=
  ⟨iff_of_true after held, iff_of_false (by omega) broken, fun _ => Or.inl after⟩

/-- A voltage that moves the gain down when it should. -/
theorem debounced_down {limits : GainLimits} {cntThod volt : Nat} {before : Observed}
    (after : (sample limits cntThod before volt).stage.nowGain + 1 = before.stage.nowGain)
    (broken : ¬Sustained (outUp limits before.stage.nowGain) (max 1 cntThod)
      (volt :: before.recent))
    (held : Sustained (outDown limits before.stage.nowGain) (max 1 cntThod)
      (volt :: before.recent)) : Debounced limits cntThod before volt :=
  ⟨iff_of_false (by omega) broken, iff_of_true after held, fun _ => Or.inr after⟩

/-- A voltage that leaves the gain when it should. -/
theorem debounced_unmoved {limits : GainLimits} {cntThod volt : Nat} {before : Observed}
    (after : (sample limits cntThod before volt).stage.nowGain = before.stage.nowGain)
    (brokenUp : ¬Sustained (outUp limits before.stage.nowGain) (max 1 cntThod)
      (volt :: before.recent))
    (brokenDown : ¬Sustained (outDown limits before.stage.nowGain) (max 1 cntThod)
      (volt :: before.recent)) : Debounced limits cntThod before volt :=
  ⟨iff_of_false (by omega) brokenUp, iff_of_false (by omega) brokenDown,
    fun moved => absurd after moved⟩

/-- A voltage above the band keeps the counters and moves the gain as it should. -/
theorem sample_up {limits : GainLimits} {cntThod volt : Nat} {observed : Observed}
    (counts : Counts limits observed) (up : outUp limits observed.stage.nowGain volt = true)
    (notDown : outDown limits observed.stage.nowGain volt = false) :
    Counts limits (sample limits cntThod observed volt) ∧
      Debounced limits cntThod observed volt := by
  obtain ⟨stage, recent⟩ := observed
  have below : stage.nowGain < gainH := out_up_below up
  have counter := counts.up below
  have longer := streak_more recent up
  have broken := not_sustained cntThod recent notDown
  have sustained := sustained_iff (outUp limits stage.nowGain) (max 1 cntThod) (volt :: recent)
  have result := auto_switch_up cntThod stage up
  simp only at counter longer broken sustained result
  rcases count_volt_cases (flagUp stage.nowGain) cntThod (stage.nowGain + 1) stage with
    ⟨enough, switched⟩ | ⟨few, counted⟩
  · have after : sample limits cntThod ⟨stage, recent⟩ volt =
        ⟨gainSet (stage.nowGain + 1) { stage with cnt := gainCountInit }, []⟩ := by
      simp [sample, result, switched, gainSet]
    refine ⟨after ▸ counts_changed limits (Nat.succ_lt_succ below), ?_⟩
    exact debounced_up (by rw [after]; rfl) (sustained.mpr (by omega)) broken
  · have after : sample limits cntThod ⟨stage, recent⟩ volt =
        ⟨⟨onlyCount (flagUp stage.nowGain) (stage.cnt.get (flagUp stage.nowGain) + 1),
          stage.position, stage.nowGain⟩, volt :: recent⟩ := by
      simp [sample, result, counted]
    refine ⟨?_, ?_⟩
    · rw [after]
      refine ⟨counts.valid, fun _ => ?_, fun _ => ?_⟩
      · simp only
        rw [only_count_same, longer, counter]
      · simp only
        rw [only_count_other _ (flags_different stage.nowGain), streak_broken recent notDown]
    · exact debounced_unmoved (by rw [after])
        (fun held => absurd (sustained.mp held) (by omega)) broken

/-- A voltage below the band keeps the counters and moves the gain as it should. -/
theorem sample_down {limits : GainLimits} {cntThod volt : Nat} {observed : Observed}
    (counts : Counts limits observed) (notUp : outUp limits observed.stage.nowGain volt = false)
    (down : outDown limits observed.stage.nowGain volt = true) :
    Counts limits (sample limits cntThod observed volt) ∧
      Debounced limits cntThod observed volt := by
  obtain ⟨stage, recent⟩ := observed
  have positive : 0 < stage.nowGain := out_down_above down
  have valid : stage.nowGain < gainCount := counts.valid
  have counter := counts.down positive
  have longer := streak_more recent down
  have broken := not_sustained cntThod recent notUp
  have sustained := sustained_iff (outDown limits stage.nowGain) (max 1 cntThod) (volt :: recent)
  have result := auto_switch_down cntThod stage valid down notUp
  simp only at counter longer broken sustained result
  rcases count_volt_cases (flagDown stage.nowGain) cntThod (stage.nowGain - 1) stage with
    ⟨enough, switched⟩ | ⟨few, counted⟩
  · have changed : stage.nowGain - 1 ≠ stage.nowGain := by omega
    have after : sample limits cntThod ⟨stage, recent⟩ volt =
        ⟨gainSet (stage.nowGain - 1) { stage with cnt := gainCountInit }, []⟩ := by
      simp [sample, result, switched, gainSet, changed]
    refine ⟨after ▸ counts_changed limits (by omega), ?_⟩
    exact debounced_down (by rw [after]; exact Nat.sub_add_cancel positive) broken
      (sustained.mpr (by omega))
  · have after : sample limits cntThod ⟨stage, recent⟩ volt =
        ⟨⟨onlyCount (flagDown stage.nowGain) (stage.cnt.get (flagDown stage.nowGain) + 1),
          stage.position, stage.nowGain⟩, volt :: recent⟩ := by
      simp [sample, result, counted]
    refine ⟨?_, ?_⟩
    · rw [after]
      refine ⟨counts.valid, fun _ => ?_, fun _ => ?_⟩
      · simp only
        rw [only_count_other _ (flags_different stage.nowGain).symm, streak_broken recent notUp]
      · simp only
        rw [only_count_same, longer, counter]
    · exact debounced_unmoved (by rw [after]) broken
        (fun held => absurd (sustained.mp held) (by omega))

/-- A voltage inside the band that finds the counters at zero leaves them and the gain. -/
theorem sample_inside {limits : GainLimits} {cntThod volt : Nat} {observed : Observed}
    (counts : Counts limits observed) (notUp : outUp limits observed.stage.nowGain volt = false)
    (notDown : outDown limits observed.stage.nowGain volt = false)
    (zero : observed.stage.cnt = gainCountInit) :
    Counts limits (sample limits cntThod observed volt) ∧
      Debounced limits cntThod observed volt := by
  obtain ⟨stage, recent⟩ := observed
  have after : sample limits cntThod ⟨stage, recent⟩ volt = ⟨stage, volt :: recent⟩ := by
    simp [sample, auto_switch_inside cntThod stage notUp notDown]
  have brokenUp := not_sustained cntThod recent notUp
  have brokenDown := not_sustained cntThod recent notDown
  simp only at zero brokenUp brokenDown
  refine ⟨?_, ?_⟩
  · rw [after]
    refine ⟨counts.valid, fun _ => ?_, fun _ => ?_⟩
    · simp only
      rw [zero, count_init_get, streak_broken recent notUp]
    · simp only
      rw [zero, count_init_get, streak_broken recent notDown]
  · exact debounced_unmoved (by rw [after]) brokenUp brokenDown

/-- A regular voltage keeps the counters and moves the gain as it should. -/
theorem sample_regular {limits : GainLimits} {cntThod volt : Nat} {observed : Observed}
    (counts : Counts limits observed) (regular : Regular limits observed volt) :
    Counts limits (sample limits cntThod observed volt) ∧
      Debounced limits cntThod observed volt := by
  obtain ⟨oneWay, zero⟩ := regular
  cases up : outUp limits observed.stage.nowGain volt with
  | true =>
    have notDown : outDown limits observed.stage.nowGain volt = false :=
      Bool.not_eq_true _ ▸ fun down => oneWay ⟨up, down⟩
    exact sample_up counts up notDown
  | false =>
    cases down : outDown limits observed.stage.nowGain volt with
    | true => exact sample_down counts up down
    | false => exact sample_inside counts up down (zero up down)

/-- An amplifier whose gain was just set. -/
def started (gain : Nat) : Observed := ⟨⟨gainCountInit, gain, gain⟩, []⟩

/-- In every run of regular voltages, each moves the gain exactly if the latest voltages
have all asked for it. -/
theorem gain_switching_debounced (limits : GainLimits) (cntThod gain : Nat)
    (valid : gain < gainCount) (volts : List Nat)
    (regular : Along (sample limits cntThod) (Regular limits) (started gain) volts) :
    ∀ earlier volt rest, volts = earlier ++ volt :: rest →
      Debounced limits cntThod (run (sample limits cntThod) (started gain) earlier) volt := by
  intro earlier volt rest split
  rw [split, along_append] at regular
  obtain ⟨before, here, _⟩ := regular
  have start : Counts limits (started gain) :=
    ⟨valid, fun _ => count_init_get _, fun _ => count_init_get _⟩
  have preserved : ∀ observed volt, Counts limits observed → Regular limits observed volt →
      Counts limits (sample limits cntThod observed volt) :=
    fun _ _ counts regular => (sample_regular counts regular).1
  have counts := along_invariant (sample limits cntThod) preserved (started gain) start earlier
    before
  exact (sample_regular counts here).2

/-- Bounds at 100 and 10 and factors of one. -/
def plainLimits : GainLimits := ⟨100, 10, 10, 0x3ff0000000000000, 0x3ff0000000000000⟩

/-- Two voltages above the band in a row. -/
theorem two_in_a_row :
    Along (sample plainLimits 2) (Regular plainLimits) (started gainL) [200, 200] ∧
      (run (sample plainLimits 2) (started gainL) [200, 200]).stage.nowGain = gainM ∧
      Debounced plainLimits 2 (run (sample plainLimits 2) (started gainL) [200]) 200 := by
  have regular : Along (sample plainLimits 2) (Regular plainLimits) (started gainL) [200, 200] :=
    ⟨by decide, by decide, True.intro⟩
  refine ⟨regular, by decide, ?_⟩
  exact gain_switching_debounced plainLimits 2 gainL (by decide) [200, 200] regular [200] 200 [] rfl

/-- Two voltages above the band with one inside it between them change the gain. -/
theorem interrupted_rise_switches :
    ¬Debounced plainLimits 2 (run (sample plainLimits 2) (started gainL) [200, 50]) 200 := by
  intro debounced
  have held := debounced.up.mp (by decide)
  rw [sustained_iff] at held
  exact absurd held (by decide)

end Pyrometer.GainDebounce
