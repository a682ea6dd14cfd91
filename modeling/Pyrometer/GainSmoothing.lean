import Pyrometer.Runs
import Pyrometer.Truncation

/-!
# Smoothing behind a gain change

After a change of the gain `switch_temp_smooth` leads the published temperature over to
the measured one, one entry of `smooth_table_100` a cycle, unless the two are far apart.
A gain change starts it with the temperature published last; the count stays as it is.
Only `get_temp` calls it, once a cycle and with 100 as the number of steps. Its result
is what the next call starts from. The smoothing rate it is given is not used.

All numbers are exact. What stands behind the table in memory is unknown, so it is a
parameter. How many cycles a smoothing has lasted is counted beside the program.
-/

namespace Pyrometer.GainSmoothing

open Runs Truncation

/-- `smooth_table_100`. -/
def smoothTable100 : List ℚ :=
  [2.9125283e-4, 1.1560470e-3, 2.5852596e-3, 4.5696111e-3, 7.0996676e-3, 1.0165843e-2,
    1.3758399e-2, 1.7867454e-2, 2.2482975e-2, 2.7594790e-2, 3.3192584e-2, 3.9265906e-2,
    4.5804167e-2, 5.2796646e-2, 6.0232493e-2, 6.8100728e-2, 7.6390249e-2, 8.5089831e-2,
    9.4188131e-2, 1.0367369e-1, 1.1353493e-1, 1.2376018e-1, 1.3433765e-1, 1.4525545e-1,
    1.5650158e-1, 1.6806397e-1, 1.7993043e-1, 1.9208869e-1, 2.0452641e-1, 2.1723113e-1,
    2.3019034e-1, 2.4339146e-1, 2.5682182e-1, 2.7046869e-1, 2.8431927e-1, 2.9836070e-1,
    3.1258008e-1, 3.2696443e-1, 3.4150074e-1, 3.5617594e-1, 3.7097695e-1, 3.8589061e-1,
    4.0090374e-1, 4.1600316e-1, 4.3117563e-1, 4.4640789e-1, 4.6168667e-1, 4.7699870e-1,
    4.9233068e-1, 5.0766932e-1, 5.2300130e-1, 5.3831333e-1, 5.5359211e-1, 5.6882437e-1,
    5.8399684e-1, 5.9909626e-1, 6.1410939e-1, 6.2902305e-1, 6.4382406e-1, 6.5849926e-1,
    6.7303557e-1, 6.8741992e-1, 7.0163930e-1, 7.1568073e-1, 7.2953131e-1, 7.4317818e-1,
    7.5660854e-1, 7.6980966e-1, 7.8276887e-1, 7.9547359e-1, 8.0791131e-1, 8.2006957e-1,
    8.3193603e-1, 8.4349842e-1, 8.5474455e-1, 8.6566235e-1, 8.7623982e-1, 8.8646507e-1,
    8.9632631e-1, 9.0581187e-1, 9.1491017e-1, 9.2360975e-1, 9.3189927e-1, 9.3976751e-1,
    9.4720335e-1, 9.5419583e-1, 9.6073409e-1, 9.6680742e-1, 9.7240521e-1, 9.7751703e-1,
    9.8213255e-1, 9.8624160e-1, 9.8983416e-1, 9.9290033e-1, 9.9543039e-1, 9.9741474e-1,
    9.9884395e-1, 9.9970875e-1, 1.0000000e0, 9.9970875e-1]

/-- The fields of `gain_sw_data` that smoothing uses, and the cycles it has lasted. -/
structure Smoothing where
  smoothSta : Bool
  smoothLastTemp : ℚ
  smoothCount : Nat
  cycles : Nat

/-- What a call returns, what it leaves, and the entry of the table it has read. -/
structure Outcome where
  smoothTemp : ℚ
  smoothing : Smoothing
  entry : Option Nat

/-- An entry of the table, or what stands behind it. -/
def tableEntry (behind : Nat → ℚ) (index : Nat) : ℚ := (smoothTable100[index]?).getD (behind index)

/-- `switch_temp_smooth`. -/
def switchTempSmooth (behind : Nat → ℚ) (smoothCount : Nat) (smoothing : Smoothing)
    (currentTemp : ℚ) : Outcome :=
  if 70 < |cut (smoothing.smoothLastTemp - currentTemp)| then
    ⟨currentTemp, { smoothing with smoothSta := false, smoothCount := 0 }, none⟩
  else
    let smoothTemp := smoothing.smoothLastTemp +
      (currentTemp - smoothing.smoothLastTemp) * tableEntry behind smoothing.smoothCount / 8
    let later : Smoothing :=
      { smoothing with
        smoothLastTemp := smoothTemp
        smoothCount := smoothing.smoothCount + 1
        cycles := smoothing.cycles + 1 }
    let left : Smoothing :=
      if smoothCount < smoothing.smoothCount + 1 then
        { later with smoothCount := 0, smoothSta := false }
      else later
    ⟨smoothTemp, left, some smoothing.smoothCount⟩

/-- A gain change in `temp_task` with the temperature published last, or the measured
temperature of a cycle in `get_temp`. -/
inductive Event where
  | gainSwitch (targetTemp : ℚ)
  | cycle (ratioTemp : ℚ)

/-- One step. A cycle smooths only while smoothing is on. -/
def step (behind : Nat → ℚ) (smoothing : Smoothing) : Event → Smoothing
  | .gainSwitch targetTemp =>
      { smoothing with smoothSta := true, smoothLastTemp := targetTemp, cycles := 0 }
  | .cycle ratioTemp =>
      if smoothing.smoothSta then (switchTempSmooth behind 100 smoothing ratioTemp).smoothing
      else smoothing

/-- Before the first gain change. -/
def start : Smoothing := ⟨false, 0, 0, 0⟩

/-- What a cycle of smoothing should do: it reads the table only, its result lies between
the two temperatures, it is no more than the hundredth, it ends smoothing when the two
are more than 70 degrees apart, and wherever it ends it the count is back at 0. -/
structure Smooth (behind : Nat → ℚ) (smoothing : Smoothing) (ratioTemp : ℚ) : Prop where
  inside : ∀ index, (switchTempSmooth behind 100 smoothing ratioTemp).entry = some index →
    index < smoothTable100.length
  between :
    min smoothing.smoothLastTemp ratioTemp ≤
        (switchTempSmooth behind 100 smoothing ratioTemp).smoothTemp ∧
      (switchTempSmooth behind 100 smoothing ratioTemp).smoothTemp ≤
        max smoothing.smoothLastTemp ratioTemp
  bounded : (switchTempSmooth behind 100 smoothing ratioTemp).smoothing.cycles ≤ 100
  jump : 70 < |smoothing.smoothLastTemp - ratioTemp| →
    (switchTempSmooth behind 100 smoothing ratioTemp).smoothing.smoothSta = false
  reset : (switchTempSmooth behind 100 smoothing ratioTemp).smoothing.smoothSta = false →
    (switchTempSmooth behind 100 smoothing ratioTemp).smoothing.smoothCount = 0

/-- What every step should do: a cycle smooths as it should, and a gain change starts
from the first entry of the table. -/
def Right (behind : Nat → ℚ) (smoothing : Smoothing) : Event → Prop
  | .gainSwitch targetTemp => (step behind smoothing (.gainSwitch targetTemp)).smoothCount = 0
  | .cycle ratioTemp => smoothing.smoothSta = true → Smooth behind smoothing ratioTemp

/-- Where the steps do what they should: a gain change finds the count at 0; and in a
cycle of smoothing the two temperatures are 71 degrees apart or more, or they are no
more than 70 degrees apart and there have been fewer than 100 cycles on the count. -/
def Covered (smoothing : Smoothing) : Event → Prop
  | .gainSwitch _ => smoothing.smoothCount = 0
  | .cycle ratioTemp => smoothing.smoothSta = true →
      71 ≤ |smoothing.smoothLastTemp - ratioTemp| ∨
        (|smoothing.smoothLastTemp - ratioTemp| ≤ 70 ∧ smoothing.smoothCount < 100)

/-- What holds between any two steps. -/
structure Consistent (smoothing : Smoothing) : Prop where
  counted : smoothing.smoothCount ≤ 100
  cycles : smoothing.smoothSta = true → smoothing.cycles ≤ smoothing.smoothCount

/-- The table has 100 entries. -/
theorem table_length : smoothTable100.length = 100 := rfl

/-- Every entry of the table is a weight. -/
theorem table_weights : ∀ weight ∈ smoothTable100, 0 ≤ weight ∧ weight ≤ 1 := by
  decide +kernel

/-- An entry inside the table is a weight. -/
theorem entry_weight (behind : Nat → ℚ) {index : Nat} (inside : index < 100) :
    0 ≤ tableEntry behind index ∧ tableEntry behind index ≤ 1 := by
  have below : index < smoothTable100.length := inside
  rw [tableEntry, List.getElem?_eq_getElem below, Option.getD_some]
  exact table_weights _ (List.getElem_mem below)

/-- A jump is what reaches 71 degrees: the difference is compared without its fraction. -/
theorem jump_iff (smoothing : Smoothing) (ratioTemp : ℚ) :
    70 < |cut (smoothing.smoothLastTemp - ratioTemp)| ↔
      71 ≤ |smoothing.smoothLastTemp - ratioTemp| := by
  rw [lt_abs_cut]
  norm_num

/-- At a jump the measured temperature is returned, and smoothing ends with the count at 0. -/
theorem jump_outcome (behind : Nat → ℚ) {smoothing : Smoothing} {ratioTemp : ℚ}
    (jump : 71 ≤ |smoothing.smoothLastTemp - ratioTemp|) :
    switchTempSmooth behind 100 smoothing ratioTemp =
      ⟨ratioTemp, { smoothing with smoothSta := false, smoothCount := 0 }, none⟩ := by
  rw [switchTempSmooth, if_pos ((jump_iff smoothing ratioTemp).mpr jump)]

/-- A weight of at most an eighth leads to a temperature between the two. -/
theorem led_between (last current weight : ℚ) (nonneg : 0 ≤ weight) (small : weight ≤ 1) :
    min last current ≤ last + (current - last) * weight / 8 ∧
      last + (current - last) * weight / 8 ≤ max last current := by
  rcases le_total last current with rising | falling
  · rw [min_eq_left rising, max_eq_right rising]
    have share := mul_le_mul_of_nonneg_left small (sub_nonneg.mpr rising)
    have positive := mul_nonneg (sub_nonneg.mpr rising) nonneg
    constructor <;> linarith
  · rw [min_eq_right falling, max_eq_left falling]
    have share := mul_le_mul_of_nonneg_left small (sub_nonneg.mpr falling)
    have positive := mul_nonneg (sub_nonneg.mpr falling) nonneg
    constructor <;> linarith

/-- Without a jump the entry that is counted is read, and the result is the temperature
led towards the measured one. -/
theorem led_outcome (behind : Nat → ℚ) {smoothing : Smoothing} {ratioTemp : ℚ}
    (near : ¬ 71 ≤ |smoothing.smoothLastTemp - ratioTemp|) :
    let outcome := switchTempSmooth behind 100 smoothing ratioTemp
    outcome.entry = some smoothing.smoothCount ∧
      outcome.smoothTemp = smoothing.smoothLastTemp +
        (ratioTemp - smoothing.smoothLastTemp) * tableEntry behind smoothing.smoothCount / 8 ∧
      outcome.smoothing.cycles = smoothing.cycles + 1 ∧
      outcome.smoothing.smoothSta =
        (if 100 < smoothing.smoothCount + 1 then false else smoothing.smoothSta) ∧
      outcome.smoothing.smoothCount =
        (if 100 < smoothing.smoothCount + 1 then 0 else smoothing.smoothCount + 1) := by
  have noJump := mt (jump_iff smoothing ratioTemp).mp near
  simp only [switchTempSmooth, noJump, if_false]
  by_cases last : 100 < smoothing.smoothCount + 1 <;> simp [last]

/-- A cycle of smoothing does what it should exactly where that is covered. -/
theorem smooth_iff (behind : Nat → ℚ) {smoothing : Smoothing} (consistent : Consistent smoothing)
    (on : smoothing.smoothSta = true) (ratioTemp : ℚ) :
    Smooth behind smoothing ratioTemp ↔
      71 ≤ |smoothing.smoothLastTemp - ratioTemp| ∨
        (|smoothing.smoothLastTemp - ratioTemp| ≤ 70 ∧ smoothing.smoothCount < 100) := by
  have counted := consistent.counted
  have cycles := consistent.cycles on
  by_cases jump : 71 ≤ |smoothing.smoothLastTemp - ratioTemp|
  · refine iff_of_true ?_ (.inl jump)
    have outcome := jump_outcome behind jump
    constructor <;> simp [outcome]
    exact cycles.trans counted
  · obtain ⟨entry, result, lasted, still, count⟩ := led_outcome behind jump
    constructor
    · intro smooth
      have inside := smooth.inside _ entry
      rw [table_length] at inside
      refine .inr ⟨?_, inside⟩
      by_contra far
      have ended := smooth.jump (not_le.mp far)
      rw [still, if_neg (by omega), on] at ended
      cases ended
    · rintro (far | ⟨close, inside⟩)
      · exact absurd far jump
      · obtain ⟨nonneg, small⟩ := entry_weight behind inside
        constructor
        · intro index read
          rw [entry] at read
          exact Option.some.inj read ▸ inside
        · rw [result]
          exact led_between _ _ _ nonneg small
        · rw [lasted]
          omega
        · exact fun far => absurd close far.not_ge
        · intro ended
          rw [still, if_neg (by omega), on] at ended
          cases ended

/-- Every step does what it should exactly where that is covered. -/
theorem right_iff (behind : Nat → ℚ) (smoothing : Smoothing) (event : Event)
    (consistent : Consistent smoothing) :
    Right behind smoothing event ↔ Covered smoothing event := by
  cases event with
  | gainSwitch targetTemp => exact Iff.rfl
  | cycle ratioTemp =>
    exact forall_congr' fun on => smooth_iff behind consistent on ratioTemp

/-- Every step keeps the count within the steps of a smoothing. -/
theorem step_consistent (behind : Nat → ℚ) (smoothing : Smoothing) (event : Event)
    (consistent : Consistent smoothing) : Consistent (step behind smoothing event) := by
  cases event with
  | gainSwitch targetTemp => exact ⟨consistent.counted, fun _ => Nat.zero_le _⟩
  | cycle ratioTemp =>
    by_cases on : smoothing.smoothSta = true
    · rw [step, if_pos on]
      have counted := consistent.counted
      have cycles := consistent.cycles on
      by_cases jump : 71 ≤ |smoothing.smoothLastTemp - ratioTemp|
      · rw [jump_outcome behind jump]
        exact ⟨Nat.zero_le _, fun still => by cases still⟩
      · obtain ⟨-, -, lasted, still, count⟩ := led_outcome behind jump
        constructor
        · rw [count]
          split <;> omega
        · intro stays
          rw [still] at stays
          rw [lasted, count]
          split
          case isTrue last =>
            rw [if_pos last] at stays
            cases stays
          case isFalse more => omega
    · rwa [step, if_neg on]

/-- In every run, whatever stands behind the table: all steps do what they should
exactly when all of them are covered. -/
theorem smoothing_right_iff (behind : Nat → ℚ) (events : List Event) :
    Along (step behind) (Right behind) start events ↔
      Along (step behind) Covered start events := by
  have initial : Consistent start := ⟨Nat.zero_le _, fun still => by cases still⟩
  exact along_iff _ (step_consistent behind) (right_iff behind) _ initial events

/-- A gain change at 1000 degrees, and then 100 cycles at the same temperature. -/
def steady : List Event := .gainSwitch 1000 :: List.replicate 100 (.cycle 1000)

/-- After them smoothing is still on, and the count is past the table. -/
theorem steady_on :
    let smoothing := run (step fun _ => 0) start steady
    smoothing.smoothSta = true ∧ smoothing.smoothLastTemp = 1000 ∧ smoothing.smoothCount = 100 := by
  decide +kernel

/-- The next cycle reads behind the table. -/
theorem steady_reads_behind :
    ¬ ∀ (behind : Nat → ℚ) (events : List Event),
      Along (step behind) (Right behind) start events := by
  intro always
  obtain ⟨on, last, count⟩ := steady_on
  have cycle := ((along_append _ start steady [.cycle 1000]).mp (always (fun _ => 0) _)).2.1
  have near : ¬ (71 : ℚ) ≤ |(run (step fun _ => 0) start steady).smoothLastTemp - 1000| := by
    norm_num [last]
  have inside := (cycle on).inside _ (led_outcome _ near).1
  rw [count, table_length] at inside
  exact Nat.lt_irrefl _ inside

end Pyrometer.GainSmoothing
