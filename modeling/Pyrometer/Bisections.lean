import Mathlib.Tactic
import Mathlib.Algebra.Order.Field.Basic

/-!
# Searching a root by halving

A search looks for the point where a falling function vanishes. A trial is an interval and
a point of it that is tried next, which need not be its middle. A trial that is not near
enough moves one end of the interval to its point, and the next one takes the middle. The
function falls strictly, and no faster than a bound, on an interval that holds the first
trial; the numbers are those of any ordered field.

The laws say that all trials lie around the root, that the search is as near as it says,
and after how many trials it is near.
-/

namespace Pyrometer.Bisections

variable {K : Type} [Field K] [LinearOrder K]

/-- An interval and the point of it that is tried. -/
structure Trial (K : Type) where
  minValue : K
  maxValue : K
  midValue : K

/-- Whether a search came near, the point that was tried last, and the trials it made. -/
structure Outcome (K : Type) where
  near : Bool
  value : K
  trials : List (Trial K)

/-- The middle of two points. -/
def middle (left right : K) : K := (left + right) / 2

/-- One end of the interval moves to the point, and its middle is taken. -/
def Trial.halved (trial : Trial K) (raise : Bool) : Trial K :=
  let minValue := if raise then trial.midValue else trial.minValue
  let maxValue := if raise then trial.maxValue else trial.midValue
  ⟨minValue, maxValue, middle minValue maxValue⟩

/-- The search, for the number of trials that are left; `value` is the point that was tried
before. -/
def search (excess : K → K) (tolerance : K) : Nat → K → Trial K → Outcome K
  | 0, value, _ => ⟨false, value, []⟩
  | left + 1, _, trial =>
    if |excess trial.midValue| < tolerance then ⟨true, trial.midValue, [trial]⟩
    else
      let rest := search excess tolerance left trial.midValue
        (trial.halved (decide (0 < excess trial.midValue)))
      { rest with trials := trial :: rest.trials }

/-- The function falls on an interval, and no faster than a bound. -/
structure Falls (excess : K → K) (low high bound : K) : Prop where
  falls : ∀ left right, low ≤ left → left < right → right ≤ high → excess right < excess left
  bounded : ∀ left right, low ≤ left → left ≤ right → right ≤ high →
    |excess left - excess right| ≤ bound * (right - left)

/-- A trial lies in an interval and around a root. -/
structure Brackets (low high root : K) (trial : Trial K) : Prop where
  low : low ≤ trial.minValue
  below : trial.minValue ≤ trial.midValue
  above : trial.midValue ≤ trial.maxValue
  high : trial.maxValue ≤ high
  least : trial.minValue ≤ root
  most : root ≤ trial.maxValue

variable {excess : K → K} {tolerance low high bound root : K}

/-- A search that came near is so. -/
theorem search_value (left : Nat) (value : K) (trial : Trial K)
    (near : (search excess tolerance left value trial).near = true) :
    |excess (search excess tolerance left value trial).value| < tolerance := by
  induction left generalizing value trial with
  | zero => cases near
  | succ left inductionHypothesis =>
    rw [search] at near ⊢
    split
    case isTrue here => exact here
    case isFalse apart =>
      rw [if_neg apart] at near
      exact inductionHypothesis _ _ near

/-- The function is positive before the root only. -/
theorem Falls.positive (falls : Falls excess low high bound) (zero : excess root = 0)
    {point : K} (inside : low ≤ point ∧ point ≤ high) (within : low ≤ root ∧ root ≤ high) :
    0 < excess point ↔ point < root := by
  constructor
  · intro positive
    by_contra notBefore
    rcases (not_lt.mp notBefore).lt_or_eq with after | same
    · have less := falls.falls root point within.1 after inside.2
      rw [zero] at less
      exact absurd positive less.not_gt
    · rw [← same, zero] at positive
      exact lt_irrefl _ positive
  · intro before
    have less := falls.falls point root inside.1 before within.2
    rwa [zero] at less

variable [IsStrictOrderedRing K]

/-- The middle of two points lies between them. -/
theorem middle_between {left right : K} (order : left ≤ right) :
    left ≤ middle left right ∧ middle left right ≤ right := by
  unfold middle
  constructor <;> linarith

/-- The trial after one around the root lies around the root. -/
theorem Brackets.halved (falls : Falls excess low high bound) (zero : excess root = 0)
    {trial : Trial K} (brackets : Brackets low high root trial) :
    Brackets low high root (trial.halved (decide (0 < excess trial.midValue))) := by
  have inside : low ≤ trial.midValue ∧ trial.midValue ≤ high :=
    ⟨brackets.low.trans brackets.below, brackets.above.trans brackets.high⟩
  have within : low ≤ root ∧ root ≤ high :=
    ⟨brackets.low.trans brackets.least, brackets.most.trans brackets.high⟩
  have positive := falls.positive zero inside within
  by_cases before : 0 < excess trial.midValue
  · have least := positive.mp before
    obtain ⟨below, above⟩ := middle_between brackets.above
    simp only [Trial.halved, before, decide_true, if_true]
    exact ⟨inside.1, below, above, brackets.high, least.le, brackets.most⟩
  · have most := not_lt.mp fun less => before (positive.mpr less)
    obtain ⟨below, above⟩ := middle_between brackets.below
    simp only [Trial.halved, before, decide_false, Bool.false_eq_true, if_false]
    exact ⟨brackets.low, below, above, inside.2, brackets.least, most⟩

/-- All trials of a search lie around the root. -/
theorem search_inside (falls : Falls excess low high bound) (zero : excess root = 0) (left : Nat)
    (value : K) {trial : Trial K} (brackets : Brackets low high root trial) :
    ∀ made ∈ (search excess tolerance left value trial).trials, Brackets low high root made := by
  induction left generalizing value trial with
  | zero => simp [search]
  | succ left inductionHypothesis =>
    intro made member
    rw [search] at member
    split at member
    · rw [List.mem_singleton] at member
      exact member ▸ brackets
    · rcases List.mem_cons.mp member with rfl | later
      · exact brackets
      · exact inductionHypothesis trial.midValue (brackets.halved falls zero) made later

/-- At the middle of an interval around the root the function is at most what half of the
interval allows for. -/
theorem Brackets.middle (falls : Falls excess low high bound) (zero : excess root = 0)
    (nonneg : 0 ≤ bound) {trial : Trial K} (brackets : Brackets low high root trial)
    (central : trial.midValue = middle trial.minValue trial.maxValue) :
    |excess trial.midValue| ≤ bound * ((trial.maxValue - trial.minValue) / 2) := by
  have first := brackets.least
  have last := brackets.most
  rw [Bisections.middle] at central
  rcases le_total trial.midValue root with before | after
  · have bounded := falls.bounded trial.midValue root (brackets.low.trans brackets.below) before
      (brackets.most.trans brackets.high)
    rw [zero, sub_zero] at bounded
    exact bounded.trans (mul_le_mul_of_nonneg_left (by linarith) nonneg)
  · have bounded := falls.bounded root trial.midValue (brackets.low.trans brackets.least) after
      (brackets.above.trans brackets.high)
    rw [zero, zero_sub, abs_neg] at bounded
    exact bounded.trans (mul_le_mul_of_nonneg_left (by linarith) nonneg)

/-- Half of the interval is left after a trial of its middle. -/
theorem halved_width {trial : Trial K}
    (central : trial.midValue = middle trial.minValue trial.maxValue) (raise : Bool) :
    (trial.halved raise).maxValue - (trial.halved raise).minValue =
      (trial.maxValue - trial.minValue) / 2 := by
  cases raise with
  | true =>
    simp only [Trial.halved, if_true, central, middle]
    ring
  | false =>
    simp only [Trial.halved, Bool.false_eq_true, if_false, central, middle]
    ring

/-- A search from the middle of an interval comes near once the halves are small. -/
theorem search_near_middle (falls : Falls excess low high bound) (zero : excess root = 0)
    (nonneg : 0 ≤ bound) (left : Nat) (value : K) {trial : Trial K}
    (brackets : Brackets low high root trial)
    (central : trial.midValue = middle trial.minValue trial.maxValue)
    (small : bound * ((trial.maxValue - trial.minValue) / 2) < 2 ^ left * tolerance) :
    (search excess tolerance (left + 1) value trial).near = true := by
  induction left generalizing value trial with
  | zero =>
    have near := brackets.middle falls zero nonneg central
    rw [pow_zero, one_mul] at small
    rw [search, if_pos (near.trans_lt small)]
  | succ left inductionHypothesis =>
    rw [search]
    split
    · rfl
    · refine inductionHypothesis trial.midValue (brackets.halved falls zero) rfl ?_
      rw [halved_width central]
      rw [pow_succ] at small
      linarith

/-- Any search comes near once the halves of the whole interval are small. -/
theorem search_near (falls : Falls excess low high bound) (zero : excess root = 0)
    (nonneg : 0 ≤ bound) (left : Nat) (value : K) {trial : Trial K}
    (brackets : Brackets low high root trial)
    (small : bound * ((high - low) / 2) < 2 ^ left * tolerance) :
    (search excess tolerance (left + 2) value trial).near = true := by
  rw [search]
  split
  · rfl
  · have next := brackets.halved falls zero
    refine search_near_middle falls zero nonneg left trial.midValue next rfl ?_
    refine lt_of_le_of_lt (mul_le_mul_of_nonneg_left ?_ nonneg) small
    have least := next.low
    have most := next.high
    linarith

end Pyrometer.Bisections
