import Pyrometer.TemperatureConversion

/-!
# The folded network

`ratio2temp` runs the network of 64 neurons on the ratio as it is, and gives the temperature as it
is: the parameters hold the weights with the mean and the deviation of both folded in, as the
comments at its head say. The network that was trained takes the ratio in deviations from its mean
and gives the temperature in such. Both give the same, and no small change of the ratio makes a
large one of the temperature.
-/

namespace Pyrometer.NetworkFolding

open TemperatureConversion

/-- The network as it was trained. -/
structure Trained (K : Type) where
  fc1Weight : ℕ → K
  fc1Bias : ℕ → K
  fc2Weight : ℕ → K
  fc2Bias : K
  meanRatio : K
  stdRatio : K
  meanTemp : K
  stdTemp : K

section

variable {K : Type} [Field K]

/-- The weights that the comments give. -/
def Trained.folded (net : Trained K) : NetworkPara K where
  effectiveW1 := fun i => net.fc1Weight i / net.stdRatio
  effectiveB1 := fun i => net.fc1Bias i - net.fc1Weight i * net.meanRatio / net.stdRatio
  effectiveW2 := fun i => net.fc2Weight i * net.stdTemp
  effectiveB2 := net.fc2Bias * net.stdTemp + net.meanTemp

variable [LinearOrder K]

/-- A neuron of the first layer. -/
def Trained.hidden (net : Trained K) (input : K) (i : ℕ) : K :=
  max 0 (net.fc1Weight i * input + net.fc1Bias i)

/-- The temperature that the trained network gives. -/
def Trained.temperature (net : Trained K) (ratio : K) : K :=
  (∑ i ∈ Finset.range 64, net.fc2Weight i * net.hidden ((ratio - net.meanRatio) / net.stdRatio) i +
    net.fc2Bias) * net.stdTemp + net.meanTemp

/-- By how much the temperature changes at most with the ratio. -/
def Trained.steepness (net : Trained K) : K :=
  ∑ i ∈ Finset.range 64, |net.fc2Weight i * net.stdTemp| * |net.fc1Weight i / net.stdRatio|

/-- The first layer keeps what is positive. -/
theorem fc1_relu_max (network : NetworkPara K) (ratio : K) (i : ℕ) :
    fc1Relu network ratio i =
      max 0 (network.effectiveW1 i * ratio + network.effectiveB1 i) :=
  positive_part _

/-- The loop over the second layer is a sum. -/
theorem fc2_out_sum (network : NetworkPara K) (ratio : K) (num : ℕ) :
    fc2Out network ratio num =
      ∑ i ∈ Finset.range num, network.effectiveW2 i * fc1Relu network ratio i := by
  induction num with
  | zero => rfl
  | succ num inductionHypothesis =>
    rw [fc2Out, Finset.sum_range_succ, inductionHypothesis]

/-- A folded neuron of the first layer is the trained one. -/
theorem folded_hidden (net : Trained K) (ratio : K) (i : ℕ) :
    fc1Relu net.folded ratio i =
      net.hidden ((ratio - net.meanRatio) / net.stdRatio) i := by
  have line : net.fc1Weight i / net.stdRatio * ratio +
      (net.fc1Bias i - net.fc1Weight i * net.meanRatio / net.stdRatio) =
        net.fc1Weight i * ((ratio - net.meanRatio) / net.stdRatio) + net.fc1Bias i := by
    ring
  rw [fc1_relu_max, Trained.hidden]
  exact congrArg (max 0) line

variable [IsStrictOrderedRing K]

/-- What is kept of two numbers is no further apart than they are. -/
theorem abs_max_zero_sub (first second : K) : |max 0 first - max 0 second| ≤ |first - second| := by
  rw [max_comm 0 first, max_comm 0 second]
  exact abs_max_sub_max_le_abs first second 0

/-- Between two ratios a neuron changes by no more than its weight allows. -/
theorem fc1_relu_close (network : NetworkPara K) (first second : K) (i : ℕ) :
    |fc1Relu network first i - fc1Relu network second i| ≤
      |network.effectiveW1 i| * |first - second| := by
  rw [fc1_relu_max, fc1_relu_max, ← abs_mul, mul_sub]
  refine (abs_max_zero_sub _ _).trans (le_of_eq (congrArg abs ?_))
  ring

/-- Between two ratios the sum changes by no more than the weights allow. Induct on the neurons. -/
theorem fc2_out_close (network : NetworkPara K) (first second : K) (num : ℕ) :
    |fc2Out network first num - fc2Out network second num| ≤
      (∑ i ∈ Finset.range num, |network.effectiveW2 i| * |network.effectiveW1 i|) *
        |first - second| := by
  induction num with
  | zero => simp [fc2Out]
  | succ num inductionHypothesis =>
    have split : fc2Out network first (num + 1) - fc2Out network second (num + 1) =
        (fc2Out network first num - fc2Out network second num) +
          network.effectiveW2 num * (fc1Relu network first num - fc1Relu network second num) := by
      rw [fc2Out, fc2Out]
      ring
    have neuron : |network.effectiveW2 num *
        (fc1Relu network first num - fc1Relu network second num)| ≤
          |network.effectiveW2 num| * |network.effectiveW1 num| * |first - second| := by
      rw [abs_mul, mul_assoc]
      exact mul_le_mul_of_nonneg_left (fc1_relu_close network first second num) (abs_nonneg _)
    rw [split, Finset.sum_range_succ, add_mul]
    exact (abs_add_le _ _).trans (add_le_add inductionHypothesis neuron)

/-- `ratio2temp` with the folded weights gives what the trained network gives, for every ratio, and
between two ratios the temperature changes by no more than the steepness times their distance. -/
theorem network_folded (net : Trained K) :
    (∀ ratio, ratio2temp net.folded ratio = net.temperature ratio) ∧
      ∀ first second, |ratio2temp net.folded first - ratio2temp net.folded second| ≤
        net.steepness * |first - second| := by
  constructor
  · intro ratio
    have layer : fc2Out net.folded ratio 64 = (∑ i ∈ Finset.range 64,
        net.fc2Weight i * net.hidden ((ratio - net.meanRatio) / net.stdRatio) i) *
          net.stdTemp := by
      rw [fc2_out_sum, Finset.sum_mul]
      refine Finset.sum_congr rfl fun i _ => ?_
      rw [folded_hidden]
      exact mul_right_comm _ _ _
    rw [ratio2temp, layer, Trained.temperature, add_mul, add_assoc]
    rfl
  · intro first second
    rw [ratio2temp, ratio2temp, add_sub_add_right_eq_sub]
    exact fc2_out_close net.folded first second 64

end

/-- One neuron, for ratios around one and temperatures around ten. -/
def single : Trained ℚ where
  fc1Weight := fun i => if i = 0 then 2 else 0
  fc1Bias := fun _ => 0
  fc2Weight := fun i => if i = 0 then 5 else 0
  fc2Bias := 0
  meanRatio := 1
  stdRatio := 2
  meanTemp := 10
  stdTemp := 100

/-- A ratio of three is one deviation above the mean. -/
theorem network_folded_single : ratio2temp single.folded 3 = 1010 :=
  ((network_folded single).1 3).trans (by decide +kernel)

end Pyrometer.NetworkFolding
