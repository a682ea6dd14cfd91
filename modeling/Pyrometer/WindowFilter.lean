import Mathlib.Data.List.GetD
import Pyrometer.Selection
import Pyrometer.RingBuffers
import Pyrometer.BinaryFloats

/-!
# The moving average without extremes

`sliding_remove_average` keeps its samples in a ring of 500 cells and averages the
last few of them, as many as the length it is called with. A full window is copied to
a scratch array, where two randomised selections find the bounds within which its
elements are averaged. The field `sum` of the record is never used.

The sums are kept as the machine keeps them, modulo 2 ^ 64. The values of `rand()`
are a parameter: every call takes the next one of a sequence. The exponential average
of the same file has no caller and is not modelled.
-/

namespace Pyrometer.WindowFilter

open Selection RingBuffers

/-- `FILTER_LEN_MAX`. -/
def filterLenMax : Nat := 500

/-- A value as a variable of type `long long` keeps it. -/
def longLong (value : Int) : Int := Int.bmod value (2 ^ 64)

/-- `slid_remove_t`. -/
structure SlidRemove where
  buff : Nat → Int
  front : Nat
  count : Nat

/-- A record without samples. -/
def empty : SlidRemove := ⟨fun _ => 0, 0, 0⟩

/-- The stored samples, the oldest first. -/
def window (slid : SlidRemove) : List Int := slice filterLenMax slid.buff slid.front slid.count

/-- What is left of the values of `rand()` after the next one. -/
def later (draws : Nat → Nat) : Nat → Nat := fun turn => draws (turn + 1)

/-- The loop of `partition` for some remaining turns. The place is one more than the
variable `i` of the source. -/
def partitionLoop (pivot : Int) : Nat → Nat → Nat → (Nat → Int) → (Nat → Int) × Nat
  | 0, _, place, arr => (arr, place)
  | turns + 1, j, place, arr =>
      if arr j ≤ pivot then partitionLoop pivot turns (j + 1) (place + 1) (exchange arr place j)
      else partitionLoop pivot turns (j + 1) place arr

/-- `partition`: the array afterwards and the place of the pivot. -/
def partition (arr : Nat → Int) (low high : Nat) : (Nat → Int) × Nat :=
  let parted := partitionLoop (arr high) (high - low) low low arr
  (exchange parted.1 parted.2 high, parted.2)

/-- The cells before `next` were compared: the ones before `place` are up to the pivot
and the others above it. -/
structure Parted (pivot : Int) (low place next : Nat) (before arr : Nat → Int) : Prop where
  moved : Rearranged low next before arr
  started : low ≤ place
  reached : place ≤ next
  upTo : ∀ cell, low ≤ cell → cell < place → arr cell ≤ pivot
  above : ∀ cell, place ≤ cell → cell < next → pivot < arr cell

/-- A small element joins the cells before the place. -/
theorem parted_small {pivot : Int} {low place next : Nat} {before arr : Nat → Int}
    (parted : Parted pivot low place next before arr) (small : arr next ≤ pivot) :
    Parted pivot low (place + 1) (next + 1) before (exchange arr place next) := by
  obtain ⟨moved, started, reached, upTo, above⟩ := parted
  constructor
  case moved =>
    exact rearranged_trans (rearranged_mono moved (le_refl low) (by omega))
      (rearranged_exchange arr (by omega) (by omega))
  case started => omega
  case reached => omega
  case upTo =>
    intro cell inside before
    simp only [exchange]
    split_ifs with atPlace atNext
    · exact small
    · omega
    · exact upTo cell inside (by omega)
  case above =>
    intro cell inside before
    simp only [exchange]
    split_ifs with atPlace atNext
    · omega
    · exact above place (le_refl place) (by omega)
    · exact above cell (by omega) (by omega)

/-- A large element stays where it is. -/
theorem parted_large {pivot : Int} {low place next : Nat} {before arr : Nat → Int}
    (parted : Parted pivot low place next before arr) (large : ¬arr next ≤ pivot) :
    Parted pivot low place (next + 1) before arr := by
  obtain ⟨moved, started, reached, upTo, above⟩ := parted
  refine ⟨rearranged_mono moved (le_refl low) (by omega), started, by omega, upTo, ?_⟩
  intro cell inside before
  rcases Nat.lt_succ_iff_lt_or_eq.mp before with earlier | rfl
  · exact above cell inside earlier
  · exact not_le.mp large

/-- The loop compares all cells. -/
theorem partition_loop_parted {pivot : Int} {low : Nat} {before : Nat → Int} (turns : Nat) :
    ∀ {next place : Nat} {arr : Nat → Int}, Parted pivot low place next before arr →
      Parted pivot low (partitionLoop pivot turns next place arr).2 (next + turns) before
        (partitionLoop pivot turns next place arr).1 := by
  induction turns with
  | zero => exact fun parted => parted
  | succ turns inductionHypothesis =>
    intro next place arr parted
    rw [partitionLoop, ← Nat.add_assoc, Nat.add_right_comm]
    split
    case isTrue small => exact inductionHypothesis (parted_small parted small)
    case isFalse large => exact inductionHypothesis (parted_large parted large)

/-- A range around its pivot: a smaller or equal element is before it and a larger one
after it. -/
structure Around (low stop : Nat) (before : Nat → Int) (parted : (Nat → Int) × Nat) : Prop where
  moved : Rearranged low stop before parted.1
  started : low ≤ parted.2
  ended : parted.2 < stop
  upTo : ∀ value ∈ contents parted.1 low parted.2, value ≤ parted.1 parted.2
  above : ∀ value ∈ contents parted.1 (parted.2 + 1) stop, parted.1 parted.2 ≤ value

/-- `partition` puts its pivot between the smaller and the larger elements. -/
theorem partition_around (arr : Nat → Int) {low high : Nat} (ordered : low ≤ high) :
    Around low (high + 1) arr (partition arr low high) := by
  have start : Parted (arr high) low low low arr arr :=
    ⟨rearranged_refl low low arr, le_refl low, le_refl low, fun _ _ _ => by omega,
      fun _ _ _ => by omega⟩
  have parted := partition_loop_parted (high - low) start
  rw [Nat.add_sub_cancel' ordered] at parted
  unfold partition
  generalize partitionLoop (arr high) (high - low) low low arr = result at parted ⊢
  obtain ⟨cells, place⟩ := result
  obtain ⟨moved, started, reached, upTo, above⟩ := parted
  have pivotStays : cells high = arr high := rearranged_outside moved (Or.inr (le_refl high))
  have atPlace : exchange cells place high place = arr high := by
    simp [exchange, pivotStays]
  constructor
  case moved =>
    exact rearranged_trans (rearranged_mono moved (le_refl low) (by omega))
      (rearranged_exchange cells (by omega) (by omega))
  case started => exact started
  case ended => exact Nat.lt_succ_of_le reached
  case upTo =>
    intro value member
    obtain ⟨cell, inside, below, rfl⟩ := mem_contents.mp member
    show exchange cells place high cell ≤ exchange cells place high place
    have beforePlace : cell < place := below
    have beforeHigh : place ≤ high := reached
    rw [atPlace, exchange, if_neg (by omega), if_neg (by omega)]
    exact upTo cell inside beforePlace
  case above =>
    intro value member
    obtain ⟨cell, inside, below, rfl⟩ := mem_contents.mp member
    show exchange cells place high place ≤ exchange cells place high cell
    have afterPlace : place + 1 ≤ cell := inside
    rw [atPlace, exchange, if_neg (by omega)]
    split_ifs with atHigh
    · exact le_of_lt (above place (le_refl place) (by omega))
    · exact le_of_lt (above cell (by omega) (by omega))

/-- What a selection leaves: the value, the array and the remaining values of `rand()`. -/
structure Selected where
  value : Int
  arr : Nat → Int
  draws : Nat → Nat

/-- The array with a random element of a range as its last one, parted there. -/
def randomPartition (draws : Nat → Nat) (arr : Nat → Int) (low stop : Nat) : (Nat → Int) × Nat :=
  partition (exchange arr (low + draws 0 % (stop - low)) (stop - 1)) low (stop - 1)

/-- A random pivot is put between the smaller and the larger elements. -/
theorem random_partition_around (draws : Nat → Nat) (arr : Nat → Int) {low stop : Nat}
    (nonempty : low < stop) : Around low stop arr (randomPartition draws arr low stop) := by
  have drawn : draws 0 % (stop - low) < stop - low := Nat.mod_lt _ (by omega)
  have around := partition_around (exchange arr (low + draws 0 % (stop - low)) (stop - 1))
    (Nat.le_sub_one_of_lt nonempty)
  rw [Nat.sub_add_cancel (by omega)] at around
  exact { around with
    moved := rearranged_trans (rearranged_exchange arr (by omega) (by omega)) around.moved }

/-- The loop of `quick_select`. The range ends before `stop`, one more than the variable
`high` of the source. -/
def quickSelectLoop (draws : Nat → Nat) (arr : Nat → Int) (low stop k : Nat) : Selected :=
  if nonempty : low < stop then
    let parted := randomPartition draws arr low stop
    let leftSize := parted.2 - low + 1
    if leftSize = k then ⟨parted.1 parted.2, parted.1, later draws⟩
    else if k < leftSize then quickSelectLoop (later draws) parted.1 low parted.2 k
    else quickSelectLoop (later draws) parted.1 (parted.2 + 1) stop (k - leftSize)
  else ⟨-1, arr, draws⟩
termination_by stop - low
decreasing_by
  all_goals
    obtain ⟨_, started, ended, _, _⟩ := random_partition_around draws arr nonempty
    omega

/-- `quick_select`. -/
def quickSelect (draws : Nat → Nat) (arr : Nat → Int) (low stop k : Nat) : Selected :=
  if k = 0 ∨ stop - low < k then ⟨-1, arr, draws⟩ else quickSelectLoop draws arr low stop k

/-- The selection rearranged the range and found the value of the rank. -/
structure Selects (low stop k : Nat) (arr : Nat → Int) (selected : Selected) : Prop where
  moved : Rearranged low stop arr selected.arr
  ranked : Ranked (contents arr low stop) k selected.value

/-- A search that goes on before the pivot finds the value. -/
theorem selects_before {low stop k : Nat} {arr : Nat → Int} {parted : (Nat → Int) × Nat}
    {selected : Selected} (around : Around low stop arr parted)
    (selects : Selects low parted.2 k parted.1 selected) : Selects low stop k arr selected := by
  constructor
  case moved =>
    exact rearranged_trans around.moved
      (rearranged_mono selects.moved (le_refl low) (Nat.le_of_lt around.ended))
  case ranked =>
    rw [← contents_rearranged around.moved (le_refl low) (le_refl stop),
      contents_around around.started around.ended]
    exact ranked_lower around.upTo around.above selects.ranked

/-- A search that goes on after the pivot finds the value. -/
theorem selects_after {low stop k : Nat} {arr : Nat → Int} {parted : (Nat → Int) × Nat}
    {selected : Selected} (around : Around low stop arr parted) (far : parted.2 - low + 1 ≤ k)
    (selects : Selects (parted.2 + 1) stop (k - (parted.2 - low + 1)) parted.1 selected) :
    Selects low stop k arr selected := by
  constructor
  case moved =>
    exact rearranged_trans around.moved
      (rearranged_mono selects.moved (Nat.le_succ_of_le around.started) (le_refl stop))
  case ranked =>
    rw [← contents_rearranged around.moved (le_refl low) (le_refl stop),
      contents_around around.started around.ended]
    have ranked := ranked_upper around.upTo around.above selects.ranked
    rwa [contents_card, Nat.add_sub_cancel' far] at ranked

/-- A pivot of the rank is the value. -/
theorem selects_pivot {low stop : Nat} {arr : Nat → Int} {parted : (Nat → Int) × Nat}
    (draws : Nat → Nat) (around : Around low stop arr parted) :
    Selects low stop (parted.2 - low + 1) arr ⟨parted.1 parted.2, parted.1, draws⟩ := by
  refine ⟨around.moved, ?_⟩
  have ranked := ranked_pivot around.upTo around.above
  rwa [contents_card, ← contents_around around.started around.ended,
    contents_rearranged around.moved (le_refl low) (le_refl stop)] at ranked

/-- The loop ends with the value of its rank, whatever `rand()` returns. -/
theorem quick_select_loop_selects (draws : Nat → Nat) (arr : Nat → Int) (low stop k : Nat)
    (positive : 0 < k) (inside : k ≤ stop - low) :
    Selects low stop k arr (quickSelectLoop draws arr low stop k) := by
  induction draws, arr, low, stop, k using quickSelectLoop.induct with
  | case1 draws arr low stop nonempty parted leftSize =>
    rw [quickSelectLoop, dif_pos nonempty]
    simp only
    rw [if_pos rfl]
    exact selects_pivot (later draws) (random_partition_around draws arr nonempty)
  | case2 draws arr low stop k nonempty parted leftSize different near inductionHypothesis =>
    have around := random_partition_around draws arr nonempty
    rw [quickSelectLoop, dif_pos nonempty]
    simp only
    rw [if_neg different, if_pos near]
    have below : k < (randomPartition draws arr low stop).2 - low + 1 := near
    exact selects_before around (inductionHypothesis positive (by omega))
  | case3 draws arr low stop k nonempty parted leftSize different far inductionHypothesis =>
    have around := random_partition_around draws arr nonempty
    rw [quickSelectLoop, dif_pos nonempty]
    simp only
    rw [if_neg different, if_neg far]
    have reached : (randomPartition draws arr low stop).2 - low + 1 ≠ k := different
    have above : ¬k < (randomPartition draws arr low stop).2 - low + 1 := far
    have started : low ≤ (randomPartition draws arr low stop).2 := around.started
    exact selects_after around (by omega) (inductionHypothesis (by omega) (by omega))
  | case4 draws arr low stop k exhausted => omega

/-- `quick_select` finds the value of any rank of its range. -/
theorem quick_select_selects (draws : Nat → Nat) (arr : Nat → Int) {low stop k : Nat}
    (positive : 0 < k) (inside : k ≤ stop - low) :
    Selects low stop k arr (quickSelect draws arr low stop k) := by
  unfold quickSelect
  rw [if_neg (by omega)]
  exact quick_select_loop_selects draws arr low stop k positive inside

/-- The bits of `0.2` as a `float`. -/
def filterRate : Nat := 0x3e4ccccd

/-- `num_to_remove`, computed in single precision and truncated. -/
def numToRemove (rate size : Nat) : Nat :=
  (BinaryFloats.single.toInt32 (BinaryFloats.single.mul (BinaryFloats.single.mul rate 0x3f000000)
    (BinaryFloats.single.ofInt size))).toNat

/-- A loop that adds the elements of an array. -/
def sumLoop (data : Nat → Int) : Nat → Int
  | 0 => 0
  | turns + 1 => longLong (sumLoop data turns + data turns)

/-- The loop that adds and counts the elements of an array within two bounds. -/
def boundedLoop (start finish : Int) (data : Nat → Int) : Nat → Int × Nat
  | 0 => (0, 0)
  | turns + 1 =>
      let before := boundedLoop start finish data turns
      if start ≤ data turns ∧ data turns ≤ finish then
        (longLong (before.1 + data turns), before.2 + 1)
      else before

/-- `calculate_filtered_average`. -/
def calculateFilteredAverage (draws : Nat → Nat) (data : Nat → Int) (size rate : Nat) : Selected :=
  let removed := numToRemove rate size
  let start := quickSelect draws data 0 size (removed + 1)
  let finish := quickSelect start.draws start.arr 0 size (size - removed)
  let kept := boundedLoop start.value finish.value finish.arr size
  ⟨if 0 < kept.2 then Int.tdiv kept.1 kept.2 else -1, finish.arr, finish.draws⟩

/-- Superfluous samples are removed when the window became shorter. -/
def shrink (slid : SlidRemove) (size : Nat) : SlidRemove :=
  if size < slid.count then
    { slid with front := (slid.front + (slid.count - size)) % filterLenMax, count := size }
  else slid

/-- A sample is written behind the window, which moves on if it is full. -/
def push (slid : SlidRemove) (size : Nat) (newData : Int) : SlidRemove :=
  let buff := Function.update slid.buff ((slid.front + slid.count) % filterLenMax) newData
  if size ≤ slid.count then ⟨buff, (slid.front + 1) % filterLenMax, slid.count⟩
  else ⟨buff, slid.front, slid.count + 1⟩

/-- An element of the window by its age. -/
def element (slid : SlidRemove) (i : Nat) : Int := slid.buff ((slid.front + i) % filterLenMax)

/-- The loop that copies the window to the scratch array. -/
def copyLoop (slid : SlidRemove) (buffCopy : Nat → Int) : Nat → Nat → Int
  | 0 => buffCopy
  | turns + 1 => Function.update (copyLoop slid buffCopy turns) turns (element slid turns)

/-- What a call leaves: its result, the record, the scratch array, the indices of the
scratch array its copy loop wrote to, and the remaining values of `rand()`. -/
structure Averaged where
  value : Int
  slid : SlidRemove
  buffCopy : Nat → Int
  written : List Nat
  draws : Nat → Nat

/-- The filtered average of a full window. -/
def fullAverage (draws : Nat → Nat) (slid : SlidRemove) (size : Nat) (buffCopy : Nat → Int) :
    Averaged :=
  let filtered :=
    calculateFilteredAverage draws (copyLoop slid buffCopy size) size filterRate
  let value :=
    if filtered.value = -1 then Int.tdiv (sumLoop (element slid) size) size else filtered.value
  ⟨value, slid, filtered.arr, List.range size, filtered.draws⟩

/-- `sliding_remove_average`. -/
def slidingRemoveAverage (draws : Nat → Nat) (slid : SlidRemove) (requested : Nat) (newData : Int)
    (buffCopy : Nat → Int) : Averaged :=
  let size := if filterLenMax < requested then filterLenMax else requested
  let stored := push (shrink slid size) size newData
  if stored.count < size then
    ⟨Int.tdiv (sumLoop (element stored) stored.count) stored.count, stored, buffCopy, [], draws⟩
  else fullAverage draws stored size buffCopy

/-- The mean of some elements, truncated to an integer. -/
def truncatedMean (elements : List Int) : Int := Int.tdiv elements.sum elements.length

/-- The elements in ascending order. -/
def ascending (elements : List Int) : List Int := elements.insertionSort (· ≤ ·)

/-- The elements between the smallest and the largest that are left when a tenth of them
is set aside at either end. -/
def trimmed (elements : List Int) : List Int :=
  let removed := elements.length / 10
  elements.filter fun value =>
    decide ((ascending elements).getD removed 0 ≤ value ∧
      value ≤ (ascending elements).getD (elements.length - 1 - removed) 0)

/-- A record whose window is in its ring. -/
structure Sound (slid : SlidRemove) : Prop where
  front : slid.front < filterLenMax
  count : slid.count ≤ filterLenMax

/-- A shorter window has the latest samples. -/
theorem shrink_window {slid : SlidRemove} (size : Nat) (sound : Sound slid) :
    Sound (shrink slid size) ∧ (shrink slid size).count = min slid.count size ∧
      window (shrink slid size) = (window slid).drop (slid.count - size) := by
  have positive : 0 < filterLenMax := by decide
  have count := sound.count
  unfold shrink
  split
  case isTrue shorter =>
    refine ⟨⟨Nat.mod_lt _ positive, by simp only; omega⟩, by simp only; omega, ?_⟩
    have kept : slid.count - (slid.count - size) = size := by omega
    rw [window, window, slice_drop _ _ _ (Nat.sub_le slid.count size), kept]
  case isFalse fits =>
    refine ⟨sound, by omega, ?_⟩
    rw [Nat.sub_eq_zero_of_le (by omega), List.drop_zero]

/-- A sample joins a window that is not full. -/
theorem push_room {slid : SlidRemove} {size : Nat} (sound : Sound slid) (newData : Int)
    (room : slid.count < size) (limited : size ≤ filterLenMax) :
    Sound (push slid size newData) ∧ (push slid size newData).count = slid.count + 1 ∧
      window (push slid size newData) = window slid ++ [newData] := by
  unfold push
  simp only
  rw [if_neg (by omega)]
  refine ⟨⟨sound.front, by simp only; omega⟩, rfl, ?_⟩
  exact slice_push_one slid.buff slid.front newData (by omega)

/-- A sample takes the place of the oldest one of a full window. -/
theorem push_full {slid : SlidRemove} (sound : Sound slid) (newData : Int)
    (nonempty : 0 < slid.count) :
    Sound (push slid slid.count newData) ∧ (push slid slid.count newData).count = slid.count ∧
      window (push slid slid.count newData) = (window slid).drop 1 ++ [newData] := by
  have positive : 0 < filterLenMax := by decide
  unfold push
  simp only
  rw [if_pos (le_refl slid.count)]
  refine ⟨⟨Nat.mod_lt _ positive, sound.count⟩, rfl, ?_⟩
  exact slice_advance slid.buff slid.front newData nonempty sound.count

/-- After a call the window has the latest samples, the new one among them. -/
theorem stored_window {slid : SlidRemove} {size : Nat} (sound : Sound slid) (newData : Int)
    (positive : 0 < size) (limited : size ≤ filterLenMax) :
    Sound (push (shrink slid size) size newData) ∧
      (push (shrink slid size) size newData).count = min (slid.count + 1) size ∧
      window (push (shrink slid size) size newData) =
        (window slid ++ [newData]).drop (slid.count + 1 - size) := by
  obtain ⟨shrunk, count, shorter⟩ := shrink_window size sound
  have length : (window slid).length = slid.count := slice_length _ _ _ _
  rcases Nat.lt_or_ge slid.count size with room | full
  · have fewer : (shrink slid size).count = slid.count := by omega
    obtain ⟨soundAfter, countAfter, after⟩ := push_room shrunk newData (by omega) limited
    refine ⟨soundAfter, by omega, ?_⟩
    rw [after, shorter, Nat.sub_eq_zero_of_le (by omega), Nat.sub_eq_zero_of_le (by omega),
      List.drop_zero, List.drop_zero]
  · have same : (shrink slid size).count = size := by omega
    have pushed := push_full shrunk newData (by omega)
    rw [same] at pushed
    obtain ⟨soundAfter, countAfter, after⟩ := pushed
    refine ⟨soundAfter, by omega, ?_⟩
    rw [after, shorter, List.drop_drop, List.drop_append_of_le_length (by omega)]
    congr 2
    omega

/-- The window read by age. -/
theorem window_elements (slid : SlidRemove) :
    (List.range slid.count).map (element slid) = window slid := rfl

/-- The sum of a loop is the sum of the elements, as a variable keeps it. -/
theorem sum_loop_sum (data : Nat → Int) (turns : Nat) :
    sumLoop data turns = longLong ((List.range turns).map data).sum := by
  induction turns with
  | zero => rfl
  | succ turns inductionHypothesis =>
    rw [sumLoop, inductionHypothesis, List.range_succ, List.map_append, List.sum_append,
      List.map_singleton, List.sum_singleton]
    exact Int.bmod_add_bmod

/-- The bounded loop adds and counts the elements within the bounds. -/
theorem bounded_loop_filter (start finish : Int) (data : Nat → Int) (turns : Nat) :
    boundedLoop start finish data turns =
      (longLong (((List.range turns).map data).filter
          fun value => decide (start ≤ value ∧ value ≤ finish)).sum,
        (((List.range turns).map data).filter
          fun value => decide (start ≤ value ∧ value ≤ finish)).length) := by
  induction turns with
  | zero => rfl
  | succ turns inductionHypothesis =>
    rw [boundedLoop, inductionHypothesis, List.range_succ, List.map_append, List.filter_append,
      List.map_singleton, List.filter_singleton]
    simp only
    split
    case isTrue inside =>
      rw [decide_eq_true inside, cond_true, List.sum_append, List.sum_singleton,
        List.length_append, List.length_singleton]
      exact congrArg (·, _) Int.bmod_add_bmod
    case isFalse outside => rw [decide_eq_false outside, cond_false, List.append_nil]

/-- The copied cells are the elements of the window. -/
theorem copy_loop_cell (slid : SlidRemove) (buffCopy : Nat → Int) {turns cell : Nat}
    (inside : cell < turns) : copyLoop slid buffCopy turns cell = element slid cell := by
  induction turns with
  | zero => exact absurd inside (Nat.not_lt_zero cell)
  | succ turns inductionHypothesis =>
    rw [copyLoop]
    rcases Nat.lt_succ_iff_lt_or_eq.mp inside with earlier | rfl
    · rw [Function.update_of_ne (Nat.ne_of_lt earlier), inductionHypothesis earlier]
    · exact Function.update_self _ _ _

/-- The scratch array has the values of the window. -/
theorem copy_loop_contents (slid : SlidRemove) (buffCopy : Nat → Int) :
    contents (copyLoop slid buffCopy slid.count) 0 slid.count = (window slid : Multiset Int) := by
  rw [contents_range, ← window_elements]
  congr 1
  apply List.map_congr_left
  intro cell inside
  exact copy_loop_cell slid buffCopy (List.mem_range.mp inside)

/-- A variable keeps a sum that fits. -/
theorem long_long_fits {value : Int} (nonNegative : 0 ≤ value) (fits : value < 2 ^ 63) :
    longLong value = value := by
  apply Int.bmod_eq_of_le <;> omega

/-- Sorting keeps the elements. -/
theorem ascending_perm (elements : List Int) : (ascending elements).Perm elements :=
  List.perm_insertionSort (· ≤ ·) elements

/-- The rank of an element in ascending order. -/
theorem ascending_ranked (elements : List Int) {place : Nat} (inside : place < elements.length) :
    Ranked (elements : Multiset Int) (place + 1) ((ascending elements).getD place 0) := by
  have within : place < (ascending elements).length := by
    rwa [(ascending_perm elements).length_eq]
  have same : (ascending elements : Multiset Int) = elements :=
    Multiset.coe_eq_coe.mpr (ascending_perm elements)
  rw [List.getD_eq_getElem _ _ within, ← same]
  exact ranked_sorted (List.pairwise_insertionSort (· ≤ ·) elements) within

/-- Something is left between the bounds. -/
theorem trimmed_ne_nil {elements : List Int} (nonempty : 0 < elements.length) :
    trimmed elements ≠ [] := by
  have inside : elements.length / 10 < elements.length := by omega
  have within : elements.length - 1 - elements.length / 10 < (ascending elements).length := by
    rw [(ascending_perm elements).length_eq]
    omega
  have member : (ascending elements).getD (elements.length / 10) 0 ∈ elements :=
    Multiset.mem_coe.mp (ranked_mem (ascending_ranked elements inside))
  have ordered : (ascending elements).getD (elements.length / 10) 0 ≤
      (ascending elements).getD (elements.length - 1 - elements.length / 10) 0 := by
    rw [List.getD_eq_getElem _ _ within, List.getD_eq_getElem _ _ (by omega)]
    exact (List.pairwise_insertionSort (· ≤ ·) elements).rel_get_of_le
      (Fin.mk_le_mk.mpr (by omega))
  apply List.ne_nil_of_mem
  exact List.mem_filter.mpr ⟨member, decide_eq_true ⟨le_refl _, ordered⟩⟩

/-- The sum of the elements left is not larger than the whole sum. -/
theorem trimmed_sum_le {elements : List Int} (nonNegative : ∀ value ∈ elements, 0 ≤ value) :
    (trimmed elements).sum ≤ elements.sum :=
  List.filter_sublist.sum_le_sum nonNegative

/-- A mean is between two of the elements. -/
theorem truncated_mean_between {elements : List Int} (nonempty : elements ≠ [])
    (nonNegative : ∀ value ∈ elements, 0 ≤ value) :
    (∃ low ∈ elements, low ≤ truncatedMean elements) ∧
      ∃ high ∈ elements, truncatedMean elements ≤ high := by
  have positive : (0 : Int) < elements.length := by
    exact_mod_cast List.length_pos_iff.mpr nonempty
  have quotient : truncatedMean elements = elements.sum / elements.length :=
    Int.tdiv_eq_ediv_of_nonneg (List.sum_nonneg nonNegative)
  have constant : ∀ value : Int,
      (elements.map fun _ => value).sum = elements.length * value := by simp
  rw [quotient]
  constructor
  · have above : (elements.map id).sum <
        (elements.map fun _ => elements.sum / elements.length + 1).sum := by
      rw [constant, List.map_id, mul_comm]
      exact Int.lt_ediv_add_one_mul_self elements.sum positive
    obtain ⟨low, member, below⟩ := List.exists_lt_of_sum_lt _ _ above
    exact ⟨low, member, Int.le_of_lt_add_one below⟩
  · have below : (elements.map fun _ => elements.sum / elements.length).sum ≤
        (elements.map id).sum := by
      rw [constant, List.map_id]
      exact Int.mul_ediv_self_le (ne_of_gt positive)
    obtain ⟨high, member, above⟩ := List.exists_le_of_sum_le nonempty _ _ below
    exact ⟨high, member, above⟩

/-- A tenth of the window is set aside at either end. -/
theorem num_to_remove_tenth {size : Nat} (limited : size ≤ filterLenMax) :
    numToRemove filterRate size = size / 10 := by
  have all : ∀ length ∈ List.range 501, numToRemove filterRate length = length / 10 := by
    decide +kernel
  exact all size (List.mem_range.mpr (Nat.lt_succ_of_le limited))

/-- The filtered average of some values is the mean of the trimmed ones, in whatever
order they are and whatever `rand()` returns. -/
theorem filtered_average_trimmed (draws : Nat → Nat) {data : Nat → Int} {elements : List Int}
    (copied : contents data 0 elements.length = (elements : Multiset Int))
    (nonempty : 0 < elements.length) (limited : elements.length ≤ filterLenMax)
    (nonNegative : ∀ value ∈ elements, 0 ≤ value) (fits : elements.sum < 2 ^ 63) :
    (calculateFilteredAverage draws data elements.length filterRate).value =
      truncatedMean (trimmed elements) := by
  unfold calculateFilteredAverage
  simp only [num_to_remove_tenth limited]
  have first := quick_select_selects draws data
    (show 0 < elements.length / 10 + 1 by omega)
    (show elements.length / 10 + 1 ≤ elements.length - 0 by omega)
  generalize quickSelect draws data 0 elements.length (elements.length / 10 + 1) = start at first ⊢
  have second := quick_select_selects start.draws start.arr
    (show 0 < elements.length - elements.length / 10 by omega)
    (show elements.length - elements.length / 10 ≤ elements.length - 0 by omega)
  generalize quickSelect start.draws start.arr 0 elements.length
    (elements.length - elements.length / 10) = finish at second ⊢
  have keptFirst := contents_rearranged first.moved (le_refl 0) (le_refl elements.length)
  have keptSecond := contents_rearranged second.moved (le_refl 0) (le_refl elements.length)
  have startValue : start.value = (ascending elements).getD (elements.length / 10) 0 := by
    apply ranked_unique first.ranked
    rw [copied]
    exact ascending_ranked elements (by omega)
  have finishValue : finish.value =
      (ascending elements).getD (elements.length - 1 - elements.length / 10) 0 := by
    apply ranked_unique second.ranked
    rw [keptFirst, copied,
      show elements.length - elements.length / 10 =
        elements.length - 1 - elements.length / 10 + 1 by omega]
    exact ascending_ranked elements (by omega)
  have order : ((List.range elements.length).map finish.arr).Perm elements := by
    rw [← Multiset.coe_eq_coe, ← contents_range, keptSecond, keptFirst, copied]
  rw [bounded_loop_filter, startValue, finishValue]
  have kept := order.filter fun value =>
    decide ((ascending elements).getD (elements.length / 10) 0 ≤ value ∧
      value ≤ (ascending elements).getD (elements.length - 1 - elements.length / 10) 0)
  have left : 0 < (trimmed elements).length := List.length_pos_iff.mpr (trimmed_ne_nil nonempty)
  have sum : longLong (trimmed elements).sum = (trimmed elements).sum :=
    long_long_fits
      (List.sum_nonneg fun value member => nonNegative value (List.mem_of_mem_filter member))
      (lt_of_le_of_lt (trimmed_sum_le nonNegative) fits)
  simp only [kept.sum_eq, kept.length_eq]
  rw [trimmed] at left sum
  rw [if_pos left, sum]
  rfl

/-- What the average should be: the mean of the window, without its extremes if it is
full. -/
def expected (slid : SlidRemove) (size : Nat) : Int :=
  if slid.count < size then truncatedMean (window slid) else truncatedMean (trimmed (window slid))

/-- The number of stored samples is the length of the window. -/
theorem window_length (slid : SlidRemove) : (window slid).length = slid.count :=
  slice_length filterLenMax slid.buff slid.front slid.count

/-- The average of a full window. -/
theorem full_average_value (draws : Nat → Nat) {slid : SlidRemove} (buffCopy : Nat → Int)
    (sound : Sound slid) (nonempty : 0 < slid.count)
    (nonNegative : ∀ value ∈ window slid, 0 ≤ value) (fits : (window slid).sum < 2 ^ 63) :
    (fullAverage draws slid slid.count buffCopy).value = truncatedMean (trimmed (window slid)) := by
  have length := window_length slid
  have copied : contents (copyLoop slid buffCopy slid.count) 0 (window slid).length =
      (window slid : Multiset Int) := by
    rw [length, copy_loop_contents]
  have limited : (window slid).length ≤ filterLenMax := length ▸ sound.count
  have filtered := filtered_average_trimmed draws copied (by omega) limited nonNegative fits
  have left : trimmed (window slid) ≠ [] := trimmed_ne_nil (by omega)
  obtain ⟨⟨low, member, below⟩, _⟩ := truncated_mean_between left
    fun value kept => nonNegative value (List.mem_of_mem_filter kept)
  have positive : 0 ≤ truncatedMean (trimmed (window slid)) :=
    (nonNegative low (List.mem_of_mem_filter member)).trans below
  rw [length] at filtered
  unfold fullAverage
  simp only
  rw [filtered, if_neg (by omega)]

/-- The result of a call, for samples that are not negative and have a sum that fits. -/
theorem average_value (draws : Nat → Nat) {slid : SlidRemove} {size : Nat} (newData : Int)
    (buffCopy : Nat → Int) (sound : Sound slid) (positive : 0 < size)
    (limited : size ≤ filterLenMax) :
    let after := slidingRemoveAverage draws slid size newData buffCopy
    (∀ value ∈ window after.slid, 0 ≤ value) → (window after.slid).sum < 2 ^ 63 →
      after.value = expected after.slid size := by
  obtain ⟨soundAfter, count, _⟩ := stored_window sound newData positive limited
  unfold slidingRemoveAverage
  simp only
  rw [if_neg (Nat.not_lt.mpr limited)]
  generalize push (shrink slid size) size newData = stored at soundAfter count ⊢
  unfold expected
  split
  case isTrue room =>
    intro nonNegative fits
    simp only
    rw [truncatedMean, window_length, sum_loop_sum, window_elements,
      long_long_fits (List.sum_nonneg nonNegative) fits]
  case isFalse full =>
    have same : size = stored.count := by omega
    subst same
    intro nonNegative fits
    have unchanged : (fullAverage draws stored stored.count buffCopy).slid = stored := rfl
    rw [unchanged] at nonNegative fits ⊢
    rw [if_neg full]
    exact full_average_value draws buffCopy soundAfter (by omega) nonNegative fits

/-- The record after a call. -/
theorem average_slid (draws : Nat → Nat) (slid : SlidRemove) {size : Nat} (newData : Int)
    (buffCopy : Nat → Int) (limited : size ≤ filterLenMax) :
    (slidingRemoveAverage draws slid size newData buffCopy).slid =
      push (shrink slid size) size newData := by
  unfold slidingRemoveAverage
  simp only
  rw [if_neg (Nat.not_lt.mpr limited)]
  split <;> rfl

/-- A call of `sliding_remove_average` with a length and a sample in range. -/
structure FilterCall where
  size : Nat
  newData : Int
  positive : 0 < size
  limited : size ≤ filterLenMax
  nonNegative : 0 ≤ newData
  representable : newData < 2 ^ 63

/-- The state before the first call. -/
def initial (draws : Nat → Nat) (buffCopy : Nat → Int) : Averaged :=
  ⟨0, empty, buffCopy, [], draws⟩

/-- One more call on the state the calls before have left. -/
def callNext (state : Averaged) (call : FilterCall) : Averaged :=
  slidingRemoveAverage state.draws state.slid call.size call.newData state.buffCopy

/-- The state and the last result after a sequence of calls. -/
def runCalls (draws : Nat → Nat) (buffCopy : Nat → Int) (calls : List FilterCall) : Averaged :=
  calls.foldl callNext (initial draws buffCopy)

/-- The last ones of some samples. -/
def latest (samples : List Int) (count : Nat) : List Int :=
  samples.drop (samples.length - count)

/-- The record has the latest samples in its ring. -/
structure Tracks (samples : List Int) (slid : SlidRemove) : Prop where
  sound : Sound slid
  taken : slid.count ≤ samples.length
  stored : window slid = latest samples slid.count

/-- A call keeps the latest samples. -/
theorem tracks_call {samples : List Int} {slid : SlidRemove} {size : Nat}
    (tracks : Tracks samples slid) (newData : Int) (positive : 0 < size)
    (limited : size ≤ filterLenMax) :
    Tracks (samples ++ [newData]) (push (shrink slid size) size newData) := by
  obtain ⟨sound, count, stored⟩ := stored_window tracks.sound newData positive limited
  have taken := tracks.taken
  have length : (samples ++ [newData]).length = samples.length + 1 := by simp
  refine ⟨sound, by omega, ?_⟩
  rw [stored, tracks.stored, latest, latest, ← List.drop_append_of_le_length (by omega),
    List.drop_drop]
  congr 1
  omega

/-- The record has the latest samples after any calls. -/
theorem run_calls_track (draws : Nat → Nat) (buffCopy : Nat → Int) (calls : List FilterCall) :
    Tracks (calls.map FilterCall.newData) (runCalls draws buffCopy calls).slid := by
  induction calls using List.reverseRecOn with
  | nil => exact ⟨⟨show 0 < filterLenMax by decide, Nat.zero_le _⟩, le_refl 0, rfl⟩
  | append_singleton calls call inductionHypothesis =>
    rw [List.map_append, List.map_singleton, runCalls, List.foldl_append, List.foldl_cons,
      List.foldl_nil, callNext, average_slid _ _ _ _ call.limited]
    exact tracks_call inductionHypothesis call.newData call.positive call.limited

/-- After every sequence of calls the window has the samples it should have, and as long
as their sum fits a variable the result is their truncated mean, without the extremes if
the window is full, and lies between two of them. -/
theorem window_average (draws : Nat → Nat) (buffCopy : Nat → Int) (calls : List FilterCall)
    (call : FilterCall) :
    let before := runCalls draws buffCopy calls
    let after := runCalls draws buffCopy (calls ++ [call])
    after.slid.count = min (before.slid.count + 1) call.size ∧
      after.slid.front < filterLenMax ∧
      window after.slid =
        latest ((calls ++ [call]).map FilterCall.newData) after.slid.count ∧
      ((window after.slid).sum < 2 ^ 63 →
        after.value = expected after.slid call.size ∧
        (∃ low ∈ window after.slid, low ≤ after.value) ∧
        ∃ high ∈ window after.slid, after.value ≤ high) := by
  intro before after
  have tracksBefore : Tracks _ before.slid := run_calls_track draws buffCopy calls
  have tracksAfter : Tracks _ after.slid := run_calls_track draws buffCopy (calls ++ [call])
  have step : after = callNext before call := by
    show (calls ++ [call]).foldl callNext (initial draws buffCopy) = _
    rw [List.foldl_append]
    rfl
  obtain ⟨_, count, _⟩ :=
    stored_window tracksBefore.sound call.newData call.positive call.limited
  have slid : after.slid = push (shrink before.slid call.size) call.size call.newData := by
    rw [step]
    exact average_slid _ _ _ _ call.limited
  have counted : after.slid.count = min (before.slid.count + 1) call.size := by rw [slid, count]
  refine ⟨counted, tracksAfter.sound.front, tracksAfter.stored, fun fits => ?_⟩
  have nonNegative : ∀ value ∈ window after.slid, 0 ≤ value := by
    intro value member
    rw [tracksAfter.stored] at member
    obtain ⟨sample, _, rfl⟩ := List.mem_map.mp (List.mem_of_mem_drop member)
    exact sample.nonNegative
  have value : after.value = expected after.slid call.size := by
    rw [step] at nonNegative fits ⊢
    exact average_value before.draws call.newData before.buffCopy tracksBefore.sound call.positive
      call.limited nonNegative fits
  have nonempty : 0 < (window after.slid).length := by
    have sized := call.positive
    rw [window_length]
    omega
  refine ⟨value, ?_⟩
  rw [value, expected]
  split
  case isTrue room =>
    exact truncated_mean_between (List.length_pos_iff.mp nonempty) nonNegative
  case isFalse full =>
    obtain ⟨⟨low, lowKept, below⟩, high, highKept, above⟩ :=
      truncated_mean_between (trimmed_ne_nil nonempty)
        fun value kept => nonNegative value (List.mem_of_mem_filter kept)
    exact ⟨⟨low, List.mem_of_mem_filter lowKept, below⟩, high, List.mem_of_mem_filter highKept,
      above⟩

/-- A sample of half the largest value a variable can keep. -/
def largeCall : FilterCall := ⟨3, 2 ^ 62, by decide, by decide, by decide, by decide⟩

/-- The sum of two large samples does not fit: the result is negative, though neither
sample is. -/
theorem large_sum_wraps :
    (runCalls (fun _ => 0) (fun _ => 0) [largeCall, largeCall]).slid.count < largeCall.size ∧
      window (runCalls (fun _ => 0) (fun _ => 0) [largeCall, largeCall]).slid =
        [2 ^ 62, 2 ^ 62] ∧
      (runCalls (fun _ => 0) (fun _ => 0) [largeCall, largeCall]).value = -(2 ^ 62) ∧
      truncatedMean [2 ^ 62, 2 ^ 62] = 2 ^ 62 := by
  refine ⟨?_, ?_, ?_, ?_⟩ <;> decide +kernel

end Pyrometer.WindowFilter
