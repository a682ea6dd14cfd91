import Pyrometer.VoltageFilter

/-!
# Extrapolation after a change of gain

While samples are discarded after a change of gain, the normalised voltage is replaced
by an extrapolation: a sample of the window and the slope of the last filtered voltages.
The ring of these is filled from its first cell on. When it is full the front is moved
on before the cell is written, so that the first round leaves the oldest voltage in
place and takes the one after it; only when that round is complete are the cells in
order again. The extrapolation reads the ring as it is after that, and takes the cell
before the window for its latest sample.
-/

namespace Pyrometer.GainExtrapolation

open BinaryFloats RingBuffers WindowFilter VoltageFilter

/-- The number of filtered voltages that are recorded. -/
def historyLength : Nat := 20

/-- The ring after some filtered voltages. -/
def recorded (volts : List Int) : CircleBuffer :=
  volts.foldl record channelStart.historyVolt

/-- The ring has the last filtered voltages, from some oldest cell on. -/
def HistoryHolds (history : CircleBuffer) (volts : List Int) : Prop :=
  history.count = min volts.length historyLength ∧
    ∃ oldest < historyLength, slice historyLength history.buff oldest history.count =
      (latest volts historyLength).map single.ofInt

/-- Whether the ring has the last filtered voltages can be computed. -/
instance (history : CircleBuffer) (volts : List Int) : Decidable (HistoryHolds history volts) :=
  inferInstanceAs (Decidable (_ ∧ _))

/-- An inserted voltage is the latest sample and the slope of the recorded voltages. -/
structure Extrapolates (samples volts : List Int) (inserted : Int) : Prop where
  divisor : min volts.length historyLength ≠ 1
  value : ∀ base ∈ samples.getLast?, ∀ newest ∈ volts.getLast?,
    ∀ oldest ∈ (latest volts historyLength).head?,
      inserted = extrapolate base (single.ofInt newest) (single.ofInt oldest)
        (min volts.length historyLength)

/-- One more voltage. -/
theorem recorded_append (volts : List Int) (volt : Int) :
    recorded (volts ++ [volt]) = record (recorded volts) volt := by
  rw [recorded, List.foldl_append]
  rfl

/-- A channel has recorded its filtered voltages. -/
theorem run_passes_recorded (draws : Nat → Nat) (spec : Spec) (passes : List Pass) :
    ((runPasses draws passes).channel spec).historyVolt =
      recorded (voltFilters draws spec passes) := by
  induction passes using List.reverseRecOn with
  | nil => cases spec <;> rfl
  | append_singleton passes pass inductionHypothesis =>
    obtain ⟨generator, same⟩ := pass_channel (runPasses draws passes) pass spec
    obtain ⟨_, kept⟩ := insert_keeps (found pass spec ((runPasses draws passes).channel spec))
    rw [voltFilters, observed_append, recorded_append, run_passes_append,
      show passes.foldl filterPass (measureStart draws) = runPasses draws passes from rfl]
    rw [voltFilters] at inductionHypothesis
    rw [← inductionHypothesis, same]
    show record _ _ = record _ _
    rw [kept]
    rfl

/-- The ring while it is being filled. -/
structure Filling (volts : List Int) (history : CircleBuffer) : Prop where
  size : history.bufferSize = historyLength
  front : history.front = 0
  count : history.count = volts.length
  stored : slice historyLength history.buff 0 volts.length = volts.map single.ofInt

/-- A voltage recorded while there is room. -/
theorem record_room {history : CircleBuffer} (volt : Int)
    (room : history.count < history.bufferSize) :
    record history volt =
      ⟨Function.update history.buff (history.front + history.count) (single.ofInt volt),
        history.front, history.count + 1, history.bufferSize⟩ :=
  if_neg (Nat.not_le.mpr room)

/-- A voltage recorded when there is none. -/
theorem record_full {history : CircleBuffer} (volt : Int)
    (full : history.bufferSize ≤ history.count) :
    record history volt =
      ⟨Function.update history.buff ((history.front + 1) % history.bufferSize) (single.ofInt volt),
        (history.front + 1) % history.bufferSize, history.count, history.bufferSize⟩ :=
  if_pos full

/-- Up to 20 voltages fill the ring from its first cell on. -/
theorem recorded_filling (volts : List Int) (short : volts.length ≤ historyLength) :
    Filling volts (recorded volts) := by
  induction volts using List.reverseRecOn with
  | nil => exact ⟨rfl, rfl, rfl, rfl⟩
  | append_singleton volts volt inductionHypothesis =>
    rw [List.length_append, List.length_singleton] at short
    obtain ⟨size, front, count, stored⟩ := inductionHypothesis (by omega)
    have pushed := slice_push_one (recorded volts).buff 0 (single.ofInt volt)
      (show volts.length < historyLength by omega)
    rw [Nat.zero_add, Nat.mod_eq_of_lt (by omega), stored] at pushed
    rw [recorded_append, record_room volt (by omega), front, count, Nat.zero_add]
    constructor
    case size => exact size
    case front => rfl
    case count => simp
    case stored =>
      rw [List.length_append, List.map_append]
      exact pushed

/-- The full ring: the voltages recorded since it was full are in the cells up to the
front. -/
structure Wrapping (volts : List Int) (recent : Nat) (history : CircleBuffer) : Prop where
  size : history.bufferSize = historyLength
  count : history.count = historyLength
  stored : ∃ first < historyLength, (first + recent) % historyLength =
      (history.front + 1) % historyLength ∧
    slice historyLength history.buff first recent = (latest volts recent).map single.ofInt

/-- The last ones of some voltages when one more comes. -/
theorem latest_append (volts : List Int) (volt : Int) {count : Nat}
    (known : count ≤ volts.length) :
    latest (volts ++ [volt]) (count + 1) = latest volts count ++ [volt] := by
  rw [latest, latest, List.length_append, List.length_singleton, Nat.add_sub_add_right,
    List.drop_append_of_le_length (by omega)]

/-- As many of the last ones as before when one more comes. -/
theorem latest_advance (volts : List Int) (volt : Int) {count : Nat} (positive : 0 < count)
    (known : count ≤ volts.length) :
    latest (volts ++ [volt]) count = (latest volts count).drop 1 ++ [volt] := by
  have shorter : (volts ++ [volt]).length - count = volts.length - count + 1 := by
    rw [List.length_append, List.length_singleton]
    omega
  rw [latest, latest, shorter, List.drop_drop, List.drop_append_of_le_length (by omega)]

/-- One more voltage in the first round of a full ring. -/
theorem wrapping_first_round {volts : List Int} {recent : Nat} {history : CircleBuffer}
    (volt : Int) (known : recent ≤ volts.length) (growing : recent < historyLength)
    (wrapping : Wrapping volts recent history) :
    Wrapping (volts ++ [volt]) (recent + 1) (record history volt) := by
  obtain ⟨size, count, first, inside, place, stored⟩ := wrapping
  have pushed := slice_push_one history.buff first (single.ofInt volt) growing
  rw [place, stored] at pushed
  rw [record_full volt (by omega), size]
  refine ⟨rfl, count, first, inside, ?_, ?_⟩
  · show (first + (recent + 1)) % historyLength = ((history.front + 1) % historyLength + 1) % _
    rw [← place, ← Nat.add_assoc, Nat.mod_add_mod]
  · rw [latest_append volts volt known, List.map_append]
    exact pushed

/-- One more voltage after the first round. -/
theorem wrapping_later_round {volts : List Int} {history : CircleBuffer} (volt : Int)
    (known : historyLength ≤ volts.length) (wrapping : Wrapping volts historyLength history) :
    Wrapping (volts ++ [volt]) historyLength (record history volt) := by
  have positive : 0 < historyLength := by decide
  obtain ⟨size, count, first, inside, place, stored⟩ := wrapping
  have advanced := slice_advance history.buff first (single.ofInt volt) positive
    (le_refl historyLength)
  rw [place, stored, ← List.map_drop] at advanced
  rw [record_full volt (by omega), size]
  refine ⟨rfl, count, (first + 1) % historyLength, Nat.mod_lt _ positive, ?_, ?_⟩
  · show _ = ((history.front + 1) % historyLength + 1) % historyLength
    rw [← place, Nat.add_mod_right, Nat.add_mod_right, Nat.mod_mod, Nat.mod_add_mod]
  · rw [latest_advance volts volt positive known, List.map_append]
    exact advanced

/-- The ring when it has just become full. -/
theorem wrapping_start {volts : List Int} (length : volts.length = historyLength) :
    Wrapping volts 0 (recorded volts) := by
  obtain ⟨size, front, count, _⟩ := recorded_filling volts (le_of_eq length)
  refine ⟨size, count.trans length, 1, by decide, by rw [front], ?_⟩
  simp [latest]

/-- From 20 voltages on the ring is full. -/
theorem recorded_wrapping (volts : List Int) (full : historyLength ≤ volts.length) :
    Wrapping volts (min (volts.length - historyLength) historyLength) (recorded volts) := by
  induction volts using List.reverseRecOn with
  | nil => exact absurd full (by decide)
  | append_singleton volts volt inductionHypothesis =>
    have length : (volts ++ [volt]).length = volts.length + 1 := by simp
    rcases Nat.lt_or_ge volts.length historyLength with last | already
    · have reached : (volts ++ [volt]).length = historyLength := by omega
      rw [reached, Nat.sub_self, Nat.zero_min]
      exact wrapping_start reached
    · have wrapping := inductionHypothesis already
      rw [recorded_append, length]
      rcases Nat.lt_or_ge (volts.length - historyLength) historyLength with first | later
      · rw [Nat.min_eq_left (Nat.le_of_lt first)] at wrapping
        have grown : min (volts.length + 1 - historyLength) historyLength =
            volts.length - historyLength + 1 := by omega
        rw [grown]
        exact wrapping_first_round volt (Nat.sub_le _ _) first wrapping
      · rw [Nat.min_eq_right later] at wrapping
        rw [Nat.min_eq_right (by omega)]
        exact wrapping_later_round volt already wrapping

/-- The ring has the last voltages while it is being filled and again when it has been
gone round once. -/
theorem recorded_holds (volts : List Int)
    (settled : volts.length ≤ historyLength ∨ 2 * historyLength ≤ volts.length) :
    HistoryHolds (recorded volts) volts := by
  rcases settled with filling | wrapped
  · obtain ⟨_, _, count, stored⟩ := recorded_filling volts filling
    refine ⟨by omega, 0, by decide, ?_⟩
    rw [count, stored, latest, Nat.sub_eq_zero_of_le filling, List.drop_zero]
  · obtain ⟨_, count, first, inside, _, stored⟩ := recorded_wrapping volts (by omega)
    rw [Nat.min_eq_right (by omega)] at stored
    refine ⟨by omega, first, inside, ?_⟩
    rw [count, stored]

/-- A voltage followed by zeros. -/
def startsWithOne (length : Nat) : List Int := 1 :: List.replicate (length - 1) 0

/-- Their number. -/
theorem starts_with_one_length {length : Nat} (positive : 1 ≤ length) :
    (startsWithOne length).length = length := by
  rw [startsWithOne, List.length_cons, List.length_replicate]
  omega

/-- They are in range. -/
theorem starts_with_one_bounded (length : Nat) :
    ∀ volt ∈ startsWithOne length, (0 : Int) ≤ volt ∧ volt < 2 ^ 63 := by
  intro volt member
  rcases List.mem_cons.mp member with rfl | zero
  · decide
  · rw [List.eq_of_mem_replicate zero]
    decide

/-- Until the first round of the full ring is complete its first cell stays: the front is
moved on before a cell is written. -/
theorem first_cell_stays (first : Int) (rest : List Int)
    (within : rest.length + 1 < 2 * historyLength) :
    (recorded (first :: rest)).buff 0 = single.ofInt first ∧
      (recorded (first :: rest)).front = rest.length + 1 - historyLength := by
  induction rest using List.reverseRecOn with
  | nil => exact ⟨rfl, rfl⟩
  | append_singleton rest volt inductionHypothesis =>
    rw [List.length_append, List.length_singleton] at within
    obtain ⟨cell, front⟩ := inductionHypothesis (by omega)
    have known : (first :: rest).length = rest.length + 1 := List.length_cons
    rw [← List.cons_append, recorded_append, List.length_append, List.length_singleton]
    rcases Nat.lt_or_ge (rest.length + 1) historyLength with filling | full
    · obtain ⟨size, -, count, -⟩ := recorded_filling (first :: rest) (by omega)
      have other : 0 ≠ (recorded (first :: rest)).front + (recorded (first :: rest)).count := by
        omega
      rw [record_room volt (by omega)]
      refine ⟨(Function.update_of_ne other _ _).trans cell, ?_⟩
      simp only [front]
      omega
    · obtain ⟨size, count, -⟩ := recorded_wrapping (first :: rest) (by omega)
      have next : (rest.length + 1 - historyLength + 1) % historyLength =
          rest.length + 1 + 1 - historyLength := by
        rw [Nat.mod_eq_of_lt (by omega)]
        omega
      have other : 0 ≠ rest.length + 1 + 1 - historyLength := by omega
      rw [record_full volt (by omega), size, front, next]
      exact ⟨(Function.update_of_ne other _ _).trans cell, rfl⟩

/-- In the first round of the full ring its first cell still has the first voltage, which
is not among the last ones any more. -/
theorem first_round_misses {length : Nat} (full : historyLength < length)
    (within : length < 2 * historyLength) :
    ¬HistoryHolds (recorded (startsWithOne length)) (startsWithOne length) := by
  rintro ⟨counted, oldest, inside, stored⟩
  have size := starts_with_one_length (show 1 ≤ length by omega)
  have cell : (recorded (startsWithOne length)).buff 0 = single.ofInt 1 :=
    (first_cell_stays 1 (List.replicate (length - 1) 0) (by
      rw [List.length_replicate]
      omega)).1
  have present := mem_round (recorded (startsWithOne length)).buff inside
    (show 0 < historyLength by decide)
  rw [size, Nat.min_eq_right (by omega)] at counted
  rw [counted] at stored
  rw [stored, cell] at present
  obtain ⟨volt, member, same⟩ := List.mem_map.mp present
  have zero : volt = 0 := by
    obtain ⟨dropped, later⟩ := Nat.exists_eq_add_of_lt full
    have behind : historyLength + dropped + 1 - historyLength = dropped + 1 := by omega
    rw [latest, size, later, behind, startsWithOne, List.drop_succ_cons] at member
    exact List.eq_of_mem_replicate (List.mem_of_mem_drop member)
  rw [zero] at same
  exact absurd same (by decide)

/-- A pass that averages over one voltage and discards none. -/
def unitPass (volt : Int) : Pass :=
  ⟨1, fun _ => volt, fun _ => ⟨0, 0, 0, 0⟩, 0, by decide, by decide⟩

/-- The average of one voltage. -/
theorem unit_average (draws : Nat → Nat) {slid : SlidRemove} {volt : Int} (buffCopy : Nat → Int)
    (sound : Sound slid) (nonNegative : 0 ≤ volt) (fits : volt < 2 ^ 63) :
    (slidingRemoveAverage draws slid 1 volt buffCopy).value = volt := by
  have one : 0 < 1 ∧ 1 ≤ filterLenMax := by decide
  have value := average_value draws volt buffCopy sound one.1 one.2
  obtain ⟨_, count, stored⟩ := stored_window sound volt one.1 one.2
  have alone : window (slidingRemoveAverage draws slid 1 volt buffCopy).slid = [volt] := by
    rw [average_slid _ _ _ _ one.2, stored, Nat.add_sub_cancel]
    simp [window_length]
  have full : (slidingRemoveAverage draws slid 1 volt buffCopy).slid.count = 1 := by
    rw [average_slid _ _ _ _ one.2, count]
    omega
  simp only [alone] at value
  rw [value (by simpa using nonNegative) (by simpa using fits), expected, full, alone]
  simp [trimmed, ascending, truncatedMean]

/-- Such a pass leaves a voltage as it is. -/
theorem unit_pass_volt (measure : Measure) (spec : Spec) {volt : Int}
    (sound : Sound (measure.channel spec).slid) (nonNegative : 0 ≤ volt) (fits : volt < 2 ^ 63) :
    ((filterPass measure (unitPass volt)).channel spec).voltNorm = volt ∧
      ((filterPass measure (unitPass volt)).channel spec).voltFilter = volt := by
  obtain ⟨draws, same⟩ := pass_channel measure (unitPass volt) spec
  rw [same]
  exact ⟨rfl, unit_average draws _ sound nonNegative fits⟩

/-- Such passes filter nothing. -/
theorem unit_run_filters (draws : Nat → Nat) (spec : Spec) (volts : List Int)
    (bounded : ∀ volt ∈ volts, 0 ≤ volt ∧ volt < 2 ^ 63) :
    voltFilters draws spec (volts.map unitPass) = volts := by
  induction volts using List.reverseRecOn with
  | nil => rfl
  | append_singleton volts volt inductionHypothesis =>
    have earlier := inductionHypothesis fun volt member =>
      bounded volt (List.mem_append_left _ member)
    obtain ⟨nonNegative, fits⟩ := bounded volt (by simp)
    have tracks := run_passes_track draws spec (volts.map unitPass)
    rw [List.map_append, List.map_singleton, voltFilters, observed_append]
    rw [voltFilters] at earlier
    rw [earlier]
    exact congrArg (volts ++ [·])
      (unit_pass_volt (runPasses draws (volts.map unitPass)) spec tracks.sound nonNegative fits).2

/-- A ring of samples without a voltage, from passes over one sample. -/
structure Silent (slid : SlidRemove) : Prop where
  zero : ∀ cell, slid.buff cell = 0
  front : slid.front < filterLenMax
  count : slid.count ≤ 1

/-- What a pass over one sample leaves of a silent ring. -/
theorem silent_push {slid : SlidRemove} (silent : Silent slid) (volt : Int) :
    push (shrink slid 1) 1 volt =
      ⟨Function.update slid.buff ((slid.front + slid.count) % filterLenMax) volt,
        (slid.front + slid.count) % filterLenMax, 1⟩ := by
  have front := silent.front
  have kept : shrink slid 1 = slid := if_neg (Nat.not_lt.mpr silent.count)
  rw [kept, push]
  rcases Nat.le_one_iff_eq_zero_or_eq_one.mp silent.count with none | one
  · simp [none, Nat.mod_eq_of_lt front]
  · simp [one]

/-- A pass without voltage leaves the ring silent. -/
theorem silent_zero {slid : SlidRemove} (silent : Silent slid) :
    Silent (push (shrink slid 1) 1 0) := by
  have blank : Function.update slid.buff ((slid.front + slid.count) % filterLenMax) 0 =
      slid.buff := by
    rw [Function.update_eq_self_iff, silent.zero]
  rw [silent_push silent, blank]
  exact ⟨silent.zero, Nat.mod_lt _ (by decide), le_refl 1⟩

/-- The cell before the window is silent after one more sample. -/
theorem silent_before {slid : SlidRemove} (silent : Silent slid) (volt : Int) :
    (push (shrink slid 1) 1 volt).buff
      (((push (shrink slid 1) 1 volt).front + filterLenMax - 1) % filterLenMax) = 0 := by
  have apart : ∀ cell < filterLenMax, (cell + filterLenMax - 1) % filterLenMax ≠ cell := by
    unfold filterLenMax
    omega
  have inside : (slid.front + slid.count) % filterLenMax < filterLenMax :=
    Nat.mod_lt _ (by decide)
  rw [silent_push silent]
  generalize (slid.front + slid.count) % filterLenMax = cell at inside
  simp only
  rw [Function.update_of_ne (apart cell inside), silent.zero]

/-- Passes without voltage. -/
def silentPasses (count : Nat) : List Pass := (List.replicate count 0).map unitPass

/-- They leave a silent ring. -/
theorem silent_passes (draws : Nat → Nat) (spec : Spec) (count : Nat) :
    Silent ((runPasses draws (silentPasses count)).channel spec).slid := by
  induction count with
  | zero =>
    have started : (runPasses draws []).channel spec = channelStart := by cases spec <;> rfl
    show Silent ((runPasses draws []).channel spec).slid
    rw [started]
    exact ⟨fun _ => rfl, show 0 < filterLenMax by decide, Nat.zero_le 1⟩
  | succ count inductionHypothesis =>
    have tracks := run_passes_track draws spec (silentPasses count)
    have more : silentPasses (count + 1) = silentPasses count ++ [unitPass 0] := by
      simp [silentPasses, List.replicate_succ']
    obtain ⟨norm, _⟩ := unit_pass_volt (runPasses draws (silentPasses count)) spec tracks.sound
      (le_refl 0) (by decide)
    rw [more, run_passes_append, pass_slid, norm]
    exact silent_zero inductionHypothesis

/-- The ring of filtered voltages after a number of zeros. -/
structure Blank (count : Nat) (history : CircleBuffer) : Prop where
  size : history.bufferSize = historyLength
  zero : ∀ cell, history.buff cell = 0
  counted : history.count = min count historyLength
  filling : count ≤ historyLength → history.front = 0

/-- Zeros leave the ring blank. -/
theorem recorded_blank (count : Nat) : Blank count (recorded (List.replicate count 0)) := by
  induction count with
  | zero => exact ⟨rfl, fun _ => rfl, rfl, fun _ => rfl⟩
  | succ count inductionHypothesis =>
    obtain ⟨size, zero, counted, filling⟩ := inductionHypothesis
    have blank : ∀ place, Function.update (recorded (List.replicate count 0)).buff place
        (single.ofInt 0) = (recorded (List.replicate count 0)).buff := by
      intro place
      rw [Function.update_eq_self_iff, zero]
      decide
    rw [List.replicate_succ', recorded_append]
    rcases Nat.lt_or_ge count historyLength with room | full
    · rw [record_room 0 (by omega), blank]
      exact ⟨size, zero, by simp only; omega, fun _ => filling (by omega)⟩
    · rw [record_full 0 (by omega), blank]
      exact ⟨size, zero, by simp only; omega, fun few => by omega⟩

/-- Zeros before a voltage of 19. -/
def endsWithRise (length : Nat) : List Int := List.replicate (length - 1) 0 ++ [19]

/-- Their number. -/
theorem ends_with_rise_length {length : Nat} (positive : 1 ≤ length) :
    (endsWithRise length).length = length := by
  rw [endsWithRise, List.length_append, List.length_replicate, List.length_singleton]
  omega

/-- They are in range. -/
theorem ends_with_rise_bounded (length : Nat) :
    ∀ volt ∈ endsWithRise length, (0 : Int) ≤ volt ∧ volt < 2 ^ 63 := by
  intro volt member
  rcases List.mem_append.mp member with zero | last
  · rw [List.eq_of_mem_replicate zero]
    decide
  · rw [List.mem_singleton.mp last]
    decide

/-- What the extrapolation reads in the ring after a rise that is not the first voltage: the
voltage itself where the oldest should be, after the second one, and no rise until the
ring is full. -/
theorem rise_read {length : Nat} (several : 2 ≤ length) :
    let history := recorded (endsWithRise length)
    history.count = min length historyLength ∧
      history.buff history.front =
        (if length ≤ historyLength then 0 else single.ofInt 19) ∧
      history.buff ((history.front + 1) % history.bufferSize) =
        if length = 2 then single.ofInt 19 else 0 := by
  have most : historyLength = 20 := rfl
  obtain ⟨size, zero, counted, filling⟩ := recorded_blank (length - 1)
  intro history
  have appended : history = record (recorded (List.replicate (length - 1) 0)) 19 :=
    recorded_append _ _
  rw [appended]
  generalize recorded (List.replicate (length - 1) 0) = before at size zero counted filling
  rcases Nat.lt_or_ge (length - 1) historyLength with room | full
  · rw [record_room 19 (by omega), filling (by omega), counted, size]
    refine ⟨by simp only; omega, ?_, ?_⟩
    · simp only
      rw [if_pos (by omega), Function.update_of_ne (by omega), zero]
    · simp only [Function.update_apply, zero]
      have second : (0 + 1) % historyLength = 1 := by decide
      rw [second]
      split_ifs <;> first | rfl | omega
  · rw [record_full 19 (by omega), size, counted]
    have inside : (before.front + 1) % historyLength < historyLength := Nat.mod_lt _ (by decide)
    generalize (before.front + 1) % historyLength = front at inside
    have apart : (front + 1) % historyLength ≠ front := by
      rw [most] at inside ⊢
      omega
    refine ⟨by omega, ?_, ?_⟩
    · rw [if_neg (by omega)]
      exact Function.update_self _ _ _
    · rw [if_neg (by omega)]
      exact (Function.update_of_ne apart _ _).trans (zero _)

/-- The oldest recorded voltage before a rise is zero. -/
theorem rise_oldest {length : Nat} (several : 2 ≤ length) :
    (latest (endsWithRise length) historyLength).head? = some 0 := by
  have most : historyLength = 20 := rfl
  have size := ends_with_rise_length (Nat.le_of_succ_le several)
  obtain ⟨more, grown⟩ : ∃ more, length - 1 - (length - historyLength) = more + 1 :=
    ⟨length - 1 - (length - historyLength) - 1, by omega⟩
  rw [latest, size, endsWithRise,
    List.drop_append_of_le_length (by rw [List.length_replicate]; omega), List.drop_replicate,
    grown, List.replicate_succ]
  rfl

/-- A pass after a change of gain, with one sample to be discarded. -/
def discardingPass : Pass :=
  ⟨1, fun _ => 0, fun _ => ⟨1, 0, 0, 0⟩, 0, by decide, by decide⟩

/-- The voltage inserted after a rise is not the extrapolated one. -/
theorem rise_not_extrapolated {length : Nat} (several : 2 ≤ length) :
    let channel := found discardingPass .wb
      ((runPasses (fun _ => 0) ((endsWithRise length).map unitPass)).channel .wb)
    ¬Extrapolates (window channel.slid) (endsWithRise length)
      (gainTempInsert channel).voltNorm := by
  intro channel extrapolates
  have most : historyLength = 20 := rfl
  have size := ends_with_rise_length (Nat.le_of_succ_le several)
  have filters := unit_run_filters (fun _ => 0) .wb _ (ends_with_rise_bounded length)
  have silent := silent_passes (fun _ => 0) .wb (length - 1)
  have sound := (run_passes_track (fun _ => 0) .wb (silentPasses (length - 1))).sound
  have passes : (endsWithRise length).map unitPass =
      silentPasses (length - 1) ++ [unitPass 19] := by
    rw [endsWithRise, List.map_append, silentPasses]
    rfl
  obtain ⟨norm, _⟩ := unit_pass_volt (runPasses (fun _ => 0) (silentPasses (length - 1))) .wb sound
    (show (0 : Int) ≤ 19 by decide) (by decide)
  have slid : channel.slid = push (shrink ((runPasses (fun _ => 0)
      (silentPasses (length - 1))).channel .wb).slid 1) 1 19 := by
    show ((runPasses _ _).channel .wb).slid = _
    rw [passes, run_passes_append, pass_slid, norm]
    rfl
  have history : channel.historyVolt = recorded (endsWithRise length) := by
    show ((runPasses _ _).channel .wb).historyVolt = _
    rw [run_passes_recorded, filters]
  have alone : window channel.slid = [19] := by
    rw [slid, (stored_window sound 19 (by decide) (by decide)).2.2, Nat.add_sub_cancel]
    simp [window_length]
  have base : channel.slid.buff ((channel.slid.front + filterLenMax - 1) % filterLenMax) = 0 := by
    rw [slid]
    exact silent_before silent 19
  have inserted : (gainTempInsert channel).voltNorm = extrapolate 0
      (if length ≤ historyLength then 0 else single.ofInt 19)
      (if length = 2 then single.ofInt 19 else 0) (min length historyLength) := by
    obtain ⟨count, newest, oldest⟩ := rise_read several
    show extrapolate _ _ _ _ = _
    rw [base, history, newest, oldest, count]
  have value := extrapolates.value 19 (by rw [alone]; rfl) 19 (by simp [endsWithRise]) 0
    (by rw [rise_oldest several]; rfl)
  rw [inserted, size] at value
  have short : ∀ count ∈ List.range 21, 2 ≤ count →
      extrapolate 0 0 (if count = 2 then single.ofInt 19 else 0) count ≠
        extrapolate 19 (single.ofInt 19) (single.ofInt 0) count := by
    decide
  have long : extrapolate 0 (single.ofInt 19) 0 historyLength ≠
      extrapolate 19 (single.ofInt 19) (single.ofInt 0) historyLength := by
    decide
  rcases Nat.lt_or_ge historyLength length with full | filling
  · rw [if_neg (by omega), if_neg (by omega), Nat.min_eq_right (Nat.le_of_lt full)] at value
    exact long value
  · rw [if_pos filling, Nat.min_eq_left filling] at value
    exact short length (List.mem_range.mpr (by omega)) several value

/-- For voltages of a number, and for samples being discarded or not: the ring has the last
voltages and the inserted one is extrapolated from them in all runs, exactly if the ring
is being filled or has been gone round, and nothing is discarded after the first voltage. -/
theorem gain_extrapolation_iff (length : Nat) (discarding : Bool) :
    (∀ (draws : Nat → Nat) (passes : List Pass) (next : Pass) (spec : Spec),
      passes.length = length → (next.discards spec).idle = !discarding →
      let channel := found next spec ((runPasses draws passes).channel spec)
      let filters := voltFilters draws spec passes
      HistoryHolds channel.historyVolt filters ∧
        (discarding = true →
          Extrapolates (window channel.slid) filters (gainTempInsert channel).voltNorm)) ↔
    (length ≤ historyLength ∨ 2 * historyLength ≤ length) ∧
      (discarding = true → length = 0) := by
  constructor
  · intro property
    refine ⟨?_, ?_⟩
    · by_contra between
      obtain ⟨full, within⟩ := not_or.mp between
      obtain ⟨holds, _⟩ := property (fun _ => 0) ((startsWithOne length).map unitPass)
        (if discarding then discardingPass else unitPass 0) .wb
        (by rw [List.length_map, starts_with_one_length (by omega)])
        (by cases discarding <;> rfl)
      have history := run_passes_recorded (fun _ => 0) .wb ((startsWithOne length).map unitPass)
      rw [unit_run_filters _ _ _ (starts_with_one_bounded length)] at history holds
      exact first_round_misses (Nat.not_le.mp full) (Nat.not_le.mp within) (history ▸ holds)
    · rintro rfl
      by_contra some
      obtain ⟨_, extrapolates⟩ := property (fun _ => 0) ((endsWithRise length).map unitPass)
        discardingPass .wb (by rw [List.length_map, ends_with_rise_length (by omega)]) rfl
      rw [unit_run_filters _ _ _ (ends_with_rise_bounded length)] at extrapolates
      rcases Nat.lt_or_ge 1 length with several | single
      · exact rise_not_extrapolated several (extrapolates rfl)
      · have divisor := (extrapolates rfl).divisor
        rw [ends_with_rise_length (by omega)] at divisor
        have most : historyLength = 20 := rfl
        omega
  · rintro ⟨settled, first⟩ draws passes next spec rfl idle channel filters
    have counted : filters.length = passes.length := observed_length _ _ _ _
    have history : channel.historyVolt = recorded filters := run_passes_recorded draws spec passes
    refine ⟨?_, fun discards => ?_⟩
    · rw [history]
      exact recorded_holds filters (by rw [counted]; exact settled)
    · have empty : filters = [] := List.eq_nil_of_length_eq_zero (counted.trans (first discards))
      rw [empty]
      exact ⟨by decide, fun _ _ _ known => absurd known (by simp)⟩

/-- The twenty-first voltage takes the place of the second one instead of the first, and a
slope over a single voltage is divided by zero. -/
theorem twenty_first_voltage_misplaced :
    ¬HistoryHolds
        ((runPasses (fun _ => 0) ((startsWithOne 21).map unitPass)).channel .wb).historyVolt
        (voltFilters (fun _ => 0) .wb ((startsWithOne 21).map unitPass)) ∧
      ((runPasses (fun _ => 0) [unitPass 1]).channel .wb).historyVolt.count = 1 ∧
      single.sub (single.ofInt 1) (single.ofInt 1) = 0 := by
  refine ⟨?_, ?_, by decide⟩
  · rw [run_passes_recorded, unit_run_filters _ _ _ (starts_with_one_bounded 21)]
    exact first_round_misses (by decide) (by decide)
  · rw [run_passes_recorded, (recorded_filling _ _).count, voltFilters, observed_length]
    · rfl
    · rw [voltFilters, observed_length]
      decide

end Pyrometer.GainExtrapolation
