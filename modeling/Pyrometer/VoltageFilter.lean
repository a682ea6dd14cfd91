import Pyrometer.WindowFilter

/-!
# The voltage filter of the measurement

A pass of the measurement task takes the normalised voltage of either channel, replaces
it while samples are being discarded after a change of gain, filters it, and records the
filtered voltage in a ring of 20. The lengths involved are declared in four places: the
command `AN` accepts 1 to 500, the filter replaces 500 by 25, its ring has 500 cells, and
the scratch array of a channel has 20.

The voltages a pass starts from and the discard counters it finds are inputs: they come
from the normalisation and from the change of gain. A write behind the end of a scratch
array is recorded by its index; what it does to other memory is not modelled.
-/

namespace Pyrometer.VoltageFilter

open BinaryFloats RingBuffers WindowFilter

/-- The spectral channels, in the order in which they are processed. -/
inductive Spec where
  | wb
  | nb
deriving DecidableEq

/-- The length of `filter_buffer[i]`. -/
def filterBufferLength : Nat := 20

/-- `NTC_TEMP_AVER_LEN`. -/
def ntcTempAverLen : Nat := 20

/-- `circle_buffer_t`; the cells are single precision numbers. -/
structure CircleBuffer where
  buff : Nat → Nat
  front : Nat
  count : Nat
  bufferSize : Nat

/-- The counters of `gain_sw_data_t`: samples still to be discarded. -/
structure Discards where
  glToGm : Int
  gmToGh : Int
  ghToGm : Int
  gmToGl : Int
deriving DecidableEq

/-- The data of a channel: its window, its scratch array with the indices that were last
copied to, its counters and history, and the two voltages of `sens_spec_t`. -/
structure Channel where
  slid : SlidRemove
  filterBuffer : Nat → Int
  written : List Nat
  discards : Discards
  historyVolt : CircleBuffer
  voltNorm : Int
  voltFilter : Int

/-- No sample is to be discarded. -/
def Discards.idle (discards : Discards) : Bool :=
  discards.glToGm == 0 && discards.gmToGh == 0 && discards.ghToGm == 0 && discards.gmToGl == 0

/-- One sample less is to be discarded. -/
def Discards.next (discards : Discards) : Discards :=
  if discards.glToGm ≠ 0 then { discards with glToGm := discards.glToGm - 1 }
  else if discards.gmToGh ≠ 0 then { discards with gmToGh := discards.gmToGh - 1 }
  else if discards.ghToGm ≠ 0 then { discards with ghToGm := discards.ghToGm - 1 }
  else if discards.gmToGl ≠ 0 then { discards with gmToGl := discards.gmToGl - 1 }
  else discards

/-- A voltage and a slope over a number of steps, computed in single precision. -/
def extrapolate (base : Int) (newest oldest count : Nat) : Int :=
  single.toInt64 (single.add (single.ofInt base)
    (single.div (single.sub newest oldest) (single.sub (single.ofInt count) (single.ofInt 1))))

/-- `gain_temp_insert` for one channel. -/
def gainTempInsert (channel : Channel) : Channel :=
  if channel.discards.idle then channel
  else
    let history := channel.historyVolt
    let tail := (history.front + 1) % history.bufferSize
    let base := channel.slid.buff ((channel.slid.front + filterLenMax - 1) % filterLenMax)
    { channel with
      discards := channel.discards.next
      voltNorm := extrapolate base (history.buff history.front) (history.buff tail) history.count }

/-- The length the filter uses for a configured one. -/
def bufSize (tempFilterBufSize : Nat) : Nat :=
  if tempFilterBufSize < filterLenMax then tempFilterBufSize else 25

/-- A filtered voltage is recorded. -/
def record (history : CircleBuffer) (voltFilter : Int) : CircleBuffer :=
  if history.bufferSize ≤ history.count then
    let front := (history.front + 1) % history.bufferSize
    { history with
      front := front
      buff := Function.update history.buff front (single.ofInt voltFilter) }
  else
    { history with
      buff := Function.update history.buff (history.front + history.count)
        (single.ofInt voltFilter)
      count := history.count + 1 }

/-- `volt_remove_average_filter` for one channel, with the remaining values of `rand()`. -/
def filterChannel (size : Nat) (draws : Nat → Nat) (channel : Channel) :
    Channel × (Nat → Nat) :=
  let averaged :=
    slidingRemoveAverage draws channel.slid size channel.voltNorm channel.filterBuffer
  ({ channel with
      slid := averaged.slid
      filterBuffer := averaged.buffCopy
      written := averaged.written
      voltFilter := averaged.value
      historyVolt := record channel.historyVolt averaged.value },
    averaged.draws)

/-- The data of the measurement. -/
structure Measure where
  wb : Channel
  nb : Channel
  ntc : SlidRemove
  filterBufferNtc : Nat → Int
  ntcFilter : Int
  draws : Nat → Nat

/-- The data of one channel. -/
def Measure.channel (measure : Measure) : Spec → Channel
  | .wb => measure.wb
  | .nb => measure.nb

/-- `volt_remove_average_filter`: the two channels and then the internal temperature. -/
def voltRemoveAverageFilter (tempFilterBufSize : Nat) (ntcVolt : Int) (measure : Measure) :
    Measure :=
  let wb := filterChannel (bufSize tempFilterBufSize) measure.draws measure.wb
  let nb := filterChannel (bufSize tempFilterBufSize) wb.2 measure.nb
  let ntc :=
    slidingRemoveAverage nb.2 measure.ntc ntcTempAverLen ntcVolt measure.filterBufferNtc
  ⟨wb.1, nb.1, ntc.slid, ntc.buffCopy, ntc.value, ntc.draws⟩

/-- What a pass finds: the length set by the command `AN`, the normalised voltages, the
discard counters, and the voltage of the internal temperature. -/
structure Pass where
  tempFilterBufSize : Nat
  voltNorm : Spec → Int
  discards : Spec → Discards
  ntcVolt : Int
  positive : 0 < tempFilterBufSize
  limited : tempFilterBufSize ≤ filterLenMax

/-- A channel as a pass finds it. -/
def found (pass : Pass) (spec : Spec) (channel : Channel) : Channel :=
  { channel with voltNorm := pass.voltNorm spec, discards := pass.discards spec }

/-- The part of `temp_task` that inserts and filters. -/
def filterPass (measure : Measure) (pass : Pass) : Measure :=
  voltRemoveAverageFilter pass.tempFilterBufSize pass.ntcVolt
    { measure with
      wb := gainTempInsert (found pass .wb measure.wb)
      nb := gainTempInsert (found pass .nb measure.nb) }

/-- A channel after `gain_status_init`. -/
def channelStart : Channel :=
  ⟨empty, fun _ => 0, [], ⟨0, 0, 0, 0⟩, ⟨fun _ => 0, 0, 0, 20⟩, 0, 0⟩

/-- The data before the first pass. -/
def measureStart (draws : Nat → Nat) : Measure :=
  ⟨channelStart, channelStart, empty, fun _ => 0, 0, draws⟩

/-- The data after some passes. -/
def runPasses (draws : Nat → Nat) (passes : List Pass) : Measure :=
  passes.foldl filterPass (measureStart draws)

/-- One more pass. -/
theorem run_passes_append (draws : Nat → Nat) (passes : List Pass) (pass : Pass) :
    runPasses draws (passes ++ [pass]) = filterPass (runPasses draws passes) pass := by
  rw [runPasses, List.foldl_append]
  rfl

/-- A value of a channel after every pass, in their order. -/
def observed (value : Channel → Int) (spec : Spec) : Measure → List Pass → List Int
  | _, [] => []
  | measure, pass :: rest =>
      value ((filterPass measure pass).channel spec) ::
        observed value spec (filterPass measure pass) rest

/-- The normalised voltages a channel was given. -/
def voltNorms (draws : Nat → Nat) (spec : Spec) (passes : List Pass) : List Int :=
  observed Channel.voltNorm spec (measureStart draws) passes

/-- The filtered voltages of a channel. -/
def voltFilters (draws : Nat → Nat) (spec : Spec) (passes : List Pass) : List Int :=
  observed Channel.voltFilter spec (measureStart draws) passes

/-- The value after one more pass comes last. -/
theorem observed_append (value : Channel → Int) (spec : Spec) (pass : Pass)
    (passes : List Pass) : ∀ measure : Measure,
    observed value spec measure (passes ++ [pass]) =
      observed value spec measure passes ++
        [value ((filterPass (passes.foldl filterPass measure) pass).channel spec)] := by
  induction passes with
  | nil => exact fun _ => rfl
  | cons earlier rest inductionHypothesis =>
    intro measure
    rw [List.cons_append, observed, inductionHypothesis]
    rfl

/-- There is one value for every pass. -/
theorem observed_length (value : Channel → Int) (spec : Spec) (passes : List Pass) :
    ∀ measure : Measure, (observed value spec measure passes).length = passes.length := by
  induction passes with
  | nil => exact fun _ => rfl
  | cons pass rest inductionHypothesis =>
    intro measure
    rw [observed, List.length_cons, inductionHypothesis, List.length_cons]

/-- A pass inserts and filters the data of either channel, with some values of `rand()`. -/
theorem pass_channel (measure : Measure) (pass : Pass) (spec : Spec) : ∃ draws,
    (filterPass measure pass).channel spec =
      (filterChannel (bufSize pass.tempFilterBufSize) draws
        (gainTempInsert (found pass spec (measure.channel spec)))).1 := by
  cases spec with
  | wb => exact ⟨_, rfl⟩
  | nb => exact ⟨_, rfl⟩

/-- Inserting leaves the window and the history. -/
theorem insert_keeps (channel : Channel) :
    (gainTempInsert channel).slid = channel.slid ∧
      (gainTempInsert channel).historyVolt = channel.historyVolt := by
  unfold gainTempInsert
  split <;> exact ⟨rfl, rfl⟩

/-- A length the filter uses is in range and not larger than the configured one. -/
theorem buf_size_bounds {length : Nat} (positive : 0 < length) (limited : length ≤ filterLenMax) :
    0 < bufSize length ∧ bufSize length ≤ length := by
  have most : filterLenMax = 500 := rfl
  unfold bufSize
  split <;> omega

/-- A length that fits the scratch array is used as it is. -/
theorem buf_size_short {length : Nat} (short : length ≤ filterBufferLength) :
    bufSize length = length :=
  if_pos (lt_of_le_of_lt short (by decide))

/-- A length that does not fit the scratch array is replaced by none that does. -/
theorem buf_size_long {length : Nat} (long : filterBufferLength < length) :
    filterBufferLength < bufSize length := by
  unfold bufSize
  split
  · exact long
  · decide

/-- The window of a channel after a pass. -/
theorem pass_slid (measure : Measure) (pass : Pass) (spec : Spec) :
    ((filterPass measure pass).channel spec).slid =
      push (shrink (measure.channel spec).slid (bufSize pass.tempFilterBufSize))
        (bufSize pass.tempFilterBufSize) ((filterPass measure pass).channel spec).voltNorm := by
  obtain ⟨_, within⟩ := buf_size_bounds pass.positive pass.limited
  obtain ⟨draws, same⟩ := pass_channel measure pass spec
  obtain ⟨kept, _⟩ := insert_keeps (found pass spec (measure.channel spec))
  rw [same]
  show (slidingRemoveAverage draws _ _ _ _).slid = push _ _ _
  rw [average_slid _ _ _ _ (within.trans pass.limited), kept]
  rfl

/-- A channel keeps the latest of its normalised voltages. -/
theorem run_passes_track (draws : Nat → Nat) (spec : Spec) (passes : List Pass) :
    Tracks (voltNorms draws spec passes) ((runPasses draws passes).channel spec).slid := by
  induction passes using List.reverseRecOn with
  | nil =>
    have started : (runPasses draws []).channel spec = channelStart := by cases spec <;> rfl
    rw [started]
    exact ⟨⟨show 0 < filterLenMax by decide, Nat.zero_le _⟩, le_refl 0, rfl⟩
  | append_singleton passes pass inductionHypothesis =>
    obtain ⟨positive, within⟩ := buf_size_bounds pass.positive pass.limited
    rw [voltNorms, observed_append, run_passes_append, pass_slid]
    exact tracks_call inductionHypothesis _ positive (within.trans pass.limited)

/-- A call copies nothing while its window is not full, and the whole window then. -/
theorem average_written (draws : Nat → Nat) {slid : SlidRemove} {size : Nat} (newData : Int)
    (buffCopy : Nat → Int) (sound : Sound slid) (positive : 0 < size)
    (limited : size ≤ filterLenMax) :
    (slidingRemoveAverage draws slid size newData buffCopy).written =
      if slid.count + 1 < size then [] else List.range size := by
  obtain ⟨_, count, _⟩ := stored_window sound newData positive limited
  unfold slidingRemoveAverage
  simp only
  rw [if_neg (Nat.not_lt.mpr limited), count]
  by_cases room : slid.count + 1 < size
  · rw [if_pos room, if_pos (by omega)]
  · rw [if_neg room, if_neg (by omega)]
    rfl

/-- What a pass should do with a configured length: average that many of the latest
voltages, as far as the window has grown, and copy within the scratch array. -/
structure Honours (norms : List Int) (count length : Nat) (after : Channel) : Prop where
  stored : window after.slid = latest norms (min (count + 1) length)
  averaged : (∀ volt ∈ window after.slid, 0 ≤ volt) → (window after.slid).sum < 2 ^ 63 →
    after.voltFilter = expected after.slid length
  copied : ∀ index ∈ after.written, index < filterBufferLength

/-- What a pass does to a channel with the length that it uses. -/
structure PassEffect (before after : Channel) (size : Nat) : Prop where
  count : after.slid.count = min (before.slid.count + 1) size
  averaged : (∀ volt ∈ window after.slid, 0 ≤ volt) → (window after.slid).sum < 2 ^ 63 →
    after.voltFilter = expected after.slid size
  written : after.written = if before.slid.count + 1 < size then [] else List.range size

/-- A pass pushes one voltage, averages the window and copies it once it is full. -/
theorem pass_effect (measure : Measure) (pass : Pass) (spec : Spec)
    (sound : Sound (measure.channel spec).slid) :
    PassEffect (measure.channel spec) ((filterPass measure pass).channel spec)
      (bufSize pass.tempFilterBufSize) := by
  obtain ⟨positive, within⟩ := buf_size_bounds pass.positive pass.limited
  have limited := within.trans pass.limited
  obtain ⟨generator, same⟩ := pass_channel measure pass spec
  obtain ⟨kept, _⟩ := insert_keeps (found pass spec (measure.channel spec))
  have soundInserted : Sound (gainTempInsert (found pass spec (measure.channel spec))).slid := by
    rw [kept]
    exact sound
  constructor
  case count =>
    rw [pass_slid]
    exact (stored_window sound _ positive limited).2.1
  case averaged =>
    rw [same]
    exact average_value generator
      (gainTempInsert (found pass spec (measure.channel spec))).voltNorm
      (gainTempInsert (found pass spec (measure.channel spec))).filterBuffer soundInserted
      positive limited
  case written =>
    rw [same]
    show (slidingRemoveAverage generator _ _ _ _).written = _
    rw [average_written generator _ _ soundInserted positive limited, kept]
    rfl

/-- A pass treats its length right if it fits the scratch array or the window is not yet
full. -/
theorem pass_honours (draws : Nat → Nat) (spec : Spec) (passes : List Pass) (pass : Pass)
    (right : pass.tempFilterBufSize ≤ filterBufferLength ∨
      ((runPasses draws passes).channel spec).slid.count + 1 < bufSize pass.tempFilterBufSize) :
    Honours (voltNorms draws spec (passes ++ [pass]))
      ((runPasses draws passes).channel spec).slid.count pass.tempFilterBufSize
      ((runPasses draws (passes ++ [pass])).channel spec) := by
  obtain ⟨_, within⟩ := buf_size_bounds pass.positive pass.limited
  have after := run_passes_track draws spec (passes ++ [pass])
  have effect := pass_effect (runPasses draws passes) pass spec
    (run_passes_track draws spec passes).sound
  rw [run_passes_append] at after ⊢
  constructor
  case stored =>
    rw [after.stored, effect.count]
    rcases right with short | room
    · rw [buf_size_short short]
    · rw [Nat.min_eq_left room.le, Nat.min_eq_left (by omega)]
  case averaged =>
    intro nonNegative fits
    rw [effect.averaged nonNegative fits, expected, expected, effect.count]
    rcases right with short | room
    · rw [buf_size_short short]
    · rw [if_pos (by omega), if_pos (by omega)]
  case copied =>
    intro index member
    rw [effect.written] at member
    rcases right with short | room
    · split at member
      case isTrue growing => exact absurd member List.not_mem_nil
      case isFalse full =>
        rw [buf_size_short short, List.mem_range] at member
        exact lt_of_lt_of_le member short
    · rw [if_pos room] at member
      exact absurd member List.not_mem_nil

/-- A pass with a full window that does not fit the scratch array writes behind its end. -/
theorem pass_overruns (draws : Nat → Nat) (spec : Spec) (passes : List Pass) (pass : Pass)
    (long : filterBufferLength < pass.tempFilterBufSize)
    (full : bufSize pass.tempFilterBufSize ≤
      ((runPasses draws passes).channel spec).slid.count + 1) :
    filterBufferLength ∈ ((runPasses draws (passes ++ [pass])).channel spec).written := by
  have effect := pass_effect (runPasses draws passes) pass spec
    (run_passes_track draws spec passes).sound
  rw [run_passes_append, effect.written, if_neg (Nat.not_lt.mpr full), List.mem_range]
  exact buf_size_long long

/-- In every run each pass treats its length right exactly if in each the length fits the
scratch array or the window is not yet full. -/
theorem filter_length_honoured_iff (draws : Nat → Nat) (spec : Spec) (passes : List Pass) :
    (∀ earlier pass rest, passes = earlier ++ pass :: rest →
      Honours (voltNorms draws spec (earlier ++ [pass]))
        ((runPasses draws earlier).channel spec).slid.count pass.tempFilterBufSize
        ((runPasses draws (earlier ++ [pass])).channel spec)) ↔
    ∀ earlier pass rest, passes = earlier ++ pass :: rest →
      pass.tempFilterBufSize ≤ filterBufferLength ∨
        ((runPasses draws earlier).channel spec).slid.count + 1 <
          bufSize pass.tempFilterBufSize := by
  refine forall₄_congr fun earlier pass rest split => ⟨fun honours => ?_, fun right => ?_⟩
  · by_contra wrong
    obtain ⟨long, full⟩ := not_or.mp wrong
    have overrun := pass_overruns draws spec earlier pass (Nat.not_le.mp long)
      (Nat.not_lt.mp full)
    exact lt_irrefl _ (honours.copied filterBufferLength overrun)
  · exact pass_honours draws spec earlier pass right

/-- A pass without voltage, with the length 21. -/
def longPass : Pass :=
  ⟨21, fun _ => 0, fun _ => ⟨0, 0, 0, 0⟩, 0, by decide, by decide⟩

/-- The twenty-first pass with the length 21 copies an element behind the scratch array. -/
theorem long_pass_overruns :
    ¬Honours (voltNorms (fun _ => 0) .wb (List.replicate 20 longPass ++ [longPass]))
      ((runPasses (fun _ => 0) (List.replicate 20 longPass)).channel .wb).slid.count
      longPass.tempFilterBufSize
      ((runPasses (fun _ => 0) (List.replicate 20 longPass ++ [longPass])).channel .wb) := by
  intro honours
  have count : ((runPasses (fun _ => 0) (List.replicate 20 longPass)).channel .wb).slid.count =
      20 := by decide +kernel
  have overrun := pass_overruns (fun _ => 0) .wb (List.replicate 20 longPass) longPass (by decide)
    (by rw [count]; decide)
  exact lt_irrefl _ (honours.copied filterBufferLength overrun)

end Pyrometer.VoltageFilter
