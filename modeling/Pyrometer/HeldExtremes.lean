import Pyrometer.HoldFilter

/-!
# What a hold should do

Beside a run of the holding filter we watch one temperature: its samples since the present
hold began, and the timer periods since its value was last exceeded. A hold begins with a
sample when nothing is held, and with every sample when the holding time is zero.

The published value should be the extreme of these samples, the holding time that of the
mode, and a hold should end in time. Many small things of the source are in the way: the
values are whole degrees, the times of the two modes are mixed up between the channels, the
record of the ratio is missing, times below a second are cut to zero, the longest time does
not follow new extremes and ends after all, the count is compared for equality, and a
second timer period is lost when no pass came between. In a run that meets none of these
the filter does what it should.
-/

namespace Pyrometer.HeldExtremes

open BinaryFloats HoldFilter Runs TemperatureStatus

/-- A sample is not beyond a value. -/
def Within (mode : HoldMode) (sample value : ℚ) : Prop :=
  match mode with
  | .peak => sample ≤ value
  | .valley => value ≤ sample

/-- A sample is beyond all that came before. -/
def exceeds (mode : HoldMode) (since : List ℚ) (sample : ℚ) : Bool :=
  since.all fun earlier =>
    match mode with
    | .peak => decide (earlier < sample)
    | .valley => decide (sample < earlier)

/-- A temperature that is watched: the samples of the present hold and the timer periods
since it was last exceeded. -/
structure Watch where
  since : List ℚ
  age : Nat

/-- A run with the watch beside it. -/
structure Watched where
  holding : Holding
  watch : Watch

/-- A holding time of zero. -/
def noTime (time : Nat) : Bool := single.magnitude time == 0

/-- The timer periods in a holding time. -/
def periods (time : Nat) : Nat := (single.toInt32 (tenfold time)).toNat

/-- The timer finds a count equal to the holding time. -/
def reached (time count : Nat) : Bool := sameFloat (single.ofInt count) (tenfold time)

/-- The timer finds the count equal to the holding time when all its periods have passed,
and not before. -/
def WholePeriods (time : Nat) : Prop :=
  ∀ count ≤ periods time, reached time count = true ↔ count = periods time

/-- A hold begins with a sample that is taken now. -/
def begins (mode : HoldMode) (channel : TempChannel) (holding : Holding) : Bool :=
  ((offered mode holding).records channel).count == 0 || noTime (holding.activeTime mode)

/-- The watch after an event. -/
def watchNext (mode : HoldMode) (channel : TempChannel) (before : Watched) : Event → Watch
  | .sample temps =>
      if begins mode channel before.holding then ⟨[temps channel], 0⟩
      else
        ⟨before.watch.since ++ [temps channel],
          if exceeds mode before.watch.since (temps channel) then 0 else before.watch.age⟩
  | .tick => { before.watch with age := before.watch.age + 1 }
  | _ => before.watch

/-- An event with the watch beside it. -/
def watchedNext (mode : HoldMode) (channel : TempChannel) (before : Watched) (event : Event) :
    Watched :=
  ⟨happen mode before.holding event, watchNext mode channel before event⟩

/-- What is published of a sample. -/
def publishedValue (mode : HoldMode) (channel : TempChannel) (before : Watched)
    (temps : TempChannel → ℚ) : ℚ :=
  ((filtered mode before.holding temps channel).1 : ℚ)

/-- What an event should do: a sample publishes the extreme of the present hold and is
filtered with the time of the mode, a time of zero holds nothing, the longest time holds
on, and a hold ends in time. -/
structure Follows (mode : HoldMode) (channel : TempChannel) (before : Watched) (event : Event) :
    Prop where
  extreme : ∀ temps, event = .sample temps →
    publishedValue mode channel before temps ∈ (watchedNext mode channel before event).watch.since ∧
      ∀ sample ∈ (watchedNext mode channel before event).watch.since,
        Within mode sample (publishedValue mode channel before temps)
  timed : ∀ temps, event = .sample temps →
    before.holding.usedTime channel = before.holding.activeTime mode
  off : ∀ temps, event = .sample temps → noTime (before.holding.activeTime mode) = true →
    publishedValue mode channel before temps = temps channel
  unlimited : ∀ temps, event = .sample temps →
    before.holding.activeTime mode = longestTime →
    (before.holding.records channel).count ≠ 0 → before.holding.triggerFlag = false →
      (watchedNext mode channel before event).watch.since = before.watch.since ++ [temps channel]
  ends : ((watchedNext mode channel before event).holding.records channel).count ≠ 0 →
    noTime ((watchedNext mode channel before event).holding.activeTime mode) = false →
    (watchedNext mode channel before event).holding.activeTime mode ≠ longestTime →
      (watchedNext mode channel before event).watch.age ≤
        periods ((watchedNext mode channel before event).holding.activeTime mode) + 1

/-- The time of the mode is passed to the filter of a channel that has a record. -/
def Paired (mode : HoldMode) (channel : TempChannel) (holding : Holding) : Prop :=
  (mode = .peak ∧ channel = .wb) ∨ (mode = .valley ∧ channel = .nb) ∨
    (holding.peakHoldingTime = holding.valleyHoldingTime ∧ channel ≠ .ratio)

/-- A holding time that the filter counts and does not take for another: zero, the longest,
or a whole number of timer periods that is not cut to one of these. -/
def Countable (time : Nat) : Prop :=
  noTime time = true ∨ time = longestTime ∨
    (single.toInt32 time ≠ 0 ∧ single.toInt32 time ≠ holdingTimeUpper ∧
      WholePeriods time ∧ 0 < periods time)

/-- A holding time that is not shorter than a hold has already lasted. -/
def Lasts (time count : Nat) : Prop :=
  count = 0 ∨ noTime time = true ∨ time = longestTime ∨
    (WholePeriods time ∧ count ≤ periods time)

/-- An event that meets none of the things in the way. -/
def Regular (mode : HoldMode) (channel : TempChannel) (before : Watched) : Event → Prop
  | .sample temps =>
      Paired mode channel before.holding ∧ (temps channel).den = 1 ∧
        Countable (before.holding.activeTime mode) ∧
        (before.holding.activeTime mode = longestTime →
          ¬(before.holding.timerFlag = true ∧
            reached longestTime (before.holding.records channel).count = true) ∧
          (begins mode channel before.holding = true ∨
            mode.beyond (before.holding.records channel).data
              (wholeDegrees (temps channel)) = false))
  | .tick => before.holding.timerFlag = false
  | .trigger => True
  | .setPeak time =>
      mode = .peak → acceptedTime time = true →
        Lasts time (before.holding.records channel).count
  | .setValley time =>
      mode = .valley → acceptedTime time = true →
        Lasts time (before.holding.records channel).count

/-- The record and the watch agree: what is held is the extreme of the samples, the count is
one more than the counted periods, and it has not passed the holding time. -/
structure Tracks (mode : HoldMode) (channel : TempChannel) (watched : Watched) : Prop where
  held : (watched.holding.records channel).count ≠ 0 →
    ((watched.holding.records channel).data : ℚ) ∈ watched.watch.since ∧
      ∀ sample ∈ watched.watch.since,
        Within mode sample ((watched.holding.records channel).data : ℚ)
  aged : (watched.holding.records channel).count ≠ 0 →
    watched.watch.age + 1 = (watched.holding.records channel).count +
      if watched.holding.timerFlag then 1 else 0
  bounded : (watched.holding.records channel).count ≠ 0 →
    Lasts (watched.holding.activeTime mode) (watched.holding.records channel).count

/-- Zero is cut to zero. -/
theorem zero_integer {time : Nat} (zero : noTime time = true) : single.toInt32 time = 0 := by
  have magnitude : single.magnitude time = 0 := beq_iff_eq.mp zero
  have nothing : (single.ratio 0).1 = 0 := by decide
  have finite : 0 ≠ single.infinity := by decide
  simp [Format.toInt32, Format.isNan, Format.isInfinite, magnitude, nothing, finite]

/-- The longest time is cut to the upper limit. -/
theorem longest_integer : single.toInt32 longestTime = holdingTimeUpper := by decide

/-- The longest time is not zero. -/
theorem longest_some : noTime longestTime = false := by decide

/-- A whole number of degrees is kept. -/
theorem whole_degrees {temp : ℚ} (whole : temp.den = 1) : (wholeDegrees temp : ℚ) = temp := by
  rw [wholeDegrees, whole, Nat.cast_one, Int.tdiv_one]
  exact Rat.coe_int_num_of_den_eq_one whole

/-- The record that the filter is called with: nothing is held any more, or what was held
still is, and a timer period has been counted. -/
theorem offered_cases (mode : HoldMode) (holding : Holding) {channel : TempChannel}
    (inside : channel ≠ .ratio) :
    ((offered mode holding).records channel).count = 0 ∨
      ((holding.records channel).count ≠ 0 ∧
        (holding.timerFlag = true →
          reached (holding.activeTime mode) (holding.records channel).count = false) ∧
        (offered mode holding).records channel =
          ⟨(holding.records channel).data,
            (holding.records channel).count + if holding.timerFlag then 1 else 0⟩) := by
  unfold offered handleTrigger timer4TriggerCallback
  cases timer : holding.timerFlag with
  | false =>
    cases trigger : holding.triggerFlag with
    | true => exact Or.inl (by simp [trigger, inside])
    | false =>
      by_cases empty : (holding.records channel).count = 0
      · exact Or.inl (by simp [trigger, empty])
      · exact Or.inr ⟨empty, by simp, by simp [trigger]⟩
  | true =>
    cases trigger : holding.triggerFlag with
    | true => exact Or.inl (by simp [inside])
    | false =>
      by_cases empty : (holding.records channel).count = 0
      · left
        simp only [if_true, Bool.false_eq_true, if_false, countPeriod, empty]
        split <;> simp [empty]
      · cases arrived : reached (holding.activeTime mode) (holding.records channel).count with
        | true =>
          have same : sameFloat (single.ofInt (holding.records channel).count)
              (tenfold (holding.activeTime mode)) = true := arrived
          exact Or.inl (by simp [countPeriod, same])
        | false =>
          have different : sameFloat (single.ofInt (holding.records channel).count)
              (tenfold (holding.activeTime mode)) = false := arrived
          exact Or.inr ⟨empty, fun _ => rfl, by simp [countPeriod, different, empty]⟩

/-- Without the external trigger and with a count that is not reached, what is held still
is. -/
theorem offered_goes_on (mode : HoldMode) (holding : Holding) {channel : TempChannel}
    (held : (holding.records channel).count ≠ 0) (quiet : holding.triggerFlag = false)
    (lasting : ¬(holding.timerFlag = true ∧
      reached (holding.activeTime mode) (holding.records channel).count = true)) :
    ((offered mode holding).records channel).count ≠ 0 := by
  unfold offered handleTrigger timer4TriggerCallback
  cases timer : holding.timerFlag with
  | false => simpa [quiet] using held
  | true =>
    have different : sameFloat (single.ofInt (holding.records channel).count)
        (tenfold (holding.activeTime mode)) = false :=
      (Bool.not_eq_true _).mp fun same => lasting ⟨timer, same⟩
    simp [quiet, countPeriod, different, held]

/-- The filter takes a value when nothing is held or the time is zero. -/
theorem fliter_begins (mode : HoldMode) {slid : SlidHolding} {size : Int} (new : Int)
    (beginning : slid.count = 0 ∨ size = 0) :
    holdingFliter mode slid size new = (new, ⟨new, 1⟩) := by
  have notHeld : ¬(size = holdingTimeUpper ∧ slid.count ≠ 0) := by
    rintro ⟨longest, held⟩
    rcases beginning with empty | zero
    · exact held empty
    · exact absurd (longest.symm.trans zero) (by decide)
  unfold holdingFliter
  rw [if_neg notHeld]
  rcases beginning with empty | zero
  · split_ifs <;> simp_all
  · simp [zero]

/-- The filter takes a value that is beyond the held one and keeps that otherwise. -/
theorem fliter_goes_on {mode : HoldMode} {slid : SlidHolding} {size new : Int}
    (held : slid.count ≠ 0) (nonzero : size ≠ 0)
    (limited : size = holdingTimeUpper → mode.beyond slid.data new = false) :
    holdingFliter mode slid size new =
      if mode.beyond slid.data new then (new, ⟨new, 1⟩) else (slid.data, slid) := by
  unfold holdingFliter
  by_cases longest : size = holdingTimeUpper
  · rw [if_pos ⟨longest, held⟩, limited longest, if_neg Bool.false_ne_true]
  · rw [if_neg (fun both => longest both.1), if_neg nonzero]
    simp [held]

/-- Whether a whole number is beyond all samples depends on their extreme. -/
theorem exceeds_extreme {mode : HoldMode} {since : List ℚ} {held : Int} (new : Int)
    (member : (held : ℚ) ∈ since) (extreme : ∀ sample ∈ since, Within mode sample held) :
    exceeds mode since new = mode.beyond held new := by
  rw [Bool.eq_iff_iff]
  cases mode with
  | peak =>
    simp only [exceeds, List.all_eq_true, decide_eq_true_eq, HoldMode.beyond]
    constructor
    · exact fun all => by exact_mod_cast all held member
    · exact fun beyond sample among =>
        lt_of_le_of_lt (extreme sample among) (by exact_mod_cast beyond)
  | valley =>
    simp only [exceeds, List.all_eq_true, decide_eq_true_eq, HoldMode.beyond]
    constructor
    · exact fun all => by exact_mod_cast all held member
    · exact fun beyond sample among =>
        lt_of_lt_of_le (by exact_mod_cast beyond) (extreme sample among)

/-- A number is not beyond itself. -/
theorem within_self (mode : HoldMode) (value : ℚ) : Within mode value value := by
  cases mode <;> exact le_refl value

/-- Samples that are not beyond a value are not beyond one that is beyond it. -/
theorem within_beyond {mode : HoldMode} {sample : ℚ} {held new : Int}
    (within : Within mode sample held) (beyond : mode.beyond held new = true) :
    Within mode sample new := by
  cases mode with
  | peak =>
    have larger : held < new := of_decide_eq_true beyond
    exact le_trans within (by exact_mod_cast larger.le)
  | valley =>
    have smaller : new < held := of_decide_eq_true beyond
    exact le_trans (by exact_mod_cast smaller.le) within

/-- A number that is not beyond a value. -/
theorem within_of_not_beyond {mode : HoldMode} {held new : Int}
    (notBeyond : mode.beyond held new = false) : Within mode (new : ℚ) held := by
  cases mode with
  | peak =>
    have small : ¬held < new := of_decide_eq_false notBeyond
    exact (by exact_mod_cast not_lt.mp small : (new : ℚ) ≤ held)
  | valley =>
    have large : ¬new < held := of_decide_eq_false notBeyond
    exact (by exact_mod_cast not_lt.mp large : (held : ℚ) ≤ new)

/-- A channel is filtered with the time of the mode and has a record. -/
theorem paired_time {mode : HoldMode} {channel : TempChannel} {holding : Holding}
    (paired : Paired mode channel holding) :
    holding.usedTime channel = holding.activeTime mode ∧ channel ≠ .ratio := by
  rcases paired with ⟨rfl, rfl⟩ | ⟨rfl, rfl⟩ | ⟨same, inside⟩
  · exact ⟨rfl, by decide⟩
  · exact ⟨rfl, by decide⟩
  · refine ⟨?_, inside⟩
    cases mode <;> cases channel <;> first | rfl | exact same | exact same.symm

/-- A pass has used up both flags and leaves the times. -/
theorem offered_flags (mode : HoldMode) (holding : Holding) :
    (offered mode holding).timerFlag = false ∧
      (offered mode holding).activeTime mode = holding.activeTime mode := by
  unfold offered handleTrigger timer4TriggerCallback
  cases timer : holding.timerFlag <;> cases trigger : holding.triggerFlag <;>
    cases mode <;> simp [timer, trigger, Holding.activeTime]

/-- A hold that is tracked ends in time. -/
theorem tracks_ends {mode : HoldMode} {channel : TempChannel} {watched : Watched}
    (tracks : Tracks mode channel watched)
    (held : (watched.holding.records channel).count ≠ 0)
    (timed : noTime (watched.holding.activeTime mode) = false)
    (limited : watched.holding.activeTime mode ≠ longestTime) :
    watched.watch.age ≤ periods (watched.holding.activeTime mode) + 1 := by
  have aged := tracks.aged held
  rcases tracks.bounded held with empty | zero | longest | ⟨_, within⟩
  · exact absurd empty held
  · rw [timed] at zero
    exact absurd zero Bool.false_ne_true
  · exact absurd longest limited
  · split at aged <;> omega

/-- A countable time is not shorter than a hold that has just begun. -/
theorem countable_lasts {time : Nat} (countable : Countable time) : Lasts time 1 := by
  rcases countable with zero | longest | ⟨_, _, whole, positive⟩
  · exact Or.inr (Or.inl zero)
  · exact Or.inr (Or.inr (Or.inl longest))
  · exact Or.inr (Or.inr (Or.inr ⟨whole, positive⟩))

/-- What a sample leaves when a hold begins. -/
theorem begins_filtered {mode : HoldMode} {channel : TempChannel} {holding : Holding}
    (temps : TempChannel → ℚ) (timed : holding.usedTime channel = holding.activeTime mode)
    (beginning : begins mode channel holding = true) :
    filtered mode holding temps channel =
      (wholeDegrees (temps channel), ⟨wholeDegrees (temps channel), 1⟩) := by
  apply fliter_begins
  rcases Bool.or_eq_true_iff.mp beginning with empty | zero
  · exact Or.inl (beq_iff_eq.mp empty)
  · rw [timed]
    exact Or.inr (zero_integer zero)

/-- The timer flag and the time of the mode after a sample. -/
theorem sample_flags (mode : HoldMode) (channel : TempChannel) (before : Watched)
    (temps : TempChannel → ℚ) :
    (watchedNext mode channel before (.sample temps)).holding.timerFlag = false ∧
      (watchedNext mode channel before (.sample temps)).holding.activeTime mode =
        before.holding.activeTime mode :=
  offered_flags mode before.holding

/-- A hold that begins is tracked. -/
theorem begins_tracks {mode : HoldMode} {channel : TempChannel} {before : Watched}
    {temps : TempChannel → ℚ}
    (timed : before.holding.usedTime channel = before.holding.activeTime mode)
    (whole : (temps channel).den = 1) (countable : Countable (before.holding.activeTime mode))
    (beginning : begins mode channel before.holding = true) :
    Tracks mode channel (watchedNext mode channel before (.sample temps)) := by
  obtain ⟨noTimer, sameTime⟩ := sample_flags mode channel before temps
  have record : ((watchedNext mode channel before (.sample temps)).holding.records channel) =
      ⟨wholeDegrees (temps channel), 1⟩ :=
    congrArg Prod.snd (begins_filtered temps timed beginning)
  have watch : (watchedNext mode channel before (.sample temps)).watch = ⟨[temps channel], 0⟩ :=
    if_pos beginning
  constructor
  case held =>
    intro _
    rw [record, watch]
    simp only [whole_degrees whole, List.mem_singleton, forall_eq]
    exact ⟨trivial, within_self mode _⟩
  case aged =>
    intro _
    rw [record, watch, noTimer]
    rfl
  case bounded =>
    intro _
    rw [record, sameTime]
    exact countable_lasts countable

/-- A time that has been counted on is not shorter than the hold. -/
theorem lasts_more {time count : Nat} {pending : Bool} (held : count ≠ 0)
    (timed : noTime time = false) (lasts : Lasts time count)
    (notReached : pending = true → reached time count = false) :
    Lasts time (count + if pending then 1 else 0) := by
  rcases lasts with empty | zero | longest | ⟨whole, within⟩
  · exact absurd empty held
  · rw [timed] at zero
    exact absurd zero Bool.false_ne_true
  · exact Or.inr (Or.inr (Or.inl longest))
  · refine Or.inr (Or.inr (Or.inr ⟨whole, ?_⟩))
    cases pending with
    | false => exact within
    | true =>
      have before : count ≠ periods time := fun last => by
        have now := (whole count within).mpr last
        rw [notReached rfl] at now
        exact absurd now Bool.false_ne_true
      simp only [if_true]
      omega

/-- A countable time that is passed on as the upper limit is the longest, and one that is not
zero is not passed on as zero. -/
theorem countable_integer {time : Nat} (countable : Countable time) (timed : noTime time = false) :
    single.toInt32 time ≠ 0 ∧ (single.toInt32 time = holdingTimeUpper → time = longestTime) := by
  rcases countable with zero | rfl | ⟨nonzero, notUpper, _, _⟩
  · rw [timed] at zero
    exact absurd zero Bool.false_ne_true
  · refine ⟨?_, fun _ => rfl⟩
    rw [longest_integer]
    decide
  · exact ⟨nonzero, fun upper => absurd upper notUpper⟩

/-- A sample is beyond what is held. -/
def passes (mode : HoldMode) (channel : TempChannel) (before : Watched)
    (temps : TempChannel → ℚ) : Bool :=
  mode.beyond (before.holding.records channel).data (wholeDegrees (temps channel))

/-- What a sample does when a hold goes on: the filter takes it if it is beyond what is held
and counts a timer period otherwise, and the watch agrees. -/
structure GoesOn (mode : HoldMode) (channel : TempChannel) (before : Watched)
    (temps : TempChannel → ℚ) : Prop where
  held : (before.holding.records channel).count ≠ 0
  limited : noTime (before.holding.activeTime mode) = false
  notReached : before.holding.timerFlag = true →
    reached (before.holding.activeTime mode) (before.holding.records channel).count = false
  filter : filtered mode before.holding temps channel =
    if passes mode channel before temps then
      (wholeDegrees (temps channel), ⟨wholeDegrees (temps channel), 1⟩)
    else ((before.holding.records channel).data,
      ⟨(before.holding.records channel).data, (before.holding.records channel).count +
        if before.holding.timerFlag then 1 else 0⟩)
  watch : (watchedNext mode channel before (.sample temps)).watch =
    ⟨before.watch.since ++ [temps channel],
      if passes mode channel before temps then 0 else before.watch.age⟩

/-- A regular sample that begins no hold goes on with one. -/
theorem sample_goes_on {mode : HoldMode} {channel : TempChannel} {before : Watched}
    {temps : TempChannel → ℚ} (tracks : Tracks mode channel before)
    (regular : Regular mode channel before (.sample temps))
    (goesOn : begins mode channel before.holding = false) :
    GoesOn mode channel before temps := by
  obtain ⟨paired, whole, countable, longest⟩ := regular
  obtain ⟨timed, inside⟩ := paired_time paired
  obtain ⟨notEmpty, present⟩ := Bool.or_eq_false_iff.mp goesOn
  have nonempty : ((offered mode before.holding).records channel).count ≠ 0 :=
    beq_eq_false_iff_ne.mp notEmpty
  obtain empty | ⟨held, notReached, same⟩ := offered_cases mode before.holding inside
  · exact absurd empty nonempty
  obtain ⟨member, extreme⟩ := tracks.held held
  obtain ⟨nonzero, upper⟩ := countable_integer countable present
  constructor
  case held => exact held
  case limited => exact present
  case notReached => exact notReached
  case filter =>
    have notBeyond : single.toInt32 (before.holding.usedTime channel) = holdingTimeUpper →
        mode.beyond ((offered mode before.holding).records channel).data
          (wholeDegrees (temps channel)) = false := by
      intro limited
      rw [timed] at limited
      rcases (longest (upper limited)).2 with beginning | notBeyond
      · rw [goesOn] at beginning
        exact absurd beginning Bool.false_ne_true
      · rw [same]
        exact notBeyond
    have result := fliter_goes_on nonempty (timed ▸ nonzero) notBeyond
    rw [same] at result
    exact (congrArg (holdingFliter mode · _ _) same).trans result
  case watch =>
    have beyondAll : exceeds mode before.watch.since (temps channel) =
        passes mode channel before temps := by
      have exceed := exceeds_extreme (wholeDegrees (temps channel)) member extreme
      rwa [whole_degrees whole] at exceed
    rw [← beyondAll]
    exact if_neg (by rw [goesOn]; exact Bool.false_ne_true)

/-- A new extreme is tracked. -/
theorem passed_tracks {mode : HoldMode} {channel : TempChannel} {before : Watched}
    {temps : TempChannel → ℚ} (tracks : Tracks mode channel before)
    (whole : (temps channel).den = 1) (countable : Countable (before.holding.activeTime mode))
    (goesOn : GoesOn mode channel before temps) (passed : passes mode channel before temps = true) :
    Tracks mode channel (watchedNext mode channel before (.sample temps)) := by
  have watch := goesOn.watch
  have record : (watchedNext mode channel before (.sample temps)).holding.records channel =
      (filtered mode before.holding temps channel).2 := rfl
  obtain ⟨noTimer, sameTime⟩ := sample_flags mode channel before temps
  rw [goesOn.filter, passed, if_pos rfl] at record
  rw [passed, if_pos rfl] at watch
  constructor
  case held =>
    intro _
    rw [record, watch]
    refine ⟨by simp [whole_degrees whole], fun sample among => ?_⟩
    rcases List.mem_append.mp among with earlier | last
    · exact within_beyond ((tracks.held goesOn.held).2 sample earlier) passed
    · rw [List.mem_singleton.mp last, whole_degrees whole]
      exact within_self mode _
  case aged =>
    intro _
    rw [record, watch, noTimer]
    rfl
  case bounded =>
    intro _
    rw [record, sameTime]
    exact countable_lasts countable

/-- A sample that is not beyond what is held is tracked. -/
theorem kept_tracks {mode : HoldMode} {channel : TempChannel} {before : Watched}
    {temps : TempChannel → ℚ} (tracks : Tracks mode channel before)
    (whole : (temps channel).den = 1) (goesOn : GoesOn mode channel before temps)
    (kept : passes mode channel before temps = false) :
    Tracks mode channel (watchedNext mode channel before (.sample temps)) := by
  have watch := goesOn.watch
  have record : (watchedNext mode channel before (.sample temps)).holding.records channel =
      (filtered mode before.holding temps channel).2 := rfl
  obtain ⟨noTimer, sameTime⟩ := sample_flags mode channel before temps
  obtain ⟨member, extreme⟩ := tracks.held goesOn.held
  rw [goesOn.filter, kept, if_neg Bool.false_ne_true] at record
  rw [kept, if_neg Bool.false_ne_true] at watch
  constructor
  case held =>
    intro _
    rw [record, watch]
    refine ⟨List.mem_append_left _ member, fun sample among => ?_⟩
    rcases List.mem_append.mp among with earlier | last
    · exact extreme sample earlier
    · rw [List.mem_singleton.mp last, ← whole_degrees whole]
      exact within_of_not_beyond kept
  case aged =>
    intro _
    rw [record, watch, noTimer]
    exact tracks.aged goesOn.held
  case bounded =>
    intro _
    rw [record, sameTime]
    exact lasts_more goesOn.held goesOn.limited (tracks.bounded goesOn.held) goesOn.notReached

/-- A hold that goes on is tracked. -/
theorem goes_on_tracks {mode : HoldMode} {channel : TempChannel} {before : Watched}
    {temps : TempChannel → ℚ} (tracks : Tracks mode channel before)
    (regular : Regular mode channel before (.sample temps))
    (goesOn : begins mode channel before.holding = false) :
    Tracks mode channel (watchedNext mode channel before (.sample temps)) ∧
      ((watchedNext mode channel before (.sample temps)).holding.records channel).count ≠ 0 ∧
      (filtered mode before.holding temps channel).1 =
        (filtered mode before.holding temps channel).2.data := by
  have effect := sample_goes_on tracks regular goesOn
  obtain ⟨_, whole, countable, _⟩ := regular
  have held := effect.held
  show _ ∧ (filtered mode before.holding temps channel).2.count ≠ 0 ∧ _
  rw [effect.filter]
  cases passed : passes mode channel before temps with
  | true =>
    exact ⟨passed_tracks tracks whole countable effect passed, Nat.one_ne_zero, rfl⟩
  | false =>
    refine ⟨kept_tracks tracks whole effect passed, ?_, rfl⟩
    simp only [Bool.false_eq_true, if_false]
    omega

/-- A regular sample is tracked and does what it should. -/
theorem sample_follows {mode : HoldMode} {channel : TempChannel} {before : Watched}
    {temps : TempChannel → ℚ} (tracks : Tracks mode channel before)
    (regular : Regular mode channel before (.sample temps)) :
    Tracks mode channel (watchedNext mode channel before (.sample temps)) ∧
      Follows mode channel before (.sample temps) := by
  have ⟨paired, whole, countable, longest⟩ := regular
  obtain ⟨timed, _⟩ := paired_time paired
  have after : Tracks mode channel (watchedNext mode channel before (.sample temps)) ∧
      ((watchedNext mode channel before (.sample temps)).holding.records channel).count ≠ 0 ∧
      (filtered mode before.holding temps channel).1 =
        (filtered mode before.holding temps channel).2.data := by
    cases beginning : begins mode channel before.holding with
    | false => exact goes_on_tracks tracks regular beginning
    | true =>
      have filter := begins_filtered temps timed beginning
      refine ⟨begins_tracks timed whole countable beginning, ?_, by rw [filter]⟩
      show (filtered mode before.holding temps channel).2.count ≠ 0
      rw [filter]
      exact Nat.one_ne_zero
  obtain ⟨tracked, held, value⟩ := after
  refine ⟨tracked, ?_⟩
  constructor
  case extreme =>
    rintro other same
    obtain rfl := Event.sample.inj same
    have extreme := tracked.held held
    rw [publishedValue, value]
    exact extreme
  case timed => exact fun _ _ => timed
  case off =>
    rintro other same zero
    obtain rfl := Event.sample.inj same
    have beginning : begins mode channel before.holding = true :=
      Bool.or_eq_true_iff.mpr (Or.inr zero)
    rw [publishedValue, begins_filtered temps timed beginning, whole_degrees whole]
  case unlimited =>
    rintro other same time present quiet
    obtain rfl := Event.sample.inj same
    have goesOn := offered_goes_on mode before.holding present quiet
      (time ▸ (longest time).1)
    have beginning : begins mode channel before.holding = false := by
      rw [begins, time, longest_some, Bool.or_false]
      exact beq_eq_false_iff_ne.mpr goesOn
    show (watchNext mode channel before (.sample temps)).since = _
    rw [watchNext, beginning, if_neg Bool.false_ne_true]
  case ends => exact tracks_ends tracked

/-- An event that is no sample has only to let a hold end in time. -/
theorem follows_of_tracks {mode : HoldMode} {channel : TempChannel} {before : Watched}
    {event : Event} (noSample : ∀ temps, event ≠ .sample temps)
    (tracked : Tracks mode channel (watchedNext mode channel before event)) :
    Follows mode channel before event := by
  constructor
  case extreme => exact fun temps same => absurd same (noSample temps)
  case timed => exact fun temps same => absurd same (noSample temps)
  case off => exact fun temps same => absurd same (noSample temps)
  case unlimited => exact fun temps same => absurd same (noSample temps)
  case ends => exact tracks_ends tracked

/-- The timer is tracked if its last period was used up. -/
theorem tick_tracks {mode : HoldMode} {channel : TempChannel} {before : Watched}
    (tracks : Tracks mode channel before) (ready : before.holding.timerFlag = false) :
    Tracks mode channel (watchedNext mode channel before .tick) := by
  constructor
  case held => exact tracks.held
  case aged =>
    intro held
    have aged := tracks.aged held
    rw [ready, if_neg Bool.false_ne_true] at aged
    show before.watch.age + 1 + 1 = (before.holding.records channel).count + 1
    omega
  case bounded =>
    intro held
    have bounded := tracks.bounded held
    cases mode <;> exact bounded

/-- A change of a holding time that is not shorter than the hold has lasted. -/
theorem time_tracks {mode : HoldMode} {channel : TempChannel} {before : Watched}
    (after : Watched) (tracks : Tracks mode channel before) (watch : after.watch = before.watch)
    (records : after.holding.records = before.holding.records)
    (timer : after.holding.timerFlag = before.holding.timerFlag)
    (lasts : after.holding.activeTime mode = before.holding.activeTime mode ∨
      Lasts (after.holding.activeTime mode) (before.holding.records channel).count) :
    Tracks mode channel after := by
  constructor
  case held =>
    rw [records, watch]
    exact tracks.held
  case aged =>
    rw [records, watch, timer]
    exact tracks.aged
  case bounded =>
    rw [records]
    intro held
    rcases lasts with same | lasts
    · rw [same]
      exact tracks.bounded held
    · exact lasts

/-- A regular event is tracked and does what it should. -/
theorem event_follows {mode : HoldMode} {channel : TempChannel} {before : Watched}
    {event : Event} (tracks : Tracks mode channel before)
    (regular : Regular mode channel before event) :
    Tracks mode channel (watchedNext mode channel before event) ∧
      Follows mode channel before event := by
  cases event with
  | sample temps => exact sample_follows tracks regular
  | tick =>
    have tracked := tick_tracks tracks regular
    exact ⟨tracked, follows_of_tracks (fun _ same => by cases same) tracked⟩
  | trigger =>
    have tracked : Tracks mode channel (watchedNext mode channel before .trigger) := by
      apply time_tracks (watchedNext mode channel before .trigger) tracks rfl rfl rfl
      left
      cases mode <;> rfl
    exact ⟨tracked, follows_of_tracks (fun _ same => by cases same) tracked⟩
  | setPeak time =>
    have tracked : Tracks mode channel (watchedNext mode channel before (.setPeak time)) := by
      cases accepted : acceptedTime time with
      | false =>
        apply time_tracks (watchedNext mode channel before (.setPeak time)) tracks rfl <;>
          simp [watchedNext, happen, accepted]
      | true =>
        apply time_tracks (watchedNext mode channel before (.setPeak time)) tracks rfl <;>
          simp only [watchedNext, happen, accepted, if_true]
        cases mode with
        | peak => exact Or.inr (regular rfl accepted)
        | valley => exact Or.inl rfl
    exact ⟨tracked, follows_of_tracks (fun _ same => by cases same) tracked⟩
  | setValley time =>
    have tracked : Tracks mode channel (watchedNext mode channel before (.setValley time)) := by
      cases accepted : acceptedTime time with
      | false =>
        apply time_tracks (watchedNext mode channel before (.setValley time)) tracks rfl <;>
          simp [watchedNext, happen, accepted]
      | true =>
        apply time_tracks (watchedNext mode channel before (.setValley time)) tracks rfl <;>
          simp only [watchedNext, happen, accepted, if_true]
        cases mode with
        | peak => exact Or.inl rfl
        | valley => exact Or.inr (regular rfl accepted)
    exact ⟨tracked, follows_of_tracks (fun _ same => by cases same) tracked⟩

/-- A run before anything was measured. -/
def watchedStart : Watched := ⟨holdingStart, ⟨[], 0⟩⟩

/-- In every run of regular events, each does what it should. -/
theorem hold_follows (mode : HoldMode) (channel : TempChannel) (events : List Event)
    (regular : Along (watchedNext mode channel) (Regular mode channel) watchedStart events) :
    ∀ earlier event rest, events = earlier ++ event :: rest →
      Follows mode channel (run (watchedNext mode channel) watchedStart earlier) event := by
  intro earlier event rest split
  rw [split, along_append] at regular
  obtain ⟨before, here, _⟩ := regular
  have start : Tracks mode channel watchedStart :=
    ⟨fun held => absurd rfl held, fun held => absurd rfl held, fun held => absurd rfl held⟩
  have preserved : ∀ watched event, Tracks mode channel watched →
      Regular mode channel watched event →
        Tracks mode channel (watchedNext mode channel watched event) :=
    fun _ _ tracks regular => (event_follows tracks regular).1
  have tracks := along_invariant (watchedNext mode channel) preserved watchedStart start earlier
    before
  exact (event_follows tracks here).2

/-- A sample of one temperature on all channels. -/
def evenly (temp : ℚ) : Event := .sample fun _ => temp

/-- A second of holding in single precision. -/
def oneSecond : Nat := 0x3f800000

/-- A second has ten timer periods, which the timer counts. -/
theorem second_countable : Countable oneSecond := by
  have nonzero : single.toInt32 oneSecond ≠ 0 := by decide
  have limited : single.toInt32 oneSecond ≠ holdingTimeUpper := by decide
  have whole : ∀ count ≤ periods oneSecond,
      reached oneSecond count = true ↔ count = periods oneSecond := by decide
  exact Or.inr (Or.inr ⟨nonzero, limited, whole, by decide⟩)

/-- A peak that is held for a second. -/
theorem second_of_peak :
    Along (watchedNext .peak .wb) (Regular .peak .wb) watchedStart
        [.setPeak oneSecond, evenly 500, .tick, evenly 400] ∧
      Follows .peak .wb
        (run (watchedNext .peak .wb) watchedStart [.setPeak oneSecond, evenly 500, .tick])
        (evenly 400) := by
  have sampled : ∀ (before : Watched) (temp : Int),
      before.holding.peakHoldingTime = oneSecond →
        Regular .peak .wb before (evenly temp) := by
    intro before temp time
    have active : before.holding.activeTime .peak = oneSecond := time
    refine ⟨Or.inl ⟨rfl, rfl⟩, rfl, active ▸ second_countable, fun longest => ?_⟩
    exact absurd (active.symm.trans longest) (by decide)
  have regular : Along (watchedNext .peak .wb) (Regular .peak .wb) watchedStart
      [.setPeak oneSecond, evenly 500, .tick, evenly 400] := by
    refine ⟨fun _ _ => Or.inl rfl, ?_, ?_, ?_, True.intro⟩
    · exact sampled _ 500 (by decide)
    · show (watchedNext .peak .wb (watchedNext .peak .wb watchedStart (.setPeak oneSecond))
        (evenly 500)).holding.timerFlag = false
      decide
    · exact sampled _ 400 (by decide)
  exact ⟨regular, hold_follows .peak .wb _ regular
    [.setPeak oneSecond, evenly 500, .tick] (evenly 400) [] rfl⟩

/-- The longest holding time does not follow a new peak. -/
theorem longest_misses_peak :
    ¬Follows .peak .wb
      (run (watchedNext .peak .wb) watchedStart [.setPeak longestTime, evenly 500])
      (evenly 600) := by
  intro follows
  have extreme := (follows.extreme (fun _ => 600) rfl).2 600 (by decide)
  have published : publishedValue .peak .wb
      (run (watchedNext .peak .wb) watchedStart [.setPeak longestTime, evenly 500])
      (fun _ => 600) = 500 := by decide
  rw [published] at extreme
  have larger : (600 : ℚ) ≤ 500 := extreme
  exact absurd larger (by decide)

end Pyrometer.HeldExtremes
