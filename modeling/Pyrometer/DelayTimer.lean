import Mathlib.Tactic

/-!
# Delays by a counter that goes round

The counter goes down by one each tick and round behind zero. `gd32_delay_us` reads it again and
again, and takes what it has gone down since the last read that differed off what remains. It is
read at times that interrupts and other tasks decide; nothing is known of them but their order.

A read takes no time, and the counter is not set up anew while a delay lasts. The ticks that a
delay asks for are kept in 32 bits.
-/

namespace Pyrometer.DelayTimer

/-- `SysTick->VAL` at a time, by `SysTick->LOAD` and where the counter stood at the start. -/
def sysTickVal (load offset time : Nat) : Nat := load - (time + offset) % (load + 1)

/-- `delta`: what the counter has gone down. -/
def delta (period prev curr : Nat) : Nat :=
  if curr < prev then prev - curr else prev + period - curr

/-- The loop of `gd32_delay_us` from a read on: the read behind which it ends, if it does so
within some reads. -/
def delayLoop (period : Nat) (val : Nat → Nat) : Nat → Nat → Nat → Nat → Option Nat
  | 0, _, _, _ => none
  | left + 1, read, prev, remain =>
      if val read = prev then delayLoop period val left (read + 1) prev remain
      else if remain ≤ delta period prev (val read) then some read
      else
        delayLoop period val left (read + 1) (val read) (remain - delta period prev (val read))

/-- `gd32_delay_us`: the read behind which it ends, if it does so within some reads. -/
def gd32DelayUs (delayConst load us : Nat) (val : Nat → Nat) (reads : Nat) : Option Nat :=
  if us = 0 then some 0
  else delayLoop (load + 1) val reads 1 (val 0) (us * delayConst % 2 ^ 32)

section

variable (load offset : Nat) (sample : Nat → Nat)

/-- What the reads find. -/
def found (read : Nat) : Nat := sysTickVal load offset (sample read)

/-- The ticks that a delay counts up to a read: of each gap what is left of whole rounds. -/
def counted : Nat → Nat
  | 0 => 0
  | read + 1 => counted read + (sample (read + 1) - sample read) % (load + 1)

end

variable {load offset : Nat} {sample : Nat → Nat}

/-- Two reads agree exactly if whole rounds lie between them, and otherwise the counter has gone
down by what is left of whole rounds. -/
theorem delta_elapsed (early late : Nat) (ordered : early ≤ late) :
    (sysTickVal load offset late = sysTickVal load offset early →
        (late - early) % (load + 1) = 0) ∧
      (sysTickVal load offset late ≠ sysTickVal load offset early →
        delta (load + 1) (sysTickVal load offset early) (sysTickVal load offset late) =
          (late - early) % (load + 1)) := by
  have positive : 0 < load + 1 := Nat.succ_pos load
  have first := Nat.div_add_mod (early + offset) (load + 1)
  have second := Nat.div_add_mod (late + offset) (load + 1)
  have firstLow := Nat.mod_lt (early + offset) positive
  have secondLow := Nat.mod_lt (late + offset) positive
  have rounds : (early + offset) / (load + 1) ≤ (late + offset) / (load + 1) :=
    Nat.div_le_div_right (by omega)
  unfold sysTickVal delta
  generalize (early + offset) % (load + 1) = start at *
  generalize (late + offset) % (load + 1) = stop at *
  generalize (early + offset) / (load + 1) = before at *
  generalize (late + offset) / (load + 1) = after at *
  obtain ⟨more, rfl⟩ := Nat.exists_eq_add_of_le rounds
  rw [Nat.mul_add] at second
  have remainder (rest : Nat) (whole : Nat) (low : rest < load + 1)
      (gap : late - early = rest + (load + 1) * whole) : (late - early) % (load + 1) = rest := by
    rw [gap, Nat.add_mul_mod_self_left, Nat.mod_eq_of_lt low]
  constructor
  · intro same
    have equal : stop = start := by omega
    exact remainder 0 more positive (by omega)
  · intro differ
    split
    case isTrue below => exact (remainder _ more (by omega) (by omega)).symm
    case isFalse above =>
      have wrapped : 0 < more := by
        by_contra level
        rw [Nat.eq_zero_of_not_pos level, Nat.mul_zero] at second
        omega
      obtain ⟨whole, rfl⟩ := Nat.exists_eq_succ_of_ne_zero wrapped.ne'
      rw [Nat.mul_succ] at second
      exact (remainder _ whole (by omega) (by omega)).symm

/-- What is counted never gets less. -/
theorem counted_mono {early late : Nat} (ordered : early ≤ late) :
    counted load sample early ≤ counted load sample late := by
  induction late, ordered using Nat.le_induction with
  | base => exact le_rfl
  | succ late _ inductionHypothesis => exact inductionHypothesis.trans (Nat.le_add_right _ _)

/-- The loop ends behind the first read up to which it has counted what remained. -/
theorem loop_ends (ordered : Monotone sample) (left read remain : Nat) (positive : 0 < remain)
    (stop : Nat) :
    delayLoop (load + 1) (found load offset sample) left (read + 1) (found load offset sample read)
        remain = some stop ↔
      read < stop ∧ stop ≤ read + left ∧
        counted load sample read + remain ≤ counted load sample stop ∧
        ∀ other < stop, counted load sample other < counted load sample read + remain := by
  induction left generalizing read remain with
  | zero =>
    rw [delayLoop]
    constructor
    · intro nothing
      cases nothing
    · rintro ⟨after, before, -⟩
      omega
  | succ left inductionHypothesis =>
    obtain ⟨agree, differ⟩ :=
      @delta_elapsed load offset (sample read) (sample (read + 1)) (ordered (Nat.le_succ read))
    have next : counted load sample (read + 1) = counted load sample read +
        (sample (read + 1) - sample read) % (load + 1) := rfl
    rw [delayLoop]
    by_cases same : found load offset sample (read + 1) = found load offset sample read
    · have still := agree same
      rw [still, Nat.add_zero] at next
      rw [if_pos same, ← same, inductionHypothesis (read + 1) remain positive, next]
      constructor
      · rintro ⟨after, before, enough, earlier⟩
        exact ⟨by omega, by omega, enough, earlier⟩
      · rintro ⟨after, before, enough, earlier⟩
        have later : read + 1 ≠ stop := by
          rintro rfl
          omega
        exact ⟨by omega, by omega, enough, earlier⟩
    · have gone := differ same
      rw [if_neg same]
      unfold found at same ⊢
      rw [gone]
      by_cases last : remain ≤ (sample (read + 1) - sample read) % (load + 1)
      · rw [if_pos last]
        constructor
        · intro result
          have here := Option.some.inj result
          subst here
          refine ⟨by omega, by omega, by omega, fun other below => ?_⟩
          have early := @counted_mono load sample other read (by omega)
          omega
        · rintro ⟨after, before, enough, earlier⟩
          by_contra other
          have past : read + 1 < stop := by
            have apart : read + 1 ≠ stop := fun equal => other (congrArg some equal)
            omega
          have tooEarly := earlier (read + 1) past
          omega
      · rw [if_neg last]
        have rest := inductionHypothesis (read + 1)
          (remain - (sample (read + 1) - sample read) % (load + 1)) (by omega)
        unfold found at rest
        rw [rest]
        have shifted : counted load sample (read + 1) +
            (remain - (sample (read + 1) - sample read) % (load + 1)) =
            counted load sample read + remain := by omega
        rw [shifted]
        constructor
        · rintro ⟨after, before, enough, earlier⟩
          exact ⟨by omega, by omega, enough, earlier⟩
        · rintro ⟨after, before, enough, earlier⟩
          have later : read + 1 ≠ stop := by
            rintro rfl
            omega
          exact ⟨by omega, by omega, enough, earlier⟩

/-- What is counted is at most the time that passes. -/
theorem counted_le_elapsed (ordered : Monotone sample) (read : Nat) :
    counted load sample read ≤ sample read - sample 0 := by
  induction read with
  | zero => exact Nat.zero_le _
  | succ read inductionHypothesis =>
    have begun : sample 0 ≤ sample read := ordered (Nat.zero_le read)
    have onward : sample read ≤ sample (read + 1) := ordered (Nat.le_succ read)
    calc counted load sample (read + 1)
        = counted load sample read + (sample (read + 1) - sample read) % (load + 1) := rfl
      _ ≤ (sample read - sample 0) + (sample (read + 1) - sample read) :=
          Nat.add_le_add inductionHypothesis (Nat.mod_le _ _)
      _ = sample (read + 1) - sample 0 := by omega

/-- What is counted is the time that passes if no gap is a whole round. -/
theorem counted_eq_elapsed (ordered : Monotone sample)
    (close : ∀ read, sample (read + 1) - sample read ≤ load) (read : Nat) :
    counted load sample read = sample read - sample 0 := by
  induction read with
  | zero => exact (Nat.sub_self _).symm
  | succ read inductionHypothesis =>
    have begun : sample 0 ≤ sample read := ordered (Nat.zero_le read)
    have onward : sample read ≤ sample (read + 1) := ordered (Nat.le_succ read)
    calc counted load sample (read + 1)
        = counted load sample read + (sample (read + 1) - sample read) % (load + 1) := rfl
      _ = (sample read - sample 0) + (sample (read + 1) - sample read) := by
          rw [inductionHypothesis, Nat.mod_eq_of_lt (Nat.lt_succ_of_le (close read))]
      _ = sample (read + 1) - sample 0 := by omega

/-- A delay that has something left to count ends behind the first read up to which it has
counted that. -/
theorem delay_ends (ordered : Monotone sample) {delayConst us : Nat}
    (positive : 0 < us * delayConst % 2 ^ 32) (reads stop : Nat) :
    gd32DelayUs delayConst load us (found load offset sample) reads = some stop ↔
      0 < stop ∧ stop ≤ reads ∧ us * delayConst % 2 ^ 32 ≤ counted load sample stop ∧
        ∀ other < stop, counted load sample other < us * delayConst % 2 ^ 32 := by
  have asked : us ≠ 0 := by
    rintro rfl
    rw [Nat.zero_mul] at positive
    exact absurd positive (by decide)
  have ends := @loop_ends load offset sample ordered reads 0 _ positive stop
  rw [gd32DelayUs, if_neg asked, ends]
  simp only [counted, Nat.zero_add]

/-- With a read in every tick a delay ends behind as many reads as 32 bits keep of its ticks. -/
theorem delay_each_tick (turns : 1 ≤ load) {delayConst us : Nat} (asked : us ≠ 0) :
    gd32DelayUs delayConst load us (found load 0 id) (us * delayConst % 2 ^ 32 + 1) =
      some (max 1 (us * delayConst % 2 ^ 32)) := by
  have ordered : Monotone (id : Nat → Nat) := monotone_id
  have ticks (read : Nat) : counted load id read = read := by
    rw [counted_eq_elapsed ordered _ read, id, id, Nat.sub_zero]
    intro read
    simp only [id, Nat.add_sub_cancel_left]
    exact turns
  rcases Nat.eq_zero_or_pos (us * delayConst % 2 ^ 32) with empty | positive
  · have moved : found load 0 id 1 ≠ found load 0 id 0 := by
      intro same
      have whole := (@delta_elapsed load 0 0 1 (Nat.zero_le 1)).1 same
      rw [Nat.sub_zero, Nat.mod_eq_of_lt (Nat.lt_succ_of_le turns)] at whole
      cases whole
    rw [gd32DelayUs, if_neg asked, empty, delayLoop, if_neg moved, if_pos (Nat.zero_le _)]
    rfl
  · rw [delay_ends ordered positive, Nat.max_eq_right positive, ticks]
    exact ⟨positive, Nat.le_succ _, le_rfl, fun other below => by rwa [ticks]⟩

/-- `gd32_delay_us` never ends too early, whenever its reads are made, exactly if the ticks that
it is asked for fit 32 bits. -/
theorem delay_never_early_iff (delayConst load us : Nat) (turns : 1 ≤ load) :
    (∀ (offset : Nat) (sample : Nat → Nat), Monotone sample → ∀ reads stop,
        gd32DelayUs delayConst load us (found load offset sample) reads = some stop →
          us * delayConst ≤ sample stop - sample 0) ↔
      us * delayConst < 2 ^ 32 := by
  constructor
  · intro never
    by_contra wide
    have asked : us ≠ 0 := by
      rintro rfl
      rw [Nat.zero_mul] at wide
      exact wide (by decide)
    have early := never 0 id monotone_id _ _ (delay_each_tick turns asked)
    have kept : us * delayConst % 2 ^ 32 < 2 ^ 32 := Nat.mod_lt _ (by decide)
    simp only [id, Nat.sub_zero] at early
    omega
  · intro fits offset sample ordered reads stop ended
    rcases Nat.eq_zero_or_pos (us * delayConst) with empty | positive
    · rw [empty]
      exact Nat.zero_le _
    · have kept := Nat.mod_eq_of_lt fits
      have result := (delay_ends ordered (by rwa [kept]) reads stop).1 ended
      rw [kept] at result
      exact result.2.2.1.trans (counted_le_elapsed ordered stop)

/-- One microsecond at two hundred ticks each is never too short. -/
theorem delay_never_early_iff_microsecond :
    (∀ (offset : Nat) (sample : Nat → Nat), Monotone sample → ∀ reads stop,
        gd32DelayUs 200 399999 1 (found 399999 offset sample) reads = some stop →
          1 * 200 ≤ sample stop - sample 0) ↔
      1 * 200 < 2 ^ 32 :=
  delay_never_early_iff 200 399999 1 (by decide)

/-- `gd32_delay_us` ends behind the first read that finds its time over, if no two reads lie a
whole round of the counter apart; a delay of nothing ends without another read. -/
theorem delay_on_time (delayConst load us offset : Nat) (sample : Nat → Nat)
    (ordered : Monotone sample) (counts : 0 < delayConst) (fits : us * delayConst < 2 ^ 32)
    (close : ∀ read, sample (read + 1) - sample read ≤ load) (stop : Nat)
    (first : IsLeast {read | us * delayConst ≤ sample read - sample 0} stop) (reads : Nat)
    (enough : stop ≤ reads) :
    gd32DelayUs delayConst load us (found load offset sample) reads = some stop := by
  rcases Nat.eq_zero_or_pos us with rfl | asked
  · have least : stop ≤ 0 := first.2 (by simp)
    rw [Nat.le_zero.mp least]
    rfl
  · have positive : 0 < us * delayConst := Nat.mul_pos asked counts
    have kept := Nat.mod_eq_of_lt fits
    have elapsed := counted_eq_elapsed ordered close
    rw [delay_ends ordered (by rwa [kept]), kept]
    have due : us * delayConst ≤ sample stop - sample 0 := first.1
    refine ⟨?_, enough, by rwa [elapsed], fun other below => ?_⟩
    · rcases Nat.eq_zero_or_pos stop with rfl | later
      · rw [Nat.sub_self] at due
        omega
      · exact later
    · rw [elapsed]
      by_contra late
      exact absurd (first.2 (Nat.le_of_not_lt late)) (Nat.not_le_of_lt below)

/-- Two ticks that are read three apart end behind the first of these reads. -/
theorem delay_on_time_late :
    gd32DelayUs 1 9 2 (found 9 0 fun read => 3 * read) 5 = some 1 :=
  delay_on_time 1 9 2 0 (fun read => 3 * read)
    (fun early late ordered => Nat.mul_le_mul_left 3 ordered)
    (by decide) (by decide) (fun read => by omega) 1
    ⟨by decide, fun read due => by
      rcases Nat.eq_zero_or_pos read with rfl | positive
      · exact absurd due (by decide)
      · exact positive⟩ 5 (by decide)

end Pyrometer.DelayTimer
