import Pyrometer.SoftI2c

/-!
# Detection of acknowledges

`rx_ack` samples the data line until it is low, at most as often as its timeout says, and
counts down in the test of its loop. It fails exactly when its counter ends at zero. That
is so when the line goes low for the last sample, and never when the line stays high, as
the counter then has passed zero.

The levels of the line are given for each sample, and for each byte of a transfer. The bits
that are driven are kept beside the results; delays and the clock line are left out.
-/

namespace Pyrometer.AckDetection

open ByteMemory
open SoftI2c (si2cAckTimeout Low)

/-- The level of the data line at each sample: high or not. -/
abbrev Levels := Nat → Bool

/-- The loop of `rx_ack`: the value its unsigned counter is left with. -/
def rxAckLoop (sdaHigh : Levels) : Nat → Nat → Nat
  | _, 0 => 2 ^ 32 - 1
  | sample, timeout + 1 =>
      if !sdaHigh sample then timeout else rxAckLoop sdaHigh (sample + 1) timeout

/-- `rx_ack`. -/
def rxAck (sdaHigh : Levels) (timeout : Nat) : Int :=
  if rxAckLoop sdaHigh 0 timeout = 0 then -1 else 0

/-- The low eight bits of a word, the highest one first. -/
def txByte (byte : BitVec 32) : List Bool := [7, 6, 5, 4, 3, 2, 1, 0].map byte.getLsbD

/-- `si2c_select`, with the bits that it drives. -/
def si2cSelect (addr op : BitVec 32) (sdaHigh : Levels) : Int × List Bool :=
  let byte := ((addr &&& 0x7F) <<< 1) ||| (op &&& 0x01)
  (if rxAck sdaHigh si2cAckTimeout ≠ 0 then -1 else 0, txByte byte)

/-- The loop of `si2c_tx` for the bytes that are left: how many it takes for sent, and the
bits that it drives. -/
def si2cTxLoop (buff : Mem) (sdaHigh : Nat → Levels) : Nat → Nat → Nat × List (List Bool)
  | _, 0 => (0, [])
  | data, len + 1 =>
      let driven := txByte ((buff data).setWidth 32)
      if rxAck (sdaHigh data) si2cAckTimeout ≠ 0 then (0, [driven])
      else
        let rest := si2cTxLoop buff sdaHigh (data + 1) len
        (rest.1 + 1, driven :: rest.2)

/-- `si2c_tx`. A negative length sends nothing. -/
def si2cTx (buff : Mem) (len : Int) (sdaHigh : Nat → Levels) : Nat × List (List Bool) :=
  si2cTxLoop buff sdaHigh 0 len.toNat

/-- The line is low in one of the samples. -/
def Acknowledged (sdaHigh : Levels) (timeout : Nat) : Prop :=
  ∃ sample < timeout, sdaHigh sample = false

/-- The line is low in one of the samples before the last one. -/
def Early (sdaHigh : Levels) (timeout : Nat) : Prop :=
  ∃ sample, sample + 1 < timeout ∧ sdaHigh sample = false

instance (sdaHigh : Levels) (timeout : Nat) : Decidable (Acknowledged sdaHigh timeout) :=
  decidable_of_iff (∃ sample : Fin timeout, sdaHigh sample = false)
    ⟨fun ⟨sample, low⟩ => ⟨sample, sample.isLt, low⟩, fun ⟨sample, below, low⟩ =>
      ⟨⟨sample, below⟩, low⟩⟩

/-- The number of leading bytes that are all acknowledged. -/
def leading (sdaHigh : Nat → Levels) (len : Nat) : Nat :=
  ((List.range len).takeWhile fun data =>
    decide (Acknowledged (sdaHigh data) si2cAckTimeout)).length

/-- A count of things is that of the leading ones with a property. -/
structure Leads (holds : Nat → Prop) (len count : Nat) : Prop where
  most : count ≤ len
  before : ∀ index < count, holds index
  behind : count < len → ¬ holds count

/-- The counter ends at zero exactly when the line is low for the last sample first. -/
theorem rx_ack_loop_zero (sdaHigh : Levels) (sample timeout : Nat) :
    rxAckLoop sdaHigh sample (timeout + 1) = 0 ↔
      (∀ index < timeout, sdaHigh (sample + index) = true) ∧
        sdaHigh (sample + timeout) = false := by
  induction timeout generalizing sample with
  | zero =>
    rw [rxAckLoop, Nat.add_zero]
    cases sdaHigh sample with
    | true => simp [rxAckLoop]
    | false => simp
  | succ timeout inductionHypothesis =>
    rw [rxAckLoop]
    cases here : sdaHigh sample with
    | true =>
      rw [if_neg (by decide), inductionHypothesis (sample + 1)]
      have moved : ∀ index, sample + 1 + index = sample + (index + 1) := fun index => by omega
      simp only [moved]
      constructor
      · rintro ⟨high, low⟩
        refine ⟨fun index below => ?_, low⟩
        cases index with
        | zero => exact here
        | succ index => exact high index (by omega)
      · rintro ⟨high, low⟩
        exact ⟨fun index below => high (index + 1) (by omega), low⟩
    | false =>
      simp only [Bool.not_false, if_true]
      constructor
      · intro last
        omega
      · rintro ⟨high, -⟩
        have contrary := high 0 (Nat.succ_pos timeout)
        rw [Nat.add_zero, here] at contrary
        cases contrary

/-- `rx_ack` fails exactly when the line is low for the last sample first. -/
theorem rx_ack_zero (sdaHigh : Levels) (timeout : Nat) :
    rxAck sdaHigh timeout = 0 ↔ Early sdaHigh timeout ∨ ¬ Acknowledged sdaHigh timeout := by
  have fails : rxAck sdaHigh timeout = 0 ↔ rxAckLoop sdaHigh 0 timeout ≠ 0 := by
    unfold rxAck
    split
    case isTrue zero => simp [zero]
    case isFalse apart => simp [apart]
  rw [fails]
  cases timeout with
  | zero =>
    refine iff_of_true (by simp [rxAckLoop]) (.inr ?_)
    rintro ⟨sample, below, -⟩
    cases below
  | succ timeout =>
    rw [Ne, rx_ack_loop_zero]
    simp only [Nat.zero_add, Early, Acknowledged, Nat.add_lt_add_iff_right]
    constructor
    · intro other
      by_cases early : ∃ sample < timeout, sdaHigh sample = false
      · exact .inl early
      · refine .inr ?_
        rintro ⟨sample, below, low⟩
        have high : ∀ index < timeout, sdaHigh index = true := fun index inside =>
          Bool.eq_true_of_not_eq_false fun found => early ⟨index, inside, found⟩
        rcases Nat.lt_succ_iff_lt_or_eq.mp below with inside | last
        · exact early ⟨sample, inside, low⟩
        · exact other ⟨high, last ▸ low⟩
    · rintro (⟨sample, below, low⟩ | silent) ⟨high, last⟩
      · exact Bool.false_ne_true (low.symm.trans (high sample below))
      · exact silent ⟨timeout, Nat.lt_succ_self timeout, last⟩

/-- An early acknowledge is one. -/
theorem Early.acknowledged {sdaHigh : Levels} {timeout : Nat} (early : Early sdaHigh timeout) :
    Acknowledged sdaHigh timeout := by
  obtain ⟨sample, below, low⟩ := early
  exact ⟨sample, by omega, low⟩

/-- `rx_ack` tells exactly early acknowledges right. -/
theorem rx_ack_iff (sdaHigh : Levels) (timeout : Nat) :
    (rxAck sdaHigh timeout = 0 ↔ Acknowledged sdaHigh timeout) ↔ Early sdaHigh timeout := by
  rw [rx_ack_zero]
  constructor
  · intro right
    by_cases acknowledged : Acknowledged sdaHigh timeout
    · exact (right.mpr acknowledged).resolve_right (not_not.mpr acknowledged)
    · exact absurd (right.mp (.inr acknowledged)) acknowledged
  · intro early
    exact iff_of_true (.inl early) early.acknowledged

/-- If all have the property the count is that of all. -/
theorem Leads.all {holds : Nat → Prop} {len count : Nat} (leads : Leads holds len count)
    (all : ∀ index < len, holds index) : count = len := by
  by_contra apart
  have below : count < len := Nat.lt_of_le_of_ne leads.most apart
  exact leads.behind below (all count below)

/-- The count of leading acknowledges is that. -/
theorem leading_leads (sdaHigh : Nat → Levels) (len : Nat) :
    Leads (fun data => Acknowledged (sdaHigh data) si2cAckTimeout) len (leading sdaHigh len) := by
  induction len with
  | zero => exact ⟨le_rfl, fun _ below => absurd below (Nat.not_lt_zero _), fun below =>
      absurd below (Nat.not_lt_zero _)⟩
  | succ len inductionHypothesis =>
    obtain ⟨most, before, behind⟩ := inductionHypothesis
    have step : leading sdaHigh (len + 1) =
        if leading sdaHigh len = len ∧ Acknowledged (sdaHigh len) si2cAckTimeout then len + 1
        else leading sdaHigh len := by
      simp only [leading, List.range_succ, List.takeWhile_append, List.length_range]
      by_cases whole : leading sdaHigh len = len
      · rw [leading] at whole
        rw [if_pos whole]
        by_cases last : Acknowledged (sdaHigh len) si2cAckTimeout
        · simp [whole, last]
        · simp [whole, last]
      · rw [leading] at whole
        simp [whole]
    rw [step]
    split
    case isTrue all =>
      refine ⟨le_rfl, fun index below => ?_, fun below => absurd below (lt_irrefl _)⟩
      rcases Nat.lt_succ_iff_lt_or_eq.mp below with inside | rfl
      · exact before index (all.1.symm ▸ inside)
      · exact all.2
    case isFalse ended =>
      refine ⟨Nat.le_succ_of_le most, before, fun _ => ?_⟩
      rcases most.lt_or_eq with inside | whole
      · exact behind inside
      · intro last
        rw [whole] at last
        exact ended ⟨whole, last⟩

/-- `si2c_tx` counts the leading bytes for which `rx_ack` succeeds. -/
theorem tx_loop_leads (buff : Mem) (sdaHigh : Nat → Levels) (data len : Nat) :
    Leads (fun index => rxAck (sdaHigh (data + index)) si2cAckTimeout = 0) len
      (si2cTxLoop buff sdaHigh data len).1 := by
  induction len generalizing data with
  | zero => exact ⟨le_rfl, fun _ below => absurd below (Nat.not_lt_zero _), fun below =>
      absurd below (Nat.not_lt_zero _)⟩
  | succ len inductionHypothesis =>
    rw [si2cTxLoop]
    by_cases failed : rxAck (sdaHigh data) si2cAckTimeout ≠ 0
    · simp only [if_pos failed]
      exact ⟨Nat.zero_le _, fun _ below => absurd below (Nat.not_lt_zero _), fun _ => failed⟩
    · simp only [if_neg failed]
      obtain ⟨most, before, behind⟩ := inductionHypothesis (data + 1)
      have moved : ∀ index, data + (index + 1) = data + 1 + index := fun index => by omega
      refine ⟨Nat.succ_le_succ most, fun index below => ?_, fun below => ?_⟩
      · cases index with
        | zero => exact not_not.mp failed
        | succ index =>
          rw [moved]
          exact before index (by omega)
      · rw [moved]
        exact behind (by omega)

/-- `si2c_tx` counts the leading acknowledges exactly if all bytes are acknowledged early. -/
theorem tx_iff (buff : Mem) (len : Int) (sdaHigh : Nat → Levels) :
    (si2cTx buff len sdaHigh).1 = leading sdaHigh len.toNat ↔
      ∀ data < len.toNat, Early (sdaHigh data) si2cAckTimeout := by
  have taken := tx_loop_leads buff sdaHigh 0 len.toNat
  have acknowledged := leading_leads sdaHigh len.toNat
  simp only [Nat.zero_add] at taken
  rw [si2cTx]
  constructor
  · intro same data below
    rw [same] at taken
    by_cases inside : data < leading sdaHigh len.toNat
    · exact (rx_ack_iff _ _).mp (iff_of_true (taken.before data inside)
        (acknowledged.before data inside))
    · have ends : leading sdaHigh len.toNat < len.toNat := by omega
      have other := (rx_ack_zero _ _).not.mp (taken.behind ends)
      exact absurd (.inr (acknowledged.behind ends)) other
  · intro early
    rw [taken.all fun data below => (rx_ack_zero _ _).mpr (.inl (early data below)),
      acknowledged.all fun data below => (early data below).acknowledged]

/-- `si2c_select` tells exactly early acknowledges right. -/
theorem select_iff (addr op : BitVec 32) (sdaHigh : Levels) :
    ((si2cSelect addr op sdaHigh).1 = 0 ↔ Acknowledged sdaHigh si2cAckTimeout) ↔
      Early sdaHigh si2cAckTimeout := by
  rw [← rx_ack_iff]
  have selected : (si2cSelect addr op sdaHigh).1 = 0 ↔ rxAck sdaHigh si2cAckTimeout = 0 := by
    simp only [si2cSelect]
    split
    case isTrue failed => simp [failed]
    case isFalse done => simp [not_not.mp done]
  rw [selected]

/-- `rx_ack` returns zero exactly for acknowledges, `si2c_select` succeeds exactly for an
acknowledge, and `si2c_tx` returns the number of leading acknowledges, each exactly if the
line is low before the last sample, for `si2c_tx` in each byte. -/
theorem ack_detection_iff (sdaHigh : Levels) (timeout : Nat) (addr op : BitVec 32) (buff : Mem)
    (len : Int) (bytes : Nat → Levels) :
    ((rxAck sdaHigh timeout = 0 ↔ Acknowledged sdaHigh timeout) ↔ Early sdaHigh timeout) ∧
      (((si2cSelect addr op sdaHigh).1 = 0 ↔ Acknowledged sdaHigh si2cAckTimeout) ↔
        Early sdaHigh si2cAckTimeout) ∧
      ((si2cTx buff len bytes).1 = leading bytes len.toNat ↔
        ∀ data < len.toNat, Early (bytes data) si2cAckTimeout) :=
  ⟨rx_ack_iff sdaHigh timeout, select_iff addr op sdaHigh, tx_iff buff len bytes⟩

/-- Nobody pulls the line low, and `rx_ack` takes that for an acknowledge. -/
theorem silence_acknowledged :
    ¬ ∀ (sdaHigh : Levels) (timeout : Nat), 1 ≤ timeout →
      (rxAck sdaHigh timeout = 0 ↔ ∃ sample < timeout, sdaHigh sample = false) := by
  intro exact
  have silent := (exact (fun _ => true) si2cAckTimeout (by decide)).mp (by decide)
  obtain ⟨sample, -, low⟩ := silent
  cases low

/-- The loop for a line that stays low once it is. -/
theorem soft_loop (low : Low) (sample timeout : Nat) :
    SoftI2c.rxAckLoop low sample timeout =
      rxAckLoop (fun sample => !low.at sample) sample timeout := by
  induction timeout generalizing sample with
  | zero => rfl
  | succ timeout inductionHypothesis =>
    rw [SoftI2c.rxAckLoop, rxAckLoop, inductionHypothesis, Bool.not_not]

/-- The storage rests on `rx_ack` for a line that stays low once it is. -/
theorem soft_rx_ack (low : Low) :
    SoftI2c.rxAck low = rxAck (fun sample => !low.at sample) si2cAckTimeout := by
  rw [SoftI2c.rxAck, rxAck, soft_loop]

end Pyrometer.AckDetection
