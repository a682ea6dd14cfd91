import Pyrometer.Runs
import Pyrometer.TemperatureStatus

/-!
# Holding peaks and valleys

In two of its modes the filter publishes the highest or the lowest temperature for some
time. A record for each temperature has the held value and a count of timer periods of
100 ms, which is zero when nothing is held. The timer only sets a flag; the next pass of
the measurement counts the period, then forgets what is held if the external trigger was
active, and then filters the three temperatures.

There are records for two temperatures; what is used for the ratio lies behind them and is
modelled as a third one that nothing else writes. The values are kept in whole degrees.
The holding times and their products are in single precision, as the equality with the
count depends on it.
-/

namespace Pyrometer.HoldFilter

open BinaryFloats Runs TemperatureStatus

/-- `PEAK_HOLDING` and `VALLEY_HOLDING`. -/
inductive HoldMode where
  | peak
  | valley
deriving DecidableEq

/-- `slid_holding_t`. -/
structure SlidHolding where
  data : Int
  count : Nat
deriving DecidableEq

/-- `HOLDING_TIME_UPPER` as an integer. -/
def holdingTimeUpper : Int := 300

/-- `300.0f`. -/
def longestTime : Nat := 0x43960000

/-- A double cut to a `long long`. -/
def wholeDegrees (temp : ℚ) : Int := Int.tdiv temp.num temp.den

/-- A new value goes beyond the held one. -/
def HoldMode.beyond (held new : Int) : HoldMode → Bool
  | .peak => held < new
  | .valley => new < held

/-- `peak_holding_fliter` and `valley_holding_fliter`, which differ in the comparison: the
result and the record afterwards. -/
def holdingFliter (mode : HoldMode) (slid : SlidHolding) (size new : Int) : Int × SlidHolding :=
  if size = holdingTimeUpper ∧ slid.count ≠ 0 then (slid.data, slid)
  else
    let slid := if size = 0 then ⟨new, 0⟩ else slid
    if slid.count = 0 then (new, ⟨new, 1⟩)
    else if mode.beyond slid.data new then (new, ⟨new, 1⟩)
    else (slid.data, slid)

/-- Equality of numbers in single precision. -/
def sameFloat (left right : Nat) : Bool :=
  !single.isNan left && !single.isNan right && single.key left == single.key right

/-- The number of timer periods in a holding time, a `float` product. -/
def tenfold (time : Nat) : Nat := single.mul time (single.ofInt 10)

/-- The holding filter: its records, the flags of the timer and of the external trigger, and
the two holding times. -/
structure Holding where
  records : TempChannel → SlidHolding
  timerFlag : Bool
  triggerFlag : Bool
  peakHoldingTime : Nat
  valleyHoldingTime : Nat

/-- The time that the timer compares with. -/
def Holding.activeTime (holding : Holding) : HoldMode → Nat
  | .peak => holding.peakHoldingTime
  | .valley => holding.valleyHoldingTime

/-- The time that is passed to the filter of a temperature, in either mode. -/
def Holding.usedTime (holding : Holding) : TempChannel → Nat
  | .wb => holding.peakHoldingTime
  | .nb => holding.valleyHoldingTime
  | .ratio => holding.valleyHoldingTime

/-- One timer period for a record. -/
def countPeriod (time : Nat) (slid : SlidHolding) : SlidHolding :=
  if sameFloat (single.ofInt slid.count) (tenfold time) then { slid with count := 0 }
  else if slid.count ≠ 0 then { slid with count := slid.count + 1 }
  else slid

/-- `timer4_trigger_callback`. -/
def timer4TriggerCallback (mode : HoldMode) (holding : Holding) : Holding :=
  if holding.timerFlag then
    { holding with
      timerFlag := false
      records := fun channel => countPeriod (holding.activeTime mode) (holding.records channel) }
  else holding

/-- The external trigger ends what is held in the two records. -/
def handleTrigger (holding : Holding) : Holding :=
  if holding.triggerFlag then
    { holding with
      triggerFlag := false
      records := fun channel =>
        if channel = .ratio then holding.records channel
        else { holding.records channel with count := 0 } }
  else holding

/-- The record of a temperature when the filter is called. -/
def offered (mode : HoldMode) (holding : Holding) : Holding :=
  handleTrigger (timer4TriggerCallback mode holding)

/-- What the filter makes of a temperature. -/
def filtered (mode : HoldMode) (holding : Holding) (temps : TempChannel → ℚ)
    (channel : TempChannel) : Int × SlidHolding :=
  holdingFliter mode ((offered mode holding).records channel)
    (single.toInt32 (holding.usedTime channel)) (wholeDegrees (temps channel))

/-- The part of `get_temp` that holds. -/
def holdTemps (mode : HoldMode) (temps : TempChannel → ℚ) (holding : Holding) : Holding :=
  { offered mode holding with records := fun channel => (filtered mode holding temps channel).2 }

/-- What happens: a pass, the timer, the external trigger, or one of the commands `P` and `F`
with its value. -/
inductive Event where
  | sample (temps : TempChannel → ℚ)
  | tick
  | trigger
  | setPeak (time : Nat)
  | setValley (time : Nat)

/-- A holding time that the commands accept. -/
def acceptedTime (time : Nat) : Bool := single.lessEq 0 time && single.lessEq time longestTime

/-- One event. -/
def happen (mode : HoldMode) (holding : Holding) : Event → Holding
  | .sample temps => holdTemps mode temps holding
  | .tick => { holding with timerFlag := true }
  | .trigger => { holding with triggerFlag := true }
  | .setPeak time =>
      if acceptedTime time then { holding with peakHoldingTime := time } else holding
  | .setValley time =>
      if acceptedTime time then { holding with valleyHoldingTime := time } else holding

/-- The filter at the start, with the default times. -/
def holdingStart : Holding := ⟨fun _ => ⟨0, 0⟩, false, false, 0, 0⟩

end Pyrometer.HoldFilter
