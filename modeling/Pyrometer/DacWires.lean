import Pyrometer.AnalogCalibration
import Pyrometer.I2cWrites

/-!
# The DAC of the analog output, on its wires

`anolog_output` hands a voltage to `ltc2606_write_volt`, which turns it into a code and sends the
code until the driver reports bytes sent, three times at most. The chip takes a transfer of a
command and a code as its new code, and what the calls leave in `dev_error` is kept beside it.

A voltage that gives no code of 16 bits is cut to whatever the conversion makes of it. The mutex
that the source leaves commented out is left out.
-/

namespace Pyrometer.DacWires

open AnalogCalibration ByteMemory ExactTemperatures I2cWires I2cWrites Runs

/-- `I2C_ADDR_LTC2606`. -/
def i2cAddrLtc2606 : Nat := 0x11

/-- `LTC2606_WRITE_UPDATE_COMMAND`. -/
def writeUpdateCommand : Byte := 0x30

/-- A voltage for the DAC, with what its conversion makes of it where it gives no code. -/
structure Request where
  volt : ℚ
  wild : BitVec 16

/-- `volt_to_dac_code`. -/
def Request.code (request : Request) : BitVec 16 :=
  ((ltc2606WriteVolt request.volt).map (BitVec.ofNat 16)).getD request.wild

/-- The three bytes of `ltc2606_write_volt`. -/
def Request.buff (request : Request) : List Byte :=
  [writeUpdateCommand, byteOf request.code 1, byteOf request.code 0]

/-- The voltage is above the limit of `ltc2606_write_volt`. -/
def Request.above (request : Request) : Bool := decide (5000000 < request.volt)

section

variable (device : Nat → Bool)

/-- The attempts of `ltc2606_write_volt` that are left; `ltc2606_write` is `si2c_send`. -/
def attempts (buff : List Byte) : Nat → Pins → Nat × Pins
  | 0, pins => (0, pins)
  | left + 1, pins =>
      match si2cSend device i2cAddrLtc2606 buff pins with
      | (ret, pins) => if ret ≠ 0 then (ret, pins) else attempts buff left pins

/-- `ltc2606_write_volt` on the wires. -/
def ltc2606WriteVoltWires (request : Request) (pins : Pins) : Nat × Pins :=
  if request.above then (0, pins) else attempts device request.buff 3 pins

/-- The pins, and `DEV_ERR_ANA_OUTRANGE` and `DEV_ERR_LTC2606` of `dev_error`. -/
structure Wired where
  pins : Pins
  anaOutrange : Bool
  ltc2606 : Bool

/-- The end of `anolog_output`. -/
def output (wired : Wired) (request : Request) : Wired :=
  match ltc2606WriteVoltWires device request wired.pins with
  | (ret, pins) => ⟨pins, request.above, ret == 0⟩

end

/-- The chip takes a transfer. -/
def take (code : BitVec 16) : List Byte → BitVec 16
  | [address, command, high, low] =>
      if address = selectByte i2cAddrLtc2606 0 ∧ command = writeUpdateCommand then high ++ low
      else code
  | _ => code

/-- The code of the chip behind the wires. -/
def codeOf (start : BitVec 16) (pins : Pins) : BitVec 16 :=
  (transfersOf pins.reader.items).foldl take start

/-- The DAC as its callers see it. -/
structure Dac where
  code : BitVec 16
  anaOutrange : Bool
  ltc2606 : Bool
deriving DecidableEq

/-- What a request means. -/
def Dac.put (dac : Dac) (request : Request) : Dac :=
  ⟨if request.above then dac.code else request.code, request.above, request.above⟩

/-- The buffers that some requests send. -/
def sendsOf (requests : List Request) : List (List Byte) :=
  (requests.filter fun request => !request.above).map Request.buff

variable {device : Nat → Bool}

/-- The chip takes a request as its code. -/
theorem take_request (code : BitVec 16) (request : Request) :
    take code (selectByte i2cAddrLtc2606 0 :: request.buff) = request.code := by
  rw [Request.buff, take, if_pos ⟨rfl, rfl⟩]
  apply BitVec.eq_of_getLsbD_eq
  intro place inside
  rw [BitVec.getLsbD_append]
  by_cases low : place < 8
  · simp [byteOf, low]
  · simp only [low, if_false, byteOf, BitVec.getLsbD_extractLsb', Nat.mul_one]
    have back : 8 + (place - 8) = place := by omega
    have high : place - 8 < 8 := by omega
    simp [back, high]

/-- The first attempt reports bytes, so that it is the last one. -/
theorem attempts_first (left : Nat) {buff : List Byte} {rest : List (List Byte)} {pins : Pins}
    (idle : Idle pins) (listens : Listens device pins.clocks (buff :: rest))
    (nonempty : buff.length ≠ 0) :
    ∃ after, attempts device buff (left + 1) pins = (buff.length, after) ∧ Idle after ∧
      transfersOf after.reader.items =
        transfersOf pins.reader.items ++ [selectByte i2cAddrLtc2606 0 :: buff] ∧
      Listens device after.clocks rest := by
  obtain ⟨after, sent, idleAfter, transfers, others⟩ :=
    send_transfer i2cAddrLtc2606 idle listens
  refine ⟨after, ?_, idleAfter, transfers, others⟩
  rw [attempts, sent]
  exact if_pos nonempty

/-- The DAC behind the wires, with what the calls have left in `dev_error`. -/
def Wired.dac (wired : Wired) (start : BitVec 16) : Dac :=
  ⟨codeOf start wired.pins, wired.anaOutrange, wired.ltc2606⟩

/-- The transfers of some requests. -/
def transfersFor (requests : List Request) : List (List Byte) :=
  (sendsOf requests).map (selectByte i2cAddrLtc2606 0 :: ·)

/-- A request does to the DAC what it means. -/
theorem output_put {wired : Wired} (start : BitVec 16) (request : Request)
    {rest : List Request} (idle : Idle wired.pins)
    (listens : Listens device wired.pins.clocks (sendsOf (request :: rest))) :
    Idle (output device wired request).pins ∧
      Listens device (output device wired request).pins.clocks (sendsOf rest) ∧
      transfersOf (output device wired request).pins.reader.items ++ transfersFor rest =
        transfersOf wired.pins.reader.items ++ transfersFor (request :: rest) ∧
      (output device wired request).dac start = (wired.dac start).put request := by
  by_cases above : request.above = true
  · have refused : output device wired request = ⟨wired.pins, true, true⟩ := by
      rw [output, ltc2606WriteVoltWires, if_pos above, above]
      rfl
    have same : sendsOf (request :: rest) = sendsOf rest := by
      simp [sendsOf, above]
    rw [same] at listens
    rw [refused, Dac.put, above, transfersFor, transfersFor, same]
    exact ⟨idle, listens, rfl, rfl⟩
  · have below : request.above = false := Bool.eq_false_iff.mpr above
    have first : sendsOf (request :: rest) = request.buff :: sendsOf rest := by
      simp [sendsOf, below]
    rw [first] at listens
    obtain ⟨after, sent, idleAfter, transfers, others⟩ :=
      attempts_first 2 idle listens (by simp [Request.buff])
    have done : output device wired request = ⟨after, false, false⟩ := by
      rw [output, ltc2606WriteVoltWires, below, if_neg (by decide), sent]
      rfl
    have code : codeOf start after = request.code := by
      rw [codeOf, transfers, List.foldl_append]
      exact take_request (codeOf start wired.pins) request
    rw [done, Dac.put, below, transfersFor, transfersFor, first, List.map_cons]
    refine ⟨idleAfter, others, ?_, ?_⟩
    · rw [transfers, List.append_assoc]
      rfl
    · rw [Wired.dac, code]
      rfl

/-- Requests do to the DAC what they mean. -/
theorem outputs_put (requests : List Request) {wired : Wired} (start : BitVec 16)
    (idle : Idle wired.pins) (listens : Listens device wired.pins.clocks (sendsOf requests)) :
    (run (output device) wired requests).dac start = run Dac.put (wired.dac start) requests ∧
      transfersOf (run (output device) wired requests).pins.reader.items =
        transfersOf wired.pins.reader.items ++ transfersFor requests := by
  induction requests generalizing wired with
  | nil => exact ⟨rfl, (List.append_nil _).symm⟩
  | cons request rest inductionHypothesis =>
    obtain ⟨idleAfter, others, transfers, put⟩ := output_put start request idle listens
    obtain ⟨later, all⟩ := inductionHypothesis idleAfter others
    rw [put] at later
    exact ⟨later, all.trans transfers⟩

/-- Whatever the device acknowledges, along every sequence of requests the chip holds the code of
the last one that was not above the limit, each of these is transferred once, and both errors
tell no more than whether the last request was above it. -/
theorem dac_follows_requests (device : Nat → Bool) (wired : Wired) (idle : Idle wired.pins)
    (start : BitVec 16) (requests : List Request)
    (listens : Listens device wired.pins.clocks (sendsOf requests)) :
    (run (output device) wired requests).dac start = run Dac.put (wired.dac start) requests ∧
      transfersOf (run (output device) wired requests).pins.reader.items =
        transfersOf wired.pins.reader.items ++ transfersFor requests :=
  outputs_put requests start idle listens

/-- Nobody is on the bus: the largest voltage counts as written, and one above it is all that an
error is raised for. -/
theorem dac_follows_requests_absent :
    (run (output fun _ => true) ⟨⟨true, true, true, 0, ⟨[], []⟩⟩, true, true⟩
        [⟨5000000, 0⟩]).dac 7 = ⟨65535, false, false⟩ ∧
      (run (output fun _ => true) ⟨⟨true, true, true, 0, ⟨[], []⟩⟩, true, true⟩
        [⟨5000000, 0⟩, ⟨6000000, 0⟩]).dac 7 = ⟨65535, true, true⟩ := by
  have inside : (Request.mk 5000000 0).above = false := decide_eq_false (by norm_num)
  have outside : (Request.mk 6000000 0).above = true := decide_eq_true (by norm_num)
  have code : (Request.mk 5000000 0).code = 65535 := by
    have whole : (5000000 : ℚ) * 65535 / 5000000 = ((65535 : ℤ) : ℚ) := by norm_num
    simp only [Request.code, ltc2606WriteVolt, whole, Truncation.cut_intCast]
    rw [if_neg (lt_irrefl _), if_pos (by decide)]
    rfl
  constructor
  · have put := (dac_follows_requests (fun _ => true)
      ⟨⟨true, true, true, 0, ⟨[], []⟩⟩, true, true⟩ ⟨rfl, rfl, rfl⟩ 7 [⟨5000000, 0⟩]
      (absent_listens 0 _)).1
    rw [put, run, List.foldl_cons, List.foldl_nil, Dac.put, inside, code]
    rfl
  · have put := (dac_follows_requests (fun _ => true)
      ⟨⟨true, true, true, 0, ⟨[], []⟩⟩, true, true⟩ ⟨rfl, rfl, rfl⟩ 7
      [⟨5000000, 0⟩, ⟨6000000, 0⟩] (absent_listens 0 _)).1
    rw [put, run, List.foldl_cons, List.foldl_cons, List.foldl_nil, Dac.put, Dac.put, inside,
      outside, code]
    rfl

/-- An edit of the configuration, or a call of `anolog_output` with what it reads; where that
divides by zero it hands over any request. -/
inductive Event where
  | edit (event : AnalogCalibration.Event)
  | tick (asking : Asking) (wild : Request)

/-- What an event does to the configuration. -/
def configure (temp : TempPara) (out : Output) : Event → Output
  | .edit event => AnalogCalibration.step temp out event
  | .tick _ _ => out

/-- What `anolog_output` hands over. -/
def requestOf (out : Output) (asking : Asking) (wild : Request) : Request :=
  ((anologOutput out asking).map fun volt => ⟨volt, wild.wild⟩).getD wild

/-- The configuration and the wires. -/
structure System where
  out : Output
  wired : Wired

/-- An event of the analog output. -/
def step (temp : TempPara) (device : Nat → Bool) (system : System) : Event → System
  | .edit event => ⟨configure temp system.out (.edit event), system.wired⟩
  | .tick asking wild =>
      ⟨system.out, output device system.wired (requestOf system.out asking wild)⟩

/-- The requests of some events. -/
def requestsOf (temp : TempPara) : Output → List Event → List Request
  | _, [] => []
  | out, .edit event :: rest => requestsOf temp (configure temp out (.edit event)) rest
  | out, .tick asking wild :: rest => requestOf out asking wild :: requestsOf temp out rest

/-- Edits keep the calibration right, and error currents are accepted ones. -/
def Careful (temp : TempPara) (out : Output) : Event → Prop
  | .edit event => Keeps temp out event
  | .tick asking _ => Accepted asking

/-- A run of the analog output by its two parts. -/
theorem run_parts (temp : TempPara) (device : Nat → Bool) (out : Output) (wired : Wired)
    (events : List Event) :
    run (step temp device) ⟨out, wired⟩ events =
      ⟨run (configure temp) out events,
        run (output device) wired (requestsOf temp out events)⟩ := by
  induction events generalizing out wired with
  | nil => rfl
  | cons event rest inductionHypothesis =>
    cases event with
    | edit event => exact inductionHypothesis _ wired
    | tick asking wild => exact inductionHypothesis out _

/-- The requests of one more call. -/
theorem requests_tick (temp : TempPara) (out : Output) (events : List Event) (asking : Asking)
    (wild : Request) :
    requestsOf temp out (events ++ [.tick asking wild]) =
      requestsOf temp out events ++ [requestOf (run (configure temp) out events) asking wild] := by
  induction events generalizing out with
  | nil => rfl
  | cons event rest inductionHypothesis =>
    cases event with
    | edit event => exact inductionHypothesis _
    | tick given other => exact congrArg _ (inductionHypothesis out)

/-- Careful events keep what is known of the configuration. -/
theorem configure_kept (temp : TempPara) (out : Output) (event : Event) (kept : Kept out)
    (careful : Careful temp out event) : Kept (configure temp out event) := by
  cases event with
  | edit event => exact step_kept temp out event kept careful
  | tick asking wild => exact kept

/-- A code that is written has 16 bits. -/
theorem written_code {volt : ℚ} {code : Nat} (written : ltc2606WriteVolt volt = some code) :
    code < 2 ^ 16 := by
  simp only [ltc2606WriteVolt] at written
  split_ifs at written with above range
  have same := Option.some.inj written
  omega

/-- Along every run of careful edits and calls from the start, after a call the line that is set
delivers for the code of the chip what was asked for, off by less than one step of the DAC, and
neither error is raised. -/
theorem output_reaches_dac (temp : TempPara) (device : Nat → Bool) (wired : Wired)
    (idle : Idle wired.pins) (start : BitVec 16) (events : List Event)
    (careful : Along (configure temp) (Careful temp) boot events) (asking : Asking)
    (accepted : Accepted asking) (wild : Request)
    (listens : Listens device wired.pins.clocks
      (sendsOf (requestsOf temp boot (events ++ [.tick asking wild])))) (system : System)
    (reached : system = run (step temp device) ⟨boot, wired⟩ (events ++ [.tick asking wild])) :
    ∃ demand code, system.out.demand asking = some demand ∧
      Demanded system.out.law.para.type demand ∧
      codeOf start system.wired.pins = BitVec.ofNat 16 code ∧ code < 2 ^ 16 ∧
      |demand * 1000000 - system.out.line.delivered (coef system.out.law.para.type) code| <
        system.out.line.delivered (coef system.out.law.para.type) (code + 1) -
          system.out.line.delivered (coef system.out.law.para.type) code ∧
      system.wired.anaOutrange = false ∧ system.wired.ltc2606 = false := by
  have kept : Kept (run (configure temp) boot events) :=
    along_invariant (configure temp) (configure_kept temp) boot boot_kept events careful
  have parts := run_parts temp device boot wired (events ++ [.tick asking wild])
  rw [← reached, run_snoc, requests_tick] at parts
  have same : system.out = run (configure temp) boot events := congrArg System.out parts
  have wires : system.wired = run (output device) wired (requestsOf temp boot events ++
      [requestOf (run (configure temp) boot events) asking wild]) := congrArg System.wired parts
  rw [requests_tick] at listens
  obtain ⟨put, -⟩ := outputs_put _ start idle listens
  rw [← wires, run_snoc] at put
  rw [← same] at kept put
  obtain ⟨demand, asked, demanded, handed⟩ := kept.calibrated.asked asking accepted
  obtain ⟨volt, code, corrected, -, high, written, close⟩ := kept.calibrated.reached demand demanded
  have request : requestOf system.out asking wild = ⟨volt, wild.wild⟩ := by
    rw [requestOf, handed, corrected]
    rfl
  have below : (Request.mk volt wild.wild).above = false := decide_eq_false high.not_gt
  have coded : (Request.mk volt wild.wild).code = BitVec.ofNat 16 code := by
    rw [Request.code, written]
    rfl
  rw [request, Dac.put, below, coded] at put
  exact ⟨demand, code, asked, demanded, congrArg Dac.code put, written_code written, close,
    congrArg Dac.anaOutrange put, congrArg Dac.ltc2606 put⟩

/-- A first call for 25 degrees raises no error, although nobody is on the bus. -/
theorem output_reaches_dac_absent :
    (run (step defaultTemp fun _ => true) ⟨boot, ⟨⟨true, true, true, 0, ⟨[], []⟩⟩, true, true⟩⟩
        ([] ++ [.tick ⟨25, none, none, 3, 21⟩ ⟨0, 0⟩])).wired.ltc2606 = false := by
  obtain ⟨demand, code, -, -, -, -, -, -, quiet⟩ := output_reaches_dac defaultTemp (fun _ => true)
    ⟨⟨true, true, true, 0, ⟨[], []⟩⟩, true, true⟩ ⟨rfl, rfl, rfl⟩ 0 [] True.intro
    ⟨25, none, none, 3, 21⟩ ⟨by norm_num, by norm_num⟩ ⟨0, 0⟩ (absent_listens 0 _) _ rfl
  exact quiet

end Pyrometer.DacWires
