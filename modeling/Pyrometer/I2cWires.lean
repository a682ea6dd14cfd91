import Pyrometer.SoftI2c
import Pyrometer.TwoWireBus

/-!
# The I2C driver of `soft_i2c.c` on its two wires

Each call moves the pins one at a time, and a listener on the bus hears what the changes mean.
The data pin is an open drain: the line is low when the pin is an output that was set low or
when the device pulls it. The device changes its level when the clock has fallen and keeps it
until the clock falls again, so one level is given for each clock.

A transfer is heard as the octets that were meant, between one start and one stop. The second
start of `at24c_read` is not that clean: the pin still holds the last bit of the address, and the
clock rises before the pin is set high.
-/

namespace Pyrometer.I2cWires

open ByteMemory TwoWireBus SoftI2c

/-- The pins of the driver, the falls of the clock so far, and the listener. -/
structure Pins where
  scl : Bool
  out : Bool
  driving : Bool
  clocks : Nat
  reader : Reader

section

variable (device : Nat → Bool)

/-- The level of the data line. -/
def Pins.sda (pins : Pins) : Bool := (!pins.driving || pins.out) && device pins.clocks

/-- The levels of the lines. -/
def Pins.lines (pins : Pins) : Lines := ⟨pins.scl, pins.sda device⟩

/-- The listener hears a change of a pin. -/
def heard (before after : Pins) : Pins :=
  { after with reader := before.reader.hear (before.lines device) (after.lines device) }

/-- `pull_sda_high` and `pull_sda_low`. -/
def pullSda (level : Bool) (pins : Pins) : Pins := heard device pins { pins with out := level }

/-- `set_sda_out` and `set_sda_in`. -/
def setSda (driving : Bool) (pins : Pins) : Pins :=
  heard device pins { pins with driving := driving }

/-- `pull_scl_high`. -/
def pullSclHigh (pins : Pins) : Pins := heard device pins { pins with scl := true }

/-- `pull_scl_low`: a clock that falls lets the device change its level. -/
def pullSclLow (pins : Pins) : Pins :=
  { pins with scl := false, clocks := if pins.scl then pins.clocks + 1 else pins.clocks }

/-- `tx_bit`. -/
def txBit (bit : Bool) (pins : Pins) : Pins :=
  pullSclLow (pullSclHigh device (pullSda device bit pins))

/-- `rx_bit`. -/
def rxBit (pins : Pins) : Bool × Pins :=
  let high := pullSclHigh device pins
  (high.sda device, pullSclLow high)

/-- `rx_ack`, whose polls all see the level of this clock. -/
def rxAckBit (pins : Pins) : Int × Pins :=
  let high := pullSclHigh device pins
  (rxAck (if high.sda device then none else some 0), pullSclLow high)

/-- `si2c_start`. -/
def si2cStart (pins : Pins) : Pins :=
  pullSclLow (pullSda device false (pullSda device true (pullSclHigh device
    (setSda device true pins))))

/-- `si2c_stop`. -/
def si2cStop (pins : Pins) : Pins :=
  pullSda device true (pullSclHigh device (pullSda device false (pullSclLow
    (setSda device true pins))))

/-- The bits of a byte from a place downwards. -/
def txBits (byte : Byte) : Nat → Pins → Pins
  | 0, pins => pins
  | place + 1, pins => txBits byte place (txBit device (byte.getLsbD place) pins)

/-- A byte is transmitted and its acknowledge received. -/
def txByte (byte : Byte) (pins : Pins) : Int × Pins :=
  rxAckBit device (setSda device false (txBits device byte 8 (setSda device true pins)))

/-- The octet that `si2c_select` transmits. -/
def selectByte (addr : Nat) (op : Nat) : Byte := BitVec.ofNat 8 (addr % 128 * 2 + op % 2)

/-- `si2c_select`. -/
def si2cSelect (addr op : Nat) (pins : Pins) : Int × Pins :=
  match txByte device (selectByte addr op) pins with
  | (ack, pins) => (if ack ≠ 0 then -1 else 0, pins)

/-- `si2c_tx`. -/
def si2cTx : List Byte → Pins → Nat × Pins
  | [], pins => (0, pins)
  | byte :: rest, pins =>
      match txByte device byte pins with
      | (ack, pins) =>
          if ack ≠ 0 then (0, pins)
          else
            match si2cTx rest pins with
            | (count, pins) => (count + 1, pins)

/-- The bits that are left of a byte are received. -/
def rxBits : Nat → Byte → Pins → Byte × Pins
  | 0, byte, pins => (byte, pins)
  | left + 1, byte, pins =>
      match rxBit device pins with
      | (bit, pins) => rxBits left (shiftIn byte bit) pins

/-- `si2c_rx`: the last byte is not acknowledged. -/
def si2cRx : Nat → Pins → List Byte × Pins
  | 0, pins => ([], pins)
  | left + 1, pins =>
      match rxBits device 8 0 (setSda device false pins) with
      | (byte, pins) =>
          match si2cRx left (txBit device (left == 0) (setSda device true pins)) with
          | (bytes, pins) => (byte :: bytes, pins)

/-- `si2c_send`. -/
def si2cSend (addr : Nat) (buff : List Byte) (pins : Pins) : Nat × Pins :=
  match si2cSelect device addr 0 (si2cStart device pins) with
  | (selected, pins) =>
      if selected ≠ 0 then (0, si2cStop device pins)
      else
        match si2cTx device buff pins with
        | (count, pins) => (count, si2cStop device pins)

/-- `si2c_receive`. -/
def si2cReceive (addr len : Nat) (pins : Pins) : List Byte × Pins :=
  match si2cSelect device addr 1 (si2cStart device pins) with
  | (selected, pins) =>
      if selected ≠ 0 then ([], si2cStop device pins)
      else
        match si2cRx device len pins with
        | (bytes, pins) => (bytes, si2cStop device pins)

/-- The memory address of a transfer, high byte first. -/
def addressBytes (memAddr : Nat) : List Byte :=
  [BitVec.ofNat 8 (memAddr / 2 ^ 8), BitVec.ofNat 8 memAddr]

/-- `at24c_read`. -/
def at24cRead (devAddr memAddr len : Nat) (pins : Pins) : List Byte × Pins :=
  match si2cSelect device devAddr 0 (si2cStart device pins) with
  | (selected, pins) =>
      if selected ≠ 0 then ([], si2cStop device pins)
      else
        match si2cTx device (addressBytes memAddr) pins with
        | (count, pins) =>
            if count ≠ 2 then ([], si2cStop device pins)
            else
              match si2cSelect device devAddr 1 (si2cStart device pins) with
              | (selected, pins) =>
                  if selected ≠ 0 then ([], si2cStop device pins)
                  else
                    match si2cRx device len pins with
                    | (bytes, pins) => (bytes, si2cStop device pins)

/-- The device lets the data line go in a clock. -/
def Free (clock : Nat) : Prop := device clock = true

/-- Outside the acknowledges the device leaves the data line alone for an octet. -/
def Silent (first : Nat) : Prop := ∀ place < 8, device (first + place) = true

/-- The octets of some bytes with the levels of their acknowledges. -/
def octets (first : Nat) : List Byte → List Item
  | [] => []
  | byte :: rest => .octet byte (device (first + 8)) :: octets (first + 9) rest

/-- The device leaves the data line alone but for the acknowledges of some octets. -/
def Attentive (first : Nat) : Nat → Prop
  | 0 => True
  | count + 1 => Silent device first ∧ Attentive (first + 9) count

/-- The byte that the device sends with eight clocks. -/
def sentByte (first : Nat) : Byte :=
  octetOf ((List.range 8).map fun place => device (first + place))

/-- The bytes that the device sends, each followed by a clock in which the driver answers. -/
def sentBytes (first : Nat) : Nat → List Byte
  | 0 => []
  | count + 1 => sentByte device first :: sentBytes (first + 9) count

/-- What is heard of bytes that the driver receives: it acknowledges all but the last. -/
def answered (first : Nat) : Nat → List Item
  | 0 => []
  | count + 1 =>
      .octet (sentByte device first) ((count == 0) && device (first + 8)) ::
        answered (first + 9) count

variable {device}

/-- A bit is clocked out while the driver drives. -/
theorem tx_bit_low (bit : Bool) {pins : Pins} (low : pins.scl = false)
    (drives : pins.driving = true) :
    txBit device bit pins = { pins with
      out := bit
      clocks := pins.clocks + 1
      reader := pins.reader.read (.bit (bit && device pins.clocks)) } := by
  cases pins
  simp only at low drives
  subst low drives
  simp [txBit, pullSda, heard, pullSclHigh, pullSclLow, Pins.lines, Pins.sda]

/-- A bit is clocked in while the driver does not drive. -/
theorem rx_bit_low {pins : Pins} (low : pins.scl = false) (released : pins.driving = false) :
    rxBit device pins = (device pins.clocks, { pins with
      clocks := pins.clocks + 1
      reader := pins.reader.read (.bit (device pins.clocks)) }) := by
  cases pins
  simp only at low released
  subst low released
  simp [rxBit, heard, pullSclHigh, pullSclLow, Pins.lines, Pins.sda]

/-- While the clock is low the direction of the pin is not heard. -/
theorem set_sda_low (driving : Bool) {pins : Pins} (low : pins.scl = false) :
    setSda device driving pins = { pins with driving := driving } := by
  cases pins
  simp only at low
  subst low
  simp [setSda, heard, Pins.lines]

/-- An acknowledge that is given for the whole clock is never taken for a missing one. -/
theorem rx_ack_bit_low {pins : Pins} (low : pins.scl = false) (released : pins.driving = false) :
    rxAckBit device pins = (0, { pins with
      clocks := pins.clocks + 1
      reader := pins.reader.read (.bit (device pins.clocks)) }) := by
  cases pins
  simp only at low released
  subst low released
  have taken (level : Bool) : rxAck (if level then none else some 0) = 0 := by
    cases level <;> decide
  simp [rxAckBit, heard, pullSclHigh, pullSclLow, Pins.lines, Pins.sda, taken]

/-- The bits of a byte that the device leaves alone are heard as they are. -/
theorem tx_bits_low (byte : Byte) (place : Nat) {pins : Pins} (low : pins.scl = false)
    (drives : pins.driving = true) (fits : pins.reader.pending.length + place ≤ 8)
    (silent : ∀ later < place, device (pins.clocks + later) = true) :
    ∃ out, txBits device byte place pins = { pins with
      out := out
      clocks := pins.clocks + place
      reader := ⟨pins.reader.items, pins.reader.pending ++ bitsBelow byte place⟩ } ∧
      (0 < place → out = byte.getLsbD 0) := by
  induction place generalizing pins with
  | zero =>
    refine ⟨pins.out, ?_, fun present => absurd present (by omega)⟩
    simp [txBits, bitsBelow]
  | succ place inductionHypothesis =>
    have heardBit : txBit device (byte.getLsbD place) pins = { pins with
        out := byte.getLsbD place
        clocks := pins.clocks + 1
        reader := ⟨pins.reader.items, pins.reader.pending ++ [byte.getLsbD place]⟩ } := by
      have quiet := silent 0 (by omega)
      rw [tx_bit_low _ low drives, ← Nat.add_zero pins.clocks, quiet, Bool.and_true,
        read_pending _ (by omega)]
    obtain ⟨out, rest, last⟩ := @inductionHypothesis (txBit device (byte.getLsbD place) pins)
      (by rw [heardBit]; exact low) (by rw [heardBit]; exact drives)
      (by rw [heardBit]; simp only [List.length_append, List.length_singleton]; omega)
      (by
        intro later inside
        rw [heardBit]
        have quiet := silent (later + 1) (by omega)
        rwa [Nat.add_comm later 1, ← Nat.add_assoc] at quiet)
    refine ⟨out, ?_, ?_⟩
    · rw [txBits, rest, heardBit]
      simp [bitsBelow, Nat.add_assoc, Nat.add_comm 1 place]
    · intro _
      cases place with
      | zero =>
        have same := congrArg Pins.out rest
        rw [heardBit] at same
        exact same.symm
      | succ place => exact last (by omega)

/-- A byte to a device that leaves the data line alone but for the acknowledge is heard as the
octet that it is. -/
theorem tx_byte_low (byte : Byte) {pins : Pins} (low : pins.scl = false)
    (empty : pins.reader.pending = []) (silent : Silent device pins.clocks) :
    txByte device byte pins = (0, ⟨false, byte.getLsbD 0, false, pins.clocks + 9,
      ⟨pins.reader.items ++ [.octet byte (device (pins.clocks + 8))], []⟩⟩) := by
  obtain ⟨out, bits, last⟩ := @tx_bits_low device byte 8 { pins with driving := true } low rfl
    (by simp [empty]) silent
  have set := last (by decide)
  subst set
  have ready : txBits device byte 8 (setSda device true pins) =
      ⟨false, byte.getLsbD 0, true, pins.clocks + 8, ⟨pins.reader.items, bitsBelow byte 8⟩⟩ := by
    rw [set_sda_low true low, bits, empty, low]
    rfl
  rw [txByte, ready, set_sda_low false rfl, rx_ack_bit_low rfl rfl,
    read_octet _ (bits_below_length byte 8), octet_of_bits]

/-- The last bit that the driver left in its pin. -/
def outAfter (out : Bool) : List Byte → Bool
  | [] => out
  | byte :: rest => outAfter (byte.getLsbD 0) rest

/-- Bytes to an attentive device are all heard, and all taken for acknowledged. -/
theorem si2c_tx_low (bytes : List Byte) {pins : Pins} (low : pins.scl = false)
    (released : pins.driving = false) (empty : pins.reader.pending = [])
    (attentive : Attentive device pins.clocks bytes.length) :
    si2cTx device bytes pins = (bytes.length, ⟨false, outAfter pins.out bytes, false,
      pins.clocks + 9 * bytes.length,
      ⟨pins.reader.items ++ octets device pins.clocks bytes, []⟩⟩) := by
  induction bytes generalizing pins with
  | nil =>
    cases pins with
    | mk scl out driving clocks reader =>
      cases reader
      simp only at low released empty
      subst low released empty
      simp [si2cTx, outAfter, octets]
  | cons byte rest inductionHypothesis =>
    obtain ⟨silent, later⟩ := attentive
    have sent := tx_byte_low byte low empty silent
    have others := @inductionHypothesis ⟨false, byte.getLsbD 0, false, pins.clocks + 9,
      ⟨pins.reader.items ++ [.octet byte (device (pins.clocks + 8))], []⟩⟩ rfl rfl rfl later
    have places : pins.clocks + 9 + 9 * rest.length = pins.clocks + 9 * (rest.length + 1) := by
      omega
    rw [si2cTx, sent]
    simp only [ne_eq, not_true_eq_false, if_false, others, places, List.length_cons,
      List.append_assoc, List.singleton_append]
    rfl

/-- The pins between two transfers. -/
structure Idle (pins : Pins) : Prop where
  clock : pins.scl = true
  out : pins.out = true
  driving : pins.driving = true

/-- A start out of the idle state. -/
theorem si2c_start_idle {pins : Pins} (idle : Idle pins) (free : Free device pins.clocks) :
    si2cStart device pins = ⟨false, false, true, pins.clocks + 1,
      ⟨pins.reader.items ++ [.start], []⟩⟩ := by
  obtain ⟨clock, out, driving⟩ := idle
  cases pins
  unfold Free at free
  simp only at clock out driving free
  subst clock out driving
  simp [si2cStart, setSda, pullSda, pullSclHigh, pullSclLow, heard, Pins.lines, Pins.sda, free,
    Reader.read]

/-- A start in the middle of a transfer: the listener also hears a stop unless the pin still
holds a one. -/
theorem si2c_start_again (out driving : Bool) {clocks : Nat} (items : List Item)
    (free : Free device clocks) :
    si2cStart device ⟨false, out, driving, clocks, ⟨items, []⟩⟩ =
      ⟨false, false, true, clocks + 1,
        ⟨items ++ (if out then [] else [.stop]) ++ [.start], []⟩⟩ := by
  unfold Free at free
  cases out <;>
    simp [si2cStart, setSda, pullSda, pullSclHigh, pullSclLow, heard, Pins.lines, Pins.sda, free,
      Reader.read]

/-- A stop. -/
theorem si2c_stop_low (out driving : Bool) {clocks : Nat} (items : List Item)
    (free : Free device clocks) :
    si2cStop device ⟨false, out, driving, clocks, ⟨items, []⟩⟩ =
      ⟨true, true, true, clocks, ⟨items ++ [.stop], []⟩⟩ := by
  unfold Free at free
  simp [si2cStop, setSda, pullSda, pullSclHigh, pullSclLow, heard, Pins.lines, Pins.sda, free,
    Reader.read]

/-- The octet of `si2c_select`. -/
theorem si2c_select_low (addr op : Nat) {pins : Pins} (low : pins.scl = false)
    (empty : pins.reader.pending = []) (silent : Silent device pins.clocks) :
    si2cSelect device addr op pins =
      (0, ⟨false, (selectByte addr op).getLsbD 0, false, pins.clocks + 9,
        ⟨pins.reader.items ++ [.octet (selectByte addr op) (device (pins.clocks + 8))], []⟩⟩) := by
  rw [si2cSelect, tx_byte_low _ low empty silent]
  rfl

/-- Bits that the driver receives are the levels of the device. -/
theorem rx_bits_low (left : Nat) (byte : Byte) {pins : Pins} (low : pins.scl = false)
    (released : pins.driving = false) (fits : pins.reader.pending.length + left ≤ 8) :
    rxBits device left byte pins =
      (((List.range left).map fun place => device (pins.clocks + place)).foldl
          shiftIn byte,
        { pins with
          clocks := pins.clocks + left
          reader := ⟨pins.reader.items, pins.reader.pending ++
            (List.range left).map fun place => device (pins.clocks + place)⟩ }) := by
  induction left generalizing byte pins with
  | zero => simp [rxBits]
  | succ left inductionHypothesis =>
    have received : rxBit device pins = (device pins.clocks, { pins with
        clocks := pins.clocks + 1
        reader := ⟨pins.reader.items, pins.reader.pending ++ [device pins.clocks]⟩ }) := by
      rw [rx_bit_low low released, read_pending _ (by omega)]
    have rest := @inductionHypothesis (shiftIn byte (device pins.clocks))
      { pins with
        clocks := pins.clocks + 1
        reader := ⟨pins.reader.items, pins.reader.pending ++ [device pins.clocks]⟩ } low released
      (by simp only [List.length_append, List.length_singleton]; omega)
    rw [rxBits, received]
    simp only [rest]
    simp [List.range_succ_eq_map, Function.comp_def, Nat.add_assoc, Nat.add_comm 1,
      Nat.add_left_comm]

/-- Received bytes are those that the device sends; the last one is not acknowledged. -/
theorem si2c_rx_low (count : Nat) {pins : Pins} (low : pins.scl = false)
    (empty : pins.reader.pending = []) :
    ∃ out driving, si2cRx device count pins = (sentBytes device pins.clocks count,
      ⟨false, out, driving, pins.clocks + 9 * count,
        ⟨pins.reader.items ++ answered device pins.clocks count, []⟩⟩) := by
  induction count generalizing pins with
  | zero =>
    refine ⟨pins.out, pins.driving, ?_⟩
    cases pins with
    | mk scl out driving clocks reader =>
      cases reader
      simp only at low empty
      subst low empty
      simp [si2cRx, sentBytes, answered]
  | succ count inductionHypothesis =>
    obtain ⟨scl, out, driving, clocks, items, pending⟩ := pins
    simp only at low empty
    subst low empty
    have bits := @rx_bits_low device 8 0 ⟨false, out, false, clocks, ⟨items, []⟩⟩ rfl rfl
      (by simp)
    have answer : txBit device (count == 0) (setSda device true
        ⟨false, out, false, clocks + 8,
          ⟨items, (List.range 8).map fun place => device (clocks + place)⟩⟩) =
        ⟨false, count == 0, true, clocks + 9, ⟨items ++
          [.octet (sentByte device clocks) ((count == 0) && device (clocks + 8))], []⟩⟩ := by
      rw [set_sda_low true rfl, tx_bit_low _ rfl rfl, read_octet _ (by simp)]
      rfl
    obtain ⟨last, drives, rest⟩ := @inductionHypothesis ⟨false, count == 0, true, clocks + 9,
      ⟨items ++ [.octet (sentByte device clocks) ((count == 0) && device (clocks + 8))], []⟩⟩
      rfl rfl
    refine ⟨last, drives, ?_⟩
    have places : clocks + 9 + 9 * count = clocks + 9 * (count + 1) := by omega
    simp only [List.nil_append] at bits
    rw [si2cRx, set_sda_low false rfl, bits]
    simp only [answer, rest, places, List.append_assoc, List.singleton_append]
    rfl

/-- `si2c_send` out of the idle state. -/
theorem si2c_send_idle {pins : Pins} (idle : Idle pins) (addr : Nat) (buff : List Byte)
    (begun : Free device pins.clocks) (attentive : Attentive device (pins.clocks + 1)
      (buff.length + 1)) (ended : Free device (pins.clocks + 1 + 9 * (buff.length + 1))) :
    si2cSend device addr buff pins = (buff.length, ⟨true, true, true,
      pins.clocks + 1 + 9 * (buff.length + 1), ⟨pins.reader.items ++
        .start :: octets device (pins.clocks + 1) (selectByte addr 0 :: buff) ++ [.stop], []⟩⟩) := by
  obtain ⟨silent, attentive⟩ := attentive
  have places : pins.clocks + 1 + 9 + 9 * buff.length =
      pins.clocks + 1 + 9 * (buff.length + 1) := by omega
  rw [← places] at ended
  rw [si2cSend, si2c_start_idle idle begun, si2c_select_low addr 0 rfl rfl silent]
  simp only [ne_eq, not_true_eq_false, if_false]
  rw [si2c_tx_low buff rfl rfl rfl attentive]
  simp only
  rw [si2c_stop_low _ _ _ ended, ← places]
  simp [octets]

/-- From the idle state, to a device that pulls the data line for acknowledges only:
`si2c_send` is heard as one transfer of the address octet and of each byte once, in order, and
reports all of them sent whatever was acknowledged; `si2c_receive` is heard as one transfer of
the address octet and of the bytes the device sends, which it returns, and acknowledges all of
them but the last. Both leave the bus idle. -/
theorem transfers_heard (device : Nat → Bool) (pins : Pins) (idle : Idle pins)
    (begun : Free device pins.clocks) (addr : Nat) :
    (∀ buff : List Byte, Attentive device (pins.clocks + 1) (buff.length + 1) →
      Free device (pins.clocks + 1 + 9 * (buff.length + 1)) →
      ∃ after, si2cSend device addr buff pins = (buff.length, after) ∧ Idle after ∧
        after.reader.items = pins.reader.items ++
          .start :: octets device (pins.clocks + 1) (selectByte addr 0 :: buff) ++ [.stop]) ∧
      ∀ len, Silent device (pins.clocks + 1) →
        Free device (pins.clocks + 10 + 9 * len) →
        ∃ after, si2cReceive device addr len pins =
            (sentBytes device (pins.clocks + 10) len, after) ∧ Idle after ∧
          after.reader.items = pins.reader.items ++
            .start :: .octet (selectByte addr 1) (device (pins.clocks + 9)) ::
              answered device (pins.clocks + 10) len ++ [.stop] := by
  constructor
  · intro buff attentive ended
    exact ⟨_, si2c_send_idle idle addr buff begun attentive ended, ⟨rfl, rfl, rfl⟩, by simp⟩
  · intro len silent ended
    obtain ⟨out, driving, received⟩ := @si2c_rx_low device len ⟨false,
      (selectByte addr 1).getLsbD 0, false, pins.clocks + 1 + 9,
      ⟨pins.reader.items ++ [.start] ++
        [.octet (selectByte addr 1) (device (pins.clocks + 1 + 8))], []⟩⟩ rfl rfl
    have taken : si2cReceive device addr len pins = (sentBytes device (pins.clocks + 1 + 9) len,
        ⟨true, true, true, pins.clocks + 1 + 9 + 9 * len, ⟨pins.reader.items ++ [.start] ++
          [.octet (selectByte addr 1) (device (pins.clocks + 1 + 8))] ++
          answered device (pins.clocks + 1 + 9) len ++ [.stop], []⟩⟩) := by
      rw [si2cReceive, si2c_start_idle idle begun, si2c_select_low addr 1 rfl rfl silent]
      simp only [ne_eq, not_true_eq_false, if_false]
      rw [received]
      simp only
      rw [si2c_stop_low _ _ _ ended]
    exact ⟨_, taken, ⟨rfl, rfl, rfl⟩, by simp⟩

/-- A device that acknowledges two octets is sent a byte, and one is received from it. -/
theorem transfers_heard_acknowledged :
    (∃ after, si2cSend (fun clock => !([9, 18].contains clock)) 0x50 [0xA5]
        ⟨true, true, true, 0, ⟨[], []⟩⟩ = (1, after) ∧
      after.reader.items = [.start, .octet 0xA0 false, .octet 0xA5 false, .stop]) ∧
    ∃ after, si2cReceive (fun clock => !([9, 18].contains clock)) 0x50 1
        ⟨true, true, true, 0, ⟨[], []⟩⟩ = ([0xFF], after) ∧
      after.reader.items = [.start, .octet 0xA1 false, .octet 0xFF false, .stop] := by
  have acknowledging := transfers_heard (fun clock => !([9, 18].contains clock))
    ⟨true, true, true, 0, ⟨[], []⟩⟩ ⟨rfl, rfl, rfl⟩ rfl 0x50
  obtain ⟨sent, result, -, items⟩ := acknowledging.1 [0xA5]
    ⟨by unfold Silent; decide, by unfold Silent; decide, trivial⟩ rfl
  obtain ⟨received, bytes, -, answers⟩ := acknowledging.2 1 (by unfold Silent; decide) rfl
  exact ⟨⟨sent, result, items⟩, ⟨received, bytes, answers⟩⟩

/-- The octets that address the memory in `at24c_read`. -/
def addressing (devAddr memAddr : Nat) : List Byte :=
  selectByte devAddr 0 :: addressBytes memAddr

/-- What is heard of `at24c_read`. -/
def readHeard (device : Nat → Bool) (clock devAddr memAddr len : Nat) : List Item :=
  .start :: octets device (clock + 1) (addressing devAddr memAddr) ++
    (if memAddr % 2 = 0 then [.stop] else []) ++
    .start :: .octet (selectByte devAddr 1) (device (clock + 37)) ::
      answered device (clock + 38) len ++ [.stop]

/-- `at24c_read` out of the idle state. -/
theorem at24c_read_idle {pins : Pins} (idle : Idle pins) (devAddr memAddr len : Nat)
    (begun : Free device pins.clocks) (attentive : Attentive device (pins.clocks + 1) 3)
    (again : Free device (pins.clocks + 28)) (silent : Silent device (pins.clocks + 29))
    (ended : Free device (pins.clocks + 38 + 9 * len)) :
    at24cRead device devAddr memAddr len pins =
      (sentBytes device (pins.clocks + 38) len,
        ⟨true, true, true, pins.clocks + 38 + 9 * len,
          ⟨pins.reader.items ++ readHeard device pins.clocks devAddr memAddr len, []⟩⟩) := by
  obtain ⟨first, attentive⟩ := attentive
  have held : outAfter ((selectByte devAddr 0).getLsbD 0) (addressBytes memAddr) =
      decide (memAddr % 2 = 1) := by
    change (BitVec.ofNat 8 memAddr).getLsbD 0 = _
    simp only [BitVec.getLsbD_ofNat, Nat.testBit_zero, Nat.zero_lt_succ, decide_true,
      Bool.true_and]
  have heardAgain : (if decide (memAddr % 2 = 1) = true then [] else [Item.stop]) =
      if memAddr % 2 = 0 then [.stop] else [] := by
    rcases Nat.mod_two_eq_zero_or_one memAddr with even | odd
    · simp [even]
    · simp [odd]
  have sent := @si2c_tx_low device (addressBytes memAddr) ⟨false, (selectByte devAddr 0).getLsbD 0,
    false, pins.clocks + 1 + 9, ⟨pins.reader.items ++ [.start] ++
      [.octet (selectByte devAddr 0) (device (pins.clocks + 1 + 8))], []⟩⟩ rfl rfl rfl attentive
  have two : (addressBytes memAddr).length = 2 := rfl
  obtain ⟨out, driving, received⟩ := @si2c_rx_low device len ⟨false,
    (selectByte devAddr 1).getLsbD 0, false, pins.clocks + 29 + 9,
    ⟨pins.reader.items ++ [.start] ++
      [.octet (selectByte devAddr 0) (device (pins.clocks + 1 + 8))] ++
      octets device (pins.clocks + 1 + 9) (addressBytes memAddr) ++
      (if memAddr % 2 = 0 then [.stop] else []) ++ [.start] ++
      [.octet (selectByte devAddr 1) (device (pins.clocks + 29 + 8))], []⟩⟩ rfl rfl
  rw [at24cRead, si2c_start_idle idle begun, si2c_select_low devAddr 0 rfl rfl first]
  simp only [ne_eq, not_true_eq_false, if_false]
  rw [sent, held]
  simp only [two, not_true_eq_false, if_false]
  rw [si2c_start_again _ _ _ again, heardAgain, si2c_select_low devAddr 1 rfl rfl silent]
  simp only [not_true_eq_false, if_false]
  rw [received]
  simp only
  rw [si2c_stop_low _ _ _ ended]
  simp [readHeard, octets, addressing]

/-- From the idle state, to a device that pulls the data line for acknowledges only, `at24c_read`
is heard as a transfer of the device and memory address, a second start, the address octet for
reading and the bytes the device sends, which it returns. Before the second start the listener
also hears a stop exactly when the memory address is even. -/
theorem at24c_read_heard (device : Nat → Bool) (pins : Pins) (idle : Idle pins)
    (devAddr memAddr len : Nat) (begun : Free device pins.clocks)
    (attentive : Attentive device (pins.clocks + 1) 3) (again : Free device (pins.clocks + 28))
    (silent : Silent device (pins.clocks + 29)) (ended : Free device (pins.clocks + 38 + 9 * len)) :
    ∃ after, at24cRead device devAddr memAddr len pins =
        (sentBytes device (pins.clocks + 38) len, after) ∧ Idle after ∧
      after.reader.items =
        pins.reader.items ++ readHeard device pins.clocks devAddr memAddr len :=
  ⟨_, at24c_read_idle idle devAddr memAddr len begun attentive again silent ended,
    ⟨rfl, rfl, rfl⟩, rfl⟩

/-- A byte is read from an even address, and the listener hears the stop that was not meant. -/
theorem at24c_read_heard_even :
    ∃ after, at24cRead (fun clock => !([9, 18, 27, 37, 39, 41, 42, 44].contains clock)) 0x50
        0x1234 1 ⟨true, true, true, 0, ⟨[], []⟩⟩ = ([0xA5], after) ∧
      after.reader.items = [.start, .octet 0xA0 false, .octet 0x12 false, .octet 0x34 false,
        .stop, .start, .octet 0xA1 false, .octet 0xA5 true, .stop] := by
  obtain ⟨after, result, -, items⟩ := at24c_read_heard
    (fun clock => !([9, 18, 27, 37, 39, 41, 42, 44].contains clock))
    ⟨true, true, true, 0, ⟨[], []⟩⟩ ⟨rfl, rfl, rfl⟩ 0x50 0x1234 1 rfl
    ⟨by unfold Silent; decide, by unfold Silent; decide, by unfold Silent; decide, trivial⟩ rfl
    (by unfold Silent; decide) rfl
  exact ⟨after, result, items⟩

end

end Pyrometer.I2cWires
