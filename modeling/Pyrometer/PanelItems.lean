import Pyrometer.AnalogLimits
import Pyrometer.IpAddresses

/-!
# The items of the panel

What an item of a menu does when it is called: it takes a value out of the parameters as
long as no edit blinks, adds the increment of a key press, draws the value, and stores it
when the navigator has asked for that. The addresses are edited one number after the other.

A draw is the value that an item puts on the display; the text around it, the blinking and
the second draw of a value that was just stored are left out. `ui.ip_cfg_disvalue` is filled
anew in every call, so it is no part of the state. Of the values in `IPconfig_value` only
the low bytes are used.
-/

namespace Pyrometer.PanelItems

open ByteMemory BinaryFloats CText CommandTable ParameterLayout ParameterManager InstrumentState
open CommandExecution IpAddresses AnalogLimits Instrument

/-- What an item has drawn. -/
inductive Drawn where
  | nothing
  | value (shown : Int)
  | segments (shown : List Byte)
deriving DecidableEq

/-- An access that the menus and the edited values do not allow for. -/
inductive Fault where
  | outsideMenu
  | outsideFields
deriving DecidableEq

/-- What the items share: the value, its increment, the two requests, the numbers of each
address, and the instrument. -/
structure Editing where
  disValue : Int
  setValue : Int
  cfgStates : Bool
  setStates : Bool
  ipconfigValue : Address → List Nat
  drawn : Drawn
  instrument : Instrument

/-- An item that edits one value. `drawsFirst` says that it draws before it adds. -/
structure Setting where
  load : Instrument → Int
  turn : Instrument → Int → Int
  drawsFirst : Bool
  store : Int → Instrument → Instrument

/-- A value that comes in again at the other end of its range. -/
def wrap (low high value : Int) : Int :=
  if value < low then high else if high < value then low else value

/-- A value that stops at the ends of its range. -/
def clamp (low high value : Int) : Int :=
  if value < low then low else if high < value then high else value

/-- A value with an increment added, in 32 bits. -/
def Setting.turned (setting : Setting) (instrument : Instrument) (value increment : Int) : Int :=
  setting.turn instrument (Int.bmod (value + increment) (2 ^ 32))

/-- A call of an item that edits one value. -/
def Setting.pass (setting : Setting) (isBlinking : Bool) (editing : Editing) : Editing :=
  let loaded := if isBlinking then editing.disValue else setting.load editing.instrument
  let value :=
    if editing.setStates then setting.turned editing.instrument loaded editing.setValue else loaded
  { editing with
    disValue := value
    setStates := false
    cfgStates := false
    drawn := .value (if setting.drawsFirst then loaded else value)
    instrument :=
      if editing.cfgStates then setting.store value editing.instrument else editing.instrument }

/-- A member is assigned and its group saved. -/
def stored (member : Member) (group : ParaType) (encode : Int → Nat) (value : Int)
    (instrument : Instrument) : Instrument :=
  (instrument.put member (encode value)).saveGroup group

/-- A number of a 32-bit member as an `int32_t`. -/
def word32 (instrument : Instrument) (member : Member) : Int :=
  Int.bmod (instrument.value member) (2 ^ 32)

/-- A number of a member cut to an `int16_t`. -/
def word16 (value : Nat) : Int := Int.bmod value (2 ^ 16)

/-- The conversion to `unsigned int`. -/
def unsignedInt (value : Int) : Nat := (value % 2 ^ 32).toNat

/-- A number with a fraction in thousandths, cut to an `int16_t`. -/
def scaled (instrument : Instrument) (member : Member) : Int :=
  toInt16 (single.mul (instrument.value member) (single.ofInt 1000))

/-- Thousandths as a number with a fraction. -/
def unscaled (value : Int) : Nat := single.div (single.ofInt value) (single.ofInt 1000)

/-- The mode that `do_temp_mode` stores for a value. -/
def tempModeOf (value : Int) : Nat := if value ≠ 0 then 2 else 1

/-- `do_temp_mode`. -/
def doTempMode : Setting where
  load instrument := if instrument.value .tempMode = 2 then 1 else 0
  turn _ := wrap 0 1
  drawsFirst := false
  store value instrument :=
    if instrument.value .tempMode = 1 ∨ instrument.value .tempMode = 2 then
      stored .tempMode .temp tempModeOf value instrument
    else instrument

/-- The array `unit`. -/
def unitOf (value : Int) : Nat := [0x43, 0x46, 0x4B].getD value.toNat 0

/-- `do_temp_units`. -/
def doTempUnits : Setting where
  load instrument :=
    if instrument.value .tempUnit = 0x43 then 0
    else if instrument.value .tempUnit = 0x46 then 1 else 2
  turn _ := wrap 0 2
  drawsFirst := true
  store := stored .tempUnit .temp unitOf

/-- `do_relay_mode`. -/
def doRelayMode : Setting where
  load instrument := word32 instrument .alarmRelayAlarmMode
  turn _ := wrap 0 9
  drawsFirst := false
  store := stored .alarmRelayAlarmMode .alarm unsignedInt

/-- `do_aim_device`. -/
def doAimDevice : Setting where
  load instrument := word32 instrument .videoControl
  turn _ := wrap 0 1
  drawsFirst := false
  store := stored .videoControl .video unsignedInt

/-- `do_fact_default`: the value, which is 1 for YES, is not looked at when it is confirmed. -/
def doFactDefault : Setting where
  load _ := 0
  turn _ := wrap 0 1
  drawsFirst := false
  store _ instrument := { instrument with pmm := pmmRestoreToDefault instrument.pmm }

/-- The items of numbers with a fraction. -/
def fraction (member : Member) (high : Int) : Setting where
  load instrument := scaled instrument member
  turn _ := clamp 100 high
  drawsFirst := false
  store := stored member .temp unscaled

/-- `do_emissivity`. -/
def doEmissivity : Setting := fraction .tempEmissivity 1150

/-- `do_slope`. -/
def doSlope : Setting := fraction .tempSlope 1150

/-- `do_transmissivity_low`. -/
def doTransmissivityLow : Setting := fraction .tempTransNb 1500

/-- `do_transmissivity_high`. -/
def doTransmissivityHigh : Setting := fraction .tempTransWb 1500

/-- `do_temp_filt_size`. -/
def doTempFiltSize : Setting where
  load instrument := word16 (instrument.value .filterTempFilterBufSize)
  turn _ := clamp 1 150
  drawsFirst := false
  store := stored .filterTempFilterBufSize .filter unsignedInt

/-- The array `r_value`. -/
def analogTypeOf (value : Int) : Nat := [0x30, 0x34, 0x35].getD value.toNat 0

/-- `do_analog_mode`. -/
def doAnalogMode : Setting where
  load instrument :=
    if instrument.value .anaType = 0x30 then 0
    else if instrument.value .anaType = 0x34 then 1 else 2
  turn _ := wrap 0 2
  drawsFirst := true
  store := stored .anaType .ana analogTypeOf

/-- The items of the limits of the analog output. -/
def analogOut (member : Member) : Setting where
  load instrument := toInt16 (instrument.value member)
  turn instrument :=
    clamp (toInt16 (instrument.value .tempDevTempMin)) (toInt16 (instrument.value .tempDevTempMax))
  drawsFirst := false
  store := stored member .ana single.ofInt

/-- `do_analog_out_low`. -/
def doAnalogOutLow : Setting := analogOut .anaLower

/-- `do_analog_out_high`. -/
def doAnalogOutHigh : Setting := analogOut .anaUpper

/-- `do_multi_addr`. -/
def doMultiAddr : Setting where
  load instrument := word16 (instrument.value .devAddr)
  turn _ := clamp 0 32
  drawsFirst := false
  store := stored .devAddr .dev unsignedInt

/-- The rate that `do_baud_rate` stores for hundreds of it. -/
def baudrateOf (value : Int) : Nat := unsignedInt (value * 100)

/-- `do_baud_rate`. -/
def doBaudRate : Setting where
  load instrument := word16 (instrument.value .portBaudrate / 100)
  turn _ := clamp 3 1152
  drawsFirst := false
  store value instrument :=
    let instrument := instrument.put .portBaudrate (baudrateOf value)
    let instrument :=
      if isValidBaudrate (instrument.value .portBaudrate) then instrument
      else instrument.put .portBaudrate 115200
    pcInit (instrument.saveGroup .port)

/-- `do_eth_port`. -/
def doEthPort : Setting where
  load instrument := word32 instrument .netPort
  turn _ := wrap 0 65535
  drawsFirst := false
  store := stored .netPort .net unsignedInt

/-- `"%03u.%03u.%03u.%03u"`, with the zero that ends it. -/
def segmentText (segments : List Byte) : List Byte :=
  [point].intercalate (segments.map (fun segment => zeroPadded 3 (decimal segment.toNat))) ++ [0]

/-- The numbers of an address after its text was scanned; those that the text does not have
are the old ones. -/
def scanned (address : Address) (instrument : Instrument) (old : List Nat) : List Nat :=
  let numbers := scanIp (address.text instrument.pmm.sysPara)
  numbers ++ old.drop numbers.length

/-- One number with an increment added. -/
def turnedSegment (number : Nat) (increment : Int) : Nat :=
  (BitVec.ofInt 8 (Int.tmod ((BitVec.ofNat 8 number).toNat + increment) 256)).toNat

/-- The text of an address is written and its group saved. -/
def storedAddress (address : Address) (segments : List Byte) (instrument : Instrument) :
    Instrument :=
  (instrument.store address.offset (segmentText segments) .para).saveGroup .net

/-- The end of a call of an item that edits an address, with the numbers it has come to. -/
def finishAddress (address : Address) (numbers : List Nat) (editing : Editing) : Editing :=
  let segments := numbers.map (BitVec.ofNat 8)
  { editing with
    ipconfigValue := fun other => if other = address then numbers else editing.ipconfigValue other
    setStates := false
    cfgStates := false
    drawn := .segments segments
    instrument :=
      if editing.cfgStates then storedAddress address segments editing.instrument
      else editing.instrument }

/-- A call of an item that edits an address. -/
def addressPass (address : Address) (isBlinking : Bool) (currentParaIndex : Nat)
    (editing : Editing) : Except Fault Editing :=
  let old := editing.ipconfigValue address
  let numbers := if isBlinking then old else scanned address editing.instrument old
  if editing.setStates then
    if currentParaIndex < 4 then
      let number := turnedSegment (numbers.getD currentParaIndex 0) editing.setValue
      .ok (finishAddress address (numbers.set currentParaIndex number) editing)
    else .error .outsideFields
  else .ok (finishAddress address numbers editing)

/-- The functions that items of the menus call. -/
inductive Subs where
  | oledShowInfo
  | doTempMode
  | doTempUnits
  | doRelayMode
  | doAimDevice
  | doFactDefault
  | doSlope
  | doEmissivity
  | doTransmissivityLow
  | doTransmissivityHigh
  | doTempFiltSize
  | doBaudRate
  | doMultiAddr
  | doLocalIp
  | doEthGw
  | doEthNm
  | doEthPort
  | doAnalogMode
  | doAnalogOutLow
  | doAnalogOutHigh
deriving DecidableEq

/-- What a function of an item is about. -/
inductive Page where
  | info
  | setting (setting : Setting)
  | address (address : Address)

/-- The body of each function. `oled_show_info` only draws. -/
def Subs.page : Subs → Page
  | .oledShowInfo => .info
  | .doTempMode => .setting PanelItems.doTempMode
  | .doTempUnits => .setting PanelItems.doTempUnits
  | .doRelayMode => .setting PanelItems.doRelayMode
  | .doAimDevice => .setting PanelItems.doAimDevice
  | .doFactDefault => .setting PanelItems.doFactDefault
  | .doSlope => .setting PanelItems.doSlope
  | .doEmissivity => .setting PanelItems.doEmissivity
  | .doTransmissivityLow => .setting PanelItems.doTransmissivityLow
  | .doTransmissivityHigh => .setting PanelItems.doTransmissivityHigh
  | .doTempFiltSize => .setting PanelItems.doTempFiltSize
  | .doBaudRate => .setting PanelItems.doBaudRate
  | .doMultiAddr => .setting PanelItems.doMultiAddr
  | .doLocalIp => .address .ipAddr
  | .doEthGw => .address .gateway
  | .doEthNm => .address .netMask
  | .doEthPort => .setting PanelItems.doEthPort
  | .doAnalogMode => .setting PanelItems.doAnalogMode
  | .doAnalogOutLow => .setting PanelItems.doAnalogOutLow
  | .doAnalogOutHigh => .setting PanelItems.doAnalogOutHigh

/-- A call of the function of an item. -/
def Subs.call (subs : Subs) (isBlinking : Bool) (currentParaIndex : Nat) (editing : Editing) :
    Except Fault Editing :=
  match subs.page with
  | .info => .ok { editing with drawn := .nothing }
  | .setting setting => .ok (setting.pass isBlinking editing)
  | .address address => addressPass address isBlinking currentParaIndex editing

/-- The items of the two limits do what their pages do. -/
theorem analog_out_pass (member : Member) (isBlinking : Bool) (editing : Editing) :
    doAnalogOut member ⟨editing.disValue, editing.setValue, editing.cfgStates, editing.setStates,
        isBlinking⟩ editing.instrument =
      let after := (analogOut member).pass isBlinking editing
      (⟨after.disValue, after.setValue, after.cfgStates, after.setStates, isBlinking⟩,
        after.instrument) := by
  have value : disValue member ⟨editing.disValue, editing.setValue, editing.cfgStates,
      editing.setStates, isBlinking⟩ editing.instrument =
        ((analogOut member).pass isBlinking editing).disValue := rfl
  rw [doAnalogOut, value]
  rfl

/-- The numbers of an address that a call works on. -/
def addressNumbers (address : Address) (isBlinking : Bool) (editing : Editing) : List Nat :=
  if isBlinking then editing.ipconfigValue address
  else scanned address editing.instrument (editing.ipconfigValue address)

/-- A call that edits an address comes to its end with these numbers, or with one of them
turned. -/
theorem address_pass_finishes {address : Address} {isBlinking : Bool} {index : Nat}
    {editing after : Editing} (called : addressPass address isBlinking index editing = .ok after) :
    ∃ numbers, after = finishAddress address numbers editing ∧
      numbers.length = (addressNumbers address isBlinking editing).length ∧
      (editing.setStates = false → numbers = addressNumbers address isBlinking editing) := by
  unfold addressPass at called
  cases turned : editing.setStates with
  | false =>
    rw [turned] at called
    cases called
    exact ⟨_, rfl, rfl, fun _ => rfl⟩
  | true =>
    by_cases inside : index < 4
    · simp only [turned, if_true, if_pos inside] at called
      cases called
      exact ⟨_, rfl, List.length_set, fun unturned => by cases unturned⟩
    · simp only [turned, if_true, if_neg inside] at called
      cases called

/-- A call that is not asked to store keeps the instrument. -/
theorem call_instrument {subs : Subs} {isBlinking : Bool} {index : Nat} {editing after : Editing}
    (called : subs.call isBlinking index editing = .ok after)
    (idle : editing.cfgStates = false) : after.instrument = editing.instrument := by
  unfold Subs.call at called
  cases page : subs.page with
  | info =>
    rw [page] at called
    cases called
    rfl
  | setting setting =>
    rw [page] at called
    cases called
    simp only [Setting.pass, idle, Bool.false_eq_true, if_false]
  | address address =>
    rw [page] at called
    obtain ⟨numbers, rfl, _, _⟩ := address_pass_finishes called
    simp only [finishAddress, idle, Bool.false_eq_true, if_false]

/-- The item that edits nothing. -/
theorem info_page {subs : Subs} (page : subs.page = .info) : subs = .oledShowInfo := by
  cases subs <;> first | rfl | cases page

/-- Only `oled_show_info` leaves the requests as they are, and no call makes one. -/
theorem call_requests {subs : Subs} {isBlinking : Bool} {index : Nat} {editing after : Editing}
    (called : subs.call isBlinking index editing = .ok after) :
    (subs ≠ .oledShowInfo → after.setStates = false ∧ after.cfgStates = false) ∧
      (editing.setStates = false → after.setStates = false) ∧
      (editing.cfgStates = false → after.cfgStates = false) := by
  unfold Subs.call at called
  cases page : subs.page with
  | info =>
    rw [page] at called
    cases called
    exact ⟨fun other => absurd (info_page page) other, id, id⟩
  | setting setting =>
    rw [page] at called
    cases called
    exact ⟨fun _ => ⟨rfl, rfl⟩, fun _ => rfl, fun _ => rfl⟩
  | address address =>
    rw [page] at called
    obtain ⟨numbers, rfl, _, _⟩ := address_pass_finishes called
    exact ⟨fun _ => ⟨rfl, rfl⟩, fun _ => rfl, fun _ => rfl⟩

/-- The items that edit an address. -/
def addressItems : List Subs := [.doLocalIp, .doEthGw, .doEthNm]

/-- A call succeeds unless it turns a field that an address does not have. -/
theorem call_succeeds {subs : Subs} {isBlinking : Bool} {index : Nat} {editing : Editing}
    (field : editing.setStates = true → subs ∈ addressItems → index < 4) :
    ∃ after, subs.call isBlinking index editing = .ok after := by
  unfold Subs.call
  cases page : subs.page with
  | info => exact ⟨_, rfl⟩
  | setting setting => exact ⟨_, rfl⟩
  | address address =>
    have listed : subs ∈ addressItems := by cases subs <;> first | decide | cases page
    simp only [addressPass]
    by_cases turned : editing.setStates = true
    · rw [if_pos turned, if_pos (field turned listed)]
      exact ⟨_, rfl⟩
    · rw [if_neg turned]
      exact ⟨_, rfl⟩

end Pyrometer.PanelItems
