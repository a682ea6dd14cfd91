import Pyrometer.FramedBus
import Pyrometer.KeyEvents
import Pyrometer.LedTube

/-!
# The display and key chip of the panel, on its three wires

`tm1639.c` moves three pins one at a time. A listener on the wires hears frames, and the chip
takes a frame as `tm1639.h` names its commands: a data command, a display command, or an address
command followed by the cells from that address on. Each call is meant as a change of the cells
or of the display as a whole, and `key_scan` as a look at what the chip drives.

The data pin is pushed and pulled while it is an output; while it is an input the line is what
the chip drives, one level for each fall of the clock. Delays and pin modes of the other two
pins are left out. The chip is in no frame while the select line is high, and what it holds
before `tm1639_init` is unknown.
-/

namespace Pyrometer.PanelChip

open ByteMemory ErrorFlags ExactTemperatures FramedBus LedTube Runs TemperatureStatus Truncation

/-- `TM1639_CMD_DATA`. -/
def tm1639CmdData : Byte := 0x40

/-- `TM1639_CMD_DISPLAY`. -/
def tm1639CmdDisplay : Byte := 0x80

/-- `TM1639_CMD_ADDR`. -/
def tm1639CmdAddr : Byte := 0xC0

/-- `TM1639_DATA_RD`. -/
def tm1639DataRd : Byte := 0x02

/-- `TM1639_DISP_ON`. -/
def tm1639DispOn : Byte := 0x08

/-- The pins, the falls of the clock so far, and the listener. -/
structure Pins where
  stb : Bool
  clk : Bool
  out : Bool
  driving : Bool
  clocks : Nat
  reader : Reader

section

variable (device : Nat → Bool)

/-- The level of the data line. -/
def Pins.dio (pins : Pins) : Bool := if pins.driving then pins.out else device pins.clocks

/-- The levels of the lines. -/
def Pins.lines (pins : Pins) : Lines := ⟨pins.stb, pins.clk, pins.dio device⟩

/-- The listener hears a change of a pin. -/
def heard (before after : Pins) : Pins :=
  { after with reader := before.reader.hear (before.lines device) (after.lines device) }

/-- `tm1639_stb_high` and `tm1639_stb_low`. -/
def setStb (level : Bool) (pins : Pins) : Pins := heard device pins { pins with stb := level }

/-- `tm1639_clk_high`. -/
def clkHigh (pins : Pins) : Pins := heard device pins { pins with clk := true }

/-- `tm1639_clk_low`: a clock that falls lets the chip change its level. -/
def clkLow (pins : Pins) : Pins :=
  { pins with clk := false, clocks := if pins.clk then pins.clocks + 1 else pins.clocks }

/-- `tm1639_dio_high` and `tm1639_dio_low`. -/
def setDio (level : Bool) (pins : Pins) : Pins := heard device pins { pins with out := level }

/-- `tm1639_dio_out` and `tm1639_dio_in`. -/
def setDriving (driving : Bool) (pins : Pins) : Pins :=
  heard device pins { pins with driving := driving }

/-- The rounds of `tm1639_write_byte` that are left. -/
def writeRounds : Nat → Byte → Pins → Pins
  | 0, _, pins => pins
  | left + 1, byte, pins =>
      writeRounds left (byte >>> 1) (clkHigh device (setDio device (byte.getLsbD 0) (clkLow pins)))

/-- `tm1639_write_byte`. -/
def tm1639WriteByte (byte : Byte) (pins : Pins) : Pins := writeRounds device 8 byte pins

/-- The rounds of `tm1639_read_byte` that are left. -/
def readRounds : Nat → Byte → Pins → Byte × Pins
  | 0, val, pins => (val, pins)
  | left + 1, val, pins =>
      let high := clkHigh device (clkLow pins)
      readRounds left (if high.dio device then val >>> 1 ||| 0x80 else val >>> 1) high

/-- `tm1639_read_byte`. -/
def tm1639ReadByte (pins : Pins) : Byte × Pins := readRounds device 8 0 pins

/-- The bytes of a frame, one after the other. -/
def writeBytes (bytes : List Byte) (pins : Pins) : Pins :=
  bytes.foldl (fun pins byte => tm1639WriteByte device byte pins) pins

/-- A frame that the driver writes. -/
def writeFrame (bytes : List Byte) (pins : Pins) : Pins :=
  setStb device true (writeBytes device bytes (setStb device false pins))

/-- `tm1639_write_buff`. -/
def tm1639WriteBuff (addr : Byte) (buff : List Byte) (pins : Pins) : Pins :=
  if addr.toNat + buff.length > 0x0F then pins
  else
    writeFrame device ((tm1639CmdAddr ||| addr) :: buff) (writeFrame device [tm1639CmdData] pins)

/-- The octet of `tm1639_set_command`. -/
def displayCmd (status luminance : Byte) : Byte :=
  let luminance := if luminance.toNat > 7 then 7 else luminance
  let display := tm1639CmdDisplay ||| luminance
  if status ≠ 0 then display ||| tm1639DispOn else display

/-- `tm1639_set_command`. -/
def tm1639SetCommand (status luminance : Byte) (pins : Pins) : Pins :=
  writeFrame device [displayCmd status luminance] pins

/-- `tm1639_key_scan`. -/
def tm1639KeyScan (pins : Pins) : BitVec 16 × Pins :=
  let opened := writeBytes device [tm1639CmdData ||| tm1639DataRd] (setStb device false pins)
  match tm1639ReadByte device (setDriving device false opened) with
  | (low, pins) =>
      match tm1639ReadByte device pins with
      | (high, pins) => (high ++ low, setDriving device true (setStb device true pins))

/-- The loop of `tm1639_init` over the first cells. -/
def clearCells : Nat → Pins → Pins
  | 0, pins => pins
  | count + 1, pins => tm1639WriteBuff device (BitVec.ofNat 8 count) [0] (clearCells count pins)

/-- `tm1639_init`. -/
def tm1639Init (pins : Pins) : Pins :=
  tm1639SetCommand device 1 0 (clearCells device 12
    (setDio device true (setStb device true (clkHigh device (setDriving device true pins)))))

/-- What the chip drives in the eight clocks behind one. -/
def drivenByte (clocks : Nat) : Byte :=
  octetOf ((List.range 8).map fun round => device (clocks + round + 1))

/-- The keys that the chip drives in a scan that starts at a clock: behind the command, the low
byte first. -/
def drivenKeys (clocks : Nat) : BitVec 16 :=
  drivenByte device (clocks + 16) ++ drivenByte device (clocks + 8)

end

/-- The chip: its cells, the data mode and the display. -/
structure Chip where
  cells : Mem
  reading : Bool
  fixed : Bool
  shown : Bool
  luminance : Byte

/-- Octets are stored from an address on. -/
def store (fixed : Bool) : List Byte → Nat → Mem → Mem
  | [], _, cells => cells
  | byte :: rest, address, cells =>
      store fixed rest (if fixed then address else (address + 1) % 16)
        (Function.update cells address byte)

/-- The chip takes a frame. -/
def Chip.take (chip : Chip) : List Byte → Chip
  | [] => chip
  | command :: data =>
      if command &&& 0xC0 = tm1639CmdData then
        { chip with reading := command.getLsbD 1, fixed := command.getLsbD 2 }
      else if command &&& 0xC0 = tm1639CmdDisplay then
        { chip with shown := command.getLsbD 3, luminance := command &&& 0x07 }
      else if command &&& 0xC0 = tm1639CmdAddr ∧ chip.reading = false then
        { chip with cells := store chip.fixed data (command &&& 0x0F).toNat chip.cells }
      else chip

/-- The chip behind the wires. -/
def Pins.chip (pins : Pins) (chip : Chip) : Chip := pins.reader.frames.foldl Chip.take chip

/-- The panel as its callers see it. -/
structure Panel where
  cells : Mem
  shown : Bool
  luminance : Nat

/-- A call of the driver. -/
inductive Call where
  | writeBuff (addr : Byte) (buff : List Byte)
  | setCommand (status luminance : Byte)
  | keyScan

/-- What a call means. -/
def Panel.call (panel : Panel) : Call → Panel
  | .writeBuff addr buff =>
      if addr.toNat + buff.length > 0x0F then panel
      else { panel with cells := overlay panel.cells (ofList buff) addr.toNat buff.length }
  | .setCommand status luminance =>
      { panel with shown := status != 0, luminance := min luminance.toNat 7 }
  | .keyScan => panel

section

variable (device : Nat → Bool)

/-- A call on the wires. -/
def call (pins : Pins) : Call → Pins
  | .writeBuff addr buff => tm1639WriteBuff device addr buff pins
  | .setCommand status luminance => tm1639SetCommand device status luminance pins
  | .keyScan => (tm1639KeyScan device pins).2

end

/-- What `dis_write_nixie_tube` finds in its buffer: a cell without a value holds whatever it
held. -/
def tubeBytes (noise : Nat → Byte) (cells : Option (List (Option Byte))) : List Byte :=
  (List.range 8).map fun place => ((cells.getD []).getD place none).getD (noise place)

/-- `dis_write_laser_led`: what it writes, by whether the ambient temperature is stable and by
the variable that it does not set before it reads it. -/
def disWriteLaserLed (stable states : Bool) : Byte := if stable || !states then 0xFF else 0

/-- A task of the panel: `ui_task` with what it shows, or `key_task`. -/
inductive Task where
  | ui (flags : ErrorFlag → Bool) (targetTemp : ℚ) (unit : TempUnit) (noise : Nat → Byte)
      (stable states : Bool)
  | key

section

variable (device : Nat → Bool)

/-- The two calls of `ui_task`. -/
def uiTask (tubes : List Byte) (lamp : Byte) (pins : Pins) : Pins :=
  tm1639WriteBuff device 0xC [lamp] (tm1639WriteBuff device 0 tubes pins)

/-- The attempts of `key_task` that are left, until one does not fail. -/
def keyScans : Nat → Pins → Option (BitVec 16) × Pins
  | 0, pins => (none, pins)
  | left + 1, pins =>
      match tm1639KeyScan device pins with
      | (status, pins) => if status ≠ 0xFFFF then (some status, pins) else keyScans left pins

/-- A task on the wires. -/
def task (pins : Pins) : Task → Pins
  | .ui flags targetTemp unit noise stable states =>
      uiTask device (tubeBytes noise (disLedTubeProcess flags targetTemp unit))
        (disWriteLaserLed stable states) pins
  | .key => (keyScans device 4 pins).2

end

/-- What a task means. -/
def Panel.task (panel : Panel) : Task → Panel
  | .ui flags targetTemp unit noise stable states =>
      (panel.call (.writeBuff 0 (tubeBytes noise (disLedTubeProcess flags targetTemp unit)))).call
        (.writeBuff 0xC [disWriteLaserLed stable states])
  | .key => panel

/-- The codes on the tubes, each in two cells. -/
def tubes (cells : Mem) : List Byte :=
  (List.range 4).map fun tube => cells (2 * tube) ||| cells (2 * tube + 1) <<< 4

/-- The pins between two calls. -/
structure Idle (pins : Pins) : Prop where
  closed : pins.stb = true
  clock : pins.clk = true
  driving : pins.driving = true

/-- The chip is as the panel. -/
structure Shows (chip : Chip) (panel : Panel) : Prop where
  cells : chip.cells = panel.cells
  shown : chip.shown = panel.shown
  luminance : chip.luminance.toNat = panel.luminance

/-- The panel after `tm1639_init`, with what the other cells held. -/
def Panel.cleared (rest : Mem) : Panel := ⟨overlay rest (fun _ => 0) 0 12, true, 0⟩

variable {device : Nat → Bool}

/-- A round of `tm1639_write_byte` in an open frame is heard as a bit. -/
theorem write_round_open (bit : Bool) {pins : Pins} (open' : pins.stb = false)
    (clock : pins.clk = true) (drives : pins.driving = true) :
    clkHigh device (setDio device bit (clkLow pins)) =
      ⟨false, true, bit, true, pins.clocks + 1, pins.reader.read (.bit bit)⟩ := by
  cases pins
  simp only at open' clock drives
  subst open' clock drives
  simp [clkHigh, setDio, clkLow, heard, Pins.lines, Pins.dio]

/-- The rounds of `tm1639_write_byte` are heard as the low bits of the byte. -/
theorem write_rounds_open (left : Nat) (byte : Byte) {pins : Pins} (open' : pins.stb = false)
    (clock : pins.clk = true) (drives : pins.driving = true) :
    ∃ out, writeRounds device left byte pins =
      ⟨false, true, out, true, pins.clocks + left,
        pins.reader.readBits (lowBits byte left)⟩ := by
  induction left generalizing byte pins with
  | zero =>
    refine ⟨pins.out, ?_⟩
    cases pins
    simp only at open' clock drives
    subst open' clock drives
    rfl
  | succ left inductionHypothesis =>
    have first := @write_round_open device (byte.getLsbD 0) pins open' clock drives
    obtain ⟨out, rest⟩ := @inductionHypothesis (byte >>> 1)
      ⟨false, true, byte.getLsbD 0, true, pins.clocks + 1,
        pins.reader.read (.bit (byte.getLsbD 0))⟩ rfl rfl rfl
    refine ⟨out, ?_⟩
    rw [writeRounds, first, rest]
    simp only [Nat.add_assoc, Nat.add_comm 1 left]
    rfl

/-- A byte that is written at the start of an octet is heard as that octet. -/
theorem write_byte_open (byte : Byte) {pins : Pins} (open' : pins.stb = false)
    (clock : pins.clk = true) (drives : pins.driving = true)
    (empty : pins.reader.pending = []) :
    ∃ out, tm1639WriteByte device byte pins =
      ⟨false, true, out, true, pins.clocks + 8,
        ⟨pins.reader.frames, pins.reader.octets ++ [byte], []⟩⟩ := by
  obtain ⟨out, rounds⟩ := @write_rounds_open device 8 byte pins open' clock drives
  refine ⟨out, ?_⟩
  have octet := @read_bits_octet _ (low_bits_length byte 8) pins.reader empty
  rw [octet_of_bits byte] at octet
  rw [tm1639WriteByte, rounds, octet]

/-- Bytes that are written are heard as they are. -/
theorem write_bytes_open (bytes : List Byte) {pins : Pins} (open' : pins.stb = false)
    (clock : pins.clk = true) (drives : pins.driving = true)
    (empty : pins.reader.pending = []) :
    ∃ out, writeBytes device bytes pins =
      ⟨false, true, out, true, pins.clocks + 8 * bytes.length,
        ⟨pins.reader.frames, pins.reader.octets ++ bytes, []⟩⟩ := by
  induction bytes generalizing pins with
  | nil =>
    refine ⟨pins.out, ?_⟩
    obtain ⟨stb, clk, out, driving, clocks, frames, octets, pending⟩ := pins
    simp only at open' clock drives empty
    subst open' clock drives empty
    simp [writeBytes]
  | cons byte rest inductionHypothesis =>
    obtain ⟨first, written⟩ := @write_byte_open device byte pins open' clock drives empty
    obtain ⟨out, others⟩ := @inductionHypothesis ⟨false, true, first, true, pins.clocks + 8,
      ⟨pins.reader.frames, pins.reader.octets ++ [byte], []⟩⟩ rfl rfl rfl rfl
    refine ⟨out, ?_⟩
    have clocks : pins.clocks + 8 + 8 * rest.length = pins.clocks + 8 * (rest.length + 1) := by
      omega
    rw [writeBytes, List.foldl_cons, written]
    rw [writeBytes] at others
    rw [others]
    simp only [clocks, List.length_cons, List.append_assoc, List.singleton_append]

/-- The select line opens a frame. -/
theorem stb_low_idle {pins : Pins} (idle : Idle pins) :
    setStb device false pins =
      ⟨false, true, pins.out, true, pins.clocks, ⟨pins.reader.frames, [], []⟩⟩ := by
  obtain ⟨closed, clock, driving⟩ := idle
  cases pins
  simp only at closed clock driving
  subst closed clock driving
  simp [setStb, heard, Pins.lines]

/-- A frame that is written is heard as its bytes. -/
theorem write_frame_idle (bytes : List Byte) {pins : Pins} (idle : Idle pins) :
    ∃ out, writeFrame device bytes pins =
      ⟨true, true, out, true, pins.clocks + 8 * bytes.length,
        ⟨pins.reader.frames ++ [bytes], [], []⟩⟩ := by
  obtain ⟨out, written⟩ := @write_bytes_open device bytes
    ⟨false, true, pins.out, true, pins.clocks, ⟨pins.reader.frames, [], []⟩⟩ rfl rfl rfl rfl
  refine ⟨out, ?_⟩
  rw [writeFrame, stb_low_idle idle, written]
  rfl

/-- The rounds of `tm1639_read_byte` take what the chip drives. -/
theorem read_rounds_open (left : Nat) (val : Byte) {pins : Pins} (open' : pins.stb = false)
    (clock : pins.clk = true) (released : pins.driving = false) :
    readRounds device left val pins =
      (((List.range left).map fun round => device (pins.clocks + round + 1)).foldl shiftDown val,
        ⟨false, true, pins.out, false, pins.clocks + left, pins.reader.readBits
          ((List.range left).map fun round => device (pins.clocks + round + 1))⟩) := by
  induction left generalizing val pins with
  | zero =>
    cases pins
    simp only at open' clock released
    subst open' clock released
    rfl
  | succ left inductionHypothesis =>
    have high : clkHigh device (clkLow pins) =
        ⟨false, true, pins.out, false, pins.clocks + 1,
          pins.reader.read (.bit (device (pins.clocks + 1)))⟩ := by
      cases pins
      simp only at open' clock released
      subst open' clock released
      simp [clkHigh, clkLow, heard, Pins.lines, Pins.dio]
    have shifted : (if device (pins.clocks + 1) then val >>> 1 ||| 0x80 else val >>> 1) =
        shiftDown val (device (pins.clocks + 1)) := by
      cases device (pins.clocks + 1)
      · exact (BitVec.or_zero).symm
      · rfl
    have rest := @inductionHypothesis (shiftDown val (device (pins.clocks + 1)))
      ⟨false, true, pins.out, false, pins.clocks + 1,
        pins.reader.read (.bit (device (pins.clocks + 1)))⟩ rfl rfl rfl
    have level : (Pins.mk false true pins.out false (pins.clocks + 1)
        (pins.reader.read (.bit (device (pins.clocks + 1))))).dio device =
          device (pins.clocks + 1) := rfl
    rw [readRounds, high]
    simp only [level, shifted, rest]
    simp [List.range_succ_eq_map, Function.comp_def, Reader.readBits, Nat.add_assoc,
      Nat.add_comm 1, Nat.add_left_comm]

/-- A byte that is read is what the chip drives, and is heard so. -/
theorem read_byte_open {pins : Pins} (open' : pins.stb = false) (clock : pins.clk = true)
    (released : pins.driving = false) (empty : pins.reader.pending = []) :
    tm1639ReadByte device pins = (drivenByte device pins.clocks,
      ⟨false, true, pins.out, false, pins.clocks + 8, ⟨pins.reader.frames,
        pins.reader.octets ++ [drivenByte device pins.clocks], []⟩⟩) := by
  rw [tm1639ReadByte, read_rounds_open 8 0 open' clock released, read_bits_octet (by simp) empty]
  rfl

/-- A scan reads the keys that the chip drives behind the command. -/
theorem key_scan_idle {pins : Pins} (idle : Idle pins) :
    ∃ out, tm1639KeyScan device pins = (drivenKeys device pins.clocks,
      ⟨true, true, out, true, pins.clocks + 24, ⟨pins.reader.frames ++
        [[tm1639CmdData ||| tm1639DataRd, drivenByte device (pins.clocks + 8),
          drivenByte device (pins.clocks + 16)]], [], []⟩⟩) := by
  obtain ⟨out, written⟩ := @write_bytes_open device [tm1639CmdData ||| tm1639DataRd]
    ⟨false, true, pins.out, true, pins.clocks, ⟨pins.reader.frames, [], []⟩⟩ rfl rfl rfl rfl
  refine ⟨out, ?_⟩
  have turned : setDriving device false (writeBytes device [tm1639CmdData ||| tm1639DataRd]
      (setStb device false pins)) =
      ⟨false, true, out, false, pins.clocks + 8,
        ⟨pins.reader.frames, [tm1639CmdData ||| tm1639DataRd], []⟩⟩ := by
    rw [stb_low_idle idle, written]
    simp [setDriving, heard, Pins.lines]
  rw [tm1639KeyScan, turned]
  simp only [read_byte_open]
  simp [setStb, setDriving, heard, Pins.lines, drivenKeys, Nat.add_assoc]

/-- Octets that stay below the last cell are stored one behind the other. -/
theorem store_overlay (data : List Byte) (address : Nat) (cells : Mem)
    (fits : address + data.length ≤ 15) :
    store false data address cells = overlay cells (ofList data) address data.length := by
  induction data generalizing address cells with
  | nil =>
    funext cell
    exact (overlay_outside cells (ofList []) address 0 cell (by omega)).symm
  | cons byte rest inductionHypothesis =>
    rw [List.length_cons] at fits
    have next : (if false = true then address else (address + 1) % 16) = address + 1 :=
      Nat.mod_eq_of_lt (by omega)
    rw [store, next, inductionHypothesis (address + 1) _ (by omega), overlay_cons, List.length_cons]

/-- The address command of a cell that the driver writes. -/
theorem address_command : ∀ addr : Byte, addr.toNat ≤ 15 →
    (tm1639CmdAddr ||| addr) &&& 0xC0 = tm1639CmdAddr ∧
      ((tm1639CmdAddr ||| addr) &&& 0x0F).toNat = addr.toNat := by
  decide

/-- The display command for each level that the chip knows. -/
theorem display_levels : ∀ level < 8, ∀ on ∈ [0, tm1639DispOn],
    (tm1639CmdDisplay ||| BitVec.ofNat 8 level ||| on) &&& 0xC0 = tm1639CmdDisplay ∧
      (tm1639CmdDisplay ||| BitVec.ofNat 8 level ||| on).getLsbD 3 = (on != 0) ∧
      ((tm1639CmdDisplay ||| BitVec.ofNat 8 level ||| on) &&& 0x07).toNat = level := by
  decide

/-- The display command by its bits. -/
theorem display_command (luminance : Byte) (on : Byte) (switch : on ∈ [0, tm1639DispOn]) :
    (tm1639CmdDisplay ||| (if luminance.toNat > 7 then 7 else luminance) ||| on) &&& 0xC0 =
        tm1639CmdDisplay ∧
      (tm1639CmdDisplay ||| (if luminance.toNat > 7 then 7 else luminance) ||| on).getLsbD 3 =
        (on != 0) ∧
      ((tm1639CmdDisplay ||| (if luminance.toNat > 7 then 7 else luminance) ||| on) &&&
        0x07).toNat = min luminance.toNat 7 := by
  have level : (if luminance.toNat > 7 then 7 else luminance) =
      BitVec.ofNat 8 (min luminance.toNat 7) := by
    split
    case isTrue above =>
      rw [Nat.min_eq_right (Nat.le_of_lt above)]
      rfl
    case isFalse below =>
      rw [Nat.min_eq_left (Nat.le_of_not_lt below), BitVec.ofNat_toNat, BitVec.setWidth_eq]
  rw [level]
  exact display_levels _ (Nat.lt_succ_of_le (Nat.min_le_right _ _)) on switch

/-- The chip takes a data command to write. -/
theorem take_data (chip : Chip) :
    chip.take [tm1639CmdData] = { chip with reading := false, fixed := false } := rfl

/-- The chip takes a data command to read, whatever it drives behind it. -/
theorem take_keys (chip : Chip) (driven : List Byte) :
    chip.take ((tm1639CmdData ||| tm1639DataRd) :: driven) =
      { chip with reading := true, fixed := false } := rfl

/-- The chip takes cells behind a data command. -/
theorem take_cells (chip : Chip) (addr : Byte) (buff : List Byte)
    (fits : addr.toNat + buff.length ≤ 15) :
    (chip.take [tm1639CmdData]).take ((tm1639CmdAddr ||| addr) :: buff) =
      { chip with
        cells := overlay chip.cells (ofList buff) addr.toNat buff.length
        reading := false
        fixed := false } := by
  obtain ⟨command, address⟩ := address_command addr (by omega)
  rw [take_data, Chip.take, command, address, if_neg (by decide), if_neg (by decide),
    if_pos ⟨rfl, rfl⟩, store_overlay buff addr.toNat chip.cells fits]

/-- The chip takes a display command. -/
theorem take_display (chip : Chip) (status luminance : Byte) :
    (chip.take [displayCmd status luminance]).cells = chip.cells ∧
      (chip.take [displayCmd status luminance]).shown = (status != 0) ∧
      (chip.take [displayCmd status luminance]).luminance.toNat = min luminance.toNat 7 := by
  have split : displayCmd status luminance = tm1639CmdDisplay |||
      (if luminance.toNat > 7 then 7 else luminance) |||
        (if status ≠ 0 then tm1639DispOn else 0) := by
    by_cases lit : status ≠ 0
    · simp only [displayCmd, if_pos lit]
    · simp only [displayCmd, if_neg lit]
      exact BitVec.or_zero.symm
  have on : (if status ≠ 0 then tm1639DispOn else 0) ∈ [0, tm1639DispOn] := by
    split <;> simp
  have lit : ((if status ≠ 0 then tm1639DispOn else 0) != 0) = (status != 0) := by
    by_cases lit : status ≠ 0
    · rw [if_pos lit]
      exact (bne_iff_ne.mpr lit).symm
    · rw [if_neg lit, not_not.mp lit]
  obtain ⟨command, shown, level⟩ := display_command luminance _ on
  rw [← split] at command shown level
  rw [Chip.take, command, if_neg (by decide), if_pos rfl]
  exact ⟨rfl, shown.trans lit, level⟩

/-- One more frame is taken by the chip as it is. -/
theorem chip_frame (chip : Chip) (stb clk out driving : Bool) (clocks : Nat)
    (frames : List (List Byte)) (octets : List Byte) (pending : List Bool) (frame : List Byte) :
    (Pins.mk stb clk out driving clocks ⟨frames ++ [frame], octets, pending⟩).chip chip =
      (frames.foldl Chip.take chip).take frame := by
  rw [Pins.chip, List.foldl_append]
  rfl

/-- Cells are written. -/
theorem write_buff_shows (addr : Byte) (buff : List Byte) {pins : Pins} {chip : Chip}
    {panel : Panel} (idle : Idle pins) (shows : Shows (pins.chip chip) panel) :
    Idle (tm1639WriteBuff device addr buff pins) ∧
      Shows ((tm1639WriteBuff device addr buff pins).chip chip)
        (panel.call (.writeBuff addr buff)) := by
  by_cases outside : addr.toNat + buff.length > 0x0F
  · rw [tm1639WriteBuff, if_pos outside, Panel.call, if_pos outside]
    exact ⟨idle, shows⟩
  · obtain ⟨first, command⟩ := @write_frame_idle device [tm1639CmdData] pins idle
    obtain ⟨out, cells⟩ := @write_frame_idle device ((tm1639CmdAddr ||| addr) :: buff)
      ⟨true, true, first, true, pins.clocks + 8 * [tm1639CmdData].length,
        ⟨pins.reader.frames ++ [[tm1639CmdData]], [], []⟩⟩ ⟨rfl, rfl, rfl⟩
    rw [tm1639WriteBuff, if_neg outside, command, cells, chip_frame, List.foldl_append,
      Panel.call, if_neg outside]
    refine ⟨⟨rfl, rfl, rfl⟩, ?_⟩
    have taken := take_cells (pins.chip chip) addr buff (by omega)
    have view : ([[tm1639CmdData]].foldl Chip.take (pins.reader.frames.foldl Chip.take chip)).take
        ((tm1639CmdAddr ||| addr) :: buff) =
        ((pins.chip chip).take [tm1639CmdData]).take ((tm1639CmdAddr ||| addr) :: buff) := rfl
    rw [view, taken, shows.cells]
    exact ⟨rfl, shows.shown, shows.luminance⟩

/-- The display is set. -/
theorem set_command_shows (status luminance : Byte) {pins : Pins} {chip : Chip} {panel : Panel}
    (idle : Idle pins) (shows : Shows (pins.chip chip) panel) :
    Idle (tm1639SetCommand device status luminance pins) ∧
      Shows ((tm1639SetCommand device status luminance pins).chip chip)
        (panel.call (.setCommand status luminance)) := by
  obtain ⟨out, command⟩ := @write_frame_idle device [displayCmd status luminance] pins idle
  obtain ⟨cells, shown, level⟩ := take_display (pins.chip chip) status luminance
  rw [tm1639SetCommand, command, chip_frame]
  exact ⟨⟨rfl, rfl, rfl⟩, cells.trans shows.cells, shown, level⟩

/-- A scan of the keys changes nothing of what is shown. -/
theorem key_scan_shows {pins : Pins} {chip : Chip} {panel : Panel} (idle : Idle pins)
    (shows : Shows (pins.chip chip) panel) :
    Idle (tm1639KeyScan device pins).2 ∧
      Shows ((tm1639KeyScan device pins).2.chip chip) panel := by
  obtain ⟨out, scanned⟩ := @key_scan_idle device pins idle
  rw [scanned, chip_frame, take_keys]
  exact ⟨⟨rfl, rfl, rfl⟩, shows.cells, shows.shown, shows.luminance⟩

/-- A call keeps the pins idle and the chip as the panel. -/
theorem call_shows (command : Call) {pins : Pins} {chip : Chip} {panel : Panel} (idle : Idle pins)
    (shows : Shows (pins.chip chip) panel) :
    Idle (call device pins command) ∧
      Shows ((call device pins command).chip chip) (panel.call command) := by
  cases command with
  | writeBuff addr buff => exact write_buff_shows addr buff idle shows
  | setCommand status luminance => exact set_command_shows status luminance idle shows
  | keyScan => exact key_scan_shows idle shows

/-- The first moves of `tm1639_init` leave the pins idle, and the chip as it was unless a frame
was open. -/
theorem settled_idle (pins : Pins) :
    Idle (setDio device true (setStb device true (clkHigh device
        (setDriving device true pins)))) ∧
      (pins.stb = true → (setDio device true (setStb device true (clkHigh device
        (setDriving device true pins)))).reader = pins.reader) := by
  refine ⟨⟨rfl, rfl, rfl⟩, ?_⟩
  intro closed
  cases pins
  simp only at closed
  subst closed
  simp [setDio, setStb, clkHigh, setDriving, heard, Pins.lines]

/-- The loop of `tm1639_init` clears the first cells. -/
theorem clear_cells_shows (count : Nat) (fits : count ≤ 15) {pins : Pins} {chip : Chip}
    {panel : Panel} (idle : Idle pins) (shows : Shows (pins.chip chip) panel) :
    Idle (clearCells device count pins) ∧
      Shows ((clearCells device count pins).chip chip)
        { panel with cells := overlay panel.cells (fun _ => 0) 0 count } := by
  induction count with
  | zero =>
    have same : overlay panel.cells (fun _ => 0) 0 0 = panel.cells := by
      funext cell
      exact overlay_outside panel.cells (fun _ => 0) 0 0 cell (by omega)
    rw [same]
    exact ⟨idle, shows⟩
  | succ count inductionHypothesis =>
    obtain ⟨cleared, kept⟩ := inductionHypothesis (by omega)
    have place : (BitVec.ofNat 8 count).toNat = count := by
      rw [BitVec.toNat_ofNat]
      exact Nat.mod_eq_of_lt (by omega)
    have more := @write_buff_shows device (BitVec.ofNat 8 count) [0] _ _ _ cleared kept
    rw [Panel.call, place, if_neg (by simp only [List.length_singleton]; omega)] at more
    have joined : overlay (overlay panel.cells (fun _ => 0) 0 count) (ofList [0]) count
        [(0 : Byte)].length = overlay panel.cells (fun _ => 0) 0 (count + 1) := by
      funext cell
      by_cases here : cell = count
      · subst here
        rw [overlay_inside _ _ _ _ _ (by omega) (by simp), Nat.sub_self,
          overlay_inside _ _ _ _ _ (by omega) (by omega)]
        rfl
      · rw [overlay_outside _ _ _ _ _ (by simp only [List.length_singleton]; omega)]
        by_cases inside : cell < count
        · rw [overlay_inside _ _ _ _ _ (by omega) (by omega),
            overlay_inside _ _ _ _ _ (by omega) (by omega)]
        · rw [overlay_outside _ _ _ _ _ (by omega), overlay_outside _ _ _ _ _ (by omega)]
    rw [← joined]
    exact more

/-- After `tm1639_init` the chip shows a cleared panel at the lowest brightness. -/
theorem init_shows (pins : Pins) (chip : Chip) :
    ∃ rest : Mem, (pins.stb = true → rest = (pins.chip chip).cells) ∧
      Idle (tm1639Init device pins) ∧
      Shows ((tm1639Init device pins).chip chip) (Panel.cleared rest) := by
  obtain ⟨idle, quiet⟩ := @settled_idle device pins
  obtain ⟨cleared, cells⟩ := @clear_cells_shows device 12 (by decide) _ chip
    ⟨((setDio device true (setStb device true (clkHigh device
      (setDriving device true pins)))).chip chip).cells, _, _⟩ idle ⟨rfl, rfl, rfl⟩
  refine ⟨_, ?_, set_command_shows 1 0 cleared cells⟩
  intro closed
  rw [Pins.chip, quiet closed]
  rfl

/-- A run of calls keeps the pins idle and the chip as the panel. -/
theorem calls_show (calls : List Call) {pins : Pins} {chip : Chip} {panel : Panel}
    (idle : Idle pins) (shows : Shows (pins.chip chip) panel) :
    Idle (run (call device) pins calls) ∧
      Shows ((run (call device) pins calls).chip chip) (run Panel.call panel calls) := by
  apply @along_simulation _ _ (call device) _ Panel.call (fun _ _ => True)
    (fun pins panel => Idle pins ∧ Shows (pins.chip chip) panel) _ pins panel ⟨idle, shows⟩ calls
    ((along_events (call device) pins calls).mpr fun _ _ => True.intro)
  exact fun _ _ command joined _ => call_shows command joined.1 joined.2

/-- A call leaves the last cell. -/
theorem call_last (panel : Panel) (command : Call) :
    (panel.call command).cells 15 = panel.cells 15 := by
  cases command with
  | writeBuff addr buff =>
    rw [Panel.call]
    split
    case isTrue => rfl
    case isFalse inside => exact overlay_outside _ _ _ _ 15 (Or.inr (by omega))
  | setCommand status luminance => rfl
  | keyScan => rfl

/-- Whatever the pins and the chip held, after `tm1639_init` and every run of calls the chip shows
what the calls mean: a write from a cell on that reaches the last one is dropped as a whole, a
scan reads what the chip drives and changes nothing, and the last cell is never written. -/
theorem chip_follows_calls (device : Nat → Bool) (pins : Pins) (chip : Chip) (calls : List Call) :
    ∃ rest : Mem, (pins.stb = true → rest = (pins.chip chip).cells) ∧
      Shows ((run (call device) (tm1639Init device pins) calls).chip chip)
        (run Panel.call (Panel.cleared rest) calls) ∧
      ((run (call device) (tm1639Init device pins) calls).chip chip).cells 15 = rest 15 ∧
      (tm1639KeyScan device (run (call device) (tm1639Init device pins) calls)).1 =
        drivenKeys device (run (call device) (tm1639Init device pins) calls).clocks := by
  obtain ⟨rest, kept, idle, shows⟩ := @init_shows device pins chip
  obtain ⟨idleAfter, showsAfter⟩ := @calls_show device calls _ chip _ idle shows
  have last : (run Panel.call (Panel.cleared rest) calls).cells 15 = rest 15 :=
    @run_invariant _ _ Panel.call (fun panel => panel.cells 15 = rest 15)
      (fun panel command same => (call_last panel command).trans same) (Panel.cleared rest)
      (overlay_outside rest (fun _ => 0) 0 12 15 (by decide)) calls
  obtain ⟨out, scanned⟩ := @key_scan_idle device _ idleAfter
  refine ⟨rest, kept, showsAfter, ?_, ?_⟩
  · rw [showsAfter.cells, last]
  · rw [scanned]

/-- The attempts of `key_task` read what the chip drives, and change nothing that is shown. -/
theorem key_scans_show (left : Nat) {pins : Pins} {chip : Chip} {panel : Panel}
    (idle : Idle pins) (shows : Shows (pins.chip chip) panel) :
    (keyScans device left pins).1 =
        ((List.range left).map fun attempt => drivenKeys device (pins.clocks + 24 * attempt)).find?
          (fun status => status != 0xFFFF) ∧
      Idle (keyScans device left pins).2 ∧
      Shows ((keyScans device left pins).2.chip chip) panel := by
  induction left generalizing pins with
  | zero => exact ⟨rfl, idle, shows⟩
  | succ left inductionHypothesis =>
    obtain ⟨idleAfter, showsAfter⟩ := @key_scan_shows device pins chip panel idle shows
    obtain ⟨out, scanned⟩ := @key_scan_idle device pins idle
    have clocks : (tm1639KeyScan device pins).2.clocks = pins.clocks + 24 := by rw [scanned]
    have answer : (tm1639KeyScan device pins).1 = drivenKeys device pins.clocks := by rw [scanned]
    obtain ⟨later, idleLater, showsLater⟩ := inductionHypothesis idleAfter showsAfter
    have attempts : (List.range (left + 1)).map
        (fun attempt => drivenKeys device (pins.clocks + 24 * attempt)) =
        drivenKeys device pins.clocks :: (List.range left).map
          fun attempt => drivenKeys device (pins.clocks + 24 + 24 * attempt) := by
      rw [List.range_succ_eq_map, List.map_cons, List.map_map]
      refine congrArg (_ :: ·) (List.map_congr_left fun attempt _ => ?_)
      exact congrArg (drivenKeys device) (by simp only [Nat.succ_eq_add_one]; omega)
    have unfolded : keyScans device (left + 1) pins =
        if (tm1639KeyScan device pins).1 ≠ 0xFFFF then
          (some (tm1639KeyScan device pins).1, (tm1639KeyScan device pins).2)
        else keyScans device left (tm1639KeyScan device pins).2 := rfl
    rw [clocks] at later
    rw [unfolded, answer, attempts]
    by_cases failed : drivenKeys device pins.clocks = 0xFFFF
    · rw [if_neg (not_not.mpr failed),
        List.find?_cons_of_neg (p := fun status => status != 0xFFFF) (by rw [failed]; decide)]
      exact ⟨later, idleLater, showsLater⟩
    · rw [if_pos failed,
        List.find?_cons_of_pos (p := fun status => status != 0xFFFF) (bne_iff_ne.mpr failed)]
      exact ⟨rfl, idleAfter, showsAfter⟩

/-- A task keeps the pins idle and the chip as the panel. -/
theorem task_shows (work : Task) {pins : Pins} {chip : Chip} {panel : Panel} (idle : Idle pins)
    (shows : Shows (pins.chip chip) panel) :
    Idle (task device pins work) ∧
      Shows ((task device pins work).chip chip) (panel.task work) := by
  cases work with
  | ui flags targetTemp unit noise stable states =>
    obtain ⟨idleTubes, showsTubes⟩ := @write_buff_shows device 0
      (tubeBytes noise (disLedTubeProcess flags targetTemp unit)) pins chip panel idle shows
    exact write_buff_shows 0xC [disWriteLaserLed stable states] idleTubes showsTubes
  | key => exact (key_scans_show 4 idle shows).2

/-- A run of tasks keeps the pins idle and the chip as the panel. -/
theorem tasks_show (tasks : List Task) {pins : Pins} {chip : Chip} {panel : Panel}
    (idle : Idle pins) (shows : Shows (pins.chip chip) panel) :
    Idle (run (task device) pins tasks) ∧
      Shows ((run (task device) pins tasks).chip chip) (run Panel.task panel tasks) := by
  apply @along_simulation _ _ (task device) _ Panel.task (fun _ _ => True)
    (fun pins panel => Idle pins ∧ Shows (pins.chip chip) panel) _ pins panel ⟨idle, shows⟩ tasks
    ((along_events (task device) pins tasks).mpr fun _ _ => True.intro)
  exact fun _ _ work joined _ => task_shows work joined.1 joined.2

/-- Two halves for each cell. -/
theorem nixie_tube_length (buf : List (Option Byte)) :
    (disWriteNixieTube buf).length = 2 * buf.length := by
  induction buf with
  | nil => rfl
  | cons cell rest inductionHypothesis =>
    rw [disWriteNixieTube] at inductionHypothesis
    rw [disWriteNixieTube, List.flatMap_cons, List.length_append, inductionHypothesis,
      List.length_cons]
    simp only [List.length_cons, List.length_nil]
    omega

/-- `dis_led_tube_process` writes the halves of four cells. -/
theorem led_tube_length {flags : ErrorFlag → Bool} {targetTemp : ℚ} {unit : TempUnit}
    {codes : List (Option Byte)}
    (written : disLedTubeProcess flags targetTemp unit = some (disWriteNixieTube codes)) :
    codes.length = 4 := by
  have rows : ∀ index < 7, (errText.getD index []).length = 4 := by decide
  have halves (buf : List (Option Byte)) (four : buf.length = 4)
      (same : some (disWriteNixieTube buf) = some (disWriteNixieTube codes)) :
      codes.length = 4 := by
    have lengths := congrArg List.length (Option.some.inj same)
    rw [nixie_tube_length, nixie_tube_length] at lengths
    omega
  rw [disLedTubeProcess] at written
  split at written
  case isTrue found =>
    refine halves _ ?_ written
    rw [List.length_map]
    exact rows _ (by rw [errorAllCnt] at found; omega)
  case isFalse =>
    obtain ⟨temp, -, same⟩ := Option.map_eq_some_iff.mp written
    refine halves _ ?_ (congrArg some same)
    split
    · rw [negativeCells]
      split_ifs <;> rfl
    · rfl

/-- A code is read out of its halves. -/
theorem code_of_halves : ∀ code : Byte,
    (code &&& (0x0F : Byte)) ||| (code >>> 4 &&& (0x0F : Byte)) <<< 4 = code := by
  decide

/-- What a tube reads of its code; without one it reads what the two places of the buffer held. -/
def tubeCode (noise : Nat → Byte) (tube : Nat) (code : Option Byte) : Byte :=
  code.getD (noise (2 * tube) ||| noise (2 * tube + 1) <<< 4)

/-- A tube reads its code out of the two halves. -/
theorem tube_code_halves (noise : Nat → Byte) (tube : Nat) (code : Option Byte) :
    (code.map (· &&& 0x0F)).getD (noise (2 * tube)) |||
        (code.map fun byte : Byte => byte >>> 4 &&& 0x0F).getD (noise (2 * tube + 1)) <<< 4 =
      tubeCode noise tube code := by
  cases code with
  | none => rfl
  | some code => exact code_of_halves code

/-- The tubes read as the codes whose halves are in the cells. -/
theorem tubes_read (noise : Nat → Byte) (cells : Mem) {codes : List (Option Byte)}
    (four : codes.length = 4) :
    tubes (overlay cells (ofList (tubeBytes noise (some (disWriteNixieTube codes)))) 0 8) =
      codes.mapIdx (tubeCode noise) := by
  obtain ⟨first, second, third, fourth, rfl⟩ : ∃ first second third fourth,
      codes = [first, second, third, fourth] := by
    match codes, four with
    | [first, second, third, fourth], _ => exact ⟨first, second, third, fourth, rfl⟩
  have halves : ∀ place < 8, overlay cells (ofList (tubeBytes noise
      (some (disWriteNixieTube [first, second, third, fourth])))) 0 8 place =
      ((disWriteNixieTube [first, second, third, fourth]).getD place none).getD
        (noise place) := by
    intro place below
    rw [overlay_inside _ _ _ _ _ (Nat.zero_le place) (by omega), Nat.sub_zero]
    simp [ofList, tubeBytes, below]
  generalize overlay cells (ofList (tubeBytes noise
    (some (disWriteNixieTube [first, second, third, fourth])))) 0 8 = held at halves ⊢
  have shown : tubes held = [held 0 ||| held 1 <<< 4, held 2 ||| held 3 <<< 4,
      held 4 ||| held 5 <<< 4, held 6 ||| held 7 <<< 4] := rfl
  rw [shown, halves 0 (by decide), halves 1 (by decide), halves 2 (by decide),
    halves 3 (by decide), halves 4 (by decide), halves 5 (by decide), halves 6 (by decide),
    halves 7 (by decide)]
  have codes : [first, second, third, fourth].mapIdx (tubeCode noise) =
      [tubeCode noise 0 first, tubeCode noise 1 second, tubeCode noise 2 third,
        tubeCode noise 3 fourth] := rfl
  rw [codes, ← tube_code_halves noise 0, ← tube_code_halves noise 1, ← tube_code_halves noise 2,
    ← tube_code_halves noise 3]
  rfl

/-- A panel that has been shown something keeps it through the scans. -/
theorem keys_keep (panel : Panel) (count : Nat) :
    run Panel.task panel (List.replicate count .key) = panel := by
  induction count with
  | zero => rfl
  | succ count inductionHypothesis => exact inductionHypothesis

/-- What `ui_task` leaves in the cells. -/
theorem ui_cells (panel : Panel) (flags : ErrorFlag → Bool) (targetTemp : ℚ) (unit : TempUnit)
    (noise : Nat → Byte) (stable states : Bool) :
    (panel.task (.ui flags targetTemp unit noise stable states)).cells =
      overlay (overlay panel.cells
        (ofList (tubeBytes noise (disLedTubeProcess flags targetTemp unit))) 0 8)
        (ofList [disWriteLaserLed stable states]) 12 1 := by
  have eight : (tubeBytes noise (disLedTubeProcess flags targetTemp unit)).length = 8 := by
    rw [tubeBytes, List.length_map, List.length_range]
  have one : [disWriteLaserLed stable states].length = 1 := rfl
  rw [Panel.task, Panel.call, Panel.call, eight, one, if_neg (by decide), if_neg (by decide)]
  rfl

/-- The tubes read the first eight cells. -/
theorem tubes_congr {left right : Mem} (agreed : Agree left right 0 8) :
    tubes left = tubes right := by
  refine List.map_congr_left fun tube member => ?_
  have below := List.mem_range.mp member
  rw [agreed (2 * tube) (by omega) (by omega), agreed (2 * tube + 1) (by omega) (by omega)]

/-- No task touches the display. -/
theorem task_display (panel : Panel) (work : Task) :
    (panel.task work).shown = panel.shown ∧ (panel.task work).luminance = panel.luminance := by
  have written (addr : Byte) (buff : List Byte) (panel : Panel) :
      (panel.call (.writeBuff addr buff)).shown = panel.shown ∧
        (panel.call (.writeBuff addr buff)).luminance = panel.luminance := by
    rw [Panel.call]
    split <;> exact ⟨rfl, rfl⟩
  cases work with
  | ui flags targetTemp unit noise stable states =>
    have lamp := written 0xC [disWriteLaserLed stable states] (panel.call
      (.writeBuff 0 (tubeBytes noise (disLedTubeProcess flags targetTemp unit))))
    have cells := written 0 (tubeBytes noise (disLedTubeProcess flags targetTemp unit)) panel
    exact ⟨lamp.1.trans cells.1, lamp.2.trans cells.2⟩
  | key => exact ⟨rfl, rfl⟩

/-- Whatever the tasks of the panel did before, the codes that `dis_led_tube_process` wrote last
stand on the tubes, and the lamp as it was written last, through every scan of the keys that
follows; each scan reports the first answer of the chip that is not a failure. The tube that is
given no code, the last one of a negative temperature, shows what the buffer held. -/
theorem panel_shows_last (device : Nat → Bool) (pins : Pins) (chip : Chip) (before : List Task)
    (flags : ErrorFlag → Bool) (targetTemp : ℚ) (unit : TempUnit) (noise : Nat → Byte)
    (stable states : Bool) (scans : Nat) (codes : List (Option Byte))
    (written : disLedTubeProcess flags targetTemp unit = some (disWriteNixieTube codes))
    (wires : Pins)
    (reached : wires = run (task device) (tm1639Init device pins)
      (before ++ .ui flags targetTemp unit noise stable states :: List.replicate scans .key)) :
    tubes (wires.chip chip).cells = codes.mapIdx (tubeCode noise) ∧
      (wires.chip chip).cells 12 = disWriteLaserLed stable states ∧
      (wires.chip chip).shown = true ∧ (wires.chip chip).luminance = 0 ∧
      (keyScans device 4 wires).1 =
        KeyEvents.keyStatus fun attempt => drivenKeys device (wires.clocks + 24 * attempt) := by
  subst reached
  obtain ⟨rest, -, idle, shows⟩ := @init_shows device pins chip
  have display : (run Panel.task (Panel.cleared rest) before).shown = true ∧
      (run Panel.task (Panel.cleared rest) before).luminance = 0 :=
    @run_invariant _ _ Panel.task (fun panel => panel.shown = true ∧ panel.luminance = 0)
      (fun panel work kept => ⟨(task_display panel work).1.trans kept.1,
        (task_display panel work).2.trans kept.2⟩) (Panel.cleared rest) ⟨rfl, rfl⟩ before
  obtain ⟨idleAfter, showsAfter⟩ := @tasks_show device
    (before ++ .ui flags targetTemp unit noise stable states :: List.replicate scans .key)
    _ chip _ idle shows
  obtain ⟨answers, -, -⟩ := @key_scans_show device 4 _ chip _ idleAfter showsAfter
  have last : run Panel.task (Panel.cleared rest)
      (before ++ .ui flags targetTemp unit noise stable states :: List.replicate scans .key) =
      (run Panel.task (Panel.cleared rest) before).task
        (.ui flags targetTemp unit noise stable states) := by
    rw [run, List.foldl_append]
    exact keys_keep _ scans
  rw [last] at showsAfter
  generalize run Panel.task (Panel.cleared rest) before = panel at display showsAfter
  obtain ⟨cells, shown, luminance⟩ := showsAfter
  obtain ⟨keptShown, keptLuminance⟩ :=
    task_display panel (.ui flags targetTemp unit noise stable states)
  rw [ui_cells, written] at cells
  refine ⟨?_, ?_, ?_, ?_, answers⟩
  · rw [cells, tubes_congr (overlay_frame _ _ 12 1 0 8 (Or.inl (by decide)))]
    exact tubes_read noise panel.cells (led_tube_length written)
  · rw [cells, overlay_inside _ _ 12 1 12 (by decide) (by decide)]
    rfl
  · rw [shown, keptShown, display.1]
  · apply BitVec.eq_of_toNat_eq
    rw [luminance, keptLuminance, display.2]
    rfl

/-- Five degrees below zero are a minus sign on the third tube, and on the fourth what the buffer
held, through two scans. -/
theorem panel_shows_last_negative :
    tubes ((run (task fun _ => false) (tm1639Init (fun _ => false)
        ⟨false, false, false, false, 0, ⟨[], [], []⟩⟩)
        ([.key] ++ .ui (fun _ => false) (-5) .C (fun _ => 0x0F) true false ::
          List.replicate 2 .key)).chip ⟨fun _ => 0xFF, true, true, false, 3⟩).cells =
      [blank, blank, minus, 0xFF] := by
  have tenfold : toInt16 (convertUint (-5) tempUnitInternal .C * 10) = some (-50) := by
    have same : convertUint (-5) tempUnitInternal .C * 10 = ((-50 : Int) : ℚ) := by
      have plain : convertUint (-5) tempUnitInternal .C = -5 := rfl
      rw [plain]
      norm_num
    rw [same, toInt16, cut_intCast, if_pos (by decide)]
  have written : disLedTubeProcess (fun _ => false) (-5) .C =
      some (disWriteNixieTube [some blank, some blank, some minus, none]) := by
    rw [led_tube_quiet fun _ => rfl, tenfold]
    decide
  exact (panel_shows_last (fun _ => false) ⟨false, false, false, false, 0, ⟨[], [], []⟩⟩
    ⟨fun _ => 0xFF, true, true, false, 3⟩ [.key] (fun _ => false) (-5) .C (fun _ => 0x0F) true
    false 2 [some blank, some blank, some minus, none] written _ rfl).1

end Pyrometer.PanelChip
