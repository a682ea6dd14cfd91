import Pyrometer.EepromStorage
import Pyrometer.I2cWires

/-!
# The EEPROM of `eeprom.c` on its two wires

The storage model takes the chip for an array of cells that are written page by page. Here the
calls of `eeprom.c` move the pins of the bus, and the chip is what the listener's items do to it:
an address octet selects it, two octets set its pointer, octets behind them are kept and written
into one page at the stop, and a read sends the cells from the pointer on. A device is faithful
to the chip along a conversation when it acknowledges the octets meant for it, sends the bits of
its cells when it is read, and leaves the line alone otherwise.

The write cycle is over within the delay of the driver, and the pin that protects the chip is
left out.
-/

namespace Pyrometer.EepromWires

open ByteMemory TwoWireBus I2cWires
open EepromStorage (at24cPageSize pageChunk page_chunk_pos page_chunk_le storePage)

/-- Where the chip stands in a transfer. -/
inductive Phase where
  | idle
  | selected
  | high
  | low (high : Byte)
  | data (bytes : List Byte)
  | reading
  | other
deriving DecidableEq

/-- The chip. -/
structure Chip where
  cells : Mem
  pointer : Nat
  phase : Phase

/-- Bytes go round in the page that they are written to. -/
def programPage (pageStart : Nat) : Nat → List Byte → Mem → Mem
  | _, [], cells => cells
  | place, byte :: rest, cells =>
      programPage pageStart ((place + 1) % at24cPageSize) rest
        (Function.update cells (pageStart + place) byte)

/-- The chip at a stop: kept bytes are written. -/
def Chip.stop (chip : Chip) : Chip :=
  match chip.phase with
  | .data bytes =>
      ⟨programPage (chip.pointer / at24cPageSize * at24cPageSize) (chip.pointer % at24cPageSize)
        bytes chip.cells, chip.pointer, .idle⟩
  | _ => ⟨chip.cells, chip.pointer, .idle⟩

/-- The chip at an octet. Its address bit 16 stands in the octet that selects it, and is zero. -/
def Chip.octet (devAddr : Nat) (byte : Byte) (chip : Chip) : Chip :=
  match chip.phase with
  | .selected =>
      if byte = selectByte devAddr 0 then ⟨chip.cells, chip.pointer, .high⟩
      else if byte = selectByte devAddr 1 then ⟨chip.cells, chip.pointer, .reading⟩
      else ⟨chip.cells, chip.pointer, .other⟩
  | .high => ⟨chip.cells, chip.pointer, .low byte⟩
  | .low high => ⟨chip.cells, high.toNat * 256 + byte.toNat, .data []⟩
  | .data bytes => ⟨chip.cells, chip.pointer, .data (bytes ++ [byte])⟩
  | .reading => ⟨chip.cells, (chip.pointer + 1) % 2 ^ 17, .reading⟩
  | .idle => chip
  | .other => chip

/-- The chip does not take part in the transfer. -/
def Phase.deaf : Phase → Bool
  | .idle => true
  | .other => true
  | .selected => false
  | .high => false
  | .low _ => false
  | .data _ => false
  | .reading => false

/-- The chip takes an item. -/
def Chip.take (devAddr : Nat) (chip : Chip) : Item → Chip
  | .start => ⟨chip.cells, chip.pointer, .selected⟩
  | .stop => chip.stop
  | .octet byte _ => chip.octet devAddr byte

/-- The chip takes items in their order. -/
def Chip.takeAll (devAddr : Nat) (chip : Chip) (items : List Item) : Chip :=
  items.foldl (Chip.take devAddr) chip

/-- The clocks that an item takes. -/
def clocksOf : Item → Nat
  | .start => 1
  | .stop => 0
  | .octet _ _ => 9

/-- The clocks of some items. -/
def clocksOfAll (items : List Item) : Nat := (items.map clocksOf).sum

section

variable (device : Nat → Bool) (devAddr : Nat)

/-- What the chip does to the data line while it takes an item. -/
def Obeys (chip : Chip) (clock : Nat) : Item → Prop
  | .start => Free device clock
  | .stop => Free device clock
  | .octet byte _ =>
      if chip.phase = .reading then
        sentByte device clock = chip.cells chip.pointer ∧ Free device (clock + 8)
      else Silent device clock ∧ device (clock + 8) = (chip.octet devAddr byte).phase.deaf

/-- A device that is faithful to the chip along some items. -/
def Faithful (chip : Chip) (clock : Nat) : List Item → Prop
  | [] => True
  | item :: rest =>
      Obeys device devAddr chip clock item ∧
        Faithful (chip.take devAddr item) (clock + clocksOf item) rest

instance (chip : Chip) (clock : Nat) (item : Item) :
    Decidable (Obeys device devAddr chip clock item) :=
  match item with
  | .start => inferInstanceAs (Decidable (device clock = true))
  | .stop => inferInstanceAs (Decidable (device clock = true))
  | .octet byte _ =>
      inferInstanceAs (Decidable (if chip.phase = .reading then
        sentByte device clock = chip.cells chip.pointer ∧ device (clock + 8) = true
      else (∀ place < 8, device (clock + place) = true) ∧
        device (clock + 8) = (chip.octet devAddr byte).phase.deaf))

/-- Whether a device is faithful along some items can be computed. -/
instance faithfulDecidable (chip : Chip) (clock : Nat) (items : List Item) :
    Decidable (Faithful device devAddr chip clock items) :=
  match items with
  | [] => isTrue trivial
  | item :: rest =>
      have := faithfulDecidable (chip.take devAddr item) (clock + clocksOf item) rest
      inferInstanceAs (Decidable (_ ∧ _))

/-- `write_in_page`. -/
def writeInPage (memAddr : Nat) (buff : List Byte) (pins : Pins) : Nat × Pins :=
  match si2cSelect device devAddr 0 (si2cStart device pins) with
  | (selected, pins) =>
      if selected ≠ 0 then (0, si2cStop device pins)
      else
        match si2cTx device (addressBytes memAddr) pins with
        | (count, pins) =>
            if count ≠ 2 then (0, si2cStop device pins)
            else
              match si2cTx device buff pins with
              | (count, pins) => (count, si2cStop device pins)

/-- The loop of `at24c_write`; the result is what remains unwritten. -/
def at24cWriteLoop (addr : Nat) (data : List Byte) (pins : Pins) : Nat × Pins :=
  if data.length = 0 then (0, pins)
  else
    let size := pageChunk addr data.length
    let written := writeInPage device devAddr addr (data.take size) pins
    if written.1 ≠ size then (data.length, written.2)
    else at24cWriteLoop (addr + size) (data.drop size) written.2
termination_by data.length
decreasing_by
  have positive := page_chunk_pos addr data.length ‹_›
  have bounded := page_chunk_le addr data.length
  rw [List.length_drop]
  omega

/-- `at24c_write`. -/
def at24cWrite (memAddr : Nat) (buff : List Byte) (pins : Pins) : Nat × Pins :=
  match at24cWriteLoop device devAddr memAddr buff pins with
  | (remain, pins) => (buff.length - remain, pins)

/-- The items of a page that is written. -/
def pageItems (clock memAddr : Nat) (buff : List Byte) : List Item :=
  .start :: octets device (clock + 1) (addressing devAddr memAddr ++ buff) ++ [.stop]

/-- The items of a write. -/
def writeItems (clock addr : Nat) (data : List Byte) : List Item :=
  if data.length = 0 then []
  else
    let size := pageChunk addr data.length
    pageItems device devAddr clock addr (data.take size) ++
      writeItems (clock + (28 + 9 * size)) (addr + size) (data.drop size)
termination_by data.length
decreasing_by
  have positive := page_chunk_pos addr data.length ‹_›
  have bounded := page_chunk_le addr data.length
  rw [List.length_drop]
  omega

/-- A call of the driver. -/
inductive Call where
  | read (memAddr len : Nat)
  | write (memAddr : Nat) (buff : List Byte)

/-- The call stays in the half of the chip that its address reaches. -/
def Call.Inside : Call → Prop
  | .read memAddr len => memAddr + len ≤ 2 ^ 16
  | .write memAddr buff => memAddr + buff.length ≤ 2 ^ 16

/-- What a call answers: the bytes read, or the number of bytes written. -/
inductive Result where
  | bytes (read : List Byte)
  | count (written : Nat)
deriving DecidableEq

/-- The call on the pins. -/
def Call.onPins : Call → Pins → Result × Pins
  | .read memAddr len, pins =>
      match at24cRead device devAddr memAddr len pins with
      | (bytes, pins) => (.bytes bytes, pins)
  | .write memAddr buff, pins =>
      match at24cWrite device devAddr memAddr buff pins with
      | (count, pins) => (.count count, pins)

/-- The items of a call. -/
def Call.items (clock : Nat) : Call → List Item
  | .read memAddr len => readHeard device clock devAddr memAddr len
  | .write memAddr buff => writeItems device devAddr clock memAddr buff

/-- The call on the storage model of a chip without faults. -/
def Call.onCells : Call → Mem → Result × Mem
  | .read memAddr len, cells =>
      (.bytes (toList (EepromStorage.at24cRead memAddr (fun _ => 0) len (.healthy cells)).2.1 0 len),
        cells)
  | .write memAddr buff, cells =>
      match EepromStorage.at24cWrite memAddr (ofList buff) buff.length (.healthy cells) with
      | (count, chip) => (.count count, chip.cells)

/-- Calls one after the other on the pins. -/
def runPins : List Call → Pins → List Result × Pins
  | [], pins => ([], pins)
  | call :: rest, pins =>
      match call.onPins device devAddr pins with
      | (result, pins) =>
          match runPins rest pins with
          | (results, pins) => (result :: results, pins)

/-- The items of calls one after the other. -/
def conversation (clock : Nat) : List Call → List Item
  | [] => []
  | call :: rest =>
      call.items device devAddr clock ++
        conversation (clock + clocksOfAll (call.items device devAddr clock)) rest

end

/-- Calls one after the other on the storage model. -/
def runCells : List Call → Mem → List Result × Mem
  | [], cells => ([], cells)
  | call :: rest, cells =>
      match call.onCells cells with
      | (result, cells) =>
          match runCells rest cells with
          | (results, cells) => (result :: results, cells)

section

variable {device : Nat → Bool} {devAddr : Nat}

/-- Items one behind the other are taken one after the other. -/
theorem take_all_append (chip : Chip) (first second : List Item) :
    chip.takeAll devAddr (first ++ second) =
      (chip.takeAll devAddr first).takeAll devAddr second := List.foldl_append

/-- The clocks of an item and of those behind it add up. -/
theorem clocks_cons (item : Item) (rest : List Item) :
    clocksOfAll (item :: rest) = clocksOf item + clocksOfAll rest := by
  simp [clocksOfAll]

/-- The clocks of items one behind the other add up. -/
theorem clocks_append (first second : List Item) :
    clocksOfAll (first ++ second) = clocksOfAll first + clocksOfAll second := by
  simp [clocksOfAll]

/-- A device is faithful along two lists of items when it is along each of them. -/
theorem faithful_append (chip : Chip) (clock : Nat) (first second : List Item) :
    Faithful device devAddr chip clock (first ++ second) ↔
      Faithful device devAddr chip clock first ∧
        Faithful device devAddr (chip.takeAll devAddr first) (clock + clocksOfAll first)
          second := by
  induction first generalizing chip clock with
  | nil => simp [Faithful, Chip.takeAll, clocksOfAll]
  | cons item rest inductionHypothesis =>
    rw [List.cons_append, Faithful, Faithful, inductionHypothesis, clocks_cons, ← Nat.add_assoc,
      and_assoc]
    rfl

/-- Octets one behind the other. -/
theorem octets_append (clock : Nat) (first second : List Byte) :
    octets device clock (first ++ second) =
      octets device clock first ++ octets device (clock + 9 * first.length) second := by
  induction first generalizing clock with
  | nil => rfl
  | cons byte rest inductionHypothesis =>
    rw [List.cons_append, octets, octets, inductionHypothesis, List.cons_append,
      List.length_cons]
    congr 3
    omega

/-- Octets take nine clocks each. -/
@[simp] theorem clocks_octets (clock : Nat) (bytes : List Byte) :
    clocksOfAll (octets device clock bytes) = 9 * bytes.length := by
  induction bytes generalizing clock with
  | nil => rfl
  | cons byte rest inductionHypothesis =>
    rw [octets, clocks_cons, inductionHypothesis, List.length_cons, clocksOf]
    omega

/-- Octets that are received take nine clocks each. -/
@[simp] theorem clocks_answered (clock count : Nat) :
    clocksOfAll (answered device clock count) = 9 * count := by
  induction count generalizing clock with
  | zero => rfl
  | succ count inductionHypothesis =>
    rw [answered, clocks_cons, inductionHypothesis, clocksOf]
    omega

/-- Octets behind the address are kept. -/
theorem take_data (cells : Mem) (pointer clock : Nat) (kept bytes : List Byte) :
    (Chip.mk cells pointer (.data kept)).takeAll devAddr (octets device clock bytes) =
      ⟨cells, pointer, .data (kept ++ bytes)⟩ := by
  induction bytes generalizing clock kept with
  | nil => simp [octets, Chip.takeAll]
  | cons byte rest inductionHypothesis =>
    have others := inductionHypothesis (clock + 9) (kept ++ [byte])
    rw [List.append_assoc, List.singleton_append] at others
    exact others

/-- A faithful device leaves the line alone while octets behind the address are kept. -/
theorem faithful_data (cells : Mem) (pointer clock : Nat) (kept bytes : List Byte)
    (faithful : Faithful device devAddr ⟨cells, pointer, .data kept⟩ clock
      (octets device clock bytes)) : Attentive device clock bytes.length := by
  induction bytes generalizing clock kept with
  | nil => trivial
  | cons byte rest inductionHypothesis =>
    obtain ⟨⟨silent, -⟩, later⟩ := faithful
    exact ⟨silent, inductionHypothesis (clock + 9) (kept ++ [byte]) later⟩

/-- The octets that select the chip for writing and set its pointer. -/
theorem take_addressing (cells : Mem) (pointer clock memAddr : Nat) :
    (Chip.mk cells pointer .selected).takeAll devAddr
        (octets device clock (addressing devAddr memAddr)) =
      ⟨cells, memAddr % 2 ^ 16, .data []⟩ := by
  have place : memAddr / 256 % 256 * 256 + memAddr % 256 = memAddr % 65536 := by omega
  simp [addressing, addressBytes, octets, Chip.takeAll, Chip.take, Chip.octet, place]

/-- A faithful device leaves the line alone while it is addressed. -/
theorem faithful_addressing (cells : Mem) (pointer clock memAddr : Nat)
    (faithful : Faithful device devAddr ⟨cells, pointer, .selected⟩ clock
      (octets device clock (addressing devAddr memAddr))) : Attentive device clock 3 := by
  obtain ⟨⟨first, -⟩, second⟩ := faithful
  have selected : (Chip.mk cells pointer .selected).take devAddr
      (.octet (selectByte devAddr 0) (device (clock + 8))) = ⟨cells, pointer, .high⟩ := by
    simp [Chip.take, Chip.octet]
  rw [selected] at second
  obtain ⟨⟨high, -⟩, ⟨low, -⟩, -⟩ := second
  exact ⟨first, high, low, trivial⟩

/-- The two octets that select the chip differ. -/
theorem select_bytes_differ : selectByte devAddr 1 ≠ selectByte devAddr 0 := by
  intro same
  have bits := congrArg BitVec.toNat same
  simp only [selectByte, BitVec.toNat_ofNat] at bits
  omega

/-- The cells that a read sends. -/
def sentCells (cells : Mem) (pointer count : Nat) : List Byte :=
  (List.range count).map fun offset => cells ((pointer + offset) % 2 ^ 17)

/-- While it is read the chip sends its cells from the pointer on. -/
theorem faithful_reading (cells : Mem) {pointer : Nat} (inside : pointer < 2 ^ 17)
    (clock count : Nat) (faithful : Faithful device devAddr ⟨cells, pointer, .reading⟩ clock
      (answered device clock count)) :
    sentBytes device clock count = sentCells cells pointer count ∧
      (Chip.mk cells pointer .reading).takeAll devAddr (answered device clock count) =
        ⟨cells, (pointer + count) % 2 ^ 17, .reading⟩ := by
  induction count generalizing pointer clock with
  | zero =>
    refine ⟨rfl, ?_⟩
    rw [Nat.add_zero, Nat.mod_eq_of_lt inside]
    rfl
  | succ count inductionHypothesis =>
    obtain ⟨⟨sent, -⟩, later⟩ := faithful
    obtain ⟨bytes, chip⟩ := inductionHypothesis (Nat.mod_lt _ (by decide)) (clock + 9) later
    constructor
    · have others : sentCells cells ((pointer + 1) % 2 ^ 17) count =
          (List.range count).map fun offset => cells ((pointer + (offset + 1)) % 2 ^ 17) := by
        apply List.map_congr_left
        intro offset _
        rw [Nat.mod_add_mod]
        congr 2
        omega
      rw [sentBytes, bytes, sent, others, sentCells, List.range_succ_eq_map, List.map_cons,
        List.map_map, Nat.add_zero, Nat.mod_eq_of_lt inside]
      rfl
    · have taken : (Chip.mk cells pointer .reading).takeAll devAddr
          (answered device clock (count + 1)) =
          (Chip.mk cells ((pointer + 1) % 2 ^ 17) .reading).takeAll devAddr
            (answered device (clock + 9) count) := rfl
      have sum : pointer + 1 + count = pointer + (count + 1) := by omega
      rw [taken, chip, Nat.mod_add_mod, sum]

/-- Bytes that stay in their page are a page transfer of the storage model. -/
theorem program_page_inside (pageStart place : Nat) (bytes : List Byte) (cells : Mem)
    (inside : place + bytes.length ≤ at24cPageSize) :
    programPage pageStart place bytes cells = storePage cells ⟨pageStart + place, bytes⟩ := by
  induction bytes generalizing place cells with
  | nil =>
    funext address
    exact (overlay_outside _ _ _ _ _ (by simp only [List.length_nil]; omega)).symm
  | cons byte rest inductionHypothesis =>
    rw [List.length_cons] at inside
    have later : programPage pageStart ((place + 1) % at24cPageSize) rest
        (Function.update cells (pageStart + place) byte) =
        storePage (Function.update cells (pageStart + place) byte)
          ⟨pageStart + (place + 1), rest⟩ := by
      cases rest with
      | nil =>
        funext address
        exact (overlay_outside _ _ _ _ _ (by simp only [List.length_nil]; omega)).symm
      | cons second rest =>
        rw [List.length_cons] at inside
        have small : (place + 1) % at24cPageSize = place + 1 := Nat.mod_eq_of_lt (by omega)
        rw [small]
        exact inductionHypothesis _ _ (by rw [List.length_cons]; omega)
    rw [programPage, later]
    exact overlay_cons cells byte rest (pageStart + place)

/-- The items of a page behind its start. -/
theorem page_items_eq (clock memAddr : Nat) (buff : List Byte) :
    pageItems device devAddr clock memAddr buff =
      .start :: (octets device (clock + 1) (addressing devAddr memAddr) ++
        (octets device (clock + 28) buff ++ [.stop])) := by
  rw [pageItems, octets_append, List.cons_append, List.append_assoc]
  rfl

/-- What the chip makes of a page. -/
theorem take_page (chip : Chip) (clock memAddr : Nat) (buff : List Byte) :
    chip.takeAll devAddr (pageItems device devAddr clock memAddr buff) =
      ⟨programPage (memAddr % 2 ^ 16 / at24cPageSize * at24cPageSize)
        (memAddr % 2 ^ 16 % at24cPageSize) buff chip.cells, memAddr % 2 ^ 16, .idle⟩ := by
  rw [page_items_eq]
  change (Chip.mk chip.cells chip.pointer .selected).takeAll devAddr _ = _
  rw [take_all_append, take_all_append, take_addressing, take_data, List.nil_append]
  rfl

/-- A page is heard as it is meant when the device is faithful. -/
theorem write_in_page_faithful {chip : Chip} {pins : Pins} (idle : Idle pins) (memAddr : Nat)
    (buff : List Byte) (faithful : Faithful device devAddr chip pins.clocks
      (pageItems device devAddr pins.clocks memAddr buff)) :
    writeInPage device devAddr memAddr buff pins =
      (buff.length, ⟨true, true, true, pins.clocks + (28 + 9 * buff.length),
        ⟨pins.reader.items ++ pageItems device devAddr pins.clocks memAddr buff, []⟩⟩) := by
  rw [page_items_eq] at faithful
  obtain ⟨begun, faithful⟩ := faithful
  change Faithful device devAddr ⟨chip.cells, chip.pointer, .selected⟩ (pins.clocks + 1) _
    at faithful
  have three : (addressing devAddr memAddr).length = 3 := rfl
  have clocks : pins.clocks + 1 + 9 * 3 = pins.clocks + 28 := by omega
  rw [faithful_append, faithful_append, take_addressing, take_data, clocks_octets, clocks_octets,
    three, clocks] at faithful
  obtain ⟨addressed, written, ended, -⟩ := faithful
  obtain ⟨first, attentive⟩ := faithful_addressing _ _ _ _ addressed
  have kept := faithful_data _ _ _ _ _ written
  have two : (addressBytes memAddr).length = 2 := rfl
  have sent := @si2c_tx_low device (addressBytes memAddr) ⟨false, (selectByte devAddr 0).getLsbD 0,
    false, pins.clocks + 1 + 9, ⟨pins.reader.items ++ [.start] ++
      [.octet (selectByte devAddr 0) (device (pins.clocks + 1 + 8))], []⟩⟩ rfl rfl rfl attentive
  have later : pins.clocks + 1 + 9 + 9 * 2 = pins.clocks + 28 := by omega
  rw [writeInPage, si2c_start_idle idle begun, si2c_select_low devAddr 0 rfl rfl first]
  simp only [ne_eq, not_true_eq_false, if_false]
  rw [sent]
  simp only [two, not_true_eq_false, if_false]
  rw [later, si2c_tx_low buff rfl rfl rfl kept]
  simp only
  rw [si2c_stop_low _ _ _ ended, page_items_eq]
  simp [addressing, octets, Nat.add_assoc]

/-- The items of a read behind its start. -/
theorem read_heard_eq (clock memAddr len : Nat) :
    readHeard device clock devAddr memAddr len =
      .start :: (octets device (clock + 1) (addressing devAddr memAddr) ++
        ((if memAddr % 2 = 0 then [.stop] else []) ++
          (.start :: .octet (selectByte devAddr 1) (device (clock + 37)) ::
            (answered device (clock + 38) len ++ [.stop])))) := by
  simp [readHeard]

/-- A stop behind the address writes nothing. -/
theorem take_pause (cells : Mem) (pointer memAddr : Nat) :
    ∃ phase, (Chip.mk cells pointer (.data [])).takeAll devAddr
      (if memAddr % 2 = 0 then [.stop] else []) = ⟨cells, pointer, phase⟩ := by
  by_cases even : memAddr % 2 = 0
  · rw [if_pos even]
    exact ⟨.idle, rfl⟩
  · rw [if_neg even]
    exact ⟨.data [], rfl⟩

/-- What a faithful device does along a read. -/
structure ReadFaithful (device : Nat → Bool) (clock : Nat) : Prop where
  begun : Free device clock
  addressed : Attentive device (clock + 1) 3
  again : Free device (clock + 28)
  silent : Silent device (clock + 29)

/-- Along a read a faithful device sends the cells of the chip, which stay. -/
theorem take_read {chip : Chip} {clock memAddr len : Nat}
    (faithful : Faithful device devAddr chip clock
      (readHeard device clock devAddr memAddr len)) :
    ReadFaithful device clock ∧ Free device (clock + 38 + 9 * len) ∧
      sentBytes device (clock + 38) len = sentCells chip.cells (memAddr % 2 ^ 16) len ∧
      (chip.takeAll devAddr (readHeard device clock devAddr memAddr len)).cells = chip.cells := by
  rw [read_heard_eq] at faithful ⊢
  obtain ⟨begun, faithful⟩ := faithful
  change Faithful device devAddr ⟨chip.cells, chip.pointer, .selected⟩ (clock + 1) _ at faithful
  have three : (addressing devAddr memAddr).length = 3 := rfl
  have clocks : clock + 1 + 9 * 3 = clock + 28 := by omega
  have pause : clocksOfAll (if memAddr % 2 = 0 then [Item.stop] else []) = 0 := by
    split <;> rfl
  obtain ⟨phase, paused⟩ := @take_pause devAddr chip.cells (memAddr % 2 ^ 16) memAddr
  rw [faithful_append, faithful_append, take_addressing, clocks_octets, three, clocks, paused,
    pause] at faithful
  obtain ⟨addressed, -, again, selected, faithful⟩ := faithful
  have differ := @select_bytes_differ devAddr
  have reads : (((Chip.mk chip.cells (memAddr % 2 ^ 16) phase).take devAddr .start).take devAddr
      (.octet (selectByte devAddr 1) (device (clock + 37)))) =
      ⟨chip.cells, memAddr % 2 ^ 16, .reading⟩ := by
    simp [Chip.take, Chip.octet, differ]
  have begin : clock + 28 + 0 + clocksOf .start +
      clocksOf (.octet (selectByte devAddr 1) (device (clock + 37))) = clock + 38 := by
    simp only [clocksOf]
  rw [reads, begin, faithful_append, clocks_answered] at faithful
  obtain ⟨reading, ended, -⟩ := faithful
  obtain ⟨bytes, taken⟩ := faithful_reading chip.cells
    (Nat.lt_trans (Nat.mod_lt _ (by decide)) (by decide)) _ _ reading
  refine ⟨⟨begun, faithful_addressing _ _ _ _ addressed, again, selected.1⟩, ended, bytes, ?_⟩
  change ((Chip.mk chip.cells chip.pointer .selected).takeAll devAddr _).cells = _
  rw [take_all_append, take_addressing, take_all_append, paused]
  change ((((Chip.mk chip.cells (memAddr % 2 ^ 16) phase).take devAddr .start).take devAddr
    (.octet (selectByte devAddr 1) (device (clock + 37)))).takeAll devAddr _).cells = _
  rw [reads, take_all_append, taken]
  rfl

/-- A read is heard as it is meant when the device is faithful, and gives the cells. -/
theorem at24c_read_faithful {chip : Chip} {pins : Pins} (idle : Idle pins) {memAddr len : Nat}
    (faithful : Faithful device devAddr chip pins.clocks
      (readHeard device pins.clocks devAddr memAddr len)) :
    at24cRead device devAddr memAddr len pins =
      (sentCells chip.cells (memAddr % 2 ^ 16) len,
        ⟨true, true, true, pins.clocks + 38 + 9 * len,
          ⟨pins.reader.items ++ readHeard device pins.clocks devAddr memAddr len, []⟩⟩) := by
  obtain ⟨⟨begun, addressed, again, silent⟩, ended, bytes, -⟩ := take_read faithful
  rw [← bytes]
  exact at24c_read_idle idle devAddr memAddr len begun addressed again silent ended

/-- The pins between two calls. -/
def idlePins (clocks : Nat) (items : List Item) : Pins := ⟨true, true, true, clocks, ⟨items, []⟩⟩

/-- They are idle. -/
theorem idle_pins_idle (clocks : Nat) (items : List Item) : Idle (idlePins clocks items) :=
  ⟨rfl, rfl, rfl⟩

/-- A page takes its octets and the three that address it. -/
theorem clocks_page (clock memAddr : Nat) (buff : List Byte) :
    clocksOfAll (pageItems device devAddr clock memAddr buff) = 28 + 9 * buff.length := by
  have three : (addressing devAddr memAddr).length = 3 := rfl
  have stop : clocksOfAll [Item.stop] = 0 := rfl
  rw [page_items_eq, clocks_cons, clocks_append, clocks_append, clocks_octets, clocks_octets, three,
    stop, clocksOf]
  omega

/-- The first bytes of a list are the first bytes of its memory. -/
theorem to_list_take (data : List Byte) (size : Nat) (inside : size ≤ data.length) :
    toList (ofList data) 0 size = data.take size := by
  apply List.ext_getElem
  · simp [inside]
  · intro index below _
    rw [to_list_length] at below
    have place : index < data.length := by omega
    simp [toList, ofList, List.getD_eq_getElem?_getD, place]

/-- The rest of a list is its memory behind the first bytes. -/
theorem window_drop (data : List Byte) (size : Nat) :
    window (ofList data) size = ofList (data.drop size) := by
  funext offset
  simp [window, ofList, List.getD_eq_getElem?_getD, List.getElem?_drop]

/-- The loop writes the page plan of the storage model. -/
theorem write_loop_faithful (chip : Chip) (clocks : Nat) (items : List Item) (addr : Nat)
    (data : List Byte) (inside : addr + data.length ≤ 2 ^ 16)
    (faithful : Faithful device devAddr chip clocks
      (writeItems device devAddr clocks addr data)) :
    at24cWriteLoop device devAddr addr data (idlePins clocks items) =
        (0, idlePins (clocks + clocksOfAll (writeItems device devAddr clocks addr data))
          (items ++ writeItems device devAddr clocks addr data)) ∧
      (chip.takeAll devAddr (writeItems device devAddr clocks addr data)).cells =
        EepromStorage.storePages chip.cells
          (EepromStorage.pagePlan addr (ofList data) data.length) := by
  induction length : data.length using Nat.strong_induction_on
    generalizing chip clocks items addr data with
  | _ remain inductionHypothesis =>
    subst length
    rw [writeItems] at faithful ⊢
    rw [at24cWriteLoop, EepromStorage.pagePlan]
    by_cases finished : data.length = 0
    · rw [if_pos finished, if_pos finished, if_pos finished]
      exact ⟨by simp [clocksOfAll], rfl⟩
    · have positive := page_chunk_pos addr data.length finished
      have bounded := page_chunk_le addr data.length
      rw [if_neg finished] at faithful
      rw [if_neg finished, if_neg finished, if_neg finished]
      dsimp only at faithful ⊢
      have size : (data.take (pageChunk addr data.length)).length =
          pageChunk addr data.length := by
        rw [List.length_take]
        omega
      rw [faithful_append, clocks_page, size] at faithful
      obtain ⟨page, rest⟩ := faithful
      have written := write_in_page_faithful (idle_pins_idle clocks items) addr _ page
      rw [size] at written
      change _ = (_, idlePins (clocks + (28 + 9 * pageChunk addr data.length))
        (items ++ pageItems device devAddr clocks addr _)) at written
      have left : (data.drop (pageChunk addr data.length)).length =
          data.length - pageChunk addr data.length := List.length_drop
      obtain ⟨looped, cells⟩ := inductionHypothesis (data.length - pageChunk addr data.length)
        (by omega) (chip.takeAll devAddr
          (pageItems device devAddr clocks addr (data.take (pageChunk addr data.length))))
        (clocks + (28 + 9 * pageChunk addr data.length))
        (items ++ pageItems device devAddr clocks addr (data.take (pageChunk addr data.length)))
        (addr + pageChunk addr data.length) (data.drop (pageChunk addr data.length))
        (by rw [left]; omega) rest left
      have stored : (chip.takeAll devAddr
          (pageItems device devAddr clocks addr (data.take (pageChunk addr data.length)))).cells =
          storePage chip.cells ⟨addr, data.take (pageChunk addr data.length)⟩ := by
        have small : addr % 2 ^ 16 = addr := Nat.mod_eq_of_lt (by omega)
        have fits : addr % at24cPageSize + (data.take (pageChunk addr data.length)).length ≤
            at24cPageSize := by
          have place : addr % at24cPageSize < at24cPageSize := Nat.mod_lt _ (by decide)
          rw [size, pageChunk]
          omega
        rw [take_page, small, program_page_inside _ _ _ _ fits, Nat.div_add_mod']
      constructor
      · rw [written]
        simp only [ne_eq, not_true_eq_false, if_false]
        rw [looped, clocks_append, clocks_page, size, List.append_assoc, Nat.add_assoc clocks]
      · rw [take_all_append, cells, stored, window_drop, to_list_take data _ bounded]
        rfl

/-- A call on the pins answers what the storage model answers, and the chip keeps its cells. -/
theorem call_faithful (chip : Chip) (clocks : Nat) (items : List Item) (call : Call)
    (inside : call.Inside)
    (faithful : Faithful device devAddr chip clocks (call.items device devAddr clocks)) :
    call.onPins device devAddr (idlePins clocks items) =
        ((call.onCells chip.cells).1,
          idlePins (clocks + clocksOfAll (call.items device devAddr clocks))
            (items ++ call.items device devAddr clocks)) ∧
      (chip.takeAll devAddr (call.items device devAddr clocks)).cells =
        (call.onCells chip.cells).2 := by
  cases call with
  | read memAddr len =>
    have answered := at24c_read_faithful (idle_pins_idle clocks items) faithful
    have kept := (take_read faithful).2.2.2
    have sent : toList (EepromStorage.at24cRead memAddr (fun _ => 0) len
        (.healthy chip.cells)).2.1 0 len = sentCells chip.cells (memAddr % 2 ^ 16) len := by
      apply List.map_congr_left
      intro offset below
      have small := List.mem_range.mp below
      rw [Nat.zero_add]
      change overlay (fun _ => 0) (fun offset => chip.cells ((memAddr % 2 ^ 16 + offset) % 2 ^ 17))
        0 len offset = _
      rw [overlay_inside _ _ 0 len offset (Nat.zero_le _) (by omega), Nat.sub_zero]
    have total : clocks + clocksOfAll (readHeard device clocks devAddr memAddr len) =
        clocks + 38 + 9 * len := by
      have three : (addressing devAddr memAddr).length = 3 := rfl
      have stop : clocksOfAll [Item.stop] = 0 := rfl
      have pause : clocksOfAll (if memAddr % 2 = 0 then [Item.stop] else []) = 0 := by
        split <;> rfl
      rw [read_heard_eq, clocks_cons, clocks_append, clocks_append, clocks_cons, clocks_cons,
        clocks_append, clocks_octets, clocks_answered, three, stop, pause]
      simp only [clocksOf]
      omega
    rw [Call.onPins, Call.items, Call.onCells, answered, sent, total]
    exact ⟨rfl, kept⟩
  | write memAddr buff =>
    obtain ⟨looped, cells⟩ := write_loop_faithful chip clocks items memAddr buff inside faithful
    have stored := EepromStorage.at24c_write_loop_sound memAddr (ofList buff) buff.length
      (.healthy chip.cells) (EepromStorage.healthy_sound _) inside
    rw [Call.onPins, Call.items, Call.onCells, at24cWrite, looped, EepromStorage.at24cWrite, stored]
    exact ⟨rfl, cells⟩

/-- Any run of reads and writes of the driver on its two wires, with a device that is faithful to a
chip along the conversation that is meant. The driver answers what the storage model answers, the
listener hears that conversation and nothing else, the bus is idle again, and the chip ends with
the cells of the storage model. -/
theorem eeprom_on_wires (device : Nat → Bool) (devAddr : Nat) (chip : Chip) (clocks : Nat)
    (items : List Item) (calls : List Call) (inside : ∀ call ∈ calls, call.Inside)
    (faithful : Faithful device devAddr chip clocks
      (conversation device devAddr clocks calls)) :
    runPins device devAddr calls (idlePins clocks items) =
        ((runCells calls chip.cells).1,
          idlePins (clocks + clocksOfAll (conversation device devAddr clocks calls))
            (items ++ conversation device devAddr clocks calls)) ∧
      (chip.takeAll devAddr (conversation device devAddr clocks calls)).cells =
        (runCells calls chip.cells).2 := by
  induction calls generalizing chip clocks items with
  | nil => exact ⟨by simp [runPins, runCells, conversation, clocksOfAll], rfl⟩
  | cons call rest inductionHypothesis =>
    rw [conversation, faithful_append] at faithful
    obtain ⟨first, later⟩ := faithful
    obtain ⟨answered, cells⟩ :=
      call_faithful chip clocks items call (inside call List.mem_cons_self) first
    obtain ⟨others, final⟩ := inductionHypothesis _ _
      (items ++ call.items device devAddr clocks)
      (fun other member => inside other (List.mem_cons_of_mem _ member)) later
    rw [cells] at others final
    rw [runPins, runCells, conversation, answered, take_all_append, final]
    simp only [others, clocks_append, List.append_assoc, Nat.add_assoc, and_self]

/-- A device that acknowledges eight octets and sends the byte 0xA5 behind the last. -/
def exampleDevice (clock : Nat) : Bool :=
  !([9, 18, 27, 36, 46, 55, 64, 74, 76, 78, 79, 81] : List Nat).contains clock

/-- A byte is written to an odd address and read back. -/
theorem eeprom_on_wires_read_back :
    (runPins exampleDevice 0x50 [.write 0x1235 [0xA5], .read 0x1235 1] (idlePins 0 [])).1 =
      [.count 1, .bytes [0xA5]] := by
  have written : writeItems exampleDevice 0x50 0 0x1235 [0xA5] =
      pageItems exampleDevice 0x50 0 0x1235 [0xA5] := by
    have rest (clock addr : Nat) : writeItems exampleDevice 0x50 clock addr [] = [] := by
      rw [writeItems, if_pos List.length_nil]
    rw [writeItems, if_neg (by decide)]
    change pageItems exampleDevice 0x50 0 0x1235 [0xA5] ++
      writeItems exampleDevice 0x50 _ _ [] = _
    rw [rest, List.append_nil]
  have faithful : Faithful exampleDevice 0x50 ⟨fun _ => 0xFF, 0, .idle⟩ 0
      (conversation exampleDevice 0x50 0 [.write 0x1235 [0xA5], .read 0x1235 1]) := by
    simp only [conversation, Call.items, written]
    decide +kernel
  have inside : ∀ call ∈ [Call.write 0x1235 [0xA5], Call.read 0x1235 1], call.Inside := by
    simp [Call.Inside]
  have stored := EepromStorage.at24c_write_loop_sound 0x1235 (ofList [0xA5]) 1
    (.healthy fun _ => 0xFF) (EepromStorage.healthy_sound _) (by decide)
  have cells := EepromStorage.page_plan_contents (fun _ => 0xFF) 0x1235 (ofList [0xA5]) 1
  rw [(eeprom_on_wires exampleDevice 0x50 ⟨fun _ => 0xFF, 0, .idle⟩ 0 [] _ inside faithful).1]
  simp only [runCells, Call.onCells, EepromStorage.at24cWrite, List.length_singleton, stored,
    EepromStorage.Eeprom.perform]
  rw [show EepromStorage.Eeprom.cells (.healthy fun _ => 0xFF) = fun _ => 0xFF from rfl, cells]
  rfl

end

end Pyrometer.EepromWires
