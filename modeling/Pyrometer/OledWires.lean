import Pyrometer.DisplayRefresh
import Pyrometer.I2cWrites

/-!
# The display of `oled.c` on its two wires

The model of the refresh takes the panel for four pages that transfers change. Here the calls of
`oled.c` move the pins of the bus, and the panel is the memory of a controller: a transfer that
starts with one control byte holds commands, one that starts with the other holds bytes that go
into the row of the cursor. With acknowledges or without, the memory of the controller follows
the panel of that model.

The controller reads a command with its argument where the source sends both, and leaves what
its other commands set out. The delays are left out.
-/

namespace Pyrometer.OledWires

open ByteMemory DisplayRefresh I2cWires I2cWrites Runs

/-- `OLED_I2C_ADDR`. -/
def oledI2cAddr : Nat := 0x3C

/-- The transfer that `oled_write` makes: `OLED_CMD` is `false`, `OLED_DATA` is `true`. -/
def writeBuff (buff : Byte) (mode : Bool) : List Byte := [if mode then 0x40 else 0x00, buff]

/-- The bytes of a page of `OLED_GRAM`, behind the control byte. -/
def pageBuff (gram : Gram) (page : Page) : List Byte :=
  0x40 :: (List.finRange 128).map (gram page)

/-- The pins, and `OLED_GRAM` and `OLED_GRAM_OLD`. -/
structure Oled where
  pins : Pins
  gram : Gram
  old : Gram

section

variable (device : Nat → Bool)

/-- `oled_write`, whose result nobody looks at. -/
def oledWrite (buff : Byte) (mode : Bool) (pins : Pins) : Pins :=
  (si2cSend device oledI2cAddr (writeBuff buff mode) pins).2

/-- `oled_set_cursor`. -/
def oledSetCursor (y x : Byte) (pins : Pins) : Pins :=
  oledWrite device (0x00 ||| (x &&& 0x0F)) false
    (oledWrite device (0x10 ||| ((x &&& 0xF0) >>> 4)) false
      (oledWrite device (0xB0 ||| y) false pins))

/-- A page is sent. -/
def sendPage (gram : Gram) (page : Page) (pins : Pins) : Pins :=
  (si2cSend device oledI2cAddr (pageBuff gram page)
    (oledSetCursor device (BitVec.ofNat 8 page.val) 0 pins)).2

/-- The body of `oled_refresh_diff` for a page. -/
def refreshPage (page : Page) (oled : Oled) : Oled :=
  if oled.gram page = oled.old page then oled
  else
    ⟨sendPage device oled.gram page oled.pins, oled.gram,
      Function.update oled.old page (oled.gram page)⟩

/-- `oled_refresh`. -/
def oledRefresh (oled : Oled) : Oled :=
  { oled with
    pins := (List.finRange 4).foldl (fun pins page => sendPage device oled.gram page pins)
      oled.pins }

/-- `oled_refresh_diff`. -/
def oledRefreshDiff (oled : Oled) : Oled :=
  (List.finRange 4).foldl (fun oled page => refreshPage device page oled) oled

/-- `oled_clear`. -/
def oledClear (oled : Oled) : Oled :=
  oledRefreshDiff device { oled with gram := fun _ _ => 0 }

/-- The commands that `oled_init` writes before the logo. -/
def initCommands : List Byte :=
  [0xAE, 0x00, 0x10, 0x00, 0xB0, 0x81, 0xFF, 0xA1, 0xA6, 0xA8, 0x1F, 0xC8, 0xD3, 0x00, 0xD5, 0x80,
    0xD9, 0x1F, 0xDA, 0x00, 0xDB, 0x40, 0x8D, 0x14]

/-- `oled_init`, with both buffers blank. -/
def oledInit (pins : Pins) : Oled :=
  let commanded := initCommands.foldl (fun pins command => oledWrite device command false pins) pins
  let drawn := oledRefresh device
    ⟨commanded, oledShowPicture 0 0 128 32 logoByte true fun _ _ => 0, fun _ _ => 0⟩
  { drawn with pins := oledWrite device 0xAF false drawn.pins }

/-- A change of `OLED_GRAM`, or a call. -/
inductive Call where
  | draw (gram : Gram)
  | refresh
  | refreshDiff
  | clear

/-- A call on the wires. -/
def call (oled : Oled) : Call → Oled
  | .draw gram => { oled with gram := gram }
  | .refresh => oledRefresh device oled
  | .refreshDiff => oledRefreshDiff device oled
  | .clear => oledClear device oled

end

/-- The controller: its memory by rows, the cursor, whether the next command byte is an argument,
and whether the panel is lit. -/
structure Chip where
  ram : Nat → Mem
  page : Nat
  column : Nat
  argument : Bool
  lit : Bool

/-- The commands of `oled_init` that have an argument. -/
def withArgument : List Byte := [0x81, 0xA8, 0xD3, 0xD5, 0xD9, 0xDA, 0xDB, 0x8D]

/-- The controller takes a command byte. -/
def Chip.command (chip : Chip) (byte : Byte) : Chip :=
  if chip.argument then { chip with argument := false }
  else if withArgument.contains byte then { chip with argument := true }
  else if byte &&& 0xF8 = 0xB0 then { chip with page := (byte &&& 0x07).toNat }
  else if byte &&& 0xF0 = 0x10 then
    { chip with column := (byte &&& 0x07).toNat * 16 + chip.column % 16 }
  else if byte &&& 0xF0 = 0x00 then
    { chip with column := chip.column / 16 * 16 + (byte &&& 0x0F).toNat }
  else if byte = 0xAE then { chip with lit := false }
  else if byte = 0xAF then { chip with lit := true }
  else chip

/-- The controller takes a byte of a row. -/
def Chip.data (chip : Chip) (byte : Byte) : Chip :=
  { chip with
    ram := Function.update chip.ram chip.page
      (Function.update (chip.ram chip.page) chip.column byte)
    column := (chip.column + 1) % 128 }

/-- The controller takes a transfer. -/
def Chip.take (chip : Chip) : List Byte → Chip
  | address :: control :: bytes =>
      if address ≠ selectByte oledI2cAddr 0 then chip
      else if control = 0x40 then bytes.foldl Chip.data chip
      else if control = 0x00 then bytes.foldl Chip.command chip
      else chip
  | _ => chip

/-- The controller behind the wires. -/
def chipOf (start : Chip) (pins : Pins) : Chip :=
  (transfersOf pins.reader.items).foldl Chip.take start

/-- The four pages of the controller that are displayed. -/
def Chip.panel (chip : Chip) : Gram := fun page column => chip.ram page.val column.val

/-- The model of the refresh after `oled_init`, on a controller that held something. -/
def started (start : Chip) (pins : Pins) (cursor : Page) : Display :=
  DisplayRefresh.oledInit true allAcks (powerUp (chipOf start pins).panel cursor)

/-- The transfers that send a page. -/
def pageSends (gram : Gram) (page : Page) : List (List Byte) :=
  [writeBuff (0xB0 ||| BitVec.ofNat 8 page.val) false, writeBuff 0x10 false, writeBuff 0x00 false,
    pageBuff gram page]

/-- The transfers of `oled_refresh_diff` for some pages. -/
def diffSends (gram : Gram) : List Page → Gram → List (List Byte)
  | [], _ => []
  | page :: rest, old =>
      if gram page = old page then diffSends gram rest old
      else pageSends gram page ++ diffSends gram rest (Function.update old page (gram page))

/-- The transfers of a call. -/
def callSends (display : Display) : Call → List (List Byte)
  | .draw _ => []
  | .refresh => (List.finRange 4).flatMap (pageSends display.gram)
  | .refreshDiff => diffSends display.gram (List.finRange 4) display.old
  | .clear => diffSends (fun _ _ => 0) (List.finRange 4) display.old

/-- The call in the model of the refresh, with all of its transfers acknowledged. -/
def Call.event : Call → Event
  | .draw gram => .draw gram
  | .refresh => .refresh allAcks
  | .refreshDiff => .refreshDiff allAcks
  | .clear => .clear allAcks

/-- The transfers of some calls. -/
def sendsOf : Display → List Call → List (List Byte)
  | _, [] => []
  | display, call :: rest =>
      callSends display call ++ sendsOf (DisplayRefresh.step display call.event) rest

/-- The transfers of `oled_init`. -/
def initSends : List (List Byte) :=
  initCommands.map (writeBuff · false) ++ (List.finRange 4).flatMap (pageSends logoGram) ++
    [writeBuff 0xAF false]

/-- The wires and the model of the refresh agree, with the panel lit or not. -/
structure Matches (start : Chip) (lit : Bool) (oled : Oled) (display : Display) : Prop where
  idle : Idle oled.pins
  gram : oled.gram = display.gram
  old : oled.old = display.old
  panel : (chipOf start oled.pins).panel = display.panel
  column : (chipOf start oled.pins).column = 0
  argument : (chipOf start oled.pins).argument = false
  lit : (chipOf start oled.pins).lit = lit

variable {device : Nat → Bool}

/-- A page is sent in its transfers. -/
theorem send_page_sends (gram : Gram) (page : Page) (pins : Pins) :
    sendPage device gram page pins = sendAll device oledI2cAddr (pageSends gram page) pins := rfl

/-- The controller behind transfers that are sent. -/
theorem chip_sent (start : Chip) {sends rest : List (List Byte)} {pins : Pins} (idle : Idle pins)
    (listens : Listens device pins.clocks (sends ++ rest)) :
    Idle (sendAll device oledI2cAddr sends pins) ∧
      chipOf start (sendAll device oledI2cAddr sends pins) =
        (sends.map (selectByte oledI2cAddr 0 :: ·)).foldl Chip.take (chipOf start pins) ∧
      Listens device (sendAll device oledI2cAddr sends pins).clocks rest := by
  obtain ⟨idleAfter, transfers, others⟩ := send_all_transfers oledI2cAddr sends idle listens
  refine ⟨idleAfter, ?_, others⟩
  rw [chipOf, transfers, List.foldl_append]
  rfl

/-- Bytes that fit into a row are copied to the cursor, which goes on behind them. -/
theorem data_row (bytes : List Byte) (chip : Chip) (inside : chip.column < 128)
    (fits : chip.column + bytes.length ≤ 128) :
    bytes.foldl Chip.data chip =
      { chip with
        ram := Function.update chip.ram chip.page
          (overlay (chip.ram chip.page) (ofList bytes) chip.column bytes.length)
        column := (chip.column + bytes.length) % 128 } := by
  have nothing (row : Mem) (column : Nat) : overlay row (ofList []) column 0 = row := by
    funext place
    exact overlay_outside _ _ _ _ _ (by omega)
  induction bytes generalizing chip with
  | nil => simp [nothing, Nat.mod_eq_of_lt inside]
  | cons byte rest inductionHypothesis =>
    rw [List.length_cons] at fits
    have joined := overlay_cons (chip.ram chip.page) byte rest chip.column
    have behind : chip.column + 1 + rest.length = chip.column + (rest.length + 1) := by omega
    rcases Nat.lt_or_ge (chip.column + 1) 128 with more | last
    · have next : (chip.column + 1) % 128 = chip.column + 1 := Nat.mod_eq_of_lt more
      have later := inductionHypothesis (chip.data byte) (by simp only [Chip.data, next]; exact more)
        (by simp only [Chip.data, next]; omega)
      rw [List.foldl_cons, later, List.length_cons]
      simp only [Chip.data, next, Function.update_self, Function.update_idem, joined, behind]
    · have empty : rest = [] := List.eq_nil_of_length_eq_zero (by omega)
      subst empty
      rw [List.length_nil, nothing] at joined
      rw [List.foldl_cons, List.foldl_nil, List.length_cons, List.length_nil, ← joined]
      rfl

/-- The controller takes a command that is written. -/
theorem take_command (chip : Chip) (command : Byte) :
    chip.take (selectByte oledI2cAddr 0 :: writeBuff command false) = chip.command command := by
  rw [writeBuff, Chip.take, if_neg (not_not.mpr rfl), if_neg (by decide)]
  exact if_pos rfl

/-- The controller takes the bytes of a page that are written. -/
theorem take_page (chip : Chip) (gram : Gram) (page : Page) :
    chip.take (selectByte oledI2cAddr 0 :: pageBuff gram page) =
      ((List.finRange 128).map (gram page)).foldl Chip.data chip := by
  rw [pageBuff, Chip.take, if_neg (not_not.mpr rfl), if_pos rfl]

/-- The command for the page of the cursor. -/
theorem page_command : ∀ page : Page,
    ¬ withArgument.contains (0xB0 ||| BitVec.ofNat 8 page.val : Byte) ∧
      (0xB0 ||| BitVec.ofNat 8 page.val : Byte) &&& 0xF8 = 0xB0 ∧
      ((0xB0 ||| BitVec.ofNat 8 page.val : Byte) &&& 0x07).toNat = page.val := by
  decide

/-- The three commands of the cursor take it to the start of a page. -/
theorem take_cursor (ram : Nat → Mem) (before column : Nat) (lit : Bool) (page : Page) :
    (((Chip.mk ram before column false lit).command (0xB0 ||| BitVec.ofNat 8 page.val)).command
      0x10).command 0x00 = ⟨ram, page.val, 0, false, lit⟩ := by
  obtain ⟨plain, isPage, number⟩ := page_command page
  have first : (Chip.mk ram before column false lit).command (0xB0 ||| BitVec.ofNat 8 page.val) =
      ⟨ram, page.val, column, false, lit⟩ := by
    rw [Chip.command, if_neg Bool.false_ne_true, if_neg plain, if_pos isPage, number]
  have second : (Chip.mk ram page.val column false lit).command 0x10 =
      ⟨ram, page.val, 0 * 16 + column % 16, false, lit⟩ := rfl
  have third : (Chip.mk ram page.val (0 * 16 + column % 16) false lit).command 0x00 =
      ⟨ram, page.val, (0 * 16 + column % 16) / 16 * 16 + 0, false, lit⟩ := rfl
  have low : (0 * 16 + column % 16) / 16 * 16 + 0 = 0 := by omega
  rw [first, second, third, low]

/-- The memory of the controller behind the bytes of a page. -/
def pageStored (ram : Nat → Mem) (gram : Gram) (page : Page) : Nat → Mem :=
  Function.update ram page.val
    (overlay (ram page.val) (ofList ((List.finRange 128).map (gram page))) 0 128)

/-- A page that is stored is displayed. -/
theorem page_stored_panel (ram : Nat → Mem) (gram : Gram) (page : Page) :
    (fun (other : Page) (column : Column) => pageStored ram gram page other.val column.val) =
      Function.update (fun other column => ram other.val column.val) page (gram page) := by
  funext other column
  by_cases same : other = page
  · subst same
    have inside := column.isLt
    rw [pageStored, Function.update_self, Function.update_self,
      overlay_inside _ _ _ _ _ (Nat.zero_le _) (by omega), ofList, Nat.sub_zero]
    simp
  · rw [pageStored, Function.update_of_ne fun equal => same (Fin.ext equal),
      Function.update_of_ne same]

/-- The transfers of a page take its bytes into the memory of the controller. -/
theorem take_page_sends (ram : Nat → Mem) (before column : Nat) (lit : Bool) (gram : Gram)
    (page : Page) :
    ((pageSends gram page).map (selectByte oledI2cAddr 0 :: ·)).foldl Chip.take
        ⟨ram, before, column, false, lit⟩ =
      ⟨pageStored ram gram page, page.val, 0, false, lit⟩ := by
  have length : ((List.finRange 128).map (gram page)).length = 128 := by
    rw [List.length_map, List.length_finRange]
  have row := data_row ((List.finRange 128).map (gram page)) ⟨ram, page.val, 0, false, lit⟩
    (by change 0 < 128; decide) (by rw [length])
  rw [length] at row
  simp only [pageSends, List.map_cons, List.map_nil, List.foldl_cons, List.foldl_nil, take_command,
    take_page, take_cursor, row]
  rfl

/-- A page that is sent keeps the wires and the model of the refresh in agreement. -/
theorem send_page_matches {start : Chip} {lit : Bool} {oled : Oled} {display : Display}
    (page : Page)
    {rest : List (List Byte)} (matched : Matches start lit oled display)
    (listens : Listens device oled.pins.clocks (pageSends oled.gram page ++ rest)) :
    Matches start lit { oled with pins := sendPage device oled.gram page oled.pins }
        (DisplayRefresh.sendPage (allAcks page) page display) ∧
      Listens device (sendPage device oled.gram page oled.pins).clocks rest := by
  obtain ⟨idle, gram, old, panel, column, argument, lamp⟩ := matched
  obtain ⟨idleAfter, chip, others⟩ := chip_sent start idle listens
  rw [← send_page_sends] at idleAfter chip others
  generalize chipOf start oled.pins = held at panel column argument lamp chip
  obtain ⟨ram, before, place, pending, held⟩ := held
  simp only at column argument lamp
  subst argument lamp
  rw [take_page_sends] at chip
  refine ⟨⟨idleAfter, gram, old, ?_, ?_, ?_, ?_⟩, others⟩
  · change (chipOf start (sendPage device oled.gram page oled.pins)).panel = _
    rw [chip]
    refine (page_stored_panel ram oled.gram page).trans ?_
    rw [gram]
    exact congrArg (Function.update · page (display.gram page)) panel
  · change (chipOf start (sendPage device oled.gram page oled.pins)).column = 0
    rw [chip]
  · change (chipOf start (sendPage device oled.gram page oled.pins)).argument = false
    rw [chip]
  · change (chipOf start (sendPage device oled.gram page oled.pins)).lit = held
    rw [chip]

/-- The body of `oled_refresh_diff` keeps the agreement for some pages. -/
theorem diff_pages_match {start : Chip} {lit : Bool} (pages : List Page) {oled : Oled}
    {display : Display}
    {rest : List (List Byte)} (matched : Matches start lit oled display)
    (listens : Listens device oled.pins.clocks (diffSends oled.gram pages oled.old ++ rest)) :
    Matches start lit (pages.foldl (fun oled page => refreshPage device page oled) oled)
        (pages.foldl (fun display page => DisplayRefresh.refreshPage (allAcks page) page display)
          display) ∧
      Listens device (pages.foldl (fun oled page => refreshPage device page oled)
        oled).pins.clocks rest := by
  induction pages generalizing oled display with
  | nil => exact ⟨matched, listens⟩
  | cons page pages inductionHypothesis =>
    rw [List.foldl_cons, List.foldl_cons]
    rw [diffSends] at listens
    by_cases same : oled.gram page = oled.old page
    · rw [if_pos same] at listens
      rw [refreshPage, if_pos same, DisplayRefresh.refreshPage,
        if_pos (by rw [← matched.gram, ← matched.old]; exact same)]
      exact inductionHypothesis matched listens
    · rw [if_neg same, List.append_assoc] at listens
      rw [refreshPage, if_neg same, DisplayRefresh.refreshPage,
        if_neg (by rw [← matched.gram, ← matched.old]; exact same)]
      obtain ⟨idle, gram, old, panel, column, argument, lamp⟩ := matched
      have copied : Matches start lit ⟨oled.pins, oled.gram,
            Function.update oled.old page (oled.gram page)⟩
          { display with old := Function.update display.old page (display.gram page) } :=
        ⟨idle, gram, by rw [old, gram], panel, column, argument, lamp⟩
      obtain ⟨sent, others⟩ := send_page_matches page copied listens
      exact inductionHypothesis sent others

/-- `oled_refresh` keeps the agreement for some pages. -/
theorem send_pages_match {start : Chip} {lit : Bool} (pages : List Page) {oled : Oled}
    {display : Display}
    {rest : List (List Byte)} (matched : Matches start lit oled display)
    (listens : Listens device oled.pins.clocks (pages.flatMap (pageSends oled.gram) ++ rest)) :
    Matches start lit { oled with
        pins := pages.foldl (fun pins page => sendPage device oled.gram page pins) oled.pins }
        (pages.foldl (fun display page => DisplayRefresh.sendPage (allAcks page) page display)
          display) ∧
      Listens device (pages.foldl (fun pins page => sendPage device oled.gram page pins)
        oled.pins).clocks rest := by
  induction pages generalizing oled display with
  | nil => exact ⟨matched, listens⟩
  | cons page pages inductionHypothesis =>
    rw [List.flatMap_cons, List.append_assoc] at listens
    obtain ⟨sent, others⟩ := send_page_matches page matched listens
    exact inductionHypothesis sent others

/-- A call keeps the wires and the model of the refresh in agreement. -/
theorem call_matches {start : Chip} {lit : Bool} (command : Call) {oled : Oled} {display : Display}
    {rest : List (List Byte)} (matched : Matches start lit oled display)
    (listens : Listens device oled.pins.clocks (callSends display command ++ rest)) :
    Matches start lit (call device oled command) (DisplayRefresh.step display command.event) ∧
      Listens device (call device oled command).pins.clocks rest := by
  have gram := matched.gram
  have old := matched.old
  cases command with
  | draw gram =>
    exact ⟨⟨matched.idle, rfl, old, matched.panel, matched.column, matched.argument,
        matched.lit⟩, listens⟩
  | refresh =>
    rw [callSends, ← gram] at listens
    rw [call, oledRefresh, Call.event, DisplayRefresh.step, DisplayRefresh.oledRefresh]
    exact send_pages_match (List.finRange 4) matched listens
  | refreshDiff =>
    rw [callSends, ← gram, ← old] at listens
    rw [call, oledRefreshDiff, Call.event, DisplayRefresh.step, DisplayRefresh.oledRefreshDiff]
    exact diff_pages_match (List.finRange 4) matched listens
  | clear =>
    rw [callSends, ← old] at listens
    have blank : Matches start lit { oled with gram := fun _ _ => 0 } (blanked display) :=
      ⟨matched.idle, rfl, old, matched.panel, matched.column, matched.argument,
        matched.lit⟩
    rw [call, oledClear, oledRefreshDiff, Call.event, DisplayRefresh.step,
      DisplayRefresh.oledClear, DisplayRefresh.oledRefreshDiff]
    exact diff_pages_match (List.finRange 4) blank listens

/-- Calls keep the wires and the model of the refresh in agreement. -/
theorem calls_match {start : Chip} {lit : Bool} (calls : List Call) {oled : Oled}
    {display : Display}
    (matched : Matches start lit oled display)
    (listens : Listens device oled.pins.clocks (sendsOf display calls)) :
    Matches start lit (run (call device) oled calls)
      (run DisplayRefresh.step display (calls.map Call.event)) := by
  induction calls generalizing oled display with
  | nil => exact matched
  | cons command rest inductionHypothesis =>
    obtain ⟨after, others⟩ := call_matches command matched listens
    exact inductionHypothesis after others

/-- The commands of `oled_init` take the cursor to the first page, whatever the controller was
waiting for. -/
theorem take_init_commands (chip : Chip) :
    ∃ lit, ((initCommands.map (writeBuff · false)).map (selectByte oledI2cAddr 0 :: ·)).foldl
      Chip.take chip = ⟨chip.ram, 0, 0, false, lit⟩ := by
  have commands (list : List Byte) (chip : Chip) :
      ((list.map (writeBuff · false)).map (selectByte oledI2cAddr 0 :: ·)).foldl Chip.take chip =
        list.foldl Chip.command chip := by
    induction list generalizing chip with
    | nil => rfl
    | cons command rest inductionHypothesis =>
      rw [List.map_cons, List.map_cons, List.foldl_cons, take_command, inductionHypothesis,
        List.foldl_cons]
  obtain ⟨ram, page, column, argument, lit⟩ := chip
  have begin : ∃ lit', [0xAE, 0x00, 0x10, 0x00].foldl Chip.command
      ⟨ram, page, column, argument, lit⟩ =
      ⟨ram, page, (0 * 16 + (column / 16 * 16 + 0) % 16) / 16 * 16 + 0, false, lit'⟩ := by
    cases argument with
    | false => exact ⟨false, rfl⟩
    | true => exact ⟨lit, rfl⟩
  have low : (0 * 16 + (column / 16 * 16 + 0) % 16) / 16 * 16 + 0 = 0 := by omega
  have rest (lit : Bool) : (initCommands.drop 4).foldl Chip.command ⟨ram, page, 0, false, lit⟩ =
      ⟨ram, 0, 0, false, lit⟩ := rfl
  obtain ⟨lit', first⟩ := begin
  have split : initCommands = [0xAE, 0x00, 0x10, 0x00] ++ initCommands.drop 4 := rfl
  refine ⟨lit', ?_⟩
  rw [commands, split, List.foldl_append, first, low, rest]

/-- After `oled_init` the wires and the model of the refresh agree, and the panel is lit. -/
theorem init_matches {pins : Pins} (idle : Idle pins) (start : Chip) (cursor : Page)
    {rest : List (List Byte)} (listens : Listens device pins.clocks (initSends ++ rest)) :
    Matches start true (oledInit device pins) (started start pins cursor) ∧
      Listens device (oledInit device pins).pins.clocks rest := by
  have logo : oledShowPicture 0 0 128 32 logoByte true (fun _ _ => 0) = logoGram := by
    funext page column
    exact show_picture logoByte _ page column
  rw [initSends, List.append_assoc, List.append_assoc] at listens
  obtain ⟨commanded, chip, later⟩ := chip_sent start idle listens
  obtain ⟨lit, taken⟩ := take_init_commands (chipOf start pins)
  have commands : sendAll device oledI2cAddr (initCommands.map (writeBuff · false)) pins =
      initCommands.foldl (fun pins command => oledWrite device command false pins) pins := by
    rw [sendAll, List.foldl_map]
    rfl
  rw [taken, commands] at chip
  rw [commands] at commanded later
  have drawn : Matches start lit
      ⟨initCommands.foldl (fun pins command => oledWrite device command false pins) pins,
        oledShowPicture 0 0 128 32 logoByte true fun _ _ => 0, fun _ _ => 0⟩
      { powerUp (chipOf start pins).panel cursor with
        cursor := ⟨0, pages_positive⟩
        gram := oledShowPicture 0 0 128 32 logoByte true fun _ _ => 0 } := by
    refine ⟨commanded, rfl, rfl, ?_, ?_, ?_, ?_⟩
    · rw [chip]
      rfl
    · rw [chip]
    · rw [chip]
    · rw [chip]
  have pages := later
  rw [← logo] at pages
  obtain ⟨shown, last⟩ := send_pages_match (List.finRange 4) drawn pages
  obtain ⟨idleLit, chipLit, others⟩ := @chip_sent device start [writeBuff 0xAF false] rest _
    shown.idle last
  rw [started, DisplayRefresh.oledInit, DisplayRefresh.oledRefresh]
  obtain ⟨-, gram, old, panel, column, argument, -⟩ := shown
  rw [List.map_cons, List.map_nil, List.foldl_cons, List.foldl_nil, take_command] at chipLit
  generalize chipOf start _ = held at panel column argument chipLit
  obtain ⟨ram, page, place, pending, dark⟩ := held
  simp only at column argument
  subst column argument
  have light : (Chip.mk ram page 0 false dark).command 0xAF = ⟨ram, page, 0, false, true⟩ := rfl
  rw [light] at chipLit
  have lit : chipOf start (oledInit device pins).pins = ⟨ram, page, 0, false, true⟩ := chipLit
  refine ⟨⟨idleLit, gram, old, ?_, ?_, ?_, ?_⟩, others⟩
  · rw [lit]
    exact panel
  · rw [lit]
  · rw [lit]
  · rw [lit]

/-- Whatever the controller held and whatever it acknowledges, after `oled_init` and every run of
changes and calls its memory is the panel of the model of the refresh with every transfer
acknowledged, the buffers are the same, and the panel is lit. -/
theorem oled_on_wires (device : Nat → Bool) (pins : Pins) (idle : Idle pins) (start : Chip)
    (cursor : Page) (calls : List Call)
    (listens : Listens device pins.clocks (initSends ++ sendsOf (started start pins cursor) calls))
    (oled : Oled) (reached : oled = run (call device) (oledInit device pins) calls)
    (display : Display) (intended : display =
      run DisplayRefresh.step (started start pins cursor) (calls.map Call.event)) :
    (chipOf start oled.pins).panel = display.panel ∧ oled.gram = display.gram ∧
      oled.old = display.old ∧ (chipOf start oled.pins).lit = true := by
  subst reached intended
  obtain ⟨matched, later⟩ := init_matches idle start cursor listens
  have last := calls_match calls matched later
  exact ⟨last.panel, last.gram, last.old, last.lit⟩

/-- The display is cleared behind the logo, and stays lit. -/
theorem oled_on_wires_cleared :
    (chipOf ⟨fun _ _ => 0xFF, 5, 77, true, false⟩
      (run (call fun _ => true) (oledInit (fun _ => true) ⟨true, true, true, 0, ⟨[], []⟩⟩)
        [.clear]).pins).lit = true :=
  (oled_on_wires (fun _ => true) ⟨true, true, true, 0, ⟨[], []⟩⟩ ⟨rfl, rfl, rfl⟩
    ⟨fun _ _ => 0xFF, 5, 77, true, false⟩ ⟨0, pages_positive⟩ [.clear] (absent_listens 0 _) _ rfl _
    rfl).2.2.2

/-- After `oled_init` the logo is on the panel, and the copies are blank. -/
theorem started_display (start : Chip) (pins : Pins) (cursor : Page) :
    (started start pins cursor).old = (fun _ _ => 0) ∧
      (started start pins cursor).panel = logoGram ∧
      ∀ page, (started start pins cursor).failed page = false := by
  have complete : ∀ page : Page, (allAcks page).complete := fun _ => ⟨rfl, rfl, rfl, rfl⟩
  obtain ⟨-, old, shown, fine⟩ := init_display complete true (chipOf start pins).panel cursor
  rw [started]
  exact ⟨old, shown, fine⟩

/-- The calls that show some pictures one after the other. -/
def showing (pictures : List Gram) : List Call :=
  pictures.flatMap fun picture => [.draw picture, .refreshDiff]

/-- A picture is shown if the panel has the pages of it that are skipped, and makes the panel as
the copies are. -/
theorem picture_mirrored (picture : Gram) {display : Display}
    (fine : ∀ page, display.failed page = false)
    (skipped : ∀ page, picture page = display.old page → display.panel page = picture page) :
    Mirrored (DisplayRefresh.oledRefreshDiff allAcks { display with gram := picture }) ∧
      (DisplayRefresh.oledRefreshDiff allAcks { display with gram := picture }).panel =
        picture := by
  have complete : ∀ page : Page, (allAcks page).complete := fun _ => ⟨rfl, rfl, rfl, rfl⟩
  exact ⟨@diff_mirrored allAcks complete { display with gram := picture } fine skipped,
    @diff_shown allAcks complete { display with gram := picture } skipped⟩

/-- The first of some pictures is shown. -/
theorem run_showing (display : Display) (picture : Gram) (rest : List Gram) :
    run DisplayRefresh.step display ((showing (picture :: rest)).map Call.event) =
      run DisplayRefresh.step
        (DisplayRefresh.oledRefreshDiff allAcks { display with gram := picture })
        ((showing rest).map Call.event) := by
  simp only [showing, List.flatMap_cons, List.map_append, run, List.foldl_append, List.map_cons,
    List.map_nil, Call.event, List.foldl_cons, List.foldl_nil, DisplayRefresh.step]

/-- Pictures are shown one after the other. -/
theorem pictures_mirrored (pictures : List Gram) {display : Display}
    (mirrored : Mirrored display) :
    (run DisplayRefresh.step display ((showing pictures).map Call.event)).panel =
      pictures.getLastD display.panel := by
  induction pictures generalizing display with
  | nil => rfl
  | cons picture rest inductionHypothesis =>
    have skipped : ∀ page, picture page = display.old page →
        display.panel page = picture page :=
      fun page same => (congrFun mirrored.panel page).trans same.symm
    obtain ⟨still, shown⟩ := picture_mirrored picture mirrored.fine skipped
    rw [run_showing, inductionHypothesis still, shown, List.getLastD_cons]

/-- Along every sequence of pictures, the first of which leaves no page blank that the logo does
not, the memory of the controller is the picture that was shown last. -/
theorem pictures_on_wires (device : Nat → Bool) (pins : Pins) (idle : Idle pins) (start : Chip)
    (cursor : Page) (first : Gram) (pictures : List Gram)
    (drawn : ∀ page, first page = (fun _ => 0) → logoGram page = fun _ => 0)
    (listens : Listens device pins.clocks (initSends ++ sendsOf (started start pins cursor)
      (showing (first :: pictures)))) (oled : Oled)
    (reached : oled = run (call device) (oledInit device pins) (showing (first :: pictures))) :
    (chipOf start oled.pins).panel = pictures.getLastD first ∧
      (chipOf start oled.pins).lit = true := by
  subst reached
  obtain ⟨old, shown, fine⟩ := started_display start pins cursor
  obtain ⟨matched, later⟩ := init_matches idle start cursor listens
  have after := calls_match (showing (first :: pictures)) matched later
  generalize started start pins cursor = display at old shown fine after
  obtain ⟨mirrored, panel⟩ := picture_mirrored first fine
    (@first_picture_skipped { display with gram := first } old shown drawn)
  have last := after.panel
  rw [run_showing] at last
  exact ⟨last.trans ((pictures_mirrored pictures mirrored).trans (by rw [panel])), after.lit⟩

end Pyrometer.OledWires
