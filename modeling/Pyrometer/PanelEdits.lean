import Pyrometer.MenuNavigation

/-!
# Edits on the panel as transactions

Each item of the panel shows one object of the parameters, and says which bytes stand for
what it draws. An edit begins when SET is pressed at an item, and from then on it is known
whether the value was turned since it was loaded or stored last. A confirmation is a tick
with SET in edit mode that neither RIGHT nor the idle flag ends.

The transactions are stated on whole ticks: on what the items have drawn when the key events
are handled, and on the instrument before and after the tick. Saving a group also writes
the magic and the checksum words.
-/

namespace Pyrometer.PanelEdits

open ByteMemory BinaryFloats CText CommandTable ParameterLayout ParameterManager InstrumentState
open CommandExecution CommandEffects IpAddresses KeyEvents PanelItems MenuNavigation
open Runs Instrument UppParser UppLines CommandReplies SetGetAgreement Scanning ParameterLoading
open ParameterChecks DefaultParameters

/-- An object of the parameters, the bytes that stand for what is drawn, and the value that is
read from it. -/
structure Field where
  target : Target
  text : Drawn → List Byte
  value : Instrument → List Nat

/-- The field of a member, for an item that stores values in this form. -/
def memberField (member : Member) (encode : Int → Nat) : Field where
  target := member.target
  text
    | .value number => leBytes member.target.size (encode number)
    | _ => []
  value instrument := [instrument.value member]

/-- The field of an address, whose value is what is scanned from its text. -/
def addressField (address : Address) : Field where
  target := ⟨.para, address.offset, 16⟩
  text
    | .segments segments => segmentText segments
    | _ => []
  value instrument := scanIp (address.text instrument.pmm.sysPara)

/-- The bytes of a field. -/
def Field.read (field : Field) (instrument : Instrument) : List Byte :=
  toList (instrument.region field.target.region) field.target.offset field.target.size

/-- The field that an item shows. `oled_show_info` and FACTORY DEFAULT show none. -/
def fieldOf : Subs → Option Field
  | .oledShowInfo => none
  | .doTempMode => some (memberField .tempMode tempModeOf)
  | .doTempUnits => some (memberField .tempUnit unitOf)
  | .doRelayMode => some (memberField .alarmRelayAlarmMode unsignedInt)
  | .doAimDevice => some (memberField .videoControl unsignedInt)
  | .doFactDefault => none
  | .doSlope => some (memberField .tempSlope unscaled)
  | .doEmissivity => some (memberField .tempEmissivity unscaled)
  | .doTransmissivityLow => some (memberField .tempTransNb unscaled)
  | .doTransmissivityHigh => some (memberField .tempTransWb unscaled)
  | .doTempFiltSize => some (memberField .filterTempFilterBufSize unsignedInt)
  | .doBaudRate => some (memberField .portBaudrate baudrateOf)
  | .doMultiAddr => some (memberField .devAddr unsignedInt)
  | .doLocalIp => some (addressField .ipAddr)
  | .doEthGw => some (addressField .gateway)
  | .doEthNm => some (addressField .netMask)
  | .doEthPort => some (memberField .netPort unsignedInt)
  | .doAnalogMode => some (memberField .anaType analogTypeOf)
  | .doAnalogOutLow => some (memberField .anaLower single.ofInt)
  | .doAnalogOutHigh => some (memberField .anaUpper single.ofInt)

/-- The measuring mode is edited only when it is one of the two that the item shows. -/
def accepts (instrument : Instrument) (subs : Subs) : Prop :=
  subs = .doTempMode → instrument.value .tempMode = 1 ∨ instrument.value .tempMode = 2

/-- Only a field and the words of a save have changed, and the field is what was drawn. -/
structure Committed (field : Field) (drawn : Drawn) (before after : Instrument) : Prop where
  only : Confined (field.target :: sealed) before after
  bytes : field.read after = field.text drawn

/-- What is stored through a member and saved is committed. -/
theorem stored_committed {member : Member} (apart : Apart sealed member.target) (group : ParaType)
    (encode : Int → Nat) (value : Int) (instrument : Instrument) :
    Committed (memberField member encode) (.value value) instrument
      (stored member group encode value instrument) where
  only := confined_trans (confined_mono (by simp [memberField]) (confined_put instrument member _))
    (confined_mono (List.subset_cons_self _ _) (confined_save _ group))
  bytes := (bytes_kept (confined_save _ group) apart).trans (put_bytes instrument member _)

/-- What changes no structure further is committed all the same. -/
theorem committed_same {field : Field} {drawn : Drawn} {before between after : Instrument}
    (committed : Committed field drawn before between)
    (para : after.pmm.sysPara = between.pmm.sysPara) (state : after.sysState = between.sysState) :
    Committed field drawn before after where
  only := confined_trans committed.only (confined_same para state)
  bytes := by
    have same : ∀ region, after.region region = between.region region := by
      intro region
      cases region with
      | para => exact para
      | state => exact state
    rw [Field.read, same]
    exact committed.bytes

/-- A rate on the panel is a number of 32 bits. -/
theorem value_put_baudrate (value : Int) (instrument : Instrument) :
    (instrument.put .portBaudrate (baudrateOf value)).value .portBaudrate = baudrateOf value := by
  have bound : baudrateOf value < 256 ^ Member.portBaudrate.target.size := by
    have positive : (0 : Int) < 2 ^ 32 := by decide
    have low := Int.emod_nonneg (value * 100) (ne_of_gt positive)
    have high := Int.emod_lt_of_pos (value * 100) positive
    change ((value * 100) % 2 ^ 32).toNat < 256 ^ 4
    omega
  rw [Instrument.value, put_bytes, little_endian_le_bytes, Nat.mod_eq_of_lt bound]

/-- A rate that the port can have is committed. -/
theorem baudrate_committed {value : Int} (valid : isValidBaudrate (baudrateOf value) = true)
    (instrument : Instrument) :
    Committed (memberField .portBaudrate baudrateOf) (.value value) instrument
      (PanelItems.doBaudRate.store value instrument) := by
  have apart : Apart sealed Member.portBaudrate.target := by decide
  have committed := stored_committed apart .port baudrateOf value instrument
  have held := value_put_baudrate value instrument
  have kept : (stored .portBaudrate .port baudrateOf value instrument).value .portBaudrate =
      baudrateOf value := (value_kept (confined_save _ .port) apart).trans held
  have whole : PanelItems.doBaudRate.store value instrument =
      pcInit (stored .portBaudrate .port baudrateOf value instrument) := by
    simp only [PanelItems.doBaudRate, held, valid, if_true, stored]
  rw [whole]
  refine committed_same committed ?_ ?_
  · simp only [pcInit, kept, valid, if_true]
  · simp only [pcInit, kept, valid, if_true]

/-- What an item stores is committed when it accepts an edit, for a rate that the port can
have. -/
theorem store_committed {subs : Subs} {setting : Setting} (page : subs.page = .setting setting)
    {field : Field} (shows : fieldOf subs = some field) {instrument : Instrument}
    (accepted : accepts instrument subs) {value : Int}
    (valid : subs = .doBaudRate → isValidBaudrate (baudrateOf value) = true) :
    Committed field (.value value) instrument (setting.store value instrument) := by
  cases subs
  case doTempMode =>
    obtain rfl := Page.setting.inj page
    obtain rfl := Option.some.inj shows
    rw [show PanelItems.doTempMode.store value instrument =
      stored .tempMode .temp tempModeOf value instrument from if_pos (accepted rfl)]
    exact stored_committed (by decide) _ _ _ _
  case doBaudRate =>
    obtain rfl := Page.setting.inj page
    obtain rfl := Option.some.inj shows
    exact baudrate_committed (valid rfl) instrument
  case oledShowInfo => cases shows
  case doFactDefault => cases shows
  case doLocalIp => cases page
  case doEthGw => cases page
  case doEthNm => cases page
  all_goals
    obtain rfl := Page.setting.inj page
    obtain rfl := Option.some.inj shows
    exact stored_committed (by decide) _ _ _ _

/-- A byte in three digits. -/
def group (segment : Byte) : List Byte := zeroPadded 3 (decimal segment.toNat)

/-- Three digits write their byte. -/
theorem group_value : ∀ segment : Byte,
    (group segment).length = 3 ∧ decValue (group segment) = segment.toNat := by
  decide +kernel

/-- They are a group of an address. -/
theorem group_group (segment : Byte) : Group (group segment) where
  nonempty := by
    intro empty
    have length := (group_value segment).1
    rw [empty] at length
    cases length
  short := (group_value segment).1.le
  digit := zero_padded_digits 3 segment.toNat
  small := (group_value segment).2 ▸ Nat.le_of_lt_succ segment.isLt

/-- Four bytes as they are written. -/
theorem segment_text (one two three four : Byte) :
    segmentText [one, two, three, four] = (group one ++ point :: (group two ++ point ::
      (group three ++ point :: group four))) ++ [0] := by
  simp [segmentText, group, List.intercalate]

/-- The written text takes up the whole member. -/
theorem segment_text_length {segments : List Byte} (four : segments.length = 4) :
    (segmentText segments).length = 16 := by
  obtain ⟨one, two, three, last, rfl⟩ := List.length_eq_four.mp four
  rw [segment_text]
  simp only [List.length_append, List.length_cons, List.length_nil, (group_value _).1]

/-- A stored address is committed. -/
theorem address_committed (address : Address) {segments : List Byte} (four : segments.length = 4)
    (instrument : Instrument) :
    Committed (addressField address) (.segments segments) instrument
      (storedAddress address segments instrument) := by
  have length := segment_text_length four
  have apart : Apart sealed (addressField address).target := by cases address <;> decide
  have written := confined_store instrument address.offset (segmentText segments) .para
  have read := store_read instrument address.offset (segmentText segments) .para
  rw [length] at written read
  refine ⟨confined_trans (confined_mono ?_ written)
    (confined_mono (List.subset_cons_self _ _) (confined_save _ .net)), ?_⟩
  · simp [addressField]
  · refine (to_list_congr (fun place low high => ?_)).trans read
    exact confined_save _ .net _ _ (apart_outside apart low high)

/-- A text that an item has written is scanned as its bytes. -/
theorem address_value {address : Address} {instrument : Instrument} {segments : List Byte}
    (four : segments.length = 4)
    (written : (addressField address).read instrument = segmentText segments) :
    (addressField address).value instrument = segments.map BitVec.toNat := by
  obtain ⟨one, two, three, last, rfl⟩ := List.length_eq_four.mp four
  have quad : Quad (group one ++ point :: (group two ++ point ::
      (group three ++ point :: group last))) (group one) (group two) (group three) (group last) :=
    ⟨group_group one, group_group two, group_group three, group_group last, rfl⟩
  have text : address.text instrument.pmm.sysPara = group one ++ point :: (group two ++ point ::
      (group three ++ point :: group last)) := by
    have length := segment_text_length four
    rw [segment_text] at written length
    refine string_at_placed ?_ ?_ ?_
    · rw [length]
      exact written
    · have digit : ∀ segment : Byte, 0 ∉ group segment := fun segment zero =>
        absurd ((group_group segment).digit 0 zero) (by decide)
      simp only [List.mem_append, List.mem_cons, digit, point]
      decide
    · rw [length]
      cases address <;> decide
  change scanIp (address.text instrument.pmm.sysPara) = _
  rw [text, scan_ip_quad quad]
  simp only [List.map_cons, List.map_nil, (group_value _).2]

/-- Four bytes that are scanned are the numbers of the address. -/
theorem scanned_segments {address : Address} {instrument : Instrument} {segments : List Byte}
    (four : segments.length = 4)
    (reading : (addressField address).value instrument = segments.map BitVec.toNat)
    {old : List Nat} (oldFour : old.length = 4) :
    (scanned address instrument old).map (BitVec.ofNat 8) = segments := by
  have text : scanIp (address.text instrument.pmm.sysPara) = segments.map BitVec.toNat := reading
  have empty : old.drop 4 = [] := List.drop_eq_nil_of_le oldFour.le
  have back : BitVec.ofNat 8 ∘ BitVec.toNat = (id : Byte → Byte) := by
    funext segment
    exact BitVec.ofNat_toNat 8 segment |>.trans (BitVec.setWidth_eq segment)
  simp only [scanned, text, List.length_map, four, empty, List.append_nil, List.map_map, back,
    List.map_id]

/-- A scan keeps four numbers four. -/
theorem scanned_four (address : Address) (instrument : Instrument) {old : List Nat}
    (four : old.length = 4) : (scanned address instrument old).length = 4 := by
  have most : (scanIp (address.text instrument.pmm.sysPara)).length ≤ 4 := by
    rw [scanIp, List.length_map]
    exact scanf_length_le ipFormat _
  simp only [scanned, List.length_append, List.length_drop, four]
  omega

/-- A second scan of the same text finds the same numbers. -/
theorem scanned_again (address : Address) (instrument : Instrument) (old : List Nat) :
    scanned address instrument (scanned address instrument old) =
      scanned address instrument old := by
  simp only [scanned, List.drop_left]

/-- What an item would draw of the value that it holds. -/
def current (subs : Subs) (editing : Editing) : Drawn :=
  match subs.page with
  | .info => .nothing
  | .setting _ => .value editing.disValue
  | .address address => .segments ((editing.ipconfigValue address).map (BitVec.ofNat 8))

/-- The value that a confirmation comes to, turned in the same tick or not. -/
def confirmedValue (setting : Setting) (panel : Panel) (input : Input) : Int :=
  if (increment input).isSome then
    setting.turned panel.editing.instrument panel.editing.disValue
      (editKeys input panel.editing).setValue
  else panel.editing.disValue

/-- SET is pressed in edit mode, and the edit goes on to it. -/
def Confirms (panel : Panel) (input : Input) : Prop :=
  panel.nav.menuMode = .edit ∧ input.keyIdleFlag ≠ 1 ∧ input.short .right = false ∧
    input.short .set = true

/-- What the value of an edit has come from. -/
inductive Touch where
  | loaded
  | turned
  | saved
deriving DecidableEq

/-- The value after a tick: outside edit mode it is loaded, UP and DOWN turn it, and a
confirmation saves it. -/
def nextTouch (panel : Panel) (input : Input) (touch : Touch) : Touch :=
  if panel.nav.menuMode = .edit ∧ input.keyIdleFlag ≠ 1 ∧ input.short .right = false then
    if input.short .set then .saved
    else if (increment input).isSome then .turned else touch
  else .loaded

/-- What an item has loaded stands for the value that is there: written back it gives the same
bytes, or it is an address of four bytes. -/
def WritesBack (subs : Subs) (instrument : Instrument) : Prop :=
  match subs.page with
  | .info => True
  | .setting setting => accepts instrument subs → ∀ field, fieldOf subs = some field →
      field.text (.value (setting.load instrument)) = field.read instrument
  | .address address => ∃ segments : List Byte, segments.length = 4 ∧
      (addressField address).value instrument = segments.map BitVec.toNat

/-- What a confirmation must avoid, beside what every tick must: an item without a value, FACTORY
DEFAULT without YES, a rate that the port cannot have, a turn in the same tick at an item that
draws first, and a value that was not turned and does not stand for the one that is there. -/
structure CarefulConfirmation (touch : Touch) (panel : Panel) (input : Input) (subs : Subs) :
    Prop where
  valued : subs ≠ .oledShowInfo
  yes : ∀ setting, subs.page = .setting setting → subs = .doFactDefault →
    confirmedValue setting panel input = 1
  rate : ∀ setting, subs.page = .setting setting → subs = .doBaudRate →
    isValidBaudrate (baudrateOf (confirmedValue setting panel input)) = true
  drawnFirst : ∀ setting, subs.page = .setting setting → setting.drawsFirst = true →
    confirmedValue setting panel input = panel.editing.disValue
  back : touch = .loaded → (increment input).isSome = false →
    WritesBack subs panel.editing.instrument

/-- A tick whose accesses are allowed for and whose confirmation avoids all that. -/
structure CarefulEdit (touch : Touch) (panel : Panel) (input : Input) : Prop where
  menu : Careful panel input
  confirmation : Confirms panel input → ∀ item, panel.nav.item = .ok item →
    CarefulConfirmation touch panel input item.subs

/-- The law of edits for a tick: without a confirmation the instrument is kept; with one the
field of the item is what the item has drawn, unless the item refuses the edit, and nothing else
changes; a value that was not turned stays what it is; and FACTORY DEFAULT restores the
defaults only with YES drawn. -/
structure Transaction (touch : Touch) (panel : Panel) (input : Input) (drawn : Drawn)
    (after : Instrument) : Prop where
  quiet : ¬Confirms panel input → after = panel.editing.instrument
  commits : Confirms panel input → ∀ item, panel.nav.item = .ok item →
    ∀ field, fieldOf item.subs = some field → accepts panel.editing.instrument item.subs →
      Committed field drawn panel.editing.instrument after
  refuses : Confirms panel input → ∀ item, panel.nav.item = .ok item →
    ¬accepts panel.editing.instrument item.subs → after = panel.editing.instrument
  untouched : Confirms panel input → touch ≠ .turned → (increment input).isSome = false →
    ∀ item, panel.nav.item = .ok item → ∀ field, fieldOf item.subs = some field →
      field.value after = field.value panel.editing.instrument
  defaults : Confirms panel input → ∀ item, panel.nav.item = .ok item → fieldOf item.subs = none →
    after = panel.editing.instrument ∨
      (item.subs = .doFactDefault ∧ drawn = .value 1 ∧ after = { panel.editing.instrument with
        pmm := pmmRestoreToDefault panel.editing.instrument.pmm })

/-- What is known of the value of an edit. -/
structure Holds (touch : Touch) (subs : Subs) (editing : Editing) : Prop where
  setting : touch = .loaded → ∀ setting, subs.page = .setting setting →
    editing.disValue = setting.load editing.instrument
  address : touch = .loaded → ∀ address, subs.page = .address address →
    editing.ipconfigValue address =
      scanned address editing.instrument (editing.ipconfigValue address)
  saved : touch = .saved → accepts editing.instrument subs → ∀ field, fieldOf subs = some field →
    field.read editing.instrument = field.text (current subs editing)

/-- A panel between two ticks. -/
structure Settled (touch : Touch) (panel : Panel) : Prop where
  safe : Safe panel
  idle : panel.editing.cfgStates = false
  steady : panel.nav.menuMode = .guide → panel.nav.isBlinking = false
  blinks : panel.nav.menuMode = .edit → panel.nav.mainPageId ≠ 0 → panel.nav.isBlinking = true
  four : ∀ address, (panel.editing.ipconfigValue address).length = 4
  value : panel.nav.menuMode = .edit → panel.nav.mainPageId ≠ 0 → ∀ item,
    panel.nav.item = .ok item → Holds touch item.subs panel.editing

/-- What is known of the value stays known as long as it and the instrument are the same. -/
theorem holds_congr {touch : Touch} {subs : Subs} {before after : Editing}
    (holds : Holds touch subs before) (instrument : after.instrument = before.instrument)
    (value : after.disValue = before.disValue)
    (numbers : after.ipconfigValue = before.ipconfigValue) : Holds touch subs after := by
  have same : current subs after = current subs before := by
    unfold current
    split <;> simp only [value, numbers]
  refine ⟨fun loaded setting page => ?_, fun loaded address page => ?_,
    fun saved accepted field shows => ?_⟩
  · rw [value, instrument]
    exact holds.setting loaded setting page
  · rw [numbers, instrument]
    exact holds.address loaded address page
  · rw [instrument] at accepted ⊢
    rw [same]
    exact holds.saved saved accepted field shows

/-- Every call keeps four numbers of each address. -/
theorem call_four {subs : Subs} {isBlinking : Bool} {index : Nat} {editing after : Editing}
    (called : subs.call isBlinking index editing = .ok after)
    (four : ∀ address, (editing.ipconfigValue address).length = 4) (address : Address) :
    (after.ipconfigValue address).length = 4 := by
  unfold Subs.call at called
  cases page : subs.page with
  | info =>
    rw [page] at called
    cases called
    exact four address
  | setting setting =>
    rw [page] at called
    cases called
    exact four address
  | address edited =>
    rw [page] at called
    obtain ⟨numbers, rfl, length, _⟩ := address_pass_finishes called
    change (if address = edited then numbers else editing.ipconfigValue address).length = 4
    split_ifs
    · rw [length, addressNumbers]
      split_ifs
      · exact four edited
      · exact scanned_four edited _ (four edited)
    · exact four address

/-- A call in a blinking edit that turns nothing keeps the value. -/
theorem call_steady {subs : Subs} {index : Nat} {editing after : Editing}
    (called : subs.call true index editing = .ok after) (unturned : editing.setStates = false) :
    after.disValue = editing.disValue ∧ after.ipconfigValue = editing.ipconfigValue := by
  unfold Subs.call at called
  cases page : subs.page with
  | info =>
    rw [page] at called
    cases called
    exact ⟨rfl, rfl⟩
  | setting setting =>
    rw [page] at called
    cases called
    simp only [Setting.pass, unturned, if_true, Bool.false_eq_true, if_false, and_self]
  | address edited =>
    rw [page] at called
    obtain ⟨numbers, rfl, _, same⟩ := address_pass_finishes called
    refine ⟨rfl, funext (fun address => ?_)⟩
    change (if address = edited then numbers else editing.ipconfigValue address) =
      editing.ipconfigValue address
    split_ifs with own
    · rw [same unturned, own]
      rfl
    · rfl

/-- A call outside an edit loads the value. -/
theorem call_loads {subs : Subs} {index : Nat} {editing after : Editing}
    (called : subs.call false index editing = .ok after) (unturned : editing.setStates = false)
    (idle : editing.cfgStates = false) : Holds .loaded subs after := by
  have kept := call_instrument called idle
  unfold Subs.call at called
  refine ⟨fun _ setting page => ?_, fun _ address page => ?_, fun saved => by cases saved⟩
  · rw [page] at called
    cases called
    simp only [Setting.pass, unturned, idle, Bool.false_eq_true, if_false]
  · rw [page] at called
    obtain ⟨numbers, rfl, _, same⟩ := address_pass_finishes called
    rw [kept]
    have scan : numbers = scanned address editing.instrument (editing.ipconfigValue address) :=
      same unturned
    change (if address = address then numbers else _) = scanned address editing.instrument
      (if address = address then numbers else _)
    rw [if_pos rfl, scan, scanned_again]

/-- UP and DOWN ask for a turn and change nothing else that is stored or drawn. -/
theorem edit_keys_kept (input : Input) (editing : Editing) :
    (editKeys input editing).setStates = ((increment input).isSome || editing.setStates) ∧
    (editKeys input editing).disValue = editing.disValue ∧
    (editKeys input editing).ipconfigValue = editing.ipconfigValue ∧
    (editKeys input editing).instrument = editing.instrument ∧
    (editKeys input editing).cfgStates = editing.cfgStates := by
  rw [editKeys]
  cases increment input with
  | none => exact ⟨rfl, rfl, rfl, rfl, rfl⟩
  | some value => exact ⟨rfl, rfl, rfl, rfl, rfl⟩

/-- What the call of a confirmation does. -/
structure Stores (panel : Panel) (input : Input) (subs : Subs) (after : Editing) : Prop where
  commits : ∀ field, fieldOf subs = some field → accepts panel.editing.instrument subs →
    Committed field after.drawn panel.editing.instrument after.instrument
  drawn : after.drawn = current subs after
  refuses : ¬accepts panel.editing.instrument subs →
    after.instrument = panel.editing.instrument
  defaults : fieldOf subs = none → subs = .doFactDefault ∧ after.drawn = .value 1 ∧
    after.instrument = { panel.editing.instrument with
      pmm := pmmRestoreToDefault panel.editing.instrument.pmm }
  kept : (increment input).isSome = false → current subs after = current subs panel.editing

/-- A careful confirmation at an item of one value stores the value that it draws. -/
theorem setting_stores {touch : Touch} {panel : Panel} {input : Input} {subs : Subs}
    {setting : Setting} (page : subs.page = .setting setting)
    (careful : CarefulConfirmation touch panel input subs)
    (unturned : panel.editing.setStates = false) :
    Stores panel input subs
      (setting.pass true { editKeys input panel.editing with cfgStates := true }) := by
  obtain ⟨asked, value, _, instrument, _⟩ := edit_keys_kept input panel.editing
  rw [unturned, Bool.or_false] at asked
  have confirmed : (setting.pass true
      { editKeys input panel.editing with cfgStates := true }).disValue =
        confirmedValue setting panel input := by
    simp only [Setting.pass, if_true, asked, value, instrument, confirmedValue]
  have drawn : (setting.pass true { editKeys input panel.editing with cfgStates := true }).drawn =
      .value (confirmedValue setting panel input) := by
    cases first : setting.drawsFirst with
    | false =>
      rw [← confirmed]
      simp only [Setting.pass, first, Bool.false_eq_true, if_false]
    | true =>
      rw [careful.drawnFirst setting page first]
      simp only [Setting.pass, first, if_true, value]
  have stores : (setting.pass true
      { editKeys input panel.editing with cfgStates := true }).instrument =
        setting.store (confirmedValue setting panel input) panel.editing.instrument := by
    rw [← confirmed, ← instrument]
    simp only [Setting.pass, if_true]
  generalize setting.pass true { editKeys input panel.editing with cfgStates := true } = after at *
  have now : current subs after = .value (confirmedValue setting panel input) := by
    rw [current, page, ← confirmed]
  refine ⟨fun field shows accepted => ?_, drawn.trans now.symm, fun refused => ?_,
    fun nothing => ?_, fun unpressed => ?_⟩
  · rw [drawn, stores]
    exact store_committed page shows accepted (careful.rate setting page)
  · have mode : subs = .doTempMode := by
      by_contra other
      exact refused (fun same => absurd same other)
    subst mode
    obtain rfl := Page.setting.inj page
    rw [stores]
    exact if_neg (fun shown => refused (fun _ => shown))
  · have only : subs = .doFactDefault := by
      cases subs <;> first | rfl | exact absurd rfl careful.valued | cases nothing
    refine ⟨only, drawn.trans (congrArg _ (careful.yes setting page only)), ?_⟩
    subst only
    obtain rfl := Page.setting.inj page
    exact stores
  · rw [now, current, page]
    simp only [confirmedValue, unpressed, Bool.false_eq_true, if_false]

/-- The field of an item that edits an address. -/
theorem address_shows {subs : Subs} {address : Address} (page : subs.page = .address address)
    {field : Field} (shows : fieldOf subs = some field) : field = addressField address := by
  cases subs
  case doLocalIp =>
    cases page
    exact (Option.some.inj shows).symm
  case doEthGw =>
    cases page
    exact (Option.some.inj shows).symm
  case doEthNm =>
    cases page
    exact (Option.some.inj shows).symm
  all_goals cases page

/-- A confirmation at an address stores the numbers that it draws. -/
theorem address_stores {panel : Panel} {input : Input} {subs : Subs} {address : Address}
    (page : subs.page = .address address) (unturned : panel.editing.setStates = false)
    (four : ∀ address, (panel.editing.ipconfigValue address).length = 4) {index : Nat}
    {after : Editing} (called : addressPass address true index
      { editKeys input panel.editing with cfgStates := true } = .ok after) :
    Stores panel input subs after := by
  obtain ⟨asked, _, numbers, instrument, _⟩ := edit_keys_kept input panel.editing
  rw [unturned, Bool.or_false] at asked
  obtain ⟨edited, rfl, length, same⟩ := address_pass_finishes called
  have old : addressNumbers address true { editKeys input panel.editing with cfgStates := true } =
      panel.editing.ipconfigValue address := congrFun numbers address
  rw [old] at length same
  have stored : (finishAddress address edited
      { editKeys input panel.editing with cfgStates := true }).instrument =
        storedAddress address (edited.map (BitVec.ofNat 8)) panel.editing.instrument := by
    rw [← instrument]
    rfl
  have now : current subs (finishAddress address edited
      { editKeys input panel.editing with cfgStates := true }) =
        .segments (edited.map (BitVec.ofNat 8)) := by
    rw [current, page]
    simp only [finishAddress, if_true]
  have notMode : subs ≠ .doTempMode := by
    rintro rfl
    cases page
  refine ⟨fun field shown _ => ?_, now.symm, fun refused => ?_, fun nothing => ?_,
    fun unpressed => ?_⟩
  · rw [address_shows page shown, stored]
    exact address_committed address (by rw [List.length_map, length, four]) _
  · exact absurd (fun mode => absurd mode notMode) refused
  · cases subs
    case oledShowInfo => cases page
    case doFactDefault => cases page
    all_goals cases nothing
  · rw [now, current, page, same (asked.trans unpressed)]

/-- The same for every item with a value. -/
theorem call_stores {touch : Touch} {panel : Panel} {input : Input} {subs : Subs}
    (careful : CarefulConfirmation touch panel input subs)
    (unturned : panel.editing.setStates = false)
    (four : ∀ address, (panel.editing.ipconfigValue address).length = 4) {index : Nat}
    {after : Editing} (called : subs.call true index
      { editKeys input panel.editing with cfgStates := true } = .ok after) :
    Stores panel input subs after := by
  unfold Subs.call at called
  cases page : subs.page with
  | info => exact absurd (info_page page) careful.valued
  | setting setting =>
    rw [page] at called
    cases called
    exact setting_stores page careful unturned
  | address address =>
    rw [page] at called
    exact address_stores page unturned four called

/-- What the draw at the end of a tick keeps. -/
structure Redrawn (before after : Panel) : Prop where
  nav : after.nav = before.nav
  safe : Safe after
  instrument : after.editing.instrument = before.editing.instrument
  idle : after.editing.cfgStates = false
  four : ∀ address, (after.editing.ipconfigValue address).length = 4
  value : before.nav.isBlinking = true → before.editing.setStates = false →
    after.editing.disValue = before.editing.disValue ∧
      after.editing.ipconfigValue = before.editing.ipconfigValue

/-- The draw stores nothing, and in a blinking edit it turns only what the keys turn. -/
theorem refresh_redraws {last : Nav} {panel : Panel} (handled : Handled last panel)
    (idle : panel.editing.cfgStates = false)
    (four : ∀ address, (panel.editing.ipconfigValue address).length = 4) :
    ∃ after, refresh last panel = .ok after ∧ Redrawn panel after := by
  obtain ⟨after, run, safe⟩ := refresh_safe handled
  refine ⟨after, run, ?_⟩
  rcases refresh_draws handled with ⟨_, drawn⟩ | ⟨_, item, editing, _, called, drawn⟩
  · cases run.symm.trans drawn
    exact ⟨rfl, safe, rfl, idle, four, fun _ _ => ⟨rfl, rfl⟩⟩
  · cases run.symm.trans drawn
    have still : (beforeDraw last panel).cfgStates = false := idle
    have kept : editing.instrument = (beforeDraw last panel).instrument :=
      call_instrument called still
    refine ⟨rfl, safe, kept, (call_requests called).2.2 still, call_four called four,
      fun blinks unturned => ?_⟩
    rw [blinks] at called
    have before : (beforeDraw last panel).setStates = false := by
      simp only [beforeDraw, unturned, Bool.false_and]
    have same := call_steady called before
    exact same

/-- What is left to show of a tick once its key events are handled. -/
structure Ready (touch : Touch) (panel : Panel) : Prop where
  idle : panel.editing.cfgStates = false
  four : ∀ address, (panel.editing.ipconfigValue address).length = 4
  steady : panel.nav.menuMode = .guide → panel.nav.isBlinking = false
  blinks : panel.nav.menuMode = .edit → panel.nav.mainPageId ≠ 0 → panel.nav.isBlinking = true
  value : panel.nav.menuMode = .edit → panel.nav.mainPageId ≠ 0 → touch ≠ .turned →
    panel.editing.setStates = false ∧ ∀ item, panel.nav.item = .ok item →
      Holds touch item.subs panel.editing

/-- The draw settles the panel. -/
theorem ready_settled {last : Nav} {touch : Touch} {panel : Panel} (handled : Handled last panel)
    (ready : Ready touch panel) :
    ∃ after, refresh last panel = .ok after ∧ Settled touch after ∧
      after.editing.instrument = panel.editing.instrument := by
  obtain ⟨after, run, redrawn⟩ := refresh_redraws handled ready.idle ready.four
  refine ⟨after, run, ?_, redrawn.instrument⟩
  have nav := redrawn.nav
  refine ⟨redrawn.safe, redrawn.idle, nav ▸ ready.steady, nav ▸ ready.blinks, redrawn.four, ?_⟩
  intro edits page item found
  rw [nav] at edits page found
  by_cases turned : touch = .turned
  · subst turned
    exact ⟨(by rintro ⟨⟩), (by rintro ⟨⟩), (by rintro ⟨⟩)⟩
  · obtain ⟨unturned, holds⟩ := ready.value edits page turned
    obtain ⟨value, numbers⟩ := redrawn.value (ready.blinks edits page) unturned
    exact holds_congr (holds item found) redrawn.instrument value numbers

/-- Outside edit mode the value is loaded. -/
theorem next_touch_outside {panel : Panel} {input : Input} (touch : Touch)
    (outside : panel.nav.menuMode = .guide ∨ input.keyIdleFlag = 1) :
    nextTouch panel input touch = .loaded := by
  refine if_neg (fun edits => ?_)
  rcases outside with guided | idle
  · exact absurd (guided.symm.trans edits.1) (by decide)
  · exact edits.2.1 idle

/-- A confirmation that avoids what it must is not at the first menu, and it finds nothing to turn
but what its own keys turn. -/
theorem confirmation_page {touch : Touch} {panel : Panel} (settled : Settled touch panel)
    {input : Input} {item : MenuItem} (found : panel.nav.item = .ok item)
    (careful : CarefulConfirmation touch panel input item.subs) :
    panel.nav.mainPageId ≠ 0 ∧ 0 < item.paraNum ∧ panel.editing.setStates = false := by
  have listed := item_listed settled.safe.main found
  have page : panel.nav.mainPageId ≠ 0 := fun first =>
    careful.valued ((menu_items _ settled.safe.main item listed).1 first).1
  exact ⟨page, ((menu_items _ settled.safe.main item listed).2.1 page).2,
    settled.safe.unturned page⟩

/-- What the call of a confirmation does in a settled panel. -/
theorem confirmation_stores {touch : Touch} {panel : Panel} (settled : Settled touch panel)
    {input : Input} (mode : panel.nav.menuMode = .edit) {item : MenuItem}
    (found : panel.nav.item = .ok item)
    (careful : CarefulConfirmation touch panel input item.subs) {index : Nat} {after : Editing}
    (called : item.subs.call panel.nav.isBlinking index
      { editKeys input panel.editing with cfgStates := true } = .ok after) :
    Stores panel input item.subs after := by
  obtain ⟨page, _, unturned⟩ := confirmation_page settled found careful
  rw [settled.blinks mode page] at called
  exact call_stores careful unturned settled.four called

/-- An edit that is left does not blink. -/
theorem after_field_guide {nav : Nav} (mode : nav.menuMode = .edit)
    (fields : 0 < nav.currentParaNum) (guided : nav.afterField.menuMode = .guide) :
    nav.afterField.isBlinking = false := by
  by_cases last : nav.currentParaIndex = nav.currentParaNum
  · rw [Nav.afterField, if_pos last]
    change (nav.isBlinking && nav.currentParaNum == 0) = false
    rw [beq_eq_false_iff_ne.mpr (ne_of_gt fields), Bool.and_false]
  · rw [Nav.afterField, if_neg last] at guided
    exact absurd (mode.symm.trans guided) (by decide)

/-- The same bytes of a member are the same value. -/
theorem setting_value {subs : Subs} {setting : Setting} (page : subs.page = .setting setting)
    {field : Field} (shows : fieldOf subs = some field) {before after : Instrument}
    (same : field.read after = field.read before) : field.value after = field.value before := by
  have member : ∃ member encode, field = memberField member encode := by
    cases subs
    case oledShowInfo => cases shows
    case doFactDefault => cases shows
    case doLocalIp => cases page
    case doEthGw => cases page
    case doEthNm => cases page
    all_goals exact ⟨_, _, (Option.some.inj shows).symm⟩
  obtain ⟨member, encode, rfl⟩ := member
  exact congrArg (fun bytes => [littleEndian bytes]) same

/-- A value that was not turned is stored as it was. -/
theorem unturned_kept {touch : Touch} {panel : Panel} {input : Input} {subs : Subs}
    {after : Editing} (stores : Stores panel input subs after)
    (holds : Holds touch subs panel.editing) (unturned : touch ≠ .turned)
    (unpressed : (increment input).isSome = false)
    (back : touch = .loaded → WritesBack subs panel.editing.instrument)
    (four : ∀ address, (panel.editing.ipconfigValue address).length = 4) (field : Field)
    (shows : fieldOf subs = some field) :
    field.value after.instrument = field.value panel.editing.instrument := by
  by_cases accepted : accepts panel.editing.instrument subs
  · have written : field.read after.instrument = field.text (current subs panel.editing) := by
      rw [(stores.commits field shows accepted).bytes, stores.drawn, stores.kept unpressed]
    unfold WritesBack at back
    unfold current at written
    cases page : subs.page with
    | info =>
      obtain rfl := info_page page
      cases shows
    | setting setting =>
      rw [page] at back written
      refine setting_value page shows (written.trans ?_)
      cases touch with
      | turned => exact absurd rfl unturned
      | loaded =>
        simp only [holds.setting rfl setting page]
        exact back rfl accepted field shows
      | saved =>
        have saved := holds.saved rfl accepted field shows
        simp only [current, page] at saved
        exact saved.symm
    | address address =>
      rw [page] at back written
      obtain rfl := address_shows page shows
      have count : ((panel.editing.ipconfigValue address).map (BitVec.ofNat 8)).length = 4 := by
        rw [List.length_map, four]
      rw [address_value count written]
      cases touch with
      | turned => exact absurd rfl unturned
      | loaded =>
        obtain ⟨segments, length, reading⟩ := back rfl
        rw [holds.address rfl address page, scanned_segments length reading (four address)]
        exact reading.symm
      | saved =>
        have saved := holds.saved rfl accepted _ shows
        simp only [current, page] at saved
        exact (address_value count saved).symm
  · rw [stores.refuses accepted]

/-- Each step leaves the panel ready for the draw. -/
theorem step_ready {touch : Touch} {panel : Panel} (settled : Settled touch panel) {input : Input}
    (careful : CarefulEdit touch panel input) {handled : Panel} (step : Step panel input handled) :
    Ready (nextTouch panel input touch) handled := by
  cases step with
  | roamed nav main sub mode outside steady =>
    have guided : nav.menuMode ≠ .edit := fun edits => absurd (mode.symm.trans edits) (by decide)
    exact ⟨settled.idle, settled.four, fun _ => steady settled.steady,
      fun edits => absurd edits guided, fun edits => absurd edits guided⟩
  | entered nav item after main sub mode opened index outside steady unturned found called =>
    refine ⟨(call_requests called).2.2 settled.idle, call_four called settled.four,
      fun guided => absurd (mode.symm.trans guided) (by decide), fun _ page => ?_,
      fun _ _ _ => ⟨(call_requests called).2.1 unturned, fun other foundOther => ?_⟩⟩
    · change (nav.isBlinking || nav.mainPageId != 0) = true
      rw [bne_iff_ne.mpr page, Bool.or_true]
    · cases found.symm.trans foundOther
      rw [steady settled.steady] at called
      rw [next_touch_outside touch outside]
      exact call_loads called unturned settled.idle
  | left mode awake right =>
    exact ⟨settled.idle, settled.four, fun _ => rfl, (by rintro ⟨⟩), (by rintro ⟨⟩)⟩
  | turned mode awake right set =>
    obtain ⟨asked, value, numbers, instrument, idle⟩ := edit_keys_kept input panel.editing
    refine ⟨idle.trans settled.idle, fun address => ?_, settled.steady, settled.blinks,
      fun _ page unturned => ?_⟩
    · rw [numbers]
      exact settled.four address
    · have same : nextTouch panel input touch =
          if (increment input).isSome then .turned else touch := by
        rw [nextTouch, if_pos ⟨mode, awake, right⟩, set]
        rfl
      have unpressed : (increment input).isSome = false := by
        by_contra pressed
        exact unturned (same.trans (if_pos (eq_true_of_ne_false pressed)))
      have before := settled.safe.unturned page
      rw [same, unpressed]
      rw [unpressed, before] at asked
      exact ⟨asked, fun item found =>
        holds_congr (settled.value mode page item found) instrument value numbers⟩
  | confirmed item after mode awake right set found called =>
    have avoided := careful.confirmation ⟨mode, awake, right, set⟩ item found
    have stores := confirmation_stores settled mode found avoided called
    obtain ⟨page, fields, _⟩ := confirmation_page settled found avoided
    obtain ⟨unasked, idle⟩ := (call_requests called).1 avoided.valued
    obtain ⟨_, num⟩ := next_field_index fields panel.nav
    obtain ⟨_, _, _, sameMode, blinks, sameItem⟩ := next_field_kept item panel.nav
    obtain ⟨_, _, _, sameItem', stays⟩ := after_field_kept (panel.nav.nextField item)
    have numbers : ∀ address,
        ((editKeys input panel.editing).ipconfigValue address).length = 4 := by
      rw [(edit_keys_kept input panel.editing).2.2.1]
      exact settled.four
    refine ⟨idle, call_four called numbers, fun guided => ?_, fun edits _ => ?_,
      fun edits _ _ => ⟨unasked, fun other foundOther => ?_⟩⟩
    · exact after_field_guide (sameMode.trans mode) (num ▸ fields) guided
    · change (panel.nav.nextField item).afterField.isBlinking = true
      rw [(stays edits).2, blinks]
      exact settled.blinks mode page
    · cases found.symm.trans ((sameItem'.trans sameItem).symm.trans foundOther)
      have saved : nextTouch panel input touch = .saved := by
        rw [nextTouch, if_pos ⟨mode, awake, right⟩, set]
        rfl
      rw [saved]
      refine ⟨(by rintro ⟨⟩), (by rintro ⟨⟩), fun _ accepted field shows => ?_⟩
      by_cases before : accepts panel.editing.instrument item.subs
      · exact (stores.commits field shows before).bytes.trans (congrArg field.text stores.drawn)
      · exact absurd (stores.refuses before ▸ accepted) before

/-- The law holds once the key events are handled. -/
theorem step_transaction {touch : Touch} {panel : Panel} (settled : Settled touch panel)
    {input : Input} (careful : CarefulEdit touch panel input) {handled : Panel}
    (step : Step panel input handled) :
    Transaction touch panel input handled.editing.drawn handled.editing.instrument := by
  have silent : ∀ {drawn after}, ¬Confirms panel input → after = panel.editing.instrument →
      Transaction touch panel input drawn after := fun noConfirmation same =>
    ⟨fun _ => same, fun confirms => absurd confirms noConfirmation,
      fun confirms => absurd confirms noConfirmation,
      fun confirms => absurd confirms noConfirmation,
      fun confirms => absurd confirms noConfirmation⟩
  have walks : panel.nav.menuMode = .guide ∨ input.keyIdleFlag = 1 → ¬Confirms panel input := by
    rintro (guided | idle) confirms
    · exact absurd (guided.symm.trans confirms.1) (by decide)
    · exact confirms.2.1 idle
  cases step with
  | roamed nav main sub mode outside steady => exact silent (walks outside) rfl
  | entered nav item after main sub mode opened index outside steady unturned found called =>
    exact silent (walks outside) (call_instrument called settled.idle)
  | left mode awake right =>
    exact silent (fun confirms => absurd (right.symm.trans confirms.2.2.1) (by decide)) rfl
  | turned mode awake right set =>
    exact silent (fun confirms => absurd (set.symm.trans confirms.2.2.2) (by decide))
      (edit_keys_kept input panel.editing).2.2.2.1
  | confirmed item after mode awake right set found called =>
    have confirms : Confirms panel input := ⟨mode, awake, right, set⟩
    have avoided := careful.confirmation confirms item found
    have stores := confirmation_stores settled mode found avoided called
    obtain ⟨page, _, _⟩ := confirmation_page settled found avoided
    have only : ∀ {other}, panel.nav.item = .ok other → other = item := by
      intro other foundOther
      cases found.symm.trans foundOther
      rfl
    refine ⟨fun nothing => absurd confirms nothing, fun _ other foundOther => ?_,
      fun _ other foundOther => ?_, fun _ unturned unpressed other foundOther => ?_,
      fun _ other foundOther nothing => ?_⟩
    · obtain rfl := only foundOther
      exact stores.commits
    · obtain rfl := only foundOther
      exact stores.refuses
    · obtain rfl := only foundOther
      exact unturned_kept stores (settled.value mode page other found) unturned unpressed
        (fun loaded => avoided.back loaded unpressed) settled.four
    · obtain rfl := only foundOther
      exact Or.inr (stores.defaults nothing)

/-- A tick that avoids what it must is a transaction and settles the panel. -/
theorem tick_transaction {touch : Touch} {panel : Panel} (settled : Settled touch panel)
    {input : Input} (careful : CarefulEdit touch panel input) :
    ∃ handled after, handle panel input = .ok handled ∧ menuNavigate panel input = .ok after ∧
      Transaction touch panel input handled.editing.drawn after.editing.instrument ∧
      Settled (nextTouch panel input touch) after := by
  obtain ⟨handled, ran, step⟩ := handle_steps settled.safe careful.menu
  obtain ⟨after, drawn, next, kept⟩ := ready_settled
    (step_handled settled.safe careful.menu step) (step_ready settled careful step)
  refine ⟨handled, after, ran, ?_, ?_, next⟩
  · rw [menuNavigate, ran]
    exact drawn
  · rw [kept]
    exact step_transaction settled careful step

/-- The panel starts settled. -/
theorem start_settled (instrument : Instrument) : Settled .loaded (start instrument) where
  safe := start_safe instrument
  idle := rfl
  steady := fun _ => rfl
  blinks := by rintro ⟨⟩
  four := fun _ => rfl
  value := by rintro ⟨⟩

/-- A tick, together with what the value of an edit has come from. -/
def watch (state : Except Fault Panel × Touch) (input : Input) : Except Fault Panel × Touch :=
  (tick state.1 input,
    match state.1 with
    | .ok panel => nextTouch panel input state.2
    | .error _ => state.2)

/-- A tick of a panel that has not failed avoids what it must. -/
def CarefulWatch (state : Except Fault Panel × Touch) (input : Input) : Prop :=
  ∀ panel, state.1 = .ok panel → CarefulEdit state.2 panel input

/-- Watching the value does not change the run. -/
theorem watch_panel (state : Except Fault Panel × Touch) (inputs : List Input) :
    (run watch state inputs).1 = run tick state.1 inputs := by
  induction inputs generalizing state with
  | nil => rfl
  | cons input rest inductionHypothesis => exact inductionHypothesis (watch state input)

/-- A run whose ticks avoid what they must leaves the panel settled. -/
theorem watch_settled (instrument : Instrument) (inputs : List Input)
    (careful : Along watch CarefulWatch (.ok (start instrument), .loaded) inputs) :
    ∃ panel, (run watch (.ok (start instrument), .loaded) inputs).1 = .ok panel ∧
      Settled (run watch (.ok (start instrument), .loaded) inputs).2 panel := by
  refine @along_invariant _ _ watch CarefulWatch
    (fun state => ∃ panel, state.1 = .ok panel ∧ Settled state.2 panel) ?_ _
    ⟨_, rfl, start_settled instrument⟩ inputs careful
  rintro ⟨state, touch⟩ input ⟨panel, same, settled⟩ avoided
  obtain rfl : state = .ok panel := same
  obtain ⟨handled, after, _, navigated, _, next⟩ := tick_transaction settled (avoided panel rfl)
  exact ⟨after, navigated, next⟩

/-- Along every run whose ticks avoid what they must, each tick is a transaction. -/
theorem panel_edits (instrument : Instrument) (inputs : List Input) (input : Input)
    (careful : Along watch CarefulWatch (.ok (start instrument), .loaded) (inputs ++ [input])) :
    ∃ panel handled after, run tick (.ok (start instrument)) inputs = .ok panel ∧
      handle panel input = .ok handled ∧ menuNavigate panel input = .ok after ∧
      Transaction (run watch (.ok (start instrument), .loaded) inputs).2 panel input
        handled.editing.drawn after.editing.instrument := by
  obtain ⟨before, ⟨avoided, _⟩⟩ := (along_append watch _ inputs [input]).mp careful
  obtain ⟨panel, same, settled⟩ := watch_settled instrument inputs before
  obtain ⟨handled, after, ran, navigated, transaction, _⟩ :=
    tick_transaction settled (avoided panel same)
  exact ⟨panel, handled, after, (watch_panel _ inputs).symm.trans same, ran, navigated, transaction⟩

/-- The keys that lead to an edit of the measuring mode and turn it. -/
def modeTurned : List Input :=
  [pressing [.right], pressing [.set], pressing [.set], pressing [.up]]

/-- A turned mode may be confirmed. -/
theorem mode_turned_careful (panel : Panel) (input : Input) :
    CarefulConfirmation .turned panel input .doTempMode where
  valued := by decide
  yes := by rintro _ _ ⟨⟩
  rate := by rintro _ _ ⟨⟩
  drawnFirst := by
    intro setting page first
    obtain rfl := Page.setting.inj page
    cases first
  back := by rintro ⟨⟩

/-- A turned mode is confirmed. -/
theorem panel_edits_mode :
    ∃ panel handled after, run tick (.ok (start defaultInstrument)) modeTurned = .ok panel ∧
      handle panel (pressing [.set]) = .ok handled ∧
      menuNavigate panel (pressing [.set]) = .ok after ∧
      Transaction (run watch (.ok (start defaultInstrument), .loaded) modeTurned).2 panel
        (pressing [.set]) handled.editing.drawn after.editing.instrument := by
  refine panel_edits defaultInstrument modeTurned (pressing [.set]) ⟨?_, ?_, ?_, ?_, ?_, True.intro⟩
  · rintro panel ⟨⟩
    exact ⟨⟨fun _ _ up => absurd up (by decide), fun _ right => absurd right (by decide)⟩,
      fun confirms => absurd confirms.2.2.2 (by decide)⟩
  · rintro panel ⟨⟩
    exact ⟨⟨fun _ right => absurd right (by decide), (by rintro ⟨⟩)⟩,
      fun confirms => by cases confirms.1⟩
  · rintro panel ⟨⟩
    exact ⟨⟨fun _ right => absurd right (by decide), (by rintro ⟨⟩)⟩,
      fun confirms => by cases confirms.1⟩
  · rintro panel ⟨⟩
    exact ⟨⟨fun _ right => absurd right (by decide), fun _ _ set => absurd set (by decide)⟩,
      fun confirms => absurd confirms.2.2.2 (by decide)⟩
  · rintro panel ⟨⟩
    refine ⟨⟨fun _ right => absurd right (by decide), ?_⟩, ?_⟩
    · rintro _ _ _ item ⟨⟩ several
      exact absurd several (by decide)
    · rintro _ item ⟨⟩
      exact mode_turned_careful _ _

/-- An instrument with an address of its own. -/
def addressed : Instrument := defaultInstrument.put .devAddr 5

/-- The keys that lead to FACTORY DEFAULT, where NO is shown. -/
def factoryDefault : List Input :=
  [pressing [.right], pressing [.set], pressing [.up], pressing [.set]]

/-- The data after the defaults were restored. -/
theorem restored_data (pmm : Pmm) : SameData (pmmRestoreToDefault pmm).sysPara sysDefPara := by
  intro address low high
  have backup := para_save_data .backup wholeMask
    (paraSaveToStorage .user wholeMask { pmm with sysPara := paraRecalculateAllCrc sysDefPara }).2
    address low high
  have user := para_save_data .user wholeMask
    { pmm with sysPara := paraRecalculateAllCrc sysDefPara } address low high
  exact (backup.trans user).trans (recalculate_data sysDefPara address low high)

/-- The default address is another one. -/
theorem addressed_differs : sysDefPara Member.devAddr.target.offset ≠
    addressed.pmm.sysPara Member.devAddr.target.offset := by
  decide

/-- The confirmation of NO draws NO and restores the defaults. -/
theorem no_confirmed : ∃ panel handled after,
    run tick (.ok (start addressed)) factoryDefault = .ok panel ∧
      handle panel (pressing [.set]) = .ok handled ∧
      menuNavigate panel (pressing [.set]) = .ok after ∧
      Confirms panel (pressing [.set]) ∧ panel.nav.item = .ok ⟨5, .doFactDefault, 1⟩ ∧
      handled.editing.drawn = .value 0 ∧ panel.editing.instrument = addressed ∧
      after.editing.instrument = { addressed with pmm := pmmRestoreToDefault addressed.pmm } :=
  ⟨_, _, _, rfl, rfl, rfl, ⟨rfl, by decide, rfl, rfl⟩, rfl, rfl, rfl, rfl⟩

/-- FACTORY DEFAULT restores the defaults with NO shown. -/
theorem defaults_without_yes :
    ¬∀ instrument inputs input, ∃ panel handled after,
      run tick (.ok (start instrument)) inputs = .ok panel ∧ handle panel input = .ok handled ∧
        menuNavigate panel input = .ok after ∧
        Transaction (run watch (.ok (start instrument), .loaded) inputs).2 panel input
          handled.editing.drawn after.editing.instrument := by
  intro all
  obtain ⟨panel, handled, after, reached, ran, navigated, transaction⟩ :=
    all addressed factoryDefault (pressing [.set])
  obtain ⟨_, _, _, reached', ran', navigated', confirms, found, drawn, before, restored⟩ :=
    no_confirmed
  cases reached.symm.trans reached'
  cases ran.symm.trans ran'
  cases navigated.symm.trans navigated'
  rcases transaction.defaults confirms _ found rfl with same | ⟨_, yes, _⟩
  · rw [before, restored] at same
    have data := restored_data addressed.pmm
    generalize pmmRestoreToDefault addressed.pmm = defaults at same data
    have unchanged : defaults = addressed.pmm := congrArg Instrument.pmm same
    rw [unchanged] at data
    exact addressed_differs (data _ (by decide) (by decide)).symm
  · cases drawn.symm.trans yes

end Pyrometer.PanelEdits
