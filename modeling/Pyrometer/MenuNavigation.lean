import Pyrometer.KeyEvents
import Pyrometer.PanelItems

/-!
# Walking through the menus of the panel

In every tick `menu_navigate` takes the pending key events one after the other and then
draws. In guide mode RIGHT goes to the next menu, DOWN and UP to another item, and SET
opens a menu or starts an edit; in edit mode UP and DOWN turn the value, and SET confirms it
and goes on to the next field. An item is looked up by its number in the menu, and a number
that the menu does not have is a fault, as is a field that an address does not have.

The number of items is read once, for the menu that is current when the tick begins.
The key events and the idle flag of a tick may be any; `key_init`, which clears the events
after a confirmation, matters only within the tick. Drawing a menu changes nothing.
-/

namespace Pyrometer.MenuNavigation

open CommandTable InstrumentState KeyEvents PanelItems Runs Instrument

/-- `menu_item_t`, without its texts and pointers. -/
structure MenuItem where
  menuCount : Nat
  subs : Subs
  paraNum : Nat

/-- `m1_infomation`. -/
def m1Infomation : List MenuItem := List.replicate 9 ⟨9, .oledShowInfo, 0⟩

/-- `m1_base_cfg`. -/
def m1BaseCfg : List MenuItem :=
  [⟨5, .doTempMode, 1⟩, ⟨5, .doTempUnits, 1⟩, ⟨5, .doRelayMode, 1⟩, ⟨5, .doAimDevice, 1⟩,
    ⟨5, .doFactDefault, 1⟩]

/-- `m1_para_cfg`. -/
def m1ParaCfg : List MenuItem :=
  [⟨5, .doSlope, 1⟩, ⟨5, .doEmissivity, 1⟩, ⟨5, .doTransmissivityLow, 1⟩,
    ⟨5, .doTransmissivityHigh, 1⟩, ⟨5, .doTempFiltSize, 1⟩]

/-- `m1_interface`. -/
def m1Interface : List MenuItem :=
  [⟨6, .doBaudRate, 1⟩, ⟨6, .doMultiAddr, 1⟩, ⟨6, .doLocalIp, 4⟩, ⟨6, .doEthGw, 4⟩,
    ⟨6, .doEthNm, 4⟩, ⟨6, .doEthPort, 1⟩]

/-- `m1_analog`. -/
def m1Analog : List MenuItem :=
  [⟨3, .doAnalogMode, 1⟩, ⟨3, .doAnalogOutLow, 1⟩, ⟨3, .doAnalogOutHigh, 1⟩]

/-- The menus below the entries of `m0_root`. -/
def sonMs : Nat → List MenuItem
  | 0 => m1Infomation
  | 1 => m1BaseCfg
  | 2 => m1ParaCfg
  | 3 => m1Interface
  | 4 => m1Analog
  | _ => []

/-- The `menu_count` of the entries of `m0_root`. -/
def rootCount : Nat := 5

/-- The `menu_count` of the menu below an entry, which its first item holds. -/
def menuCount (mainPageId : Nat) : Nat := ((sonMs mainPageId).head?.map MenuItem.menuCount).getD 0

/-- `menu_mode`. -/
inductive MenuMode where
  | guide
  | edit
deriving DecidableEq

/-- What the navigator keeps. The entry of `m0_root` at `current_menu` is that of the main
page. -/
structure Nav where
  mainPageId : Nat
  subPageId : Nat
  isMenu : Bool
  menuMode : MenuMode
  isBlinking : Bool
  paraIndex : Nat → Nat → Nat
  currentParaIndex : Nat
  currentParaNum : Nat

/-- The navigator and what the items share. -/
structure Panel where
  nav : Nav
  editing : Editing

/-- What a tick finds: the idle flag, the pending events, and the steps of long ones. -/
structure Input where
  keyIdleFlag : Nat
  short : Key → Bool
  long : Key → Bool
  stepValue : Key → Int

namespace Nav

/-- The item at `son_ms[sub_page_id]`. -/
def item (nav : Nav) : Except Fault MenuItem :=
  if nav.subPageId < menuCount nav.mainPageId then
    .ok ((sonMs nav.mainPageId).getD nav.subPageId ⟨0, .oledShowInfo, 0⟩)
  else .error .outsideMenu

/-- The resets for an idle panel. -/
def idleReset (keyIdleFlag : Nat) (nav : Nav) : Nav :=
  if keyIdleFlag = 1 then
    { nav with mainPageId := 0, subPageId := 0, isBlinking := false, isMenu := false,
               menuMode := .guide }
  else if keyIdleFlag = 2 ∧ nav.isMenu = true then
    { nav with mainPageId := nav.mainPageId % rootCount, subPageId := 0, isMenu := false,
               isBlinking := false }
  else nav

/-- The `para_index` of the current item. -/
def itemIndex (nav : Nav) : Nat := nav.paraIndex nav.mainPageId nav.subPageId

/-- The `para_index` of the current item is assigned. -/
def withItemIndex (index : Nat) (nav : Nav) : Nav :=
  { nav with paraIndex := fun main sub =>
      if main = nav.mainPageId ∧ sub = nav.subPageId then index else nav.paraIndex main sub }

/-- The start of a tick in guide mode. -/
def atItem (item : MenuItem) (nav : Nav) : Nav :=
  { nav.withItemIndex 0 with currentParaNum := item.paraNum, currentParaIndex := 0 }

/-- RIGHT: the next menu. -/
def nextMenu (nav : Nav) : Nav :=
  { nav with mainPageId := (nav.mainPageId + 1) % rootCount, subPageId := 0, isMenu := true,
             isBlinking := false }

/-- A menu is opened at its first item. -/
def openMenu (nav : Nav) : Nav :=
  { nav with mainPageId := nav.mainPageId % rootCount, subPageId := 0, isMenu := false }

/-- DOWN: the next item, or the first one of the menu that is opened. -/
def itemDown (count : Nat) (nav : Nav) : Nav :=
  let nav := { nav with subPageId := if nav.subPageId + 1 < count then nav.subPageId + 1 else 0 }
  if nav.isMenu then nav.openMenu else nav

/-- UP: the item before. -/
def itemUp (count : Nat) (nav : Nav) : Nav :=
  { nav with subPageId :=
      if 0 < nav.subPageId then nav.subPageId - 1
      else if 0 < count then count - 1 else nav.subPageId }

/-- RIGHT, DOWN and UP in guide mode. -/
def guideKeys (count : Nat) (input : Input) (nav : Nav) : Nav :=
  let nav := if input.short .right then nav.nextMenu else nav
  let nav := if input.short .down then nav.itemDown count else nav
  if input.short .up then nav.itemUp count else nav

/-- SET in edit mode goes on to the next field. -/
def nextField (item : MenuItem) (nav : Nav) : Nav :=
  if 0 < item.paraNum then
    { nav.withItemIndex (nav.itemIndex + 1) with
      currentParaNum := item.paraNum, currentParaIndex := nav.itemIndex + 1 }
  else { nav with currentParaNum := item.paraNum, currentParaIndex := nav.itemIndex }

/-- After the last field SET leaves edit mode. -/
def afterField (nav : Nav) : Nav :=
  if nav.currentParaIndex = nav.currentParaNum then
    { nav with menuMode := .guide, isBlinking := nav.isBlinking && nav.currentParaNum == 0 }
  else nav

end Nav

/-- The increment that the events of a tick come to: of several the last one in the order of
the code counts. -/
def increment (input : Input) : Option Int :=
  if input.long .down then some (-input.stepValue .down)
  else if input.short .down then some (-1)
  else if input.long .up then some (input.stepValue .up)
  else if input.short .up then some 1
  else none

/-- UP and DOWN in edit mode. -/
def editKeys (input : Input) (editing : Editing) : Editing :=
  match increment input with
  | none => editing
  | some value => { editing with setValue := Int.bmod value (2 ^ 8), setStates := true }

/-- A call of the current item. -/
def call (panel : Panel) : Except Fault Panel := do
  let item ← panel.nav.item
  let editing ← item.subs.call panel.nav.isBlinking panel.nav.currentParaIndex panel.editing
  return { panel with editing := editing }

/-- The parameter `panel_lock` does not lock the panel. -/
def panelUnlocked (panel : Panel) : Bool := panel.editing.instrument.value .devPanelLock == 0x55

/-- SET in guide mode. -/
def guideSet (panel : Panel) : Except Fault Panel :=
  if panel.nav.isMenu then return { panel with nav := panel.nav.openMenu }
  else if panelUnlocked panel && decide (0 < panel.nav.currentParaNum) then do
    let panel ← call { panel with nav := { panel.nav with menuMode := .edit } }
    return { panel with nav := { panel.nav with
      isBlinking := panel.nav.isBlinking || panel.nav.mainPageId != 0 } }
  else return panel

/-- A tick in guide mode. -/
def guide (count : Nat) (input : Input) (panel : Panel) : Except Fault Panel := do
  let item ← panel.nav.item
  let panel := { panel with nav := (panel.nav.atItem item).guideKeys count input }
  if input.short .set then guideSet panel else return panel

/-- SET in edit mode. -/
def editSet (panel : Panel) : Except Fault Panel := do
  let item ← panel.nav.item
  let panel ← call { nav := panel.nav.nextField item,
                     editing := { panel.editing with cfgStates := true } }
  return { panel with nav := panel.nav.afterField }

/-- A tick in edit mode. -/
def edit (input : Input) (panel : Panel) : Except Fault Panel :=
  if input.short .right then
    return { panel with nav := { panel.nav.nextMenu with menuMode := .guide } }
  else
    let panel := { panel with editing := editKeys input panel.editing }
    if input.short .set then editSet panel else return panel

/-- The first part of `menu_navigate`: the idle flag and the key events. -/
def handle (panel : Panel) (input : Input) : Except Fault Panel :=
  let count := menuCount panel.nav.mainPageId
  let panel := { panel with nav := panel.nav.idleReset input.keyIdleFlag }
  match panel.nav.menuMode with
  | .guide => guide count input panel
  | .edit => edit input panel

/-- An increment does not outlive a change of the page. -/
def beforeDraw (last : Nav) (panel : Panel) : Editing :=
  let same := last.mainPageId = panel.nav.mainPageId ∧ last.subPageId = panel.nav.subPageId
  { panel.editing with setStates := panel.editing.setStates && decide same }

/-- The second part of `menu_navigate`: the current item is drawn. -/
def refresh (last : Nav) (panel : Panel) : Except Fault Panel :=
  let panel := { panel with editing := beforeDraw last panel }
  if panel.nav.isMenu then return panel else call panel

/-- `menu_navigate`. -/
def menuNavigate (panel : Panel) (input : Input) : Except Fault Panel := do
  let handled ← handle panel input
  refresh panel.nav handled

/-- A tick; after a fault nothing is known. -/
def tick (state : Except Fault Panel) (input : Input) : Except Fault Panel := do
  menuNavigate (← state) input

/-- The panel as it starts on an instrument. -/
def start (instrument : Instrument) : Panel where
  nav := ⟨0, 0, true, .guide, false, fun _ _ => 0, 0, 0⟩
  editing := ⟨0, 1, false, false, fun _ => [0, 0, 0, 0], .nothing, instrument⟩

/-- What a tick must avoid: after RIGHT, UP may go to the last item of the menu that was current
before only if the new menu is not shorter, or if SET then opens the new menu; and SET in edit
mode must find a field left, and a further one when the value is turned in the same tick. -/
structure Careful (panel : Panel) (input : Input) : Prop where
  upAfterRight : (panel.nav.idleReset input.keyIdleFlag).menuMode = .guide →
    input.short .right = true → input.short .up = true →
    (input.short .set = true ∧ input.short .down = false) ∨
      menuCount panel.nav.mainPageId ≤
        menuCount (((panel.nav.idleReset input.keyIdleFlag).mainPageId + 1) % rootCount)
  fieldLeft : (panel.nav.idleReset input.keyIdleFlag).menuMode = .edit →
    input.short .right = false → input.short .set = true →
    ∀ item, panel.nav.item = .ok item → 1 < item.paraNum →
      panel.nav.itemIndex + (if (increment input).isSome then 1 else 0) < item.paraNum

/-- A panel whose next accesses are allowed for. -/
structure Safe (panel : Panel) : Prop where
  main : panel.nav.mainPageId < rootCount
  sub : panel.nav.subPageId < menuCount panel.nav.mainPageId
  opened : panel.nav.menuMode = .edit → panel.nav.isMenu = false
  field : panel.nav.menuMode = .edit → ∀ item, panel.nav.item = .ok item → 1 < item.paraNum →
    panel.nav.currentParaIndex < item.paraNum
  turned : panel.editing.setStates = true → panel.nav.mainPageId = 0

/-- Past the first menu nothing is left to be turned. -/
theorem Safe.unturned {panel : Panel} (safe : Safe panel) (page : panel.nav.mainPageId ≠ 0) :
    panel.editing.setStates = false := by
  cases turned : panel.editing.setStates with
  | false => rfl
  | true => exact absurd (safe.turned turned) page

/-- A panel after the key events of a tick that began at some item. -/
structure Handled (last : Nav) (panel : Panel) : Prop where
  main : panel.nav.mainPageId < rootCount
  sub : panel.nav.subPageId < menuCount panel.nav.mainPageId
  opened : panel.nav.menuMode = .edit → panel.nav.isMenu = false
  field : panel.nav.menuMode = .edit → ∀ item, panel.nav.item = .ok item → 1 < item.paraNum →
    panel.nav.currentParaIndex < item.paraNum
  turned : panel.editing.setStates = true → last.mainPageId = panel.nav.mainPageId →
    panel.nav.mainPageId = 0 ∨ panel.nav.menuMode = .edit

/-- The counts that the items hold are the lengths of their menus. -/
theorem menu_count_length : ∀ main < rootCount, menuCount main = (sonMs main).length := by
  decide

/-- What the items of a menu are. -/
theorem menu_items : ∀ main < rootCount, ∀ item ∈ sonMs main,
    (main = 0 → item.subs = .oledShowInfo ∧ item.paraNum = 0) ∧
    (main ≠ 0 → item.subs ≠ .oledShowInfo ∧ 0 < item.paraNum) ∧
    (item.subs ∈ addressItems → item.paraNum = 4) := by
  decide

/-- The first menu is the longest one. -/
theorem menu_count_first :
    ∀ main < rootCount, 0 < menuCount main ∧ menuCount main ≤ menuCount 0 := by
  decide

/-- A number inside the menu finds an item of it. -/
theorem item_found {nav : Nav} (main : nav.mainPageId < rootCount)
    (sub : nav.subPageId < menuCount nav.mainPageId) :
    ∃ item, nav.item = .ok item ∧ item ∈ sonMs nav.mainPageId := by
  refine ⟨_, if_pos sub, ?_⟩
  rw [menu_count_length _ main] at sub
  rw [List.getD_eq_getElem _ _ sub]
  exact List.getElem_mem sub

/-- A call of the current item changes what the items share. -/
theorem call_found {panel : Panel} {item : MenuItem} {after : Editing}
    (found : panel.nav.item = .ok item)
    (called : item.subs.call panel.nav.isBlinking panel.nav.currentParaIndex panel.editing =
      .ok after) : call panel = .ok { panel with editing := after } := by
  simp only [call, found, called, bind, Except.bind]
  rfl

/-- DOWN where a menu is shown opens it. -/
theorem item_down_menu (count : Nat) {nav : Nav} (shown : nav.isMenu = true) :
    nav.itemDown count =
      { nav with mainPageId := nav.mainPageId % rootCount, subPageId := 0, isMenu := false } := by
  simp only [Nav.itemDown, shown, if_true, Nav.openMenu]

/-- DOWN elsewhere goes to another item. -/
theorem item_down_item (count : Nat) {nav : Nav} (shown : nav.isMenu = false) :
    nav.itemDown count =
      { nav with subPageId := if nav.subPageId + 1 < count then nav.subPageId + 1 else 0 } := by
  simp only [Nav.itemDown, shown, Bool.false_eq_true, if_false]

/-- What RIGHT, DOWN and UP leave as it is in guide mode. -/
structure Kept (before after : Nav) : Prop where
  menuMode : after.menuMode = before.menuMode
  index : after.currentParaIndex = before.currentParaIndex
  num : after.currentParaNum = before.currentParaNum
  steady : before.isBlinking = false → after.isBlinking = false

/-- Each of the keys leaves it as it is. -/
theorem guide_keys_kept (count : Nat) (input : Input) (nav : Nav) :
    Kept nav (nav.guideKeys count input) := by
  have same : ∀ nav, Kept nav nav := fun nav => ⟨rfl, rfl, rfl, id⟩
  have right : ∀ nav : Nav, Kept nav nav.nextMenu := fun nav => ⟨rfl, rfl, rfl, fun _ => rfl⟩
  have down : ∀ nav : Nav, Kept nav (nav.itemDown count) := by
    intro nav
    cases shown : nav.isMenu with
    | true =>
      rw [item_down_menu count shown]
      exact ⟨rfl, rfl, rfl, id⟩
    | false =>
      rw [item_down_item count shown]
      exact ⟨rfl, rfl, rfl, id⟩
  have up : ∀ nav : Nav, Kept nav (nav.itemUp count) := fun nav => ⟨rfl, rfl, rfl, id⟩
  have pressed : ∀ (key : Bool) (change : Nav → Nav), (∀ nav, Kept nav (change nav)) →
      ∀ nav, Kept nav (if key then change nav else nav) := by
    intro key change kept nav
    cases key with
    | true => exact kept nav
    | false => exact same nav
  have chained : ∀ {first second third : Nav}, Kept first second → Kept second third →
      Kept first third := fun one two =>
    ⟨two.menuMode.trans one.menuMode, two.index.trans one.index, two.num.trans one.num,
      fun steady => two.steady (one.steady steady)⟩
  exact chained (chained (pressed _ _ right nav) (pressed _ _ down _)) (pressed _ _ up _)

/-- DOWN stays in the menu. -/
theorem item_down_inside {count : Nat} {nav : Nav} (main : nav.mainPageId < rootCount)
    (fits : count ≤ menuCount nav.mainPageId) :
    (nav.itemDown count).mainPageId = nav.mainPageId ∧
      (nav.itemDown count).subPageId < menuCount nav.mainPageId := by
  have positive := (menu_count_first _ main).1
  cases shown : nav.isMenu with
  | true =>
    rw [item_down_menu count shown]
    exact ⟨Nat.mod_eq_of_lt main, positive⟩
  | false =>
    rw [item_down_item count shown]
    refine ⟨rfl, ?_⟩
    change (if nav.subPageId + 1 < count then nav.subPageId + 1 else 0) < menuCount nav.mainPageId
    split_ifs with lower
    · exact Nat.lt_of_lt_of_le lower fits
    · exact positive

/-- UP stays in the menu. -/
theorem item_up_inside {count : Nat} {nav : Nav}
    (sub : nav.subPageId < menuCount nav.mainPageId) (fits : count ≤ menuCount nav.mainPageId) :
    (nav.itemUp count).subPageId < menuCount nav.mainPageId := by
  change (if 0 < nav.subPageId then nav.subPageId - 1
      else if 0 < count then count - 1 else nav.subPageId) < menuCount nav.mainPageId
  split_ifs <;> omega

/-- RIGHT and DOWN lead to an item of the menu that is then current, and UP may follow there
unless the menu is shorter. -/
theorem right_down_inside {count : Nat} {input : Input} {nav moved : Nav}
    (main : nav.mainPageId < rootCount) (sub : nav.subPageId < menuCount nav.mainPageId)
    (fits : count ≤ menuCount nav.mainPageId)
    (careful : input.short .right = true → input.short .up = true →
      (input.short .set = true ∧ input.short .down = false) ∨
        count ≤ menuCount ((nav.mainPageId + 1) % rootCount))
    (next : moved = if input.short .right then nav.nextMenu else nav) :
    let nav := if input.short .down then moved.itemDown count else moved
    nav.mainPageId < rootCount ∧ nav.subPageId < menuCount nav.mainPageId ∧
      (input.short .up = true → count ≤ menuCount nav.mainPageId ∨
        (nav.isMenu = true ∧ input.short .set = true)) := by
  have inside : (nav.mainPageId + 1) % rootCount < rootCount := Nat.mod_lt _ (by decide)
  have positive := (menu_count_first _ inside).1
  cases right : input.short .right with
  | false =>
    rw [right] at next
    obtain rfl : moved = nav := next
    cases input.short .down with
    | false => exact ⟨main, sub, fun _ => Or.inl fits⟩
    | true =>
      obtain ⟨page, item⟩ := item_down_inside main fits
      change (moved.itemDown count).mainPageId < rootCount ∧ (moved.itemDown count).subPageId <
        menuCount (moved.itemDown count).mainPageId ∧ (input.short .up = true → count ≤
          menuCount (moved.itemDown count).mainPageId ∨ _)
      rw [page]
      exact ⟨main, item, fun _ => Or.inl fits⟩
  | true =>
    rw [right] at next
    obtain rfl : moved = nav.nextMenu := next
    cases down : input.short .down with
    | false =>
      refine ⟨inside, positive, fun up => ?_⟩
      rcases careful right up with opens | shorter
      · exact Or.inr ⟨rfl, opens.1⟩
      · exact Or.inl shorter
    | true =>
      simp only [if_true, item_down_menu count (show nav.nextMenu.isMenu = true from rfl)]
      have page : nav.nextMenu.mainPageId % rootCount = (nav.mainPageId + 1) % rootCount :=
        Nat.mod_mod _ _
      rw [page]
      refine ⟨inside, positive, fun up => ?_⟩
      rcases careful right up with opens | shorter
      · exact absurd (down.symm.trans opens.2) (by decide)
      · exact Or.inl shorter

/-- Where the keys lead: to an item of the current menu, or to a menu that SET then opens. -/
theorem guide_keys_inside {count : Nat} {input : Input} {nav : Nav}
    (main : nav.mainPageId < rootCount) (sub : nav.subPageId < menuCount nav.mainPageId)
    (fits : count ≤ menuCount nav.mainPageId)
    (careful : input.short .right = true → input.short .up = true →
      (input.short .set = true ∧ input.short .down = false) ∨
        count ≤ menuCount ((nav.mainPageId + 1) % rootCount)) :
    (nav.guideKeys count input).mainPageId < rootCount ∧
      ((nav.guideKeys count input).subPageId < menuCount (nav.guideKeys count input).mainPageId ∨
        ((nav.guideKeys count input).isMenu = true ∧ input.short .set = true)) := by
  obtain ⟨page, item, upwards⟩ := right_down_inside main sub fits careful rfl
  unfold Nav.guideKeys
  cases up : input.short .up with
  | false => exact ⟨page, Or.inl item⟩
  | true =>
    refine ⟨page, ?_⟩
    rcases upwards up with shorter | opens
    · exact Or.inl (item_up_inside item shorter)
    · exact Or.inr opens

/-- What the key events of a tick come to: the panel walks through the menus, enters an edit,
leaves one, turns a value, or confirms it. -/
inductive Step (panel : Panel) (input : Input) : Panel → Prop where
  | roamed (nav : Nav) (main : nav.mainPageId < rootCount)
      (sub : nav.subPageId < menuCount nav.mainPageId) (mode : nav.menuMode = .guide)
      (outside : panel.nav.menuMode = .guide ∨ input.keyIdleFlag = 1)
      (steady : (panel.nav.menuMode = .guide → panel.nav.isBlinking = false) →
        nav.isBlinking = false) :
      Step panel input ⟨nav, panel.editing⟩
  | entered (nav : Nav) (item : MenuItem) (after : Editing) (main : nav.mainPageId < rootCount)
      (sub : nav.subPageId < menuCount nav.mainPageId) (mode : nav.menuMode = .edit)
      (opened : nav.isMenu = false) (index : nav.currentParaIndex = 0)
      (outside : panel.nav.menuMode = .guide ∨ input.keyIdleFlag = 1)
      (steady : (panel.nav.menuMode = .guide → panel.nav.isBlinking = false) →
        nav.isBlinking = false)
      (unturned : panel.editing.setStates = false) (found : nav.item = .ok item)
      (called : item.subs.call nav.isBlinking 0 panel.editing = .ok after) :
      Step panel input
        ⟨{ nav with isBlinking := nav.isBlinking || nav.mainPageId != 0 }, after⟩
  | left (mode : panel.nav.menuMode = .edit) (awake : input.keyIdleFlag ≠ 1)
      (right : input.short .right = true) :
      Step panel input ⟨{ panel.nav.nextMenu with menuMode := .guide }, panel.editing⟩
  | turned (mode : panel.nav.menuMode = .edit) (awake : input.keyIdleFlag ≠ 1)
      (right : input.short .right = false) (set : input.short .set = false) :
      Step panel input ⟨panel.nav, editKeys input panel.editing⟩
  | confirmed (item : MenuItem) (after : Editing) (mode : panel.nav.menuMode = .edit)
      (awake : input.keyIdleFlag ≠ 1) (right : input.short .right = false)
      (set : input.short .set = true) (found : panel.nav.item = .ok item)
      (called : item.subs.call panel.nav.isBlinking (panel.nav.nextField item).currentParaIndex
        { editKeys input panel.editing with cfgStates := true } = .ok after) :
      Step panel input ⟨(panel.nav.nextField item).afterField, after⟩

/-- What the resets leave of the page: it is kept, or the first menu is shown. -/
theorem idle_reset_page {flag : Nat} {nav : Nav} (main : nav.mainPageId < rootCount)
    (sub : nav.subPageId < menuCount nav.mainPageId) :
    ((nav.idleReset flag).mainPageId = nav.mainPageId ∨ (nav.idleReset flag).mainPageId = 0) ∧
      (nav.idleReset flag).mainPageId < rootCount ∧
      (nav.idleReset flag).subPageId < menuCount (nav.idleReset flag).mainPageId := by
  have positive := (menu_count_first _ main).1
  have same : nav.mainPageId % rootCount = nav.mainPageId := Nat.mod_eq_of_lt main
  unfold Nav.idleReset
  split_ifs
  · exact ⟨Or.inr rfl, show 0 < rootCount by decide, show 0 < menuCount 0 by decide⟩
  · exact ⟨Or.inl same, lt_of_eq_of_lt same main, by simpa only [same] using positive⟩
  · exact ⟨Or.inl rfl, main, sub⟩

/-- The resets and the mode. -/
theorem idle_reset_mode (flag : Nat) (nav : Nav) :
    (flag = 1 → (nav.idleReset flag).menuMode = .guide) ∧
      (flag ≠ 1 → (nav.idleReset flag).menuMode = nav.menuMode) ∧
      ((nav.menuMode = .guide → nav.isBlinking = false) →
        (nav.idleReset flag).menuMode = .guide → (nav.idleReset flag).isBlinking = false) := by
  unfold Nav.idleReset
  split_ifs with first second
  · exact ⟨fun _ => rfl, fun other => absurd first other, fun _ _ => rfl⟩
  · exact ⟨fun same => absurd same first, fun _ => rfl, fun _ _ => rfl⟩
  · exact ⟨fun same => absurd same first, fun _ => rfl, id⟩

/-- An edit is left by the resets after the long time only. -/
theorem idle_reset_edit {flag : Nat} {nav : Nav} (opened : nav.isMenu = false) (awake : flag ≠ 1) :
    nav.idleReset flag = nav := by
  unfold Nav.idleReset
  rw [if_neg awake, if_neg (fun both => absurd (opened.symm.trans both.2) (by decide))]

/-- A tick that is still in edit mode after the resets began there, and they did nothing. -/
theorem idle_reset_still {flag : Nat} {nav : Nav}
    (opened : nav.menuMode = .edit → nav.isMenu = false)
    (mode : (nav.idleReset flag).menuMode = .edit) :
    nav.menuMode = .edit ∧ flag ≠ 1 ∧ nav.idleReset flag = nav := by
  obtain ⟨reset, sameMode, _⟩ := idle_reset_mode flag nav
  have awake : flag ≠ 1 := by
    intro idle
    exact absurd (mode.symm.trans (reset idle)) (by decide)
  have edits : nav.menuMode = .edit := (sameMode awake).symm.trans mode
  exact ⟨edits, awake, idle_reset_edit (opened edits) awake⟩

/-- An item that was found lies in its menu. -/
theorem item_listed {nav : Nav} {item : MenuItem} (main : nav.mainPageId < rootCount)
    (found : nav.item = .ok item) : item ∈ sonMs nav.mainPageId := by
  have sub : nav.subPageId < menuCount nav.mainPageId := by
    by_contra outside
    rw [Nav.item, if_neg outside] at found
    cases found
  obtain ⟨other, same, listed⟩ := item_found main sub
  cases found.symm.trans same
  exact listed

/-- SET starts an edit with a call of the current item. -/
theorem guide_set_starts {panel : Panel} {item : MenuItem} {after : Editing}
    (shown : panel.nav.isMenu = false)
    (starts : (panelUnlocked panel && decide (0 < panel.nav.currentParaNum)) = true)
    (found : ({ panel.nav with menuMode := .edit } : Nav).item = .ok item)
    (called : item.subs.call panel.nav.isBlinking panel.nav.currentParaIndex panel.editing =
      .ok after) :
    guideSet panel = .ok ⟨{ panel.nav with
      menuMode := .edit, isBlinking := panel.nav.isBlinking || panel.nav.mainPageId != 0 },
        after⟩ := by
  have whole : call { panel with nav := { panel.nav with menuMode := .edit } } =
      .ok ⟨{ panel.nav with menuMode := .edit }, after⟩ := call_found found called
  rw [guideSet, if_neg (by simp [shown]), if_pos starts, whole]
  rfl

/-- A tick in guide mode. -/
theorem guide_steps {panel : Panel} (safe : Safe panel) {input : Input}
    (careful : Careful panel input)
    (mode : (panel.nav.idleReset input.keyIdleFlag).menuMode = .guide) :
    ∃ after, guide (menuCount panel.nav.mainPageId) input
      { panel with nav := panel.nav.idleReset input.keyIdleFlag } = .ok after ∧
      Step panel input after := by
  obtain ⟨page, main, sub⟩ := @idle_reset_page input.keyIdleFlag panel.nav safe.main safe.sub
  obtain ⟨_, sameMode, still⟩ := idle_reset_mode input.keyIdleFlag panel.nav
  have careful := careful.upAfterRight mode
  have outside : panel.nav.menuMode = .guide ∨ input.keyIdleFlag = 1 := by
    by_cases idle : input.keyIdleFlag = 1
    · exact Or.inr idle
    · exact Or.inl ((sameMode idle).symm.trans mode)
  generalize panel.nav.idleReset input.keyIdleFlag = entered at *
  have fits : menuCount panel.nav.mainPageId ≤ menuCount entered.mainPageId := by
    rcases page with same | first
    · exact le_of_eq (congrArg menuCount same.symm)
    · exact first ▸ (menu_count_first _ safe.main).2
  obtain ⟨item, found, listed⟩ := item_found main sub
  have kept := guide_keys_kept (menuCount panel.nav.mainPageId) input (entered.atItem item)
  have inside := @guide_keys_inside _ input (entered.atItem item) main sub fits careful
  simp only [guide, found, bind, Except.bind]
  generalize (entered.atItem item).guideKeys (menuCount panel.nav.mainPageId) input = nav at *
  have guided : nav.menuMode = .guide := kept.menuMode.trans mode
  have steady : (panel.nav.menuMode = .guide → panel.nav.isBlinking = false) →
      nav.isBlinking = false := fun before => kept.steady (still before mode)
  cases set : input.short .set with
  | false =>
    have stays := inside.2.resolve_right
      (fun opens => absurd (set.symm.trans opens.2) (by decide))
    exact ⟨_, rfl, .roamed nav inside.1 stays guided outside steady⟩
  | true =>
    cases shown : nav.isMenu with
    | true =>
      have same : nav.mainPageId % rootCount = nav.mainPageId := Nat.mod_eq_of_lt inside.1
      refine ⟨⟨nav.openMenu, panel.editing⟩, by simp only [if_true, guideSet, shown]; rfl,
        .roamed nav.openMenu ?_ ?_ guided outside steady⟩
      · exact lt_of_eq_of_lt same inside.1
      · exact lt_of_lt_of_eq (menu_count_first _ inside.1).1 (congrArg menuCount same.symm)
    | false =>
      have stays := inside.2.resolve_right
        (fun opens => absurd (shown.symm.trans opens.1) (by decide))
      cases starts : panelUnlocked ⟨nav, panel.editing⟩ && decide (0 < nav.currentParaNum) with
      | false =>
        refine ⟨⟨nav, panel.editing⟩, ?_, .roamed nav inside.1 stays guided outside steady⟩
        simp only [if_true, guideSet, shown, starts, Bool.false_eq_true, if_false]
        rfl
      | true =>
        have num : nav.currentParaNum = item.paraNum := kept.num
        have unturned : panel.editing.setStates = false := by
          apply safe.unturned
          intro before
          have first : entered.mainPageId = 0 := by
            rcases page with same | first
            · exact same.trans before
            · exact first
          have absent := ((menu_items _ main item listed).1 first).2
          simp [num, absent] at starts
        obtain ⟨other, foundOther, _⟩ :=
          @item_found { nav with menuMode := .edit } inside.1 stays
        obtain ⟨after, called⟩ := @call_succeeds other.subs nav.isBlinking 0 panel.editing
          (fun turned => absurd (unturned.symm.trans turned) (by decide))
        have index : nav.currentParaIndex = 0 := kept.index
        exact ⟨_, guide_set_starts shown starts foundOther (index.symm ▸ called),
          .entered { nav with menuMode := .edit } other after inside.1 stays rfl shown
            index outside steady unturned foundOther called⟩

/-- What going on to the next field keeps. -/
theorem next_field_kept (item : MenuItem) (nav : Nav) :
    (nav.nextField item).mainPageId = nav.mainPageId ∧
    (nav.nextField item).subPageId = nav.subPageId ∧
    (nav.nextField item).isMenu = nav.isMenu ∧ (nav.nextField item).menuMode = nav.menuMode ∧
    (nav.nextField item).isBlinking = nav.isBlinking ∧
    (nav.nextField item).item = nav.item := by
  unfold Nav.nextField
  split
  · exact ⟨rfl, rfl, rfl, rfl, rfl, rfl⟩
  · exact ⟨rfl, rfl, rfl, rfl, rfl, rfl⟩

/-- The field that an item with fields goes on to. -/
theorem next_field_index {item : MenuItem} (fields : 0 < item.paraNum) (nav : Nav) :
    (nav.nextField item).currentParaIndex = nav.itemIndex + 1 ∧
      (nav.nextField item).currentParaNum = item.paraNum := by
  rw [Nav.nextField, if_pos fields]
  exact ⟨rfl, rfl⟩

/-- A value is turned when a key is pressed or when it was to be turned before. -/
theorem edit_keys_turned {input : Input} {editing : Editing}
    (turned : (editKeys input editing).setStates = true) :
    (increment input).isSome = true ∨ editing.setStates = true := by
  unfold editKeys at turned
  split at turned
  · exact Or.inr turned
  · next value pressed => exact Or.inl (by rw [pressed]; rfl)

/-- SET confirms with a call of the current item. -/
theorem edit_set_confirms {panel : Panel} {item : MenuItem} {after : Editing}
    (found : panel.nav.item = .ok item)
    (called : item.subs.call panel.nav.isBlinking (panel.nav.nextField item).currentParaIndex
      { panel.editing with cfgStates := true } = .ok after) :
    editSet panel = .ok ⟨(panel.nav.nextField item).afterField, after⟩ := by
  obtain ⟨_, _, _, _, blinks, sameItem⟩ := next_field_kept item panel.nav
  have whole : call ⟨panel.nav.nextField item, { panel.editing with cfgStates := true }⟩ =
      .ok ⟨panel.nav.nextField item, after⟩ :=
    call_found (sameItem.trans found) (blinks.symm ▸ called)
  simp only [editSet, found, bind, Except.bind, whole]
  rfl

/-- A tick in edit mode. -/
theorem edit_steps {panel : Panel} (safe : Safe panel) {input : Input}
    (careful : Careful panel input) (mode : panel.nav.menuMode = .edit)
    (awake : input.keyIdleFlag ≠ 1) :
    ∃ after, edit input panel = .ok after ∧ Step panel input after := by
  have entered := idle_reset_edit (safe.opened mode) awake
  cases right : input.short .right with
  | true =>
    refine ⟨_, ?_, .left mode awake right⟩
    rw [edit, if_pos right]
    rfl
  | false =>
    cases set : input.short .set with
    | false =>
      refine ⟨_, ?_, .turned mode awake right set⟩
      rw [edit, if_neg (by simp [right]), if_neg (by simp [set])]
      rfl
    | true =>
      obtain ⟨item, found, listed⟩ := item_found safe.main safe.sub
      have left := careful.fieldLeft (entered.symm ▸ mode) right set item found
      have field : (editKeys input panel.editing).setStates = true → item.subs ∈ addressItems →
          (panel.nav.nextField item).currentParaIndex < 4 := by
        intro turned listedAddress
        have four := (menu_items _ safe.main item listed).2.2 listedAddress
        have index := (next_field_index (four ▸ show 0 < 4 by decide) panel.nav).1
        have left := left (four ▸ by decide)
        rcases edit_keys_turned turned with pressed | before
        · rw [if_pos pressed, four] at left
          exact lt_of_eq_of_lt index left
        · have absent := ((menu_items _ safe.main item listed).1 (safe.turned before)).2
          omega
      obtain ⟨after, called⟩ := @call_succeeds item.subs panel.nav.isBlinking
        (panel.nav.nextField item).currentParaIndex
        { editKeys input panel.editing with cfgStates := true } field
      refine ⟨_, ?_, .confirmed item after mode awake right set found called⟩
      rw [edit, if_neg (by simp [right]), if_pos set]
      exact @edit_set_confirms { panel with editing := editKeys input panel.editing } item after
        found called

/-- The key events of a tick that avoids the two come to one of the steps. -/
theorem handle_steps {panel : Panel} (safe : Safe panel) {input : Input}
    (careful : Careful panel input) :
    ∃ after, handle panel input = .ok after ∧ Step panel input after := by
  rw [handle]
  cases mode : (panel.nav.idleReset input.keyIdleFlag).menuMode with
  | guide =>
    obtain ⟨after, run, step⟩ := guide_steps safe careful mode
    exact ⟨after, run, step⟩
  | edit =>
    obtain ⟨edits, awake, entered⟩ := idle_reset_still safe.opened mode
    obtain ⟨after, run, step⟩ := edit_steps safe careful edits awake
    exact ⟨after, by simp only [entered]; exact run, step⟩

/-- Leaving the last field keeps the page, and a field that is not the last one stays. -/
theorem after_field_kept (nav : Nav) :
    nav.afterField.mainPageId = nav.mainPageId ∧ nav.afterField.subPageId = nav.subPageId ∧
    nav.afterField.isMenu = nav.isMenu ∧ nav.afterField.item = nav.item ∧
    (nav.afterField.menuMode = .edit → nav.currentParaIndex ≠ nav.currentParaNum ∧
      nav.afterField = nav) := by
  unfold Nav.afterField
  split_ifs with last
  · exact ⟨rfl, rfl, rfl, rfl, fun mode => by cases mode⟩
  · exact ⟨rfl, rfl, rfl, rfl, fun _ => ⟨last, rfl⟩⟩

/-- Each step leads to an item of a menu, and in edit mode to a field of it. -/
theorem step_handled {panel : Panel} (safe : Safe panel) {input : Input}
    (careful : Careful panel input) {after : Panel} (step : Step panel input after) :
    Handled panel.nav after := by
  have first : ∀ {main}, panel.editing.setStates = true → panel.nav.mainPageId = main →
      main = 0 := fun turned same => same.symm.trans (safe.turned turned)
  cases step with
  | roamed nav main sub mode outside steady =>
    have guided : nav.menuMode ≠ .edit := fun edits => absurd (mode.symm.trans edits) (by decide)
    exact ⟨main, sub, fun edits => absurd edits guided, fun edits => absurd edits guided,
      fun turned same => Or.inl (first turned same)⟩
  | entered nav item after main sub mode opened index outside steady unturned found called =>
    refine ⟨main, sub, fun _ => opened, fun _ _ _ several => ?_, fun turned _ => ?_⟩
    · exact lt_of_eq_of_lt index (Nat.lt_trans Nat.zero_lt_one several)
    · exact absurd ((call_requests called).2.1 unturned) (by simpa using turned)
  | left mode awake right =>
    have next : (panel.nav.mainPageId + 1) % rootCount < rootCount := Nat.mod_lt _ (by decide)
    exact ⟨next, (menu_count_first _ next).1, (by rintro ⟨⟩), (by rintro ⟨⟩),
      fun turned same => Or.inl (first turned same)⟩
  | turned mode awake right set =>
    exact ⟨safe.main, safe.sub, safe.opened, safe.field, fun _ _ => Or.inr mode⟩
  | confirmed item after mode awake right set found called =>
    obtain ⟨main, sub, menu, _, _, sameItem⟩ := next_field_kept item panel.nav
    obtain ⟨main', sub', menu', sameItem', stays⟩ := after_field_kept (panel.nav.nextField item)
    have page := main'.trans main
    refine ⟨page.symm ▸ safe.main, ?_, fun _ => (menu'.trans menu).trans (safe.opened mode), ?_, ?_⟩
    · rw [page, sub'.trans sub]
      exact safe.sub
    · intro edits other foundOther several
      obtain rfl : item = other := by
        have same := (sameItem'.trans sameItem).symm.trans foundOther
        cases found.symm.trans same
        rfl
      obtain ⟨notLast, same⟩ := stays edits
      obtain ⟨index, num⟩ := next_field_index (Nat.lt_trans Nat.zero_lt_one several) panel.nav
      have entered := idle_reset_edit (safe.opened mode) awake
      have left := careful.fieldLeft (entered.symm ▸ mode) right set item found several
      rw [same]
      rw [index, num] at notLast
      rw [index]
      omega
    · intro turned _
      refine Or.inl (page.trans ?_)
      by_contra later
      have settings := ((menu_items _ safe.main item (item_listed safe.main found)).2.1 later).1
      exact absurd ((call_requests called).1 settings).1 (by simpa using turned)

/-- The draw at the end of a tick: of a menu it changes nothing more, and of an item it is a
call. -/
theorem refresh_draws {last : Nav} {panel : Panel} (handled : Handled last panel) :
    (panel.nav.isMenu = true ∧
      refresh last panel = .ok { panel with editing := beforeDraw last panel }) ∨
    (panel.nav.isMenu = false ∧ ∃ item after, panel.nav.item = .ok item ∧
      item.subs.call panel.nav.isBlinking panel.nav.currentParaIndex (beforeDraw last panel) =
        .ok after ∧ refresh last panel = .ok { panel with editing := after }) := by
  cases shown : panel.nav.isMenu with
  | true =>
    refine Or.inl ⟨rfl, ?_⟩
    rw [refresh]
    exact if_pos shown
  | false =>
    obtain ⟨item, found, listed⟩ := item_found handled.main handled.sub
    have field : (beforeDraw last panel).setStates = true → item.subs ∈ addressItems →
        panel.nav.currentParaIndex < 4 := by
      intro turned listedAddress
      obtain ⟨asked, same⟩ := (Bool.and_eq_true _ _).mp turned
      have four := (menu_items _ handled.main item listed).2.2 listedAddress
      rcases handled.turned asked (of_decide_eq_true same).1 with first | edits
      · have absent := ((menu_items _ handled.main item listed).1 first).2
        omega
      · exact four ▸ handled.field edits item found (four ▸ by decide)
    obtain ⟨after, called⟩ := @call_succeeds item.subs panel.nav.isBlinking
      panel.nav.currentParaIndex (beforeDraw last panel) field
    refine Or.inr ⟨rfl, item, after, found, called, ?_⟩
    have whole : call { panel with editing := beforeDraw last panel } =
        .ok { panel with editing := after } := call_found found called
    rw [refresh, ← whole]
    exact if_neg (by simp [shown])

/-- The draw leaves a safe panel. -/
theorem refresh_safe {last : Nav} {panel : Panel} (handled : Handled last panel) :
    ∃ after, refresh last panel = .ok after ∧ Safe after := by
  rcases refresh_draws handled with ⟨shown, run⟩ | ⟨shown, item, after, found, called, run⟩
  · refine ⟨_, run, handled.main, handled.sub, handled.opened, handled.field, fun turned => ?_⟩
    obtain ⟨asked, same⟩ := (Bool.and_eq_true _ _).mp turned
    rcases handled.turned asked (of_decide_eq_true same).1 with first | edits
    · exact first
    · exact absurd (shown.symm.trans (handled.opened edits)) (by decide)
  · refine ⟨_, run, handled.main, handled.sub, handled.opened, handled.field, fun turned => ?_⟩
    by_contra later
    have settings := ((menu_items _ handled.main item (item_listed handled.main found)).2.1 later).1
    exact absurd ((call_requests called).1 settings).1 (by simpa using turned)

/-- A careful tick of a safe panel succeeds and leaves a safe one. -/
theorem menu_navigate_safe {panel : Panel} (safe : Safe panel) {input : Input}
    (careful : Careful panel input) :
    ∃ after, menuNavigate panel input = .ok after ∧ Safe after := by
  obtain ⟨handled, run, step⟩ := handle_steps safe careful
  obtain ⟨after, drawn, kept⟩ := refresh_safe (step_handled safe careful step)
  refine ⟨after, ?_, kept⟩
  rw [menuNavigate, run]
  exact drawn

/-- A call outside the menu is a fault. -/
theorem call_lost {panel : Panel} (lost : menuCount panel.nav.mainPageId ≤ panel.nav.subPageId) :
    call panel = .error .outsideMenu := by
  have item : panel.nav.item = .error .outsideMenu := if_neg (Nat.not_lt.mpr lost)
  simp only [call, item, bind, Except.bind]

/-- What the draw keeps, if it succeeds. -/
theorem refresh_kept {last : Nav} {panel after : Panel} (drawn : refresh last panel = .ok after) :
    after.nav = panel.nav ∧
      (panel.nav.isMenu = false → panel.nav.subPageId < menuCount panel.nav.mainPageId) := by
  rw [refresh] at drawn
  cases shown : panel.nav.isMenu with
  | true =>
    simp only [shown, if_true] at drawn
    cases drawn
    exact ⟨rfl, fun closed => by cases closed⟩
  | false =>
    simp only [shown, Bool.false_eq_true, if_false] at drawn
    by_cases inside : panel.nav.subPageId < menuCount panel.nav.mainPageId
    · refine ⟨?_, fun _ => inside⟩
      have item : panel.nav.item = .ok _ := if_pos inside
      simp only [call, item, bind, Except.bind] at drawn
      split at drawn
      · cases drawn
      · cases drawn
        rfl
    · have lost := @call_lost { panel with editing := beforeDraw last panel } (Nat.not_lt.mp inside)
      cases lost.symm.trans drawn

/-- RIGHT and UP lead to the last item of the menu before, in the next menu. -/
theorem right_up_keys {count : Nat} {input : Input} {nav : Nav} (right : input.short .right = true)
    (up : input.short .up = true) (positive : 0 < count) :
    nav.guideKeys count input =
      { nav.nextMenu with subPageId := count - 1, isMenu := !input.short .down } := by
  have menu : nav.nextMenu.isMenu = true := rfl
  have page : nav.nextMenu.mainPageId % rootCount = nav.nextMenu.mainPageId := Nat.mod_mod _ _
  cases down : input.short .down with
  | false =>
    simp only [Nav.guideKeys, right, up, down, if_true, Bool.false_eq_true, if_false, Nav.itemUp,
      Nav.nextMenu, positive, lt_self_iff_false, Bool.not_false]
  | true =>
    simp only [Nav.guideKeys, right, up, down, if_true, item_down_menu count menu, page, Nav.itemUp,
      positive, lt_self_iff_false, if_false, Bool.not_true]

/-- The two parts of a tick that succeeds. -/
theorem navigate_parts {panel after : Panel} {input : Input}
    (run : menuNavigate panel input = .ok after) :
    ∃ handled, handle panel input = .ok handled ∧ refresh panel.nav handled = .ok after := by
  rw [menuNavigate] at run
  cases ran : handle panel input with
  | error fault =>
    rw [ran] at run
    cases run
  | ok handled =>
    rw [ran] at run
    exact ⟨handled, rfl, run⟩

/-- A tick with UP after RIGHT that succeeds and leaves a safe panel was careful. -/
theorem up_after_right_needed {panel : Panel} (safe : Safe panel) {input : Input} {after : Panel}
    (run : menuNavigate panel input = .ok after) (kept : Safe after)
    (mode : (panel.nav.idleReset input.keyIdleFlag).menuMode = .guide)
    (right : input.short .right = true) (up : input.short .up = true) :
    (input.short .set = true ∧ input.short .down = false) ∨
      menuCount panel.nav.mainPageId ≤
        menuCount (((panel.nav.idleReset input.keyIdleFlag).mainPageId + 1) % rootCount) := by
  by_contra neither
  obtain ⟨notOpened, shorter⟩ := not_or.mp neither
  obtain ⟨handled, ran, drawn⟩ := navigate_parts run
  obtain ⟨_, main, sub⟩ := @idle_reset_page input.keyIdleFlag panel.nav safe.main safe.sub
  obtain ⟨item, found, _⟩ := item_found main sub
  have positive := (menu_count_first _ safe.main).1
  simp only [handle, mode, guide, found, bind, Except.bind,
    right_up_keys right up positive] at ran
  generalize walked : ({ ((panel.nav.idleReset input.keyIdleFlag).atItem item).nextMenu with
    subPageId := menuCount panel.nav.mainPageId - 1, isMenu := !input.short .down } : Nav) =
      nav at ran
  have lost : menuCount nav.mainPageId ≤ nav.subPageId := by
    rw [← walked]
    exact Nat.le_sub_one_of_lt (Nat.lt_of_not_le shorter)
  have unsafeNav : handled.nav ≠ nav := by
    rintro rfl
    have same := (refresh_kept drawn).1
    have inside := kept.sub
    rw [same] at inside
    exact absurd inside (Nat.not_lt.mpr lost)
  cases set : input.short .set with
  | false =>
    rw [set] at ran
    cases ran
    exact unsafeNav rfl
  | true =>
    have down : input.short .down = true := by
      by_contra up
      exact notOpened ⟨set, by simpa using up⟩
    have shown : nav.isMenu = false := by
      rw [← walked]
      simp only [down, Bool.not_true]
    rw [set, if_pos rfl, guideSet, if_neg (by simp [shown])] at ran
    split_ifs at ran with starts
    · have failed := @call_lost ⟨{ nav with menuMode := .edit }, panel.editing⟩ lost
      simp only [failed] at ran
      cases ran
    · cases ran
      exact unsafeNav rfl

/-- Items with several fields are addresses. -/
theorem several_fields : ∀ main < rootCount, ∀ item ∈ sonMs main, 1 < item.paraNum →
    item.subs ∈ addressItems ∧ item.paraNum = 4 := by
  decide

/-- A pressed key asks for a turn. -/
theorem edit_keys_pressed {input : Input} (editing : Editing)
    (pressed : (increment input).isSome = true) : (editKeys input editing).setStates = true := by
  obtain ⟨value, pressed⟩ := Option.isSome_iff_exists.mp pressed
  rw [editKeys, pressed]

/-- A turn of a field that an address does not have is a fault. -/
theorem call_past {subs : Subs} {isBlinking : Bool} {index : Nat} {editing : Editing}
    (listed : subs ∈ addressItems) (turned : editing.setStates = true) (past : 4 ≤ index) :
    subs.call isBlinking index editing = .error .outsideFields := by
  have address : ∀ subs ∈ addressItems, ∃ address, subs.page = .address address := by
    intro subs listed
    simp only [addressItems, List.mem_cons, List.not_mem_nil, or_false] at listed
    rcases listed with rfl | rfl | rfl
    · exact ⟨.ipAddr, rfl⟩
    · exact ⟨.gateway, rfl⟩
    · exact ⟨.netMask, rfl⟩
  obtain ⟨address, page⟩ := address subs listed
  simp only [Subs.call, page, addressPass, turned, if_true, if_neg (Nat.not_lt.mpr past)]

/-- A tick with SET that succeeds and leaves a safe panel found the fields left. -/
theorem field_left_needed {panel : Panel} (safe : Safe panel) {input : Input} {after : Panel}
    (run : menuNavigate panel input = .ok after) (kept : Safe after)
    (mode : (panel.nav.idleReset input.keyIdleFlag).menuMode = .edit)
    (right : input.short .right = false) (set : input.short .set = true) {item : MenuItem}
    (found : panel.nav.item = .ok item) (several : 1 < item.paraNum) :
    panel.nav.itemIndex + (if (increment input).isSome then 1 else 0) < item.paraNum := by
  by_contra past
  obtain ⟨handled, ran, drawn⟩ := navigate_parts run
  obtain ⟨edits, awake, entered⟩ := idle_reset_still safe.opened mode
  obtain ⟨listed, four⟩ := several_fields _ safe.main item (item_listed safe.main found) several
  obtain ⟨index, num⟩ := next_field_index (Nat.lt_trans Nat.zero_lt_one several) panel.nav
  obtain ⟨_, _, _, sameEdit, blinks, sameItem⟩ := next_field_kept item panel.nav
  have confirms : handle panel input =
      editSet { panel with editing := editKeys input panel.editing } := by
    simp only [handle, entered, edits, edit, right, set, Bool.false_eq_true, if_false, if_true]
  rw [four] at past
  by_cases turned : (editKeys input panel.editing).setStates = true
  · have failed := @call_past item.subs panel.nav.isBlinking
      (panel.nav.nextField item).currentParaIndex
      { editKeys input panel.editing with cfgStates := true } listed turned (by
        rw [index]
        split_ifs at past <;> omega)
    have lost : editSet { panel with editing := editKeys input panel.editing } =
        .error .outsideFields := by
      simp only [editSet, found, call, sameItem, blinks, failed, bind, Except.bind]
    cases (confirms.trans lost).symm.trans ran
  · have unpressed : (increment input).isSome ≠ true :=
      fun pressed => turned (edit_keys_pressed panel.editing pressed)
    rw [if_neg unpressed] at past
    obtain ⟨left, called⟩ := @call_succeeds item.subs panel.nav.isBlinking
      (panel.nav.nextField item).currentParaIndex
      { editKeys input panel.editing with cfgStates := true } (fun asked => absurd asked turned)
    have confirmed := @edit_set_confirms { panel with editing := editKeys input panel.editing } item
      left found called
    cases (confirms.trans confirmed).symm.trans ran
    have stays : (panel.nav.nextField item).afterField = panel.nav.nextField item := by
      rw [Nav.afterField, if_neg (by omega)]
    have nav := (refresh_kept drawn).1
    simp only [stays] at nav
    have inside := kept.field (by rw [nav, sameEdit, edits]) item (by rw [nav, sameItem, found])
      several
    rw [nav, index] at inside
    omega

/-- The panel starts safely. -/
theorem start_safe (instrument : Instrument) : Safe (start instrument) where
  main := show 0 < rootCount by decide
  sub := show 0 < menuCount 0 by decide
  opened := by rintro ⟨⟩
  field := by rintro ⟨⟩
  turned := by rintro ⟨⟩

/-- A tick of a panel that has not failed avoids what it must. -/
def CarefulTick (state : Except Fault Panel) (input : Input) : Prop :=
  ∀ panel, state = .ok panel → Careful panel input

/-- No access of a run has failed, and the next ones are allowed for. -/
def SafeState (state : Except Fault Panel) : Prop := ∃ panel, state = .ok panel ∧ Safe panel

/-- Every item that is looked up or called lies in its menu, and every field that is turned is
one of the address, exactly as long as all ticks avoid the two. -/
theorem menu_indices_iff (instrument : Instrument) (inputs : List Input) :
    Along tick CarefulTick (.ok (start instrument)) inputs ↔
      ∀ first, first <+: inputs → SafeState (run tick (.ok (start instrument)) first) := by
  refine along_exact tick ?_ _ ⟨_, rfl, start_safe instrument⟩ inputs
  rintro state input ⟨panel, rfl, safe⟩
  constructor
  · exact fun careful => menu_navigate_safe safe (careful panel rfl)
  · rintro ⟨after, navigated, kept⟩ other ⟨⟩
    exact ⟨up_after_right_needed safe navigated kept, fun mode right set item found several =>
      field_left_needed safe navigated kept mode right set found several⟩

/-- Short events of some keys. -/
def pressing (keys : List Key) : Input :=
  ⟨0, fun key => keys.contains key, fun _ => false, fun _ => 1⟩

/-- RIGHT, DOWN and UP in the first tick lead to an item that the second menu does not have. -/
theorem menu_index_lost :
    ¬∀ instrument inputs, ∃ panel, run tick (.ok (start instrument)) inputs = .ok panel := by
  intro all
  obtain ⟨panel, same⟩ := all defaultInstrument [pressing [.right, .down, .up]]
  have lost : run tick (.ok (start defaultInstrument)) [pressing [.right, .down, .up]] =
      .error .outsideMenu := rfl
  cases lost.symm.trans same

end Pyrometer.MenuNavigation
