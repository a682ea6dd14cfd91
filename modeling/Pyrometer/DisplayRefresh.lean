import Pyrometer.BitMasks
import Pyrometer.ByteMemory
import Pyrometer.Runs

/-!
# The refresh of the display

`OLED_GRAM` holds what is to be displayed. `oled_refresh` sends all four pages of it.
`oled_refresh_diff` sends the pages that differ from `OLED_GRAM_OLD`, into which it copies
each page that it sends; `oled_clear` does the same after blanking `OLED_GRAM`. For each page
three commands set the cursor and one transfer takes its 128 bytes, and each of the four
may be acknowledged or not; nobody looks at that.

The panel is its 4 pages and the page of its cursor. Its column is 0 all the time: each
command for it sets it to 0, and the bytes of a page take it round. A transfer that is not
acknowledged does nothing. The other commands, which do not change the 4 pages, are left
out. Before the first transfer the panel shows anything.
-/

namespace Pyrometer.DisplayRefresh

open BitMasks ByteMemory Runs

/-- A page of the display. -/
abbrev Page := Fin 4

/-- A column of the display. -/
abbrev Column := Fin 128

/-- `OLED_GRAM` and its like. -/
abbrev Gram := Page → Column → Byte

/-- Which transfers of a page are acknowledged: the three commands of `oled_set_cursor` and
the bytes. -/
structure Acks where
  page : Bool
  high : Bool
  low : Bool
  data : Bool

/-- All transfers of a page are acknowledged. -/
def Acks.complete (acks : Acks) : Prop :=
  acks.page = true ∧ acks.high = true ∧ acks.low = true ∧ acks.data = true

instance (acks : Acks) : Decidable acks.complete := inferInstanceAs (Decidable (_ ∧ _))

/-- The two buffers and the panel, with whether the last transfer of each page failed and
how often each page was sent. -/
structure Display where
  gram : Gram
  old : Gram
  panel : Gram
  cursor : Page
  failed : Page → Bool
  sent : Page → Nat

/-- `oled_set_cursor` for the first column of a page. -/
def oledSetCursor (acks : Acks) (page : Page) (display : Display) : Display :=
  { display with cursor := if acks.page then page else display.cursor }

/-- A page is sent. -/
def sendPage (acks : Acks) (page : Page) (display : Display) : Display :=
  let pointed := oledSetCursor acks page display
  { pointed with
    panel :=
      if acks.data then Function.update display.panel pointed.cursor (display.gram page)
      else display.panel
    failed := Function.update display.failed page (decide ¬ acks.complete)
    sent := Function.update display.sent page (display.sent page + 1) }

/-- The body of `oled_refresh_diff` for a page. -/
def refreshPage (acks : Acks) (page : Page) (display : Display) : Display :=
  if display.gram page = display.old page then display
  else
    sendPage acks page
      { display with old := Function.update display.old page (display.gram page) }

/-- `oled_refresh`. -/
def oledRefresh (acks : Page → Acks) (display : Display) : Display :=
  (List.finRange 4).foldl (fun display page => sendPage (acks page) page display) display

/-- `oled_refresh_diff`. -/
def oledRefreshDiff (acks : Page → Acks) (display : Display) : Display :=
  (List.finRange 4).foldl (fun display page => refreshPage (acks page) page display) display

/-- `OLED_GRAM` is blanked. -/
def blanked (display : Display) : Display := { display with gram := fun _ _ => 0 }

/-- `oled_clear`. -/
def oledClear (acks : Page → Acks) (display : Display) : Display :=
  oledRefreshDiff acks (blanked display)

/-- `oled_draw_point`. -/
def oledDrawPoint (x y : Nat) (t : Bool) (gram : Gram) : Gram := fun page column =>
  if page.val = y / 8 ∧ column.val = x then
    let n : Byte := bit 8 (y % 8)
    if t then gram page column ||| n else ~~~(~~~(gram page column) ||| n)
  else gram page column

/-- The eight points of a byte of a picture. -/
def drawByte (x y : Nat) (temp : Byte) (mode : Bool) (gram : Gram) : Gram :=
  (List.range 8).foldl
    (fun gram m => oledDrawPoint x (y + m) (if temp.getLsbD m then mode else !mode) gram) gram

/-- A row of eight lines of a picture. -/
def drawRow (x y sizex : Nat) (bmp : Nat → Byte) (mode : Bool) (gram : Gram) : Gram :=
  (List.range sizex).foldl (fun gram i => drawByte (x + i) y (bmp i) mode gram) gram

/-- `oled_show_picture`. Its bytes are taken row by row. -/
def oledShowPicture (x y sizex sizey : Nat) (bmp : Nat → Byte) (mode : Bool) (gram : Gram) :
    Gram :=
  (List.range (sizey / 8 + if sizey % 8 = 0 then 0 else 1)).foldl
    (fun gram n => drawRow x (y + 8 * n) sizex (fun i => bmp (n * sizex + i)) mode gram) gram

/-- `company_logo`. -/
def companyLogo : List (List Nat) :=
  [[0x00, 0x00, 0x00, 0x00, 0x00, 0x00, 0x00, 0x00, 0x00, 0x00, 0x00, 0x00, 0x00, 0x00, 0x00, 0x00],
  [0x00, 0x00, 0x00, 0x00, 0x00, 0x00, 0x00, 0x00, 0x00, 0x00, 0x00, 0x00, 0x00, 0x00, 0x00, 0x00],
  [0x00, 0x00, 0x00, 0x00, 0x00, 0x00, 0x00, 0x00, 0x00, 0x00, 0x00, 0x00, 0x00, 0x00, 0x00, 0x00],
  [0x00, 0x00, 0x00, 0x00, 0x00, 0x00, 0x00, 0x00, 0x00, 0x00, 0x00, 0x00, 0x00, 0x00, 0x00, 0x00],
  [0x00, 0x00, 0x00, 0x00, 0x00, 0x00, 0x00, 0x00, 0x00, 0x00, 0x00, 0x00, 0x00, 0x00, 0x00, 0x00],
  [0x00, 0x00, 0x00, 0x00, 0x00, 0x00, 0x00, 0x00, 0x00, 0x00, 0x00, 0x00, 0x00, 0x00, 0x00, 0x00],
  [0x00, 0x00, 0x00, 0x00, 0x00, 0x00, 0x00, 0x00, 0x00, 0x00, 0x00, 0x00, 0x00, 0x00, 0x00, 0x00],
  [0x00, 0x00, 0x00, 0x00, 0x00, 0x00, 0x00, 0x00, 0x00, 0x00, 0x00, 0x00, 0x00, 0x00, 0x00, 0x00],
  [0x00, 0x00, 0x00, 0x00, 0x00, 0xFC, 0xFC, 0xFC, 0x00, 0x80, 0xC0, 0xF0, 0xF8, 0x38, 0xB0, 0xC0],
  [0x80, 0x00, 0xFC, 0xFC, 0xFC, 0x00, 0x00, 0x00, 0x00, 0x00, 0x00, 0x00, 0x00, 0xFC, 0xFC, 0xFC],
  [0x00, 0x00, 0x00, 0x00, 0x00, 0x00, 0x00, 0x00, 0x00, 0x00, 0xFC, 0xFC, 0xFC, 0x00, 0x00, 0x00],
  [0xC0, 0xE0, 0xF8, 0x78, 0x38, 0x3C, 0x3C, 0x3C, 0x3C, 0x3C, 0x3C, 0x3C, 0x3C, 0x3C, 0x3C, 0x3C],
  [0x00, 0x00, 0x00, 0xFC, 0xFC, 0xFC, 0x3C, 0x3C, 0x3C, 0x3C, 0x3C, 0x3C, 0x3C, 0x3C, 0x3C, 0x3C],
  [0x3C, 0x78, 0xF8, 0xE0, 0x00, 0x00, 0x00, 0x00, 0xC0, 0xF0, 0xF8, 0x38, 0x3C, 0x3C, 0x3C, 0x3C],
  [0x3C, 0x3C, 0x3C, 0x3C, 0x3C, 0x3C, 0x3C, 0x38, 0x00, 0x00, 0x00, 0xFC, 0xFC, 0x00, 0x00, 0x00],
  [0x00, 0x00, 0x00, 0x00, 0x00, 0x00, 0x00, 0x00, 0xFC, 0xFC, 0xFC, 0x00, 0x00, 0x00, 0x00, 0x00],
  [0x00, 0x00, 0x00, 0x00, 0x00, 0xE3, 0xF9, 0xFE, 0x3F, 0xEF, 0xE7, 0xF9, 0x3E, 0xDF, 0xEF, 0xF3],
  [0xFD, 0x3E, 0x9F, 0xE7, 0x80, 0x00, 0x00, 0x00, 0x00, 0x00, 0x00, 0x00, 0x00, 0xFF, 0xFF, 0xFF],
  [0x1E, 0x1E, 0x1E, 0x1E, 0x1E, 0x1E, 0x1E, 0x1E, 0x1E, 0x1E, 0xFF, 0xFF, 0xFF, 0x00, 0x00, 0x00],
  [0xFF, 0xFF, 0xDD, 0x1C, 0x1C, 0x1C, 0x1C, 0x1C, 0x1C, 0x1C, 0x1C, 0x1C, 0x1C, 0x1C, 0x1C, 0x1C],
  [0x00, 0x00, 0x00, 0xFF, 0xFF, 0xFF, 0x38, 0x38, 0x38, 0x38, 0x38, 0x38, 0x38, 0x38, 0x38, 0xF8],
  [0xF8, 0xFE, 0x9F, 0x0F, 0x00, 0x00, 0x00, 0x3E, 0xFF, 0xFF, 0x80, 0x00, 0x00, 0x00, 0x00, 0x00],
  [0x00, 0x00, 0x00, 0x00, 0x00, 0x00, 0x00, 0x00, 0x00, 0x00, 0x00, 0xFF, 0xFF, 0x1E, 0x1E, 0x1E],
  [0x1E, 0x1E, 0x1E, 0x1E, 0x1E, 0x1E, 0x1E, 0x1E, 0xFF, 0xFF, 0xFF, 0x00, 0x00, 0x00, 0x00, 0x00],
  [0x00, 0x00, 0x00, 0x00, 0x00, 0x1F, 0x1F, 0x1F, 0x00, 0x01, 0x01, 0x06, 0x0F, 0x07, 0x03, 0x01],
  [0x00, 0x00, 0x1F, 0x1F, 0x1F, 0x00, 0x00, 0x00, 0x00, 0x00, 0x00, 0x00, 0x00, 0x1F, 0x1F, 0x1F],
  [0x00, 0x00, 0x00, 0x00, 0x00, 0x00, 0x00, 0x00, 0x00, 0x00, 0x1F, 0x1F, 0x1F, 0x00, 0x00, 0x00],
  [0x01, 0x07, 0x07, 0x0F, 0x1E, 0x1E, 0x1E, 0x1E, 0x1E, 0x1E, 0x1E, 0x1E, 0x1E, 0x1E, 0x1E, 0x1E],
  [0x00, 0x00, 0x00, 0x1F, 0x1F, 0x1F, 0x00, 0x00, 0x00, 0x00, 0x00, 0x00, 0x00, 0x00, 0x00, 0x00],
  [0x03, 0x07, 0x1F, 0x1E, 0x18, 0x00, 0x00, 0x00, 0x03, 0x07, 0x0F, 0x0E, 0x1E, 0x1E, 0x1E, 0x1E],
  [0x1E, 0x1E, 0x1E, 0x1E, 0x1E, 0x1E, 0x1E, 0x1E, 0x00, 0x00, 0x00, 0x1F, 0x1F, 0x00, 0x00, 0x00],
  [0x00, 0x00, 0x00, 0x00, 0x00, 0x00, 0x00, 0x00, 0x1F, 0x1F, 0x1F, 0x00, 0x00, 0x00, 0x00, 0x00]]

/-- A byte of `company_logo`. -/
def logoByte (j : Nat) : Byte := BitVec.ofNat 8 (companyLogo.flatten.getD j 0)

/-- There is a page. -/
theorem pages_positive : 0 < 4 := by decide

/-- `oled_init`; `pageAck` tells whether its command for the page is acknowledged. -/
def oledInit (pageAck : Bool) (acks : Page → Acks) (display : Display) : Display :=
  oledRefresh acks
    { display with
      cursor := if pageAck then ⟨0, pages_positive⟩ else display.cursor
      gram := oledShowPicture 0 0 128 32 logoByte true display.gram }

/-- The display when it is switched on. -/
def powerUp (panel : Gram) (cursor : Page) : Display :=
  ⟨fun _ _ => 0, fun _ _ => 0, panel, cursor, fun _ => false, fun _ => 0⟩

/-- A change of `OLED_GRAM`, or a call. -/
inductive Event where
  | draw (gram : Gram)
  | refresh (acks : Page → Acks)
  | refreshDiff (acks : Page → Acks)
  | clear (acks : Page → Acks)

/-- One event. -/
def step (display : Display) : Event → Display
  | .draw gram => { display with gram := gram }
  | .refresh acks => oledRefresh acks display
  | .refreshDiff acks => oledRefreshDiff acks display
  | .clear acks => oledClear acks display

/-- The display that an event hands to `oled_refresh_diff`, with the acknowledges of the call. -/
def Event.diff (display : Display) : Event → Option (Display × (Page → Acks))
  | .draw _ => none
  | .refresh _ => none
  | .refreshDiff acks => some (display, acks)
  | .clear acks => some (blanked display, acks)

/-- All transfers that a call makes are acknowledged: those of the pages that are sent once
more than before. -/
def Acknowledged (acks : Page → Acks) (before after : Display) : Prop :=
  ∀ page, before.sent page < after.sent page → (acks page).complete

/-- What a call of `oled_refresh_diff` should do: with its transfers acknowledged it leaves
the panel with `OLED_GRAM`, as `oled_refresh` would; and it sends each page whose last
transfer failed. -/
structure Refreshed (acks : Page → Acks) (before after : Display) : Prop where
  shown : Acknowledged acks before after → after.panel = before.gram ∧
    ∀ whole : Page → Acks, (∀ page, (whole page).complete) →
      after.panel = (oledRefresh whole before).panel
  resent : ∀ page, before.failed page = true → before.sent page < after.sent page

/-- The calls of an event do what they should. -/
def Right (display : Display) (event : Event) : Prop :=
  ∀ before acks, event.diff display = some (before, acks) →
    Refreshed acks before (step display event)

/-- Where the pages that are skipped need no transfer: the last one of such a page did not
fail, and with the transfers of the others acknowledged the panel shows it already. -/
structure Spared (acks : Page → Acks) (before : Display) : Prop where
  shown : (∀ page, before.gram page ≠ before.old page → (acks page).complete) →
    ∀ page, before.gram page = before.old page → before.panel page = before.gram page
  kept : ∀ page, before.gram page = before.old page → before.failed page = false

/-- The calls of an event skip pages that need no transfer only. -/
def Covered (display : Display) (event : Event) : Prop :=
  ∀ before acks, event.diff display = some (before, acks) → Spared acks before

/-- With its transfers acknowledged a page that is sent is shown. -/
theorem send_panel {acks : Acks} (complete : acks.complete) (page : Page) (display : Display) :
    (sendPage acks page display).panel =
      Function.update display.panel page (display.gram page) := by
  obtain ⟨pageAck, -, -, dataAck⟩ := complete
  simp only [sendPage, oledSetCursor, pageAck, dataAck, if_true]

/-- A page that does not differ is left alone. -/
theorem refresh_page_same {page : Page} {display : Display}
    (same : display.gram page = display.old page) (acks : Acks) :
    refreshPage acks page display = display := if_pos same

/-- A page that differs is copied and sent. -/
theorem refresh_page_differs {page : Page} {display : Display}
    (differs : display.gram page ≠ display.old page) (acks : Acks) :
    refreshPage acks page display =
      sendPage acks page
        { display with old := Function.update display.old page (display.gram page) } :=
  if_neg differs

/-- `OLED_GRAM` is what it was after a page, and the copies of the others are. -/
theorem refresh_page_frame (acks : Acks) (page : Page) (display : Display) :
    (refreshPage acks page display).gram = display.gram ∧
      ∀ other, other ≠ page → (refreshPage acks page display).old other = display.old other := by
  by_cases same : display.gram page = display.old page
  · rw [refresh_page_same same]
    exact ⟨rfl, fun _ _ => rfl⟩
  · rw [refresh_page_differs same]
    refine ⟨rfl, fun other apart => ?_⟩
    exact Function.update_of_ne apart _ _

/-- Of any pages the ones that differ are sent. -/
theorem diff_pages_sent (acks : Page → Acks) (pages : List Page) (once : pages.Nodup)
    (display : Display) (page : Page) :
    (pages.foldl (fun display page => refreshPage (acks page) page display) display).sent page =
      display.sent page +
        if page ∈ pages ∧ display.gram page ≠ display.old page then 1 else 0 := by
  induction pages generalizing display with
  | nil => simp
  | cons head rest inductionHypothesis =>
    obtain ⟨fresh, nodup⟩ := List.nodup_cons.mp once
    rw [List.foldl_cons, inductionHypothesis nodup]
    obtain ⟨gram, old⟩ := refresh_page_frame (acks head) head display
    rw [gram]
    by_cases own : page = head
    · subst own
      by_cases same : display.gram page = display.old page
      · simp [refresh_page_same same, same]
      · simp [refresh_page_differs same, same, fresh, sendPage, oledSetCursor]
    · rw [old page own]
      have still : (refreshPage (acks head) head display).sent page = display.sent page := by
        by_cases same : display.gram head = display.old head
        · rw [refresh_page_same same]
        · rw [refresh_page_differs same]
          exact Function.update_of_ne own _ _
      rw [still]
      simp [own]

/-- With their transfers acknowledged, of any pages the ones that differ are shown. -/
theorem diff_pages_panel (acks : Page → Acks) (pages : List Page) (once : pages.Nodup)
    (display : Display)
    (acknowledged : ∀ page ∈ pages, display.gram page ≠ display.old page →
      (acks page).complete) (page : Page) :
    (pages.foldl (fun display page => refreshPage (acks page) page display) display).panel page =
      if page ∈ pages ∧ display.gram page ≠ display.old page then display.gram page
      else display.panel page := by
  induction pages generalizing display with
  | nil => simp
  | cons head rest inductionHypothesis =>
    obtain ⟨fresh, nodup⟩ := List.nodup_cons.mp once
    obtain ⟨gram, old⟩ := refresh_page_frame (acks head) head display
    rw [List.foldl_cons, inductionHypothesis nodup]
    · rw [gram]
      by_cases own : page = head
      · subst own
        by_cases same : display.gram page = display.old page
        · simp [refresh_page_same same, same]
        · have complete := acknowledged page List.mem_cons_self same
          simp [refresh_page_differs same, same, fresh, send_panel complete]
      · rw [old page own]
        have still : (refreshPage (acks head) head display).panel page = display.panel page := by
          by_cases same : display.gram head = display.old head
          · rw [refresh_page_same same]
          · rw [refresh_page_differs same, send_panel (acknowledged head List.mem_cons_self same)]
            exact Function.update_of_ne own _ _
        rw [still]
        simp [own]
    · intro other member differs
      have apart : other ≠ head := by
        rintro rfl
        exact fresh member
      rw [gram, old other apart] at differs
      exact acknowledged other (List.mem_cons_of_mem _ member) differs

/-- `oled_refresh_diff` sends the pages that differ. -/
theorem diff_sent (acks : Page → Acks) (display : Display) (page : Page) :
    display.sent page < (oledRefreshDiff acks display).sent page ↔
      display.gram page ≠ display.old page := by
  rw [oledRefreshDiff, diff_pages_sent acks _ (List.nodup_finRange 4)]
  by_cases same : display.gram page = display.old page
  · simp [same]
  · simp [same]

/-- With its transfers acknowledged `oled_refresh_diff` shows the pages that differ. -/
theorem diff_panel {acks : Page → Acks} {display : Display}
    (acknowledged : ∀ page, display.gram page ≠ display.old page → (acks page).complete)
    (page : Page) :
    (oledRefreshDiff acks display).panel page =
      if display.gram page ≠ display.old page then display.gram page
      else display.panel page := by
  rw [oledRefreshDiff, diff_pages_panel acks _ (List.nodup_finRange 4) display
    fun page _ => acknowledged page]
  simp

/-- With their transfers acknowledged any pages are shown by `oled_refresh`. -/
theorem refresh_pages_panel (acks : Page → Acks) (complete : ∀ page, (acks page).complete)
    (pages : List Page) (display : Display) (page : Page) :
    (pages.foldl (fun display page => sendPage (acks page) page display) display).panel page =
      if page ∈ pages then display.gram page else display.panel page := by
  induction pages generalizing display with
  | nil => simp
  | cons head rest inductionHypothesis =>
    rw [List.foldl_cons, inductionHypothesis, send_panel (complete head)]
    have gram : (sendPage (acks head) head display).gram = display.gram := rfl
    rw [gram]
    by_cases own : page = head
    · simp [own]
    · simp [own]

/-- With its transfers acknowledged `oled_refresh` leaves the panel with `OLED_GRAM`. -/
theorem refresh_panel {acks : Page → Acks} (complete : ∀ page, (acks page).complete)
    (display : Display) : (oledRefresh acks display).panel = display.gram := by
  funext page
  rw [oledRefresh, refresh_pages_panel acks complete]
  simp

/-- A call of `oled_refresh_diff` does what it should exactly if the pages that it skips
need no transfer. -/
theorem refreshed_iff (acks : Page → Acks) (before : Display) :
    Refreshed acks before (oledRefreshDiff acks before) ↔ Spared acks before := by
  have sent : Acknowledged acks before (oledRefreshDiff acks before) ↔
      ∀ page, before.gram page ≠ before.old page → (acks page).complete :=
    forall_congr' fun page => imp_congr_left (diff_sent acks before page)
  constructor
  · rintro ⟨shown, resent⟩
    refine ⟨fun acknowledged page same => ?_, fun page same => ?_⟩
    · have panel := congrFun (shown (sent.mpr acknowledged)).1 page
      rw [diff_panel acknowledged, if_neg (not_not.mpr same)] at panel
      exact panel
    · by_contra failed
      have again := resent page (Bool.eq_true_of_not_eq_false failed)
      exact (diff_sent acks before page).mp again same
  · rintro ⟨shown, kept⟩
    constructor
    · intro complete
      have acknowledged := sent.mp complete
      have panel : (oledRefreshDiff acks before).panel = before.gram := by
        funext page
        rw [diff_panel acknowledged]
        split
        · rfl
        case isFalse same => exact shown acknowledged page (not_not.mp same)
      refine ⟨panel, fun whole wholeComplete => ?_⟩
      rw [panel, refresh_panel wholeComplete]
    · intro page failed
      rw [diff_sent]
      intro same
      rw [kept page same] at failed
      cases failed

/-- The calls of an event do what they should exactly if they skip pages that need no
transfer only. -/
theorem right_iff (display : Display) (event : Event) :
    Right display event ↔ Covered display event := by
  refine forall_congr' fun before => forall_congr' fun acks => ?_
  refine forall_congr' fun call => ?_
  cases event with
  | draw gram => cases call
  | refresh others => cases call
  | refreshDiff others =>
    cases call
    exact refreshed_iff _ _
  | clear others =>
    cases call
    exact refreshed_iff _ _

/-- The copies are `OLED_GRAM` after any pages, as far as these go. -/
theorem diff_pages_old (acks : Page → Acks) (pages : List Page) (display : Display) (page : Page) :
    (pages.foldl (fun display page => refreshPage (acks page) page display) display).old page =
      if page ∈ pages then display.gram page else display.old page := by
  induction pages generalizing display with
  | nil => simp
  | cons head rest inductionHypothesis =>
    obtain ⟨gram, old⟩ := refresh_page_frame (acks head) head display
    rw [List.foldl_cons, inductionHypothesis, gram]
    by_cases own : page = head
    · subst own
      by_cases same : display.gram page = display.old page
      · simp [refresh_page_same same, same]
      · simp [refresh_page_differs same, sendPage, oledSetCursor]
    · rw [old page own]
      simp [own]

/-- With their transfers acknowledged any pages do not fail. -/
theorem diff_pages_failed (acks : Page → Acks) (complete : ∀ page, (acks page).complete)
    (pages : List Page) (display : Display) (fine : ∀ page, display.failed page = false)
    (page : Page) :
    (pages.foldl (fun display page => refreshPage (acks page) page display) display).failed page =
      false := by
  induction pages generalizing display with
  | nil => exact fine page
  | cons head rest inductionHypothesis =>
    refine inductionHypothesis _ fun other => ?_
    change (refreshPage (acks head) head display).failed other = false
    by_cases same : display.gram head = display.old head
    · rw [refresh_page_same same]
      exact fine other
    · rw [refresh_page_differs same]
      simp only [sendPage, oledSetCursor, Function.update_apply]
      split
      · simp [complete head]
      · exact fine other

/-- With their transfers acknowledged any pages do not fail in `oled_refresh`. -/
theorem refresh_pages_failed (acks : Page → Acks) (complete : ∀ page, (acks page).complete)
    (pages : List Page) (display : Display) (fine : ∀ page, display.failed page = false)
    (page : Page) :
    (pages.foldl (fun display page => sendPage (acks page) page display) display).failed page =
      false := by
  induction pages generalizing display with
  | nil => exact fine page
  | cons head rest inductionHypothesis =>
    refine inductionHypothesis _ fun other => ?_
    simp only [sendPage, oledSetCursor, Function.update_apply]
    split
    · simp [complete head]
    · exact fine other

/-- `oled_refresh` leaves the two buffers alone. -/
theorem refresh_buffers (acks : Page → Acks) (display : Display) :
    (oledRefresh acks display).gram = display.gram ∧
      (oledRefresh acks display).old = display.old := by
  unfold oledRefresh
  induction List.finRange 4 generalizing display with
  | nil => exact ⟨rfl, rfl⟩
  | cons head rest inductionHypothesis => exact inductionHypothesis _

/-- The panel is as the copies are, and no page has failed. -/
structure Mirrored (display : Display) : Prop where
  panel : display.panel = display.old
  fine : ∀ page, display.failed page = false

/-- Events that keep it so: all transfers are acknowledged, and `oled_refresh` is called with
`OLED_GRAM` as it was at the last `oled_refresh_diff` only. -/
def Calm (display : Display) : Event → Prop
  | .draw _ => True
  | .refresh acks => (∀ page, (acks page).complete) ∧ display.gram = display.old
  | .refreshDiff acks => ∀ page, (acks page).complete
  | .clear acks => ∀ page, (acks page).complete

/-- A call of `oled_refresh_diff` with all transfers acknowledged shows `OLED_GRAM`, if the panel
has the pages that it skips. -/
theorem diff_shown {acks : Page → Acks} (complete : ∀ page, (acks page).complete)
    {display : Display} (skipped : ∀ page, display.gram page = display.old page →
      display.panel page = display.gram page) :
    (oledRefreshDiff acks display).panel = display.gram := by
  funext page
  rw [diff_panel fun other _ => complete other]
  split
  case isTrue => rfl
  case isFalse same => exact skipped page (not_not.mp same)

/-- A call of `oled_refresh_diff` with all transfers acknowledged makes the panel as the
copies are, if the pages that it skips are. -/
theorem diff_mirrored {acks : Page → Acks} (complete : ∀ page, (acks page).complete)
    {display : Display} (fine : ∀ page, display.failed page = false)
    (skipped : ∀ page, display.gram page = display.old page →
      display.panel page = display.gram page) : Mirrored (oledRefreshDiff acks display) where
  panel := by
    rw [diff_shown complete skipped]
    funext page
    rw [oledRefreshDiff, diff_pages_old, if_pos (List.mem_finRange page)]
  fine := fun page => diff_pages_failed acks complete _ display fine page

/-- A call of `oled_refresh_diff` with all transfers acknowledged keeps the panel as the
copies are. -/
theorem Mirrored.diff {acks : Page → Acks} (complete : ∀ page, (acks page).complete)
    {display : Display} (mirrored : Mirrored display) :
    Mirrored (oledRefreshDiff acks display) := by
  apply diff_mirrored complete mirrored.fine
  intro page same
  rw [mirrored.panel, same]

/-- A blank `OLED_GRAM` does not matter to it. -/
theorem Mirrored.blanked {display : Display} (mirrored : Mirrored display) :
    Mirrored (blanked display) := ⟨mirrored.panel, mirrored.fine⟩

/-- With the panel as the copies are the pages that are skipped need no transfer. -/
theorem Mirrored.spared (acks : Page → Acks) {display : Display} (mirrored : Mirrored display) :
    Spared acks display := by
  refine ⟨fun _ page same => ?_, fun page _ => mirrored.fine page⟩
  rw [mirrored.panel, same]

/-- A calm event keeps the panel as the copies are. -/
theorem step_mirrored (display : Display) (event : Event) (mirrored : Mirrored display)
    (calm : Calm display event) : Mirrored (step display event) := by
  cases event with
  | draw gram => exact ⟨mirrored.panel, mirrored.fine⟩
  | refresh acks =>
    obtain ⟨complete, same⟩ := calm
    refine ⟨?_, fun page => refresh_pages_failed acks complete _ display mirrored.fine page⟩
    change (oledRefresh acks display).panel = (oledRefresh acks display).old
    rw [refresh_panel complete, (refresh_buffers acks display).2, same]
  | refreshDiff acks => exact mirrored.diff calm
  | clear acks => exact mirrored.blanked.diff calm

/-- With the panel as the copies are every event does what it should. -/
theorem Mirrored.right {display : Display} (mirrored : Mirrored display) (event : Event) :
    Right display event := by
  rw [right_iff]
  intro before acks call
  cases event with
  | draw gram => cases call
  | refresh others => cases call
  | refreshDiff others =>
    cases call
    exact mirrored.spared _
  | clear others =>
    cases call
    exact mirrored.blanked.spared _

/-- Over a run of calm events every call does what it should. -/
theorem calm_right (start : Display) (mirrored : Mirrored start) (events : List Event)
    (calm : Along step Calm start events) : Along step Right start events := by
  induction events generalizing start with
  | nil => exact True.intro
  | cons event rest inductionHypothesis =>
    exact ⟨mirrored.right event,
      inductionHypothesis (step start event) (step_mirrored start event mirrored calm.1) calm.2⟩

/-- A point sets its bit of its byte. -/
theorem draw_point_bit (x y : Nat) (t : Bool) (gram : Gram) (page : Page) (column : Column)
    (i : Nat) (inside : i < 8) :
    (oledDrawPoint x y t gram page column).getLsbD i =
      if (page.val = y / 8 ∧ column.val = x) ∧ i = y % 8 then t
      else (gram page column).getLsbD i := by
  have point := @bit_get 8 (y % 8) i (Nat.mod_lt _ (by norm_num))
  unfold oledDrawPoint
  by_cases here : page.val = y / 8 ∧ column.val = x
  · rw [if_pos here]
    cases t with
    | true =>
      simp only [if_true, BitVec.getLsbD_or, point, here, and_self, true_and]
      by_cases own : i = y % 8
      · simp [own]
      · simp [own]
    | false =>
      simp only [Bool.false_eq_true, if_false, BitVec.getLsbD_not, BitVec.getLsbD_or, point, here,
        and_self, true_and, inside, decide_true]
      by_cases own : i = y % 8
      · simp [own]
      · simp [own]
  · rw [if_neg here, if_neg fun all => here all.1]

/-- The first points of a byte of a picture. -/
theorem draw_points (x n : Nat) (temp : Byte) (gram : Gram) (page : Page) (column : Column)
    (count : Nat) (most : count ≤ 8) (i : Nat) (inside : i < 8) :
    ((List.range count).foldl
      (fun gram m => oledDrawPoint x (8 * n + m) (if temp.getLsbD m then true else !true) gram)
      gram page column).getLsbD i =
      if (page.val = n ∧ column.val = x) ∧ i < count then temp.getLsbD i
      else (gram page column).getLsbD i := by
  induction count with
  | zero => simp
  | succ count inductionHypothesis =>
    rw [List.range_succ, List.foldl_append, List.foldl_cons, List.foldl_nil,
      draw_point_bit _ _ _ _ _ _ i inside, inductionHypothesis (by omega)]
    have row : (8 * n + count) / 8 = n := by omega
    have position : (8 * n + count) % 8 = count := by omega
    rw [row, position]
    by_cases here : page.val = n ∧ column.val = x
    · rcases lt_trichotomy i count with less | same | more
      · simp [here, less, less.ne, less.trans (Nat.lt_succ_self count)]
      · subst same
        simp [here]
      · simp [here, more.ne', more.not_gt, Nat.not_lt.mpr (Nat.succ_le_of_lt more)]
    · simp only [here, false_and, if_false]

/-- A byte of a picture becomes its byte of `OLED_GRAM`. -/
theorem draw_byte (x n : Nat) (temp : Byte) (gram : Gram) (page : Page) (column : Column) :
    drawByte x (8 * n) temp true gram page column =
      if page.val = n ∧ column.val = x then temp else gram page column := by
  apply BitVec.eq_of_getLsbD_eq
  intro i inside
  rw [drawByte, draw_points x n temp gram page column 8 le_rfl i inside]
  split
  case isTrue here => rw [if_pos here.1]
  case isFalse other => rw [if_neg fun here => other ⟨here, inside⟩]

/-- The first bytes of a row of a picture. -/
theorem draw_row (n count : Nat) (bmp : Nat → Byte) (gram : Gram) (page : Page)
    (column : Column) :
    drawRow 0 (8 * n) count bmp true gram page column =
      if page.val = n ∧ column.val < count then bmp column.val else gram page column := by
  unfold drawRow
  induction count with
  | zero => simp
  | succ count inductionHypothesis =>
    rw [List.range_succ, List.foldl_append, List.foldl_cons, List.foldl_nil, draw_byte,
      inductionHypothesis, zero_add]
    by_cases row : page.val = n
    · rcases lt_trichotomy column.val count with less | same | more
      · simp [row, less, less.ne, less.trans (Nat.lt_succ_self count)]
      · simp [row, same]
      · simp [row, more.ne', more.not_gt, Nat.not_lt.mpr (Nat.succ_le_of_lt more)]
    · simp only [row, false_and, if_false]

/-- A picture of the size of the display becomes `OLED_GRAM`. -/
theorem show_picture (bmp : Nat → Byte) (gram : Gram) (page : Page) (column : Column) :
    oledShowPicture 0 0 128 32 bmp true gram page column =
      bmp (page.val * 128 + column.val) := by
  have rows : ∀ count, (List.range count).foldl
      (fun gram n => drawRow 0 (0 + 8 * n) 128 (fun i => bmp (n * 128 + i)) true gram)
      gram page column =
        if page.val < count then bmp (page.val * 128 + column.val) else gram page column := by
    intro count
    induction count with
    | zero => simp
    | succ count inductionHypothesis =>
      rw [List.range_succ, List.foldl_append, List.foldl_cons, List.foldl_nil, zero_add, draw_row,
        inductionHypothesis]
      rcases lt_trichotomy page.val count with less | same | more
      · simp [less, less.ne, less.trans (Nat.lt_succ_self count)]
      · simp [same, column.isLt]
      · simp [more.ne', more.not_gt, Nat.not_lt.mpr (Nat.succ_le_of_lt more)]
  have height : (32 / 8 + if 32 % 8 = 0 then 0 else 1) = 4 := by decide
  rw [oledShowPicture, rows, height, if_pos page.isLt]

/-- `company_logo` as a picture. -/
def logoGram : Gram := fun page column => logoByte (page.val * 128 + column.val)

/-- After `oled_init` with its transfers acknowledged the logo is in `OLED_GRAM` and on the
panel, and the copies are blank. -/
theorem init_display {acks : Page → Acks} (complete : ∀ page, (acks page).complete)
    (pageAck : Bool) (panel : Gram) (cursor : Page) :
    let display := oledInit pageAck acks (powerUp panel cursor)
    display.gram = logoGram ∧ display.old = (fun _ _ => 0) ∧ display.panel = logoGram ∧
      ∀ page, display.failed page = false := by
  have logo : oledShowPicture 0 0 128 32 logoByte true (powerUp panel cursor).gram = logoGram := by
    funext page column
    exact show_picture logoByte _ page column
  refine ⟨?_, ?_, ?_, fun page => ?_⟩
  · rw [oledInit, (refresh_buffers _ _).1, logo]
  · rw [oledInit, (refresh_buffers _ _).2]
    rfl
  · rw [oledInit, refresh_panel complete, logo]
  · exact refresh_pages_failed acks complete _ _ (fun _ => rfl) page

/-- A picture that leaves no page blank that the logo does not: the pages of it that are skipped
behind `oled_init` are on the panel. -/
theorem first_picture_skipped {display : Display} (old : display.old = fun _ _ => 0)
    (shown : display.panel = logoGram)
    (drawn : ∀ page, display.gram page = (fun _ => 0) → logoGram page = fun _ => 0) (page : Page)
    (same : display.gram page = display.old page) : display.panel page = display.gram page := by
  have blank : display.gram page = fun _ => 0 := same.trans (congrFun old page)
  have logo : display.panel page = logoGram page := congrFun shown page
  exact logo.trans ((drawn page blank).trans blank.symm)

/-- After `oled_init` and such a picture, over a run of calm events every call does what it
should, that of the picture included. -/
theorem calm_after_init {acks first : Page → Acks} (initComplete : ∀ page, (acks page).complete)
    (complete : ∀ page, (first page).complete) (pageAck : Bool) (panel : Gram) (cursor : Page)
    (gram : Gram) (drawn : ∀ page, gram page = (fun _ => 0) → logoGram page = fun _ => 0)
    (events : List Event)
    (calm : Along step Calm (oledRefreshDiff first
      { oledInit pageAck acks (powerUp panel cursor) with gram := gram }) events) :
    Along step Right (oledInit pageAck acks (powerUp panel cursor))
      (.draw gram :: .refreshDiff first :: events) := by
  obtain ⟨-, old, shown, fine⟩ := init_display initComplete pageAck panel cursor
  generalize oledInit pageAck acks (powerUp panel cursor) = start at old shown fine calm ⊢
  have skipped := @first_picture_skipped { start with gram := gram } old shown drawn
  have spared : Covered { start with gram := gram } (.refreshDiff first) := by
    rintro before acks ⟨⟩
    exact ⟨fun _ => skipped, fun page _ => fine page⟩
  refine ⟨?_, (right_iff _ _).mpr spared, ?_⟩
  · rintro before acks ⟨⟩
  · have mirrored := @diff_mirrored first complete { start with gram := gram } fine skipped
    exact calm_right _ mirrored events calm

/-- From when the display is switched on, over every sequence of changes and calls: the
calls do what they should exactly if they skip pages that need no transfer only. That is so
whenever all transfers are acknowledged, the first picture leaves no page blank that the logo
does not, and `oled_refresh` is called with `OLED_GRAM` as it was at the last
`oled_refresh_diff` only. -/
theorem display_refresh_iff (panel : Gram) (cursor : Page) (pageAck : Bool)
    (acks : Page → Acks) :
    (∀ events, Along step Right (oledInit pageAck acks (powerUp panel cursor)) events ↔
      Along step Covered (oledInit pageAck acks (powerUp panel cursor)) events) ∧
    ((∀ page, (acks page).complete) → ∀ (gram : Gram) (first : Page → Acks) (events : List Event),
      (∀ page, gram page = (fun _ => 0) → logoGram page = fun _ => 0) →
      (∀ page, (first page).complete) →
      Along step Calm (oledRefreshDiff first
        { oledInit pageAck acks (powerUp panel cursor) with gram := gram }) events →
      Along step Right (oledInit pageAck acks (powerUp panel cursor))
        (.draw gram :: .refreshDiff first :: events)) := by
  constructor
  · exact @along_iff _ _ step (fun _ => True) _ _ (fun _ _ _ => True.intro)
      (fun display event _ => right_iff display event) _ True.intro
  · intro initComplete gram first events drawn complete calm
    exact calm_after_init initComplete complete pageAck panel cursor gram drawn events calm

/-- Everything is acknowledged. -/
def allAcks : Page → Acks := fun _ => ⟨true, true, true, true⟩

/-- The logo is drawn again and sent, and the display is cleared and drawn full. -/
theorem display_refresh_redrawn :
    Along step Right (oledInit true allAcks (powerUp (fun _ _ => 0) 0))
      [.draw logoGram, .refreshDiff allAcks, .clear allAcks, .draw fun _ _ => 0xFF,
        .refreshDiff allAcks] := by
  have complete : ∀ page : Page, (allAcks page).complete := fun _ => ⟨rfl, rfl, rfl, rfl⟩
  exact (display_refresh_iff (fun _ _ => 0) 0 true allAcks).2 complete logoGram allAcks
    [.clear allAcks, .draw fun _ _ => 0xFF, .refreshDiff allAcks] (fun _ blank => blank) complete
    ⟨complete, True.intro, complete, True.intro⟩

/-- The logo is cleared after the start: the copies are blank already, so that nothing is
sent and the panel goes on showing it. -/
theorem logo_stays :
    ¬ ∀ (panel : Gram) (cursor : Page) (pageAck : Bool) (acks : Page → Acks)
      (events : List Event), Along step Right (oledInit pageAck acks (powerUp panel cursor))
        events := by
  intro always
  have complete : ∀ page : Page, (allAcks page).complete := fun _ => ⟨rfl, rfl, rfl, rfl⟩
  have right := (always (fun _ _ => 0) 0 true allAcks [.clear allAcks]).1
  obtain ⟨-, old, shown, -⟩ := init_display complete true (fun _ _ => 0) 0
  generalize oledInit true allAcks (powerUp (fun _ _ => 0) 0) = display at right old shown
  have spared := (right_iff display (.clear allAcks)).mp right (blanked display) allAcks rfl
  have panel := spared.shown (fun page _ => complete page) 1 (congrFun old 1).symm
  have logo : logoGram 1 = fun _ => 0 := (congrFun shown 1).symm.trans panel
  exact absurd (congrFun logo 5) (by decide)

end Pyrometer.DisplayRefresh
