import Pyrometer.OledWires

/-!
# Text on the display

`oled_show_char` puts the glyph of a character into `OLED_GRAM` point by point, column by column
and page by page, and `oled_show_string` puts characters side by side. A text is meant as the
bytes of its glyphs in the columns that it covers. A pass of the menu blanks `OLED_GRAM`, shows
its texts and refreshes the display.

The tables of glyphs are a parameter. The coordinates are kept in 8 bits. Points outside of the
display, which the source writes outside of `OLED_GRAM`, are left out.
-/

namespace Pyrometer.OledText

open ByteMemory DisplayRefresh I2cWires I2cWrites OledWires Runs

/-- A coordinate in 8 bits. -/
def uint8 (value : Nat) : Nat := value % 256

/-- The columns of a glyph. -/
def width (size1 : Nat) : Nat := if size1 = 8 then 6 else size1 / 2

/-- `size2`: the bytes of a glyph. -/
def size2 (size1 : Nat) : Nat :=
  if size1 = 8 then 6
  else uint8 ((size1 / 8 + if size1 % 8 = 0 then 0 else 1) * (size1 / 2))

/-- The points of a byte of a glyph. -/
def charByte (x y : Nat) (temp : Byte) (mode : Bool) (gram : Gram) : Gram :=
  (List.range 8).foldl
    (fun gram m => oledDrawPoint x (uint8 (y + m)) (if temp.getLsbD m then mode else !mode) gram)
    gram

/-- Where `oled_show_char` stands. -/
structure Place where
  x : Nat
  y0 : Nat
  gram : Gram

/-- A round of `oled_show_char`. -/
def charRound (x0 size1 : Nat) (mode : Bool) (temp : Byte) (place : Place) : Place :=
  let gram := charByte place.x place.y0 temp mode place.gram
  let x := uint8 (place.x + 1)
  if size1 ≠ 8 ∧ x = x0 + size1 / 2 then ⟨x0, uint8 (place.y0 + 8), gram⟩
  else ⟨x, place.y0, gram⟩

section

variable (font : Nat → Nat → Nat → Byte)

/-- `oled_show_char`. -/
def oledShowChar (x y : Nat) (chr : Byte) (size1 : Nat) (mode : Bool) (gram : Gram) : Gram :=
  if size1 ∈ [8, 12, 16, 24] then
    ((List.range (size2 size1)).foldl
      (fun place i => charRound x size1 mode (font size1 (chr - 0x20).toNat i) place)
      ⟨x, y, gram⟩).gram
  else gram

/-- `oled_show_string`, for the characters in front of the end of the text. -/
def oledShowString (size1 : Nat) (mode : Bool) (y : Nat) : List Byte → Nat → Gram → Gram
  | [], _, gram => gram
  | chr :: rest, x, gram =>
      if 0x20 ≤ chr.toNat ∧ chr.toNat ≤ 0x20 + 95 then
        oledShowString size1 mode y rest (uint8 (x + width size1))
          (oledShowChar font x y chr size1 mode gram)
      else gram

/-- A byte of a glyph as it is shown. -/
def shade (mode : Bool) (temp : Byte) : Byte := if mode then temp else ~~~temp

end

/-- The pages of a glyph. -/
def pages (size1 : Nat) : Nat := size2 size1 / width size1

/-- The sizes of the tables. -/
theorem size_facts : ∀ size1 ∈ [8, 12, 16, 24], 0 < width size1 ∧ width size1 ≤ 12 ∧
    size2 size1 = pages size1 * width size1 ∧ 0 < pages size1 ∧ pages size1 ≤ 3 ∧
      (size1 = 8 → pages size1 = 1) ∧ (size1 ≠ 8 → size1 / 2 = width size1) := by
  decide

/-- The points of a byte at the start of a page are the byte in its column. -/
theorem char_byte (x n : Nat) (inside : n < 4) (temp : Byte) (mode : Bool) (gram : Gram)
    (page : Page) (column : Column) :
    charByte x (8 * n) temp mode gram page column =
      if page.val = n ∧ column.val = x then shade mode temp else gram page column := by
  have drawn : charByte x (8 * n) temp mode gram =
      drawByte x (8 * n) (shade mode temp) true gram := by
    refine List.foldl_ext _ _ gram fun gram m member => ?_
    have below := List.mem_range.mp member
    have small : uint8 (8 * n + m) = 8 * n + m := Nat.mod_eq_of_lt (by omega)
    rw [small]
    refine congrArg (oledDrawPoint x (8 * n + m) · gram) ?_
    cases mode with
    | true => rfl
    | false =>
      have flipped : (shade false temp).getLsbD m = !temp.getLsbD m := by
        change (~~~temp).getLsbD m = _
        rw [BitVec.getLsbD_not, decide_eq_true below, Bool.true_and]
      rw [flipped]
      cases temp.getLsbD m <;> rfl
  rw [drawn, draw_byte]

/-- Counting on goes to the next column, or to the first column of the next row. -/
theorem next_column (count : Nat) {columns : Nat} (positive : 0 < columns) :
    if count % columns + 1 < columns then
      (count + 1) / columns = count / columns ∧ (count + 1) % columns = count % columns + 1
    else
      (count + 1) / columns = count / columns + 1 ∧ (count + 1) % columns = 0 := by
  have split := Nat.div_add_mod count columns
  have low := Nat.mod_lt count positive
  split
  case isTrue more =>
    exact (Nat.div_mod_unique positive).mpr ⟨by omega, more⟩
  case isFalse last =>
    refine (Nat.div_mod_unique positive).mpr ⟨?_, positive⟩
    rw [Nat.mul_add, Nat.mul_one]
    omega

section

variable {font : Nat → Nat → Nat → Byte} {size1 : Nat}

/-- The rounds of `oled_show_char` up to one of them put the glyph up to it into its pages. -/
theorem char_rounds (supported : size1 ∈ [8, 12, 16, 24]) (x n : Nat) (glyph : Nat → Byte)
    (mode : Bool) (gram : Gram) (right : x + width size1 ≤ 128) (bottom : n + pages size1 ≤ 4)
    (count : Nat) (within : count ≤ size2 size1) (place : Place)
    (reached : place = (List.range count).foldl
      (fun place i => charRound x size1 mode (glyph i) place) ⟨x, 8 * n, gram⟩) :
    (count < size2 size1 → place.x = x + count % width size1 ∧
        place.y0 = 8 * (n + count / width size1)) ∧
      ∀ (page : Page) (column : Column), place.gram page column =
        if n ≤ page.val ∧ x ≤ column.val ∧ column.val < x + width size1 ∧
            (page.val - n) * width size1 + (column.val - x) < count then
          shade mode (glyph ((page.val - n) * width size1 + (column.val - x)))
        else gram page column := by
  obtain ⟨positive, narrow, whole, -, few, single, half⟩ := size_facts size1 supported
  induction count generalizing place with
  | zero =>
    subst reached
    exact ⟨fun _ => ⟨by simp, by simp⟩, fun page column => by simp⟩
  | succ count inductionHypothesis =>
    rw [List.range_succ, List.foldl_append, List.foldl_cons, List.foldl_nil] at reached
    obtain ⟨before, stands⟩ : ∃ before, before = (List.range count).foldl
      (fun place i => charRound x size1 mode (glyph i) place) ⟨x, 8 * n, gram⟩ := ⟨_, rfl⟩
    rw [← stands] at reached
    obtain ⟨coordinates, drawn⟩ := inductionHypothesis (by omega) before stands
    obtain ⟨atX, atY⟩ := coordinates (by omega)
    have low := Nat.mod_lt count positive
    have split := Nat.div_add_mod count (width size1)
    have row : count / width size1 < pages size1 :=
      Nat.div_lt_of_lt_mul (by rw [Nat.mul_comm, ← whole]; omega)
    have nextX : uint8 (before.x + 1) = x + count % width size1 + 1 := by
      rw [atX]
      exact Nat.mod_eq_of_lt (by omega)
    have nextY : uint8 (before.y0 + 8) = 8 * (n + (count / width size1 + 1)) := by
      rw [atY, uint8, Nat.mod_eq_of_lt (by omega)]
      omega
    have gramAfter : place.gram = charByte before.x before.y0 (glyph count) mode before.gram := by
      rw [reached, charRound]
      split <;> rfl
    constructor
    · intro more
      have next := next_column count positive
      rw [reached, charRound, nextX, nextY]
      by_cases wraps : size1 ≠ 8 ∧ x + count % width size1 + 1 = x + size1 / 2
      · rw [if_pos wraps]
        rw [half wraps.1] at wraps
        rw [if_neg (by omega)] at next
        rw [next.1, next.2]
        exact ⟨rfl, rfl⟩
      · rw [if_neg wraps]
        have stays : count % width size1 + 1 < width size1 := by
          by_cases small : size1 = 8
          · rw [single small, Nat.one_mul] at whole
            have same : count % width size1 = count := Nat.mod_eq_of_lt (by omega)
            omega
          · rw [half small] at wraps
            have apart := not_and.mp wraps small
            omega
        rw [if_pos stays] at next
        rw [next.1, next.2]
        exact ⟨rfl, atY⟩
    · intro page column
      rw [gramAfter, atX, atY, char_byte _ _ (by omega), drawn]
      by_cases area : n ≤ page.val ∧ x ≤ column.val ∧ column.val < x + width size1
      · by_cases here : (page.val - n) * width size1 + (column.val - x) = count
        · have unique : count / width size1 = page.val - n ∧
              count % width size1 = column.val - x :=
            (Nat.div_mod_unique positive).mpr
              ⟨by rw [Nat.add_comm, Nat.mul_comm]; exact here, by omega⟩
          rw [if_pos ⟨by omega, by omega⟩, if_pos ⟨area.1, area.2.1, area.2.2, by omega⟩, here]
        · have other : ¬ (page.val = n + count / width size1 ∧
              column.val = x + count % width size1) := by
            rintro ⟨samePage, sameColumn⟩
            apply here
            rw [samePage, sameColumn, Nat.add_sub_cancel_left, Nat.add_sub_cancel_left,
              Nat.mul_comm]
            exact split
          rw [if_neg other]
          refine if_congr ?_ rfl rfl
          constructor
          · rintro ⟨top, left, inner, less⟩
            exact ⟨top, left, inner, by omega⟩
          · rintro ⟨top, left, inner, less⟩
            exact ⟨top, left, inner, by omega⟩
      · have outside : ¬ (page.val = n + count / width size1 ∧
            column.val = x + count % width size1) := by
          rintro ⟨samePage, sameColumn⟩
          exact area ⟨by rw [samePage]; exact Nat.le_add_right _ _, by omega, by omega⟩
        rw [if_neg outside, if_neg (by tauto), if_neg (by tauto)]

/-- A character is put into its pages and columns. -/
theorem show_char (supported : size1 ∈ [8, 12, 16, 24]) (x n : Nat) (chr : Byte) (mode : Bool)
    (gram : Gram) (right : x + width size1 ≤ 128) (bottom : n + pages size1 ≤ 4) (page : Page)
    (column : Column) :
    oledShowChar font x (8 * n) chr size1 mode gram page column =
      if n ≤ page.val ∧ page.val < n + pages size1 ∧ x ≤ column.val ∧
          column.val < x + width size1 then
        shade mode (font size1 (chr - 0x20).toNat
          ((page.val - n) * width size1 + (column.val - x)))
      else gram page column := by
  obtain ⟨positive, -, whole, -⟩ := size_facts size1 supported
  obtain ⟨-, drawn⟩ := char_rounds supported x n (font size1 (chr - 0x20).toNat) mode gram right
    bottom (size2 size1) le_rfl _ rfl
  rw [oledShowChar, if_pos supported, drawn]
  refine if_congr ?_ rfl rfl
  constructor
  · rintro ⟨top, left, inner, less⟩
    rw [whole] at less
    have row : page.val - n < pages size1 :=
      Nat.lt_of_mul_lt_mul_right (Nat.lt_of_le_of_lt (Nat.le_add_right _ _) less)
    exact ⟨top, by omega, left, inner⟩
  · rintro ⟨top, low, left, inner⟩
    refine ⟨top, left, inner, ?_⟩
    have rows : (page.val - n + 1) * width size1 ≤ pages size1 * width size1 :=
      Nat.mul_le_mul_right _ (by omega)
    rw [Nat.add_mul, Nat.one_mul] at rows
    omega

/-- A text is put into its pages and columns, character by character. -/
theorem show_string (supported : size1 ∈ [8, 12, 16, 24]) (n : Nat) (mode : Bool)
    (bottom : n + pages size1 ≤ 4) (text : List Byte) (x : Nat) (gram : Gram)
    (printable : ∀ chr ∈ text, 0x20 ≤ chr.toNat ∧ chr.toNat ≤ 0x20 + 95)
    (right : x + text.length * width size1 ≤ 128) (page : Page) (column : Column) :
    oledShowString font size1 mode (8 * n) text x gram page column =
      if n ≤ page.val ∧ page.val < n + pages size1 ∧ x ≤ column.val ∧
          column.val < x + text.length * width size1 then
        shade mode (font size1 (text.getD ((column.val - x) / width size1) 0 - 0x20).toNat
          ((page.val - n) * width size1 + (column.val - x) % width size1))
      else gram page column := by
  obtain ⟨positive, narrow, -⟩ := size_facts size1 supported
  induction text generalizing x gram with
  | nil =>
    rw [oledShowString, if_neg]
    rintro ⟨-, -, left, inner⟩
    rw [List.length_nil, Nat.zero_mul] at inner
    omega
  | cons chr rest inductionHypothesis =>
    rw [List.length_cons, Nat.add_mul, Nat.one_mul] at right ⊢
    have next : uint8 (x + width size1) = x + width size1 := Nat.mod_eq_of_lt (by omega)
    rw [oledShowString, if_pos (printable chr List.mem_cons_self), next,
      inductionHypothesis _ _ (fun other member => printable other (List.mem_cons_of_mem _ member))
        (by omega),
      show_char supported x n chr mode gram (by omega) bottom]
    by_cases rows : n ≤ page.val ∧ page.val < n + pages size1
    · rcases Nat.lt_or_ge column.val x with before | left
      · rw [if_neg (by omega), if_neg (by omega), if_neg (by omega)]
      · rcases Nat.lt_or_ge column.val (x + width size1) with first | later
        · have small : column.val - x < width size1 := by omega
          rw [if_neg (by omega), if_pos (by omega), if_pos (by omega), Nat.div_eq_of_lt small,
            Nat.mod_eq_of_lt small]
          rfl
        · have shift : column.val - x = column.val - (x + width size1) + width size1 := by omega
          by_cases inner : column.val < x + width size1 + rest.length * width size1
          · rw [if_pos (by omega), if_pos (by omega), shift, Nat.add_div_right _ positive,
              Nat.add_mod_right, List.getD_cons_succ]
          · rw [if_neg (by omega), if_neg (by omega), if_neg (by omega)]
    · rw [if_neg (by tauto), if_neg (by tauto), if_neg (by tauto)]

end

/-- A text that is shown: the column and the page that it starts in, its size and mode. -/
structure Line where
  x : Nat
  n : Nat
  size1 : Nat
  mode : Bool
  text : List Byte

/-- The text has characters of a table of glyphs only, and fits on the display. -/
structure Line.Fits (line : Line) : Prop where
  supported : line.size1 ∈ [8, 12, 16, 24]
  printable : ∀ chr ∈ line.text, 0x20 ≤ chr.toNat ∧ chr.toNat ≤ 0x20 + 95
  right : line.x + line.text.length * width line.size1 ≤ 128
  bottom : line.n + pages line.size1 ≤ 4

/-- A text of the menu in the middle of a line: `OLED_X_MID` less half its width. -/
def centred (n : Nat) (text : List Byte) : Line :=
  ⟨((64 - 4 * text.length : Int) % 256).toNat, n, 16, true, text⟩

/-- A text in the middle fits exactly if it has up to 16 characters. -/
theorem centred_fits {n : Nat} (high : n ≤ 2) {text : List Byte}
    (printable : ∀ chr ∈ text, 0x20 ≤ chr.toNat ∧ chr.toNat ≤ 0x20 + 95) :
    (centred n text).Fits ↔ text.length ≤ 16 := by
  have eight : width 16 = 8 := rfl
  have two : pages 16 = 2 := by decide
  constructor
  · intro fits
    have right : _ + text.length * width 16 ≤ 128 := fits.right
    rw [eight] at right
    omega
  · intro short
    refine ⟨by change 16 ∈ _; decide, printable, ?_, ?_⟩
    · change ((64 - 4 * text.length : Int) % 256).toNat + text.length * width 16 ≤ 128
      rw [eight]
      omega
    · change n + pages 16 ≤ 4
      rw [two]
      omega

section

variable (font : Nat → Nat → Nat → Byte)

/-- The text is shown. -/
def Line.put (line : Line) (gram : Gram) : Gram :=
  oledShowString font line.size1 line.mode (8 * line.n) line.text line.x gram

/-- The byte of the text at a place, if it covers it. -/
def Line.ink (line : Line) (page : Page) (column : Column) : Option Byte :=
  if line.n ≤ page.val ∧ page.val < line.n + pages line.size1 ∧ line.x ≤ column.val ∧
      column.val < line.x + line.text.length * width line.size1 then
    some (shade line.mode (font line.size1
      (line.text.getD ((column.val - line.x) / width line.size1) 0 - 0x20).toNat
      ((page.val - line.n) * width line.size1 + (column.val - line.x) % width line.size1)))
  else none

/-- A pass of the menu: `OLED_GRAM` is blanked, and the texts of an item are shown. -/
def drawn (lines : List Line) : Gram :=
  lines.foldl (fun gram line => line.put font gram) fun _ _ => 0

/-- What texts are meant to show: at each place the last one that covers it, else nothing. -/
def intended (lines : List Line) : Gram := fun page column =>
  (lines.reverse.findSome? fun line => line.ink font page column).getD 0

end

variable {font : Nat → Nat → Nat → Byte}

/-- A text that fits is shown where it covers the display. -/
theorem show_line {line : Line} (fits : line.Fits) (gram : Gram) (page : Page) (column : Column) :
    line.put font gram page column = (line.ink font page column).getD (gram page column) := by
  rw [Line.put, show_string fits.supported line.n line.mode fits.bottom line.text line.x gram
    fits.printable fits.right, Line.ink]
  split <;> rfl

/-- Texts that fit are shown as they are meant. -/
theorem drawn_intended (lines : List Line) (fits : ∀ line ∈ lines, line.Fits) :
    drawn font lines = intended font lines := by
  funext page column
  induction lines using List.reverseRecOn with
  | nil => rfl
  | append_singleton lines last inductionHypothesis =>
    have earlier := inductionHypothesis fun line member =>
      fits line (List.mem_append_left _ member)
    rw [drawn, List.foldl_append, List.foldl_cons, List.foldl_nil,
      show_line (fits last (List.mem_append_right _ List.mem_cons_self)), intended,
      List.reverse_append, List.reverse_singleton, List.singleton_append, List.findSome?_cons]
    cases last.ink font page column with
    | none => exact earlier
    | some byte => rfl

/-- Along every sequence of passes of the menu behind the logo, the texts of which fit, the memory
of the controller is what the texts of the last pass are meant to show, with nothing left of the
passes before, if the first pass leaves no page blank that the logo does not. -/
theorem texts_on_wires (font : Nat → Nat → Nat → Byte) (device : Nat → Bool) (pins : Pins)
    (idle : Idle pins) (start : Chip) (cursor : Page) (first : List Line)
    (passes : List (List Line)) (fits : ∀ lines ∈ first :: passes, ∀ line ∈ lines, line.Fits)
    (covers : ∀ page, drawn font first page = (fun _ => 0) → logoGram page = fun _ => 0)
    (listens : Listens device pins.clocks (initSends ++ sendsOf (started start pins cursor)
      (showing ((first :: passes).map (drawn font))))) (oled : Oled)
    (reached : oled = run (call device) (oledInit device pins)
      (showing ((first :: passes).map (drawn font)))) :
    (chipOf start oled.pins).panel = intended font (passes.getLastD first) ∧
      (chipOf start oled.pins).lit = true := by
  rw [List.map_cons] at listens reached
  have shown := pictures_on_wires device pins idle start cursor (drawn font first)
    (passes.map (drawn font)) covers listens oled reached
  have last : (passes.map (drawn font)).getLastD (drawn font first) =
      drawn font (passes.getLastD first) := by
    rw [List.getLastD_eq_getLast?, List.getLastD_eq_getLast?, List.getLast?_map, Option.getD_map]
  rw [last, drawn_intended _ (fits _ List.getLastD_mem_cons)] at shown
  exact shown

/-- The name of a menu is shown over that of another one, in a font of full glyphs. -/
theorem texts_on_wires_menu :
    (chipOf ⟨fun _ _ => 0, 5, 77, true, false⟩
      (run (call fun _ => true) (oledInit (fun _ => true) ⟨true, true, true, 0, ⟨[], []⟩⟩)
        (showing ([[centred 0 [0x49, 0x4E, 0x46, 0x4F], centred 2 [0x4D, 0x45, 0x4E, 0x55]],
          [centred 0 [0x50, 0x41]]].map (drawn fun _ _ _ => 0xFF)))).pins).panel =
      intended (fun _ _ _ => 0xFF) [centred 0 [0x50, 0x41]] := by
  have printable : ∀ text ∈ [[0x49, 0x4E, 0x46, 0x4F], [0x4D, 0x45, 0x4E, 0x55], [0x50, 0x41]],
      ∀ chr ∈ text, 0x20 ≤ (chr : Byte).toNat ∧ chr.toNat ≤ 0x20 + 95 := by
    decide
  have info := (@centred_fits 0 (by decide) _ (printable _ (List.mem_cons_self))).mpr (by decide)
  have menu := (@centred_fits 2 (by decide) [0x4D, 0x45, 0x4E, 0x55]
    (printable _ (by simp))).mpr (by decide)
  have both : ∀ line ∈ [centred 0 [0x49, 0x4E, 0x46, 0x4F], centred 2 [0x4D, 0x45, 0x4E, 0x55]],
      line.Fits := by
    rw [List.forall_mem_cons, List.forall_mem_singleton]
    exact ⟨info, menu⟩
  have para := (@centred_fits 0 (by decide) [0x50, 0x41] (printable _ (by simp))).mpr (by decide)
  have inked : ∀ page : Page, intended (fun _ _ _ => 0xFF)
      [centred 0 [0x49, 0x4E, 0x46, 0x4F], centred 2 [0x4D, 0x45, 0x4E, 0x55]] page 64 ≠ 0 := by
    decide
  refine (texts_on_wires (fun _ _ _ => 0xFF) (fun _ => true) ⟨true, true, true, 0, ⟨[], []⟩⟩
    ⟨rfl, rfl, rfl⟩ ⟨fun _ _ => 0, 5, 77, true, false⟩ ⟨0, pages_positive⟩
    [centred 0 [0x49, 0x4E, 0x46, 0x4F], centred 2 [0x4D, 0x45, 0x4E, 0x55]]
    [[centred 0 [0x50, 0x41]]] ?_ ?_ (absent_listens 0 _) _ rfl).1
  · intro lines member line inside
    simp only [List.mem_cons, List.not_mem_nil, or_false] at member
    rcases member with rfl | rfl
    · exact both line inside
    · rw [List.mem_singleton.mp inside]
      exact para
  · intro page blank
    rw [drawn_intended _ both] at blank
    exact absurd (congrFun blank 64) (inked page)

end Pyrometer.OledText
