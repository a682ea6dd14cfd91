import Pyrometer.CText
import Pyrometer.Runs

/-!
# The line editor of the console

`get_command` reads one byte after the other into `curr_cmd` and `work_thread` keeps
each line that is not empty in a ring of eight strings. A console stands where
`get_command` waits for its next byte; a step takes that byte. Arrays are memories whose
cells past their size must not be used: an access there is the outcome `none`.

`Editor` says what the editor is for: it knows the lines that were entered and the one
that is selected, without cells and without a bound on the line. `Agrees` joins the two.
The selected line of a full history is at first its oldest one, as `his_wr` stands on it.

What the console prints is left out. What `command_execute` leaves in `curr_cmd` is a
parameter, since the next line is written over it.
-/

namespace Pyrometer.LineEditor

open ByteMemory Runs

/-- `CON_CMD_BUFF_SIZE` -/
def conCmdBuffSize : Nat := 256

/-- `CON_CMD_HIS_CNT` -/
def conCmdHisCnt : Nat := 8

/-- `CH_ESC` -/
def chEsc : Byte := 0x1B

/-- `CH_DEL` -/
def chDel : Byte := 0x7F

/-- Which byte `get_command` waits for: a key, or the second or the third byte of an
escape sequence. -/
inductive Awaited where
  | key
  | bracket
  | last
deriving DecidableEq

/-- The static data of the console and the position of `get_command` in its buffer. -/
structure Console where
  currCmd : Mem
  pos : Int
  awaited : Awaited
  hisCmd : Nat → Mem
  hisWr : Int
  hisRd : Int
  hisCnt : Int

/-- The console after `console_init`, when `get_command` waits for its first byte. -/
def consoleInit : Console where
  currCmd := fun _ => 0
  pos := 0
  awaited := .key
  hisCmd := fun _ _ => 0
  hisWr := 0
  hisRd := 0
  hisCnt := 0

/-- The element of an array of some size that an index names. -/
def element (size : Nat) (index : Int) : Option Nat :=
  if 0 ≤ index ∧ index < size then some index.toNat else none

/-- `string_length` of a string that must end inside its buffer. -/
def stringLength (string : Mem) : Option Nat :=
  (List.range conCmdBuffSize).find? (fun index => string index == 0)

/-- `string_copy` between two command buffers. -/
def stringCopy (dest src : Mem) : Option Mem :=
  (stringLength src).map (fun length => overlay dest src 0 (length + 1))

variable (dispatch : Mem → Mem)

/-- The console when `work_thread` has kept a line in the history and executed it. -/
def saved (console : Console) (slot : Nat) (line : Mem) : Console :=
  let hisWr := if console.hisWr + 1 = conCmdHisCnt then 0 else console.hisWr + 1
  { currCmd := dispatch console.currCmd
    pos := 0
    awaited := .key
    hisCmd := Function.update console.hisCmd slot line
    hisWr := hisWr
    hisRd := hisWr
    hisCnt := if console.hisCnt < conCmdHisCnt then console.hisCnt + 1 else console.hisCnt }

/-- What `work_thread` does with a line that is not empty. -/
def workThread (console : Console) : Option Console := do
  let slot ← element conCmdHisCnt console.hisWr
  let line ← stringCopy (console.hisCmd slot) console.currCmd
  pure (saved dispatch console slot line)

/-- The end of `get_command`, and the way to the next line. -/
def endLine (console : Console) : Option Console := do
  let cell ← element conCmdBuffSize console.pos
  let ended := { console with currCmd := Function.update console.currCmd cell 0 }
  if console.pos = 0 then pure { ended with awaited := .key } else workThread dispatch ended

/-- The read position after the last byte of an escape sequence. -/
def moved (byte : Byte) (hisRd hisCnt : Int) : Int :=
  if byte = 0x41 then
    if hisRd - 1 < 0 then hisCnt - 1 else hisRd - 1
  else if byte = 0x42 then
    if hisRd + 1 = hisCnt then 0 else hisRd + 1
  else hisRd

/-- The last byte of an escape sequence: the line under the read position is loaded, if
there is one. -/
def loadHistory (console : Console) (byte : Byte) : Option Console := do
  let hisRd := moved byte console.hisRd console.hisCnt
  let slot ← element conCmdHisCnt hisRd
  if console.hisCmd slot 0 = 0 then pure { console with hisRd := hisRd, awaited := .key }
  else
    let buff ← stringCopy console.currCmd (console.hisCmd slot)
    let length ← stringLength buff
    pure { console with currCmd := buff, pos := length, hisRd := hisRd, awaited := .key }

/-- A character is put behind the line; the one that leaves room for the terminator only
ends it. -/
def typed (console : Console) (byte : Byte) : Option Console := do
  let cell ← element conCmdBuffSize console.pos
  let next :=
    { console with currCmd := Function.update console.currCmd cell byte, pos := console.pos + 1 }
  if next.pos = (conCmdBuffSize : Int) - 1 then endLine dispatch next else pure next

/-- A byte ends the line. -/
def EndsLine (byte : Byte) : Prop := byte = 0x0D ∨ byte = 0x0A

/-- A byte is put into the line: it is none of the bytes that edit it. -/
def IsText (byte : Byte) : Prop := ¬EndsLine byte ∧ byte ≠ chEsc ∧ byte ≠ chDel

instance (byte : Byte) : Decidable (EndsLine byte) := inferInstanceAs (Decidable (_ ∨ _))

/-- The console takes one byte. -/
def getCommand (console : Console) (byte : Byte) : Option Console :=
  match console.awaited with
  | .key =>
      if EndsLine byte then endLine dispatch console
      else if byte = chEsc then some { console with awaited := .bracket }
      else if byte = chDel then
        some { console with pos := if 0 < console.pos then console.pos - 1 else console.pos }
      else typed dispatch console byte
  | .bracket => some { console with awaited := if byte = 0x5B then .last else .key }
  | .last => loadHistory console byte

/-- A console takes bytes until it has used a cell that its arrays do not have. -/
def keystroke (console : Option Console) (byte : Byte) : Option Console :=
  console.bind (fun running => getCommand dispatch running byte)

/-- A line editor: all lines entered, the line being edited, the number of the selected
line among those entered, and what the next byte is. -/
structure Editor where
  entered : List (List Byte)
  line : List Byte
  selected : Option Nat
  awaited : Awaited

/-- An editor at the beginning. -/
def Editor.init : Editor := ⟨[], [], none, .key⟩

/-- The number of the oldest line that the history keeps. -/
def Editor.oldest (editor : Editor) : Nat := editor.entered.length - conCmdHisCnt

/-- The line is entered, unless it is empty. -/
def Editor.enter (editor : Editor) : Editor :=
  if editor.line = [] then { editor with awaited := .key }
  else
    { entered := editor.entered ++ [editor.line]
      line := []
      selected :=
        if conCmdHisCnt ≤ editor.entered.length + 1 then
          some (editor.entered.length + 1 - conCmdHisCnt)
        else none
      awaited := .key }

/-- Up selects the line before the selected one, and the newest one before the oldest. -/
def Editor.previous (editor : Editor) : Option Nat :=
  if editor.entered = [] then none
  else
    match editor.selected with
    | none => some (editor.entered.length - 1)
    | some number =>
        if number = editor.oldest then some (editor.entered.length - 1) else some (number - 1)

/-- Down selects the line behind the selected one, and the oldest one behind the newest. -/
def Editor.following (editor : Editor) : Option Nat :=
  if editor.entered = [] then none
  else
    match editor.selected with
    | none => some editor.oldest
    | some number =>
        if number + 1 = editor.entered.length then some editor.oldest else some (number + 1)

/-- The line that is selected is loaded. -/
def Editor.load (editor : Editor) (selected : Option Nat) : Editor :=
  { editor with
    line := (selected.bind (fun number => editor.entered[number]?)).getD editor.line
    selected := selected
    awaited := .key }

/-- A character is put behind the line; the character number 255 enters it. -/
def Editor.type (editor : Editor) (byte : Byte) : Editor :=
  let next := { editor with line := editor.line ++ [byte] }
  if next.line.length = conCmdBuffSize - 1 then next.enter else next

/-- The editor takes one byte. -/
def Editor.step (editor : Editor) (byte : Byte) : Editor :=
  match editor.awaited with
  | .key =>
      if EndsLine byte then editor.enter
      else if byte = chEsc then { editor with awaited := .bracket }
      else if byte = chDel then { editor with line := editor.line.dropLast }
      else editor.type byte
  | .bracket => { editor with awaited := if byte = 0x5B then .last else .key }
  | .last =>
      if byte = 0x41 then editor.load editor.previous
      else if byte = 0x42 then editor.load editor.following
      else editor.load editor.selected

/-- A command buffer holds a string: its bytes and then the terminator. -/
structure Holds (string : Mem) (text : List Byte) : Prop where
  bytes : toList string 0 text.length = text
  plain : 0 ∉ text
  inside : text.length < conCmdBuffSize
  ended : string text.length = 0

/-- The read position stands on the selected line; if none is selected, behind the newest
line of a history that is not full. -/
def Reads (entered : Nat) (hisRd : Int) : Option Nat → Prop
  | none => entered < conCmdHisCnt ∧ hisRd = entered
  | some number =>
      number < entered ∧ entered ≤ number + conCmdHisCnt ∧ hisRd = (number % conCmdHisCnt : Nat)

/-- The console holds what the editor knows: the line with room for its terminator, the
last eight lines entered and nothing else in the history. -/
structure Agrees (console : Console) (editor : Editor) : Prop where
  awaited : console.awaited = editor.awaited
  pos : console.pos = editor.line.length
  room : editor.line.length < conCmdBuffSize
  line : toList console.currCmd 0 editor.line.length = editor.line
  hisCnt : console.hisCnt = (min editor.entered.length conCmdHisCnt : Nat)
  hisWr : console.hisWr = (editor.entered.length % conCmdHisCnt : Nat)
  history : ∀ number text, editor.entered.length ≤ number + conCmdHisCnt →
    editor.entered[number]? = some text →
      text ≠ [] ∧ Holds (console.hisCmd (number % conCmdHisCnt)) text
  fresh : ∀ slot, editor.entered.length ≤ slot → slot < conCmdHisCnt →
    console.hisCmd slot 0 = 0
  reads : Reads editor.entered.length console.hisRd editor.selected

/-- A console that has used no cell outside its arrays and agrees with the editor. -/
def Sound (pair : Option Console × Editor) : Prop :=
  ∃ console, pair.1 = some console ∧ Agrees console pair.2

/-- The bytes that keep the console in agreement with the editor. Up needs a line in the
history and Down a read position inside it, a character needs room for itself and the
terminator, and the line that a byte enters has no zero byte. -/
def Clear (console : Console) (byte : Byte) : Prop :=
  match console.awaited with
  | .key =>
      (EndsLine byte → 0 ∉ toList console.currCmd 0 console.pos.toNat) ∧
        (IsText byte → console.pos ≠ (conCmdBuffSize : Int) - 1 ∧
          (console.pos = (conCmdBuffSize : Int) - 2 →
            0 ∉ toList console.currCmd 0 console.pos.toNat ++ [byte]))
  | .bracket => True
  | .last =>
      (byte = 0x41 → console.hisCnt ≠ 0) ∧ (byte = 0x42 → console.hisRd ≠ console.hisCnt)

/-- The bytes that keep a running console in agreement with the editor. -/
def Kept (console : Option Console) (byte : Byte) : Prop :=
  ∃ running, console = some running ∧ Clear running byte

/-- An index inside the array names an element. -/
theorem element_inside {size : Nat} (index : Nat) (inside : index < size) :
    element size index = some index := by
  have range : (0 : Int) ≤ index ∧ (index : Int) < size := by omega
  simp [element, range]

/-- A byte written behind a range makes it one byte longer. -/
theorem to_list_push (memory : Mem) (len : Nat) (byte : Byte) :
    toList (Function.update memory len byte) 0 (len + 1) = toList memory 0 len ++ [byte] := by
  rw [to_list_append, to_list_update _ _ _ _ _ (by omega), to_list_one, Nat.zero_add,
    Function.update_self]

/-- The length of a string that a buffer holds. -/
theorem Holds.length {string : Mem} {text : List Byte} (holds : Holds string text) :
    stringLength string = some text.length := by
  unfold stringLength
  rw [List.find?_range_eq_some]
  refine ⟨by simp [holds.ended], List.mem_range.mpr holds.inside, ?_⟩
  intro index below
  have here : string index = text[index] := by
    have byte := congrArg (fun bytes => bytes[index]?) holds.bytes
    simpa [toList, below] using byte
  have member : text[index] ∈ text := List.getElem_mem below
  have other : text[index] ≠ 0 := fun zero => holds.plain (zero ▸ member)
  simpa [here] using other

/-- A string is copied with its terminator. -/
theorem Holds.copied {string : Mem} {text : List Byte} (holds : Holds string text) (dest : Mem) :
    ∃ copy, stringCopy dest string = some copy ∧ Holds copy text := by
  refine ⟨overlay dest string 0 (text.length + 1), by simp [stringCopy, holds.length], ?_⟩
  have inside : ∀ address, address ≤ text.length →
      overlay dest string 0 (text.length + 1) address = string address := fun address below =>
    overlay_inside dest string 0 _ address (Nat.zero_le _) (by omega)
  refine ⟨?_, holds.plain, holds.inside, ?_⟩
  · rw [← holds.bytes, to_list_length]
    apply to_list_congr
    intro address _ below
    exact inside address (by omega)
  · rw [inside _ (Nat.le_refl _), holds.ended]

/-- A line that the terminator ends is a string. -/
theorem holds_ended {memory : Mem} {line : List Byte}
    (bytes : toList memory 0 line.length = line) (room : line.length < conCmdBuffSize)
    (plain : 0 ∉ line) : Holds (Function.update memory line.length 0) line where
  bytes := (to_list_update memory 0 line.length line.length 0 (by omega)).trans bytes
  plain := plain
  inside := room
  ended := Function.update_self _ _ _

/-- A line kept in the history is the newest one there. -/
theorem saved_agrees {console : Console} {editor : Editor} (agrees : Agrees console editor)
    (nonempty : editor.line ≠ []) {line : Mem} (holds : Holds line editor.line) (currCmd : Mem) :
    Agrees (saved dispatch { console with currCmd := currCmd }
      (editor.entered.length % conCmdHisCnt) line) editor.enter := by
  have size : (editor.entered ++ [editor.line]).length = editor.entered.length + 1 := by simp
  have count := agrees.hisCnt
  have write := agrees.hisWr
  simp only [conCmdHisCnt] at count write
  have wrapped : (saved dispatch { console with currCmd := currCmd }
      (editor.entered.length % conCmdHisCnt) line).hisWr =
        ((editor.entered.length + 1) % 8 : Nat) := by
    simp only [saved, conCmdHisCnt, write]
    split_ifs <;> omega
  simp only [Editor.enter, nonempty, if_false]
  constructor
  case awaited => rfl
  case pos => rfl
  case room => simp [conCmdBuffSize]
  case line => rfl
  case hisCnt =>
    simp only [saved, size, conCmdHisCnt, count]
    split_ifs <;> omega
  case hisWr =>
    rw [size]
    exact wrapped
  case history =>
    intro number text recent here
    simp only [size] at recent
    by_cases newest : number = editor.entered.length
    · subst newest
      obtain rfl : editor.line = text := by simpa using here
      exact ⟨nonempty, by simpa [saved] using holds⟩
    · have older : number < editor.entered.length := by
        have below := (List.getElem?_eq_some_iff.mp here).1
        simp only [size] at below
        omega
      have apart : number % conCmdHisCnt ≠ editor.entered.length % conCmdHisCnt := by
        simp only [conCmdHisCnt] at recent ⊢
        omega
      simp only [List.getElem?_append_left older] at here
      have before := agrees.history number text (by omega) here
      exact ⟨before.1, by simpa [saved, apart] using before.2⟩
  case fresh =>
    intro slot behind inside
    simp only [size] at behind
    have apart : slot ≠ editor.entered.length % conCmdHisCnt := by
      simp only [conCmdHisCnt] at inside ⊢
      omega
    simpa [saved, apart] using agrees.fresh slot (by omega) inside
  case reads =>
    have standing : (saved dispatch { console with currCmd := currCmd }
        (editor.entered.length % conCmdHisCnt) line).hisRd =
          ((editor.entered.length + 1) % 8 : Nat) := wrapped
    rw [standing, size]
    by_cases full : conCmdHisCnt ≤ editor.entered.length + 1
    · rw [if_pos full]
      simp only [Reads, conCmdHisCnt] at full ⊢
      omega
    · rw [if_neg full]
      simp only [Reads, conCmdHisCnt] at full ⊢
      omega

/-- The end of an empty line leaves everything but the buffer. -/
theorem end_line_empty {console : Console} {editor : Editor} (agrees : Agrees console editor)
    (empty : editor.line = []) : Sound (endLine dispatch console, editor.enter) := by
  have start : console.pos = 0 := by simp [agrees.pos, empty]
  have next : endLine dispatch console = some { console with
      currCmd := Function.update console.currCmd 0 0, awaited := .key } := by
    have cell : element conCmdBuffSize 0 = some 0 := element_inside 0 (by decide)
    simp [endLine, start, cell]
  refine ⟨_, next, ?_⟩
  simp only [Editor.enter, empty, if_true]
  exact { agrees with
    awaited := rfl
    pos := by simpa using start
    room := by simp [conCmdBuffSize]
    line := rfl }

/-- A line is entered in agreement with the editor exactly when it has no zero byte. -/
theorem end_line_sound {console : Console} {editor : Editor} (agrees : Agrees console editor) :
    Sound (endLine dispatch console, editor.enter) ↔ 0 ∉ editor.line := by
  by_cases empty : editor.line = []
  · exact iff_of_true (end_line_empty dispatch agrees empty) (by simp [empty])
  constructor
  · rintro ⟨next, -, after⟩
    simp only [Editor.enter, empty, if_false] at after
    have newest := after.history editor.entered.length editor.line (by simp [conCmdHisCnt])
      (by simp)
    exact newest.2.plain
  · intro plain
    have cell : element conCmdBuffSize console.pos = some editor.line.length := by
      rw [agrees.pos]
      exact element_inside _ agrees.room
    have slot : element conCmdHisCnt console.hisWr =
        some (editor.entered.length % conCmdHisCnt) := by
      rw [agrees.hisWr]
      exact element_inside _ (Nat.mod_lt _ (by decide))
    have later : console.pos ≠ 0 := by
      rw [agrees.pos]
      exact_mod_cast fun nothing => empty (List.length_eq_zero_iff.mp nothing)
    obtain ⟨copy, copied, holds⟩ :=
      (holds_ended agrees.line agrees.room plain).copied
        (console.hisCmd (editor.entered.length % conCmdHisCnt))
    refine ⟨_, ?_, saved_agrees dispatch agrees empty holds
      (Function.update console.currCmd editor.line.length 0)⟩
    simp only [endLine, cell, Option.bind_eq_bind, Option.bind_some, later, if_false, workThread,
      slot, copied]
    rfl

/-- The console with a character behind its line. -/
def Console.push (console : Console) (cell : Nat) (byte : Byte) : Console :=
  { console with currCmd := Function.update console.currCmd cell byte, pos := console.pos + 1 }

/-- The editor with a character behind its line. -/
def Editor.push (editor : Editor) (byte : Byte) : Editor :=
  { editor with line := editor.line ++ [byte] }

/-- A character is put into the buffer in agreement with the editor. -/
theorem push_agrees {console : Console} {editor : Editor} (agrees : Agrees console editor)
    (room : editor.line.length + 1 < conCmdBuffSize) (byte : Byte) :
    Agrees (console.push editor.line.length byte) (editor.push byte) :=
  { agrees with
    pos := by simp [Console.push, Editor.push, agrees.pos]
    room := by simpa [Editor.push] using room
    line := by
      rw [Editor.push, List.length_append, List.length_singleton]
      exact (to_list_push _ _ _).trans (congrArg (· ++ [byte]) agrees.line) }

/-- What the console does with a character, by the place it is put. -/
theorem typed_eq {console : Console} {editor : Editor} (agrees : Agrees console editor)
    (byte : Byte) :
    typed dispatch console byte =
      if editor.line.length + 1 = conCmdBuffSize - 1 then
        endLine dispatch (console.push editor.line.length byte)
      else some (console.push editor.line.length byte) := by
  have cell : element conCmdBuffSize console.pos = some editor.line.length := by
    rw [agrees.pos]
    exact element_inside _ agrees.room
  have last : (console.push editor.line.length byte).pos = (conCmdBuffSize : Int) - 1 ↔
      editor.line.length + 1 = conCmdBuffSize - 1 := by
    simp only [Console.push, agrees.pos, conCmdBuffSize]
    omega
  simp only [typed, cell, Option.bind_eq_bind, Option.bind_some]
  exact if_congr last rfl rfl

/-- What the editor does with a character. -/
theorem type_eq (editor : Editor) (byte : Byte) :
    editor.type byte =
      if editor.line.length + 1 = conCmdBuffSize - 1 then (editor.push byte).enter
      else editor.push byte := by
  simp only [Editor.type, Editor.push, List.length_append, List.length_singleton]

/-- A character is taken in agreement with the editor exactly when there is room for it and
for the terminator, and the line that it completes has no zero byte. -/
theorem typed_sound {console : Console} {editor : Editor} (agrees : Agrees console editor)
    (byte : Byte) :
    Sound (typed dispatch console byte, editor.type byte) ↔
      console.pos ≠ (conCmdBuffSize : Int) - 1 ∧
        (console.pos = (conCmdBuffSize : Int) - 2 →
          0 ∉ toList console.currCmd 0 console.pos.toNat ++ [byte]) := by
  have line : toList console.currCmd 0 console.pos.toNat = editor.line := by
    rw [agrees.pos, Int.toNat_natCast, agrees.line]
  have room := agrees.room
  rw [line, typed_eq dispatch agrees, type_eq, agrees.pos]
  rcases Nat.lt_trichotomy editor.line.length (conCmdBuffSize - 2) with below | last | full
  · have free : editor.line.length + 1 ≠ conCmdBuffSize - 1 := by omega
    have fits : (editor.line.length : Int) ≠ (conCmdBuffSize : Int) - 1 ∧
        ((editor.line.length : Int) = (conCmdBuffSize : Int) - 2 → 0 ∉ editor.line ++ [byte]) := by
      constructor <;> omega
    rw [if_neg free, if_neg free]
    exact iff_of_true ⟨_, rfl, push_agrees agrees (by omega) byte⟩ fits
  · have done : editor.line.length + 1 = conCmdBuffSize - 1 := by
      simp only [conCmdBuffSize] at last ⊢
      omega
    have other : (editor.line.length : Int) ≠ (conCmdBuffSize : Int) - 1 := by omega
    have same : (editor.line.length : Int) = (conCmdBuffSize : Int) - 2 := by
      simp only [conCmdBuffSize] at last ⊢
      omega
    rw [if_pos done, if_pos done, end_line_sound dispatch (push_agrees agrees (by omega) byte)]
    exact ⟨fun plain => ⟨other, fun _ => plain⟩, fun fits => fits.2 same⟩
  · have filled : (editor.line.length : Int) = (conCmdBuffSize : Int) - 1 := by omega
    have free : editor.line.length + 1 ≠ conCmdBuffSize - 1 := by omega
    rw [if_neg free, if_neg free]
    refine iff_of_false ?_ (fun fits => fits.1 filled)
    rintro ⟨next, -, after⟩
    have tooLong := after.room
    simp only [Editor.push, List.length_append, List.length_singleton] at tooLong
    omega

/-- A read position on a line of the history loads this line. -/
theorem load_selected {console : Console} {editor : Editor} (agrees : Agrees console editor)
    (byte : Byte) (number : Nat)
    (reads : Reads editor.entered.length (moved byte console.hisRd console.hisCnt) (some number)) :
    Sound (loadHistory console byte, editor.load (some number)) := by
  obtain ⟨older, recent, stands⟩ := reads
  have slot : element conCmdHisCnt (moved byte console.hisRd console.hisCnt) =
      some (number % conCmdHisCnt) := by
    rw [stands]
    exact element_inside _ (Nat.mod_lt _ (by decide))
  have here : editor.entered[number]? = some editor.entered[number] :=
    List.getElem?_eq_getElem older
  obtain ⟨nonempty, holds⟩ := agrees.history number _ recent here
  have begins : console.hisCmd (number % conCmdHisCnt) 0 ≠ 0 := by
    intro zero
    have positive := List.length_pos_iff.mpr nonempty
    have first := congrArg (fun bytes => bytes[0]?) holds.bytes
    simp only [toList, positive, List.getElem?_map, List.getElem?_range, Option.map_some,
      Nat.add_zero, zero, List.getElem?_eq_getElem, Option.some.injEq] at first
    exact holds.plain (first ▸ List.getElem_mem positive)
  obtain ⟨copy, copied, kept⟩ := holds.copied console.currCmd
  refine ⟨{ console with
    currCmd := copy
    pos := editor.entered[number].length
    hisRd := moved byte console.hisRd console.hisCnt
    awaited := .key }, ?_, ?_⟩
  · simp only [loadHistory, slot, Option.bind_eq_bind, Option.bind_some, begins, if_false, copied,
      kept.length]
    rfl
  · have line : (editor.load (some number)).line = editor.entered[number] := by
      simp [Editor.load, here]
    exact { agrees with
      awaited := rfl
      pos := by rw [line]
      room := by simpa [line] using kept.inside
      line := by simpa [line] using kept.bytes
      reads := ⟨older, recent, stands⟩ }

/-- A read position behind the newest line loads nothing. -/
theorem load_nothing {console : Console} {editor : Editor} (agrees : Agrees console editor)
    (byte : Byte)
    (reads : Reads editor.entered.length (moved byte console.hisRd console.hisCnt) none) :
    Sound (loadHistory console byte, editor.load none) := by
  obtain ⟨inside, stands⟩ := reads
  have slot : element conCmdHisCnt (moved byte console.hisRd console.hisCnt) =
      some editor.entered.length := by
    rw [stands]
    exact element_inside _ inside
  refine ⟨{ console with
    hisRd := moved byte console.hisRd console.hisCnt, awaited := .key }, ?_, ?_⟩
  · have empty := agrees.fresh _ (Nat.le_refl _) inside
    simp only [loadHistory, slot, Option.bind_eq_bind, Option.bind_some, empty, if_true]
    rfl
  · exact { agrees with
      awaited := rfl
      reads := ⟨inside, stands⟩ }

/-- Up moves the read position with the selection exactly if the history has a line. -/
theorem up_reads {editor : Editor} {hisRd hisCnt : Int}
    (reads : Reads editor.entered.length hisRd editor.selected)
    (count : hisCnt = (min editor.entered.length conCmdHisCnt : Nat)) :
    Reads editor.entered.length (moved 0x41 hisRd hisCnt) editor.previous ↔ hisCnt ≠ 0 := by
  have before : moved 0x41 hisRd hisCnt = if hisRd - 1 < 0 then hisCnt - 1 else hisRd - 1 := rfl
  rw [before]
  simp only [conCmdHisCnt] at count
  by_cases empty : editor.entered = []
  · have zero : hisCnt = 0 := by simpa [empty] using count
    have gone : Editor.previous editor = none := by simp [Editor.previous, empty]
    rw [gone, empty, zero]
    refine iff_of_false ?_ (fun nonzero => nonzero rfl)
    intro stands
    have start : hisRd = 0 := by
      cases selected : editor.selected with
      | none => simpa [empty, selected, Reads, conCmdHisCnt] using reads
      | some number => simp [empty, selected, Reads] at reads
    simp [start, Reads] at stands
  have nonempty : editor.entered.length ≠ 0 :=
    fun nothing => empty (List.length_eq_zero_iff.mp nothing)
  have any : hisCnt ≠ 0 := by omega
  refine iff_of_true ?_ any
  cases selected : editor.selected with
  | none =>
    simp only [selected, Editor.previous, empty, if_false, Reads, conCmdHisCnt] at reads ⊢
    split_ifs <;> omega
  | some number =>
    simp only [selected, Reads, conCmdHisCnt] at reads
    have old : editor.oldest = editor.entered.length - 8 := rfl
    simp only [selected, Editor.previous, empty, if_false]
    by_cases first : number = editor.oldest
    · rw [if_pos first]
      simp only [Reads, conCmdHisCnt]
      split_ifs <;> omega
    · rw [if_neg first]
      simp only [Reads, conCmdHisCnt]
      split_ifs <;> omega

/-- Down moves the read position with the selection exactly if it starts on a line. -/
theorem down_reads {editor : Editor} {hisRd hisCnt : Int}
    (reads : Reads editor.entered.length hisRd editor.selected)
    (count : hisCnt = (min editor.entered.length conCmdHisCnt : Nat)) :
    Reads editor.entered.length (moved 0x42 hisRd hisCnt) editor.following ↔
      hisRd ≠ hisCnt := by
  have behind : moved 0x42 hisRd hisCnt = if hisRd + 1 = hisCnt then 0 else hisRd + 1 := rfl
  rw [behind]
  simp only [conCmdHisCnt] at count
  cases selected : editor.selected with
  | none =>
    simp only [selected, Reads, conCmdHisCnt] at reads
    have stop : hisRd = hisCnt := by omega
    have past : ¬hisRd + 1 = hisCnt := by omega
    rw [if_neg past]
    refine iff_of_false ?_ (fun apart => apart stop)
    cases editor.following with
    | none =>
      intro stands
      simp only [Reads] at stands
      omega
    | some number =>
      intro stands
      simp only [Reads, conCmdHisCnt] at stands
      omega
  | some number =>
    simp only [selected, Reads, conCmdHisCnt] at reads
    have nonempty : editor.entered ≠ [] := List.ne_nil_of_length_pos (by omega)
    refine iff_of_true ?_ (by omega)
    simp only [selected, Editor.following, nonempty, if_false, Editor.oldest, conCmdHisCnt]
    by_cases newest : number + 1 = editor.entered.length
    · rw [if_pos newest]
      simp only [Reads, conCmdHisCnt]
      split_ifs <;> omega
    · rw [if_neg newest]
      simp only [Reads, conCmdHisCnt]
      split_ifs <;> omega

/-- A line is loaded in agreement with the editor exactly when the read position stands on
the selected line. -/
theorem load_sound {console : Console} {editor : Editor} (agrees : Agrees console editor)
    (byte : Byte) (selected : Option Nat) :
    Sound (loadHistory console byte, editor.load selected) ↔
      Reads editor.entered.length (moved byte console.hisRd console.hisCnt) selected := by
  constructor
  · rintro ⟨next, loaded, after⟩
    have stands : next.hisRd = moved byte console.hisRd console.hisCnt := by
      simp only [loadHistory, Option.bind_eq_bind, Option.bind_eq_some_iff] at loaded
      obtain ⟨slot, -, loaded⟩ := loaded
      split at loaded
      · exact Option.some.inj loaded ▸ rfl
      · simp only [Option.bind_eq_some_iff] at loaded
        obtain ⟨buff, -, length, -, loaded⟩ := loaded
        exact Option.some.inj loaded ▸ rfl
    exact stands ▸ after.reads
  · intro reads
    cases selected with
    | none => exact load_nothing agrees byte reads
    | some number => exact load_selected agrees byte number reads

/-- The last character is taken out of the line in agreement with the editor. -/
theorem delete_agrees {console : Console} {editor : Editor} (agrees : Agrees console editor) :
    Agrees { console with pos := if 0 < console.pos then console.pos - 1 else console.pos }
      { editor with line := editor.line.dropLast } := by
  have room := agrees.room
  have pos := agrees.pos
  refine { agrees with pos := ?_, room := ?_, line := ?_ }
  · rw [List.length_dropLast]
    change (if 0 < console.pos then console.pos - 1 else console.pos) = _
    split_ifs <;> omega
  · rw [List.length_dropLast]
    omega
  · rw [List.length_dropLast, List.dropLast_eq_take]
    calc toList console.currCmd 0 (editor.line.length - 1)
        = (toList console.currCmd 0 editor.line.length).take (editor.line.length - 1) := by
          simp [toList, ← List.map_take, List.take_range]
      _ = editor.line.take (editor.line.length - 1) := by rw [agrees.line]

/-- A key is taken in agreement with the editor exactly if it is clear. -/
theorem key_sound {console : Console} {editor : Editor} (agrees : Agrees console editor)
    (byte : Byte) (waits : console.awaited = .key) :
    Clear console byte ↔ Sound (getCommand dispatch console byte, editor.step byte) := by
  have line : toList console.currCmd 0 console.pos.toNat = editor.line := by
    rw [agrees.pos, Int.toNat_natCast, agrees.line]
  have same : editor.awaited = .key := agrees.awaited.symm.trans waits
  simp only [Clear, getCommand, Editor.step, same, waits]
  by_cases ends : EndsLine byte
  · rw [if_pos ends, if_pos ends, end_line_sound dispatch agrees, line]
    exact ⟨fun clear => clear.1 ends, fun plain =>
      ⟨fun _ => plain, fun text => absurd ends text.1⟩⟩
  rw [if_neg ends, if_neg ends]
  by_cases escape : byte = chEsc
  · rw [if_pos escape, if_pos escape]
    refine iff_of_true ⟨fun other => absurd other ends, fun text => absurd escape text.2.1⟩ ?_
    exact ⟨_, rfl, { agrees with awaited := rfl }⟩
  rw [if_neg escape, if_neg escape]
  by_cases delete : byte = chDel
  · rw [if_pos delete, if_pos delete]
    refine iff_of_true ⟨fun other => absurd other ends, fun text => absurd delete text.2.2⟩ ?_
    exact ⟨_, rfl, { delete_agrees agrees with awaited := rfl }⟩
  · rw [if_neg delete, if_neg delete, typed_sound dispatch agrees]
    exact ⟨fun clear => clear.2 ⟨ends, escape, delete⟩, fun fits =>
      ⟨fun other => absurd other ends, fun _ => fits⟩⟩

/-- The last byte of an escape sequence is taken in agreement with the editor exactly if it
is clear. -/
theorem last_sound {console : Console} {editor : Editor} (agrees : Agrees console editor)
    (byte : Byte) (waits : console.awaited = .last) :
    Clear console byte ↔ Sound (getCommand dispatch console byte, editor.step byte) := by
  have same : editor.awaited = .last := agrees.awaited.symm.trans waits
  simp only [Clear, getCommand, Editor.step, same, waits]
  by_cases up : byte = 0x41
  · subst up
    rw [if_pos rfl, load_sound agrees, up_reads agrees.reads agrees.hisCnt]
    simp
  by_cases down : byte = 0x42
  · subst down
    rw [if_neg up, if_pos rfl, load_sound agrees, down_reads agrees.reads agrees.hisCnt]
    simp
  · have still : moved byte console.hisRd console.hisCnt = console.hisRd := by
      simp only [moved, up, down, if_false]
    rw [if_neg up, if_neg down, load_sound agrees, still]
    exact iff_of_true ⟨fun same => absurd same up, fun same => absurd same down⟩ agrees.reads

/-- A console that agrees with the editor agrees with it after a byte exactly if the byte
is clear. -/
theorem keystroke_sound {console : Console} {editor : Editor} (agrees : Agrees console editor)
    (byte : Byte) :
    Clear console byte ↔ Sound (getCommand dispatch console byte, editor.step byte) := by
  cases waits : console.awaited with
  | key => exact key_sound dispatch agrees byte waits
  | bracket =>
    have same : editor.awaited = .bracket := agrees.awaited.symm.trans waits
    simp only [Clear, getCommand, Editor.step, same, waits, true_iff]
    exact ⟨_, rfl, { agrees with awaited := rfl }⟩
  | last => exact last_sound dispatch agrees byte waits

/-- The console agrees with the editor at the beginning. -/
theorem init_agrees : Agrees consoleInit Editor.init where
  awaited := rfl
  pos := rfl
  room := by decide
  line := rfl
  hisCnt := rfl
  hisWr := rfl
  history := by simp [Editor.init]
  fresh := fun _ _ _ => rfl
  reads := ⟨by decide, rfl⟩

/-- The console and the editor agree after every part of some keystrokes, with no cell used
outside the arrays, exactly when each byte is clear where it is typed. -/
theorem line_editor_iff (bytes : List Byte) :
    Along (keystroke dispatch) Kept (some consoleInit) bytes ↔
      ∀ first, first <+: bytes →
        Sound (run (keystroke dispatch) (some consoleInit) first,
          run Editor.step Editor.init first) := by
  have exact_steps : ∀ (pair : Option Console × Editor) (byte : Byte), Sound pair →
      (Kept pair.1 byte ↔ Sound (both (keystroke dispatch) Editor.step pair byte)) := by
    rintro ⟨-, editor⟩ byte ⟨console, rfl, agrees⟩
    rw [show both (keystroke dispatch) Editor.step (some console, editor) byte =
      (getCommand dispatch console byte, editor.step byte) from rfl,
      ← keystroke_sound dispatch agrees byte]
    exact ⟨fun ⟨running, same, clear⟩ => Option.some.inj same ▸ clear,
      fun clear => ⟨console, rfl, clear⟩⟩
  have runs := along_exact (both (keystroke dispatch) Editor.step) exact_steps
    (some consoleInit, Editor.init) ⟨_, rfl, init_agrees⟩ bytes
  rw [along_left] at runs
  simpa only [run_both] using runs

/-- Up on an empty history reads the string in front of the first one. -/
theorem up_without_history :
    ¬∀ (bytes first : List Byte), first <+: bytes →
      Sound (run (keystroke id) (some consoleInit) first, run Editor.step Editor.init first) := by
  intro all
  obtain ⟨console, running, -⟩ := all [chEsc, 0x5B, 0x41] _ (List.prefix_refl _)
  have lost : run (keystroke id) (some consoleInit) [chEsc, 0x5B, 0x41] = none := by decide
  exact absurd (running.symm.trans lost) (Option.some_ne_none console)

end Pyrometer.LineEditor
