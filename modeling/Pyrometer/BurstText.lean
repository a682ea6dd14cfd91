import Pyrometer.BufferSafety

/-!
# The text of a burst

`burst_build` writes one entry after another for a list of commands: the word of the
command with its value, or an error. It counts the bytes in eight bits and keeps the row
of a command in a signed byte, so a row from 128 on is looked for in front of the table.
The end of the line overwrites the last byte, which is a separator only if the format has
one.

`cmd_found` looks at four rows behind the table. Their words and the rows in front of the
table are unknown. What lies behind the buffer is not modelled: a write there is only
recorded, by the furthest byte reached.
-/

namespace Pyrometer.BurstText

open ByteMemory CText CommandTable InstrumentState AlgorithmCommands UppParser CommandExecution
open CommandReplies BufferSafety

/-- `BURST_BUF_LEN`. -/
def burstBufLen : Nat := 100

/-- A command list that `valid_cmd_list` accepts and that `cmd_list` holds. -/
structure CmdList where
  text : List Byte
  valid : validCmdList text = true
  plain : 0 ∉ text
  fits : text.length < burstListSize

/-- `burst_init`: the separator that a character of the format stands for, where zero is
none. -/
def separatorOf (fmt : Byte) : Byte :=
  if fmt = 0x53 then 0x20 else if fmt = 0x4E then 0 else fmt

/-- The entries of a list, for the part of an entry that was read. Nothing behind a last
comma is no entry. -/
def entriesFrom (word : List Byte) : List Byte → List (List Byte)
  | [] => [word]
  | byte :: rest =>
      if byte = comma then word :: (if rest = [] then [] else entriesFrom [] rest)
      else entriesFrom (word ++ [byte]) rest

/-- The entries that the loop of `burst_build` takes from a list. -/
def entries (cmdList : List Byte) : List (List Byte) :=
  if cmdList = [] then [] else entriesFrom [] cmdList

/-- The state of a build: the buffer, the length in eight bits, and the end of the furthest
byte that was written. -/
structure Build where
  outbuf : Mem
  outlen : Nat
  reached : Nat

/-- Bytes written at the length, with a terminator behind them or not. -/
def Build.write (out : Build) (bytes : List Byte) (terminator : List Byte) : Build :=
  { outbuf := overlay out.outbuf (ofList (bytes ++ terminator)) out.outlen
      (bytes ++ terminator).length
    outlen := (out.outlen + bytes.length) % 2 ^ 8
    reached := max out.reached (out.outlen + (bytes ++ terminator).length) }

/-- `outlen += sprintf(outbuf + outlen, ...)`. -/
def Build.sprintf (out : Build) (text : List Byte) : Build := out.write text [0]

/-- `outbuf[outlen++] = separator`, unless there is none. -/
def Build.separate (out : Build) (separator : Byte) : Build :=
  if separator = 0 then out else out.write [separator] []

/-- `CMD_TBL[cmd_idx].arg` as text. -/
def burstValue (instrument : Instrument) (item : CmdItem) : List Byte :=
  if isNeedConverUnit item.cmd then tempText instrument item else objectText instrument item

section

variable (behind : List (List Byte)) (inFront : Nat → CmdItem)

/-- `cmd_found`: the row of a word, among those of the table and those behind it. -/
def cmdFoundRow (word : List Byte) : Option Nat :=
  ((cmdTbl.map CmdItem.cmd ++ behind).take cmdCnt).findIdx? (fun cmd => cmd == word)

/-- `CMD_TBL[cmd_idx]` for the row in a signed byte. -/
def rowRead (row : Nat) : CmdItem :=
  if row < 2 ^ 7 then cmdTbl.getD row (inFront 0) else inFront (2 ^ 8 - row)

/-- One pass of the loop of `burst_build`. -/
def burstEntry (key entry : Byte) (instrument : Instrument) (out : Build) (word : List Byte) :
    Build :=
  match cmdFoundRow behind word with
  | none => (out.sprintf (ascii "error")).separate entry
  | some row =>
      let item := rowRead inFront row
      if item.props.contains .b = false then (out.sprintf (ascii "error")).separate entry
      else
        (((out.sprintf item.cmd).separate key).sprintf (burstValue instrument item)).separate entry

/-- The end of `burst_build`: the last byte gives way to the end of the line. -/
def Build.finish (out : Build) : Build :=
  { outbuf := overlay out.outbuf (ofList (lineEnd ++ [0])) (out.outlen - 1) 3
    outlen := (out.outlen + 1) % 2 ^ 8
    reached := max out.reached (out.outlen + 2) }

/-- `burst_build` with the two separators. -/
def burstBuild (cmdList : List Byte) (key entry : Byte) (instrument : Instrument)
    (outbuf : Mem) : Build :=
  ((entries cmdList).foldl (burstEntry behind inFront key entry instrument)
    ⟨outbuf, 0, 0⟩).finish

end

/-- A separator as text. -/
def separatorText (separator : Byte) : List Byte := if separator = 0 then [] else [separator]

/-- The text that a query for a command answers with. -/
def getText (instrument : Instrument) (item : CmdItem) : List Byte :=
  payload Parse.cleared item instrument

/-- An entry of the text that is asked for, without the separator behind it. -/
def entryText (key : Byte) (instrument : Instrument) (word : List Byte) : List Byte :=
  match cmdFound word with
  | none => ascii "error"
  | some item =>
      if item.props.contains .b then
        word ++ separatorText key ++ getText instrument item
      else ascii "error"

/-- The text that is asked for: the entries with separators between them, and the end of the
line. -/
def burstText (cmdList : List Byte) (key entry : Byte) (instrument : Instrument) : List Byte :=
  (separatorText entry).intercalate ((entries cmdList).map (entryText key instrument)) ++ lineEnd

/-- What is asked of a build: it keeps to its buffer, and returns the length of the text that
it leaves there. -/
structure Builds (text : List Byte) (out : Build) : Prop where
  inside : out.reached ≤ burstBufLen
  length : out.outlen = text.length
  contents : toList out.outbuf 0 text.length = text

/-- A build whose writes were a text: it holds the text as long as the length has not wrapped,
and has left the buffer otherwise. -/
structure Written (out : Build) (text : List Byte) : Prop where
  holds : text.length < 2 ^ 8 →
    out.outlen = text.length ∧ toList out.outbuf 0 text.length = text ∧
      out.reached ≤ text.length + 1
  beyond : 2 ^ 8 ≤ text.length → burstBufLen < out.reached

/-- The start of a build. -/
theorem written_start (outbuf : Mem) : Written ⟨outbuf, 0, 0⟩ [] :=
  ⟨fun _ => ⟨rfl, rfl, Nat.zero_le 1⟩, fun long => absurd long (by decide)⟩

/-- Bytes written behind a text. -/
theorem Written.write {out : Build} {text : List Byte} (written : Written out text)
    (bytes terminator : List Byte) (short : terminator.length ≤ 1) :
    Written (out.write bytes terminator) (text ++ bytes) := by
  have size : (text ++ bytes).length = text.length + bytes.length := List.length_append
  constructor
  · intro below
    obtain ⟨place, contents, reached⟩ := written.holds (by omega)
    refine ⟨?_, ?_, ?_⟩
    · rw [Build.write, place, size]
      exact Nat.mod_eq_of_lt (by omega)
    · have front : toList (out.write bytes terminator).outbuf 0 text.length = text := by
        refine Eq.trans (to_list_congr ?_) contents
        exact overlay_frame _ _ _ _ _ _ (Or.inl (by omega))
      have back : toList (out.write bytes terminator).outbuf text.length bytes.length = bytes := by
        have read := to_list_overlay out.outbuf (bytes ++ terminator) text.length
        rw [List.length_append, to_list_append] at read
        rw [Build.write, place]
        simp only [List.length_append]
        exact (List.append_inj read (by simp)).1
      rw [size, to_list_append, front, Nat.zero_add, back]
    · have bound : (bytes ++ terminator).length ≤ bytes.length + 1 := by
        rw [List.length_append]
        omega
      simp only [Build.write, place, size]
      omega
  · intro long
    have grows : out.reached ≤ (out.write bytes terminator).reached := Nat.le_max_left _ _
    by_cases already : 2 ^ 8 ≤ text.length
    · exact Nat.lt_of_lt_of_le (written.beyond already) grows
    · obtain ⟨place, _, _⟩ := written.holds (Nat.lt_of_not_le already)
      have stored : out.outlen + (bytes ++ terminator).length ≤
          (out.write bytes terminator).reached := Nat.le_max_right _ _
      rw [place, List.length_append] at stored
      simp only [burstBufLen]
      omega

/-- A printed text. -/
theorem Written.sprintf {out : Build} {text : List Byte} (written : Written out text)
    (bytes : List Byte) : Written (out.sprintf bytes) (text ++ bytes) :=
  written.write bytes [0] (Nat.le_refl 1)

/-- A separator. -/
theorem Written.separate {out : Build} {text : List Byte} (written : Written out text)
    (separator : Byte) : Written (out.separate separator) (text ++ separatorText separator) := by
  unfold Build.separate separatorText
  split_ifs with empty
  · rwa [List.append_nil]
  · exact written.write [separator] [] (Nat.zero_le 1)

/-- The end of the line keeps to the buffer exactly when the text leaves room for it. -/
theorem finish_reached {out : Build} {text : List Byte} (written : Written out text) :
    out.finish.reached ≤ burstBufLen ↔ text.length + 2 ≤ burstBufLen := by
  by_cases short : text.length < 2 ^ 8
  · obtain ⟨place, _, reached⟩ := written.holds short
    have last : out.finish.reached = text.length + 2 := by
      simp only [Build.finish, place]
      omega
    rw [last]
  · have far := written.beyond (Nat.le_of_not_lt short)
    have grows : out.reached ≤ out.finish.reached := Nat.le_max_left _ _
    simp only [burstBufLen] at far ⊢
    omega

/-- The end of the line takes the place of the last byte. -/
theorem finish_text {out : Build} {text : List Byte} (written : Written out text)
    (room : text.length + 2 ≤ burstBufLen) (something : text ≠ []) :
    out.finish.outlen = text.length + 1 ∧
      toList out.finish.outbuf 0 (text.length + 1) = text.dropLast ++ lineEnd := by
  have limit : text.length + 2 ≤ 100 := room
  obtain ⟨place, contents, _⟩ := written.holds (by omega)
  have positive := List.length_pos_of_ne_nil something
  refine ⟨?_, ?_⟩
  · simp only [Build.finish, place]
    exact Nat.mod_eq_of_lt (by omega)
  · have split : text.length + 1 = (text.length - 1) + 2 := by omega
    have front : toList out.finish.outbuf 0 (text.length - 1) = text.dropLast := by
      have kept : toList out.finish.outbuf 0 (text.length - 1) =
          toList out.outbuf 0 (text.length - 1) := by
        apply to_list_congr
        simp only [Build.finish, place]
        exact overlay_frame _ _ _ _ _ _ (Or.inl (by omega))
      rw [kept, to_list_part out.outbuf text 0 (text.length - 1) contents (by omega),
        List.drop_zero, List.dropLast_eq_take]
    have back : toList out.finish.outbuf (text.length - 1) 2 = lineEnd := by
      have read := to_list_overlay out.outbuf (lineEnd ++ [0]) (text.length - 1)
      have three : (lineEnd ++ [(0 : Byte)]).length = 2 + 1 := rfl
      rw [three, to_list_append] at read
      simp only [Build.finish, place]
      exact (List.append_inj read (by simp [lineEnd])).1
    rw [split, to_list_append, front, Nat.zero_add, back]

/-- The text that an entry writes. -/
def entryWritten (behind : List (List Byte)) (inFront : Nat → CmdItem) (key entry : Byte)
    (instrument : Instrument) (word : List Byte) : List Byte :=
  match cmdFoundRow behind word with
  | none => ascii "error" ++ separatorText entry
  | some row =>
      let item := rowRead inFront row
      if item.props.contains .b = false then ascii "error" ++ separatorText entry
      else item.cmd ++ separatorText key ++ burstValue instrument item ++ separatorText entry

/-- An entry is written behind the text before it. -/
theorem Written.entry {out : Build} {text : List Byte} (written : Written out text)
    (behind : List (List Byte)) (inFront : Nat → CmdItem) (key entry : Byte)
    (instrument : Instrument) (word : List Byte) :
    Written (burstEntry behind inFront key entry instrument out word)
      (text ++ entryWritten behind inFront key entry instrument word) := by
  have error : Written ((out.sprintf (ascii "error")).separate entry)
      (text ++ (ascii "error" ++ separatorText entry)) := by
    have both := (written.sprintf (ascii "error")).separate entry
    rwa [List.append_assoc] at both
  rw [burstEntry, entryWritten]
  cases cmdFoundRow behind word with
  | none => exact error
  | some row =>
    simp only
    split_ifs
    · exact error
    · have all := (((written.sprintf (rowRead inFront row).cmd).separate key).sprintf
        (burstValue instrument (rowRead inFront row))).separate entry
      simpa only [List.append_assoc] using all

/-- The entries are written one after another. Induct on the entries. -/
theorem Written.entries {out : Build} {text : List Byte} (written : Written out text)
    (behind : List (List Byte)) (inFront : Nat → CmdItem) (key entry : Byte)
    (instrument : Instrument) (words : List (List Byte)) :
    Written (words.foldl (burstEntry behind inFront key entry instrument) out)
      (text ++ words.flatMap (entryWritten behind inFront key entry instrument)) := by
  induction words generalizing out text with
  | nil => simpa using written
  | cons word rest inductionHypothesis =>
    have next := inductionHypothesis (written.entry behind inFront key entry instrument word)
    rwa [List.append_assoc] at next

/-- The number of rows of the table. -/
theorem table_length : cmdTbl.length = 134 := by decide +kernel

/-- A row that is in the table, for the word that was looked for. -/
theorem found_row_item {behind : List (List Byte)} {word : List Byte} {row : Nat}
    (found : cmdFoundRow behind word = some row) (below : row < cmdTbl.length) :
    cmdFound word = some cmdTbl[row] ∧ cmdTbl[row].cmd = word := by
  obtain ⟨inside, here, first⟩ := List.findIdx?_eq_some_iff_getElem.mp found
  have table : ∀ place (known : place < cmdTbl.length),
      ((cmdTbl.map CmdItem.cmd ++ behind).take cmdCnt)[place]? = some cmdTbl[place].cmd := by
    intro place known
    have total := table_length
    have count : cmdCnt = 138 := rfl
    rw [List.getElem?_take_of_lt (by omega), List.getElem?_append_left (by simpa using known),
      List.getElem?_map, List.getElem?_eq_getElem known, Option.map_some]
  have word_here : cmdTbl[row].cmd = word := by
    have read := table row below
    rw [List.getElem?_eq_getElem inside] at read
    rw [Option.some.inj read] at here
    simpa using here
  refine ⟨?_, word_here⟩
  rw [cmdFound, List.find?_eq_some_iff_getElem]
  refine ⟨by simp [word_here], row, below, rfl, fun place before => ?_⟩
  have other := first place before
  have read := table place (by omega)
  rw [List.getElem?_eq_getElem (by omega)] at read
  rw [Option.some.inj read] at other
  simpa using other

/-- A word without a row is not in the table. -/
theorem found_row_none {behind : List (List Byte)} {word : List Byte}
    (missing : cmdFoundRow behind word = none) : cmdFound word = none := by
  apply List.find?_eq_none.mpr
  intro item listed
  have total : (cmdTbl.map CmdItem.cmd).length ≤ cmdCnt := by
    rw [List.length_map, table_length]
    decide
  have inside : item.cmd ∈ (cmdTbl.map CmdItem.cmd ++ behind).take cmdCnt := by
    rw [List.take_append, List.take_of_length_le total]
    exact List.mem_append_left _ (List.mem_map_of_mem listed)
  have other := List.findIdx?_eq_none_iff.mp missing item.cmd inside
  simpa using other

/-- The value of a burst is what a query is answered with. -/
theorem burst_value_get (instrument : Instrument) (item : CmdItem) :
    burstValue instrument item = getText instrument item := by
  rfl

/-- Every entry whose row is below 128 is written as it is asked for. -/
theorem entry_written_text (behind : List (List Byte)) (inFront : Nat → CmdItem)
    (key entry : Byte) (instrument : Instrument) (word : List Byte)
    (low : ∀ row, cmdFoundRow behind word = some row → row < 2 ^ 7) :
    entryWritten behind inFront key entry instrument word =
      entryText key instrument word ++ separatorText entry := by
  rw [entryWritten, entryText]
  cases found : cmdFoundRow behind word with
  | none => rw [found_row_none found]
  | some row =>
    have below := low row found
    have inside : row < cmdTbl.length := by
      rw [table_length]
      omega
    obtain ⟨found_item, word_here⟩ := found_row_item found inside
    have read : rowRead inFront row = cmdTbl[row] := by
      rw [rowRead, if_pos below, List.getD_eq_getElem?_getD, List.getElem?_eq_getElem inside,
        Option.getD_some]
    rw [found_item]
    simp only [read, word_here, burst_value_get]
    cases cmdTbl[row].props.contains .b with
    | false => rfl
    | true => rfl

/-- Texts with a separator behind each are the texts with separators between them, and one
more. Induct on the texts. -/
theorem flat_map_intercalate (separator : List Byte) (text : List Byte)
    (rest : List (List Byte)) :
    (text :: rest).flatMap (· ++ separator) =
      separator.intercalate (text :: rest) ++ separator := by
  induction rest generalizing text with
  | nil => simp
  | cons next rest inductionHypothesis =>
    rw [List.flatMap_cons, inductionHypothesis, List.intercalate_cons_cons]
    simp only [List.append_assoc]

/-- Reading a list ends with an entry. -/
theorem entries_from_nonempty (word cmdList : List Byte) : entriesFrom word cmdList ≠ [] := by
  induction cmdList generalizing word with
  | nil => exact List.cons_ne_nil _ _
  | cons byte rest inductionHypothesis =>
    rw [entriesFrom]
    split_ifs
    · exact List.cons_ne_nil _ _
    · exact List.cons_ne_nil _ _
    · exact inductionHypothesis _

/-- An accepted list has an entry. -/
theorem CmdList.entries_nonempty (list : CmdList) : entries list.text ≠ [] := by
  have something : list.text ≠ [] := by
    intro empty
    have valid := list.valid
    rw [empty] at valid
    exact absurd valid (by decide)
  rw [entries, if_neg something]
  exact entries_from_nonempty [] list.text

/-- No entry is without text. -/
theorem entry_text_nonempty (key : Byte) (instrument : Instrument) (word : List Byte) :
    entryText key instrument word ≠ [] := by
  have words : ∀ item ∈ cmdTbl, item.cmd ≠ [] := by decide +kernel
  rw [entryText]
  cases found : cmdFound word with
  | none => simp only [ne_eq]; decide
  | some item =>
    obtain ⟨listed, rfl⟩ := cmd_found_row found
    simp only
    split_ifs
    · simp [words item listed]
    · decide

/-- When every row is below 128, a build is as it is asked for exactly when the format has a
separator behind the entries and the text fits the buffer with its terminator. -/
theorem builds_iff (behind : List (List Byte)) (inFront : Nat → CmdItem) (list : CmdList)
    (key entry : Byte) (instrument : Instrument) (outbuf : Mem)
    (low : ∀ word ∈ entries list.text, ∀ row, cmdFoundRow behind word = some row → row < 2 ^ 7) :
    Builds (burstText list.text key entry instrument)
        (burstBuild behind inFront list.text key entry instrument outbuf) ↔
      entry ≠ 0 ∧ (burstText list.text key entry instrument).length < burstBufLen := by
  have written := (written_start outbuf).entries behind inFront key entry instrument
    (entries list.text)
  rw [List.nil_append] at written
  have texts : (entries list.text).flatMap (entryWritten behind inFront key entry instrument) =
      ((entries list.text).map (entryText key instrument)).flatMap (· ++ separatorText entry) := by
    rw [List.flatMap_map]
    exact List.flatMap_congr (fun word listed =>
      entry_written_text behind inFront key entry instrument word (low word listed))
  rw [texts] at written
  cases split : (entries list.text).map (entryText key instrument) with
  | nil => exact absurd (List.map_eq_nil_iff.mp split) list.entries_nonempty
  | cons text rest =>
    have first : text ≠ [] := by
      obtain ⟨word, _, same⟩ := List.mem_map.mp (split ▸ List.mem_cons_self)
      exact same ▸ entry_text_nonempty key instrument word
    rw [split, flat_map_intercalate] at written
    have body : (separatorText entry).intercalate (text :: rest) ≠ [] := by
      cases rest with
      | nil => simpa using first
      | cons next rest => simp [first]
    have whole : burstText list.text key entry instrument =
        (separatorText entry).intercalate (text :: rest) ++ lineEnd := by
      rw [burstText, split]
    have inside := finish_reached written
    have ending := finish_text written
    rw [whole]
    generalize (separatorText entry).intercalate (text :: rest) = kept at *
    have two : lineEnd.length = 2 := rfl
    constructor
    · intro builds
      have room := inside.mp builds.inside
      obtain ⟨returned, _⟩ := ending room (by simp [body])
      have length := builds.length
      rw [burstBuild] at length
      rw [returned, List.length_append, List.length_append, two] at length
      by_cases none : entry = 0
      · simp only [separatorText, if_pos none, List.length_nil] at length
        omega
      · refine ⟨none, ?_⟩
        simp only [separatorText, if_neg none, List.length_append, List.length_singleton] at room
        rw [List.length_append, two]
        omega
    · rintro ⟨separator, short⟩
      rw [List.length_append, two] at short
      have one : separatorText entry = [entry] := if_neg separator
      rw [one] at inside ending
      have room : (kept ++ [entry]).length + 2 ≤ burstBufLen := by
        rw [List.length_append, List.length_singleton]
        omega
      obtain ⟨returned, contents⟩ := ending room (by simp)
      have size : (kept ++ lineEnd).length = (kept ++ [entry]).length + 1 := by
        rw [List.length_append, List.length_append, two, List.length_singleton]
      rw [List.dropLast_concat] at contents
      refine ⟨inside.mpr room, returned.trans size.symm, ?_⟩
      rw [size]
      exact contents

/-- A row that might lie in front of the table: a burst command with a long word. -/
def longRow : CmdItem :=
  ⟨List.replicate burstBufLen 0x41, .cmdU, .temp, [.b], ⟨0, 0, .c []⟩, .devAddr⟩

/-- A row from 128 on is looked for in front of the table, where it may leave the buffer. -/
theorem high_row_leaves (behind : List (List Byte)) (cmdList text : List Byte)
    (key entry : Byte) (instrument : Instrument) (outbuf : Mem) (word : List Byte)
    (listed : word ∈ entries cmdList) (row : Nat) (found : cmdFoundRow behind word = some row)
    (high : 2 ^ 7 ≤ row) :
    ¬Builds text (burstBuild behind (fun _ => longRow) cmdList key entry instrument outbuf) := by
  intro builds
  have written := (written_start outbuf).entries behind (fun _ => longRow) key entry instrument
    (entries cmdList)
  have room := (finish_reached written).mp builds.inside
  have read : rowRead (fun _ => longRow) row = longRow := if_neg (Nat.not_lt.mpr high)
  have own : burstBufLen ≤
      (entryWritten behind (fun _ => longRow) key entry instrument word).length := by
    have burst : longRow.props.contains .b = true := by decide
    have size : longRow.cmd.length = burstBufLen := List.length_replicate
    simp only [entryWritten, found, read, burst, Bool.true_eq_false, if_false, List.length_append,
      size]
    omega
  obtain ⟨before, after, split⟩ := List.append_of_mem listed
  rw [split, List.flatMap_append, List.flatMap_cons, List.nil_append, List.length_append,
    List.length_append] at room
  omega

/-- Whatever lies in front of the table, a build is as it is asked for exactly when the format
has a separator behind the entries, no entry has a row from 128 on, and the text fits the
buffer with its terminator. -/
theorem burst_builds_iff (behind : List (List Byte)) (list : CmdList) (fmtKey fmtEntry : Byte)
    (instrument : Instrument) (outbuf : Mem) :
    (∀ inFront, Builds
        (burstText list.text (separatorOf fmtKey) (separatorOf fmtEntry) instrument)
        (burstBuild behind inFront list.text (separatorOf fmtKey) (separatorOf fmtEntry) instrument
          outbuf)) ↔
      separatorOf fmtEntry ≠ 0 ∧
        (∀ word ∈ entries list.text, ∀ row, cmdFoundRow behind word = some row → row < 2 ^ 7) ∧
        (burstText list.text (separatorOf fmtKey) (separatorOf fmtEntry) instrument).length <
          burstBufLen := by
  constructor
  · intro builds
    have low : ∀ word ∈ entries list.text, ∀ row, cmdFoundRow behind word = some row →
        row < 2 ^ 7 := by
      intro word listed row found
      by_contra high
      exact high_row_leaves behind list.text _ _ _ instrument outbuf word listed row found
        (Nat.le_of_not_lt high) (builds (fun _ => longRow))
    have both := (builds_iff behind (fun _ => longRow) list _ _ instrument outbuf low).mp
      (builds (fun _ => longRow))
    exact ⟨both.1, low, both.2⟩
  · rintro ⟨separator, low, short⟩ inFront
    exact (builds_iff behind inFront list _ _ instrument outbuf low).mpr ⟨separator, short⟩

/-- A list of the unit alone. -/
theorem unit_list_valid : validCmdList (ascii "U") = true ∧ 0 ∉ ascii "U" ∧
    (ascii "U").length < burstListSize := by
  decide

/-- A burst of the unit. -/
def unitList : CmdList := ⟨ascii "U", unit_list_valid.1, unit_list_valid.2.1, unit_list_valid.2.2⟩

/-- Without a separator behind the entries the last byte of the value is lost. -/
theorem unit_lost :
    ¬∀ inFront, Builds
      (burstText unitList.text (separatorOf 0x53) (separatorOf 0x4E) defaultInstrument)
      (burstBuild [] inFront unitList.text (separatorOf 0x53) (separatorOf 0x4E) defaultInstrument
        (fun _ => 0)) := by
  intro builds
  have low : ∀ word ∈ entries unitList.text, ∀ row, cmdFoundRow [] word = some row →
      row < 2 ^ 7 := by
    intro word listed row found
    obtain rfl : word = ascii "U" := List.mem_singleton.mp listed
    have place : cmdFoundRow [] (ascii "U") = some 47 := by decide +kernel
    have same := Option.some.inj (place.symm.trans found)
    omega
  have kept := (builds_iff [] (fun _ => longRow) unitList _ _ defaultInstrument _ low).mp
    (builds (fun _ => longRow))
  exact absurd rfl kept.1

/-- The answer to a query for a burst command is its word and the value of the burst. -/
theorem get_text_answer (around : Surroundings) (word : List Byte) (item : CmdItem)
    (found : cmdFound word = some item) (burst : item.props.contains .b = true)
    (instrument : Instrument) :
    (runCmd around { Parse.cleared with op := uppOpGet, cmdWord := word } instrument).1 =
      0x21 :: word ++ getText instrument item ++ lineEnd := by
  have rows : ∀ item ∈ cmdTbl, item.props.contains .b = true →
      item.props.contains .p = true ∧ isCoefCmd item.id = false ∧ item.id ≠ .cmdAp ∧
        uvcRequest item.id = none := by
    decide +kernel
  obtain ⟨listed, rfl⟩ := cmd_found_row found
  obtain ⟨query, noCoef, noAlgo, noCamera⟩ := rows item listed burst
  have asks : (uppOpGet == uppOpSet) = false := by decide
  have executed : executeRow around
      { Parse.cleared with op := uppOpGet, cmdWord := item.cmd } item instrument =
        (.ok { Parse.cleared with op := uppOpGet, cmdWord := item.cmd }, instrument) := by
    have apart : uppOpGet ≠ uppOpSet := by decide
    simp only [executeRow, opMismatch, locked, asks, query, executeGet, noCoef, noAlgo, noCamera,
      if_neg apart, Bool.false_and, Bool.and_false, Bool.not_true, Bool.or_self,
      Bool.false_eq_true, if_false, if_true]
  have set : ¬(uppOpGet = uppOpSet ∧ item.props.contains .n = false) := by
    rintro ⟨same, _⟩
    exact absurd same (by decide)
  simp only [runCmd, found, executed, uppRspBuildFlk, if_neg set]
  rfl

end Pyrometer.BurstText
