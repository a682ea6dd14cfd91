import Pyrometer.CommandExecution
import Pyrometer.TextRuns

/-!
# The grammar of command lists

`valid_cmd_list` reads a string once, with a counter for the length of the word it is in
and a flag for a word that was complete. The grammar says what a command list is: words of
one to four uppercase letters with a comma between any two of them.

A string is the list of its bytes and ends with the list, if not with a zero before; that
there is a string at all is what the pointer is checked for.
-/

namespace Pyrometer.CommandLists

open ByteMemory UppParser AlgorithmCommands TextRuns

/-- The loop of `valid_cmd_list`, with `cmd_len` and `has_command`. -/
def validCmdListLoop (cmdLen : Nat) (hasCommand : Bool) : List Byte → Bool
  | [] => if cmdLen = 0 ∧ hasCommand = false then false else cmdLen != 0
  | byte :: rest =>
      if byte = carriageReturn ∨ byte = 0 then
        if cmdLen = 0 ∧ hasCommand = false then false else cmdLen != 0
      else if byte = comma then
        if cmdLen = 0 then false else validCmdListLoop 0 true rest
      else if isUpper byte = false then false
      else if 4 < cmdLen + 1 then false
      else validCmdListLoop (cmdLen + 1) hasCommand rest

/-- `valid_cmd_list`, for a string that is there. -/
def validCmdList (str : List Byte) : Bool :=
  if str.headD 0 = 0 then false else validCmdListLoop 0 false str

/-- A word of one to four uppercase letters. -/
structure Word (word : List Byte) : Prop where
  nonempty : word ≠ []
  short : word.length ≤ 4
  upper : ∀ byte ∈ word, isUpper byte = true

/-- A list of words with commas between them. -/
inductive Commands : List Byte → Prop
  | one {word : List Byte} : Word word → Commands word
  | more {word rest : List Byte} : Word word → Commands rest → Commands (word ++ comma :: rest)

/-- The part of a string before its first carriage return or zero. -/
def front (str : List Byte) : List Byte :=
  str.takeWhile fun byte => byte != carriageReturn && byte != 0

/-- What starts a word is short, and uppercase. -/
structure Begun (start : List Byte) : Prop where
  short : start.length ≤ 4
  upper : ∀ byte ∈ start, isUpper byte = true

/-- No comma is in a word that has begun. -/
theorem begun_comma {start : List Byte} (begun : Begun start) : comma ∉ start := by
  intro member
  exact absurd (begun.upper comma member) (by decide)

/-- No comma is in a word. -/
theorem word_comma {word : List Byte} (isWord : Word word) : comma ∉ word :=
  begun_comma ⟨isWord.short, isWord.upper⟩

/-- A command list without commas is a word. -/
theorem commands_word {text : List Byte} (plain : comma ∉ text) :
    Commands text ↔ Word text := by
  constructor
  · rintro (isWord | ⟨-, -⟩)
    · exact isWord
    · exact absurd (List.mem_append_right _ List.mem_cons_self) plain
  · exact .one

/-- At its first comma a command list falls into a word and a command list. -/
theorem commands_comma {text rest : List Byte} (plain : comma ∉ text) :
    Commands (text ++ comma :: rest) ↔ Word text ∧ Commands rest := by
  constructor
  · intro commands
    generalize shape : text ++ comma :: rest = whole at commands
    cases commands with
    | one isWord =>
      subst shape
      exact absurd (List.mem_append_right _ List.mem_cons_self) (word_comma isWord)
    | more isWord others =>
      obtain ⟨rfl, rfl⟩ := first_separator plain (word_comma isWord) shape
      exact ⟨isWord, others⟩
  · rintro ⟨isWord, others⟩
    exact .more isWord others

/-- A word has begun before its first letter. -/
theorem nothing_begun : Begun [] := ⟨Nat.zero_le 4, fun _ member => absurd member List.not_mem_nil⟩

/-- A word has begun at each of its beginnings. -/
theorem word_begun {word start : List Byte} (isWord : Word word) (leading : start <+: word) :
    Begun start :=
  ⟨leading.length_le.trans isWord.short,
    fun byte member => isWord.upper byte (leading.subset member)⟩

/-- A word that has begun is a word, if it is not empty. -/
theorem begun_word {start : List Byte} (begun : Begun start) : Word start ↔ start.length ≠ 0 := by
  constructor
  · intro isWord nothing
    exact isWord.nonempty (List.length_eq_zero_iff.mp nothing)
  · intro nonempty
    refine ⟨?_, begun.short, begun.upper⟩
    rintro rfl
    exact nonempty rfl

/-- One more letter is read while there is room for it. -/
theorem begun_letter {start : List Byte} (begun : Begun start) (byte : Byte) :
    Begun (start ++ [byte]) ↔ start.length < 4 ∧ isUpper byte = true := by
  constructor
  · intro more
    have short := more.short
    rw [List.length_append] at short
    exact ⟨short, more.upper byte (by simp)⟩
  · rintro ⟨room, upper⟩
    refine ⟨?_, ?_⟩
    · rw [List.length_append]
      exact room
    · intro other member
      rcases List.mem_append.mp member with earlier | last
      · exact begun.upper other earlier
      · rw [List.mem_singleton.mp last]
        exact upper

/-- Before its first comma a command list has begun a word. -/
theorem commands_begun {start rest : List Byte} (plain : comma ∉ start)
    (commands : Commands (start ++ rest)) : Begun start := by
  generalize shape : start ++ rest = whole at commands
  cases commands with
  | one isWord => exact word_begun isWord ⟨rest, shape⟩
  | more isWord others =>
    rcases List.append_eq_append_iff.mp shape with ⟨between, rfl, -⟩ | ⟨between, rfl, behind⟩
    · exact word_begun isWord (List.prefix_append _ _)
    · cases between with
      | nil => exact word_begun isWord (by rw [List.append_nil])
      | cons byte more =>
        obtain ⟨rfl, -⟩ := List.cons.inj behind
        exact absurd (List.mem_append_right _ List.mem_cons_self) plain

/-- At the end of the string the word has to be complete, whatever the flag says. -/
theorem end_accepts {word : List Byte} (begun : Begun word) (hasCommand : Bool) :
    (if word.length = 0 ∧ hasCommand = false then false else word.length != 0) = true ↔
      Commands (word ++ []) := by
  rw [List.append_nil, commands_word (begun_comma begun), begun_word begun]
  split
  case isTrue none => simp [none.1]
  case isFalse => exact bne_iff_ne

/-- The string goes on behind a character that does not end it. -/
theorem front_cons {byte : Byte} (goes : ¬ (byte = carriageReturn ∨ byte = 0))
    (rest : List Byte) : front (byte :: rest) = byte :: front rest := by
  obtain ⟨noReturn, noZero⟩ := not_or.mp goes
  apply List.takeWhile_cons_of_pos
  rw [Bool.and_eq_true, bne_iff_ne, bne_iff_ne]
  exact ⟨noReturn, noZero⟩

/-- Nothing is in front of a character that ends the string. -/
theorem front_ends {byte : Byte} (ends : byte = carriageReturn ∨ byte = 0) (rest : List Byte) :
    front (byte :: rest) = [] := by
  apply List.takeWhile_cons_of_neg
  rcases ends with rfl | rfl
  · decide
  · decide

/-- The loop accepts what completes the word it is in to a command list. -/
theorem loop_accepts (str : List Byte) (hasCommand : Bool) {word : List Byte}
    (begun : Begun word) :
    validCmdListLoop word.length hasCommand str = true ↔ Commands (word ++ front str) := by
  induction str generalizing hasCommand word with
  | nil => exact end_accepts begun hasCommand
  | cons byte rest inductionHypothesis =>
    have plain := begun_comma begun
    rw [validCmdListLoop]
    by_cases ends : byte = carriageReturn ∨ byte = 0
    · rw [if_pos ends, front_ends ends]
      exact end_accepts begun hasCommand
    rw [if_neg ends, front_cons ends]
    by_cases separates : byte = comma
    · subst separates
      have onward := inductionHypothesis true nothing_begun
      rw [if_pos rfl, commands_comma plain, begun_word begun]
      split
      case isTrue none => simp [none]
      case isFalse complete => exact onward.trans (and_iff_right complete).symm
    rw [if_neg separates, List.append_cons]
    have letterPlain : comma ∉ word ++ [byte] := by
      rw [List.mem_append, List.mem_singleton]
      rintro (earlier | last)
      · exact plain earlier
      · exact separates last.symm
    have refused : ¬ (word.length < 4 ∧ isUpper byte = true) →
        ¬ Commands (word ++ [byte] ++ front rest) := by
      intro noLetter commands
      exact noLetter ((begun_letter begun byte).mp (commands_begun letterPlain commands))
    split
    case isTrue lower => exact iff_of_false Bool.false_ne_true (refused (by simp [lower]))
    case isFalse upper =>
      split
      case isTrue long => exact iff_of_false Bool.false_ne_true (refused (by omega))
      case isFalse room =>
        have letter : Begun (word ++ [byte]) :=
          (begun_letter begun byte).mpr ⟨by omega, Bool.not_eq_false _ ▸ upper⟩
        have onward := inductionHypothesis hasCommand letter
        rw [List.length_append] at onward
        exact onward

/-- Nothing is no command list. -/
theorem commands_nonempty {text : List Byte} (commands : Commands text) : text ≠ [] := by
  cases commands with
  | one isWord => exact isWord.nonempty
  | more => exact List.append_ne_nil_of_right_ne_nil _ (List.cons_ne_nil _ _)

/-- `valid_cmd_list` accepts exactly the strings with a command list before their first
carriage return or zero. -/
theorem cmd_list_valid (str : List Byte) : validCmdList str = true ↔ Commands (front str) := by
  have loop := loop_accepts str false nothing_begun
  rw [validCmdList]
  split
  case isTrue none =>
    have nothing : front str = [] := by
      cases str with
      | nil => rfl
      | cons byte rest => exact front_ends (.inr none) rest
    refine iff_of_false Bool.false_ne_true fun commands => commands_nonempty commands nothing
  case isFalse => exact loop

/-- The flag does not change the answer at the end. -/
theorem end_flag (cmdLen : Nat) (hasCommand : Bool) :
    (if cmdLen = 0 ∧ hasCommand = false then false else cmdLen != 0) = (cmdLen != 0) := by
  split
  case isTrue none => simp [none.1]
  case isFalse => rfl

/-- The loop of the commands comes to the same answer without the flag, on the string up to
its zero. -/
theorem loop_from (str : List Byte) (cmdLen : Nat) (hasCommand : Bool) :
    validCmdListLoop cmdLen hasCommand str =
      CommandExecution.validCmdListFrom cmdLen (CText.cString str) := by
  induction str generalizing cmdLen hasCommand with
  | nil => exact end_flag cmdLen hasCommand
  | cons byte rest inductionHypothesis =>
    rw [validCmdListLoop]
    by_cases zero : byte = 0
    · subst zero
      rw [if_pos (.inr rfl)]
      exact end_flag cmdLen hasCommand
    · rw [CText.c_string_cons zero, CommandExecution.validCmdListFrom]
      simp only [zero, or_false, end_flag, inductionHypothesis]

/-- The commands accept the same lists. -/
theorem list_from (str : List Byte) :
    validCmdList str = CommandExecution.validCmdList (CText.cString str) := by
  rw [validCmdList]
  split
  case isTrue none =>
    cases str with
    | nil => rfl
    | cons byte rest =>
      rw [List.headD_cons] at none
      subst none
      rfl
  case isFalse => exact loop_from str 0 false

end Pyrometer.CommandLists
