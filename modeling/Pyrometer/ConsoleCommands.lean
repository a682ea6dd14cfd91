import Pyrometer.CText
import Pyrometer.ByteMemory
import Pyrometer.TextRuns

/-!
# Dispatch of console commands

`command_execute` cuts a line into words where it lies and calls the function of the table
entry that the first word names. The line is a memory with a zero byte at some address;
`words` says what its words are. Both scans of the source and the loop around them run on
fuel, so that an end which is never reached shows as `none`. A pointer into the line is an
address, and an element of `argv` that was never set is missing from the list.

A function of the table is any type. What it does with its arguments is not modelled.
-/

namespace Pyrometer.ConsoleCommands

open ByteMemory CText TextRuns

/-- `CMD_ARG_MAX_CNT` -/
def cmdArgMaxCnt : Nat := 8

/-- `CMD_NOT_FOUND` -/
def cmdNotFound : Int := 3

/-- A byte that separates words. -/
def isBlank (byte : Byte) : Bool := byte == 0x20 || byte == 0x09

/-- A byte that ends the line. -/
def isEnd (byte : Byte) : Bool := byte == 0 || byte == 0x0D || byte == 0x0A

/-- An entry of a command table. Its name is a string, so that it has no zero byte. -/
structure Entry (Handler : Type) where
  id : List Byte
  function : Option Handler
  plain : id.all (fun byte => byte != 0) = true

/-- The name of an entry has no zero byte. -/
theorem Entry.no_zero {Handler : Type} (entry : Entry Handler) : 0 ∉ entry.id :=
  fun zero => absurd (List.all_eq_true.mp entry.plain 0 zero) (by decide)

/-- The functions of the console. -/
inductive Command where
  | help
  | ver
  | default
  | debug
  | reboot
  | date
deriving DecidableEq

/-- `CON_CMD_TABLE` -/
def conCmdTable : List (Entry Command) :=
  [⟨ascii "help", some .help, rfl⟩, ⟨ascii "ver", some .ver, rfl⟩,
   ⟨ascii "default", some .default, rfl⟩, ⟨ascii "debug", some .debug, rfl⟩,
   ⟨ascii "reboot", some .reboot, rfl⟩, ⟨ascii "date", some .date, rfl⟩]

/-- What `command_execute` comes to: it returns a code of its own, it calls a function with
its arguments, or it reads `argv[0]` before that is set. -/
inductive Outcome (Handler : Type) where
  | returned (code : Int)
  | called (function : Handler) (argv : List Nat) (buffer : Mem)
  | unset

variable {Handler : Type}

/-- The scan to the end of a word. -/
def wordEnd (buffer : Mem) : Nat → Nat → Option Nat
  | 0, _ => none
  | fuel + 1, pos =>
      if isEnd (buffer pos) || isBlank (buffer pos) then some pos
      else wordEnd buffer fuel (pos + 1)

/-- The scan over separators. -/
def skipBlanks (buffer : Mem) : Nat → Nat → Option Nat
  | 0, _ => none
  | fuel + 1, pos =>
      if isBlank (buffer pos) then skipBlanks buffer fuel (pos + 1) else some pos

/-- The loop that cuts the line into words. -/
def parse : Nat → Mem → Nat → List Nat → Option (List Nat × Mem)
  | 0, _, _, _ => none
  | fuel + 1, buffer, start, argv => do
      let pos ← wordEnd buffer (fuel + 1) start
      let argv := if pos ≠ start then argv ++ [start] else argv
      if isEnd (buffer pos) ∨ argv.length = cmdArgMaxCnt then
        pure (argv, Function.update buffer pos 0)
      else
        let cut := Function.update buffer pos 0
        let next ← skipBlanks cut (fuel + 1) (pos + 1)
        parse fuel cut next argv

/-- `string_comp` of a name and a string in memory. -/
def stringComp : List Byte → Mem → Nat → Int
  | [], memory, place => if memory place = 0 then 0 else -1
  | byte :: rest, memory, place =>
      if memory place = 0 then 1
      else if byte < memory place then -1
      else if byte > memory place then 1
      else stringComp rest memory (place + 1)

/-- The search of the command table. -/
def search (argv : List Nat) (buffer : Mem) : List (Entry Handler) → Outcome Handler
  | [] => .returned cmdNotFound
  | entry :: rest =>
      match argv with
      | [] => .unset
      | name :: _ =>
          if stringComp entry.id buffer name = 0 then
            match entry.function with
            | some function => .called function argv buffer
            | none => search argv buffer rest
          else search argv buffer rest

/-- `command_execute` -/
def commandExecute (fuel : Nat) (buffer : Mem) (table : List (Entry Handler)) :
    Option (Outcome Handler) :=
  (parse fuel buffer 0 []).map (fun parsed => search parsed.1 parsed.2 table)

/-- The text of a line: what stands in front of the first byte that ends it. -/
def lineText (buffer : Mem) (size : Nat) : List Byte :=
  (toList buffer 0 size).takeWhile (fun byte => !isEnd byte)

/-- The words of a text: its maximal runs of bytes that are no separators. -/
def words (text : List Byte) : List (List Byte) :=
  (text.splitOnP isBlank).filter (fun word => word != [])

/-- A string of the memory: its bytes and a terminator. -/
structure Ends (buffer : Mem) (place : Nat) (text : List Byte) : Prop where
  bytes : toList buffer place text.length = text
  plain : 0 ∉ text
  ended : buffer (place + text.length) = 0

/-- What a line and a table ask for: the function of the first entry that has one and is
named by the first word, called with the first eight words; nothing else is called. -/
def Dispatched (found : List (List Byte)) (table : List (Entry Handler)) :
    Outcome Handler → Prop
  | .returned code =>
      code = cmdNotFound ∧
        ∀ entry ∈ table, found.head? = some entry.id → entry.function = none
  | .called function argv buffer =>
      List.Forall₂ (Ends buffer) argv (found.take cmdArgMaxCnt) ∧
        ∃ before entry behind, table = before ++ entry :: behind ∧
          found.head? = some entry.id ∧ entry.function = some function ∧
          ∀ other ∈ before, found.head? = some other.id → other.function = none
  | .unset => False

/-- A byte that ends the line separates no words. -/
theorem end_not_blank {byte : Byte} (ends : isEnd byte = true) : isBlank byte = false := by
  simp only [isEnd, Bool.or_eq_true, beq_iff_eq] at ends
  rcases ends with (rfl | rfl) | rfl <;> decide

/-- A zero byte ends the line. -/
theorem plain_of_inner {text : List Byte} (inner : ∀ byte ∈ text, isEnd byte = false) :
    0 ∉ text := fun zero => absurd (inner 0 zero) (by decide)

/-- What is left of the line from a place on. -/
structure Remains (buffer : Mem) (place : Nat) (text : List Byte) : Prop where
  bytes : toList buffer place text.length = text
  inner : ∀ byte ∈ text, isEnd byte = false
  ended : isEnd (buffer (place + text.length)) = true

/-- A memory that holds two texts one behind the other holds each of them. -/
theorem bytes_append {buffer : Mem} {place : Nat} {front text : List Byte}
    (bytes : toList buffer place (front ++ text).length = front ++ text) :
    toList buffer place front.length = front ∧
      toList buffer (place + front.length) text.length = text := by
  rw [List.length_append, to_list_append] at bytes
  exact List.append_inj bytes (by simp)

/-- What is left behind the first bytes. -/
theorem Remains.rest {buffer : Mem} {place : Nat} {front text : List Byte}
    (remains : Remains buffer place (front ++ text)) :
    Remains buffer (place + front.length) text where
  bytes := (bytes_append remains.bytes).2
  inner := fun byte inside => remains.inner byte (by simp [inside])
  ended := by
    have last := remains.ended
    rwa [List.length_append, ← Nat.add_assoc] at last

/-- The first bytes of what is left. -/
theorem Remains.front {buffer : Mem} {place : Nat} {front text : List Byte}
    (remains : Remains buffer place (front ++ text)) :
    toList buffer place front.length = front :=
  (bytes_append remains.bytes).1

/-- The string behind the first bytes of a string. -/
theorem Ends.rest {buffer : Mem} {place : Nat} {front text : List Byte}
    (ends : Ends buffer place (front ++ text)) : Ends buffer (place + front.length) text where
  bytes := (bytes_append ends.bytes).2
  plain := fun zero => ends.plain (List.mem_append_right front zero)
  ended := by
    have last := ends.ended
    rwa [List.length_append, ← Nat.add_assoc] at last

/-- What is left does not see a byte written in front of it. -/
theorem Remains.cut {buffer : Mem} {place : Nat} {text : List Byte}
    (remains : Remains buffer place text) {earlier : Nat} (before : earlier < place) :
    Remains (Function.update buffer earlier 0) place text where
  bytes := (to_list_update _ _ _ _ _ (by omega)).trans remains.bytes
  inner := remains.inner
  ended := by
    rw [Function.update_of_ne (by omega)]
    exact remains.ended

/-- A string does not see a byte written behind its terminator, nor a terminator written
over its own. -/
theorem Ends.cut {buffer : Mem} {place : Nat} {text : List Byte} (ends : Ends buffer place text)
    {later : Nat} (behind : place + text.length ≤ later) :
    Ends (Function.update buffer later 0) place text where
  bytes := (to_list_update _ _ _ _ _ (by omega)).trans ends.bytes
  plain := ends.plain
  ended := by
    by_cases own : place + text.length = later
    · rw [own, Function.update_self]
    · rw [Function.update_of_ne own, ends.ended]

/-- The first byte of what a memory holds. -/
theorem head_of_bytes {buffer : Mem} {place : Nat} {byte : Byte} {rest : List Byte}
    (bytes : toList buffer place (byte :: rest).length = byte :: rest) :
    buffer place = byte ∧ toList buffer (place + 1) rest.length = rest := by
  rw [List.length_cons, Nat.add_comm, to_list_append, to_list_one, List.singleton_append] at bytes
  exact List.cons.inj bytes

/-- A loop that moves on over bytes that meet a test stops behind them. -/
theorem scan_eq {scan : Nat → Nat → Option Nat} {stays : Byte → Bool} {buffer : Mem}
    (step : ∀ fuel place, scan (fuel + 1) place =
      if stays (buffer place) = true then scan fuel (place + 1) else some place)
    (front : List Byte) (place fuel : Nat) (bytes : toList buffer place front.length = front)
    (stay : ∀ byte ∈ front, stays byte = true)
    (stops : stays (buffer (place + front.length)) = false) (enough : front.length < fuel) :
    scan fuel place = some (place + front.length) := by
  induction front generalizing place fuel with
  | nil =>
    obtain ⟨fuel, rfl⟩ := Nat.exists_eq_add_of_lt enough
    simp only [List.length_nil, Nat.add_zero] at stops
    simp [step, stops]
  | cons byte rest inductionHypothesis =>
    obtain ⟨here, later⟩ := head_of_bytes bytes
    have shift : place + (byte :: rest).length = place + 1 + rest.length := by
      simp only [List.length_cons]
      omega
    rw [shift] at stops ⊢
    obtain ⟨fuel, rfl⟩ := Nat.exists_eq_add_one_of_ne_zero (Nat.ne_of_gt (Nat.zero_lt_of_lt enough))
    rw [step, here, if_pos (stay byte List.mem_cons_self)]
    exact inductionHypothesis (place + 1) fuel later
      (fun other inside => stay other (List.mem_cons_of_mem byte inside)) stops
      (Nat.lt_of_succ_lt_succ enough)

/-- The scan to the end of a word stops behind the run it starts in. -/
theorem word_end_eq (buffer : Mem) (word : List Byte) (place fuel : Nat)
    (bytes : toList buffer place word.length = word) (inner : ∀ byte ∈ word, isEnd byte = false)
    (run : ∀ byte ∈ word, isBlank byte = false)
    (stops : isEnd (buffer (place + word.length)) = true ∨
      isBlank (buffer (place + word.length)) = true)
    (enough : word.length < fuel) : wordEnd buffer fuel place = some (place + word.length) := by
  have step : ∀ fuel place, wordEnd buffer (fuel + 1) place =
      if (!(isEnd (buffer place) || isBlank (buffer place))) = true
        then wordEnd buffer fuel (place + 1) else some place := by
    intro fuel place
    rw [wordEnd]
    cases isEnd (buffer place) || isBlank (buffer place) with
    | true => rfl
    | false => rfl
  apply @scan_eq _ (fun byte => !(isEnd byte || isBlank byte)) buffer step word place fuel bytes _ _
    enough
  · intro byte inside
    rw [inner byte inside, run byte inside]
    rfl
  · rw [Bool.not_eq_false', Bool.or_eq_true]
    exact stops

/-- The scan over separators stops behind them. -/
theorem skip_blanks_eq (buffer : Mem) (blanks : List Byte) (place fuel : Nat)
    (bytes : toList buffer place blanks.length = blanks)
    (blank : ∀ byte ∈ blanks, isBlank byte = true)
    (stops : isBlank (buffer (place + blanks.length)) = false)
    (enough : blanks.length < fuel) :
    skipBlanks buffer fuel place = some (place + blanks.length) :=
  scan_eq (fun _ _ => rfl) blanks place fuel bytes blank stops enough

/-- The pointers found so far name the words found so far, all in front of some place. -/
def Settled (buffer : Mem) (place : Nat) (argv : List Nat) (found : List (List Byte)) : Prop :=
  List.Forall₂ (fun start word => Ends buffer start word ∧ start + word.length < place) argv found

/-- A place further on is behind the words found as well. -/
theorem Settled.mono {buffer : Mem} {place later : Nat} {argv : List Nat}
    {found : List (List Byte)} (settled : Settled buffer place argv found)
    (behind : place ≤ later) : Settled buffer later argv found :=
  List.Forall₂.imp (fun _ _ both => ⟨both.1, by omega⟩) settled

/-- Words that were found do not see what is written behind them. -/
theorem Settled.cut {buffer : Mem} {place : Nat} {argv : List Nat} {found : List (List Byte)}
    (settled : Settled buffer place argv found) {later : Nat} (behind : place ≤ later) :
    Settled (Function.update buffer later 0) (later + 1) argv found := by
  refine List.Forall₂.imp (fun start word => ?_) settled
  rintro ⟨ends, before⟩
  exact ⟨ends.cut (by omega), by omega⟩

/-- The next word, ended by the byte written behind it, joins the words found. -/
theorem Settled.push {buffer : Mem} {place : Nat} {argv : List Nat} {found : List (List Byte)}
    (settled : Settled buffer place argv found) {word tail : List Byte}
    (remains : Remains buffer place (word ++ tail)) :
    Settled (Function.update buffer (place + word.length) 0) (place + word.length + 1)
      (argv ++ if place + word.length ≠ place then [place] else [])
      (found ++ if word = [] then [] else [word]) := by
  have earlier := settled.cut (show place ≤ place + word.length by omega)
  by_cases empty : word = []
  · simpa [empty] using earlier
  · have long : place + word.length ≠ place := by
      have positive := List.length_pos_iff.mpr empty
      omega
    rw [if_neg empty, if_pos long]
    refine List.rel_append earlier (List.Forall₂.cons ⟨?_, Nat.lt_succ_self _⟩ .nil)
    exact
      { bytes := (to_list_update _ _ _ _ _ (by omega)).trans remains.front
        plain := plain_of_inner fun byte inside => remains.inner byte (by simp [inside])
        ended := Function.update_self _ _ _ }

/-- The words of a text are the run it starts with and the words behind. -/
theorem words_split (word tail : List Byte) (run : ∀ byte ∈ word, isBlank byte = false)
    (stops : ∀ byte rest, tail = byte :: rest → isBlank byte = true) :
    words (word ++ tail) = (if word = [] then [] else [word]) ++ words tail := by
  by_cases empty : word = []
  · simp [empty]
  rw [if_neg empty]
  cases tail with
  | nil =>
    rw [List.append_nil]
    exact runs_only empty run
  | cons byte rest =>
    have blank := stops byte rest rfl
    calc words (word ++ byte :: rest)
        = word :: words rest := runs_first empty run blank rest
      _ = word :: words (byte :: rest) := congrArg _ (runs_separator blank rest).symm

/-- The arguments of a loop step: the run in front joins them, unless it is empty. -/
theorem argument_joins (place length : Nat) (argv : List Nat) :
    (if place + length ≠ place then argv ++ [place] else argv) =
      argv ++ if place + length ≠ place then [place] else [] := by
  by_cases empty : place + length ≠ place
  · rw [if_pos empty, if_pos empty]
  · rw [if_neg empty, if_neg empty, List.append_nil]

/-- The scan to the end of a word takes the front of what is left. -/
theorem Remains.scan {buffer : Mem} {place : Nat} {word tail : List Byte}
    (remains : Remains buffer place (word ++ tail)) (run : ∀ byte ∈ word, isBlank byte = false)
    (stops : ∀ byte rest, tail = byte :: rest → isBlank byte = true) {fuel : Nat}
    (enough : word.length < fuel) : wordEnd buffer fuel place = some (place + word.length) := by
  have behind := remains.rest
  refine word_end_eq buffer word place _ remains.front
    (fun byte inside => remains.inner byte (by simp [inside])) run ?_ enough
  cases tail with
  | nil => exact Or.inl (by simpa using behind.ended)
  | cons byte rest => exact Or.inr ((head_of_bytes behind.bytes).1 ▸ stops byte rest rfl)

/-- The scan over separators takes those in front of what is left. -/
theorem Remains.skip {buffer : Mem} {place : Nat} {blanks text : List Byte}
    (remains : Remains buffer place (blanks ++ text))
    (blank : ∀ byte ∈ blanks, isBlank byte = true)
    (stops : ∀ byte rest, text = byte :: rest → isBlank byte = false) {fuel : Nat}
    (enough : blanks.length < fuel) :
    skipBlanks buffer fuel place = some (place + blanks.length) := by
  refine skip_blanks_eq buffer blanks place _ remains.front blank ?_ enough
  cases text with
  | nil => exact end_not_blank (by simpa using remains.ended)
  | cons byte rest =>
    rw [(head_of_bytes remains.rest.bytes).1]
    exact stops byte rest rfl

/-- The loop cuts what is left of a line into its words, up to the limit, and ends. -/
theorem parse_eq (fuel : Nat) (buffer : Mem) (place : Nat) (text : List Byte) (argv : List Nat)
    (found : List (List Byte)) (remains : Remains buffer place text)
    (enough : text.length < fuel) (few : found.length < cmdArgMaxCnt)
    (settled : Settled buffer place argv found) :
    ∃ pointers after, parse fuel buffer place argv = some (pointers, after) ∧
      List.Forall₂ (Ends after) pointers ((found ++ words text).take cmdArgMaxCnt) := by
  induction fuel generalizing buffer place text argv found with
  | zero => omega
  | succ fuel inductionHypothesis =>
    obtain ⟨word, tail, rfl, run, stops⟩ := part_and_tail isBlank text
    rw [List.length_append] at enough
    have behind := remains.rest
    have scan : wordEnd buffer (fuel + 1) place = some (place + word.length) :=
      remains.scan run stops (by omega)
    have next := settled.push remains
    have all := congrArg (found ++ ·) (words_split word tail run stops)
    simp only [← List.append_assoc] at all
    have limit : (found ++ if word = [] then [] else [word]).length ≤ cmdArgMaxCnt := by
      by_cases empty : word = [] <;> simp [empty] <;> omega
    rw [all]
    simp only [parse, scan, Option.bind_eq_bind, Option.bind_some, argument_joins]
    generalize (found ++ if word = [] then [] else [word]) = found at next limit ⊢
    generalize (argv ++ if place + word.length ≠ place then [place] else []) = argv at next ⊢
    have count : argv.length = found.length := next.length_eq
    by_cases done : isEnd (buffer (place + word.length)) = true ∨ argv.length = cmdArgMaxCnt
    · rw [if_pos done]
      refine ⟨_, _, rfl, ?_⟩
      have whole : (found ++ words tail).take cmdArgMaxCnt = found := by
        rcases done with ends | full
        · cases tail with
          | nil => simpa [words] using limit
          | cons byte rest =>
            have blank := stops byte rest rfl
            rw [← (head_of_bytes behind.bytes).1, end_not_blank ends] at blank
            exact absurd blank (by decide)
        · exact List.take_left' (by omega)
      rw [whole]
      exact List.Forall₂.imp (fun _ _ both => both.1) next
    · rw [if_neg done]
      rw [not_or] at done
      cases tail with
      | nil => exact absurd (by simpa using behind.ended) done.1
      | cons byte rest =>
        obtain ⟨blanks, text, rfl, blank, ends⟩ := part_and_tail (fun byte => !isBlank byte) rest
        simp only [List.length_cons, List.length_append] at enough
        have solid : ∀ other ∈ blanks, isBlank other = true := by simpa using blank
        have left : Remains (Function.update buffer (place + word.length) 0)
            (place + word.length + 1) (blanks ++ text) :=
          (@Remains.rest _ _ [byte] _ behind).cut (Nat.lt_succ_self _)
        have skipped : skipBlanks (Function.update buffer (place + word.length) 0) (fuel + 1)
            (place + word.length + 1) = some (place + word.length + 1 + blanks.length) :=
          left.skip solid (by simpa using ends) (by omega)
        have onward : words (byte :: (blanks ++ text)) = words text :=
          (runs_separator (stops byte _ rfl) _).trans (runs_separators blanks text solid)
        rw [skipped, Option.bind_some, onward]
        refine inductionHypothesis _ _ text argv found left.rest (by omega) ?_
          (next.mono (Nat.le_add_right _ _))
        have other : found.length ≠ cmdArgMaxCnt := count ▸ done.2
        omega

/-- A line as `parse` starts with it: what is left is its text. -/
theorem line_remains (buffer : Mem) (size : Nat) (ended : buffer size = 0) :
    Remains buffer 0 (lineText buffer size) := by
  obtain ⟨text, tail, whole, inner, stops⟩ := part_and_tail isEnd (toList buffer 0 size)
  have same : lineText buffer size = text := by
    have first : tail.takeWhile (fun byte => !isEnd byte) = [] := by
      cases tail with
      | nil => rfl
      | cons byte rest => simp [stops byte rest rfl]
    rw [lineText, whole, List.takeWhile_append_of_pos (by simpa using inner), first,
      List.append_nil]
  have length : text.length + tail.length = size := by
    have both := congrArg List.length whole
    simpa using both.symm
  rw [← length, to_list_append, Nat.zero_add] at whole
  have parts := List.append_inj whole (by simp)
  rw [same]
  refine ⟨parts.1, inner, ?_⟩
  cases tail with
  | nil =>
    have all : text.length = size := by simpa using length
    rw [Nat.zero_add, all, ended]
    decide
  | cons byte rest =>
    rw [Nat.zero_add, (head_of_bytes parts.2).1]
    exact stops byte rest rfl

/-- The text of a line is not longer than the line. -/
theorem line_text_length (buffer : Mem) (size : Nat) : (lineText buffer size).length ≤ size := by
  have shorter := (List.takeWhile_sublist (fun byte => !isEnd byte)
    (l := toList buffer 0 size)).length_le
  simpa [lineText] using shorter

/-- `string_comp` finds a name equal to a string exactly when they have the same bytes. -/
theorem string_comp_zero (name : List Byte) (buffer : Mem) (place : Nat) (text : List Byte)
    (plain : 0 ∉ name) (ends : Ends buffer place text) :
    stringComp name buffer place = 0 ↔ name = text := by
  induction name generalizing place text with
  | nil =>
    cases text with
    | nil => simpa [stringComp] using ends.ended
    | cons other text =>
      have here := (head_of_bytes ends.bytes).1
      have nonzero : other ≠ 0 := fun zero => ends.plain (by simp [zero])
      simpa [stringComp, here] using nonzero
  | cons byte rest inductionHypothesis =>
    cases text with
    | nil =>
      have here : buffer place = 0 := by simpa using ends.ended
      simp [stringComp, here]
    | cons other text =>
      obtain ⟨here, later⟩ := head_of_bytes ends.bytes
      have nonzero : other ≠ 0 := fun zero => ends.plain (by simp [zero])
      have next : Ends buffer (place + 1) text :=
        { bytes := later
          plain := fun zero => ends.plain (List.mem_cons_of_mem _ zero)
          ended := by
            have last := ends.ended
            rwa [List.length_cons, Nat.add_comm text.length, ← Nat.add_assoc] at last }
      have tail := inductionHypothesis (place + 1) text (fun zero =>
        plain (List.mem_cons_of_mem _ zero)) next
      simp only [stringComp, here, nonzero, if_false, List.cons.injEq]
      rcases Nat.lt_trichotomy byte.toNat other.toNat with less | same | greater
      · have apart : byte ≠ other := fun same => absurd (same ▸ less) (Nat.lt_irrefl _)
        simp [BitVec.lt_def, less, apart]
      · obtain rfl := BitVec.eq_of_toNat_eq same
        simpa [BitVec.lt_def] using tail
      · have apart : byte ≠ other := fun same => absurd (same ▸ greater) (Nat.lt_irrefl _)
        have notLess : ¬byte.toNat < other.toNat := by omega
        simp [BitVec.lt_def, notLess, greater, apart]

/-- The search calls the function of the first entry that has one and the name of the first
argument. -/
theorem search_named (table : List (Entry Handler)) (argv : List Nat) (buffer : Mem)
    (found : List (List Byte)) (nonempty : found ≠ [])
    (strings : List.Forall₂ (Ends buffer) argv (found.take cmdArgMaxCnt)) :
    Dispatched found table (search argv buffer table) := by
  obtain ⟨word, others, rfl⟩ := List.exists_cons_of_ne_nil nonempty
  obtain ⟨name, rest, own, behind, rfl⟩ := List.forall₂_cons_right_iff.mp strings
  induction table with
  | nil => exact ⟨rfl, by simp⟩
  | cons entry table inductionHypothesis =>
    have compared := string_comp_zero entry.id buffer name word entry.no_zero own
    have skips : (¬entry.id = word ∨ entry.function = none) →
        Dispatched (word :: others) (entry :: table)
          (search (name :: rest) buffer table) := by
      intro missed
      have first : (word :: others).head? = some entry.id → entry.function = none := by
        intro same
        exact missed.resolve_left (fun apart => apart (Option.some.inj same).symm)
      cases outcome : search (name :: rest) buffer table with
      | returned code =>
        rw [outcome] at inductionHypothesis
        exact ⟨inductionHypothesis.1, List.forall_mem_cons.mpr ⟨first, inductionHypothesis.2⟩⟩
      | called function argv after =>
        rw [outcome] at inductionHypothesis
        obtain ⟨given, before, chosen, tail, rfl, named, has, nothing⟩ := inductionHypothesis
        exact ⟨given, entry :: before, chosen, tail, rfl, named, has,
          List.forall_mem_cons.mpr ⟨first, nothing⟩⟩
      | unset =>
        rw [outcome] at inductionHypothesis
        exact inductionHypothesis
    by_cases same : entry.id = word
    · cases has : entry.function with
      | none => simpa [search, compared.mpr same, has] using skips (Or.inr has)
      | some function =>
        have outcome : search (name :: rest) buffer (entry :: table) =
            .called function (name :: rest) buffer := by
          simp [search, compared.mpr same, has]
        rw [outcome]
        exact ⟨strings, [], entry, table, rfl, congrArg some same.symm, has, by simp⟩
    · have apart : stringComp entry.id buffer name ≠ 0 := fun zero => same (compared.mp zero)
      simpa [search, apart] using skips (Or.inl same)

/-- The search without an argument. -/
theorem search_nameless (table : List (Entry Handler)) (buffer : Mem) :
    Dispatched [] table (search [] buffer table) ↔ table = [] := by
  cases table with
  | nil => simp [search, Dispatched]
  | cons entry rest => simp [search, Dispatched]

/-- `command_execute` ends on every line. -/
theorem command_execute_ends (table : List (Entry Handler)) (buffer : Mem) (size fuel : Nat)
    (ended : buffer size = 0) (enough : size < fuel) :
    ∃ argv after, commandExecute fuel buffer table = some (search argv after table) ∧
      List.Forall₂ (Ends after) argv ((words (lineText buffer size)).take cmdArgMaxCnt) := by
  obtain ⟨argv, after, parsed, strings⟩ := parse_eq fuel buffer 0 (lineText buffer size) [] []
    (line_remains buffer size ended) (Nat.lt_of_le_of_lt (line_text_length buffer size) enough)
    (by decide) .nil
  refine ⟨argv, after, ?_, by simpa using strings⟩
  rw [commandExecute, parsed]
  rfl

/-- `command_execute` ends on every line. It calls the function that the line asks for with
the words of the line, and no other function, exactly when the line has a word or the table
has no entry; else it reads an argument that was never set. -/
theorem command_execute_iff (table : List (Entry Handler)) (buffer : Mem) (size fuel : Nat)
    (ended : buffer size = 0) (enough : size < fuel) :
    (∃ outcome, commandExecute fuel buffer table = some outcome ∧
        Dispatched (words (lineText buffer size)) table outcome) ↔
      words (lineText buffer size) ≠ [] ∨ table = [] := by
  obtain ⟨argv, after, executed, strings⟩ :=
    command_execute_ends table buffer size fuel ended enough
  simp only [executed, Option.some.injEq, exists_eq_left']
  by_cases nonempty : words (lineText buffer size) = []
  · rw [nonempty] at strings ⊢
    obtain rfl := List.forall₂_nil_right_iff.mp strings
    simpa using search_nameless table after
  · exact iff_of_true (search_named table argv after _ nonempty strings) (Or.inl nonempty)

/-- The console calls a command that is entered with an argument. -/
theorem command_execute_date :
    ∃ outcome, commandExecute 20 (ofList (ascii " date  2026-10-04")) conCmdTable = some outcome ∧
      Dispatched (words (lineText (ofList (ascii " date  2026-10-04")) 17)) conCmdTable outcome :=
  (command_execute_iff conCmdTable (ofList (ascii " date  2026-10-04")) 17 20 (by decide)
    (by decide)).mpr (Or.inl (by decide))

/-- A line with nothing but a space makes `command_execute` read an argument that was never
set. -/
theorem command_execute_blank :
    ¬∀ (buffer : Mem) (size fuel : Nat), buffer size = 0 → size < fuel →
      ∃ outcome, commandExecute fuel buffer conCmdTable = some outcome ∧
        Dispatched (words (lineText buffer size)) conCmdTable outcome := by
  intro all
  obtain ⟨outcome, executed, dispatched⟩ := all (ofList [0x20]) 1 2 (by decide) (by decide)
  have unset : commandExecute 2 (ofList [0x20]) conCmdTable = some .unset := rfl
  obtain rfl := Option.some.inj (executed.symm.trans unset)
  exact dispatched

end Pyrometer.ConsoleCommands
