import Pyrometer.CommandReplies

/-!
# Replies to several commands in one buffer

A buffer of commands, each with its line end, is walked command by command, and each
gets the answer it would get alone in the state that the ones before it left. The
output pointer runs ahead of the count, so the answers lie one behind the other for at
most two neighboring commands, and only then does the count describe what was stored.

A command has at least the three bytes that `check_packet` asks for, its line end
included. A line does not begin with a line feed, since that would belong to the end
of the command before it.
-/

namespace Pyrometer.UppReplies

open ByteMemory RunningOffsets CText InstrumentState UppParser UppLines CommandExecution UppStream
open CommandReplies

/-- A command with its line end. -/
structure Command where
  line : List Byte
  feed : Bool
  plain : carriageReturn ∉ line
  start : line.head? ≠ some lineFeed
  long : 3 ≤ (line ++ carriageReturn :: (if feed then [lineFeed] else [])).length

/-- The bytes of a command. -/
def Command.bytes (command : Command) : List Byte :=
  command.line ++ carriageReturn :: (if command.feed then [lineFeed] else [])

/-- The received bytes of some commands. -/
def received (commands : List Command) : List Byte := commands.flatMap Command.bytes

/-- Size of the output buffer. -/
def outbufSize : Nat := 1056

/-- What `upp_pkt_process` makes of a command that is alone in its buffer: the counted
bytes of the output, and the instrument it leaves. -/
def alone (around : Surroundings) (command : Command) (instrument : Instrument) :
    Option (List Byte × Instrument) :=
  (uppPktProcess (fun _ => around) (ofList command.bytes) (command.bytes.length + 1)
    (Loop.start command.bytes.length (fun _ => 0) instrument)).map
      (fun final => (toList final.outbuf 0 final.cursor.counted, final.instrument))

/-- The replies to commands that are processed one by one, each alone in its buffer and
in the state that the one before it left, and the state behind the last one. -/
def singly (around : Nat → Surroundings) :
    Nat → List Command → Instrument → List (List Byte) × Instrument
  | _, [], instrument => ([], instrument)
  | number, command :: rest, instrument =>
      let result := (alone (around number) command instrument).getD ([], instrument)
      let later := singly around (number + 1) rest result.2
      (result.1 :: later.1, later.2)

/-- Which commands are answered, each in the state that the ones before it left. -/
def answers (around : Nat → Surroundings) : Nat → List Command → Instrument → List Bool
  | _, [], _ => []
  | number, command :: rest, instrument =>
      answered instrument command.line ::
        answers around (number + 1) rest (answerLine (around number) command.line instrument).2

/-- What is asked of the loop for a buffer of commands: it ends, it processed every
command once and in order, it left the state that they leave one by one, it consumed its
input and wrote nothing behind the output buffer, and if the replies fit that buffer
then its counted bytes are their concatenation, whatever it held before. -/
def Processes (around : Nat → Surroundings) (commands : List Command) (inbuf : Mem)
    (instrument : Instrument) : Prop :=
  ∀ outbuf, ∃ passes final,
    uppPktProcess around inbuf passes
        (Loop.start (received commands).length outbuf instrument) = some final ∧
      final.passed.map Turn.packet = commands.map (fun command => .whole command.line) ∧
      final.instrument = (singly around 0 commands instrument).2 ∧
      final.inlen ≤ 0 ∧
      final.reached ≤ outbufSize ∧
      ((singly around 0 commands instrument).1.flatten.length ≤ outbufSize →
        toList final.outbuf 0 final.cursor.counted =
          (singly around 0 commands instrument).1.flatten)

/-- The packets of a buffer of commands. Induct on the commands: the first carriage
return ends the first line, and the next line begins behind its end. -/
theorem packets_commands (commands : List Command) (passes : Nat)
    (enough : (received commands).length ≤ passes) :
    packetsUpTo passes (received commands) =
      commands.map (fun command => .whole command.line) := by
  induction commands generalizing passes with
  | nil => cases passes <;> rfl
  | cons command rest inductionHypothesis =>
    have long := command.long
    have split : received (command :: rest) = command.line ++ carriageReturn ::
        ((if command.feed then [lineFeed] else []) ++ received rest) := by
      simp [received, Command.bytes]
    have length : 3 ≤ (received (command :: rest)).length := by
      rw [split]
      simp only [List.length_append, List.length_cons] at long ⊢
      omega
    have begins : (received rest).head? ≠ some lineFeed := by
      cases rest with
      | nil => simp [received]
      | cons next others =>
        have starts := next.start
        simp only [received, Command.bytes, List.flatMap_cons]
        cases text : next.line with
        | nil => simp [carriageReturn, lineFeed]
        | cons first letters =>
          rw [text] at starts
          simpa using starts
    have left : afterEnd ((if command.feed then [lineFeed] else []) ++ received rest) =
        received rest := by
      rw [afterEnd]
      by_cases feed : command.feed = true
      · simp [feed]
      · rw [if_neg feed, List.nil_append, if_neg begins]
    cases passes with
    | zero => omega
    | succ passes =>
      have found := find_first command.line
        ((if command.feed then [lineFeed] else []) ++ received rest) carriageReturn command.plain
      rw [← split] at found
      have nonempty : received (command :: rest) ≠ [] := by
        intro nothing
        rw [nothing, List.length_nil] at length
        omega
      have smaller : (received rest).length ≤ passes := by
        have total := congrArg List.length split
        rw [List.length_append, List.length_cons, List.length_append] at total
        omega
      rw [packetsUpTo, if_neg nonempty, if_neg (by omega), found]
      simp only [split, List.take_left, List.map_cons]
      rw [List.drop_length_add_append]
      show _ :: packetsUpTo passes (afterEnd
        ((if command.feed then [lineFeed] else []) ++ received rest)) = _
      rw [left, inductionHypothesis passes smaller]

/-- A command alone in its buffer gets the answer of its line. -/
theorem alone_answer (around : Surroundings) (command : Command) (instrument : Instrument)
    (short : command.bytes.length < 65535) :
    alone around command instrument = some (answerLine around command.line instrument) := by
  have whole : received [command] = command.bytes := by simp [received]
  have found := packets_commands [command] command.bytes.length (by rw [whole])
  rw [whole] at found
  have contents : toList (ofList command.bytes) 0 command.bytes.length = command.bytes := by
    have read := to_list_overlay (fun _ => 0) command.bytes 0
    refine (to_list_congr (fun address _ inside => ?_)).trans read
    rw [overlay_inside _ _ _ _ _ (Nat.zero_le _) inside]
    rfl
  obtain ⟨final, ran, ended⟩ := process_packets (fun _ => around) (ofList command.bytes)
    command.bytes (fun _ => 0) instrument contents short
  rw [packets, found] at ended
  have result : answer around instrument (.whole command.line) =
    answerLine around command.line instrument := rfl
  have reads := pair_concatenates terminator (answerLine around command.line instrument).1 [] []
    (by simp) (fun _ => 0)
  have outbuf : toList final.outbuf 0 final.cursor.counted =
      (answerLine around command.line instrument).1 := by
    rw [ended.outbuf, ended.cursor, after_counted]
    simp only [place, store_text_empty, List.flatten_cons, List.flatten_nil,
      List.append_nil] at reads
    simpa [turns, Loop.start, Cursor.start, place, result] using reads
  rw [alone, ran, Option.map_some, outbuf, ended.instrument]
  rfl

section

variable (around : Nat → Surroundings)

/-- The replies to the commands of a buffer are those they get one by one. -/
theorem singly_turns (number : Nat) (commands : List Command) (instrument : Instrument)
    (short : (received commands).length < 65535) :
    (turns around number (commands.map (fun command => .whole command.line)) instrument).map
        Turn.reply = (singly around number commands instrument).1 ∧
      leaves around number (commands.map (fun command => .whole command.line)) instrument =
        (singly around number commands instrument).2 := by
  induction commands generalizing number instrument with
  | nil => exact ⟨rfl, rfl⟩
  | cons command rest inductionHypothesis =>
    have length : (received (command :: rest)).length =
        command.bytes.length + (received rest).length := by
      simp [received]
    have own := alone_answer (around number) command instrument (by omega)
    obtain ⟨texts, left⟩ := inductionHypothesis (number + 1)
      (answerLine (around number) command.line instrument).2 (by omega)
    rw [singly, own, Option.getD_some]
    refine ⟨?_, left⟩
    rw [List.map_cons, turns, List.map_cons]
    exact congrArg _ texts

/-- A command gets a reply exactly when it is answered. -/
theorem replies_visible (number : Nat) (commands : List Command) (instrument : Instrument) :
    ((turns around number (commands.map (fun command => .whole command.line)) instrument).map
        Turn.reply).map visible = answers around number commands instrument := by
  induction commands generalizing number instrument with
  | nil => rfl
  | cons command rest inductionHypothesis =>
    rw [List.map_cons, turns, List.map_cons, List.map_cons, answers, ← inductionHypothesis]
    refine congrArg₂ _ ?_ rfl
    have silent := answer_line_visible (around number) command.line instrument
    simp only [answer]
    cases flag : answered instrument command.line with
    | false =>
      rw [silent.mpr flag]
      rfl
    | true =>
      exact visible_true (fun nothing => absurd (silent.mp nothing) (by simp [flag]))

/-- No reply begins with the byte that ends a string. -/
theorem replies_distinct (number : Nat) (found : List Packet) (instrument : Instrument) :
    Distinct terminator ((turns around number found instrument).map Turn.reply) := by
  induction found generalizing number instrument with
  | nil => simp [Distinct, turns]
  | cons packet rest inductionHypothesis =>
    intro text member byte first
    rw [turns, List.map_cons, List.mem_cons] at member
    rcases member with rfl | later
    · intro zero
      exact answer_head (around number) packet instrument byte first (Option.some.inj zero).symm
    · exact inductionHypothesis (number + 1) _ text later byte first

/-- A buffer of commands is processed as asked exactly when at most two commands are
answered, these are neighbors, and their replies leave room for the last terminator. -/
theorem processes_iff (commands : List Command) (inbuf : Mem) (instrument : Instrument)
    (short : (received commands).length < 65535)
    (contents : toList inbuf 0 (received commands).length = received commands) :
    Processes around commands inbuf instrument ↔
      Paired (answers around 0 commands instrument) ∧
        ((singly around 0 commands instrument).1.flatten = [] ∨
          (singly around 0 commands instrument).1.flatten.length < outbufSize) := by
  have found := packets_commands commands _ (Nat.le_refl _)
  obtain ⟨texts, state⟩ := singly_turns around 0 commands instrument short
  have flags := replies_visible around 0 commands instrument
  have concatenates := concatenates_iff terminator _ (replies_distinct around 0
    (commands.map (fun command => .whole command.line)) instrument)
  rw [texts] at flags concatenates
  rw [flags] at concatenates
  have runs : ∀ outbuf, ∃ final, uppPktProcess around inbuf ((received commands).length + 1)
        (Loop.start (received commands).length outbuf instrument) = some final ∧
      final.passed.map Turn.packet = commands.map (fun command => .whole command.line) ∧
      final.instrument = (singly around 0 commands instrument).2 ∧ final.inlen ≤ 0 ∧
      final.reached = reach terminator .start (singly around 0 commands instrument).1 ∧
      toList final.outbuf 0 final.cursor.counted =
        toList (place terminator .start (singly around 0 commands instrument).1 outbuf) 0
          (singly around 0 commands instrument).1.flatten.length := by
    intro outbuf
    obtain ⟨final, ran, ended⟩ := process_packets around inbuf (received commands) outbuf
      instrument contents short
    rw [packets, found] at ended
    obtain ⟨passed, stored, cursor, reached, left, consumed⟩ := ended
    simp only [Loop.start, List.length_nil, List.nil_append, texts] at passed stored cursor reached
    refine ⟨final, ran, ?_, left.trans state, ?_, ?_, ?_⟩
    · rw [passed, turns_packets]
    · refine consumed.mpr (fun packet member => ?_)
      obtain ⟨command, _, rfl⟩ := List.mem_map.mp member
      exact ⟨command.line, rfl⟩
    · rw [reached, Nat.zero_max]
    · rw [stored, cursor, after_counted]
      simp [Cursor.start]
  constructor
  · intro processes
    have read : ∀ outbuf, reach terminator .start (singly around 0 commands instrument).1 ≤
          outbufSize ∧
        ((singly around 0 commands instrument).1.flatten.length ≤ outbufSize →
          toList (place terminator .start (singly around 0 commands instrument).1 outbuf) 0
            (singly around 0 commands instrument).1.flatten.length =
              (singly around 0 commands instrument).1.flatten) := by
      intro outbuf
      obtain ⟨passes, final, returned, _, _, _, inside, reads⟩ := processes outbuf
      obtain ⟨last, ran, _, _, _, reached, stored⟩ := runs outbuf
      obtain rfl := process_unique around inbuf _ _ _ _ _ returned ran
      rw [reached] at inside
      rw [stored] at reads
      exact ⟨inside, reads⟩
    by_cases none : (singly around 0 commands instrument).1.flatten = []
    · refine ⟨concatenates.mp (fun memory => ?_), Or.inl none⟩
      rw [none]
      rfl
    · have counted := counted_le_reach terminator .start _ (Nat.le_refl _) none
      have inside := (read (fun _ => 0)).1
      simp only [Cursor.start, Nat.zero_add] at counted inside
      have paired := concatenates.mp (fun memory => (read memory).2 (by omega))
      have exact_reach := reach_paired terminator _ (by rw [flags]; exact paired) none
      have one : terminator.length = 1 := rfl
      simp only [Cursor.start] at exact_reach
      exact ⟨paired, Or.inr (by omega)⟩
  · rintro ⟨paired, fits⟩ outbuf
    obtain ⟨final, ran, packets, left, consumed, reached, stored⟩ := runs outbuf
    refine ⟨_, final, ran, packets, left, consumed, ?_, fun _ => ?_⟩
    · rw [reached]
      by_cases none : (singly around 0 commands instrument).1.flatten = []
      · rw [reach_empties _ _ _ (List.flatten_eq_nil_iff.mp none)]
        exact Nat.zero_le _
      · rw [reach_paired terminator _ (by rw [flags]; exact paired) none]
        exact fits.resolve_left none
    · rw [stored]
      exact concatenates.mpr paired outbuf

end

/-- The query for the unit of temperatures. -/
def askUnit : Command where
  line := ascii "?U"
  feed := false
  plain := by decide
  start := by decide
  long := by decide

/-- Two queries in one buffer are answered one behind the other. -/
theorem two_queries_processed :
    Processes (fun _ => quiet) [askUnit, askUnit] (ofList (received [askUnit, askUnit]))
      defaultInstrument :=
  (processes_iff (fun _ => quiet) [askUnit, askUnit] _ defaultInstrument (by decide)
    (by decide)).mpr ⟨by decide, Or.inr (by decide)⟩

/-- The output of the loop for three queries, into a cleared buffer. -/
def threeQueriesOutput : Option (List Byte) :=
  (uppPktProcess (fun _ => quiet) (ofList (received [askUnit, askUnit, askUnit])) 10
    (Loop.start (received [askUnit, askUnit, askUnit]).length (fun _ => 0) defaultInstrument)).map
      (fun final => toList final.outbuf 0 final.cursor.counted)

/-- The reply to the third of three queries is stored five bytes too far. -/
theorem three_queries_misplaced :
    ¬Processes (fun _ => quiet) [askUnit, askUnit, askUnit]
      (ofList (received [askUnit, askUnit, askUnit])) defaultInstrument := by
  intro processes
  obtain ⟨passes, final, returned, _, _, _, _, reads⟩ := processes (fun _ => 0)
  have output : threeQueriesOutput = some ((ascii "!UC" ++ lineEnd) ++ (ascii "!UC" ++ lineEnd) ++
      [0, 0, 0, 0, 0]) := by
    decide
  have replies :
      (singly (fun _ => quiet) 0 [askUnit, askUnit, askUnit] defaultInstrument).1.flatten =
        (ascii "!UC" ++ lineEnd) ++ (ascii "!UC" ++ lineEnd) ++ (ascii "!UC" ++ lineEnd) := by
    decide
  have ended : ∃ last, uppPktProcess (fun _ => quiet)
      (ofList (received [askUnit, askUnit, askUnit])) 10
        (Loop.start (received [askUnit, askUnit, askUnit]).length (fun _ => 0) defaultInstrument) =
          some last :=
    Option.isSome_iff_exists.mp (by decide)
  obtain ⟨last, ends⟩ := ended
  obtain rfl := process_unique _ _ _ _ _ _ _ returned ends
  rw [replies] at reads
  rw [threeQueriesOutput, ends, Option.map_some, reads (by decide)] at output
  exact absurd output (by decide)

end Pyrometer.UppReplies
