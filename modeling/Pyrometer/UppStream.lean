import Pyrometer.CommandExecution
import Pyrometer.RunningOffsets
import Pyrometer.UppLines

/-!
# The packet loop of `proto_char.c`

`upp_pkt_process` walks a received buffer line by line. Each line is answered in the
state that the lines before it left; the first bytes that do not make a packet end
the loop with an error. Answers are stored as strings through an output pointer
that the loop moves by the running total of their lengths.

The received bytes alone decide the packets: the byte behind the last line end is
looked at, but only moves a pointer that is not used again. What a line does depends
on its text and not on how it ends. The surroundings may differ from packet to
packet. The length of the buffer fits the 16-bit counter of a packet's length.
-/

namespace Pyrometer.UppStream

open ByteMemory RunningOffsets CommandTable InstrumentState AlgorithmCommands UppParser UppLines
open CommandExecution

/-- A packet as the loop meets it: a line that has an end, or the rest of a buffer that
`check_packet` refuses. -/
inductive Packet where
  | whole (line : List Byte)
  | cut (bytes : List Byte)
  deriving DecidableEq

/-- What follows a carriage return, without the line feed that belongs to it. -/
def afterEnd (rest : List Byte) : List Byte :=
  if rest.head? = some lineFeed then rest.tail else rest

/-- The packets of received bytes, with a bound on their number. -/
def packetsUpTo : Nat → List Byte → List Packet
  | 0, _ => []
  | passes + 1, bytes =>
      if bytes = [] then []
      else if bytes.length < 3 then [.cut bytes]
      else
        match bytes.findIdx? (fun byte => byte == carriageReturn) with
        | none => [.cut bytes]
        | some place =>
            .whole (bytes.take place) :: packetsUpTo passes (afterEnd (bytes.drop (place + 1)))

/-- The packets of received bytes. -/
def packets (bytes : List Byte) : List Packet := packetsUpTo bytes.length bytes

/-- The answer to a line, and what it leaves. -/
def answerLine (around : Surroundings) (line : List Byte) (instrument : Instrument) :
    List Byte × Instrument :=
  match readLine (ownAddr instrument) line with
  | .error err => (uppPktError err, instrument)
  | .ok line => runCmd around (line.parse 0 0) instrument

/-- The answer to a packet, and what it leaves. -/
def answer (around : Surroundings) (instrument : Instrument) : Packet → List Byte × Instrument
  | .whole line => answerLine around line instrument
  | .cut bytes => (uppPktError (if bytes.length < 3 then .len else .noCarriage), instrument)

/-- One pass of the loop: a packet, its answer, and the states around it. -/
structure Turn where
  packet : Packet
  before : Instrument
  reply : List Byte
  after : Instrument

/-- The passes for some packets; the surroundings are those of each packet's number. -/
def turns (around : Nat → Surroundings) : Nat → List Packet → Instrument → List Turn
  | _, [], _ => []
  | number, packet :: rest, instrument =>
      let result := answer (around number) instrument packet
      ⟨packet, instrument, result.1, result.2⟩ :: turns around (number + 1) rest result.2

/-- The state behind some packets. -/
def leaves (around : Nat → Surroundings) : Nat → List Packet → Instrument → Instrument
  | _, [], instrument => instrument
  | number, packet :: rest, instrument =>
      leaves around (number + 1) rest (answer (around number) instrument packet).2

/-- The variables of `upp_pkt_process`, with the two pointers as offsets into their
buffers, and a record of the passes and of the furthest output byte written. -/
structure Loop where
  position : Nat
  inlen : Int
  outbuf : Mem
  cursor : Cursor
  instrument : Instrument
  passed : List Turn
  reached : Nat

/-- The loop's variables at its start. -/
def Loop.start (inlen : Nat) (outbuf : Mem) (instrument : Instrument) : Loop :=
  ⟨0, inlen, outbuf, .start, instrument, [], 0⟩

/-- The zero that `sprintf` writes behind a text. -/
def terminator : List Byte := [0]

/-- The loop's variables when a packet was answered. -/
def Loop.record (loop : Loop) (packet : Packet) (result : List Byte × Instrument) : Loop :=
  { loop with
    outbuf := storeText terminator loop.cursor result.1 loop.outbuf
    cursor := loop.cursor.advance result.1
    instrument := result.2
    passed := loop.passed ++ [⟨packet, loop.instrument, result.1, result.2⟩]
    reached := max loop.reached (reach terminator loop.cursor [result.1]) }

/-- `upp_pkt_process`, with a bound on the number of passes; `none` if the bound is too
small. -/
def uppPktProcess (around : Nat → Surroundings) (inbuf : Mem) : Nat → Loop → Option Loop
  | 0, _ => none
  | passes + 1, loop =>
      if loop.inlen ≤ 0 then some loop
      else
        let pkt := window inbuf loop.position
        match checkPacket pkt loop.inlen.toNat with
        | .error err =>
            some (loop.record (.cut (toList pkt 0 loop.inlen.toNat))
              (uppPktError err, loop.instrument))
        | .ok parse =>
            let line := toList pkt 0 (parse.cmdLen - parse.delimLen)
            let loop := loop.record (.whole line)
              (uppCmdHandler (around loop.passed.length) parse pkt loop.instrument)
            uppPktProcess around inbuf passes { loop with
              position := loop.position + parse.cmdLen
              inlen := loop.inlen - parse.cmdLen }

/-- A parse structure with another length and line end. -/
def withEnd (parse : Parse) (cmdLen delimLen : Nat) : Parse :=
  { parse with cmdLen := cmdLen, delimLen := delimLen }

/-- The line end decides two members of the parse structure. -/
theorem parse_with_end (line : Line) (length delimLen : Nat) :
    line.parse length delimLen = withEnd (line.parse 0 0) (length + delimLen) delimLen := rfl

/-- Execution does not look at the line end. -/
theorem execute_row_with_end (around : Surroundings) (parse : Parse) (item : CmdItem)
    (instrument : Instrument) (cmdLen delimLen : Nat) :
    executeRow around (withEnd parse cmdLen delimLen) item instrument =
      ((executeRow around parse item instrument).1.map (fun left => withEnd left cmdLen delimLen),
        (executeRow around parse item instrument).2) := by
  have mismatch : opMismatch (withEnd parse cmdLen delimLen) item = opMismatch parse item := rfl
  have lock : locked (withEnd parse cmdLen delimLen) item instrument =
      locked parse item instrument := rfl
  have op : (withEnd parse cmdLen delimLen).op = parse.op := rfl
  have set : executeSet around (withEnd parse cmdLen delimLen) item instrument =
      ((executeSet around parse item instrument).1.map (fun left => withEnd left cmdLen delimLen),
        (executeSet around parse item instrument).2) := by
    have checked : cmdDataChk instrument (withEnd parse cmdLen delimLen) item =
        cmdDataChk instrument parse item := rfl
    rw [executeSet, executeSet, checked]
    cases cmdDataChk instrument parse item with
    | error err => rfl
    | ok written =>
      have called : uppSetCallback around (withEnd parse cmdLen delimLen) item written =
          uppSetCallback around parse item written := rfl
      simp only [called]
      rcases uppSetCallback around parse item written with ⟨accepted, left⟩
      cases accepted <;> rfl
  have get : executeGet (withEnd parse cmdLen delimLen) item instrument =
      ((executeGet parse item instrument).1.map (fun left => withEnd left cmdLen delimLen),
        (executeGet parse item instrument).2) := by
    rw [executeGet, executeGet]
    split_ifs
    · cases algoGet instrument.pmm.sysPara <;> rfl
    · rfl
    · cases uvcRequest item.id <;> rfl
  rw [executeRow, executeRow, mismatch, lock, op, set, get]
  split_ifs <;> rfl

/-- The answer does not look at the line end. -/
theorem run_cmd_parse (around : Surroundings) (line : Line) (instrument : Instrument)
    (length delimLen : Nat) :
    runCmd around (line.parse length delimLen) instrument =
      runCmd around (line.parse 0 0) instrument := by
  have word : (line.parse length delimLen).cmdWord = (line.parse 0 0).cmdWord := rfl
  rw [runCmd, runCmd, word]
  cases cmdFound (line.parse 0 0).cmdWord with
  | none => rfl
  | some item =>
    simp only
    rw [parse_with_end, execute_row_with_end]
    rcases executeRow around (line.parse 0 0) item instrument with ⟨outcome, left⟩
    cases outcome <;> rfl

/-- The handler answers a line that has an end. -/
theorem handler_line (around : Surroundings) (instrument : Instrument) {inbuf : Mem}
    {line : List Byte} {delimLen : Nat} (ends : Ends inbuf line delimLen) :
    uppCmdHandler around (checked line.length delimLen) inbuf instrument =
      answerLine around line instrument := by
  rw [uppCmdHandler, parse_cmd_line _ ends, answerLine]
  cases readLine (ownAddr instrument) line with
  | error err => rfl
  | ok line => exact run_cmd_parse around line instrument _ _

/-- What the loop has done when it ends, for the packets that were in front of it. -/
structure Ended (around : Nat → Surroundings) (found : List Packet) (loop final : Loop) : Prop where
  passed : final.passed = loop.passed ++ turns around loop.passed.length found loop.instrument
  outbuf : final.outbuf = place terminator loop.cursor
    ((turns around loop.passed.length found loop.instrument).map Turn.reply) loop.outbuf
  cursor : final.cursor =
    loop.cursor.after ((turns around loop.passed.length found loop.instrument).map Turn.reply)
  reached : final.reached = max loop.reached (reach terminator loop.cursor
    ((turns around loop.passed.length found loop.instrument).map Turn.reply))
  instrument : final.instrument = leaves around loop.passed.length found loop.instrument
  consumed : final.inlen ≤ 0 ↔ ∀ packet ∈ found, ∃ line, packet = .whole line

/-- A loop that ends at once. -/
theorem ended_none (around : Nat → Surroundings) (loop : Loop) (empty : loop.inlen ≤ 0) :
    Ended around [] loop loop where
  passed := (List.append_nil _).symm
  outbuf := rfl
  cursor := rfl
  reached := (Nat.max_zero _).symm
  instrument := rfl
  consumed := ⟨fun _ => by simp, fun _ => empty⟩

/-- A loop that ends with a packet it refuses. -/
theorem ended_cut (around : Nat → Surroundings) (loop : Loop) (bytes : List Byte)
    (left : 0 < loop.inlen) :
    Ended around [.cut bytes] loop
      (loop.record (.cut bytes) (answer (around loop.passed.length) loop.instrument (.cut bytes)))
    where
  passed := rfl
  outbuf := rfl
  cursor := rfl
  reached := by simp [turns, Loop.record]
  instrument := rfl
  consumed := by
    refine ⟨fun nothing => absurd nothing (not_le.mpr left), fun all => ?_⟩
    obtain ⟨line, other⟩ := all (.cut bytes) (by simp)
    cases other

/-- The loop's variables when a line was answered and stepped over. -/
def Loop.answered (loop : Loop) (around : Nat → Surroundings) (line : List Byte) (cmdLen : Nat) :
    Loop :=
  let result := answerLine (around loop.passed.length) line loop.instrument
  { loop.record (.whole line) result with
    position := loop.position + cmdLen
    inlen := loop.inlen - cmdLen }

/-- A loop that answers a line and goes on. -/
theorem ended_whole (around : Nat → Surroundings) (loop final : Loop) (line : List Byte)
    (cmdLen : Nat) (rest : List Packet)
    (ended : Ended around rest (loop.answered around line cmdLen) final) :
    Ended around (.whole line :: rest) loop final := by
  have number : (loop.answered around line cmdLen).passed.length = loop.passed.length + 1 := by
    simp [Loop.answered, Loop.record]
  obtain ⟨passed, outbuf, cursor, reached, instrument, consumed⟩ := ended
  rw [number] at passed outbuf cursor reached instrument
  refine ⟨?_, outbuf, cursor, ?_, instrument, ?_⟩
  · rw [passed]
    simp [turns, answer, Loop.answered, Loop.record]
  · rw [reached]
    simp only [turns, List.map_cons, reach, Loop.record, Loop.answered, answer, Nat.max_zero,
      Nat.max_assoc]
  · rw [consumed]
    simp

/-- What is left of a buffer behind a line and its end. -/
theorem rest_received {inbuf : Mem} {line rest : List Byte} {delimLen : Nat}
    (ends : Ends inbuf line delimLen)
    (received : toList inbuf 0 (line ++ carriageReturn :: rest).length =
      line ++ carriageReturn :: rest) :
    toList (window inbuf (line.length + delimLen)) 0 (afterEnd rest).length = afterEnd rest ∧
      (afterEnd rest).length =
        (line ++ carriageReturn :: rest).length - (line.length + delimLen) := by
  have view : ∀ start len, toList (window inbuf start) 0 len = toList inbuf start len := by
    intro start len
    simp [toList, window]
  have length : (line ++ carriageReturn :: rest).length = line.length + (1 + rest.length) := by
    simp only [List.length_append, List.length_cons]
    omega
  cases rest with
  | nil =>
    have positive := ends.delim_cases
    refine ⟨rfl, ?_⟩
    simp only [afterEnd, List.head?_nil, length, List.length_nil]
    split_ifs <;> simp <;> omega
  | cons next others =>
    have behind : inbuf (line.length + 1) = next := by
      have part := to_list_part inbuf _ (line.length + 1) 1 received (by rw [length]; simp)
      rw [List.drop_length_add_append, to_list_one] at part
      simpa using part
    have delim := ends.delim
    rw [behind] at delim
    rw [afterEnd, List.head?_cons, view]
    by_cases feed : next = lineFeed
    · rw [if_pos feed] at delim
      rw [if_pos (by rw [feed]), delim, List.tail_cons]
      refine ⟨?_, by rw [length, List.length_cons]; omega⟩
      rw [to_list_part inbuf _ (line.length + 2) others.length received
        (by rw [length, List.length_cons]; omega), List.drop_length_add_append]
      simp
    · rw [if_neg feed] at delim
      rw [if_neg (fun same => feed (Option.some.inj same)), delim]
      refine ⟨?_, by rw [length]; omega⟩
      rw [to_list_part inbuf _ (line.length + 1) (next :: others).length received
        (by rw [length]; omega), List.drop_length_add_append]
      simp

/-- The loop ends and has answered the packets in front of it. Induct on the bound on
the passes: a line is stepped over with its end, and what is left has fewer bytes. -/
theorem process_up_to (around : Nat → Surroundings) (inbuf : Mem) (passes : Nat)
    (bytes : List Byte) (loop : Loop)
    (received : toList (window inbuf loop.position) 0 bytes.length = bytes)
    (left : loop.inlen.toNat = bytes.length) (short : bytes.length < 65535)
    (enough : bytes.length ≤ passes) :
    ∃ final, uppPktProcess around inbuf (passes + 1) loop = some final ∧
      Ended around (packetsUpTo passes bytes) loop final := by
  induction passes generalizing bytes loop with
  | zero =>
    have empty : loop.inlen ≤ 0 := by omega
    exact ⟨loop, by rw [uppPktProcess, if_pos empty], ended_none around loop empty⟩
  | succ passes inductionHypothesis =>
    rw [packetsUpTo]
    by_cases none : bytes = []
    · have empty : loop.inlen ≤ 0 := by
        rw [none, List.length_nil] at left
        omega
      rw [if_pos none]
      exact ⟨loop, by rw [uppPktProcess, if_pos empty], ended_none around loop empty⟩
    have nonzero : 0 < bytes.length := List.length_pos_iff.mpr none
    have positive : 0 < loop.inlen := by omega
    rw [if_neg none, uppPktProcess, if_neg (not_le.mpr positive)]
    simp only [left, received]
    by_cases tiny : bytes.length < 3
    · rw [if_pos tiny, checkPacket, if_pos tiny]
      refine ⟨_, rfl, ?_⟩
      have ended := ended_cut around loop bytes positive
      rwa [answer, if_pos tiny] at ended
    · rw [if_neg tiny]
      cases search : bytes.findIdx? (fun byte => byte == carriageReturn) with
      | none =>
        rw [checkPacket, if_neg tiny, memSearch, received, search]
        refine ⟨_, rfl, ?_⟩
        have ended := ended_cut around loop bytes positive
        rwa [answer, if_neg tiny] at ended
      | some place =>
        obtain ⟨line, rest, split, plain, rfl⟩ := find_split bytes carriageReturn place search
        subst split
        have front : (line ++ carriageReturn :: rest).take line.length = line := List.take_left
        have back : (line ++ carriageReturn :: rest).drop (line.length + 1) = rest := by
          rw [List.drop_length_add_append]
          rfl
        obtain ⟨delimLen, ends, found⟩ := check_packet_line (window inbuf loop.position)
          (line ++ carriageReturn :: rest).length line rest received plain (by omega) short
        obtain ⟨later, length⟩ := rest_received ends received
        have one : 1 ≤ delimLen := by
          have cases := ends.delim_cases
          omega
        have whole : toList (window inbuf loop.position) 0
            ((checked line.length delimLen).cmdLen - (checked line.length delimLen).delimLen) =
              line := by
          simp only [checked, Nat.add_sub_cancel]
          exact ends.contents
        simp only [found, front, back, whole, handler_line _ _ ends]
        have shift : window inbuf (loop.position + (line.length + delimLen)) =
            window (window inbuf loop.position) (line.length + delimLen) := by
          funext address
          simp [window, Nat.add_assoc]
        have moved : (loop.answered around line (line.length + delimLen)).inlen =
            loop.inlen - (line.length + delimLen : Nat) := rfl
        have behind : toList (window inbuf
            (loop.answered around line (line.length + delimLen)).position) 0
              (afterEnd rest).length = afterEnd rest := by
          rw [← shift] at later
          exact later
        obtain ⟨final, ran, ended⟩ := inductionHypothesis (afterEnd rest)
          (loop.answered around line (line.length + delimLen)) behind
          (by rw [moved, length]; omega) (by omega) (by omega)
        exact ⟨final, ran, ended_whole around loop final line _ _ ended⟩

/-- The loop ends on every buffer and has answered its packets. -/
theorem process_packets (around : Nat → Surroundings) (inbuf : Mem) (bytes : List Byte)
    (outbuf : Mem) (instrument : Instrument) (received : toList inbuf 0 bytes.length = bytes)
    (short : bytes.length < 65535) :
    ∃ final, uppPktProcess around inbuf (bytes.length + 1)
        (Loop.start bytes.length outbuf instrument) = some final ∧
      Ended around (packets bytes) (Loop.start bytes.length outbuf instrument) final := by
  refine process_up_to around inbuf bytes.length bytes _ ?_ (by simp [Loop.start]) short
    (Nat.le_refl _)
  have same : window inbuf (Loop.start bytes.length outbuf instrument).position = inbuf := by
    funext address
    simp [window, Loop.start]
  rw [same, received]

/-- A larger bound on the passes gives the same result. -/
theorem process_more (around : Nat → Surroundings) (inbuf : Mem) (passes more : Nat)
    (loop final : Loop) (ended : uppPktProcess around inbuf passes loop = some final) :
    uppPktProcess around inbuf (passes + more) loop = some final := by
  induction passes generalizing loop with
  | zero => cases ended
  | succ passes inductionHypothesis =>
    rw [Nat.add_right_comm, uppPktProcess]
    rw [uppPktProcess] at ended
    split_ifs at ended ⊢ with empty
    · exact ended
    · simp only at ended ⊢
      cases found : checkPacket (window inbuf loop.position) loop.inlen.toNat with
      | error err =>
        rw [found] at ended
        exact ended
      | ok parse =>
        rw [found] at ended
        exact inductionHypothesis _ ended

/-- The result of the loop does not depend on the bound. -/
theorem process_unique (around : Nat → Surroundings) (inbuf : Mem) (left right : Nat)
    (loop first second : Loop) (one : uppPktProcess around inbuf left loop = some first)
    (two : uppPktProcess around inbuf right loop = some second) : first = second := by
  have whole := process_more around inbuf left right loop first one
  have other := process_more around inbuf right left loop second two
  rw [Nat.add_comm right left] at other
  exact Option.some.inj (whole.symm.trans other)

/-- The packets of the passes are those in front of the loop. -/
theorem turns_packets (around : Nat → Surroundings) (number : Nat) (found : List Packet)
    (instrument : Instrument) : (turns around number found instrument).map Turn.packet = found := by
  induction found generalizing number instrument with
  | nil => rfl
  | cons packet rest inductionHypothesis =>
    rw [turns, List.map_cons, inductionHypothesis]

end Pyrometer.UppStream
