import Pyrometer.CommandReplies

/-!
# Addressed packets on a shared bus

All devices of a bus receive the same bytes. A packet with the address of another
device must leave this one as it is and unheard, and no packet with an address is to
be answered with an error, since several devices would answer at once.

A line with a foreign address is indeed ignored. An end of a buffer without a line end
is reported before anybody looks at its address, and errors of lines for this device
or for all devices are reported like those of lines without address.
-/

namespace Pyrometer.UppAddressing

open ByteMemory CText CommandTable InstrumentState UppParser UppLines CommandExecution UppStream
open CommandReplies

/-- The bytes of a packet, without its line end. -/
def packetBytes : Packet → List Byte
  | .whole line => line
  | .cut bytes => bytes

/-- The three digits that a packet starts with, if it does. -/
def packetAddress (packet : Packet) : List Byte := lineAddress (packetBytes packet)

/-- A packet starts with the address of another device. -/
def Foreign (own : Byte) (packet : Packet) : Prop :=
  packetAddress packet ≠ [] ∧ addressed own (packetBytes packet) = false

/-- What is asked of one pass: nothing happens for another device's packet, and a packet
with an address elicits no error. -/
def Discreet (turn : Turn) : Prop :=
  (Foreign (ownAddr turn.before) turn.packet → turn.reply = [] ∧ turn.after = turn.before) ∧
    (packetAddress turn.packet ≠ [] → ¬ErrorLine turn.reply)

/-- What is asked of the loop for a received buffer: it ends, and every pass is as asked. -/
def SharesBus (around : Nat → Surroundings) (inbuf : Mem) (inlen : Nat) (instrument : Instrument) :
    Prop :=
  ∀ outbuf, ∃ passes final,
    uppPktProcess around inbuf passes (Loop.start inlen outbuf instrument) = some final ∧
      ∀ turn ∈ final.passed, Discreet turn

/-- A line for the device is a command that it takes: the line can be read, its word has a
row, the row allows its operator, the device is not locked against it, and the data of a
set command pass the checks and the callback of the row. -/
def Taken (around : Surroundings) (instrument : Instrument) (line : List Byte) : Prop :=
  ∃ parsed item, readLine (ownAddr instrument) line = .ok parsed ∧
    cmdFound parsed.word = some item ∧ opMismatch (parsed.parse 0 0) item = false ∧
    locked (parsed.parse 0 0) item instrument = false ∧
    (parsed.op = uppOpSet → ∃ written, cmdDataChk instrument (parsed.parse 0 0) item = .ok written ∧
      (uppSetCallback around (parsed.parse 0 0) item written).1 = true)

/-- A packet without an address, a line for another device, or a command for this one that
it takes. -/
def Harmless (around : Surroundings) (instrument : Instrument) : Packet → Prop
  | .cut bytes => lineAddress bytes = []
  | .whole line => lineAddress line = [] ∨ addressed (ownAddr instrument) line = false ∨
      Taken around instrument line

/-- Every packet of a buffer is harmless in the state it meets. -/
def AllHarmless (around : Nat → Surroundings) : Nat → List Packet → Instrument → Prop
  | _, [], _ => True
  | number, packet :: rest, instrument =>
      Harmless (around number) instrument packet ∧
        AllHarmless around (number + 1) rest (answer (around number) instrument packet).2

/-- Silence is no error. -/
theorem silence_not_error : ¬ErrorLine [] := by
  rintro ⟨err, real, same⟩
  exact real ((error_visible err).mp same.symm)

/-- The line of an error is one exactly when there is an error. -/
theorem error_line_iff (err : UppErr) : ErrorLine (uppPktError err) ↔ err ≠ .ok := by
  refine ⟨fun line success => ?_, fun real => ⟨err, real, rfl⟩⟩
  rw [success] at line
  exact silence_not_error line

/-- An executed command is answered with an error exactly when it is not taken. -/
theorem run_cmd_error (around : Surroundings) (instrument : Instrument) (line : List Byte)
    (parsed : Line) (read : readLine (ownAddr instrument) line = .ok parsed) :
    ErrorLine (runCmd around (parsed.parse 0 0) instrument).1 ↔ ¬Taken around instrument line := by
  have only : ∀ other, readLine (ownAddr instrument) line = .ok other → other = parsed :=
    fun other also => Except.ok.inj (also.symm.trans read)
  have apart : uppOpGet ≠ uppOpSet := by decide
  rw [runCmd, show (parsed.parse 0 0).cmdWord = parsed.word from rfl]
  cases found : cmdFound parsed.word with
  | none =>
    refine iff_of_true ⟨.noSupportCmd, by decide, rfl⟩ ?_
    rintro ⟨other, item, also, known, _⟩
    rw [only other also, found] at known
    cases known
  | some item =>
    have row : ∀ other, cmdFound parsed.word = some other → other = item :=
      fun other also => Option.some.inj (also.symm.trans found)
    simp only [executeRow]
    by_cases mismatch : opMismatch (parsed.parse 0 0) item = true
    · rw [if_pos mismatch]
      refine iff_of_true ⟨.opType, by decide, rfl⟩ ?_
      rintro ⟨other, second, also, known, fits, _⟩
      obtain rfl := only other also
      rw [row second known, mismatch] at fits
      cases fits
    rw [if_neg mismatch]
    by_cases lock : locked (parsed.parse 0 0) item instrument = true
    · rw [if_pos lock]
      refine iff_of_true ⟨.cmdLocked, by decide, rfl⟩ ?_
      rintro ⟨other, second, also, known, _, free, _⟩
      obtain rfl := only other also
      rw [row second known, lock] at free
      cases free
    rw [if_neg lock]
    have open_row : opMismatch (parsed.parse 0 0) item = false ∧
        locked (parsed.parse 0 0) item instrument = false :=
      ⟨by simpa using mismatch, by simpa using lock⟩
    rcases read_line_op read with query | set
    · have other : ¬(parsed.parse 0 0).op = uppOpSet := by
        show ¬parsed.op = uppOpSet
        rw [query]
        exact apart
      have same : (parsed.parse 0 0).op = uppOpGet := query
      rw [if_neg other, if_pos same]
      refine iff_of_false ?_ (not_not_intro ⟨parsed, item, read, found, open_row.1, open_row.2,
        fun set => absurd set other⟩)
      rcases execute_get_cases (parsed.parse 0 0) item instrument with
        ⟨_, _, run⟩ | ⟨_, filled, left, run, _⟩
      · rw [run]
        exact silence_not_error
      · rw [run]
        exact build_not_error filled item left
    · have same : (parsed.parse 0 0).op = uppOpSet := set
      rw [if_pos same]
      rcases execute_set_cases around (parsed.parse 0 0) item instrument with
        ⟨err, refused, real, run⟩ | ⟨written, left, passed, called, run⟩ |
          ⟨written, left, passed, called, run⟩
      · rw [run]
        refine iff_of_true ⟨err, real, rfl⟩ ?_
        rintro ⟨other, second, also, known, _, _, takes⟩
        obtain rfl := only other also
        obtain rfl := row second known
        obtain ⟨written, passed, _⟩ := takes set
        rw [refused] at passed
        cases passed
      · rw [run]
        refine iff_of_false (build_not_error _ item left) (not_not_intro
          ⟨parsed, item, read, found, open_row.1, open_row.2, fun _ => ⟨written, passed, ?_⟩⟩)
        rw [called]
      · rw [run]
        refine iff_of_true ⟨.dataIllegal, by decide, rfl⟩ ?_
        rintro ⟨other, second, also, known, _, _, takes⟩
        obtain rfl := only other also
        obtain rfl := row second known
        obtain ⟨again, second, accepted⟩ := takes set
        obtain rfl : again = written := Except.ok.inj (second.symm.trans passed)
        rw [called] at accepted
        cases accepted

/-- A line for the device is answered with an error exactly when it is not taken. -/
theorem answer_line_error (around : Surroundings) (instrument : Instrument) (line : List Byte)
    (mine : addressed (ownAddr instrument) line = true) :
    ErrorLine (answerLine around line instrument).1 ↔ ¬Taken around instrument line := by
  have loud := read_line_silent (ownAddr instrument) line
  rw [answerLine]
  cases read : readLine (ownAddr instrument) line with
  | error err =>
    refine iff_of_true ((error_line_iff err).mpr ?_) ?_
    · rintro rfl
      rw [mine] at loud
      exact absurd (loud.mp read) (by decide)
    · rintro ⟨parsed, item, also, _⟩
      rw [read] at also
      cases also
  | ok parsed => exact run_cmd_error around instrument line parsed read

/-- A line for another device is ignored. -/
theorem answer_line_foreign (around : Surroundings) (instrument : Instrument) (line : List Byte)
    (other : addressed (ownAddr instrument) line = false) :
    answerLine around line instrument = ([], instrument) := by
  rw [answerLine, (read_line_silent _ line).mpr other]
  rfl

/-- One pass is as asked exactly when its packet is harmless. -/
theorem discreet_iff (around : Surroundings) (instrument : Instrument) (packet : Packet) :
    Discreet ⟨packet, instrument, (answer around instrument packet).1,
        (answer around instrument packet).2⟩ ↔ Harmless around instrument packet := by
  cases packet with
  | cut bytes =>
    have error : ErrorLine (answer around instrument (.cut bytes)).1 := by
      rw [answer]
      refine (error_line_iff _).mpr ?_
      split_ifs <;> decide
    constructor
    · intro discreet
      by_contra digits
      exact discreet.2 digits error
    · intro bare
      exact ⟨fun foreign => absurd bare foreign.1, fun digits => absurd bare digits⟩
  | whole line =>
    by_cases bare : lineAddress line = []
    · refine iff_of_true ⟨fun foreign => absurd bare foreign.1, fun digits => absurd bare digits⟩ ?_
      exact Or.inl bare
    cases mine : addressed (ownAddr instrument) line with
    | false =>
      have ignored := answer_line_foreign around instrument line mine
      have silent : answer around instrument (.whole line) = ([], instrument) := ignored
      rw [silent]
      exact iff_of_true ⟨fun _ => ⟨rfl, rfl⟩, fun _ => silence_not_error⟩ (Or.inr (Or.inl mine))
    | true =>
      have error := answer_line_error around instrument line mine
      constructor
      · intro discreet
        exact Or.inr (Or.inr (not_not.mp (fun refused => discreet.2 bare (error.mpr refused))))
      · intro harmless
        rcases harmless with none | other | taken
        · exact absurd none bare
        · rw [mine] at other
          cases other
        · refine ⟨fun foreign => ?_, fun _ line => (error.mp line) taken⟩
          have other := foreign.2
          rw [show packetBytes (.whole line) = line from rfl, mine] at other
          cases other

/-- All passes are as asked exactly when all packets are harmless. -/
theorem turns_discreet (around : Nat → Surroundings) (number : Nat) (found : List Packet)
    (instrument : Instrument) :
    (∀ turn ∈ turns around number found instrument, Discreet turn) ↔
      AllHarmless around number found instrument := by
  induction found generalizing number instrument with
  | nil => simp [turns, AllHarmless]
  | cons packet rest inductionHypothesis =>
    rw [turns, AllHarmless, List.forall_mem_cons, discreet_iff, inductionHypothesis]

/-- A received buffer is processed as asked exactly when each of its packets is harmless in
the state it meets. -/
theorem shares_bus_iff (around : Nat → Surroundings) (inbuf : Mem) (bytes : List Byte)
    (instrument : Instrument) (short : bytes.length < 65535)
    (contents : toList inbuf 0 bytes.length = bytes) :
    SharesBus around inbuf bytes.length instrument ↔
      AllHarmless around 0 (packets bytes) instrument := by
  rw [← turns_discreet]
  constructor
  · intro shares
    obtain ⟨passes, final, returned, discreet⟩ := shares (fun _ => 0)
    obtain ⟨last, ran, ended⟩ := process_packets around inbuf bytes (fun _ => 0) instrument
      contents short
    obtain rfl := process_unique around inbuf _ _ _ _ _ returned ran
    rw [ended.passed] at discreet
    exact discreet
  · intro discreet outbuf
    obtain ⟨final, ran, ended⟩ := process_packets around inbuf bytes outbuf instrument contents
      short
    refine ⟨_, final, ran, ?_⟩
    rw [ended.passed]
    exact discreet

/-- The row of the unit of temperatures. -/
def unitRow : CmdItem :=
  ⟨ascii "U", .cmdU, .temp, [.p, .b, .s, .n, .m], ⟨1, 1, .c (ascii "CFK")⟩, .tempUnit⟩

/-- A line for device 2 and a query for this one. -/
def mixedBytes : List Byte := ascii "002?T" ++ [carriageReturn] ++ ascii "000?U" ++ [carriageReturn]

/-- A query for another device and one for this one are processed as asked. -/
theorem mixed_bytes_share : SharesBus (fun _ => quiet) (ofList mixedBytes) mixedBytes.length
    defaultInstrument := by
  refine (shares_bus_iff (fun _ => quiet) (ofList mixedBytes) mixedBytes defaultInstrument
    (by decide) (by decide)).mpr ?_
  have found : packets mixedBytes = [.whole (ascii "002?T"), .whole (ascii "000?U")] := by
    decide
  rw [found]
  have ignored := answer_line_foreign quiet defaultInstrument (ascii "002?T") (by decide)
  refine ⟨Or.inr (Or.inl (by decide)), Or.inr (Or.inr ?_), trivial⟩
  simp only [answer, ignored]
  exact ⟨⟨ascii "000", uppOpGet, ascii "U", []⟩, unitRow, by decide, by decide,
    by decide, by decide, fun set => absurd set (by decide)⟩

/-- A query for device 2 whose line end got lost. -/
def truncatedBytes : List Byte := ascii "002?T"

/-- A truncated packet for device 2 is answered by this device with an error. -/
theorem truncated_bytes_answered :
    ¬SharesBus (fun _ => quiet) (ofList truncatedBytes) truncatedBytes.length
      defaultInstrument := by
  intro shares
  obtain ⟨passes, final, returned, discreet⟩ := shares (fun _ => 0)
  have ended : uppPktProcess (fun _ => quiet) (ofList truncatedBytes) 1
      (Loop.start truncatedBytes.length (fun _ => 0) defaultInstrument) =
        some ((Loop.start truncatedBytes.length (fun _ => 0) defaultInstrument).record
          (.cut truncatedBytes) (uppPktError .noCarriage, defaultInstrument)) := rfl
  obtain rfl := process_unique _ _ _ _ _ _ _ returned ended
  have silent := (discreet _ List.mem_cons_self).1 ⟨by decide, by decide⟩
  exact absurd silent.1 (by decide)

end Pyrometer.UppAddressing
