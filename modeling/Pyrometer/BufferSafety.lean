import Pyrometer.CommandReplies
import Pyrometer.StreamDispatch

/-!
# Array bounds of the protocol layers

A frame of the serial port or a segment of the network is copied into a receive buffer
and given to `proto_process`, which runs one of the two packet loops on it. Four arrays
are at stake: the receive buffer, `parse->data`, the command table and the transmit
buffer.

The command table has fewer rows than `cmd_found` counts, so a word without a row is
looked for behind its end. What happens from there on is undefined; only the first row
outside is recorded. Received data are cut nowhere before they are copied, and the
getter of the coefficients looks at the length of its text after it has written it.
-/

namespace Pyrometer.BufferSafety

open ByteMemory RunningOffsets CText CommandTable InstrumentState AlgorithmCommands UppParser
open UppLines CommandExecution UppStream CommandReplies

/-- The link that bytes came from. -/
inductive Link where
  | serial
  | tcp
  deriving DecidableEq

/-- The longest frame of the serial port and the longest segment of the network. -/
def Link.limit : Link → Nat
  | .serial => 1056
  | .tcp => 1460

/-- `PROT_MAX_PKT_LEN`, the size of the receive and the transmit buffers. -/
def protMaxPktLen : Nat := 1056

/-- `CMD_CNT`, the number of command ids. -/
def cmdCnt : Nat := 138

/-- The rows that the loop of `cmd_found` reads from one on, for the number of rows that
are left to its count. -/
def rowsFrom (word : List Byte) : Nat → Nat → List Nat
  | 0, _ => []
  | left + 1, row =>
      match cmdTbl[row]? with
      | none => [row]
      | some item => if item.cmd == word then [row] else row :: rowsFrom word left (row + 1)

/-- The rows that `cmd_found` reads. -/
def rowsRead (word : List Byte) : List Nat := rowsFrom word cmdCnt 0

/-- A text built from parts, up to the first part that makes it too long. -/
def builtText : List (List Byte) → List Byte → List Byte
  | [], text => text
  | part :: rest, text =>
      if parseDataMaxLen < (text ++ part).length then text ++ part
      else builtText rest (text ++ part)

/-- What `algo_get` writes, whether it then fails or not. -/
def algoWritten (para : Mem) : List Byte := builtText (algoParts para) []

/-- What a line writes into `parse->data`, from its start on. -/
def dataWritten (instrument : Instrument) (line : Line) : List Byte :=
  if line.op = uppOpSet then line.data
  else
    match cmdFound line.word with
    | none => []
    | some item =>
        if item.id = .cmdAp then algoWritten instrument.pmm.sysPara ++ [0]
        else if isCoefCmd item.id then algoNetworkParaGet item.id instrument.pmm.sysPara ++ [0]
        else []

/-- Bytes written into the cleared `parse->data` lie in the array and leave a zero in it. -/
def DataInside (bytes : List Byte) : Prop :=
  bytes.length ≤ sizeofParseData ∧ ∃ index, index < sizeofParseData ∧ ofList bytes index = 0

/-- One pass of the text loop keeps to `parse->data` and to the rows of the table. -/
def Inside (turn : Turn) : Prop :=
  match turn.packet with
  | .cut _ => True
  | .whole text =>
      match readLine (ownAddr turn.before) text with
      | .error _ => True
      | .ok line => DataInside (dataWritten turn.before line) ∧
          ∀ row ∈ rowsRead line.word, row < cmdTbl.length

/-- What `proto_process` did with a buffer. -/
inductive Handled where
  | base (final : BaseStream.Loop)
  | text (final : Loop)
  | ignored

/-- Every array access of a handled buffer is inside its array. -/
def Handled.Safe : Handled → Prop
  | .base final => final.reached ≤ protMaxPktLen
  | .text final => final.reached ≤ protMaxPktLen ∧ ∀ turn ∈ final.passed, Inside turn
  | .ignored => True

section

variable (around : Nat → Surroundings) (port : BitVec 32)
variable (meanwhile : Nat → UpgradeSession.Upgrade → UpgradeSession.Upgrade)

/-- The buffer goes to the binary protocol. -/
def isBase (bytes : List Byte) : Bool :=
  bytes.head? == some BaseProtocol.protSop && decide (BaseProtocol.sizeofHead ≤ bytes.length)

/-- `proto_process`, with a bound on the number of passes. -/
def protoProcess (passes : Nat) (inbuf : Mem) (bytes : List Byte) (outbuf : Mem)
    (unit : UpgradeSession.Upgrade) (instrument : Instrument) : Option Handled :=
  if isBase bytes then
    (BaseStream.basePktProcess port meanwhile passes
      (BaseStream.Loop.start inbuf bytes.length outbuf unit)).map .base
  else if unit.fwInfo.status = FirmwareInfo.ugStateTrans then some .ignored
  else
    (uppPktProcess around inbuf passes (Loop.start bytes.length outbuf instrument)).map .text

/-- Receiving some bytes and processing them keeps to the arrays: the copy fits the receive
buffer, and processing ends with every access inside. The serial port passes no frame of
fewer than two bytes on. -/
def Keeps (link : Link) (inbuf : Mem) (bytes : List Byte) (unit : UpgradeSession.Upgrade)
    (instrument : Instrument) : Prop :=
  bytes.length ≤ protMaxPktLen ∧
    (link = .serial ∧ bytes.length ≤ 1 ∨
      ∀ outbuf, ∃ passes result,
        protoProcess around port meanwhile passes inbuf bytes outbuf unit instrument =
          some result ∧ result.Safe)

/-- Replies fit the transmit buffer: each one that is not empty ends inside it, with its
terminator, at the position that the replies before it have left. -/
def RepliesFit (slack : List Byte) (replies : List (List Byte)) : Prop :=
  ∀ index reply, replies[index]? = some reply → reply ≠ [] →
    (Cursor.start.after (replies.take index)).position + (reply.length + slack.length) ≤
      protMaxPktLen

/-- A line has a word with a row, data that fit `parse->data` with their zero, and does not
ask for coefficients whose text does not fit. -/
def LineFits (instrument : Instrument) (line : Line) : Prop :=
  (cmdFound line.word).isSome = true ∧
    (line.op = uppOpSet → line.data.length < sizeofParseData ∨
      line.data.length = sizeofParseData ∧ (0 : Byte) ∈ line.data) ∧
    (line.op = uppOpGet → line.word = ascii "AP" →
      (algoWritten instrument.pmm.sysPara).length < sizeofParseData)

/-- A packet that can be read fits. -/
def PacketFits (instrument : Instrument) : Packet → Prop
  | .cut _ => True
  | .whole text =>
      ∀ line, readLine (ownAddr instrument) text = .ok line → LineFits instrument line

/-- Every packet of a buffer fits in the state it meets. -/
def AllFit : Nat → List Packet → Instrument → Prop
  | _, [], _ => True
  | number, packet :: rest, instrument =>
      PacketFits instrument packet ∧
        AllFit (number + 1) rest (answer (around number) instrument packet).2

/-- The condition on a received buffer. -/
def Fits (link : Link) (inbuf : Mem) (bytes : List Byte) (unit : UpgradeSession.Upgrade)
    (instrument : Instrument) : Prop :=
  bytes.length ≤ protMaxPktLen ∧
    (link = .serial ∧ bytes.length ≤ 1 ∨
      if isBase bytes then
        ∀ found, StreamDispatch.Walk 0 bytes found →
          RepliesFit [] (BaseStream.replies port meanwhile inbuf bytes.length found unit)
      else unit.fwInfo.status = FirmwareInfo.ugStateTrans ∨
        AllFit around 0 (packets bytes) instrument ∧
          RepliesFit terminator ((turns around 0 (packets bytes) instrument).map Turn.reply))

end

/-- The loop of `cmd_found` stays in the table exactly when a row from its start on has the
word. Induct on the rows left to its count, which is larger than the table. -/
theorem rows_from_inside (word : List Byte) (left row : Nat) (start : row ≤ cmdTbl.length)
    (more : cmdTbl.length < row + left) :
    (∀ read ∈ rowsFrom word left row, read < cmdTbl.length) ↔
      ((cmdTbl.drop row).find? (fun item => item.cmd == word)).isSome = true := by
  induction left generalizing row with
  | zero => omega
  | succ left inductionHypothesis =>
    rw [rowsFrom]
    by_cases inside : row < cmdTbl.length
    · have here : cmdTbl[row]? = some cmdTbl[row] := List.getElem?_eq_getElem inside
      rw [here, List.drop_eq_getElem_cons inside, List.find?_cons]
      simp only
      cases same : cmdTbl[row].cmd == word with
      | true => simpa using inside
      | false =>
        simp only [Bool.false_eq_true, if_false, List.forall_mem_cons]
        rw [inductionHypothesis (row + 1) inside (by omega)]
        exact and_iff_right inside
    · have behind : cmdTbl[row]? = none := List.getElem?_eq_none (by omega)
      have ended : cmdTbl.drop row = [] := List.drop_eq_nil_of_le (by omega)
      rw [behind, ended]
      simpa using Nat.not_lt.mp inside

/-- `cmd_found` stays in the table exactly for the words that have a row. -/
theorem rows_read_inside (word : List Byte) :
    (∀ row ∈ rowsRead word, row < cmdTbl.length) ↔ (cmdFound word).isSome = true := by
  have same := rows_from_inside word cmdCnt 0 (Nat.zero_le _) (by decide +kernel)
  rwa [List.drop_zero] at same

/-- A text built from parts is complete as long as it is not too long. Induct on the
parts. -/
theorem built_text (parts : List (List Byte)) (text : List Byte)
    (short : text.length ≤ parseDataMaxLen) :
    parts.foldlM extend text =
      if parseDataMaxLen < (builtText parts text).length then none
      else some (builtText parts text) := by
  induction parts generalizing text with
  | nil =>
    rw [builtText, if_neg (Nat.not_lt.mpr short)]
    rfl
  | cons part rest inductionHypothesis =>
    rw [builtText, List.foldlM_cons, extend]
    by_cases long : parseDataMaxLen < (text ++ part).length
    · rw [if_pos long, if_pos long, if_pos long]
      rfl
    · rw [if_neg long, if_neg long]
      exact inductionHypothesis (text ++ part) (Nat.not_lt.mp long)

/-- `algo_get` succeeds exactly when what it has written is not too long. -/
theorem algo_get_written (para : Mem) :
    algoGet para = if parseDataMaxLen < (algoWritten para).length then none
      else some (algoWritten para) :=
  built_text (algoParts para) [] (Nat.zero_le _)

/-- Bytes with a zero behind them lie in the array exactly when they leave room for it. -/
theorem data_inside_terminated (bytes : List Byte) :
    DataInside (bytes ++ [0]) ↔ bytes.length < sizeofParseData := by
  constructor
  · rintro ⟨length, _⟩
    rw [List.length_append, List.length_singleton] at length
    omega
  · intro short
    refine ⟨?_, bytes.length, short, ?_⟩
    · rw [List.length_append, List.length_singleton]
      omega
    · simp [ofList]

/-- Received data lie in the array with a zero exactly when they leave room for one or
fill the array and have one themselves. -/
theorem data_inside_iff (bytes : List Byte) :
    DataInside bytes ↔ bytes.length < sizeofParseData ∨
      bytes.length = sizeofParseData ∧ (0 : Byte) ∈ bytes := by
  constructor
  · rintro ⟨length, index, inside, zero⟩
    by_cases short : bytes.length < sizeofParseData
    · exact Or.inl short
    · right
      have full : bytes.length = sizeofParseData := by omega
      refine ⟨full, ?_⟩
      rw [ofList, List.getD_eq_getElem?_getD, List.getElem?_eq_getElem (by omega),
        Option.getD_some] at zero
      exact zero ▸ List.getElem_mem _
  · rintro (short | ⟨full, zero⟩)
    · refine ⟨by omega, bytes.length, short, ?_⟩
      simp [ofList]
    · obtain ⟨index, inside, here⟩ := List.getElem_of_mem zero
      refine ⟨by omega, index, by omega, ?_⟩
      rw [ofList, List.getD_eq_getElem?_getD, List.getElem?_eq_getElem inside, here]
      rfl

/-- No bytes leave the array as it was. -/
theorem data_inside_nil : DataInside [] := ⟨by decide, 0, by decide, rfl⟩

/-- Words of 32 bits have eight digits. -/
theorem hex_word_length (value : Nat) (small : value < 2 ^ 32) : (hexWord value).length = 8 := by
  have digits : (hexadecimal value).length ≤ 8 := by
    rw [hexadecimal, List.length_map]
    exact (Nat.length_toDigits_le_iff (by decide) (by decide)).mpr (by omega)
  simp only [hexWord, zeroPadded, List.length_append, List.length_replicate, List.length_map]
  omega

/-- A number of some bytes is below the power of 256. -/
theorem little_endian_lt (bytes : List Byte) : littleEndian bytes < 256 ^ bytes.length := by
  induction bytes with
  | nil => simp [littleEndian]
  | cons byte rest inductionHypothesis =>
    have step : littleEndian (byte :: rest) = byte.toNat + 256 * littleEndian rest := rfl
    have small := byte.isLt
    rw [step, List.length_cons, pow_succ]
    omega

/-- The text of an array of words. -/
theorem words_text_length (para : Mem) (start count : Nat) :
    (wordsText para start count).length = 9 * count := by
  have word : ∀ index, (hexWord (littleEndian (toList para (start + 4 * index) 4))).length = 8 := by
    intro index
    have bound := little_endian_lt (toList para (start + 4 * index) 4)
    rw [to_list_length] at bound
    exact hex_word_length _ (by omega)
  rw [wordsText, List.length_flatMap]
  simp only [List.length_cons, word]
  simp
  omega

/-- The texts of the network fit. -/
theorem network_text_length (id : CmdId) (para : Mem) :
    (algoNetworkParaGet id para).length < sizeofParseData := by
  have two : (ascii "64").length = 2 ∧ (ascii "65").length = 2 := by decide
  rw [algoNetworkParaGet]
  split_ifs <;> simp only [List.length_append, words_text_length, two, sizeofParseData] <;> omega

/-- What a line with a row writes lies in the array exactly when the line fits. -/
theorem data_written_inside (instrument : Instrument) (line : Line)
    (op : line.op = uppOpGet ∨ line.op = uppOpSet) (known : (cmdFound line.word).isSome = true) :
    DataInside (dataWritten instrument line) ↔ LineFits instrument line := by
  have apart : uppOpGet ≠ uppOpSet := by decide
  rcases op with query | set
  · have other : line.op ≠ uppOpSet := by rw [query]; exact apart
    obtain ⟨item, found⟩ := Option.isSome_iff_exists.mp known
    obtain ⟨row, word⟩ := cmd_found_row found
    have algo := (algo_rows item row).1
    rw [word] at algo
    have fits : LineFits instrument line ↔ (line.word = ascii "AP" →
        (algoWritten instrument.pmm.sysPara).length < sizeofParseData) :=
      ⟨fun fits => fits.2.2 query,
        fun short => ⟨known, fun set => absurd set other, fun _ => short⟩⟩
    rw [fits, dataWritten, if_neg other, found]
    simp only
    split_ifs with asks coef
    · rw [data_inside_terminated]
      exact ⟨fun short _ => short, fun short => short (algo.mp asks)⟩
    · rw [data_inside_terminated]
      exact iff_of_true (network_text_length _ _) (fun same => absurd (algo.mpr same) asks)
    · exact iff_of_true data_inside_nil (fun same => absurd (algo.mpr same) asks)
  · rw [dataWritten, if_pos set, data_inside_iff]
    refine ⟨fun short => ⟨known, fun _ => short, fun query => ?_⟩, fun fits => fits.2.1 set⟩
    exact absurd (query.symm.trans set) apart

/-- A pass stays inside exactly when its packet fits. -/
theorem inside_iff (packet : Packet) (before after : Instrument) (reply : List Byte) :
    Inside ⟨packet, before, reply, after⟩ ↔ PacketFits before packet := by
  cases packet with
  | cut bytes => exact Iff.rfl
  | whole text =>
    simp only [Inside, PacketFits]
    cases read : readLine (ownAddr before) text with
    | error err => simp
    | ok line =>
      have op := read_line_op read
      simp only [Except.ok.injEq, forall_eq']
      rw [rows_read_inside]
      constructor
      · rintro ⟨inside, known⟩
        exact (data_written_inside before line op known).mp inside
      · intro fits
        exact ⟨(data_written_inside before line op fits.1).mpr fits, fits.1⟩

section

variable (around : Nat → Surroundings) (port : BitVec 32)
variable (meanwhile : Nat → UpgradeSession.Upgrade → UpgradeSession.Upgrade)

/-- All passes stay inside exactly when all packets fit. -/
theorem turns_inside (number : Nat) (found : List Packet) (instrument : Instrument) :
    (∀ turn ∈ turns around number found instrument, Inside turn) ↔
      AllFit around number found instrument := by
  induction found generalizing number instrument with
  | nil => simp [turns, AllFit]
  | cons packet rest inductionHypothesis =>
    rw [turns, AllFit, List.forall_mem_cons, inside_iff, inductionHypothesis]

/-- The text loop keeps to its arrays exactly when the packets and the replies fit. -/
theorem text_safe_iff (inbuf : Mem) (bytes : List Byte) (outbuf : Mem) (instrument : Instrument)
    (short : bytes.length < 65535) (contents : toList inbuf 0 bytes.length = bytes) :
    (∃ passes final, uppPktProcess around inbuf passes
        (Loop.start bytes.length outbuf instrument) = some final ∧ (Handled.text final).Safe) ↔
      AllFit around 0 (packets bytes) instrument ∧
        RepliesFit terminator ((turns around 0 (packets bytes) instrument).map Turn.reply) := by
  obtain ⟨last, ran, ended⟩ := process_packets around inbuf bytes outbuf instrument contents short
  have safe : (Handled.text last).Safe ↔ AllFit around 0 (packets bytes) instrument ∧
      RepliesFit terminator ((turns around 0 (packets bytes) instrument).map Turn.reply) := by
    have passed : last.passed = turns around 0 (packets bytes) instrument := ended.passed
    have reached : last.reached = reach terminator .start
        ((turns around 0 (packets bytes) instrument).map Turn.reply) := by
      rw [ended.reached]
      exact Nat.zero_max _
    rw [Handled.Safe, passed, reached, turns_inside, reach_le_iff]
    exact and_comm
  constructor
  · rintro ⟨passes, final, returned, inside⟩
    obtain rfl := process_unique around inbuf _ _ _ _ _ returned ran
    exact safe.mp inside
  · intro fits
    exact ⟨_, last, ran, safe.mpr fits⟩

/-- The binary loop keeps to the transmit buffer exactly when the replies fit. -/
theorem base_safe_iff (inbuf : Mem) (bytes : List Byte) (outbuf : Mem)
    (unit : UpgradeSession.Upgrade) (short : bytes.length < 65535)
    (contents : toList inbuf 0 bytes.length = bytes) :
    (∃ passes final, BaseStream.basePktProcess port meanwhile passes
        (BaseStream.Loop.start inbuf bytes.length outbuf unit) = some final ∧
          (Handled.base final).Safe) ↔
      ∀ found, StreamDispatch.Walk 0 bytes found →
        RepliesFit [] (BaseStream.replies port meanwhile inbuf bytes.length found unit) := by
  have agrees : Agree inbuf (ofList bytes) 0 bytes.length := by
    refine agree_of_to_list (contents.trans ?_)
    have read := to_list_overlay (fun _ => 0) bytes 0
    refine read.symm.trans (to_list_congr (fun address _ inside => ?_))
    rw [overlay_inside _ _ _ _ _ (Nat.zero_le _) inside, Nat.sub_zero]
  have facing := StreamDispatch.start_facing inbuf outbuf bytes unit agrees
  have safe : ∀ found, StreamDispatch.Walk 0 bytes found → ∃ passes last,
      BaseStream.basePktProcess port meanwhile passes
        (BaseStream.Loop.start inbuf bytes.length outbuf unit) = some last ∧
      ((Handled.base last).Safe ↔
        RepliesFit [] (BaseStream.replies port meanwhile inbuf bytes.length found unit)) := by
    intro found walk
    obtain ⟨passes, last, ran, served⟩ := StreamDispatch.process_walk port meanwhile inbuf _ walk _
      rfl facing (by omega)
    refine ⟨passes, last, ran, ?_⟩
    rw [Handled.Safe, served.reached]
    show max 0 (reach [] .start _) ≤ _ ↔ _
    rw [Nat.zero_max, reach_le_iff]
    rfl
  constructor
  · rintro ⟨passes, final, returned, inside⟩ found walk
    obtain ⟨bound, last, ran, same⟩ := safe found walk
    obtain rfl := StreamDispatch.process_unique port meanwhile _ _ _ _ _ returned ran
    exact same.mp inside
  · intro fits
    obtain ⟨found, walk⟩ := StreamDispatch.walk_exists 0 bytes (by omega)
    obtain ⟨passes, last, ran, same⟩ := safe found walk
    exact ⟨passes, last, ran, same.mpr (fits found walk)⟩

/-- Receiving and processing some bytes keeps to the arrays exactly when the bytes fit. -/
theorem keeps_iff (link : Link) (inbuf : Mem) (bytes : List Byte) (unit : UpgradeSession.Upgrade)
    (instrument : Instrument) (within : bytes.length ≤ link.limit)
    (contents : toList inbuf 0 bytes.length = bytes) :
    Keeps around port meanwhile link inbuf bytes unit instrument ↔
      Fits around port meanwhile link inbuf bytes unit instrument := by
  have short : bytes.length < 65535 := by
    cases link <;> simp only [Link.limit] at within <;> omega
  have processed : ∀ outbuf, (∃ passes result,
      protoProcess around port meanwhile passes inbuf bytes outbuf unit instrument = some result ∧
        result.Safe) ↔
      if isBase bytes then
        ∀ found, StreamDispatch.Walk 0 bytes found →
          RepliesFit [] (BaseStream.replies port meanwhile inbuf bytes.length found unit)
      else unit.fwInfo.status = FirmwareInfo.ugStateTrans ∨
        AllFit around 0 (packets bytes) instrument ∧
          RepliesFit terminator ((turns around 0 (packets bytes) instrument).map Turn.reply) := by
    intro outbuf
    unfold protoProcess
    by_cases binary : isBase bytes = true
    · rw [if_pos binary, ← base_safe_iff port meanwhile inbuf bytes outbuf unit short contents]
      simp only [if_pos binary, Option.map_eq_some_iff]
      grind
    · simp only [if_neg binary]
      by_cases upgrading : unit.fwInfo.status = FirmwareInfo.ugStateTrans
      · simp only [if_pos upgrading]
        exact iff_of_true ⟨0, .ignored, rfl, trivial⟩ (Or.inl upgrading)
      · rw [or_iff_right upgrading,
          ← text_safe_iff around inbuf bytes outbuf instrument short contents]
        simp only [if_neg upgrading, Option.map_eq_some_iff]
        grind
  refine and_congr_right (fun _ => or_congr_right ?_)
  exact ⟨fun all => (processed inbuf).mp (all inbuf),
    fun fits outbuf => (processed outbuf).mpr fits⟩

end

/-- A query for the unit of temperatures. -/
def askUnit : List Byte := ascii "?U" ++ [carriageReturn]

/-- A query from the serial port keeps to the arrays. -/
theorem ask_unit_keeps :
    Keeps (fun _ => quiet) 0 (fun _ unit => unit) .serial (ofList askUnit) askUnit
      UpgradeSteps.erasedUnit defaultInstrument := by
  refine (keeps_iff (fun _ => quiet) 0 (fun _ unit => unit) .serial (ofList askUnit) askUnit
    UpgradeSteps.erasedUnit defaultInstrument (by decide) (by decide)).mpr ⟨by decide, Or.inr ?_⟩
  have text : isBase askUnit = false := by decide
  have found : packets askUnit = [.whole (ascii "?U")] := by decide
  rw [text, found]
  refine Or.inr ⟨⟨fun line read => ?_, trivial⟩, ?_⟩
  · have same : readLine (ownAddr defaultInstrument) (ascii "?U") =
        .ok ⟨[], uppOpGet, ascii "U", []⟩ := by
      decide
    obtain rfl : _ = line := Except.ok.inj (same.symm.trans read)
    exact ⟨by decide, fun set => absurd set (by decide),
      fun _ other => absurd other (by decide)⟩
  · exact (reach_le_iff terminator .start _ protMaxPktLen).mp (by decide)

/-- A query with a word that has no row. -/
def askUnknown : List Byte := ascii "?XX" ++ [carriageReturn]

/-- A word without a row is looked for behind the end of the command table. -/
theorem ask_unknown_leaves :
    ¬Keeps (fun _ => quiet) 0 (fun _ unit => unit) .serial (ofList askUnknown) askUnknown
      UpgradeSteps.erasedUnit defaultInstrument := by
  rintro ⟨_, ⟨_, tiny⟩ | processed⟩
  · exact absurd tiny (by decide)
  obtain ⟨passes, result, returned, safe⟩ := processed (fun _ => 0)
  have text : isBase askUnknown = false := by decide
  have idle : UpgradeSteps.erasedUnit.fwInfo.status ≠ FirmwareInfo.ugStateTrans := by decide
  rw [protoProcess, text, if_neg (by decide), if_neg idle, Option.map_eq_some_iff] at returned
  obtain ⟨final, ran, rfl⟩ := returned
  have fits := ((text_safe_iff (fun _ => quiet) (ofList askUnknown) askUnknown (fun _ => 0)
    defaultInstrument (by decide) (by decide)).mp ⟨passes, final, ran, safe⟩).1
  have found : packets askUnknown = [.whole (ascii "?XX")] := by decide
  rw [found] at fits
  have known := (fits.1 ⟨[], uppOpGet, ascii "XX", []⟩ (by decide)).1
  exact absurd known (by decide)

end Pyrometer.BufferSafety
