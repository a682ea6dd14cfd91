import Pyrometer.AlgorithmCommands
import Pyrometer.UppParser

/-!
# Execution of text commands in `proto_char.c` and `proto_char_cfg.c`

A parsed command is looked up in the table, its data are checked and written to the
object of its row, and a callback does what else the command asks for. When the
callback refuses, the bytes saved before are copied back. The answer is then built
from the object of the row, or from the text that a getter left behind.

A check that fails has written nothing, so it is its error alone. Execution returns
the instrument in every case, since a refused command may leave traces. The string
functions see the received data up to the first zero; a text of the instrument ends
at its first zero or with its structure.
-/

namespace Pyrometer.CommandExecution

open ByteMemory BinaryFloats CText ParameterLayout CommandTable InstrumentState
open AlgorithmCommands UppParser

/-- The received data. -/
def raw (parse : Parse) : List Byte := toList parse.data 0 parse.dataLen

/-- The received data as a string. -/
def text (parse : Parse) : List Byte := cString (raw parse)

/-- The decimal point. -/
def point : Byte := 0x2E

/-- The minus sign. -/
def minus : Byte := 0x2D

/-- `is_dec_number`: one for an integer, two for a number with a point, zero otherwise. -/
def isDecNumber (str : List Byte) : Nat :=
  let first := str.getD 0 0
  let numberLen := str.countP isDigit
  let cntPoint := str.countP (fun byte => byte == point)
  let cntSign := if first = minus then 1 else 0
  if first = point then 0
  else if first = minus ∧ (str.length < 2 ∨ isDigit (str.getD 1 0) = false) then 0
  else if numberLen + cntSign = str.length ∧ cntPoint = 0 then 1
  else if cntPoint + numberLen + cntSign = str.length ∧ cntPoint = 1 then 2
  else 0

/-- `is_pure_digit`. An empty string passes, since its result of minus one is a truth. -/
def isPureDigit (str : List Byte) : Bool :=
  (str.takeWhile (fun byte => byte != carriageReturn)).all isDigit

/-- `is_check_fmt_valid`. -/
def isCheckFmtValid (str : List Byte) : Bool :=
  str.head? == some 0x38 &&
    (ascii "8N18O18E18n18o18e1").tails.any (fun rest => (str.take 3).isPrefixOf rest)

/-- One part of an address of four parts. -/
def validIpPart (part : List Byte) : Bool :=
  decide (part.length ≤ 3) && isDecNumber part == 1 && part.head? != some minus &&
    decide (0 ≤ strtol 32 part ∧ strtol 32 part ≤ 255)

/-- `is_valid_ip`. -/
def isValidIp (str : List Byte) : Bool :=
  let parts := tokens point str
  parts.all validIpPart && parts.length == 4 && (parts.map List.length).sum + 3 == str.length

/-- The loop of `valid_cmd_list`, for the length of the command that is being read. -/
def validCmdListFrom (cmdLen : Nat) : List Byte → Bool
  | [] => cmdLen != 0
  | byte :: rest =>
      if byte = carriageReturn then cmdLen != 0
      else if byte = comma then if cmdLen = 0 then false else validCmdListFrom 0 rest
      else if isUpper byte = false then false
      else if 4 < cmdLen + 1 then false
      else validCmdListFrom (cmdLen + 1) rest

/-- `valid_cmd_list`. -/
def validCmdList (str : List Byte) : Bool := validCmdListFrom 0 str

/-- A check that a rule for strings names. -/
def strChk : StrChk → List Byte → Bool
  | .pureDigit => isPureDigit
  | .checkFmt => isCheckFmtValid
  | .validIp => isValidIp
  | .cmdList => validCmdList

/-- A linear conversion `(value * factor + offset) / divisor` in single precision. -/
def linear (value : Nat) (factor offset divisor : Int) : Nat :=
  single.div (single.add (single.mul value (single.ofInt factor)) (single.ofInt offset))
    (single.ofInt divisor)

/-- The constant `273.15f`. -/
def zeroCelsius : Nat := single.roundRatio 27315 100

/-- `convert_uint`. -/
def convertUint (value : Nat) (unitSrc unitTarget : Byte) : Nat :=
  if unitSrc = 0x43 then
    if unitTarget = 0x46 then linear value 1800 32000 1000
    else if unitTarget = 0x4B then linear value 100 27315 100
    else value
  else if unitSrc = 0x46 then
    if unitTarget = 0x43 then linear value 1000 (-32000) 1800
    else if unitTarget = 0x4B then
      single.add (single.div (single.mul (single.sub value (whole 32)) (whole 5)) (whole 9))
        zeroCelsius
    else value
  else if unitSrc = 0x4B then
    if unitTarget = 0x46 then
      single.add (single.div (single.mul (single.sub value zeroCelsius) (whole 9)) (whole 5))
        (whole 32)
    else if unitTarget = 0x43 then linear value 100 (-27315) 100
    else value
  else value

/-- `TEMP_UNIT_INTERNAL`, the character `C`. -/
def tempUnitInternal : Byte := 0x43

/-- The unit of temperatures in commands. -/
def tempUnit (instrument : Instrument) : Byte := BitVec.ofNat 8 (instrument.value .tempUnit)

/-- The number of a command for unsigned integers. -/
def readUnsigned (develop : Bool) (parse : Parse) (min max : Nat) : Except UppErr Nat :=
  if isDecNumber (raw parse) ≠ 1 then .error .dataIllegal
  else
    match scanUnsigned (text parse) with
    | none => .error .dataIllegal
    | some value =>
        if (max < value ∨ value < min) ∧ develop = false then .error .dataRange else .ok value

/-- The number of a command for long integers. -/
def readLong (parse : Parse) (min max : Int) : Except UppErr Int :=
  if isDecNumber (raw parse) ≠ 1 then .error .dataIllegal
  else
    match scanLong (text parse) with
    | none => .error .dataIllegal
    | some value => if max < value ∨ value < min then .error .dataRange else .ok value

/-- The number of a command for a floating-point format, before its range is looked at. -/
def readFloat (format : Format) (parse : Parse) : Except UppErr Nat :=
  if isDecNumber (raw parse) = 0 then .error .dataIllegal
  else
    match scanFloat format (text parse) with
    | none => .error .dataIllegal
    | some value => .ok value

/-- The range of a rule for floating-point numbers; what is no number passes. -/
def chkRange (format : Format) (value min max : Nat) : Except UppErr Nat :=
  if format.less max value || format.less value min then .error .dataRange else .ok value

/-- A temperature in the unit of the device. -/
def internalValue (instrument : Instrument) (cmd : List Byte) (value : Nat) : Nat :=
  if isNeedConverUnit cmd then convertUint value (tempUnit instrument) tempUnitInternal else value

/-- The range of the device, for the commands that must stay inside it. -/
def chkLimit (instrument : Instrument) (cmd : List Byte) (value : Nat) : Except UppErr Nat :=
  if isNeedLimitRange cmd &&
      (single.less (instrument.value .tempDevTempMax) value ||
        single.less value (instrument.value .tempDevTempMin)) then .error .dataRange
  else .ok value

/-- The string of a command, with the zero that ends it. -/
def readText (develop : Bool) (parse : Parse) : Option StrChk → Except UppErr (List Byte)
  | none => .ok (text parse ++ [0])
  | some chk =>
      if strChk chk (text parse) = false ∧ develop = false then .error .dataRange
      else .ok (text parse ++ [0])

/-- The number of a command for hexadecimal integers. -/
def readHex (parse : Parse) (min max : Nat) : Except UppErr Nat :=
  match scanHex (text parse) with
  | none => .error .dataIllegal
  | some value => if max < value ∨ value < min then .error .dataRange else .ok value

/-- The character of a command. -/
def readChar (develop : Bool) (parse : Parse) (str : List Byte) : Except UppErr Byte :=
  match scanChar (text parse) with
  | none => .error .dataIllegal
  | some value =>
      if str.contains value = false ∧ develop = false then .error .dataRange else .ok value

/-- The value check of `cmd_data_chk`: the bytes that are written to the object. -/
def newBytes (instrument : Instrument) (parse : Parse) (item : CmdItem) :
    Except UppErr (List Byte) :=
  match item.rule.data with
  | .u8 min max => (readUnsigned instrument.develop parse min max).map (leBytes 1)
  | .u16 min max => (readUnsigned instrument.develop parse min max).map (leBytes 2)
  | .u32 min max => (readUnsigned instrument.develop parse min max).map (leBytes 4)
  | .lld min max => (readLong parse min max).map (fun value => leBytes 8 (value % 2 ^ 64).toNat)
  | .lf min max => do
      let value ← readFloat double parse
      (chkRange double value min max).map (leBytes 8)
  | .f6 min max => do
      let value ← readFloat single parse
      (chkRange single (internalValue instrument item.cmd value) min max).map (leBytes 4)
  | .f min max => do
      let value ← readFloat single parse
      let value ← chkRange single (internalValue instrument item.cmd value) min max
      (chkLimit instrument item.cmd value).map (leBytes 4)
  | .s chk => readText instrument.develop parse chk
  | .x min max => (readHex parse min max).map (leBytes 4)
  | .c str => (readChar instrument.develop parse str).map (fun value => [value])

/-- The number of bytes that a format other than a string has. -/
def fmtWidth : RuleData → Nat
  | .u8 _ _ => 1
  | .u16 _ _ => 2
  | .u32 _ _ => 4
  | .lld _ _ => 8
  | .lf _ _ => 8
  | .f6 _ _ => 4
  | .f _ _ => 4
  | .s _ => 0
  | .x _ _ => 4
  | .c _ => 1

/-- `BURST_LIST_SIZE`, the size of `data_bkp`. -/
def burstListSize : Nat := 40

/-- The bytes that are copied back when the callback refuses. A string without a check
is never saved, so `data_bkp` still holds its zeros; what is copied beyond its end comes
from the stack. -/
def dataBkp (around : Surroundings) (instrument : Instrument) (parse : Parse) (item : CmdItem) :
    List Byte :=
  let target := item.arg.target
  match item.rule.data with
  | .s none => (List.range (text parse).length).map (fun index =>
      if index < burstListSize then 0 else around.stack (index - burstListSize))
  | .s (some _) => toList (instrument.region target.region) target.offset (text parse).length
  | data => toList (instrument.region target.region) target.offset (fmtWidth data)

/-- `cmd_data_chk`: the instrument with the data written. -/
def cmdDataChk (instrument : Instrument) (parse : Parse) (item : CmdItem) :
    Except UppErr Instrument :=
  if (parse.dataLen < item.rule.minLen ∨ item.rule.maxLen < parse.dataLen) ∧
      instrument.develop = false then .error .dataLen
  else
    (newBytes instrument parse item).map (fun bytes =>
      instrument.store item.arg.target.offset bytes item.arg.target.region)

/-- Bytes copied into the parameters one after the other. -/
def storeAll (instrument : Instrument) (writes : List (Nat × List Byte)) : Instrument :=
  writes.foldl (fun instrument write => instrument.store write.1 write.2 .para) instrument

/-- A control request to the camera, which another task sends. -/
def uvcControl (instrument : Instrument) (request : Nat) : Instrument :=
  (instrument.put .videoCtlState 1).put .videoCtlVal request

/-- The commands of the camera, in the order of their requests. -/
def uvcRequest (id : CmdId) : Option Nat :=
  match id with
  | .cmdEm => some 1
  | .cmdEv => some 2
  | .cmdBn => some 3
  | .cmdBl => some 4
  | .cmdGn => some 5
  | _ => none

/-- The coefficient commands. -/
def isCoefCmd (id : CmdId) : Bool :=
  [CmdId.cmdAp, .cmdNwa, .cmdNwb, .cmdNb].contains id

/-- The limits of the analog output are in order. -/
def anaOrdered (instrument : Instrument) : Bool :=
  !single.less (instrument.value .anaUpper) (instrument.value .anaLower)

/-- The limits of the device are in order. -/
def devOrdered (instrument : Instrument) : Bool :=
  !single.less (instrument.value .tempDevTempMax) (instrument.value .tempDevTempMin)

/-- The burst is started or stopped, and a command from the network decides whether it is
sent there. -/
def burstSwitch (around : Surroundings) (instrument : Instrument) : Instrument :=
  let mode := instrument.value .burstMode
  let instrument :=
    if mode = 0x42 then instrument.act .openBurst
    else if mode = 0x50 then instrument.act .closeBurst
    else instrument
  if around.fromTcp then instrument.act (.tcpBurst (mode == 0x42)) else instrument

/-- The debug port is set, and an odd one gets a dump of the parameters. -/
def debugPort (instrument : Instrument) : Instrument :=
  let port := instrument.value .portDbgPort
  let instrument := instrument.act (.putPort port)
  if port % 2 = 1 then instrument.act .dumpSysPara else instrument

/-- The switch of `upp_set_callback`: success, and what it leaves. -/
def setEffect (around : Surroundings) (parse : Parse) (instrument : Instrument) (id : CmdId) :
    Bool × Instrument :=
  match id with
  | .cmdRs => (true, instrument.put .sysOpValid 1)
  | .cmdPr => (true, instrument.put .sysOpValid 1)
  | .cmdBr =>
      if isValidBaudrate (instrument.value .portBaudrate) then (true, pcInit instrument)
      else (false, pcInit (instrument.put .portBaudrate 115200))
  | .cmdDb => (true, instrument.act (.dbgSetLevel (cString (instrument.bytes .portDbgLevel))))
  | .cmdDp => (true, debugPort instrument)
  | .cmdAt => (true, instrument.put .anaTempConvertFlag 1)
  | .cmdAm => (true, anaThresholdRange instrument)
  | .cmdAl =>
      if anaOrdered instrument then (true, anologOutInit instrument) else (false, instrument)
  | .cmdAh =>
      if anaOrdered instrument then (true, anologOutInit instrument) else (false, instrument)
  | .cmdDl => (devOrdered instrument, instrument)
  | .cmdDh => (devOrdered instrument, instrument)
  | .cmdIl => (true, getCalibPara instrument)
  | .cmdIh => (true, getCalibPara instrument)
  | .cmdSn => (true, gainSwitch .nb .nowGainNb instrument)
  | .cmdSw => (true, gainSwitch .wb .nowGainWb instrument)
  | .cmdCa => calibrateTemperature around instrument
  | .cmdRi => (true, instrument.act (.setRecordPeriod (instrument.value .recordInterval)))
  | .cmdRq =>
      (true, if instrument.value .indexClear = 80295 then instrument.act .recordClear
        else instrument)
  | .cmdRo =>
      (true, instrument.act (.recStop (if instrument.value .recordOpen = 0 then 2 ^ 32 - 1 else 0)))
  | .cmdV => (true, burstSwitch around instrument)
  | .cmdBs => (true, burstInit instrument)
  | .cmdBf => (true, burstInit instrument)
  | id =>
      if isCoefCmd id then
        match coefLoad id (raw parse) with
        | none => (false, instrument)
        | some writes => (true, storeAll instrument writes)
      else
        match uvcRequest id with
        | some request => (true, uvcControl instrument request)
        | none => (true, instrument)

/-- `upp_set_callback`: after its switch, a row with the property `M` is saved. -/
def uppSetCallback (around : Surroundings) (parse : Parse) (item : CmdItem)
    (instrument : Instrument) : Bool × Instrument :=
  match setEffect around parse instrument item.id with
  | (true, instrument) =>
      (true, if item.props.contains .m then instrument.saveGroup item.group else instrument)
  | (false, instrument) => (false, instrument)

/-- The part of `upp_execute_cmd` for set commands. -/
def executeSet (around : Surroundings) (parse : Parse) (item : CmdItem) (instrument : Instrument) :
    Except UppErr Parse × Instrument :=
  match cmdDataChk instrument parse item with
  | .error err => (.error err, instrument)
  | .ok written =>
      match uppSetCallback around parse item written with
      | (true, instrument) => (.ok parse, instrument)
      | (false, refused) =>
          (.error .dataIllegal, refused.store item.arg.target.offset
            (dataBkp around instrument parse item) item.arg.target.region)

/-- A parse structure whose data are a text to be sent. -/
def withPayload (parse : Parse) (payload : List Byte) : Parse :=
  { parse with
    dataOutEn := true
    dataLen := payload.length % 2 ^ 16
    data := overlay parse.data (ofList (payload ++ [0])) 0 (payload.length + 1) }

/-- The part of `upp_execute_cmd` for get commands, which is `upp_get_callback`. A text
that became too long is a failure without an error. -/
def executeGet (parse : Parse) (item : CmdItem) (instrument : Instrument) :
    Except UppErr Parse × Instrument :=
  if item.id = .cmdAp then
    match algoGet instrument.pmm.sysPara with
    | some payload => (.ok (withPayload parse payload), instrument)
    | none => (.error .ok, instrument)
  else if isCoefCmd item.id then
    (.ok (withPayload parse (algoNetworkParaGet item.id instrument.pmm.sysPara)), instrument)
  else
    match uvcRequest item.id with
    | some request => (.ok parse, uvcControl instrument (request + 5))
    | none => (.ok parse, instrument)

/-- The operator of a command is not among the properties of its row. -/
def opMismatch (parse : Parse) (item : CmdItem) : Bool :=
  (parse.op == uppOpSet && !item.props.contains .s) ||
    (parse.op == uppOpGet && !item.props.contains .p)

/-- The command needs an unlocked device. -/
def locked (parse : Parse) (item : CmdItem) (instrument : Instrument) : Bool :=
  item.props.contains .l && parse.op == uppOpSet && !instrument.unlocked

/-- `upp_execute_cmd` for a command with a row. -/
def executeRow (around : Surroundings) (parse : Parse) (item : CmdItem) (instrument : Instrument) :
    Except UppErr Parse × Instrument :=
  if opMismatch parse item then (.error .opType, instrument)
  else if locked parse item instrument then (.error .cmdLocked, instrument)
  else if parse.op = uppOpSet then executeSet around parse item instrument
  else if parse.op = uppOpGet then executeGet parse item instrument
  else (.ok parse, instrument)

/-- `data_to_string`, for an object at a place of a memory; a string is looked for in the
given number of bytes. -/
def dataToString (memory : Mem) (start limit : Nat) : RuleData → List Byte
  | .u32 _ _ => decimal (littleEndian (toList memory start 4))
  | .u16 _ _ => decimal (littleEndian (toList memory start 2))
  | .u8 _ _ => decimal (littleEndian (toList memory start 1))
  | .lld _ _ =>
      signedDecimal (BitVec.ofNat 64 (littleEndian (toList memory start 8))).toInt
  | .lf _ _ => fixedPoint double 6 (littleEndian (toList memory start 8))
  | .f6 _ _ => fixedPoint single 6 (littleEndian (toList memory start 4))
  | .f _ _ => fixedPoint single 2 (littleEndian (toList memory start 4))
  | .s _ => stringAt memory start limit
  | .x _ _ => hexadecimal (littleEndian (toList memory start 4))
  | .c _ => [memory start]

/-- The size of one of the two structures. -/
def regionSize : Region → Nat
  | .para => sizeofSysPara
  | .state => sizeofSysState

/-- The object of a row as text. -/
def objectText (instrument : Instrument) (item : CmdItem) : List Byte :=
  let target := item.arg.target
  dataToString (instrument.region target.region) target.offset
    (regionSize target.region - target.offset) item.rule.data

/-- The temperature of a row as text, in the unit of the commands. -/
def tempText (instrument : Instrument) (item : CmdItem) : List Byte :=
  let temp :=
    match item.rule.data with
    | .f _ _ => instrument.value item.arg
    | .f6 _ _ => instrument.value item.arg
    | _ => 0
  let temp := convertUint temp tempUnitInternal (tempUnit instrument)
  dataToString (ofList (leBytes 4 temp)) 0 4 item.rule.data

/-- The payload of an answer. -/
def payload (parse : Parse) (item : CmdItem) (instrument : Instrument) : List Byte :=
  if isNeedConverUnit item.cmd then tempText instrument item
  else if parse.dataOutEn then text parse
  else objectText instrument item

/-- The address in front of an answer; for a broadcast it is that of the device. -/
def answerAddr (parse : Parse) (instrument : Instrument) : List Byte :=
  match parse.addrMode with
  | .single => []
  | .multi =>
      zeroPadded addrLen (decimal (if parse.multiAddr = broadcastAddr
        then instrument.value .devAddr else parse.multiAddr))

/-- The end of every answer. -/
def lineEnd : List Byte := [carriageReturn, lineFeed]

/-- `upp_rsp_build_flk`. -/
def uppRspBuildFlk (parse : Parse) (item : CmdItem) (instrument : Instrument) : List Byte :=
  if parse.op = uppOpSet ∧ item.props.contains .n = false then []
  else
    answerAddr parse instrument ++ (0x21 :: item.cmd) ++ payload parse item instrument ++ lineEnd

/-- The number of an error. -/
def errNumber : UppErr → Nat
  | .ok => 0 | .len => 1 | .noCarriage => 2 | .opType => 3 | .noOperator => 4
  | .addrIllegal => 5 | .addrOutRange => 6 | .mode => 7 | .noSupportCmd => 8 | .noSetData => 9
  | .noUppercase => 10 | .noSupBroadcast => 11 | .dataIllegal => 12 | .dataLen => 13
  | .dataRange => 14 | .multOperator => 15 | .buildPacket => 16 | .dataLimit => 17
  | .dataCrc => 18 | .cmdLen => 19 | .cmdConflict => 20 | .cmdLocked => 21
  | .operatorIllegal => 22

/-- `ERR_INFO_TBL`. -/
def errDesc : UppErr → String
  | .ok => "upp ok"
  | .len => "upp err len"
  | .noCarriage => "upp err no carriage"
  | .opType => "upp err op type"
  | .noOperator => "upp err no operator"
  | .addrIllegal => "upp err addr illegal"
  | .addrOutRange => "upp addr over range"
  | .mode => "upp err mode"
  | .noSupportCmd => "upp err no support cmd"
  | .noSetData => "upp err no set data"
  | .noUppercase => "upp err no uppercase"
  | .noSupBroadcast => "upp err no sup broadcast"
  | .dataIllegal => "upp err data illegal"
  | .dataLen => "upp err data len"
  | .dataRange => "upp err data range"
  | .multOperator => "upp err mult operator"
  | .buildPacket => "upp err build packet"
  | .dataLimit => "upp err data limit"
  | .dataCrc => "upp err data crc/calibration"
  | .cmdLen => "upp err cmd length"
  | .cmdConflict => "upp err cmd conflict"
  | .cmdLocked => "upp err device is locked"
  | .operatorIllegal => "upp err operator illegal"

/-- `upp_pkt_error`: the line of an error; success has none. -/
def uppPktError (err : UppErr) : List Byte :=
  if err = .ok then []
  else
    ascii "ERROR: [" ++ zeroPadded 2 (decimal (errNumber err)) ++ ascii "] - " ++
      ascii (errDesc err) ++ lineEnd

/-- Execution of a parsed command and its answer. -/
def runCmd (around : Surroundings) (parse : Parse) (instrument : Instrument) :
    List Byte × Instrument :=
  match cmdFound parse.cmdWord with
  | none => (uppPktError .noSupportCmd, instrument)
  | some item =>
      match executeRow around parse item instrument with
      | (.error err, instrument) => (uppPktError err, instrument)
      | (.ok parse, instrument) => (uppRspBuildFlk parse item instrument, instrument)

/-- The address of the device. -/
def ownAddr (instrument : Instrument) : Byte := instrument.pmm.sysPara Member.devAddr.target.offset

/-- `upp_cmd_handler`: the answer to one command, and what it leaves. -/
def uppCmdHandler (around : Surroundings) (parse : Parse) (inbuf : Mem) (instrument : Instrument) :
    List Byte × Instrument :=
  match uppParseCmd (ownAddr instrument) parse inbuf with
  | .error err => (uppPktError err, instrument)
  | .ok parse => runCmd around parse instrument

end Pyrometer.CommandExecution
