import Pyrometer.ByteMemory

/-!
# Parsing of text commands in `proto_char.c`

A text command is an optional three-digit address, then `?` and a command word, or
a command word, `=` and data, and a carriage return with an optional line feed.
`check_packet` finds the end of the command, `get_multi_addr` reads the address and
`parse_cmd_flk` the rest.

The received bytes are a memory that extends past them, since the byte behind the
carriage return is looked at even when it was not received. Pointers are offsets
into that memory. Differences of pointers are integers that are narrowed to the
width of the variable they are stored in. A function that fails leaves nothing
but its error behind, so failures are the error alone. `data` is the memory from
`parse->data` on: a copy that is longer than the array runs over what is behind it.
-/

namespace Pyrometer.UppParser

open ByteMemory

/-- `error_type_e`. -/
inductive UppErr where
  | ok
  | len
  | noCarriage
  | opType
  | noOperator
  | addrIllegal
  | addrOutRange
  | mode
  | noSupportCmd
  | noSetData
  | noUppercase
  | noSupBroadcast
  | dataIllegal
  | dataLen
  | dataRange
  | multOperator
  | buildPacket
  | dataLimit
  | dataCrc
  | cmdLen
  | cmdConflict
  | cmdLocked
  | operatorIllegal
  deriving DecidableEq, Repr

/-- The line end character. -/
def carriageReturn : Byte := 0x0D

/-- The character that may follow a line end. -/
def lineFeed : Byte := 0x0A

/-- `UPP_OP_GET`, the character `?`. -/
def uppOpGet : Byte := 0x3F

/-- `UPP_OP_SET`, the character `=`. -/
def uppOpSet : Byte := 0x3D

/-- `ADDR_LEN`. -/
def addrLen : Nat := 3

/-- `BROADCAST_ADDR`. -/
def broadcastAddr : Nat := 99

/-- `DEV_MAX_ADDR`. -/
def devMaxAddr : Nat := 32

/-- Size of `parse->data`, which is `PARSE_DATA_MAX_LEN` and 20 more. -/
def sizeofParseData : Nat := 1044

/-- The addressing mode of a command. -/
inductive AddrMode where
  | single
  | multi
  deriving DecidableEq, Repr

/-- `parse_t`, without the members that nothing reads. -/
structure Parse where
  cmdLen : Nat
  addrMode : AddrMode
  ptr : Nat
  cmdWordLen : Nat
  delimLen : Nat
  multiAddr : Nat
  op : Byte
  cmdIdx : Nat
  cmdWord : List Byte
  dataOutEn : Bool
  dataLen : Nat
  data : Mem

/-- The parse structure after `mem_set`. -/
def Parse.cleared : Parse := ⟨0, .single, 0, 0, 0, 0, 0, 0, [], false, 0, fun _ => 0⟩

/-- `mem_search`: the first place of a byte among the first `len` bytes. -/
def memSearch (memory : Mem) (len : Nat) (data : Byte) : Option Nat :=
  (toList memory 0 len).findIdx? (fun byte => byte == data)

/-- An integer stored into a variable of some number of bits. -/
def narrow (bits : Nat) (value : Int) : Nat := (value % 2 ^ bits).toNat

/-- A decimal digit. -/
def isDigit (byte : Byte) : Bool := 0x30#8 ≤ byte && byte ≤ 0x39#8

/-- `isupper`. -/
def isUpper (byte : Byte) : Bool := 0x41#8 ≤ byte && byte ≤ 0x5A#8

/-- `is_pure_digit_n`, for a positive length. -/
def isPureDigitN (memory : Mem) (len : Nat) : Bool :=
  (toList memory 0 len).all isDigit

/-- One digit behind those already read. -/
def decStep (value : Nat) (byte : Byte) : Nat := value * 10 + (byte.toNat - 0x30)

/-- `string_to_dec_n`. -/
def stringToDecN (memory : Mem) (len : Nat) : Option Nat :=
  if (toList memory 0 len).all isDigit then some ((toList memory 0 len).foldl decStep 0) else none

/-- `check_uppercase`, with the result of a comparison with zero. -/
def checkUppercase (memory : Mem) (start len : Nat) : Bool :=
  (toList memory start len).all isUpper

/-- `check_packet`. -/
def checkPacket (inbuf : Mem) (inlen : Nat) : Except UppErr Parse :=
  if inlen < 3 then .error .len
  else
    match memSearch inbuf inlen carriageReturn with
    | none => .error .noCarriage
    | some carrPos =>
        let delimLen : Nat := if inbuf (carrPos + 1) = lineFeed then 2 else 1
        .ok { Parse.cleared with delimLen := delimLen, cmdLen := narrow 16 (carrPos + delimLen) }

/-- The address found in front of a command, and where the command goes on. -/
def readAddr (parse : Parse) (pkt : Mem) : Except UppErr Parse :=
  if isPureDigitN pkt addrLen = false then
    .ok { parse with addrMode := .single, multiAddr := 0, ptr := 0 }
  else
    match stringToDecN pkt addrLen with
    | some value => .ok { parse with multiAddr := value, addrMode := .multi, ptr := addrLen }
    | none => .error .addrIllegal

/-- `get_multi_addr`, for the device address. An address that does not match fails
without an error. -/
def getMultiAddr (devAddr : Byte) (parse : Parse) (pkt : Mem) : Except UppErr Parse := do
  let parse ← readAddr parse pkt
  if parse.multiAddr ≠ devAddr.toNat ∧ parse.multiAddr ≠ broadcastAddr then .error .ok
  else if devMaxAddr < parse.multiAddr ∧ parse.multiAddr ≠ broadcastAddr then .error .addrOutRange
  else .ok parse

/-- The operator of a command and the length of its word. -/
def readOperator (parse : Parse) (pkt : Mem) : Except UppErr Parse :=
  if pkt parse.ptr = uppOpGet then
    let ptr := parse.ptr + 1
    let cmdWordLen := narrow 8 ((parse.cmdLen : Int) - ptr - parse.delimLen)
    if cmdWordLen < 1 ∨ 4 < cmdWordLen then .error .cmdLen
    else .ok { parse with op := uppOpGet, ptr := ptr, cmdWordLen := cmdWordLen }
  else
    match memSearch pkt parse.cmdLen uppOpSet with
    | none => .error .operatorIllegal
    | some carrPos =>
        let cmdWordLen := narrow 8 ((carrPos : Int) - parse.ptr)
        if cmdWordLen < 1 ∨ 4 < cmdWordLen then .error .cmdLen
        else .ok { parse with op := uppOpSet, cmdWordLen := cmdWordLen }

/-- The command word. -/
def readWord (parse : Parse) (pkt : Mem) : Except UppErr Parse :=
  if checkUppercase pkt parse.ptr parse.cmdWordLen then
    .ok { parse with
      cmdWord := toList pkt parse.ptr parse.cmdWordLen
      ptr := parse.ptr + parse.cmdWordLen }
  else .error .noUppercase

/-- The data of a set command. -/
def readData (parse : Parse) (pkt : Mem) : Except UppErr Parse :=
  if parse.op = uppOpSet then
    let ptr := parse.ptr + 1
    if (parse.cmdLen : Int) - ptr ≤ parse.delimLen then .error .noSetData
    else
      let dataLen := narrow 16 ((parse.cmdLen : Int) - ptr - parse.delimLen)
      .ok { parse with
        ptr := ptr
        dataLen := dataLen
        data := overlay parse.data (window pkt ptr) 0 dataLen }
  else .ok parse

/-- `parse_cmd_flk`. -/
def parseCmdFlk (parse : Parse) (pkt : Mem) : Except UppErr Parse := do
  let parse ← readOperator parse pkt
  let parse ← readWord parse pkt
  readData parse pkt

/-- `upp_parse_cmd`. -/
def uppParseCmd (devAddr : Byte) (parse : Parse) (pkt : Mem) : Except UppErr Parse := do
  let parse ← getMultiAddr devAddr parse pkt
  parseCmdFlk parse pkt

/-- `check_packet` followed by `upp_parse_cmd`. -/
def parsePacket (devAddr : Byte) (inbuf : Mem) (inlen : Nat) : Except UppErr Parse := do
  let parse ← checkPacket inbuf inlen
  uppParseCmd devAddr parse inbuf

end Pyrometer.UppParser
