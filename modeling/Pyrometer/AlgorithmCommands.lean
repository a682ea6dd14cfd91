import Pyrometer.InstrumentState

/-!
# The coefficient commands of `proto_coef.c`

`AP` sends the coefficients of the logarithmic and the polynomial algorithm and
`NWA`, `NWB` and `NB` those of the network, as numbers with separators between
them. A loader reads all numbers into a local structure and copies it into
`sys_para.algo` at its end, so a loader that fails changes nothing.

`strtok` writes zeros into the text that it divides. Only `algo_load` reads a text
again after that, so only there the zeros are kept. A getter stops when its text
has become longer than 1024 bytes.
-/

namespace Pyrometer.AlgorithmCommands

open ByteMemory BinaryFloats CText ParameterLayout CommandTable InstrumentState

/-- The separator of the algorithm texts. -/
def comma : Byte := 0x2C

/-- The separator of the network texts. -/
def blank : Byte := 0x20

/-- `ALGO_HDR_SIZE`. -/
def algoHdrSize : Nat := 4

/-- `PARSE_DATA_MAX_LEN`. -/
def parseDataMaxLen : Nat := 1024

/-- `sizeof(log_para_t)`: a threshold and two coefficients. -/
def sizeofLogPara : Nat := 26

/-- `sizeof(poly_para_t)`: the number of terms, the subtrahend and 15 coefficients. -/
def sizeofPolyPara : Nat := 140

/-- `sizeof(coef_t)`: a base of eight bytes and an index of one. -/
def sizeofCoef : Nat := 9

/-- A coefficient as the two numbers of a text give it. -/
def coefBytes (base index : List Byte) : List Byte :=
  leBytes 8 (strtol 64 base % 2 ^ 64).toNat ++ leBytes 1 (atoi index % 2 ^ 8).toNat

/-- `parse_log_para`: where the structure goes, and its bytes. -/
def parseLogPara (input : List Byte) : Option (Nat × List Byte) :=
  match tokens comma input with
  | [chIdx, segIdx, threshold, base, index, base2, index2, _] =>
      if 0 ≤ atoi chIdx ∧ atoi chIdx < 4 ∧ 0 ≤ atoi segIdx ∧ atoi segIdx < 2 then
        some (Member.algoLogPara.target.offset +
            sizeofLogPara * (2 * (atoi chIdx).toNat + (atoi segIdx).toNat),
          leBytes 8 (strtod double threshold) ++ coefBytes base index ++ coefBytes base2 index2)
      else none
  | _ => none

/-- The coefficients of a polynomial: a number of pairs and one more token. -/
def readCoefs : Nat → List (List Byte) → Option (List Byte)
  | 0, [_] => some []
  | left + 1, base :: index :: rest => (readCoefs left rest).map (coefBytes base index ++ ·)
  | _, _ => none

/-- `parse_poly_para`: where the structure goes, and its bytes up to the last term. -/
def parsePolyPara (input : List Byte) : Option (Nat × List Byte) :=
  match tokens comma input with
  | segIdx :: polyTerm :: subtrahend :: rest =>
      if 0 ≤ atoi segIdx ∧ atoi segIdx < 2 ∧ 0 ≤ atoi polyTerm ∧ atoi polyTerm ≤ 15 then
        (readCoefs (atoi polyTerm).toNat rest).map (fun coefs =>
          (Member.algoPolyPara.target.offset + sizeofPolyPara * (atoi segIdx).toNat,
            leBytes 1 (atoi polyTerm).toNat ++ leBytes 4 (strtod single subtrahend) ++ coefs))
      else none
  | _ => none

/-- The text that is left for the parser of a coefficient type: behind the header, with
the zeros that end the first two tokens. -/
def algoBody (raw : List Byte) (first second : Nat) : List Byte :=
  cString ((endedAt (endedAt raw first) second).drop algoHdrSize)

/-- `algo_load`: what is copied into the parameters, if anything is. A failure has no
result. -/
def algoLoad (raw : List Byte) : Option (Option (Nat × List Byte)) :=
  if raw.length ≤ algoHdrSize then none
  else
    match strtok comma (cString raw) 0 with
    | none => none
    | some (_, first) =>
        match strtok comma (cString raw) (first + 1) with
        | none => none
        | some (token, second) =>
            let type := token.getD 0 0
            if type < 0x30#8 ∨ 0x32#8 < type then none
            else if atoi token = 0 then
              (parseLogPara (algoBody raw first second)).map some
            else if atoi token = 1 then
              (parsePolyPara (algoBody raw first second)).map some
            else if atoi token = 2 then some none
            else none

/-- The words of a network text, in the order of the text. -/
def networkWords (input : List Byte) : Option (List Nat) :=
  match tokens blank input with
  | count :: words =>
      if 64 ≤ atoi count ∧ atoi count ≤ 65 ∧ words.length = (atoi count).toNat then
        some (words.map strtoul16)
      else none
  | [] => none

/-- Words as they lie in memory. -/
def wordBytes (words : List Nat) : List Byte := words.flatMap (leBytes 4)

/-- Where the words of a network command go: `NB` fills two arrays, and the others run
over the end of their array with a 65th word. -/
def networkWrites (id : CmdId) (words : List Nat) : List (Nat × List Byte) :=
  if id = .cmdNwa then [(Member.algoEffectiveW1.target.offset, wordBytes words)]
  else if id = .cmdNwb then [(Member.algoEffectiveW2.target.offset, wordBytes words)]
  else
    [(Member.algoEffectiveB1.target.offset, wordBytes (words.take 64)),
      (Member.algoEffectiveB2.target.offset, wordBytes (words.drop 64))]

/-- `algo_network_para_load`: what is copied into the parameters. -/
def algoNetworkParaLoad (id : CmdId) (raw : List Byte) : Option (List (Nat × List Byte)) :=
  if raw.length ≤ algoHdrSize then none
  else (networkWords (cString raw)).map (networkWrites id)

/-- What a coefficient command copies into the parameters. -/
def coefLoad (id : CmdId) (raw : List Byte) : Option (List (Nat × List Byte)) :=
  if id = .cmdAp then (algoLoad raw).map Option.toList else algoNetworkParaLoad id raw

/-- A number of a coefficient as it is printed. -/
def coefText (para : Mem) (start : Nat) : List Byte :=
  signedDecimal (BitVec.ofNat 64 (littleEndian (toList para start 8))).toInt ++ [comma] ++
    signedDecimal (para (start + 8)).toInt

/-- The text of one segment of one channel. -/
def logText (para : Mem) (ch seg : Nat) : List Byte :=
  let start := Member.algoLogPara.target.offset + sizeofLogPara * (2 * ch + seg)
  ascii "1,0," ++ decimal ch ++ [comma] ++ decimal seg ++ [comma] ++
    fixedPoint double 6 (littleEndian (toList para start 8)) ++ [comma] ++
    coefText para (start + 8) ++ [comma] ++ coefText para (start + 17) ++ ascii ",0;"

/-- The first part of the text of a polynomial. -/
def polyHead (para : Mem) (seg : Nat) : List Byte :=
  let start := Member.algoPolyPara.target.offset + sizeofPolyPara * seg
  ascii "1,1," ++ decimal seg ++ [comma] ++ decimal (para start).toNat ++ [comma] ++
    fixedPoint single 6 (littleEndian (toList para (start + 1) 4)) ++ [comma]

/-- One coefficient of a polynomial. -/
def polyCoef (para : Mem) (seg index : Nat) : List Byte :=
  coefText para
    (Member.algoPolyPara.target.offset + sizeofPolyPara * seg + 5 + sizeofCoef * index) ++ [comma]

/-- A part added to a text, and the comparison with the limit that follows. -/
def extend (text : List Byte) (part : List Byte) : Option (List Byte) :=
  if parseDataMaxLen < (text ++ part).length then none else some (text ++ part)

/-- The parts of the text of a polynomial: its head together with its first coefficient,
the other ones, and its end. -/
def polyParts (para : Mem) (seg : Nat) (ending : List Byte) : List (List Byte) :=
  let start := Member.algoPolyPara.target.offset + sizeofPolyPara * seg
  match (List.range (para start).toNat).map (polyCoef para seg) with
  | [] => [polyHead para seg ++ ending]
  | coef :: rest => (polyHead para seg ++ coef) :: rest ++ [ending]

/-- The parts of the text of all coefficients. -/
def algoParts (para : Mem) : List (List Byte) :=
  [logText para 0 0, logText para 0 1, logText para 1 0, logText para 1 1] ++
    polyParts para 0 (ascii "0" ++ [0x0D, 0x0A]) ++ polyParts para 1 (ascii "0;")

/-- `algo_get`: the text, or nothing when it has become too long. -/
def algoGet (para : Mem) : Option (List Byte) := (algoParts para).foldlM extend []

/-- The words of an array as they are printed. -/
def wordsText (para : Mem) (start count : Nat) : List Byte :=
  (List.range count).flatMap (fun index =>
    blank :: hexWord (littleEndian (toList para (start + 4 * index) 4)))

/-- `algo_network_para_get`; its texts have one length, which is below the limit. -/
def algoNetworkParaGet (id : CmdId) (para : Mem) : List Byte :=
  if id = .cmdNwa then ascii "64" ++ wordsText para Member.algoEffectiveW1.target.offset 64
  else if id = .cmdNwb then ascii "64" ++ wordsText para Member.algoEffectiveW2.target.offset 64
  else
    ascii "65" ++ wordsText para Member.algoEffectiveB1.target.offset 64 ++
      wordsText para Member.algoEffectiveB2.target.offset 1

end Pyrometer.AlgorithmCommands
