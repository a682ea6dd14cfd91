import Pyrometer.UppParser

/-!
# Command lines as the parser reads them

The parser works with pointers into the received bytes. Here the same reading is
done on the line alone, the bytes in front of the carriage return, and both are
shown to agree: what is parsed depends neither on the bytes behind the line nor on
whether a line feed follows.
-/

namespace Pyrometer.UppLines

open ByteMemory UppParser

/-- What a command line says: its address digits, operator, word and data. -/
structure Line where
  address : List Byte
  op : Byte
  word : List Byte
  data : List Byte
  deriving DecidableEq

/-- The number written by some digits. -/
def decValue (digits : List Byte) : Nat := digits.foldl decStep 0

/-- The address digits that start a line. -/
def lineAddress (line : List Byte) : List Byte :=
  if addrLen ≤ line.length ∧ (line.take addrLen).all isDigit = true then line.take addrLen else []

/-- Whether an address is for the device. -/
def checkAddr (devAddr : Byte) (address : List Byte) : Except UppErr Unit :=
  if decValue address ≠ devAddr.toNat ∧ decValue address ≠ broadcastAddr then .error .ok
  else if devMaxAddr < decValue address ∧ decValue address ≠ broadcastAddr then
    .error .addrOutRange
  else .ok ()

/-- The word of a command whose length was narrowed to eight bits. -/
def takeWord (length : Nat) (text : List Byte) : Except UppErr (List Byte) :=
  if length % 256 < 1 ∨ 4 < length % 256 then .error .cmdLen
  else if (text.take (length % 256)).all isUpper then .ok (text.take (length % 256))
  else .error .noUppercase

/-- What stands behind the address of a line. -/
def readBody (address body : List Byte) : Except UppErr Line :=
  if body.head? = some uppOpGet then do
    let word ← takeWord body.tail.length body.tail
    .ok ⟨address, uppOpGet, word, []⟩
  else
    match body.findIdx? (fun byte => byte == uppOpSet) with
    | none => .error .operatorIllegal
    | some length => do
        let word ← takeWord length body
        if body.drop (word.length + 1) = [] then .error .noSetData
        else .ok ⟨address, uppOpSet, word, body.drop (word.length + 1)⟩

/-- A line without its end, read as the parser does it. -/
def readLine (devAddr : Byte) (line : List Byte) : Except UppErr Line := do
  checkAddr devAddr (lineAddress line)
  readBody (lineAddress line) (line.drop (lineAddress line).length)

/-- The parse structure of a line that ends in `delimLen` characters. -/
def Line.parse (length delimLen : Nat) (line : Line) : Parse where
  cmdLen := length + delimLen
  addrMode := if line.address = [] then .single else .multi
  ptr := line.address.length + (line.word.length + 1)
  cmdWordLen := line.word.length
  delimLen := delimLen
  multiAddr := decValue line.address
  op := line.op
  cmdIdx := 0
  cmdWord := line.word
  dataOutEn := false
  dataLen := line.data.length
  data := ofList line.data

/-- The bytes received begin with a line and its end. -/
structure Ends (inbuf : Mem) (line : List Byte) (delimLen : Nat) : Prop where
  contents : toList inbuf 0 line.length = line
  ended : inbuf line.length = carriageReturn
  delim : delimLen = if inbuf (line.length + 1) = lineFeed then 2 else 1
  plain : carriageReturn ∉ line
  fits : line.length + 2 < 65536

/-- The parse structure that `check_packet` leaves for a line. -/
def checked (length delimLen : Nat) : Parse :=
  { Parse.cleared with delimLen := delimLen, cmdLen := length + delimLen }

/-- A number stored into a variable keeps its low bits. -/
theorem narrow_nat (bits value : Nat) : narrow bits (value : Int) = value % 2 ^ bits := by
  rw [narrow]
  have same : ((value : Int) % (2 : Int) ^ bits) = ((value % 2 ^ bits : Nat) : Int) := by
    push_cast
    rfl
  rw [same, Int.toNat_natCast]

/-- The end of a line is one or two characters. -/
theorem Ends.delim_cases {inbuf : Mem} {line : List Byte} {delimLen : Nat}
    (ends : Ends inbuf line delimLen) :
    delimLen = 1 ∨ (delimLen = 2 ∧ inbuf (line.length + 1) = lineFeed) := by
  have delim := ends.delim
  split_ifs at delim with follows
  · exact Or.inr ⟨delim, follows⟩
  · exact Or.inl delim

/-- The bytes of a line and of its end. -/
theorem Ends.whole {inbuf : Mem} {line : List Byte} {delimLen : Nat}
    (ends : Ends inbuf line delimLen) :
    toList inbuf 0 (line.length + delimLen) =
      line ++ (carriageReturn :: List.replicate (delimLen - 1) lineFeed) := by
  rw [to_list_append, ends.contents, Nat.zero_add]
  rcases ends.delim_cases with rfl | ⟨rfl, follows⟩
  · simp [ends.ended]
  · rw [show 2 = 1 + 1 from rfl, to_list_append, to_list_one, to_list_one, ends.ended, follows]
    rfl

/-- The first place of a byte that does not occur before. -/
theorem find_first (front rest : List Byte) (data : Byte) (absent : data ∉ front) :
    (front ++ data :: rest).findIdx? (fun byte => byte == data) = some front.length := by
  have nothing : front.findIdx? (fun byte => byte == data) = none := by
    rw [List.findIdx?_eq_none_iff]
    intro byte member
    rw [beq_eq_false_iff_ne]
    rintro rfl
    exact absent member
  rw [List.findIdx?_append, nothing, List.findIdx?_cons]
  simp

/-- A byte that is found splits the bytes at its first place. -/
theorem find_split (bytes : List Byte) (data : Byte) (place : Nat)
    (found : bytes.findIdx? (fun byte => byte == data) = some place) :
    ∃ front rest, bytes = front ++ data :: rest ∧ data ∉ front ∧ front.length = place := by
  obtain ⟨below, here, before⟩ := List.findIdx?_eq_some_iff_getElem.mp found
  have same : bytes[place] = data := beq_iff_eq.mp here
  refine ⟨bytes.take place, bytes.drop (place + 1), ?_, ?_, List.length_take_of_le (by omega)⟩
  · rw [← same, ← List.drop_eq_getElem_cons below, List.take_append_drop]
  · intro member
    obtain ⟨index, bound, value⟩ := List.getElem_of_mem member
    rw [List.length_take] at bound
    have differ := before index (by omega)
    rw [List.getElem_take] at value
    rw [value] at differ
    simp at differ

/-- A query is read as its word. -/
theorem read_body_query (address word : List Byte) :
    readBody address (uppOpGet :: word) =
      (takeWord word.length word).bind (fun word => .ok ⟨address, uppOpGet, word, []⟩) := by
  rw [readBody, if_pos (by rfl)]
  rfl

/-- A set command is read as its word and what stands one place behind it. -/
theorem read_body_set (address word data : List Byte) (plain : uppOpSet ∉ word)
    (other : (word ++ uppOpSet :: data).head? ≠ some uppOpGet) :
    readBody address (word ++ uppOpSet :: data) =
      (takeWord word.length (word ++ uppOpSet :: data)).bind (fun kept =>
        if (word ++ uppOpSet :: data).drop (kept.length + 1) = [] then .error .noSetData
        else .ok ⟨address, uppOpSet, kept, (word ++ uppOpSet :: data).drop (kept.length + 1)⟩) := by
  rw [readBody, if_neg other, find_first word data uppOpSet plain]
  rfl

/-- The received bytes begin with a line exactly when `check_packet` finds it. -/
theorem check_packet_line (inbuf : Mem) (inlen : Nat) (line rest : List Byte)
    (received : toList inbuf 0 inlen = line ++ carriageReturn :: rest)
    (plain : carriageReturn ∉ line) (long : 3 ≤ inlen) (short : inlen < 65535) :
    ∃ delimLen, Ends inbuf line delimLen ∧
      checkPacket inbuf inlen = .ok (checked line.length delimLen) := by
  have length := congrArg List.length received
  rw [to_list_length, List.length_append, List.length_cons] at length
  have found : memSearch inbuf inlen carriageReturn = some line.length := by
    rw [memSearch, received, find_first _ _ _ plain]
  have split : inlen = line.length + (1 + rest.length) := by omega
  rw [split, to_list_append, Nat.zero_add] at received
  obtain ⟨front, back⟩ := List.append_inj received (by simp)
  rw [to_list_append, to_list_one, List.singleton_append, List.cons.injEq] at back
  refine ⟨_, ⟨front, back.1, rfl, plain, by omega⟩, ?_⟩
  rw [checkPacket, if_neg (by omega), found]
  simp only [checked, Except.ok.injEq, Parse.mk.injEq, Parse.cleared, and_true]
  rw [← Nat.cast_add, narrow_nat]
  refine Nat.mod_eq_of_lt ?_
  split_ifs <;> omega

/-- The address digits in front of the command are those of the line. -/
theorem pure_digit_line {inbuf : Mem} {line : List Byte} {delimLen : Nat}
    (ends : Ends inbuf line delimLen) :
    isPureDigitN inbuf addrLen = true ↔
      addrLen ≤ line.length ∧ (line.take addrLen).all isDigit = true := by
  rw [isPureDigitN]
  by_cases long : addrLen ≤ line.length
  · rw [to_list_part inbuf line 0 addrLen ends.contents (by omega), List.drop_zero]
    exact ⟨fun digits => ⟨long, digits⟩, fun both => both.2⟩
  · refine ⟨fun digits => absurd ?_ long, fun both => absurd both.1 long⟩
    have split : addrLen = line.length + (1 + (addrLen - line.length - 1)) := by omega
    rw [split, to_list_append, to_list_append, Nat.zero_add, to_list_one, ends.ended] at digits
    simp [carriageReturn, isDigit] at digits

/-- The address is read as the line's. -/
theorem read_addr_line {inbuf : Mem} {line : List Byte} {delimLen : Nat} (parse : Parse)
    (ends : Ends inbuf line delimLen) :
    readAddr parse inbuf = .ok { parse with
      addrMode := if lineAddress line = [] then .single else .multi
      multiAddr := decValue (lineAddress line)
      ptr := (lineAddress line).length } := by
  rw [readAddr, lineAddress]
  by_cases digits : addrLen ≤ line.length ∧ (line.take addrLen).all isDigit = true
  · have same := to_list_part inbuf line 0 addrLen ends.contents (by omega)
    have nonempty : line.take addrLen ≠ [] := by
      intro empty
      have length := congrArg List.length empty
      rw [List.length_take_of_le digits.1] at length
      exact absurd length (by decide)
    rw [List.drop_zero] at same
    simp [isPureDigitN, stringToDecN, digits, nonempty, decValue, same]
  · have pure : isPureDigitN inbuf addrLen = false := by
      rw [← Bool.not_eq_true]
      exact fun pure => digits ((pure_digit_line ends).mp pure)
    rw [if_pos pure, if_neg digits]
    rfl

/-- A line is its address and what stands behind it. -/
theorem line_split (line : List Byte) :
    lineAddress line ++ line.drop (lineAddress line).length = line := by
  rw [lineAddress]
  split_ifs with digits
  · rw [List.length_take_of_le digits.1, List.take_append_drop]
  · rfl

/-- An address has digits only. -/
theorem address_digits (line : List Byte) : ∀ byte ∈ lineAddress line, isDigit byte = true := by
  rw [lineAddress]
  split_ifs with digits
  · exact List.all_eq_true.mp digits.2
  · simp

/-- The parse structure when the address was read. -/
def located (length delimLen : Nat) (address : List Byte) : Parse :=
  { checked length delimLen with
    addrMode := if address = [] then .single else .multi
    multiAddr := decValue address
    ptr := address.length }

/-- The address stage on a line. -/
theorem get_multi_addr_line {inbuf : Mem} {line : List Byte} {delimLen : Nat} (devAddr : Byte)
    (ends : Ends inbuf line delimLen) :
    getMultiAddr devAddr (checked line.length delimLen) inbuf =
      (checkAddr devAddr (lineAddress line)).map
        (fun _ => located line.length delimLen (lineAddress line)) := by
  rw [getMultiAddr, read_addr_line _ ends, checkAddr]
  simp only [bind, Except.bind]
  by_cases other : decValue (lineAddress line) ≠ devAddr.toNat ∧
      decValue (lineAddress line) ≠ broadcastAddr
  · rw [if_pos other, if_pos other]
    rfl
  · by_cases far : devMaxAddr < decValue (lineAddress line) ∧
        decValue (lineAddress line) ≠ broadcastAddr
    · rw [if_neg other, if_pos far, if_neg other, if_pos far]
      rfl
    · rw [if_neg other, if_neg far, if_neg other, if_neg far]
      rfl

section

variable {inbuf : Mem} {line : List Byte} {delimLen : Nat}

/-- The character behind the address. -/
theorem operator_line (ends : Ends inbuf line delimLen) (address body : List Byte)
    (split : line = address ++ body) :
    inbuf address.length = uppOpGet ↔ body.head? = some uppOpGet := by
  cases body with
  | nil =>
    have same : address.length = line.length := by rw [split, List.append_nil]
    rw [same, ends.ended]
    simp [carriageReturn, uppOpGet]
  | cons first others =>
    have one := to_list_part inbuf line address.length 1 ends.contents (by simp [split])
    rw [split, List.drop_left, to_list_one, List.take_succ_cons, List.take_zero,
      List.cons.injEq] at one
    rw [one.1]
    simp

/-- The characters from some place behind the address on. -/
theorem text_line (ends : Ends inbuf line delimLen) (address body : List Byte)
    (split : line = address ++ body) (start len : Nat) (inside : start + len ≤ body.length) :
    toList inbuf (address.length + start) len = (body.drop start).take len := by
  have bound : address.length + start + len ≤ line.length := by
    rw [split, List.length_append]
    omega
  rw [to_list_part inbuf line _ len ends.contents bound, split, List.drop_length_add_append]

/-- The set operator is found where it first stands in the line. -/
theorem set_operator_line (ends : Ends inbuf line delimLen) (address body : List Byte)
    (split : line = address ++ body) (digits : ∀ byte ∈ address, isDigit byte = true) :
    memSearch inbuf (line.length + delimLen) uppOpSet =
      (body.findIdx? (fun byte => byte == uppOpSet)).map (fun place => place + address.length) := by
  have before : address.findIdx? (fun byte => byte == uppOpSet) = none := by
    rw [List.findIdx?_eq_none_iff]
    intro byte member
    rw [beq_eq_false_iff_ne]
    rintro rfl
    exact absurd (digits _ member) (by decide)
  have behind : (carriageReturn :: List.replicate (delimLen - 1) lineFeed).findIdx?
      (fun byte => byte == uppOpSet) = none := by
    rw [List.findIdx?_eq_none_iff]
    intro byte member
    rcases List.mem_cons.mp member with rfl | feed
    · decide
    · rw [List.eq_of_mem_replicate feed]
      decide
  rw [memSearch, ends.whole, split, List.findIdx?_append, List.findIdx?_append, before, behind]
  cases body.findIdx? (fun byte => byte == uppOpSet) <;> rfl

/-- Reading a query behind the address. -/
theorem parse_query_line (ends : Ends inbuf line delimLen) (address body : List Byte)
    (split : line = address ++ body) (query : body.head? = some uppOpGet) :
    parseCmdFlk (located line.length delimLen address) inbuf =
      (readBody address body).map (Line.parse line.length delimLen) := by
  obtain ⟨word, rfl⟩ : ∃ word, body = uppOpGet :: word := by
    cases body with
    | nil => cases query
    | cons first others => exact ⟨others, by rw [Option.some.inj query]⟩
  have operator := (operator_line ends address _ split).mpr query
  have length : line.length = address.length + (word.length + 1) := by
    rw [split, List.length_append, List.length_cons]
  have count : narrow 8 (((line.length + delimLen : Nat) : Int) - (address.length + 1 : Nat) -
      delimLen) = word.length % 256 := by
    rw [show ((line.length + delimLen : Nat) : Int) - (address.length + 1 : Nat) - delimLen =
      (word.length : Int) by rw [length]; push_cast; ring]
    exact narrow_nat 8 word.length
  have inside : 1 + word.length % 256 ≤ (uppOpGet :: word).length := by
    rw [List.length_cons]
    have := Nat.mod_le word.length 256
    omega
  have text := text_line ends address _ split 1 (word.length % 256) inside
  rw [List.drop_succ_cons, List.drop_zero] at text
  rw [read_body_query, parseCmdFlk, readOperator, takeWord]
  simp only [located, checked, operator, if_true, count, bind]
  by_cases wrong : word.length % 256 < 1 ∨ 4 < word.length % 256
  · rw [if_pos wrong, if_pos wrong]
    rfl
  · rw [if_neg wrong, if_neg wrong]
    simp only [Except.bind, readWord, checkUppercase, text]
    by_cases upper : (word.take (word.length % 256)).all isUpper = true
    · rw [if_pos upper, if_pos upper]
      have cut : (word.take (word.length % 256)).length = word.length % 256 :=
        List.length_take_of_le (Nat.mod_le _ _)
      have other : uppOpGet ≠ uppOpSet := by decide
      simp only [readData, if_neg other, Except.map, Line.parse, cut, Except.ok.injEq,
        Parse.mk.injEq, Parse.cleared, true_and, List.length_nil]
      exact ⟨by omega, funext fun _ => rfl⟩
    · rw [if_neg upper, if_neg upper]
      rfl

/-- Bytes copied over a cleared array. -/
theorem copied_data (memory : Mem) (start : Nat) (bytes : List Byte)
    (read : toList memory start bytes.length = bytes) :
    overlay (fun _ => 0) (window memory start) 0 bytes.length = ofList bytes := by
  funext address
  by_cases inside : address < bytes.length
  · have same := congrArg (fun list => list[address]?) read
    simp only [toList, List.getElem?_map, List.getElem?_range inside, Option.map_some,
      List.getElem?_eq_getElem inside, Option.some.injEq] at same
    simp [overlay, window, ofList, inside, same]
  · rw [overlay_outside _ _ _ _ _ (Or.inr (by omega)), ofList, List.getD_eq_getElem?_getD,
      List.getElem?_eq_none (by omega)]
    rfl

/-- Reading a set command behind the address. -/
theorem parse_set_line (ends : Ends inbuf line delimLen) (address body : List Byte)
    (split : line = address ++ body) (digits : ∀ byte ∈ address, isDigit byte = true)
    (other : body.head? ≠ some uppOpGet) :
    parseCmdFlk (located line.length delimLen address) inbuf =
      (readBody address body).map (Line.parse line.length delimLen) := by
  have operator : ¬inbuf address.length = uppOpGet :=
    fun same => other ((operator_line ends address body split).mp same)
  have search := set_operator_line ends address body split digits
  rw [parseCmdFlk, readOperator, readBody]
  simp only [located, checked, operator, if_false, other, search]
  cases place : body.findIdx? (fun byte => byte == uppOpSet) with
  | none => rfl
  | some length =>
    have below : length < body.length := List.findIdx?_eq_some_iff_findIdx_eq.mp place |>.1
    have count : narrow 8 (((length + address.length : Nat) : Int) - address.length) =
        length % 256 := by
      rw [show ((length + address.length : Nat) : Int) - address.length = (length : Int) by
        push_cast; ring]
      exact narrow_nat 8 length
    have small : length % 256 ≤ length := Nat.mod_le _ _
    have text := text_line ends address body split 0 (length % 256) (by omega)
    rw [Nat.add_zero, List.drop_zero] at text
    simp only [Option.map_some, count, takeWord, bind]
    by_cases wrong : length % 256 < 1 ∨ 4 < length % 256
    · rw [if_pos wrong, if_pos wrong]
      rfl
    · rw [if_neg wrong, if_neg wrong]
      simp only [Except.bind, readWord, checkUppercase, text]
      by_cases upper : (body.take (length % 256)).all isUpper = true
      · rw [if_pos upper, if_pos upper]
        have cut : (body.take (length % 256)).length = length % 256 :=
          List.length_take_of_le (by omega)
        have whole : line.length = address.length + body.length := by
          rw [split, List.length_append]
        have rest : body.drop (length % 256 + 1) = [] ↔
            ((line.length + delimLen : Nat) : Int) -
              (address.length + length % 256 + 1 : Nat) ≤ delimLen := by
          rw [List.drop_eq_nil_iff, whole]
          push_cast
          omega
        simp only [readData, if_true, cut]
        by_cases empty : body.drop (length % 256 + 1) = []
        · rw [if_pos empty, if_pos (rest.mp empty)]
          rfl
        · rw [if_neg empty, if_neg (fun less => empty (rest.mpr less))]
          have size : narrow 16 (((line.length + delimLen : Nat) : Int) -
              (address.length + length % 256 + 1 : Nat) - delimLen) =
              (body.drop (length % 256 + 1)).length := by
            have bound : length % 256 + 1 ≤ body.length := by omega
            rw [show ((line.length + delimLen : Nat) : Int) -
                (address.length + length % 256 + 1 : Nat) - delimLen =
                ((body.drop (length % 256 + 1)).length : Int) by
              rw [whole, List.length_drop]; push_cast [bound]; ring, narrow_nat]
            refine Nat.mod_eq_of_lt ?_
            have fits := ends.fits
            rw [List.length_drop]
            omega
          simp only [Except.map, Line.parse, cut, size, Except.ok.injEq, Parse.mk.injEq,
            Parse.cleared, true_and]
          refine ⟨by omega, ?_⟩
          refine copied_data inbuf _ _ ?_
          rw [Nat.add_assoc,
            text_line ends address body split _ _ (by rw [List.length_drop]; omega),
            List.take_length]
      · rw [if_neg upper, if_neg upper]
        rfl

/-- What the parser makes of a line is what the line says. -/
theorem parse_cmd_line (devAddr : Byte) (ends : Ends inbuf line delimLen) :
    uppParseCmd devAddr (checked line.length delimLen) inbuf =
      (readLine devAddr line).map (Line.parse line.length delimLen) := by
  rw [uppParseCmd, get_multi_addr_line devAddr ends, readLine]
  cases checkAddr devAddr (lineAddress line) with
  | error err => rfl
  | ok _ =>
    simp only [Except.map, bind, Except.bind]
    by_cases query : (line.drop (lineAddress line).length).head? = some uppOpGet
    · exact parse_query_line ends _ _ (line_split line).symm query
    · exact parse_set_line ends _ _ (line_split line).symm (address_digits line) query

end

/-- What the parser makes of received bytes that begin with a line. -/
theorem parse_packet_line (devAddr : Byte) (inbuf : Mem) (inlen : Nat) (line rest : List Byte)
    (received : toList inbuf 0 inlen = line ++ carriageReturn :: rest)
    (plain : carriageReturn ∉ line) (long : 3 ≤ inlen) (short : inlen < 65535) :
    ∃ delimLen, Ends inbuf line delimLen ∧
      parsePacket devAddr inbuf inlen =
        (readLine devAddr line).map (Line.parse line.length delimLen) := by
  obtain ⟨delimLen, ends, found⟩ :=
    check_packet_line inbuf inlen line rest received plain long short
  refine ⟨delimLen, ends, ?_⟩
  rw [parsePacket, found]
  exact parse_cmd_line devAddr ends

end Pyrometer.UppLines
