import Pyrometer.UppLines

/-!
# The grammar of text commands

The grammar asks for an optional three-digit address of this device or of all
devices, then `?` and one to four uppercase letters, or one to four uppercase
letters, `=` and data. The parser keeps the length of the word in eight bits, so it
also takes words that are longer by a multiple of 256; it refuses addresses behind
the largest one it allows even if the device has such an address; and it copies
data without looking at the size of its array. Apart from that it accepts exactly
the grammar.
-/

namespace Pyrometer.UppGrammar

open ByteMemory UppParser UppLines

/-- A line as it is written. -/
def text (line : Line) : List Byte :=
  line.address ++
    if line.op = uppOpGet then uppOpGet :: line.word else line.word ++ uppOpSet :: line.data

/-- No address, or three digits. -/
def AddressShaped (address : List Byte) : Prop :=
  address = [] ∨ (address.length = addrLen ∧ ∀ byte ∈ address, isDigit byte = true)

/-- A line of the grammar, for a device address. -/
structure WellFormed (devAddr : Byte) (line : Line) : Prop where
  shaped : AddressShaped line.address
  addressed : if line.address = [] then devAddr = 0
    else decValue line.address = devAddr.toNat ∨ decValue line.address = broadcastAddr
  counted : 1 ≤ line.word.length ∧ line.word.length ≤ 4
  upper : ∀ byte ∈ line.word, isUpper byte = true
  asked : (line.op = uppOpGet ∧ line.data = []) ∨
    (line.op = uppOpSet ∧ line.data ≠ [] ∧ carriageReturn ∉ line.data)

/-- The bytes begin with a line of the grammar and its end. -/
def Matches (devAddr : Byte) (bytes : List Byte) (line : Line) : Prop :=
  WellFormed devAddr line ∧ ∃ rest, bytes = text line ++ carriageReturn :: rest

/-- The parse structure holds the word, the operator and the data of a line, the data
inside its array. -/
structure Carries (parse : Parse) (line : Line) : Prop where
  op : parse.op = line.op
  wordLen : parse.cmdWordLen = line.word.length
  word : parse.cmdWord = line.word
  dataLen : parse.dataLen = line.data.length
  inside : line.data.length ≤ sizeofParseData
  data : toList parse.data 0 line.data.length = line.data

/-- What is asked of the parser: it succeeds exactly on the grammar, and then holds
what the line says. -/
def Conforms (devAddr : Byte) (inbuf : Mem) (inlen : Nat) : Prop :=
  (∀ parse, parsePacket devAddr inbuf inlen = .ok parse →
    ∃ line, Matches devAddr (toList inbuf 0 inlen) line ∧ Carries parse line) ∧
  ∀ line, Matches devAddr (toList inbuf 0 inlen) line →
    ∃ parse, parsePacket devAddr inbuf inlen = .ok parse

/-- An address that the parser lets pass. -/
def InRange (address : List Byte) : Prop :=
  decValue address ≤ devMaxAddr ∨ decValue address = broadcastAddr

/-- A word that is too long and looks short when its length is kept in eight bits. -/
def Overlong (word : List Byte) : Prop :=
  256 ≤ word.length ∧ 1 ≤ word.length % 256 ∧ word.length % 256 ≤ 4 ∧
    ∀ byte ∈ word.take (word.length % 256), isUpper byte = true

/-- A line for this device with such a word. -/
def Wraps (devAddr : Byte) (line : List Byte) : Prop :=
  ∃ address word, AddressShaped address ∧
    (if address = [] then devAddr = 0
      else decValue address = devAddr.toNat ∨ decValue address = broadcastAddr) ∧
    InRange address ∧ Overlong word ∧
    (line = address ++ uppOpGet :: word ∨
      ∃ data, uppOpSet ∉ word ∧ line = address ++ (word ++ uppOpSet :: data))

/-- The number of an empty address. -/
@[simp] theorem dec_value_nil : decValue [] = 0 := rfl

/-- The address of a line that goes on with something else than a digit. -/
theorem line_address_append (address body : List Byte) (shaped : AddressShaped address)
    (stop : ∀ byte, body.head? = some byte → isDigit byte = false) :
    lineAddress (address ++ body) = address := by
  rcases shaped with rfl | ⟨three, digits⟩
  · rw [List.nil_append, lineAddress, if_neg]
    rintro ⟨long, all⟩
    cases body with
    | nil => exact absurd long (by decide)
    | cons first others =>
      have plain := stop first rfl
      rw [show addrLen = 2 + 1 from rfl, List.take_succ_cons, List.all_cons, plain] at all
      cases all
  · rw [lineAddress, List.take_left' three, if_pos]
    refine ⟨?_, List.all_eq_true.mpr digits⟩
    rw [List.length_append, three]
    exact Nat.le_add_right _ _

/-- The check of an address in the terms of the grammar. -/
theorem check_addr_iff (devAddr : Byte) (address : List Byte) (shaped : AddressShaped address) :
    checkAddr devAddr address = .ok () ↔
      (if address = [] then devAddr = 0
        else decValue address = devAddr.toNat ∨ decValue address = broadcastAddr) ∧
      InRange address := by
  have zero : devAddr = 0 ↔ (0 : Nat) = devAddr.toNat := by
    constructor
    · rintro rfl
      rfl
    · intro same
      exact BitVec.eq_of_toNat_eq same.symm
  rw [checkAddr, InRange]
  rcases shaped with rfl | ⟨three, digits⟩
  · simp only [dec_value_nil, if_true, zero]
    by_cases same : (0 : Nat) = devAddr.toNat
    · simp [← same]
    · simp [same, broadcastAddr]
  · have nonempty : address ≠ [] := by
      rintro rfl
      exact absurd three (by decide)
    simp only [nonempty, if_false]
    by_cases other : decValue address ≠ devAddr.toNat ∧ decValue address ≠ broadcastAddr
    · simp [other]
    · rw [if_neg other]
      by_cases far : devMaxAddr < decValue address ∧ decValue address ≠ broadcastAddr
      · simp [far]
      · rw [if_neg far]
        refine ⟨fun _ => ⟨?_, ?_⟩, fun _ => rfl⟩
        · tauto
        · rcases Nat.lt_or_ge devMaxAddr (decValue address) with above | below
          · exact Or.inr (by tauto)
          · exact Or.inl below

/-- A short word is taken as it is. -/
theorem take_word_short (word behind : List Byte) (counted : 1 ≤ word.length ∧ word.length ≤ 4)
    (upper : ∀ byte ∈ word, isUpper byte = true) :
    takeWord word.length (word ++ behind) = .ok word := by
  have small : word.length % 256 = word.length := Nat.mod_eq_of_lt (by omega)
  rw [takeWord, small, if_neg (by omega), List.take_left,
    if_pos (List.all_eq_true.mpr upper)]

/-- An uppercase letter is neither a digit nor an operator nor a line end. -/
theorem upper_plain {byte : Byte} (upper : isUpper byte = true) :
    isDigit byte = false ∧ byte ≠ uppOpGet ∧ byte ≠ uppOpSet ∧ byte ≠ carriageReturn := by
  revert byte
  decide

/-- A digit is no line end. -/
theorem digit_plain {byte : Byte} (digit : isDigit byte = true) : byte ≠ carriageReturn := by
  revert byte
  decide

/-- What stands behind the address of a line of the grammar. -/
def body (line : Line) : List Byte :=
  if line.op = uppOpGet then uppOpGet :: line.word else line.word ++ uppOpSet :: line.data

/-- What stands behind the address does not begin with a digit. -/
theorem body_head {devAddr : Byte} {line : Line} (formed : WellFormed devAddr line) (byte : Byte)
    (first : (body line).head? = some byte) : isDigit byte = false := by
  rw [body] at first
  split_ifs at first with query
  · obtain rfl : uppOpGet = byte := Option.some.inj first
    decide
  · cases named : line.word with
    | nil => exact absurd formed.counted.1 (by simp [named])
    | cons letter others =>
      rw [named] at first
      obtain rfl : letter = byte := Option.some.inj first
      exact (upper_plain (formed.upper letter (by simp [named]))).1

/-- A line of the grammar is read as it was meant, if its address is in range. -/
theorem read_body_formed {devAddr : Byte} {line : Line} (formed : WellFormed devAddr line) :
    readBody line.address (body line) = .ok line := by
  obtain ⟨address, op, word, data⟩ := line
  have upper := formed.upper
  have counted := formed.counted
  rcases formed.asked with ⟨query, none⟩ | ⟨change, some, _⟩
  · simp only at query none upper counted
    subst query none
    have taken := take_word_short word [] counted upper
    rw [List.append_nil] at taken
    rw [show body ⟨address, uppOpGet, word, []⟩ = uppOpGet :: word from rfl, read_body_query, taken]
    rfl
  · simp only at change some upper counted
    subst change
    have plain : uppOpSet ∉ word := fun member => (upper_plain (upper _ member)).2.2.1 rfl
    have other : (word ++ uppOpSet :: data).head? ≠ Option.some uppOpGet := by
      cases word with
      | nil => exact absurd counted.1 (by simp)
      | cons letter others =>
        intro same
        exact (upper_plain (upper letter (by simp))).2.1 (Option.some.inj same)
    have behind : (word ++ uppOpSet :: data).drop (word.length + 1) = data := by
      rw [List.drop_length_add_append]
      rfl
    rw [show body ⟨address, uppOpSet, word, data⟩ = word ++ uppOpSet :: data from rfl,
      read_body_set address word data plain other, take_word_short word _ counted upper]
    simp only [Except.bind, behind, some, if_false]

/-- A line of the grammar is accepted exactly when its address is in range, and then
read as it was meant. -/
theorem read_line_formed {devAddr : Byte} {line : Line} (formed : WellFormed devAddr line) :
    (InRange line.address → readLine devAddr (text line) = .ok line) ∧
      ∀ read, readLine devAddr (text line) = .ok read → InRange line.address ∧ read = line := by
  have address : lineAddress (text line) = line.address :=
    line_address_append line.address (body line) formed.shaped (body_head formed)
  have rest : (text line).drop line.address.length = body line := List.drop_left
  have reads : readLine devAddr (text line) =
      (checkAddr devAddr line.address).bind (fun _ => .ok line) := by
    rw [readLine, address, rest, read_body_formed formed]
    rfl
  rw [reads]
  have admissible := check_addr_iff devAddr line.address formed.shaped
  constructor
  · intro near
    rw [admissible.mpr ⟨formed.addressed, near⟩]
    rfl
  · intro read accepted
    cases passed : checkAddr devAddr line.address with
    | error err =>
      rw [passed] at accepted
      cases accepted
    | ok _ =>
      rw [passed] at accepted
      exact ⟨(admissible.mp passed).2, (Except.ok.inj accepted).symm⟩

/-- The word that was taken, and how long the text was that it was taken from. -/
theorem take_word_ok {length : Nat} {whole word : List Byte}
    (taken : takeWord length whole = .ok word) :
    1 ≤ length % 256 ∧ length % 256 ≤ 4 ∧ word = whole.take (length % 256) ∧
      ∀ byte ∈ word, isUpper byte = true := by
  rw [takeWord] at taken
  split_ifs at taken with wrong upper
  obtain rfl := Except.ok.inj taken
  exact ⟨by omega, by omega, rfl, List.all_eq_true.mp upper⟩

/-- A line that is accepted either is of the grammar or has an overlong word. -/
theorem read_line_ok {devAddr : Byte} {written : List Byte} {line : Line}
    (plain : carriageReturn ∉ written) (accepted : readLine devAddr written = .ok line) :
    (WellFormed devAddr line ∧ text line = written) ∨ Wraps devAddr written := by
  have split := line_split written
  have shaped : AddressShaped (lineAddress written) := by
    rw [lineAddress]
    split_ifs with digits
    · exact Or.inr ⟨List.length_take_of_le digits.1, List.all_eq_true.mp digits.2⟩
    · exact Or.inl rfl
  rw [readLine] at accepted
  cases passed : checkAddr devAddr (lineAddress written) with
  | error err =>
    rw [passed] at accepted
    cases accepted
  | ok _ =>
    obtain ⟨addressed, near⟩ := (check_addr_iff devAddr _ shaped).mp passed
    rw [passed] at accepted
    simp only [bind, Except.bind] at accepted
    generalize lineAddress written = address at *
    generalize written.drop address.length = rest at *
    subst split
    by_cases query : rest.head? = some uppOpGet
    · obtain ⟨word, rfl⟩ : ∃ word, rest = uppOpGet :: word := by
        cases rest with
        | nil => cases query
        | cons first others => exact ⟨others, by rw [Option.some.inj query]⟩
      rw [read_body_query] at accepted
      cases taken : takeWord word.length word with
      | error err =>
        rw [taken] at accepted
        cases accepted
      | ok kept =>
        rw [taken] at accepted
        obtain rfl := Except.ok.inj accepted
        obtain ⟨positive, small, cut, upper⟩ := take_word_ok taken
        by_cases long : 256 ≤ word.length
        · exact Or.inr ⟨address, word, shaped, addressed, near,
            ⟨long, positive, small, cut ▸ upper⟩, Or.inl rfl⟩
        · have whole : word.length % 256 = word.length := Nat.mod_eq_of_lt (by omega)
          rw [whole] at positive small cut
          rw [List.take_length] at cut
          subst cut
          exact Or.inl ⟨⟨shaped, addressed, ⟨positive, small⟩, upper, Or.inl ⟨rfl, rfl⟩⟩, rfl⟩
    · cases place : rest.findIdx? (fun byte => byte == uppOpSet) with
      | none =>
        rw [readBody, if_neg query, place] at accepted
        cases accepted
      | some length =>
        obtain ⟨word, data, rfl, absent, rfl⟩ := find_split rest uppOpSet length place
        rw [read_body_set address word data absent query] at accepted
        cases taken : takeWord word.length (word ++ uppOpSet :: data) with
        | error err =>
          rw [taken] at accepted
          cases accepted
        | ok kept =>
          rw [taken] at accepted
          simp only [Except.bind] at accepted
          split_ifs at accepted with empty
          obtain rfl := Except.ok.inj accepted
          obtain ⟨positive, small, cut, upper⟩ := take_word_ok taken
          rw [List.take_append_of_le_length (Nat.mod_le _ _)] at cut
          by_cases long : 256 ≤ word.length
          · exact Or.inr ⟨address, word, shaped, addressed, near,
              ⟨long, positive, small, cut ▸ upper⟩, Or.inr ⟨data, absent, rfl⟩⟩
          · have whole : word.length % 256 = word.length := Nat.mod_eq_of_lt (by omega)
            rw [whole] at positive small cut
            rw [List.take_length] at cut
            subst cut
            have behind : (kept ++ uppOpSet :: data).drop (kept.length + 1) = data := by
              rw [List.drop_length_add_append]
              rfl
            rw [behind] at empty ⊢
            refine Or.inl ⟨⟨shaped, addressed, ⟨positive, small⟩, upper,
              Or.inr ⟨rfl, empty, ?_⟩⟩, rfl⟩
            intro member
            exact plain (by simp [member])

/-- The letters at the front of an overlong word. -/
theorem overlong_head {word : List Byte} (behind : List Byte) (overlong : Overlong word)
    (byte : Byte) (first : (word ++ behind).head? = some byte) : isUpper byte = true := by
  obtain ⟨long, positive, small, upper⟩ := overlong
  cases word with
  | nil => exact absurd long (by decide)
  | cons letter others =>
    obtain rfl : letter = byte := Option.some.inj first
    refine upper letter ?_
    obtain ⟨count, succ⟩ : ∃ count, (letter :: others).length % 256 = count + 1 :=
      ⟨(letter :: others).length % 256 - 1, by omega⟩
    rw [succ, List.take_succ_cons]
    exact List.mem_cons_self

/-- An overlong word is cut to its first letters. -/
theorem take_word_overlong (word behind : List Byte) (overlong : Overlong word) :
    takeWord word.length (word ++ behind) = .ok (word.take (word.length % 256)) := by
  obtain ⟨long, positive, small, upper⟩ := overlong
  rw [takeWord, if_neg (by omega), List.take_append_of_le_length (Nat.mod_le _ _),
    if_pos (List.all_eq_true.mpr upper)]

/-- The parts of a line with an overlong word, as the parser finds them. -/
theorem wraps_read {devAddr : Byte} {written : List Byte} (wraps : Wraps devAddr written) :
    (∃ line, readLine devAddr written = .ok line) ∧
      ∃ word, Overlong word ∧
        (written.drop (lineAddress written).length = uppOpGet :: word ∨
          ∃ data, uppOpSet ∉ word ∧
            written.drop (lineAddress written).length = word ++ uppOpSet :: data) := by
  obtain ⟨address, word, shaped, addressed, near, overlong, query | ⟨data, absent, change⟩⟩ := wraps
  · have found : lineAddress written = address := by
      rw [query]
      refine line_address_append address _ shaped (fun byte first => ?_)
      obtain rfl : uppOpGet = byte := Option.some.inj first
      decide
    have behind : written.drop address.length = uppOpGet :: word := by rw [query, List.drop_left]
    refine ⟨⟨⟨address, uppOpGet, word.take (word.length % 256), []⟩, ?_⟩, word, overlong, ?_⟩
    · have taken := take_word_overlong word [] overlong
      rw [List.append_nil] at taken
      rw [readLine, found, (check_addr_iff devAddr address shaped).mpr ⟨addressed, near⟩, behind]
      simp only [bind, Except.bind]
      rw [read_body_query, taken]
      rfl
    · rw [found]
      exact Or.inl behind
  · have head := overlong_head (uppOpSet :: data) overlong
    have found : lineAddress written = address := by
      rw [change]
      exact line_address_append address _ shaped
        (fun byte first => (upper_plain (head byte first)).1)
    have behind : written.drop address.length = word ++ uppOpSet :: data := by
      rw [change, List.drop_left]
    refine ⟨⟨⟨address, uppOpSet, word.take (word.length % 256),
      (word ++ uppOpSet :: data).drop (word.length % 256 + 1)⟩, ?_⟩, word, overlong, ?_⟩
    · have other : (word ++ uppOpSet :: data).head? ≠ some uppOpGet :=
        fun first => (upper_plain (head _ first)).2.1 rfl
      have cut : (word.take (word.length % 256)).length = word.length % 256 :=
        List.length_take_of_le (Nat.mod_le _ _)
      have left : (word ++ uppOpSet :: data).drop (word.length % 256 + 1) ≠ [] := by
        intro empty
        rw [List.drop_eq_nil_iff, List.length_append, List.length_cons] at empty
        have long := overlong.1
        have small := overlong.2.2.1
        omega
      rw [readLine, found, (check_addr_iff devAddr address shaped).mpr ⟨addressed, near⟩, behind]
      simp only [bind, Except.bind]
      rw [read_body_set address word data absent other, take_word_overlong word _ overlong]
      simp only [Except.bind, cut, left, if_false]
    · rw [found]
      exact Or.inr ⟨data, absent, behind⟩

/-- A line with an overlong word is not of the grammar. -/
theorem wraps_not_formed {devAddr : Byte} {line : Line} (formed : WellFormed devAddr line) :
    ¬Wraps devAddr (text line) := by
  intro wraps
  obtain ⟨_, word, overlong, shape⟩ := wraps_read wraps
  have address : lineAddress (text line) = line.address :=
    line_address_append line.address (body line) formed.shaped (body_head formed)
  rw [address, show (text line).drop line.address.length = body line from List.drop_left] at shape
  have long := overlong.1
  have counted := formed.counted.2
  rw [body] at shape
  rcases formed.asked with ⟨query, none⟩ | ⟨change, some, _⟩
  · rw [if_pos query] at shape
    rcases shape with same | ⟨data, absent, same⟩
    · rw [List.cons.injEq] at same
      rw [same.2] at counted
      omega
    · have first := overlong_head (uppOpSet :: data) overlong uppOpGet (by rw [← same]; rfl)
      exact absurd first (by decide)
  · rw [if_neg (by rw [change]; decide)] at shape
    have plain : uppOpSet ∉ line.word :=
      fun member => (upper_plain (formed.upper _ member)).2.2.1 rfl
    rcases shape with same | ⟨data, absent, same⟩
    · cases named : line.word with
      | nil => exact absurd formed.counted.1 (by simp [named])
      | cons letter others =>
        rw [named, List.cons_append, List.cons.injEq] at same
        exact (upper_plain (formed.upper letter (by simp [named]))).2.1 same.1
    · have left := find_first line.word line.data uppOpSet plain
      have right := find_first word data uppOpSet absent
      rw [same, right, Option.some.injEq] at left
      omega

/-- No line end stands inside a line of the grammar. -/
theorem text_plain {devAddr : Byte} {line : Line} (formed : WellFormed devAddr line) :
    carriageReturn ∉ text line := by
  have address : carriageReturn ∉ line.address := by
    intro member
    rcases formed.shaped with none | ⟨_, digits⟩
    · rw [none] at member
      cases member
    · exact digit_plain (digits _ member) rfl
  have word : carriageReturn ∉ line.word :=
    fun member => (upper_plain (formed.upper _ member)).2.2.2 rfl
  have operators : carriageReturn ≠ uppOpGet ∧ carriageReturn ≠ uppOpSet := by decide
  rcases formed.asked with ⟨query, none⟩ | ⟨change, some, data⟩
  · simp [text, query, address, word, operators]
  · have set : ¬uppOpSet = uppOpGet := by decide
    simp [text, change, set, address, word, operators, data]

/-- The first line of some bytes is determined by them. -/
theorem line_unique {left right first second : List Byte}
    (same : left ++ carriageReturn :: first = right ++ carriageReturn :: second)
    (plain : carriageReturn ∉ left) (other : carriageReturn ∉ right) : left = right := by
  have one := find_first left first carriageReturn plain
  have two := find_first right second carriageReturn other
  rw [same, two, Option.some.injEq] at one
  exact (List.append_inj same one.symm).1

/-- The parse structure of a line carries it exactly when its data fit the array. -/
theorem parse_carries (length delimLen : Nat) (line : Line)
    (inside : line.data.length ≤ sizeofParseData) : Carries (line.parse length delimLen) line := by
  refine ⟨rfl, rfl, rfl, rfl, inside, List.ext_getElem (by simp) (fun index low high => ?_)⟩
  simp [Line.parse, toList, ofList, high]

/-- The parser does what is asked exactly when a line of the grammar has an address
in range and data that fit, and the line has no overlong word. -/
theorem conforms_iff (devAddr : Byte) (inbuf : Mem) (inlen : Nat) (long : 3 ≤ inlen)
    (short : inlen ≤ 1056) :
    Conforms devAddr inbuf inlen ↔
      (∀ line, Matches devAddr (toList inbuf 0 inlen) line →
        InRange line.address ∧ line.data.length ≤ sizeofParseData) ∧
      ∀ written rest, toList inbuf 0 inlen = written ++ carriageReturn :: rest →
        carriageReturn ∉ written → ¬Wraps devAddr written := by
  by_cases ends : carriageReturn ∈ toList inbuf 0 inlen
  case neg =>
    have silent : ∀ line, ¬Matches devAddr (toList inbuf 0 inlen) line := by
      rintro line ⟨_, rest, same⟩
      exact ends (by rw [same]; simp)
    have nothing : ∀ parse, parsePacket devAddr inbuf inlen ≠ .ok parse := by
      intro parse accepted
      have missing : memSearch inbuf inlen carriageReturn = none := by
        rw [memSearch, List.findIdx?_eq_none_iff]
        intro byte member
        rw [beq_eq_false_iff_ne]
        rintro rfl
        exact ends member
      rw [parsePacket, checkPacket, if_neg (by omega), missing] at accepted
      cases accepted
    refine ⟨fun _ => ⟨fun line found => (silent line found).elim, fun written rest same => ?_⟩,
      fun _ => ⟨fun parse accepted => (nothing parse accepted).elim,
        fun line found => (silent line found).elim⟩⟩
    exact absurd (by rw [same]; simp) ends
  case pos =>
    obtain ⟨place, found⟩ : ∃ place, (toList inbuf 0 inlen).findIdx?
        (fun byte => byte == carriageReturn) = some place := by
      rw [← Option.isSome_iff_exists, List.findIdx?_isSome]
      exact List.any_eq_true.mpr ⟨carriageReturn, ends, by simp⟩
    obtain ⟨written, rest, split, plain, _⟩ := find_split _ carriageReturn place found
    obtain ⟨delimLen, _, parsed⟩ :=
      parse_packet_line devAddr inbuf inlen written rest split plain long (by omega)
    have matched : ∀ line, Matches devAddr (toList inbuf 0 inlen) line →
        WellFormed devAddr line ∧ text line = written := by
      rintro line ⟨formed, tail, same⟩
      exact ⟨formed, line_unique (same.symm.trans split) (text_plain formed) plain⟩
    have accepted : ∀ line, readLine devAddr written = .ok line →
        parsePacket devAddr inbuf inlen = .ok (line.parse written.length delimLen) := by
      intro line reads
      rw [parsed, reads]
      rfl
    have reading : ∀ parse, parsePacket devAddr inbuf inlen = .ok parse →
        ∃ line, readLine devAddr written = .ok line ∧
          parse = line.parse written.length delimLen := by
      intro parse succeeded
      rw [parsed] at succeeded
      cases reads : readLine devAddr written with
      | error err =>
        rw [reads] at succeeded
        cases succeeded
      | ok line =>
        rw [reads] at succeeded
        exact ⟨line, rfl, (Except.ok.inj succeeded).symm⟩
    constructor
    · rintro ⟨sound, complete⟩
      refine ⟨fun line found => ?_, fun other tail same unbroken wraps => ?_⟩
      · obtain ⟨formed, rfl⟩ := matched line found
        obtain ⟨parse, succeeded⟩ := complete line found
        obtain ⟨read, reads, rfl⟩ := reading parse succeeded
        obtain ⟨near, rfl⟩ := (read_line_formed formed).2 read reads
        obtain ⟨again, _, carries⟩ := sound _ succeeded
        refine ⟨near, ?_⟩
        rw [show read.data.length = again.data.length from carries.dataLen]
        exact carries.inside
      · obtain rfl := line_unique (split.symm.trans same) plain unbroken
        obtain ⟨⟨read, reads⟩, _⟩ := wraps_read wraps
        obtain ⟨line, found, _⟩ := sound _ (accepted read reads)
        obtain ⟨formed, rfl⟩ := matched line found
        exact wraps_not_formed formed wraps
    · rintro ⟨fitting, unwrapped⟩
      refine ⟨fun parse succeeded => ?_, fun line found => ?_⟩
      · obtain ⟨read, reads, rfl⟩ := reading parse succeeded
        rcases read_line_ok plain reads with ⟨formed, same⟩ | wraps
        · have found : Matches devAddr (toList inbuf 0 inlen) read := ⟨formed, rest, same ▸ split⟩
          exact ⟨read, found, parse_carries _ _ read (fitting read found).2⟩
        · exact absurd wraps (unwrapped written rest split plain)
      · obtain ⟨formed, rfl⟩ := matched line found
        exact ⟨_, accepted line ((read_line_formed formed).1 (fitting line found).1)⟩

/-- The query `?T` with its line end. -/
def askTemperature : List Byte := [0x3F, 0x54, 0x0D]

/-- A query whose word has 257 letters. -/
def longQuery : List Byte := uppOpGet :: List.replicate 257 0x54

/-- The query `?T` is parsed as asked. -/
theorem ask_temperature_conforms : Conforms 0 (ofList askTemperature) 3 := by
  refine (conforms_iff 0 (ofList askTemperature) 3 (by decide) (by decide)).mpr ⟨?_, ?_⟩
  · rintro line ⟨formed, rest, same⟩
    have length := congrArg List.length same
    rw [to_list_length, List.length_append, List.length_cons, text, List.length_append] at length
    have nothing : line.address = [] := by
      rcases formed.shaped with none | ⟨three, _⟩
      · exact none
      · rw [three, addrLen] at length
        omega
    refine ⟨by simp [InRange, nothing], ?_⟩
    rw [sizeofParseData]
    rcases formed.asked with ⟨_, empty⟩ | ⟨change, _, _⟩
    · simp [empty]
    · rw [change, if_neg (by decide), List.length_append, List.length_cons] at length
      omega
  · rintro written rest same _ ⟨address, word, _, _, _, overlong, shape⟩
    have length := congrArg List.length same
    rw [to_list_length, List.length_append, List.length_cons] at length
    have long := overlong.1
    rcases shape with rfl | ⟨data, _, rfl⟩
    · rw [List.length_append, List.length_cons] at length
      omega
    · rw [List.length_append, List.length_append] at length
      omega

/-- A query with 257 letters is taken for a query with one. -/
theorem long_query_accepted :
    ¬Conforms 0 (ofList (longQuery ++ [carriageReturn]))
      (longQuery ++ [carriageReturn]).length := by
  rintro ⟨sound, _⟩
  have received : toList (ofList (longQuery ++ [carriageReturn])) 0
      (longQuery ++ [carriageReturn]).length = longQuery ++ carriageReturn :: [] := by
    decide +kernel
  have plain : carriageReturn ∉ longQuery := by decide +kernel
  obtain ⟨delimLen, _, parsed⟩ := parse_packet_line 0 _ _ longQuery [] received plain
    (by decide +kernel) (by decide +kernel)
  have reads : readLine 0 longQuery = .ok ⟨[], uppOpGet, [0x54], []⟩ := by decide +kernel
  rw [reads] at parsed
  obtain ⟨line, ⟨formed, rest, same⟩, _⟩ := sound _ parsed
  have written := line_unique (same.symm.trans received) (text_plain formed) plain
  have wraps : Wraps 0 longQuery :=
    ⟨[], List.replicate 257 0x54, Or.inl rfl, rfl, Or.inl (by decide),
      ⟨by decide +kernel, by decide +kernel, by decide +kernel, by decide +kernel⟩, Or.inl rfl⟩
  rw [← written] at wraps
  exact wraps_not_formed formed wraps

end Pyrometer.UppGrammar
