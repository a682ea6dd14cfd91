import Pyrometer.CoefficientRoundTrip
import Pyrometer.Scanning

/-!
# Addresses of the network

An address is set as a text, which a validator checks, and at start the texts of four
addresses are scanned into bytes. The validator takes a text apart at its points, where
points side by side count as one, and then compares lengths. The scanner has rules of its
own: it skips spaces, accepts signs, and does not look at what follows the fourth number.

The texts lie one behind the other in the parameters, and one without an end runs on
into the next. The validator copies its text into 1024 bytes; longer texts, which
overrun that copy, are not told apart here.
-/

namespace Pyrometer.IpAddresses

open ByteMemory CText ParameterLayout CommandExecution UppParser UppLines SetGetAgreement
open CoefficientRoundTrip Scanning

/-- `"%3u.%3u.%3u.%3u"`. -/
def ipFormat : List Directive :=
  [.number (some 3), .exactly point, .number (some 3), .exactly point, .number (some 3),
    .exactly point, .number (some 3)]

/-- The numbers that are scanned from the text of an address. -/
def scanIp (src : List Byte) : List Nat :=
  (scanf ipFormat src).map (fun number => unsigned number.1 number.2)

/-- `parse_ip_string`: its result and the four bytes it leaves. -/
def parseIpString (src : List Byte) : Int × List Byte :=
  let ip := scanIp src
  if ip.length ≠ 4 then (-1, [0, 0, 0, 0])
  else if ip.any (fun part => decide (part > 255)) then (-1, [0, 0, 0, 0])
  else (0, ip.map (BitVec.ofNat 8))

/-- The addresses that are set up at start. -/
inductive Address where
  | remoteIp
  | ipAddr
  | gateway
  | netMask
deriving DecidableEq

namespace Address

/-- The place of the text in the parameters. -/
def offset : Address → Nat
  | .ipAddr => ParaType.net.offset + 16
  | .remoteIp => ParaType.net.offset + 32
  | .netMask => ParaType.net.offset + 48
  | .gateway => ParaType.net.offset + 64

/-- The text in the parameters. -/
def text (address : Address) (para : Mem) : List Byte :=
  stringAt para address.offset (sizeofSysPara - address.offset)

/-- The address that is restored. -/
def default : Address → List Byte
  | .remoteIp => [192, 168, 42, 100]
  | .ipAddr => [192, 168, 42, 132]
  | .gateway => [192, 168, 42, 1]
  | .netMask => [255, 255, 255, 0]

end Address

/-- The test of `get_ipconfig_info` on the remote address. -/
def remoteIllegal (para : Mem) : Bool :=
  let remote := parseIpString (Address.remoteIp.text para)
  remote.1 != 0 || remote.2.getD 0 0 == 0

/-- `get_ipconfig_info`: the four addresses it leaves. -/
def getIpconfigInfo (para : Mem) (address : Address) : List Byte :=
  if remoteIllegal para then address.default else (parseIpString (address.text para)).2

/-- One to three digits that write a number of one byte. -/
structure Group (digits : List Byte) : Prop where
  nonempty : digits ≠ []
  short : digits.length ≤ 3
  digit : ∀ byte ∈ digits, isDigit byte = true
  small : decValue digits ≤ 255

/-- A text of four groups with one point between each two. -/
structure Quad (text first second third fourth : List Byte) : Prop where
  firstGroup : Group first
  secondGroup : Group second
  thirdGroup : Group third
  fourthGroup : Group fourth
  shape : text = first ++ point :: (second ++ point :: (third ++ point :: fourth))

/-- What splitting takes away are the delimiters. -/
theorem split_lengths (delimiter : Byte) (text : List Byte) :
    ((text.splitOn delimiter).map List.length).sum + (text.splitOn delimiter).length =
      text.length + 1 := by
  induction text with
  | nil => rfl
  | cons byte rest inductionHypothesis =>
    rw [List.splitOn_cons_eq_if_modifyHead]
    obtain ⟨first, others, parts⟩ :=
      List.exists_cons_of_ne_nil (List.splitOn_ne_nil delimiter rest)
    rw [parts] at inductionHypothesis ⊢
    split_ifs
    · simp only [List.map_cons, List.sum_cons, List.length_cons, List.length_nil] at *
      omega
    · simp only [List.modifyHead_cons, List.map_cons, List.sum_cons, List.length_cons] at *
      omega

/-- The empty parts of a text have no length. -/
theorem token_lengths (delimiter : Byte) (text : List Byte) :
    ((tokens delimiter text).map List.length).sum =
      ((text.splitOn delimiter).map List.length).sum := by
  rw [tokens]
  induction text.splitOn delimiter with
  | nil => rfl
  | cons part rest inductionHypothesis =>
    by_cases empty : part = []
    · subst empty
      simpa using inductionHypothesis
    · rw [List.filter_cons_of_pos (by simpa using empty), List.map_cons, List.sum_cons,
        inductionHypothesis, List.map_cons, List.sum_cons]

/-- Parts as long as they must be leave no empty part out. -/
theorem tokens_all (delimiter : Byte) (text : List Byte)
    (length : ((tokens delimiter text).map List.length).sum + ((tokens delimiter text).length - 1) =
      text.length) (found : tokens delimiter text ≠ []) :
    text.splitOn delimiter = tokens delimiter text := by
  have total := split_lengths delimiter text
  have lengths := token_lengths delimiter text
  have positive := List.length_pos_iff.mpr found
  have all : (tokens delimiter text).length = (text.splitOn delimiter).length := by omega
  exact (List.filter_eq_self.mpr (List.length_filter_eq_length_iff.mp all)).symm

/-- What a number of decimal digits is read as. -/
theorem read_digits_number {digits : List Byte} (nonempty : digits ≠ [])
    (all : ∀ byte ∈ digits, isDigit byte = true) :
    readInteger false digits = some (false, decValue digits) := by
  cases digits with
  | nil => exact absurd rfl nonempty
  | cons first rest =>
    have digit := all first List.mem_cons_self
    have noSign : first ≠ 0x2D ∧ first ≠ 0x2B := by
      constructor <;> rintro rfl <;> cases digit
    rw [readInteger, List.dropWhile_cons_of_neg (by simp [digit_no_space digit])]
    simp only [readSign, if_neg noSign.1, if_neg noSign.2, Bool.false_eq_true, if_false]
    rw [read_digits_all all, in_base_digits]
    simp

/-- Digits alone are a whole number. -/
theorem dec_number_digits {digits : List Byte} (nonempty : digits ≠ [])
    (all : ∀ byte ∈ digits, isDigit byte = true) : isDecNumber digits = 1 := by
  have other : ∀ byte, isDigit byte = true → byte ≠ point ∧ byte ≠ minus := by decide
  cases digits with
  | nil => exact absurd rfl nonempty
  | cons first rest =>
    obtain ⟨noPoint, noMinus⟩ := other first (all first List.mem_cons_self)
    have counted : (first :: rest).countP isDigit = (first :: rest).length :=
      List.countP_eq_length.mpr all
    have pointless : (first :: rest).countP (fun byte => byte == point) = 0 :=
      List.countP_eq_zero.mpr (fun byte member => by simpa using (other byte (all byte member)).1)
    simp only [isDecNumber, List.getD_cons_zero, counted, pointless]
    rw [if_neg noPoint, if_neg (fun both => noMinus both.1), if_neg noMinus,
      if_pos ⟨Nat.add_zero _, trivial⟩]

/-- The check of one part of an address. -/
theorem valid_part_iff {part : List Byte} (nonempty : part ≠ []) :
    validIpPart part = true ↔ Group part := by
  have number : (∀ byte ∈ part, isDigit byte = true) →
      strtol 32 part = min (2 ^ 31 - 1) (decValue part : Int) := by
    intro all
    rw [strtol, read_digits_number nonempty all]
    rfl
  simp only [validIpPart, Bool.and_eq_true, decide_eq_true_eq, beq_iff_eq, bne_iff_ne]
  constructor
  · rintro ⟨⟨⟨short, whole⟩, plain⟩, bounds⟩
    rcases dec_number_shape whole with all | ⟨digits, rfl, _⟩
    · rw [number all] at bounds
      exact ⟨nonempty, short, all, by omega⟩
    · exact absurd rfl plain
  · intro group
    have noMinus : part.head? ≠ some minus := by
      intro same
      exact absurd (group.digit minus (List.mem_of_mem_head? same)) (by decide)
    rw [number group.digit]
    have small := group.small
    exact ⟨⟨⟨group.short, dec_number_digits nonempty group.digit⟩, noMinus⟩, by omega⟩

/-- No digit is a point. -/
theorem group_no_point {digits : List Byte} (group : Group digits) : point ∉ digits :=
  fun member => absurd (group.digit point member) (by decide)

/-- The validator accepts exactly the texts of four groups. -/
theorem valid_ip_iff (text : List Byte) :
    isValidIp text = true ↔ ∃ first second third fourth, Quad text first second third fourth := by
  simp only [isValidIp, Bool.and_eq_true, List.all_eq_true, beq_iff_eq]
  constructor
  · rintro ⟨⟨valid, four⟩, length⟩
    obtain ⟨first, second, third, fourth, parts⟩ := List.length_eq_four.mp four
    have whole := tokens_all point text (by omega) (by simp [parts])
    have joined : [point].intercalate (text.splitOn point) = text := List.intercalate_splitOn point
    rw [whole, parts] at joined
    have group : ∀ part ∈ tokens point text, Group part := by
      intro part member
      have nonempty : part ≠ [] := by simpa using (List.mem_filter.mp member).2
      exact (valid_part_iff nonempty).mp (valid part member)
    rw [parts] at group
    exact ⟨first, second, third, fourth, group _ (by simp), group _ (by simp), group _ (by simp),
      group _ (by simp), by rw [← joined]; simp [List.intercalate]⟩
  · rintro ⟨first, second, third, fourth, quad⟩
    have parts : tokens point text = [first, second, third, fourth] := by
      have separated := tokens_separated point first [second, third, fourth] (by
        simp only [List.mem_cons, List.not_mem_nil, or_false, forall_eq_or_imp, forall_eq]
        exact ⟨⟨quad.firstGroup.nonempty, group_no_point quad.firstGroup⟩,
          ⟨quad.secondGroup.nonempty, group_no_point quad.secondGroup⟩,
          ⟨quad.thirdGroup.nonempty, group_no_point quad.thirdGroup⟩,
          ⟨quad.fourthGroup.nonempty, group_no_point quad.fourthGroup⟩⟩)
      rw [quad.shape]
      simpa using separated
    rw [parts]
    refine ⟨⟨?_, rfl⟩, ?_⟩
    · simp only [List.mem_cons, List.not_mem_nil, or_false, forall_eq_or_imp, forall_eq]
      exact ⟨(valid_part_iff quad.firstGroup.nonempty).mpr quad.firstGroup,
        (valid_part_iff quad.secondGroup.nonempty).mpr quad.secondGroup,
        (valid_part_iff quad.thirdGroup.nonempty).mpr quad.thirdGroup,
        (valid_part_iff quad.fourthGroup.nonempty).mpr quad.fourthGroup⟩
    · rw [quad.shape]
      simp only [List.map_cons, List.map_nil, List.sum_cons, List.sum_nil, List.length_append,
        List.length_cons]
      omega

/-- Digits are read up to what is none. -/
theorem read_digits_stop {digits rest : List Byte} (all : ∀ byte ∈ digits, isDigit byte = true)
    (stop : ∀ byte ∈ rest.head?, isDigit byte = false) :
    readDigits decDigit? (digits ++ rest) = (digits.map (fun byte => byte.toNat - 0x30), rest) := by
  induction digits with
  | nil =>
    cases rest with
    | nil => rfl
    | cons byte rest =>
      have noDigit : decDigit? byte = none := by
        have other : ∀ byte : Byte, isDigit byte = false → decDigit? byte = none := by decide
        exact other byte (stop byte rfl)
      simp [readDigits, noDigit]
  | cons byte digits inductionHypothesis =>
    obtain ⟨digit, others⟩ := List.forall_mem_cons.mp all
    simp only [List.cons_append, readDigits, dec_digit_some digit, List.map_cons,
      inductionHypothesis others]

/-- A group is scanned to its end. -/
theorem read_field_group {digits rest : List Byte} (group : Group digits)
    (stop : ∀ byte ∈ rest.head?, isDigit byte = false) :
    readField (some 3) (digits ++ rest) = some ((false, decValue digits), rest) := by
  have field : (digits ++ rest).take 3 = digits ++ rest.take (3 - digits.length) := by
    rw [List.take_append, List.take_of_length_le group.short]
  have stopped : ∀ byte ∈ (rest.take (3 - digits.length)).head?, isDigit byte = false := by
    intro byte member
    rw [List.head?_take] at member
    split_ifs at member
    · cases member
    · exact stop byte member
  have read := read_digits_stop group.digit stopped
  obtain ⟨first, others, rfl⟩ := List.exists_cons_of_ne_nil group.nonempty
  have digit := group.digit first List.mem_cons_self
  have noSign : first ≠ 0x2D ∧ first ≠ 0x2B := by
    constructor <;> rintro rfl <;> cases digit
  have skipped : (first :: others ++ rest).dropWhile isSpace = first :: others ++ rest :=
    List.dropWhile_cons_of_neg (by simp [digit_no_space digit])
  have sign : readSign (first :: others ++ rest.take (3 - (first :: others).length)) =
      (false, first :: others ++ rest.take (3 - (first :: others).length)) := by
    rw [List.cons_append, readSign, if_neg noSign.1, if_neg noSign.2]
  simp only [readField, skipped, Option.getD_some, field, sign, read]
  rw [if_neg (by simp), in_base_digits, List.length_append, Nat.add_sub_cancel,
    List.drop_left]

/-- A text of four groups is scanned as its numbers. -/
theorem scan_ip_quad {text first second third fourth : List Byte}
    (quad : Quad text first second third fourth) :
    scanIp text = [decValue first, decValue second, decValue third, decValue fourth] := by
  have stop : ∀ rest : List Byte, ∀ byte ∈ (point :: rest).head?, isDigit byte = false := by
    rintro rest byte member
    cases member
    rfl
  have ended : readField (some 3) fourth = some ((false, decValue fourth), []) := by
    simpa using @read_field_group fourth [] quad.fourthGroup (by simp)
  have value : ∀ {digits : List Byte}, Group digits →
      unsigned false (decValue digits) = decValue digits := by
    intro digits group
    have small := group.small
    rw [unsigned, if_neg (by omega)]
    rfl
  simp only [scanIp, ipFormat, quad.shape, scanf, read_field_group quad.firstGroup (stop _),
    read_field_group quad.secondGroup (stop _), read_field_group quad.thirdGroup (stop _), ended,
    if_true, List.map_cons, List.map_nil, value quad.firstGroup, value quad.secondGroup,
    value quad.thirdGroup, value quad.fourthGroup]

/-- A text of four groups is parsed as its numbers. -/
theorem parse_ip_quad {text first second third fourth : List Byte}
    (quad : Quad text first second third fourth) :
    parseIpString text = (0, [decValue first, decValue second, decValue third,
      decValue fourth].map (BitVec.ofNat 8)) := by
  have firstSmall := quad.firstGroup.small
  have secondSmall := quad.secondGroup.small
  have thirdSmall := quad.thirdGroup.small
  have fourthSmall := quad.fourthGroup.small
  simp only [parseIpString, scan_ip_quad quad]
  rw [if_neg (by simp), if_neg (by simp; omega)]

/-- The value of its own text when that is valid, and its own default otherwise. -/
def own (para : Mem) (address : Address) : List Byte :=
  if isValidIp (address.text para) then (parseIpString (address.text para)).2 else address.default

/-- Every address has its own value as long as no text is spoilt by the remote one. -/
theorem own_addresses_iff (para : Mem) :
    (∀ address, getIpconfigInfo para address = own para address) ↔
      ∀ address : Address, isValidIp (address.text para) = remoteIllegal para →
        (parseIpString (address.text para)).2 = address.default := by
  refine forall_congr' (fun address => ?_)
  rw [getIpconfigInfo, own]
  cases remoteIllegal para with
  | true =>
    cases isValidIp (address.text para) with
    | true => simpa using eq_comm
    | false => simp
  | false =>
    cases isValidIp (address.text para) with
    | true => simp
    | false => simp

/-- The validator accepts the texts of four groups and the scanner reads their numbers,
but the fate of all four addresses hangs on the text of one. -/
theorem ip_configuration_iff (para : Mem) :
    (∀ text, isValidIp text = true ↔
      ∃ first second third fourth, Quad text first second third fourth) ∧
    (∀ text first second third fourth, Quad text first second third fourth →
      parseIpString text = (0, [decValue first, decValue second, decValue third,
        decValue fourth].map (BitVec.ofNat 8))) ∧
    ((∀ address, getIpconfigInfo para address = own para address) ↔
      ∀ address : Address, isValidIp (address.text para) = remoteIllegal para →
        (parseIpString (address.text para)).2 = address.default) :=
  ⟨valid_ip_iff, fun _ _ _ _ _ quad => parse_ip_quad quad, own_addresses_iff para⟩

/-- Parameters with a local address and no other. -/
def localOnly : Mem := fun address =>
  (ascii "10.0.0.1").getD (address - Address.ipAddr.offset) 0

/-- A valid local address is replaced by its default when there is no remote address. -/
theorem local_address_lost :
    ¬∀ para address, getIpconfigInfo para address = own para address := by
  intro independent
  have lost : getIpconfigInfo localOnly .ipAddr ≠ own localOnly .ipAddr := by decide +kernel
  exact lost (independent localOnly .ipAddr)

end Pyrometer.IpAddresses
