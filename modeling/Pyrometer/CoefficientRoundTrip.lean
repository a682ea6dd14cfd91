import Pyrometer.BufferSafety
import Pyrometer.CoefficientFrame
import Pyrometer.SetGetAgreement

/-!
# Network coefficients from one device to another

A query for coefficients of the network answers with their number and the words of the
arrays in hexadecimal digits, and the same text uploads them. A word is read back as it
was written whatever its bits are, since it is never looked at as a number with a point.
The query for the biases takes its last word from the second of their arrays.
-/

namespace Pyrometer.CoefficientRoundTrip

open ByteMemory CText CommandTable AlgorithmCommands BufferSafety SetGetAgreement CoefficientFrame

/-- The commands of the network. -/
inductive NetworkCommand where
  | nwa
  | nwb
  | nb

/-- The upload of a command. -/
def NetworkCommand.coef : NetworkCommand → CoefCommand
  | .nwa => .nwa
  | .nwb => .nwb
  | .nb => .nb

/-- A hexadecimal digit as it is printed. -/
def hexChar (digit : Nat) : Byte := toUpper (BitVec.ofNat 8 (Nat.digitChar digit).toNat)

/-- A printed digit is read as itself, and is neither a space nor a sign nor the mark of a
prefix. -/
theorem hex_char_plain (digit : Nat) (small : digit < 16) :
    hexDigit? (hexChar digit) = some digit ∧ isSpace (hexChar digit) = false ∧
      hexChar digit ≠ 0x2D ∧ hexChar digit ≠ 0x2B ∧ hexChar digit ≠ 0x78 ∧
      hexChar digit ≠ 0x58 ∧ hexChar digit ≠ 0 ∧ hexChar digit ≠ blank := by
  revert digit
  decide

/-- Zeros in front of a number do not count. -/
theorem in_base_zeros (base count : Nat) (digits : List Nat) :
    inBase base (List.replicate count 0 ++ digits) = inBase base digits := by
  induction count with
  | zero => rfl
  | succ count inductionHypothesis =>
    rw [List.replicate_succ, List.cons_append]
    refine Eq.trans ?_ inductionHypothesis
    simp [inBase]

/-- The printed digits of a number write it. Induct on the number, whose last digit is its
rest by sixteen. -/
theorem hexadecimal_digits (value : Nat) :
    ∃ digits, (∀ digit ∈ digits, digit < 16) ∧
      (hexadecimal value).map toUpper = digits.map hexChar ∧ inBase 16 digits = value := by
  induction value using Nat.strong_induction_on with
  | h value inductionHypothesis =>
    by_cases small : value < 16
    · refine ⟨[value], by simpa using small, ?_, by simp [inBase]⟩
      rw [hexadecimal, Nat.toDigits_of_lt_base small]
      rfl
    · have less : value / 16 < value := Nat.div_lt_self (by omega) (by decide)
      obtain ⟨digits, below, printed, written⟩ := inductionHypothesis (value / 16) less
      refine ⟨digits ++ [value % 16], ?_, ?_, ?_⟩
      · intro digit member
        rcases List.mem_append.mp member with front | last
        · exact below digit front
        · rw [List.mem_singleton.mp last]
          exact Nat.mod_lt value (by decide)
      · rw [hexadecimal, List.map_map] at printed
        rw [hexadecimal, Nat.toDigits_of_base_le (by decide) (Nat.le_of_not_lt small),
          List.map_append, List.map_append, List.map_map, printed, List.map_append]
        rfl
      · calc inBase 16 (digits ++ [value % 16])
            = inBase 16 digits * 16 + value % 16 := by simp [inBase]
          _ = value := by rw [written, Nat.div_add_mod']

/-- A printed word has digits that write it. -/
theorem hex_word_digits (value : Nat) :
    ∃ digits, (∀ digit ∈ digits, digit < 16) ∧ hexWord value = digits.map hexChar ∧
      inBase 16 digits = value := by
  obtain ⟨digits, below, printed, written⟩ := hexadecimal_digits value
  refine ⟨List.replicate (8 - digits.length) 0 ++ digits, ?_, ?_, ?_⟩
  · intro digit member
    rcases List.mem_append.mp member with zero | own
    · rw [List.eq_of_mem_replicate zero]
      decide
    · exact below digit own
  · rw [hexWord, zeroPadded, printed, List.length_map, List.map_append, List.map_replicate]
    rfl
  · rw [in_base_zeros, written]

/-- Printed digits are read to their end. -/
theorem read_hex_digits (digits : List Nat) (below : ∀ digit ∈ digits, digit < 16) :
    readDigits hexDigit? (digits.map hexChar) = (digits, []) := by
  induction digits with
  | nil => rfl
  | cons digit rest inductionHypothesis =>
    obtain ⟨small, others⟩ := List.forall_mem_cons.mp below
    simp only [List.map_cons, readDigits, (hex_char_plain digit small).1,
      inductionHypothesis others]

/-- Printed digits have no prefix. -/
theorem skip_hex_prefix_digits (digits : List Nat) (below : ∀ digit ∈ digits, digit < 16) :
    skipHexPrefix (digits.map hexChar) = digits.map hexChar := by
  match digits, below with
  | [], _ => rfl
  | [_], _ => rfl
  | [_, _], _ => rfl
  | leading :: mark :: next :: rest, below =>
    obtain ⟨_, _, _, _, lower, upper, _⟩ := hex_char_plain mark (below mark (by simp))
    simp only [List.map_cons, skipHexPrefix, lower, upper, or_self, false_and, and_false,
      if_false]

/-- `strtoul` reads a printed word back. -/
theorem strtoul_hex_word (value : Nat) (small : value < 2 ^ 32) :
    strtoul16 (hexWord value) = value := by
  obtain ⟨digits, below, printed, written⟩ := hex_word_digits value
  have length := hex_word_length value small
  rw [printed, List.length_map] at length
  cases digits with
  | nil => cases length
  | cons digit rest =>
    obtain ⟨_, noSpace, minus, plus, _⟩ := hex_char_plain digit (below digit (by simp))
    have trimmed : ((digit :: rest).map hexChar).dropWhile isSpace =
        (digit :: rest).map hexChar :=
      List.dropWhile_cons_of_neg (by simp [noSpace])
    have unsign : readSign ((digit :: rest).map hexChar) =
        (false, (digit :: rest).map hexChar) := by
      simp only [List.map_cons, readSign, if_neg minus, if_neg plus]
    have read : readInteger true ((digit :: rest).map hexChar) = some (false, value) := by
      simp only [readInteger, trimmed, unsign, if_true,
        skip_hex_prefix_digits (digit :: rest) below, read_hex_digits (digit :: rest) below,
        written, reduceCtorEq, if_false]
    rw [printed, strtoul16, read]
    simp only [unsigned, if_neg (Nat.not_le.mpr small), Bool.false_eq_true, if_false]

/-- No byte of a printed word is a separator or a zero. -/
theorem hex_word_plain (value : Nat) :
    ∀ byte ∈ hexWord value, byte ≠ 0 ∧ byte ≠ blank := by
  obtain ⟨digits, below, printed, _⟩ := hex_word_digits value
  rw [printed]
  intro byte member
  obtain ⟨digit, listed, rfl⟩ := List.mem_map.mp member
  have plain := hex_char_plain digit (below digit listed)
  exact ⟨plain.2.2.2.2.2.2.1, plain.2.2.2.2.2.2.2⟩

/-- Words with a separator in front of each are read one by one. -/
theorem tokens_separated (delimiter : Byte) (first : List Byte) (words : List (List Byte))
    (plain : ∀ word ∈ first :: words, word ≠ [] ∧ delimiter ∉ word) :
    tokens delimiter (first ++ words.flatMap (delimiter :: ·)) = first :: words := by
  induction words generalizing first with
  | nil =>
    have own := plain first (by simp)
    have whole : first.splitOn delimiter = [first] := by
      apply List.splitOnP_eq_singleton
      intro byte member
      simpa using fun same : byte = delimiter => own.2 (same ▸ member)
    simp [tokens, whole, own.1]
  | cons word rest inductionHypothesis =>
    have own := plain first (by simp)
    have later := inductionHypothesis word (fun other member => plain other (by simp [member]))
    have whole : first.splitOn delimiter = [first] := by
      apply List.splitOnP_eq_singleton
      intro byte member
      simpa using fun same : byte = delimiter => own.2 (same ▸ member)
    have split : (first ++ delimiter :: (word ++ rest.flatMap (delimiter :: ·))).splitOn delimiter =
        first.splitOn delimiter ++ (word ++ rest.flatMap (delimiter :: ·)).splitOn delimiter :=
      List.splitOnP_append_cons _ _ (by simp)
    calc tokens delimiter (first ++ (word :: rest).flatMap (delimiter :: ·))
        = [first] ++ tokens delimiter (word ++ rest.flatMap (delimiter :: ·)) := by
          rw [List.flatMap_cons, List.cons_append, tokens, split, List.filter_append, whole,
            tokens]
          simp [own.1]
      _ = first :: word :: rest := by rw [later, List.singleton_append]

/-- The number of words of a text. -/
def NetworkCommand.count : NetworkCommand → Nat
  | .nwa | .nwb => networkParaNeuronNumW
  | .nb => networkParaLayer1NeuronNumB + networkParaLayer2NeuronNumB

/-- The words that a device has for a command. -/
def storedWords (command : NetworkCommand) (para : Mem) : List Nat :=
  (List.range command.count).map (fun index =>
    littleEndian (toList para (networkElement command.coef index).offset 4))

/-- The words for the biases are those of the first array and the one of the second. -/
theorem stored_biases (para : Mem) :
    storedWords .nb para =
      (List.range 64).map (fun index =>
          littleEndian (toList para (Member.algoEffectiveB1.target.offset + 4 * index) 4)) ++
        (List.range 1).map (fun index =>
          littleEndian (toList para (Member.algoEffectiveB2.target.offset + 4 * index) 4)) := by
  have range : List.range (NetworkCommand.count .nb) =
      List.range 64 ++ (List.range 1).map (64 + ·) := by decide
  rw [storedWords, range, List.map_append, List.map_map]
  refine congrArg₂ (· ++ ·) (List.map_congr_left (fun index member => ?_)) rfl
  have below : index < networkParaLayer1NeuronNumB := List.mem_range.mp member
  simp only [networkElement, NetworkCommand.coef, if_pos below, Element.offset]

/-- A text of a network command is the number of its words and the words. -/
theorem network_text (command : NetworkCommand) (para : Mem) :
    algoNetworkParaGet command.coef.id para =
      decimal command.count ++
        ((storedWords command para).map hexWord).flatMap (blank :: ·) := by
  have words : ∀ start count, wordsText para start count =
      (((List.range count).map (fun index =>
        littleEndian (toList para (start + 4 * index) 4))).map hexWord).flatMap (blank :: ·) := by
    intro start count
    simp only [wordsText, List.flatMap_map]
  cases command with
  | nwa =>
    simp only [algoNetworkParaGet, NetworkCommand.coef, CoefCommand.id, if_true, words]
    rfl
  | nwb =>
    simp only [algoNetworkParaGet, NetworkCommand.coef, CoefCommand.id, if_true, reduceCtorEq,
      if_false, words]
    rfl
  | nb =>
    simp only [algoNetworkParaGet, NetworkCommand.coef, CoefCommand.id, reduceCtorEq,
      if_false, words]
    have number : decimal (NetworkCommand.count .nb) = ascii "65" := by decide
    rw [stored_biases, List.map_append, List.flatMap_append, number, List.append_assoc]

/-- The length of a text: a number of two digits, and nine bytes for each word. -/
theorem network_text_size (command : NetworkCommand) (para : Mem) :
    (algoNetworkParaGet command.coef.id para).length = 2 + 9 * command.count := by
  have two : (ascii "64").length = 2 ∧ (ascii "65").length = 2 := by decide
  cases command with
  | nwa =>
    simp only [algoNetworkParaGet, NetworkCommand.coef, CoefCommand.id, if_true,
      List.length_append, words_text_length, two]
    rfl
  | nwb =>
    simp only [algoNetworkParaGet, NetworkCommand.coef, CoefCommand.id, if_true, reduceCtorEq,
      if_false, List.length_append, words_text_length, two]
    rfl
  | nb =>
    simp only [algoNetworkParaGet, NetworkCommand.coef, CoefCommand.id, reduceCtorEq, if_false,
      List.length_append, words_text_length, two]
    rfl

/-- The words of a device are words. -/
theorem stored_word_lt (command : NetworkCommand) (para : Mem) :
    ∀ word ∈ storedWords command para, word < 2 ^ 32 := by
  intro word member
  obtain ⟨index, _, rfl⟩ := List.mem_map.mp member
  have bound := little_endian_lt (toList para (networkElement command.coef index).offset 4)
  rwa [to_list_length] at bound

/-- A text is read as the words that it was written from. -/
theorem network_words_text (command : NetworkCommand) (para : Mem) :
    networkWords (cString (algoNetworkParaGet command.coef.id para)) =
      some (storedWords command para) := by
  have number : atoi (decimal command.count) = command.count ∧
      (∀ byte ∈ decimal command.count, byte ≠ 0 ∧ byte ≠ blank) ∧
      decimal command.count ≠ [] := by
    cases command <;> decide
  have range : 64 ≤ command.count ∧ command.count ≤ 65 := by
    cases command <;> decide
  have string : cString (algoNetworkParaGet command.coef.id para) =
      algoNetworkParaGet command.coef.id para := by
    apply (c_string_eq_iff _).mpr
    rw [network_text]
    intro member
    rcases List.mem_append.mp member with first | later
    · exact (number.2.1 0 first).1 rfl
    · obtain ⟨text, listed, inside⟩ := List.mem_flatMap.mp later
      obtain ⟨word, _, rfl⟩ := List.mem_map.mp listed
      rcases List.mem_cons.mp inside with separator | digit
      · exact absurd separator (by decide)
      · exact (hex_word_plain word 0 digit).1 rfl
  have read : tokens blank (algoNetworkParaGet command.coef.id para) =
      decimal command.count :: (storedWords command para).map hexWord := by
    rw [network_text]
    apply tokens_separated
    intro text listed
    rcases List.mem_cons.mp listed with rfl | later
    · exact ⟨number.2.2, fun member => (number.2.1 blank member).2 rfl⟩
    · obtain ⟨word, stored, rfl⟩ := List.mem_map.mp later
      refine ⟨fun empty => ?_, fun member => (hex_word_plain word blank member).2 rfl⟩
      have length := hex_word_length word (stored_word_lt command para word stored)
      rw [empty] at length
      cases length
  have complete : ((storedWords command para).map hexWord).length = command.count := by
    simp [storedWords]
  have values : ((storedWords command para).map hexWord).map strtoul16 =
      storedWords command para := by
    rw [List.map_map]
    calc (storedWords command para).map (strtoul16 ∘ hexWord)
        = (storedWords command para).map id :=
          List.map_congr_left (fun word member =>
            strtoul_hex_word word (stored_word_lt command para word member))
      _ = storedWords command para := List.map_id _
  rw [string, networkWords, read]
  simp only [number.1, complete, values]
  exact if_pos ⟨by omega, by omega, by omega⟩

/-- The ranges of the arrays of a command. -/
def ranges : NetworkCommand → List (Nat × Nat)
  | .nwa => [(Member.algoEffectiveW1.target.offset, 256)]
  | .nwb => [(Member.algoEffectiveW2.target.offset, 256)]
  | .nb => [(Member.algoEffectiveB1.target.offset, 256), (Member.algoEffectiveB2.target.offset, 4)]

/-- Ranges copied from a source. -/
def copied (source : Mem) (ranges : List (Nat × Nat)) (target : Mem) : Mem :=
  ranges.foldl (fun para range =>
    overlay para (ofList (toList source range.1 range.2)) range.1 range.2) target

/-- The words of an array are its bytes. Induct on their number. -/
theorem word_bytes_stored (para : Mem) (base count : Nat) :
    wordBytes ((List.range count).map (fun index =>
      littleEndian (toList para (base + 4 * index) 4))) = toList para base (4 * count) := by
  induction count with
  | zero => rfl
  | succ count inductionHypothesis =>
    have last : wordBytes [littleEndian (toList para (base + 4 * count) 4)] =
        toList para (base + 4 * count) 4 := by
      have bytes := le_bytes_little_endian (toList para (base + 4 * count) 4)
      rw [to_list_length] at bytes
      rw [wordBytes, List.flatMap_singleton, bytes]
    calc wordBytes ((List.range (count + 1)).map (fun index =>
            littleEndian (toList para (base + 4 * index) 4)))
        = wordBytes ((List.range count).map (fun index =>
              littleEndian (toList para (base + 4 * index) 4))) ++
            wordBytes [littleEndian (toList para (base + 4 * count) 4)] := by
          rw [List.range_succ, List.map_append, wordBytes, List.flatMap_append]
          rfl
      _ = toList para base (4 * count) ++ toList para (base + 4 * count) 4 := by
          rw [inductionHypothesis, last]
      _ = toList para base (4 * (count + 1)) := (to_list_append para base (4 * count) 4).symm

/-- A device that loads the words of another one copies the ranges of their arrays. -/
theorem stored_words_copied (command : NetworkCommand) (source target : Mem) :
    (wordAssignments command.coef 0 (storedWords command source)).foldl assign target =
      copied source (ranges command) target := by
  have network : command.coef ≠ .ap := by cases command <;> decide
  have count : (storedWords command source).length = 64 ∨
      (storedWords command source).length = 65 := by
    cases command <;> simp [storedWords, NetworkCommand.count, networkParaNeuronNumW,
      networkParaLayer1NeuronNumB, networkParaLayer2NeuronNumB]
  rw [← network_writes_assignments command.coef network _ count target]
  cases command with
  | nwa =>
    have bytes := word_bytes_stored source Member.algoEffectiveW1.target.offset 64
    have words : wordBytes (storedWords .nwa source) =
        toList source Member.algoEffectiveW1.target.offset 256 := bytes
    simp only [networkWrites, NetworkCommand.coef, CoefCommand.id, if_true, words,
      List.foldl_cons, List.foldl_nil, to_list_length, copied, ranges]
  | nwb =>
    have bytes := word_bytes_stored source Member.algoEffectiveW2.target.offset 64
    have words : wordBytes (storedWords .nwb source) =
        toList source Member.algoEffectiveW2.target.offset 256 := bytes
    simp only [networkWrites, NetworkCommand.coef, CoefCommand.id, if_true, reduceCtorEq,
      if_false, words, List.foldl_cons, List.foldl_nil, to_list_length, copied, ranges]
  | nb =>
    have first := word_bytes_stored source Member.algoEffectiveB1.target.offset 64
    have second := word_bytes_stored source Member.algoEffectiveB2.target.offset 1
    have cut : ((List.range 64).map (fun index => littleEndian
        (toList source (Member.algoEffectiveB1.target.offset + 4 * index) 4))).length = 64 := by
      rw [List.length_map, List.length_range]
    simp only [networkWrites, NetworkCommand.coef, CoefCommand.id, reduceCtorEq, if_false,
      stored_biases, List.take_left' cut, List.drop_left' cut, first, second, List.foldl_cons,
      List.foldl_nil, to_list_length, copied, ranges]

/-- A byte that is already equal stays so. Induct on the ranges. -/
theorem copied_kept {source target : Mem} {address : Nat} (all : List (Nat × Nat))
    (same : target address = source address) :
    copied source all target address = source address := by
  induction all generalizing target with
  | nil => exact same
  | cons range rest inductionHypothesis =>
    apply inductionHypothesis
    by_cases inside : range.1 ≤ address ∧ address < range.1 + range.2
    · exact overlay_to_list_agree target source range.1 range.2 address inside.1 inside.2
    · exact (overlay_outside _ _ _ _ _ (by omega)).trans same

/-- Every copied range is equal afterwards. Induct on the ranges. -/
theorem copied_agree (source target : Mem) (all : List (Nat × Nat)) :
    ∀ range ∈ all, Agree (copied source all target) source range.1 range.2 := by
  induction all generalizing target with
  | nil =>
    intro range member
    cases member
  | cons first rest inductionHypothesis =>
    intro range member
    rcases List.mem_cons.mp member with rfl | later
    · intro address low high
      exact copied_kept rest (overlay_to_list_agree target source range.1 range.2 address low high)
    · exact inductionHypothesis _ range later

/-- Ranges copied onto themselves stay. -/
theorem copied_own (source : Mem) (all : List (Nat × Nat)) : copied source all source = source := by
  induction all with
  | nil => rfl
  | cons range rest inductionHypothesis =>
    rw [copied, List.foldl_cons, overlay_own]
    exact inductionHypothesis

/-- Every element that a command is for lies in one of its ranges. -/
theorem addressed_in_range (command : NetworkCommand) (raw : List Byte) (element : Element)
    (listed : element ∈ addressed command.coef raw) :
    ∃ range ∈ ranges command,
      range.1 ≤ element.offset ∧ element.offset + element.size ≤ range.1 + range.2 := by
  have weights : ∀ {index}, index ∈ List.range networkParaNeuronNumW → index < 64 :=
    List.mem_range.mp
  cases command with
  | nwa =>
    obtain ⟨index, member, rfl⟩ := List.mem_map.mp listed
    have below := weights member
    exact ⟨_, List.mem_singleton_self _, Nat.le_add_right _ _, by
      simp only [Element.offset, Element.size]
      omega⟩
  | nwb =>
    obtain ⟨index, member, rfl⟩ := List.mem_map.mp listed
    have below := weights member
    exact ⟨_, List.mem_singleton_self _, Nat.le_add_right _ _, by
      simp only [Element.offset, Element.size]
      omega⟩
  | nb =>
    rcases List.mem_append.mp listed with first | second
    · obtain ⟨index, member, rfl⟩ := List.mem_map.mp first
      have below := weights member
      exact ⟨_, List.mem_cons_self, Nat.le_add_right _ _, by
        simp only [Element.offset, Element.size]
        omega⟩
    · obtain ⟨index, member, rfl⟩ := List.mem_map.mp second
      have below : index < 1 := List.mem_range.mp member
      exact ⟨_, List.mem_cons_of_mem _ (List.mem_singleton_self _), Nat.le_add_right _ _, by
        simp only [Element.offset, Element.size]
        omega⟩

/-- A text fits the data of a packet with its terminator, its upload leaves the device that
wrote it as it was, and every other device gets the arrays of that device. -/
theorem network_round_trip (command : NetworkCommand) (source target : Mem) :
    (algoNetworkParaGet command.coef.id source).length + 1 ≤ parseDataMaxLen ∧
      load command.coef (algoNetworkParaGet command.coef.id source) source = (true, source) ∧
      (load command.coef (algoNetworkParaGet command.coef.id source) target).1 = true ∧
      ∀ element ∈ addressed command.coef (algoNetworkParaGet command.coef.id source),
        Agree (load command.coef (algoNetworkParaGet command.coef.id source) target).2 source
          element.offset element.size := by
  have network : command.coef ≠ .ap := by cases command <;> decide
  have length := network_text_size command source
  have range : 64 ≤ command.count ∧ command.count ≤ 65 := by cases command <;> decide
  have loads : ∀ device, load command.coef (algoNetworkParaGet command.coef.id source) device =
      (true, copied source (ranges command) device) := by
    intro device
    have long : ¬(algoNetworkParaGet command.coef.id source).length ≤ algoHdrSize := by
      rw [length, algoHdrSize]
      omega
    simp only [load, assignments, if_neg network, if_neg long, network_words_text,
      Option.map_some, stored_words_copied]
  refine ⟨?_, ?_, ?_, ?_⟩
  · rw [length, parseDataMaxLen]
    omega
  · rw [loads, copied_own]
  · rw [loads]
  · intro element listed
    obtain ⟨range, member, low, high⟩ := addressed_in_range command _ element listed
    rw [loads]
    exact agree_mono (copied_agree source target (ranges command) range member) low high

end Pyrometer.CoefficientRoundTrip
