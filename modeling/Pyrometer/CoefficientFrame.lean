import Pyrometer.SetFrame

/-!
# Which coefficients an upload assigns

`sys_para.algo` has an array of logarithmic entries by channel and segment, an array of
polynomials by segment and the four arrays of the network, one behind the other. A load
assigns elements of these arrays by the indices that its text names. Two of its limits
are not those of the arrays: four channels are accepted where the array has two, and 65
words where the arrays of weights have 64.

`sys_para` is its bytes. A load that fails returns before it assigns anything.
-/

namespace Pyrometer.CoefficientFrame

open ByteMemory BinaryFloats CText CommandTable InstrumentState AlgorithmCommands
open UppParser CommandExecution CommandEffects SetFrame Instrument

/-- The commands that upload coefficients. -/
inductive CoefCommand where
  | ap
  | nwa
  | nwb
  | nb
  deriving DecidableEq

/-- The row of a command. -/
def CoefCommand.id : CoefCommand → CmdId
  | .ap => .cmdAp
  | .nwa => .cmdNwa
  | .nwb => .cmdNwb
  | .nb => .cmdNb

/-- `LOG_PARA_CH_MAX`. -/
def logParaChMax : Nat := 2

/-- `LOG_PARA_SEG_MAX`. -/
def logParaSegMax : Nat := 2

/-- `POLY_PARA_SEG_MAX`. -/
def polyParaSegMax : Nat := 2

/-- `NETWORK_PARA_NEURON_NUM_W`. -/
def networkParaNeuronNumW : Nat := 64

/-- `NETWORK_PARA_LAYER1_NEURON_NUM_B`. -/
def networkParaLayer1NeuronNumB : Nat := 64

/-- `NETWORK_PARA_LAYER2_NEURON_NUM_B`. -/
def networkParaLayer2NeuronNumB : Nat := 1

/-- An element of an array of `algo_para_t`, by the indices that the source uses. -/
inductive Element where
  | logPara (chIdx segIdx : Nat)
  | polyPara (segIdx : Nat)
  | effectiveW1 (index : Nat)
  | effectiveB1 (index : Nat)
  | effectiveW2 (index : Nat)
  | effectiveB2 (index : Nat)
  deriving DecidableEq

/-- Every index of an element is below the declared size of its array. -/
def Element.Inside : Element → Prop
  | .logPara chIdx segIdx => chIdx < logParaChMax ∧ segIdx < logParaSegMax
  | .polyPara segIdx => segIdx < polyParaSegMax
  | .effectiveW1 index => index < networkParaNeuronNumW
  | .effectiveB1 index => index < networkParaLayer1NeuronNumB
  | .effectiveW2 index => index < networkParaNeuronNumW
  | .effectiveB2 index => index < networkParaLayer2NeuronNumB

instance (element : Element) : Decidable element.Inside := by
  cases element <;> unfold Element.Inside <;> infer_instance

/-- Where an element lies. -/
def Element.offset : Element → Nat
  | .logPara chIdx segIdx =>
      Member.algoLogPara.target.offset + sizeofLogPara * (logParaSegMax * chIdx + segIdx)
  | .polyPara segIdx => Member.algoPolyPara.target.offset + sizeofPolyPara * segIdx
  | .effectiveW1 index => Member.algoEffectiveW1.target.offset + 4 * index
  | .effectiveB1 index => Member.algoEffectiveB1.target.offset + 4 * index
  | .effectiveW2 index => Member.algoEffectiveW2.target.offset + 4 * index
  | .effectiveB2 index => Member.algoEffectiveB2.target.offset + 4 * index

/-- The size of an element. -/
def Element.size : Element → Nat
  | .logPara _ _ => sizeofLogPara
  | .polyPara _ => sizeofPolyPara
  | .effectiveW1 _ | .effectiveB1 _ | .effectiveW2 _ | .effectiveB2 _ => 4

/-- An address lies in an element. -/
def Element.Covers (element : Element) (address : Nat) : Prop :=
  element.offset ≤ address ∧ address < element.offset + element.size

/-- Bytes for the front of an element. -/
structure Assignment where
  element : Element
  bytes : List Byte

/-- The copy of an assignment. -/
def assign (para : Mem) (assignment : Assignment) : Mem :=
  overlay para (ofList assignment.bytes) assignment.element.offset assignment.bytes.length

/-- The header of an algorithm text: the type that it names and the text behind it. -/
def algoHeader (raw : List Byte) : Option (Int × List Byte) :=
  match strtok comma (cString raw) 0 with
  | none => none
  | some (_, first) =>
      match strtok comma (cString raw) (first + 1) with
      | none => none
      | some (token, second) =>
          let type := token.getD 0 0
          if type < 0x30#8 ∨ 0x32#8 < type then none
          else some (atoi token, algoBody raw first second)

/-- The index that a token of a text writes. -/
def indexAt (input : List Byte) (place : Nat) : Nat :=
  (atoi ((tokens comma input).getD place [])).toNat

/-- `log_para[ch_idx][seg_idx]`. -/
def logElement (input : List Byte) : Element := .logPara (indexAt input 0) (indexAt input 1)

/-- `poly_para[seg_idx]`. -/
def polyElement (input : List Byte) : Element := .polyPara (indexAt input 0)

/-- What an algorithm text assigns, if it is loaded. -/
def algoAssignments (raw : List Byte) : Option (List Assignment) :=
  if raw.length ≤ algoHdrSize then none
  else
    match algoHeader raw with
    | none => none
    | some (type, input) =>
        if type = 0 then (parseLogPara input).map (fun write => [⟨logElement input, write.2⟩])
        else if type = 1 then
          (parsePolyPara input).map (fun write => [⟨polyElement input, write.2⟩])
        else if type = 2 then some []
        else none

/-- The element that a word of a network text goes to. -/
def networkElement : CoefCommand → Nat → Element
  | .nwa, index => .effectiveW1 index
  | .nwb, index => .effectiveW2 index
  | _, index =>
      if index < networkParaLayer1NeuronNumB then .effectiveB1 index
      else .effectiveB2 (index - networkParaLayer1NeuronNumB)

/-- The assignments of some words of a network text from one on. -/
def wordAssignments (command : CoefCommand) : Nat → List Nat → List Assignment
  | _, [] => []
  | index, word :: rest =>
      ⟨networkElement command index, leBytes 4 word⟩ :: wordAssignments command (index + 1) rest

/-- What a text assigns, if it is loaded. -/
def assignments (command : CoefCommand) (raw : List Byte) : Option (List Assignment) :=
  if command = .ap then algoAssignments raw
  else if raw.length ≤ algoHdrSize then none
  else (networkWords (cString raw)).map (wordAssignments command 0)

/-- `algo_load` and `algo_network_para_load`: whether they succeed, and the parameters they
leave. -/
def load (command : CoefCommand) (raw : List Byte) (para : Mem) : Bool × Mem :=
  match assignments command raw with
  | none => (false, para)
  | some all => (true, all.foldl assign para)

/-- The elements that a text is for. -/
def addressed (command : CoefCommand) (raw : List Byte) : List Element :=
  match command with
  | .ap =>
      match algoHeader raw with
      | none => []
      | some (type, input) =>
          if type = 0 then [logElement input] else if type = 1 then [polyElement input] else []
  | .nwa => (List.range networkParaNeuronNumW).map .effectiveW1
  | .nwb => (List.range networkParaNeuronNumW).map .effectiveW2
  | .nb =>
      (List.range networkParaLayer1NeuronNumB).map .effectiveB1 ++
        (List.range networkParaLayer2NeuronNumB).map .effectiveB2

/-- An upload addresses what its text is for: a failure changes nothing, a success changes
only elements of an array that the text is for, and every index is inside its array. -/
structure AddressesOne (command : CoefCommand) (raw : List Byte) (para : Mem) : Prop where
  refused : (load command raw para).1 = false → (load command raw para).2 = para
  framed : (load command raw para).1 = true → ∀ address,
    (load command raw para).2 address ≠ para address →
      ∃ element ∈ addressed command raw, element.Inside ∧ element.Covers address
  inside : ∀ all, assignments command raw = some all →
    ∀ assignment ∈ all, assignment.element.Inside

/-- A complete text of type 0 for a channel that the array does not have. -/
def ChannelBeyond (raw : List Byte) : Prop :=
  algoHdrSize < raw.length ∧ ∃ input, algoHeader raw = some (0, input) ∧
    (tokens comma input).length = 8 ∧ logParaChMax ≤ indexAt input 0 ∧
      atoi ((tokens comma input).getD 0 []) < 4 ∧
      0 ≤ atoi ((tokens comma input).getD 1 []) ∧ atoi ((tokens comma input).getD 1 []) < 2

/-- A complete text of 65 words. -/
def WordBeyond (raw : List Byte) : Prop :=
  algoHdrSize < raw.length ∧ ∃ count words, tokens blank (cString raw) = count :: words ∧
    atoi count = 65 ∧ words.length = 65

/-- A text that writes behind the array it is for. -/
def Beyond : CoefCommand → List Byte → Prop
  | .ap, raw => ChannelBeyond raw
  | .nwa, raw | .nwb, raw => WordBeyond raw
  | .nb, _ => False

/-- `algo_load` by the header of the text. -/
theorem algo_load_header (raw : List Byte) :
    algoLoad raw =
      if raw.length ≤ algoHdrSize then none
      else
        match algoHeader raw with
        | none => none
        | some (type, input) =>
            if type = 0 then (parseLogPara input).map some
            else if type = 1 then (parsePolyPara input).map some
            else if type = 2 then some none
            else none := by
  rw [algoLoad, algoHeader]
  by_cases short : raw.length ≤ algoHdrSize
  · rw [if_pos short, if_pos short]
  rw [if_neg short, if_neg short]
  cases strtok comma (cString raw) 0 with
  | none => rfl
  | some one =>
    simp only
    cases strtok comma (cString raw) (one.2 + 1) with
    | none => rfl
    | some two =>
      simp only
      by_cases unknown : two.1.getD 0 0 < 0x30#8 ∨ 0x32#8 < two.1.getD 0 0
      · rw [if_pos unknown, if_pos unknown]
      · rw [if_neg unknown, if_neg unknown]

/-- A logarithmic text is accepted exactly when it is complete and its indices are below the
limits that the parser has. -/
theorem parse_log_accepted (input : List Byte) :
    (parseLogPara input).isSome = true ↔ (tokens comma input).length = 8 ∧
      (0 ≤ atoi ((tokens comma input).getD 0 []) ∧ atoi ((tokens comma input).getD 0 []) < 4 ∧
        0 ≤ atoi ((tokens comma input).getD 1 []) ∧
        atoi ((tokens comma input).getD 1 []) < 2) := by
  unfold parseLogPara
  split
  case h_1 chIdx segIdx threshold base index base2 index2 check read =>
    rw [read]
    simp only [List.length_cons, List.length_nil, List.getD_cons_zero, List.getD_cons_succ,
      true_and]
    split_ifs with range
    · exact iff_of_true rfl range
    · exact iff_of_false (by simp) range
  case h_2 _ other =>
    refine iff_of_false (by simp) (fun complete => ?_)
    obtain ⟨length, _⟩ := complete
    match read : tokens comma input, length with
    | [chIdx, segIdx, threshold, base, index, base2, index2, check], _ =>
      exact other _ _ _ _ _ _ _ _ read

/-- What a logarithmic text is copied to. -/
theorem parse_log_element {input : List Byte} {write : Nat × List Byte}
    (parsed : parseLogPara input = some write) :
    write.1 = (logElement input).offset ∧ write.2.length = (logElement input).size ∧
      indexAt input 1 < logParaSegMax := by
  unfold parseLogPara at parsed
  split at parsed
  case h_1 chIdx segIdx threshold base index base2 index2 check read =>
    split_ifs at parsed with range
    obtain rfl := Option.some.inj parsed
    refine ⟨?_, by simp [coefBytes, logElement, Element.size, sizeofLogPara], ?_⟩
    · simp only [logElement, indexAt, read, Element.offset, List.getD_cons_zero,
        List.getD_cons_succ, logParaSegMax]
    · simp only [indexAt, read, List.getD_cons_zero, List.getD_cons_succ, logParaSegMax]
      omega
  case h_2 => cases parsed

/-- What a text of a polynomial is copied to. -/
theorem parse_poly_element {input : List Byte} {write : Nat × List Byte}
    (parsed : parsePolyPara input = some write) :
    write.1 = (polyElement input).offset ∧ write.2.length ≤ (polyElement input).size ∧
      (polyElement input).Inside := by
  have fits := (parse_poly_place parsed).1
  unfold parsePolyPara at parsed
  split at parsed
  case h_1 segIdx polyTerm subtrahend rest read =>
    split_ifs at parsed with range
    obtain ⟨coefs, _, rfl⟩ := Option.map_eq_some_iff.mp parsed
    refine ⟨?_, fits, ?_⟩
    · simp only [polyElement, indexAt, read, Element.offset, List.getD_cons_zero]
    · simp only [polyElement, indexAt, read, Element.Inside, List.getD_cons_zero, polyParaSegMax]
      omega
  case h_2 => cases parsed

/-- What an algorithm text assigns, by its type. -/
theorem algo_assignments_cases {raw : List Byte} {all : List Assignment}
    (loads : algoAssignments raw = some all) :
    algoHdrSize < raw.length ∧ ∃ type input, algoHeader raw = some (type, input) ∧
      ((type = 0 ∧ ∃ write, parseLogPara input = some write ∧ all = [⟨logElement input, write.2⟩]) ∨
        (type = 1 ∧ ∃ write, parsePolyPara input = some write ∧
          all = [⟨polyElement input, write.2⟩]) ∨
        (type = 2 ∧ all = [])) := by
  rw [algoAssignments] at loads
  split_ifs at loads with short
  refine ⟨Nat.lt_of_not_le short, ?_⟩
  cases header : algoHeader raw with
  | none =>
    rw [header] at loads
    cases loads
  | some found =>
    obtain ⟨type, input⟩ := found
    rw [header] at loads
    simp only at loads
    refine ⟨type, input, rfl, ?_⟩
    split_ifs at loads with log poly matrix
    · obtain ⟨write, parsed, rfl⟩ := Option.map_eq_some_iff.mp loads
      exact Or.inl ⟨log, write, parsed, rfl⟩
    · obtain ⟨write, parsed, rfl⟩ := Option.map_eq_some_iff.mp loads
      exact Or.inr (Or.inl ⟨poly, write, parsed, rfl⟩)
    · exact Or.inr (Or.inr ⟨matrix, (Option.some.inj loads).symm⟩)

/-- Words behind each other are one block of bytes. Induct on the words. -/
theorem assign_words (command : CoefCommand) (base index : Nat) (words : List Nat) (para : Mem)
    (places : ∀ place, index ≤ place → place < index + words.length →
      (networkElement command place).offset = base + 4 * place) :
    (wordAssignments command index words).foldl assign para =
      overlay para (ofList (wordBytes words)) (base + 4 * index) (wordBytes words).length := by
  induction words generalizing index para with
  | nil =>
    funext address
    exact (overlay_outside _ _ _ _ _ (Nat.lt_or_ge address (base + 4 * index))).symm
  | cons word rest inductionHypothesis =>
    have here : (networkElement command index).offset = base + 4 * index :=
      places index (Nat.le_refl index) (by simp)
    have later : base + 4 * (index + 1) = base + 4 * index + (leBytes 4 word).length := by
      rw [le_bytes_length]
      omega
    calc (wordAssignments command index (word :: rest)).foldl assign para
        = (wordAssignments command (index + 1) rest).foldl assign
            (assign para ⟨networkElement command index, leBytes 4 word⟩) := rfl
      _ = overlay (assign para ⟨networkElement command index, leBytes 4 word⟩)
            (ofList (wordBytes rest)) (base + 4 * (index + 1)) (wordBytes rest).length := by
          apply inductionHypothesis
          intro place low high
          apply places place (by omega)
          simp only [List.length_cons]
          omega
      _ = overlay para (ofList (leBytes 4 word ++ wordBytes rest)) (base + 4 * index)
            (leBytes 4 word ++ wordBytes rest).length := by
          rw [assign, here, later]
          exact overlay_append para (leBytes 4 word) (wordBytes rest) (base + 4 * index)

/-- The assignments of words in two parts. -/
theorem word_assignments_append (command : CoefCommand) (index : Nat) (first second : List Nat) :
    wordAssignments command index (first ++ second) =
      wordAssignments command index first ++
        wordAssignments command (index + first.length) second := by
  induction first generalizing index with
  | nil => rfl
  | cons word rest inductionHypothesis =>
    have moved : index + (word :: rest).length = index + 1 + rest.length := by
      simp only [List.length_cons]
      omega
    rw [List.cons_append, wordAssignments, inductionHypothesis, moved]
    rfl

/-- Every assignment of some words is to the element of its index. -/
theorem word_assignment_element {command : CoefCommand} {index : Nat} {words : List Nat}
    {assignment : Assignment} (listed : assignment ∈ wordAssignments command index words) :
    ∃ place, index ≤ place ∧ place < index + words.length ∧
      assignment.element = networkElement command place ∧ assignment.bytes.length = 4 := by
  induction words generalizing index with
  | nil => cases listed
  | cons word rest inductionHypothesis =>
    rcases List.mem_cons.mp listed with rfl | later
    · exact ⟨index, Nat.le_refl index, by simp, rfl, le_bytes_length 4 word⟩
    · obtain ⟨place, low, high, element, length⟩ := inductionHypothesis later
      refine ⟨place, by omega, ?_, element, length⟩
      simp only [List.length_cons]
      omega

/-- Every element of some words is assigned. -/
theorem word_element_assigned (command : CoefCommand) (index : Nat) (words : List Nat)
    (place : Nat) (inside : place < words.length) :
    ∃ assignment ∈ wordAssignments command index words,
      assignment.element = networkElement command (index + place) := by
  induction words generalizing index place with
  | nil => cases inside
  | cons word rest inductionHypothesis =>
    cases place with
    | zero => exact ⟨_, List.mem_cons_self, rfl⟩
    | succ place =>
      obtain ⟨assignment, listed, element⟩ :=
        inductionHypothesis (index + 1) place (Nat.lt_of_succ_lt_succ inside)
      refine ⟨assignment, List.mem_cons_of_mem _ listed, element.trans ?_⟩
      exact congrArg (networkElement command) (by omega)

/-- Copies one after the other into the parameters of an instrument. -/
theorem store_all_para (instrument : Instrument) (writes : List (Nat × List Byte)) :
    (storeAll instrument writes).pmm.sysPara =
      writes.foldl (fun para write => overlay para (ofList write.2) write.1 write.2.length)
        instrument.pmm.sysPara := by
  induction writes generalizing instrument with
  | nil => rfl
  | cons write rest inductionHypothesis => exact inductionHypothesis _

/-- The words of a network text are assigned where the command copies them to. -/
theorem network_writes_assignments (command : CoefCommand) (network : command ≠ .ap)
    (words : List Nat) (count : words.length = 64 ∨ words.length = 65) (para : Mem) :
    (networkWrites command.id words).foldl
        (fun para write => overlay para (ofList write.2) write.1 write.2.length) para =
      (wordAssignments command 0 words).foldl assign para := by
  cases command with
  | ap => exact absurd rfl network
  | nwa => exact (assign_words .nwa _ 0 words para (fun _ _ _ => rfl)).symm
  | nwb => exact (assign_words .nwb _ 0 words para (fun _ _ _ => rfl)).symm
  | nb =>
    have cut : (words.take 64).length = 64 := by
      rw [List.length_take]
      omega
    have parts : wordAssignments .nb 0 words =
        wordAssignments .nb 0 (words.take 64) ++ wordAssignments .nb 64 (words.drop 64) := by
      have split := word_assignments_append .nb 0 (words.take 64) (words.drop 64)
      rwa [List.take_append_drop, cut] at split
    have lower : ∀ place, 0 ≤ place → place < 0 + (words.take 64).length →
        (networkElement .nb place).offset =
          Member.algoEffectiveB1.target.offset + 4 * place := by
      intro place _ inside
      have below : place < networkParaLayer1NeuronNumB := by
        rw [cut] at inside
        exact Nat.lt_of_lt_of_eq inside (Nat.zero_add 64)
      simp only [networkElement, if_pos below, Element.offset]
    have upper : ∀ place, 64 ≤ place → place < 64 + (words.drop 64).length →
        (networkElement .nb place).offset =
          Member.algoEffectiveB2.target.offset - 256 + 4 * place := by
      intro place low _
      have above : ¬place < networkParaLayer1NeuronNumB := Nat.not_lt.mpr low
      have room : 256 ≤ Member.algoEffectiveB2.target.offset := by decide
      have limit : networkParaLayer1NeuronNumB = 64 := rfl
      simp only [networkElement, if_neg above, Element.offset]
      omega
    have start : Member.algoEffectiveB2.target.offset - 256 + 4 * 64 =
        Member.algoEffectiveB2.target.offset := by decide
    rw [parts, List.foldl_append, assign_words .nb _ 0 _ para lower,
      assign_words .nb _ 64 _ _ upper, start, Nat.mul_zero, Nat.add_zero]
    simp only [networkWrites, CoefCommand.id, reduceCtorEq, if_false, List.foldl_cons,
      List.foldl_nil]

/-- A load is what the command does to the parameters. -/
theorem set_effect_load (around : Surroundings) (parse : Parse) (instrument : Instrument)
    (command : CoefCommand) :
    (setEffect around parse instrument command.id).1 =
        (load command (raw parse) instrument.pmm.sysPara).1 ∧
      (setEffect around parse instrument command.id).2.pmm.sysPara =
        (load command (raw parse) instrument.pmm.sysPara).2 := by
  have coef : isCoefCmd command.id = true := by cases command <;> rfl
  rw [set_effect_coef around parse instrument command.id coef]
  by_cases algo : command = .ap
  · subst algo
    have id : CoefCommand.ap.id = .cmdAp := rfl
    simp only [load, assignments, id, coefLoad, if_true, algoAssignments,
      algo_load_header (raw parse)]
    split_ifs with short
    · exact ⟨rfl, rfl⟩
    cases header : algoHeader (raw parse) with
    | none => exact ⟨rfl, rfl⟩
    | some found =>
      obtain ⟨type, input⟩ := found
      simp only
      split_ifs with log poly matrix
      · cases parsed : parseLogPara input with
        | none => exact ⟨rfl, rfl⟩
        | some write =>
          refine ⟨rfl, (store_all_para instrument [write]).trans ?_⟩
          rw [List.foldl_cons, List.foldl_nil, (parse_log_element parsed).1]
          rfl
      · cases parsed : parsePolyPara input with
        | none => exact ⟨rfl, rfl⟩
        | some write =>
          refine ⟨rfl, (store_all_para instrument [write]).trans ?_⟩
          rw [List.foldl_cons, List.foldl_nil, (parse_poly_element parsed).1]
          rfl
      · exact ⟨rfl, rfl⟩
      · exact ⟨rfl, rfl⟩
  · have network : command.id ≠ .cmdAp := by
      cases command <;> first | exact absurd rfl algo | decide
    simp only [load, assignments, if_neg algo, coefLoad, if_neg network, algoNetworkParaLoad]
    split_ifs with short
    · exact ⟨rfl, rfl⟩
    cases read : networkWords (cString (raw parse)) with
    | none => exact ⟨rfl, rfl⟩
    | some words =>
      refine ⟨rfl, (store_all_para instrument _).trans ?_⟩
      exact network_writes_assignments command algo words (network_words_count read) _

/-- Assignments change only the bytes that they copy. Induct on the assignments. -/
theorem assigned_changed {all : List Assignment} {para : Mem} {address : Nat}
    (changed : all.foldl assign para address ≠ para address) :
    ∃ assignment ∈ all, assignment.element.offset ≤ address ∧
      address < assignment.element.offset + assignment.bytes.length := by
  induction all generalizing para with
  | nil => exact absurd rfl changed
  | cons assignment rest inductionHypothesis =>
    by_cases here : assignment.element.offset ≤ address ∧
        address < assignment.element.offset + assignment.bytes.length
    · exact ⟨assignment, List.mem_cons_self, here⟩
    · have kept : assign para assignment address = para address :=
        overlay_outside _ _ _ _ _ (by omega)
      have later : rest.foldl assign (assign para assignment) address ≠
          assign para assignment address := by
        rw [kept]
        exact changed
      obtain ⟨other, listed, range⟩ := inductionHypothesis later
      exact ⟨other, List.mem_cons_of_mem _ listed, range⟩

/-- An element inside its array is one of those that the command is for. -/
theorem network_element_addressed {command : CoefCommand} (network : command ≠ .ap)
    (raw : List Byte) (index : Nat) (inside : (networkElement command index).Inside) :
    networkElement command index ∈ addressed command raw := by
  cases command with
  | ap => exact absurd rfl network
  | nwa => exact List.mem_map_of_mem (List.mem_range.mpr inside)
  | nwb => exact List.mem_map_of_mem (List.mem_range.mpr inside)
  | nb =>
    simp only [networkElement] at inside ⊢
    split_ifs at inside ⊢ with first
    · exact List.mem_append_left _ (List.mem_map_of_mem (List.mem_range.mpr inside))
    · exact List.mem_append_right _ (List.mem_map_of_mem (List.mem_range.mpr inside))

/-- What is assigned is part of an element that the text is for, if its index is inside the
array. -/
theorem assignment_addressed {command : CoefCommand} {raw : List Byte} {all : List Assignment}
    (loads : assignments command raw = some all) {assignment : Assignment}
    (listed : assignment ∈ all) :
    assignment.bytes.length ≤ assignment.element.size ∧
      (assignment.element.Inside → assignment.element ∈ addressed command raw) := by
  rw [assignments] at loads
  split_ifs at loads with algo short
  · subst algo
    obtain ⟨_, type, input, header, log | poly | matrix⟩ := algo_assignments_cases loads
    · obtain ⟨rfl, write, parsed, rfl⟩ := log
      obtain rfl := List.mem_singleton.mp listed
      exact ⟨(parse_log_element parsed).2.1.le, fun _ => by simp [addressed, header]⟩
    · obtain ⟨rfl, write, parsed, rfl⟩ := poly
      obtain rfl := List.mem_singleton.mp listed
      exact ⟨(parse_poly_element parsed).2.1, fun _ => by simp [addressed, header]⟩
    · obtain ⟨_, rfl⟩ := matrix
      cases listed
  · obtain ⟨words, _, rfl⟩ := Option.map_eq_some_iff.mp loads
    obtain ⟨place, _, _, element, length⟩ := word_assignment_element listed
    rw [element, length]
    refine ⟨?_, network_element_addressed algo raw place⟩
    have size : (networkElement command place).size = 4 := by
      cases command <;> simp only [networkElement] <;> first | rfl | (split_ifs <;> rfl)
    exact size.ge

/-- Loads meet what is asked of them exactly when they assign inside the arrays. -/
theorem addresses_one_inside (command : CoefCommand) (raw : List Byte) (para : Mem) :
    AddressesOne command raw para ↔
      ∀ all, assignments command raw = some all →
        ∀ assignment ∈ all, assignment.element.Inside := by
  refine ⟨AddressesOne.inside, fun inside => ⟨?_, ?_, inside⟩⟩
  · intro failed
    cases loads : assignments command raw with
    | none => simp only [load, loads]
    | some all => simp [load, loads] at failed
  · intro succeeded address changed
    cases loads : assignments command raw with
    | none => simp [load, loads] at succeeded
    | some all =>
      simp only [load, loads] at changed
      obtain ⟨assignment, listed, low, high⟩ := assigned_changed changed
      obtain ⟨fits, member⟩ := assignment_addressed loads listed
      have within := inside all loads assignment listed
      exact ⟨assignment.element, member within, within, low, by omega⟩

/-- An algorithm text assigns inside the arrays exactly when its channel is one of them. -/
theorem algo_inside_iff (raw : List Byte) :
    (∀ all, assignments .ap raw = some all → ∀ assignment ∈ all, assignment.element.Inside) ↔
      ¬ChannelBeyond raw := by
  constructor
  · rintro inside ⟨long, input, header, complete, high, below, low, segment⟩
    have index : 0 ≤ atoi ((tokens comma input).getD 0 []) := by
      have shown : logParaChMax ≤ (atoi ((tokens comma input).getD 0 [])).toNat := high
      simp only [logParaChMax] at shown
      omega
    obtain ⟨write, parsed⟩ := Option.isSome_iff_exists.mp
      ((parse_log_accepted input).mpr ⟨complete, index, below, low, segment⟩)
    have loads : assignments .ap raw = some [⟨logElement input, write.2⟩] := by
      simp only [assignments, if_true, algoAssignments, if_neg (Nat.not_le.mpr long), header,
        parsed, Option.map_some]
    exact absurd (inside _ loads _ (List.mem_singleton_self _)).1 (Nat.not_lt.mpr high)
  · intro within all loads assignment listed
    obtain ⟨long, type, input, header, log | poly | matrix⟩ := algo_assignments_cases loads
    · obtain ⟨rfl, write, parsed, rfl⟩ := log
      obtain rfl := List.mem_singleton.mp listed
      obtain ⟨complete, _, below, low, segment⟩ :=
        (parse_log_accepted input).mp (Option.isSome_iff_exists.mpr ⟨write, parsed⟩)
      refine ⟨Nat.lt_of_not_le (fun high => within ?_), (parse_log_element parsed).2.2⟩
      exact ⟨long, input, header, complete, high, below, low, segment⟩
    · obtain ⟨_, write, parsed, rfl⟩ := poly
      obtain rfl := List.mem_singleton.mp listed
      exact (parse_poly_element parsed).2.2
    · obtain ⟨_, rfl⟩ := matrix
      cases listed

/-- The words of a text that is complete. -/
theorem network_words_of_tokens {input count : List Byte} {words : List (List Byte)}
    (read : tokens blank input = count :: words) (size : atoi count = 65)
    (complete : words.length = 65) : networkWords input = some (words.map strtoul16) := by
  have range : 64 ≤ atoi count ∧ atoi count ≤ 65 ∧ words.length = (atoi count).toNat := by
    rw [size]
    exact ⟨by decide, by decide, complete⟩
  rw [networkWords, read]
  exact if_pos range

/-- A text with a 65th word has the tokens of one. -/
theorem tokens_of_network_words {input : List Byte} {values : List Nat}
    (read : networkWords input = some values) (many : values.length = 65) :
    ∃ count words, tokens blank input = count :: words ∧ atoi count = 65 ∧ words.length = 65 := by
  rw [networkWords] at read
  cases split : tokens blank input with
  | nil =>
    rw [split] at read
    cases read
  | cons count words =>
    rw [split] at read
    simp only at read
    split_ifs at read with range
    obtain rfl := Option.some.inj read
    rw [List.length_map] at many
    exact ⟨count, words, rfl, by omega, many⟩

/-- A text for an array of weights assigns inside it exactly when it has no 65th word. -/
theorem weights_inside_iff (command : CoefCommand) (network : command ≠ .ap)
    (bound : ∀ index, (networkElement command index).Inside ↔ index < networkParaNeuronNumW)
    (raw : List Byte) :
    (∀ all, assignments command raw = some all → ∀ assignment ∈ all, assignment.element.Inside) ↔
      ¬WordBeyond raw := by
  constructor
  · rintro inside ⟨long, count, words, read, size, complete⟩
    have loads : assignments command raw =
        some (wordAssignments command 0 (words.map strtoul16)) := by
      rw [assignments, if_neg network, if_neg (Nat.not_le.mpr long),
        network_words_of_tokens read size complete, Option.map_some]
    obtain ⟨assignment, listed, element⟩ :=
      word_element_assigned command 0 (words.map strtoul16) 64 (by simp [complete])
    have within := inside _ loads assignment listed
    rw [element] at within
    exact absurd ((bound _).mp within) (by decide)
  · intro fits all loads assignment listed
    rw [assignments, if_neg network] at loads
    split_ifs at loads with short
    obtain ⟨words, read, rfl⟩ := Option.map_eq_some_iff.mp loads
    obtain ⟨place, _, high, element, _⟩ := word_assignment_element listed
    rw [element]
    apply (bound place).mpr
    rcases network_words_count read with exact64 | many
    · rw [exact64] at high
      exact Nat.lt_of_lt_of_eq high (Nat.zero_add 64)
    · exact absurd ⟨Nat.lt_of_not_le short, tokens_of_network_words read many⟩ fits

/-- The biases have room for every text that is accepted. -/
theorem biases_inside (raw : List Byte) (all : List Assignment)
    (loads : assignments .nb raw = some all) (assignment : Assignment) (listed : assignment ∈ all) :
    assignment.element.Inside := by
  rw [assignments, if_neg (by decide)] at loads
  split_ifs at loads with short
  obtain ⟨words, read, rfl⟩ := Option.map_eq_some_iff.mp loads
  obtain ⟨place, _, high, element, _⟩ := word_assignment_element listed
  have count := network_words_count read
  have goes : networkElement .nb place =
      if place < networkParaLayer1NeuronNumB then .effectiveB1 place
      else .effectiveB2 (place - networkParaLayer1NeuronNumB) := rfl
  rw [element, goes]
  split_ifs with first
  · exact first
  · simp only [networkParaLayer1NeuronNumB] at first
    simp only [Element.Inside, networkParaLayer1NeuronNumB, networkParaLayer2NeuronNumB]
    omega

/-- An upload addresses what its text is for exactly when the text neither names a channel
that the array does not have nor has a word too many. -/
theorem addresses_one_iff (command : CoefCommand) (raw : List Byte) (para : Mem) :
    AddressesOne command raw para ↔ ¬Beyond command raw := by
  refine (addresses_one_inside command raw para).trans ?_
  cases command with
  | ap => exact algo_inside_iff raw
  | nwa => exact weights_inside_iff .nwa (by decide) (fun _ => Iff.rfl) raw
  | nwb => exact weights_inside_iff .nwb (by decide) (fun _ => Iff.rfl) raw
  | nb => exact iff_of_true (biases_inside raw) not_false

/-- Coefficients of the third channel. -/
def thirdChannel : List Byte := ascii "1,0,2,0,0,0,0,0,0,0"

/-- Coefficients of the third channel are copied over the first polynomial. -/
theorem third_channel_beyond : ¬AddressesOne .ap thirdChannel (fun _ => 0xFF) := by
  intro meets
  have loads : (assignments .ap thirdChannel).map (List.map Assignment.element) =
      some [.logPara 2 0] := by
    decide +kernel
  obtain ⟨all, assigned, elements⟩ := Option.map_eq_some_iff.mp loads
  obtain ⟨assignment, listed, element⟩ :=
    List.mem_map.mp (elements ▸ List.mem_singleton_self (Element.logPara 2 0))
  have inside := meets.inside all assigned assignment listed
  rw [element] at inside
  exact absurd inside (by decide)

end Pyrometer.CoefficientFrame
