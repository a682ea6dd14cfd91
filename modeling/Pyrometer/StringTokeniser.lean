import Pyrometer.ConsoleCommands

/-!
# The tokeniser of `hq_string.c`

`simple_strtok` keeps the place where it stopped in a static variable and writes a zero over
the delimiter behind each token. Both scans run on fuel, so that an end which is never
reached shows as `none`.

The string lies in memory and has a zero at its end. The delimiters are a constant string
elsewhere, the list of its bytes, which ends with the list if not with a zero before.
-/

namespace Pyrometer.StringTokeniser

open ByteMemory CText ConsoleCommands TextRuns

/-- `simple_strchr`, for the place of the character in the string. -/
def simpleStrchr (str : List Byte) (ch : Byte) : Option Nat :=
  match str with
  | [] => if ch = 0 then some 0 else none
  | byte :: rest =>
      if byte = 0 then if ch = 0 then some 0 else none
      else if byte = ch then some 0
      else (simpleStrchr rest ch).map (· + 1)

/-- The memory, and the static variable `last`. -/
structure Tokeniser where
  memory : Mem
  last : Option Nat

/-- A loop that moves a pointer on while a byte is not zero and meets a test. -/
def scan (stays : Byte → Bool) (memory : Mem) : Nat → Nat → Option Nat
  | 0, _ => none
  | fuel + 1, place =>
      if memory place ≠ 0 ∧ stays (memory place) = true then scan stays memory fuel (place + 1)
      else some place

/-- The loop that moves `start` over delimiters. -/
def skipDelim (delim : List Byte) : Mem → Nat → Nat → Option Nat :=
  scan fun byte => (simpleStrchr delim byte).isSome

/-- The loop that moves `end` to a delimiter. -/
def tokenEnd (delim : List Byte) : Mem → Nat → Nat → Option Nat :=
  scan fun byte => (simpleStrchr delim byte).isNone

/-- `simple_strtok`. -/
def simpleStrtok (fuel : Nat) (str : Option Nat) (delim : List Byte) (state : Tokeniser) :
    Option (Option Nat × Tokeniser) :=
  match str.or state.last with
  | none => some (none, ⟨state.memory, none⟩)
  | some last =>
      if state.memory last = 0 then some (none, ⟨state.memory, some last⟩)
      else do
        let start ← skipDelim delim state.memory fuel last
        if state.memory start = 0 then pure (none, ⟨state.memory, some start⟩)
        else
          let stop ← tokenEnd delim state.memory fuel start
          if state.memory stop = 0 then pure (some start, ⟨state.memory, some stop⟩)
          else pure (some start, ⟨Function.update state.memory stop 0, some (stop + 1)⟩)

/-- The results of a number of calls, the first one with `str` and the others with `NULL`. -/
def results (fuel : Nat) (delim : List Byte) :
    Nat → Option Nat → Tokeniser → Option (List (Option Nat) × Tokeniser)
  | 0, _, state => some ([], state)
  | count + 1, str, state => do
      let (result, state) ← simpleStrtok fuel str delim state
      let (others, state) ← results fuel delim count none state
      pure (result :: others, state)

/-- The delimiters of a string. -/
def isDelim (delim : List Byte) (byte : Byte) : Bool := decide (byte ∈ cString delim)

/-- The tokens of a string: its maximal runs without delimiters. -/
def tokens (delim text : List Byte) : List (List Byte) := runs (isDelim delim) text

/-- `simple_strchr` finds the characters of the string. -/
theorem strchr_found (str : List Byte) {ch : Byte} (nonzero : ch ≠ 0) :
    (simpleStrchr str ch).isSome = isDelim str ch := by
  induction str with
  | nil =>
    rw [simpleStrchr, if_neg nonzero]
    rfl
  | cons byte rest inductionHypothesis =>
    rw [simpleStrchr, isDelim]
    by_cases zero : byte = 0
    · rw [if_pos zero, if_neg nonzero, zero, c_string_zero]
      rfl
    · rw [if_neg zero, c_string_cons zero]
      by_cases same : byte = ch
      · simp [same]
      · rw [if_neg same, Option.isSome_map, inductionHypothesis, isDelim]
        simp [Ne.symm same]

/-- A string starts with its first byte, or with its terminator. -/
theorem ends_head {memory : Mem} {place : Nat} {text : List Byte}
    (ends : Ends memory place text) : memory place = text.headD 0 := by
  cases text with
  | nil => exact ends.ended
  | cons byte rest => exact (head_of_bytes ends.bytes).1

/-- The bytes of a string are not zero. -/
theorem ends_zero {memory : Mem} {place : Nat} {text : List Byte}
    (ends : Ends memory place text) : memory place = 0 ↔ text = [] := by
  rw [ends_head ends]
  cases text with
  | nil => simp
  | cons byte rest =>
    refine iff_of_false ?_ (List.cons_ne_nil byte rest)
    rintro rfl
    exact ends.plain List.mem_cons_self

/-- A scan stops behind the bytes that meet its test. -/
theorem scan_stops {stays : Byte → Bool} {memory : Mem} {place fuel : Nat}
    {front tail : List Byte} (ends : Ends memory place (front ++ tail))
    (stay : ∀ byte ∈ front, stays byte = true)
    (stops : ∀ byte rest, tail = byte :: rest → stays byte = false)
    (enough : front.length < fuel) :
    scan stays memory fuel place = some (place + front.length) := by
  have step : ∀ fuel place, scan stays memory (fuel + 1) place =
      if (memory place != 0 && stays (memory place)) = true
        then scan stays memory fuel (place + 1) else some place := by
    intro fuel place
    simp only [scan, Bool.and_eq_true, bne_iff_ne]
  apply @scan_eq _ (fun byte => byte != 0 && stays byte) memory step front place fuel
    (bytes_append ends.bytes).1 _ _ enough
  · intro byte inside
    have nonzero : byte ≠ 0 := fun zero => ends.plain (zero ▸ List.mem_append_left tail inside)
    rw [stay byte inside, Bool.and_true]
    exact bne_iff_ne.mpr nonzero
  · rw [ends_head ends.rest]
    cases tail with
    | nil => rfl
    | cons byte rest =>
      rw [List.headD_cons, stops byte rest rfl, Bool.and_false]

/-- The bytes of a string are searched for among the delimiters. -/
theorem delim_found {delim : List Byte} {byte : Byte} (nonzero : byte ≠ 0) :
    (simpleStrchr delim byte).isSome = isDelim delim byte ∧
      (simpleStrchr delim byte).isNone = !isDelim delim byte := by
  rw [← strchr_found delim nonzero]
  cases simpleStrchr delim byte with
  | none => exact ⟨rfl, rfl⟩
  | some place => exact ⟨rfl, rfl⟩

/-- The first loop stops behind the delimiters in front of a string. -/
theorem skip_delim_stops {delim : List Byte} {memory : Mem} {place fuel : Nat}
    {front tail : List Byte} (ends : Ends memory place (front ++ tail))
    (delims : ∀ byte ∈ front, isDelim delim byte = true)
    (stops : ∀ byte rest, tail = byte :: rest → isDelim delim byte = false)
    (enough : front.length < fuel) :
    skipDelim delim memory fuel place = some (place + front.length) := by
  have nonzero : ∀ byte ∈ front ++ tail, byte ≠ 0 :=
    fun byte member zero => ends.plain (zero ▸ member)
  apply scan_stops ends _ _ enough
  · intro byte member
    rw [(delim_found (nonzero byte (by simp [member]))).1]
    exact delims byte member
  · rintro byte rest rfl
    rw [(delim_found (nonzero byte (by simp))).1]
    exact stops byte rest rfl

/-- The second loop stops behind the token in front of a string. -/
theorem token_end_stops {delim : List Byte} {memory : Mem} {place fuel : Nat}
    {front tail : List Byte} (ends : Ends memory place (front ++ tail))
    (plain : ∀ byte ∈ front, isDelim delim byte = false)
    (stops : ∀ byte rest, tail = byte :: rest → isDelim delim byte = true)
    (enough : front.length < fuel) :
    tokenEnd delim memory fuel place = some (place + front.length) := by
  have nonzero : ∀ byte ∈ front ++ tail, byte ≠ 0 :=
    fun byte member zero => ends.plain (zero ▸ member)
  apply scan_stops ends _ _ enough
  · intro byte member
    rw [(delim_found (nonzero byte (by simp [member]))).2, plain byte member]
    rfl
  · rintro byte rest rfl
    rw [(delim_found (nonzero byte (by simp))).2, stops byte rest rfl]
    rfl

/-- A call with delimiters only in front of it finds no token. -/
theorem strtok_exhausted {delim : List Byte} {memory : Mem} {place fuel : Nat}
    {front : List Byte} (ends : Ends memory place front)
    (delims : ∀ byte ∈ front, isDelim delim byte = true) (enough : front.length < fuel) :
    simpleStrtok fuel none delim ⟨memory, some place⟩ =
      some (none, ⟨memory, some (place + front.length)⟩) := by
  rw [simpleStrtok, Option.none_or]
  by_cases nothing : memory place = 0
  · obtain rfl := (ends_zero ends).mp nothing
    exact if_pos nothing
  · have whole : Ends memory place (front ++ []) := (List.append_nil front).symm ▸ ends
    have skipped : skipDelim delim memory fuel place = some (place + front.length) :=
      skip_delim_stops whole delims (by simp) enough
    have ended : memory (place + front.length) = 0 := ends.ended
    simp only [if_neg nothing, skipped, Option.bind_eq_bind, Option.bind_some, if_pos ended]
    rfl

/-- A call with a token in front of it, behind delimiters, goes on to the end of the token. -/
theorem strtok_goes {delim : List Byte} {memory : Mem} {place fuel : Nat}
    {front word tail : List Byte} (ends : Ends memory place (front ++ (word ++ tail)))
    (delims : ∀ byte ∈ front, isDelim delim byte = true) (nonempty : word ≠ [])
    (plain : ∀ byte ∈ word, isDelim delim byte = false)
    (stops : ∀ byte rest, tail = byte :: rest → isDelim delim byte = true)
    (enough : (front ++ (word ++ tail)).length < fuel) :
    simpleStrtok fuel none delim ⟨memory, some place⟩ =
      some (some (place + front.length),
        if memory (place + front.length + word.length) = 0 then
          ⟨memory, some (place + front.length + word.length)⟩
        else ⟨Function.update memory (place + front.length + word.length) 0,
          some (place + front.length + word.length + 1)⟩) := by
  have something : word ++ tail ≠ [] := List.append_ne_nil_of_left_ne_nil nonempty tail
  have here : memory place ≠ 0 :=
    (ends_zero ends).not.mpr (List.append_ne_nil_of_right_ne_nil front something)
  have there : memory (place + front.length) ≠ 0 := (ends_zero ends.rest).not.mpr something
  rw [List.length_append, List.length_append] at enough
  have skipped : skipDelim delim memory fuel place = some (place + front.length) := by
    apply skip_delim_stops ends delims _ (by omega)
    intro byte rest same
    cases word with
    | nil => exact absurd rfl nonempty
    | cons first others =>
      obtain ⟨rfl, -⟩ := List.cons.inj same
      exact plain first List.mem_cons_self
  have stopped : tokenEnd delim memory fuel (place + front.length) =
      some (place + front.length + word.length) :=
    token_end_stops ends.rest plain stops (by omega)
  simp only [simpleStrtok, Option.none_or, if_neg here, skipped, Option.bind_eq_bind,
    Option.bind_some, if_neg there, stopped]
  split
  · rfl
  · rfl

/-- A string does not see a byte written in front of it. -/
theorem ends_behind {memory : Mem} {place earlier : Nat} {text : List Byte}
    (ends : Ends memory place text) (before : earlier < place) :
    Ends (Function.update memory earlier 0) place text where
  bytes := (to_list_update _ _ _ _ _ (by omega)).trans ends.bytes
  plain := ends.plain
  ended := by
    rw [Function.update_of_ne (by omega)]
    exact ends.ended

/-- A token that a call returned: it was part of the string, and it is a string now. -/
structure Found (before after : Mem) (place start : Nat) (word : List Byte) : Prop where
  behind : place ≤ start
  held : toList before start word.length = word
  ends : Ends after start word

/-- What calls make of the string at a place: its tokens, and then nothing. -/
structure Tokenised (before : Mem) (place : Nat) (found : List (List Byte)) (count : Nat)
    (outcome : List (Option Nat)) (after : Mem) : Prop where
  results : ∃ starts, outcome = starts.map some ++ List.replicate (count - found.length) none ∧
    List.Forall₂ (Found before after place) starts (found.take count)
  kept : ∀ start word, Ends before start word → start + word.length ≤ place →
    Ends after start word

/-- No call makes nothing. -/
theorem tokenised_start (memory : Mem) (place : Nat) (found : List (List Byte)) :
    Tokenised memory place found 0 [] memory where
  results := ⟨[], by rw [Nat.zero_sub]; rfl, .nil⟩
  kept := fun _ _ ends _ => ends

/-- A call that finds nothing leaves nothing for the calls behind it. -/
theorem tokenised_none {before after : Mem} {place stop count : Nat}
    {outcome : List (Option Nat)} (onward : place ≤ stop)
    (others : Tokenised before stop [] count outcome after) :
    Tokenised before place [] (count + 1) (none :: outcome) after where
  results := by
    obtain ⟨starts, rfl, found⟩ := others.results
    rw [List.take_nil] at found
    cases found
    exact ⟨[], rfl, .nil⟩
  kept := fun start word ends inFront => others.kept start word ends (inFront.trans onward)

/-- A call takes a token off the string, and goes on to what is left of it. -/
structure Takes (delim : List Byte) (before between : Mem) (place start stop : Nat)
    (text word rest : List Byte) : Prop where
  first : tokens delim text = word :: tokens delim rest
  found : Found before between place start word
  inFront : start + word.length ≤ stop
  same : ∀ later len, stop ≤ later → toList between later len = toList before later len
  kept : ∀ earlier other, Ends before earlier other → earlier + other.length ≤ place →
    Ends between earlier other
  left : Ends between stop rest
  fewer : rest.length ≤ text.length

/-- A call that takes a token comes before those that take the others. -/
theorem tokenised_token {delim : List Byte} {before between after : Mem}
    {place start stop count : Nat} {text word rest : List Byte} {outcome : List (Option Nat)}
    (takes : Takes delim before between place start stop text word rest)
    (others : Tokenised between stop (tokens delim rest) count outcome after) :
    Tokenised before place (tokens delim text) (count + 1) (some start :: outcome) after := by
  have onward : place ≤ stop :=
    takes.found.behind.trans ((Nat.le_add_right _ _).trans takes.inFront)
  obtain ⟨starts, rfl, founds⟩ := others.results
  rw [takes.first]
  refine ⟨⟨start :: starts, ?_, ?_⟩, ?_⟩
  · rw [List.length_cons, Nat.add_sub_add_right]
    rfl
  · have first : Found before after place start word :=
      ⟨takes.found.behind, takes.found.held,
        others.kept start word takes.found.ends takes.inFront⟩
    refine .cons first (founds.imp fun later other held => ?_)
    exact ⟨onward.trans held.behind,
      (takes.same later _ held.behind).symm.trans held.held, held.ends⟩
  · intro earlier other ends inFront
    exact others.kept earlier other (takes.kept earlier other ends inFront)
      (inFront.trans onward)

/-- The last token ends with the string, which is left as it is. -/
theorem takes_last {delim : List Byte} {memory : Mem} {place : Nat} {front word : List Byte}
    (ends : Ends memory place (front ++ word))
    (delims : ∀ byte ∈ front, isDelim delim byte = true) (nonempty : word ≠ [])
    (plain : ∀ byte ∈ word, isDelim delim byte = false) :
    Takes delim memory memory place (place + front.length)
      (place + front.length + word.length) (front ++ word) word [] where
  first := (runs_separators front word delims).trans (runs_only nonempty plain)
  found := ⟨Nat.le_add_right _ _, ends.rest.bytes, ends.rest⟩
  inFront := Nat.le_refl _
  same := fun _ _ _ => rfl
  kept := fun _ _ ends _ => ends
  left := @Ends.rest _ _ word [] ((List.append_nil word).symm ▸ ends.rest)
  fewer := Nat.zero_le _

/-- Another token is ended by a zero over the delimiter behind it. -/
theorem takes_next {delim : List Byte} {memory : Mem} {place : Nat}
    {front word more : List Byte} {byte : Byte}
    (ends : Ends memory place (front ++ (word ++ byte :: more)))
    (delims : ∀ byte ∈ front, isDelim delim byte = true) (nonempty : word ≠ [])
    (plain : ∀ byte ∈ word, isDelim delim byte = false) (stops : isDelim delim byte = true) :
    Takes delim memory (Function.update memory (place + front.length + word.length) 0) place
      (place + front.length) (place + front.length + word.length + 1)
      (front ++ (word ++ byte :: more)) word more where
  first := (runs_separators front _ delims).trans (runs_first nonempty plain stops more)
  found := by
    have whole := ends.rest
    have held := (bytes_append whole.bytes).1
    have clean : 0 ∉ word := fun zero => whole.plain (List.mem_append_left _ zero)
    have ended : Ends (Function.update memory (place + front.length + word.length) 0)
        (place + front.length) word :=
      ⟨(to_list_update _ _ _ _ _ (.inr (Nat.le_refl _))).trans held, clean,
        Function.update_self _ _ _⟩
    exact ⟨Nat.le_add_right _ _, held, ended⟩
  inFront := Nat.le_succ _
  same := fun later len beyond => to_list_update _ _ _ _ _ (.inl beyond)
  kept := fun earlier other ends before => ends.cut (by omega)
  left := ends_behind (@Ends.rest _ _ [byte] more ends.rest.rest) (Nat.lt_succ_self _)
  fewer := by
    simp only [List.length_append, List.length_cons]
    omega

/-- A call on a string with a token in it takes the first one. -/
theorem strtok_takes {delim : List Byte} {memory : Mem} {place fuel : Nat}
    {front word tail : List Byte} (ends : Ends memory place (front ++ (word ++ tail)))
    (delims : ∀ byte ∈ front, isDelim delim byte = true) (nonempty : word ≠ [])
    (plain : ∀ byte ∈ word, isDelim delim byte = false)
    (stops : ∀ byte rest, tail = byte :: rest → isDelim delim byte = true)
    (enough : (front ++ (word ++ tail)).length < fuel) :
    ∃ between start stop rest,
      simpleStrtok fuel none delim ⟨memory, some place⟩ =
        some (some start, ⟨between, some stop⟩) ∧
      Takes delim memory between place start stop (front ++ (word ++ tail)) word rest := by
  have call := strtok_goes ends delims nonempty plain stops enough
  cases tail with
  | nil =>
    rw [List.append_nil] at ends ⊢
    rw [if_pos ends.rest.ended] at call
    exact ⟨_, _, _, _, call, takes_last ends delims nonempty plain⟩
  | cons byte more =>
    have nonzero : memory (place + front.length + word.length) ≠ 0 :=
      (ends_zero ends.rest.rest).not.mpr (List.cons_ne_nil byte more)
    rw [if_neg nonzero] at call
    exact ⟨_, _, _, _, call, takes_next ends delims nonempty plain (stops byte more rfl)⟩

/-- The results are the one of the first call and those of the others. -/
theorem results_next {fuel count : Nat} {delim : List Byte} {state next after : Tokeniser}
    {result : Option Nat} {outcome : List (Option Nat)}
    (first : simpleStrtok fuel none delim state = some (result, next))
    (others : results fuel delim count none next = some (outcome, after)) :
    results fuel delim (count + 1) none state = some (result :: outcome, after) := by
  rw [results, first]
  change (results fuel delim count none next).bind _ = _
  rw [others]
  rfl

/-- Calls make tokens of the string that the static variable is at. -/
theorem results_tokenised (delim : List Byte) (fuel count : Nat) (memory : Mem) (place : Nat)
    (text : List Byte) (ends : Ends memory place text) (enough : text.length < fuel) :
    ∃ outcome after, results fuel delim count none ⟨memory, some place⟩ = some (outcome, after) ∧
      Tokenised memory place (tokens delim text) count outcome after.memory := by
  induction count generalizing memory place text with
  | zero => exact ⟨[], ⟨memory, some place⟩, rfl, tokenised_start memory place _⟩
  | succ count inductionHypothesis =>
    obtain ⟨front, behind, rfl, delimiters, inner⟩ :=
      part_and_tail (fun byte => !isDelim delim byte) text
    have delims : ∀ byte ∈ front, isDelim delim byte = true := by simpa using delimiters
    cases behind with
    | nil =>
      have nothing : tokens delim (front ++ []) = tokens delim [] :=
        runs_separators front [] delims
      rw [nothing]
      rw [List.append_nil] at ends enough
      have stops : Ends memory (place + front.length) [] :=
        @Ends.rest _ _ front [] ((List.append_nil front).symm ▸ ends)
      obtain ⟨outcome, after, returned, others⟩ :=
        inductionHypothesis memory (place + front.length) [] stops (Nat.zero_lt_of_lt enough)
      exact ⟨none :: outcome, after, results_next (strtok_exhausted ends delims enough) returned,
        tokenised_none (Nat.le_add_right _ _) others⟩
    | cons first rest =>
      obtain ⟨word, tail, shape, plain, stops⟩ := part_and_tail (isDelim delim) (first :: rest)
      have nonempty : word ≠ [] := by
        rintro rfl
        have other : isDelim delim first = false := by simpa using inner first rest rfl
        exact Bool.false_ne_true (other.symm.trans (stops first rest shape.symm))
      rw [shape] at ends enough ⊢
      obtain ⟨between, start, stop, left, call, takes⟩ :=
        strtok_takes ends delims nonempty plain stops enough
      obtain ⟨outcome, after, returned, others⟩ :=
        inductionHypothesis between stop left takes.left (takes.fewer.trans_lt enough)
      exact ⟨some start :: outcome, after, results_next call returned,
        tokenised_token takes others⟩

/-- The calls on a string return its tokens in their order, each ended by a zero, and then
nothing, for any number of calls. -/
theorem strtok_tokens (delim : List Byte) (fuel count : Nat) (state : Tokeniser) (place : Nat)
    (text : List Byte) (ends : Ends state.memory place text) (enough : text.length < fuel) :
    ∃ starts after, results fuel delim count (some place) state =
        some (starts.map some ++ List.replicate (count - (tokens delim text).length) none, after) ∧
      List.Forall₂ (Found state.memory after.memory place) starts
        ((tokens delim text).take count) := by
  cases count with
  | zero => exact ⟨[], state, by rw [Nat.zero_sub]; rfl, .nil⟩
  | succ count =>
    obtain ⟨outcome, after, returned, tokenised⟩ :=
      results_tokenised delim fuel (count + 1) state.memory place text ends enough
    obtain ⟨starts, rfl, founds⟩ := tokenised.results
    exact ⟨starts, after, returned, founds⟩

/-- Five calls on a string with three tokens. -/
theorem strtok_tokens_three :
    ∃ starts after, results 9 (ascii ",;") 5 (some 2)
        ⟨ofList (ascii "##,ab;,c,d"), some 7⟩ =
        some (starts.map some ++
          List.replicate (5 - (tokens (ascii ",;") (ascii ",ab;,c,d")).length) none, after) ∧
      List.Forall₂ (Found (ofList (ascii "##,ab;,c,d")) after.memory 2) starts
        ((tokens (ascii ",;") (ascii ",ab;,c,d")).take 5) :=
  strtok_tokens (ascii ",;") 9 5 ⟨ofList (ascii "##,ab;,c,d"), some 7⟩ 2 (ascii ",ab;,c,d")
    ⟨by decide, by decide, by decide⟩ (by decide)

/-- Five calls on that string return three tokens. -/
example : tokens (ascii ",;") (ascii ",ab;,c,d") = [ascii "ab", ascii "c", ascii "d"] := by decide

end Pyrometer.StringTokeniser
