import Pyrometer.CText
import Pyrometer.Occurrences

/-!
# The two substring searches

`string_search` compares what is left of a string with the pattern by `string_comp`, which
takes both to their ends. `mem_search_s` compares as many bytes as the pattern has by
`mem_comp`, in a buffer of a given length.

A string is the list of its bytes and ends with the list, if not with a zero before. A read
outside a buffer shows as `none`. Lengths are not cut to the range of `int`.
-/

namespace Pyrometer.SubstringSearch

open ByteMemory CText Occurrences

/-- `string_comp` -/
def stringComp : List Byte → List Byte → Int
  | [], str2 => if str2.headD 0 = 0 then 0 else -1
  | one :: _, [] => if one = 0 then 0 else 1
  | one :: rest, other :: others =>
      if one = 0 then if other = 0 then 0 else -1
      else if other = 0 then 1
      else if one < other then -1
      else if other < one then 1
      else stringComp rest others

/-- `string_search`, for the place of `pos` in the string. -/
def stringSearch (str sub : List Byte) : Option Nat :=
  match str with
  | [] => none
  | byte :: rest =>
      if byte = 0 then none
      else if stringComp (byte :: rest) sub = 0 then some 0
      else (stringSearch rest sub).map (· + 1)

/-- `string_length` -/
def stringLength (str : List Byte) : Nat := (cString str).length

/-- `mem_comp`, for the places of both pointers. -/
def memComp (mem1 mem2 : List Byte) : Nat → Nat → Nat → Option Int
  | 0, _, _ => some 0
  | len + 1, ptr1, ptr2 => do
      let one ← mem1[ptr1]?
      let other ← mem2[ptr2]?
      if one < other then pure (-1)
      else if other < one then pure 1
      else memComp mem1 mem2 len (ptr1 + 1) (ptr2 + 1)

/-- The loop of `mem_search_s`. The length that is left is not zero when the loop goes on,
unless the length of the string is. -/
def memSearchLoop (buff : List Byte) (str : List Byte) : Nat → Nat → Option (Option Nat)
  | 0, pos =>
      if stringLength str ≤ 0 then do
        let order ← memComp buff str (stringLength str) pos 0
        pure (if order = 0 then some pos else none)
      else pure none
  | len + 1, pos =>
      if stringLength str ≤ len + 1 then do
        let order ← memComp buff str (stringLength str) pos 0
        if order = 0 then pure (some pos) else memSearchLoop buff str len (pos + 1)
      else pure none

/-- `mem_search_s`, for a place in the buffer. -/
def memSearchS (buff : List Byte) (len : Nat) (str : List Byte) : Option (Option Nat) :=
  memSearchLoop buff str len 0

/-- A string has ended where there is no byte, or a zero. -/
theorem string_ended (str : List Byte) : str.headD 0 = 0 ↔ cString str = [] := by
  cases str with
  | nil => exact iff_of_true rfl rfl
  | cons byte rest =>
    rw [List.headD_cons]
    by_cases zero : byte = 0
    · subst zero
      exact iff_of_true rfl (c_string_zero rest)
    · rw [c_string_cons zero]
      exact iff_of_false zero (List.cons_ne_nil byte _)

/-- What `string_comp` answers where the first string has ended. -/
theorem comp_ended (str : List Byte) :
    (if str.headD 0 = 0 then (0 : Int) else -1) = 0 ↔ [] = cString str := by
  rw [eq_comm (a := []), ← string_ended]
  split
  case isTrue ended => exact iff_of_true rfl ended
  case isFalse other => exact iff_of_false (by decide) other

/-- `string_comp` finds strings equal exactly when they are. -/
theorem string_comp_zero (str1 str2 : List Byte) :
    stringComp str1 str2 = 0 ↔ cString str1 = cString str2 := by
  induction str1 generalizing str2 with
  | nil => exact comp_ended str2
  | cons one rest inductionHypothesis =>
    by_cases zero : one = 0
    · subst zero
      rw [c_string_zero]
      cases str2 with
      | nil => exact comp_ended []
      | cons other others => exact comp_ended (other :: others)
    rw [c_string_cons zero]
    cases str2 with
    | nil =>
      rw [stringComp, if_neg zero]
      exact iff_of_false (by decide) (List.cons_ne_nil one _)
    | cons other others =>
      rw [stringComp, if_neg zero]
      by_cases ended : other = 0
      · rw [if_pos ended, ended, c_string_zero]
        exact iff_of_false (by decide) (List.cons_ne_nil one _)
      rw [if_neg ended, c_string_cons ended, List.cons.injEq]
      split
      case isTrue less => exact iff_of_false (by decide) fun same => (BitVec.ne_of_lt less) same.1
      case isFalse notLess =>
        split
        case isTrue greater =>
          exact iff_of_false (by decide) fun same => (BitVec.ne_of_lt greater) same.1.symm
        case isFalse notGreater =>
          have same : one = other := BitVec.le_antisymm (BitVec.not_lt.mp notGreater)
            (BitVec.not_lt.mp notLess)
          exact (inductionHypothesis others).trans (and_iff_right same).symm

/-- `string_search` finds the pattern at the end of the string. -/
theorem string_search_ending (str sub : List Byte) (nonempty : cString sub ≠ []) :
    stringSearch str sub = ending (cString sub) (cString str) := by
  induction str with
  | nil => exact (ending_nil nonempty).symm
  | cons byte rest inductionHypothesis =>
    rw [stringSearch]
    by_cases zero : byte = 0
    · subst zero
      rw [if_pos rfl, c_string_zero]
      exact (ending_nil nonempty).symm
    rw [if_neg zero, c_string_cons zero, inductionHypothesis]
    by_cases whole : stringComp (byte :: rest) sub = 0
    · have same := (string_comp_zero _ _).mp whole
      rw [if_pos whole, ← c_string_cons zero, same]
      exact ending_self.symm
    · have other := (string_comp_zero _ _).not.mp whole
      rw [if_neg whole]
      exact (ending_cons (c_string_cons zero rest ▸ Ne.symm other)).symm

/-- `mem_comp` reads inside both memories and finds them equal exactly when they are. -/
theorem mem_comp_zero {mem1 mem2 : List Byte} {len ptr1 ptr2 : Nat}
    (room1 : ptr1 + len ≤ mem1.length) (room2 : ptr2 + len ≤ mem2.length) :
    ∃ order, memComp mem1 mem2 len ptr1 ptr2 = some order ∧
      (order = 0 ↔ (mem1.drop ptr1).take len = (mem2.drop ptr2).take len) := by
  induction len generalizing ptr1 ptr2 with
  | zero => exact ⟨0, rfl, iff_of_true rfl rfl⟩
  | succ len inductionHypothesis =>
    have here1 : ptr1 < mem1.length := by omega
    have here2 : ptr2 < mem2.length := by omega
    obtain ⟨order, returned, zero⟩ :=
      @inductionHypothesis (ptr1 + 1) (ptr2 + 1) (by omega) (by omega)
    rw [List.drop_eq_getElem_cons here1, List.drop_eq_getElem_cons here2, List.take_succ_cons,
      List.take_succ_cons, List.cons.injEq, ← zero, memComp, List.getElem?_eq_getElem here1,
      List.getElem?_eq_getElem here2]
    simp only [Option.bind_eq_bind, Option.bind_some]
    split
    case isTrue less =>
      exact ⟨-1, rfl, iff_of_false (by decide) fun same => BitVec.ne_of_lt less same.1⟩
    case isFalse notLess =>
      split
      case isTrue greater =>
        exact ⟨1, rfl, iff_of_false (by decide) fun same => BitVec.ne_of_lt greater same.1.symm⟩
      case isFalse notGreater =>
        have same := BitVec.le_antisymm (BitVec.not_lt.mp notGreater) (BitVec.not_lt.mp notLess)
        exact ⟨order, returned, (and_iff_right same).symm⟩

/-- `mem_comp` finds the pattern where it starts what is left of the buffer. -/
theorem mem_comp_pattern (buff str : List Byte) {pos : Nat}
    (room : pos + stringLength str ≤ buff.length) :
    ∃ order, memComp buff str (stringLength str) pos 0 = some order ∧
      (order = 0 ↔ cString str <+: buff.drop pos) := by
  have leading : cString str <+: str := List.takeWhile_prefix _
  have within : 0 + stringLength str ≤ str.length := by
    rw [Nat.zero_add]
    exact c_string_length_le str
  obtain ⟨order, compared, zero⟩ := mem_comp_zero room within
  have whole : str.take (stringLength str) = cString str :=
    (List.prefix_iff_eq_take.mp leading).symm
  rw [List.drop_zero, whole] at zero
  exact ⟨order, compared, zero.trans (eq_comm.trans List.prefix_iff_eq_take.symm)⟩

/-- `mem_search_s` reads inside the buffer and finds the first place of the pattern. -/
theorem mem_search_first (buff str : List Byte) (nonempty : cString str ≠ []) (len pos : Nat)
    (room : pos + len = buff.length) :
    ∃ result, memSearchLoop buff str len pos = some (result.map (pos + ·)) ∧
      First (cString str) (buff.drop pos) result := by
  have positive : 0 < stringLength str := List.length_pos_iff.mpr nonempty
  induction len generalizing pos with
  | zero =>
    rw [memSearchLoop, if_neg (Nat.not_le.mpr positive)]
    refine ⟨none, rfl, first_short ?_⟩
    rw [List.length_drop, ← room, Nat.add_zero, Nat.sub_self]
    exact positive
  | succ len inductionHypothesis =>
    rw [memSearchLoop]
    split
    case isTrue fits =>
      obtain ⟨order, compared, zero⟩ := @mem_comp_pattern buff str pos (by omega)
      rw [compared]
      simp only [Option.bind_eq_bind, Option.bind_some]
      by_cases starts : cString str <+: buff.drop pos
      · rw [if_pos (zero.mpr starts)]
        exact ⟨some 0, rfl, first_here starts⟩
      · rw [if_neg (zero.not.mpr starts)]
        obtain ⟨result, returned, first⟩ := inductionHypothesis (pos + 1) (by omega)
        rw [List.drop_eq_getElem_cons (by omega)] at starts ⊢
        refine ⟨result.map (· + 1), ?_, first_later starts first⟩
        rw [returned, Option.map_map]
        congr 2
        funext place
        exact Nat.add_right_comm pos 1 place
    case isFalse short =>
      refine ⟨none, rfl, first_short ?_⟩
      rw [List.length_drop, ← room, Nat.add_sub_cancel_left]
      exact Nat.lt_of_not_le short

/-- What both searches are for: the first place of the pattern, in the string and in the
buffer, the same where the buffer has no zero. -/
structure Searches (text buffer pattern : List Byte) : Prop where
  string : First (cString pattern) (cString text) (stringSearch text pattern)
  memory : ∃ result, memSearchS buffer buffer.length pattern = some result ∧
    First (cString pattern) buffer result
  agree : 0 ∉ buffer →
    memSearchS buffer buffer.length pattern = some (stringSearch buffer pattern)

/-- `mem_search_s` finds the first place in every buffer. -/
theorem mem_search_right (buffer pattern : List Byte) (nonempty : cString pattern ≠ []) :
    ∃ result, memSearchS buffer buffer.length pattern = some result ∧
      First (cString pattern) buffer result := by
  obtain ⟨result, returned, first⟩ :=
    mem_search_first buffer pattern nonempty buffer.length 0 (Nat.zero_add _)
  have same : result.map (0 + ·) = result := by
    rw [funext Nat.zero_add]
    exact Option.map_id'
  exact ⟨result, returned.trans (congrArg some same), first⟩

/-- `string_search` finds the first place exactly when the pattern occurs at the end only. -/
theorem string_search_right (text pattern : List Byte) (nonempty : cString pattern ≠ []) :
    First (cString pattern) (cString text) (stringSearch text pattern) ↔
      AtEnd (cString pattern) (cString text) := by
  rw [string_search_ending text pattern nonempty]
  exact ending_first nonempty

/-- The searches do what they are for exactly when the pattern occurs at the end of the text
only, and of the buffer if that has no zero. -/
theorem searches_iff (text buffer pattern : List Byte) (nonempty : cString pattern ≠ []) :
    Searches text buffer pattern ↔
      AtEnd (cString pattern) (cString text) ∧
        (0 ∉ buffer → AtEnd (cString pattern) buffer) := by
  obtain ⟨result, returned, first⟩ := mem_search_right buffer pattern nonempty
  have inBuffer : 0 ∉ buffer →
      (result = stringSearch buffer pattern ↔ AtEnd (cString pattern) buffer) := by
    intro plain
    have right := string_search_right buffer pattern nonempty
    rw [(c_string_eq_iff buffer).mpr plain] at right
    rw [← right]
    constructor
    · rintro rfl
      exact first
    · exact first_unique first
  constructor
  · intro searches
    refine ⟨(string_search_right text pattern nonempty).mp searches.string, fun plain => ?_⟩
    have same := searches.agree plain
    rw [returned] at same
    exact (inBuffer plain).mp (Option.some.inj same)
  · rintro ⟨atEnd, inside⟩
    refine ⟨(string_search_right text pattern nonempty).mpr atEnd, ⟨result, returned, first⟩, ?_⟩
    intro plain
    rw [returned]
    exact congrArg some ((inBuffer plain).mpr (inside plain))

/-- A pattern that is found, at the end of the text and of the buffer. -/
theorem searches_at_end : Searches (ascii "abcab") (ascii "xab") (ascii "cab") ↔
    AtEnd (cString (ascii "cab")) (cString (ascii "abcab")) ∧
      (0 ∉ ascii "xab" → AtEnd (cString (ascii "cab")) (ascii "xab")) :=
  searches_iff (ascii "abcab") (ascii "xab") (ascii "cab") (by decide)

/-- The first letter of a text is not found in it. -/
theorem start_not_found : ¬ Searches (ascii "abc") (ascii "abc") (ascii "a") := by
  intro searches
  have missed : stringSearch (ascii "abc") (ascii "a") = none := by decide
  have first := searches.string
  rw [missed] at first
  exact first 0 ⟨ascii "bc", rfl⟩

end Pyrometer.SubstringSearch
