import Mathlib.Tactic

/-!
# Occurrences of a pattern in a text

A pattern occurs at a place of a text when it starts what is left of the text from there. A
search answers with the first place, or with none. A search that compares the pattern with
all that is left finds it at the end of the text only; its answer is the first place exactly
when the pattern occurs nowhere else.
-/

namespace Pyrometer.Occurrences

variable {Letter : Type}

/-- The pattern occurs at a place of the text. -/
def Occurs (pattern text : List Letter) (place : Nat) : Prop := pattern <+: text.drop place

/-- The answer of a search: the first place of the pattern, and none if there is no such
place. -/
def First (pattern text : List Letter) : Option Nat → Prop
  | none => ∀ place, ¬ Occurs pattern text place
  | some place => Occurs pattern text place ∧ ∀ earlier < place, ¬ Occurs pattern text earlier

/-- The pattern occurs at the end of the text only. -/
def AtEnd (pattern text : List Letter) : Prop :=
  ∀ place, Occurs pattern text place → text.drop place = pattern

/-- The place of the pattern at the end of the text. -/
def ending [DecidableEq Letter] (pattern text : List Letter) : Option Nat :=
  if pattern <:+ text then some (text.length - pattern.length) else none

/-- There is one first place only. -/
theorem first_unique {pattern text : List Letter} {one other : Option Nat}
    (first : First pattern text one) (second : First pattern text other) : one = other := by
  cases one with
  | none =>
    cases other with
    | none => rfl
    | some place => exact absurd second.1 (first place)
  | some place =>
    cases other with
    | none => exact absurd first.1 (second place)
    | some later =>
      rcases Nat.lt_trichotomy place later with less | same | greater
      · exact absurd first.1 (second.2 place less)
      · exact congrArg some same
      · exact absurd second.1 (first.2 later greater)

/-- A pattern at the start of the text is found there. -/
theorem first_here {pattern text : List Letter} (starts : pattern <+: text) :
    First pattern text (some 0) :=
  ⟨starts, fun earlier before => absurd before (Nat.not_lt_zero earlier)⟩

/-- A pattern that does not start the text is found behind the first letter. -/
theorem first_later {pattern text : List Letter} {letter : Letter} {result : Option Nat}
    (other : ¬ pattern <+: letter :: text) (first : First pattern text result) :
    First pattern (letter :: text) (result.map (· + 1)) := by
  cases result with
  | none =>
    intro place
    cases place with
    | zero => exact other
    | succ place => exact first place
  | some place =>
    refine ⟨first.1, fun earlier before => ?_⟩
    cases earlier with
    | zero => exact other
    | succ earlier => exact first.2 earlier (Nat.lt_of_succ_lt_succ before)

/-- A pattern takes its length of the text. -/
theorem occurs_length {pattern text : List Letter} {place : Nat}
    (occurs : Occurs pattern text place) : pattern.length ≤ text.length - place := by
  have long := List.IsPrefix.length_le occurs
  rwa [List.length_drop] at long

/-- A pattern longer than the text is not found. -/
theorem first_short {pattern text : List Letter} (short : text.length < pattern.length) :
    First pattern text none := by
  intro place occurs
  have long := occurs_length occurs
  omega

/-- The place at the end of the text is the place of the ending. -/
theorem end_place {pattern text : List Letter} (nonempty : pattern ≠ []) {place : Nat} :
    text.drop place = pattern ↔ pattern <:+ text ∧ place = text.length - pattern.length := by
  have positive : 0 < pattern.length := List.length_pos_iff.mpr nonempty
  constructor
  · rintro rfl
    refine ⟨List.drop_suffix place text, ?_⟩
    rw [List.length_drop] at positive ⊢
    omega
  · rintro ⟨⟨front, rfl⟩, rfl⟩
    simp

/-- Nothing has no ending. -/
theorem ending_nil [DecidableEq Letter] {pattern : List Letter} (nonempty : pattern ≠ []) :
    ending pattern [] = none :=
  if_neg (List.suffix_nil.not.mpr nonempty)

/-- A text is its own ending. -/
theorem ending_self [DecidableEq Letter] {text : List Letter} : ending text text = some 0 := by
  rw [ending, if_pos List.suffix_rfl, Nat.sub_self]

/-- The ending of a longer text is the ending of what is behind its first letter. -/
theorem ending_cons [DecidableEq Letter] {pattern text : List Letter} {letter : Letter}
    (other : pattern ≠ letter :: text) :
    ending pattern (letter :: text) = (ending pattern text).map (· + 1) := by
  by_cases suffix : pattern <:+ text
  · have long := suffix.length_le
    rw [ending, ending, if_pos suffix, if_pos (List.suffix_cons_iff.mpr (.inr suffix)),
      List.length_cons, Nat.succ_sub long]
    rfl
  · have absent : ¬ pattern <:+ letter :: text := by
      rw [List.suffix_cons_iff]
      exact not_or.mpr ⟨other, suffix⟩
    rw [ending, ending, if_neg suffix, if_neg absent]
    rfl

/-- The ending is the first place of the pattern exactly when it occurs at the end only. -/
theorem ending_first [DecidableEq Letter] {pattern text : List Letter} (nonempty : pattern ≠ []) :
    First pattern text (ending pattern text) ↔ AtEnd pattern text := by
  constructor
  · intro first place occurs
    rw [ending] at first
    split at first
    case isTrue suffix =>
      have long := occurs_length occurs
      have positive : 0 < pattern.length := List.length_pos_iff.mpr nonempty
      have least : ¬ place < text.length - pattern.length :=
        fun before => first.2 place before occurs
      exact (end_place nonempty).mpr ⟨suffix, by omega⟩
    case isFalse => exact absurd occurs (first place)
  · intro atEnd
    have only : ∀ place, Occurs pattern text place →
        pattern <:+ text ∧ place = text.length - pattern.length :=
      fun place occurs => (end_place nonempty).mp (atEnd place occurs)
    rw [ending]
    split
    case isTrue suffix =>
      have found : text.drop (text.length - pattern.length) = pattern :=
        (end_place nonempty).mpr ⟨suffix, rfl⟩
      have occurs : Occurs pattern text (text.length - pattern.length) :=
        (congrArg (pattern <+: ·) found).mpr List.prefix_rfl
      refine ⟨occurs, fun earlier before occurs => ?_⟩
      exact absurd (only earlier occurs).2 (Nat.ne_of_lt before)
    case isFalse noSuffix => exact fun place occurs => noSuffix (only place occurs).1

end Pyrometer.Occurrences
