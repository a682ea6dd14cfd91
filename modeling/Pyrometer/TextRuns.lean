import Mathlib.Data.List.TakeWhile
import Mathlib.Tactic

/-!
# Runs of a text between separators

The runs of a text are its maximal parts without separators, in their order. Separators in
front of a text belong to no run; what stands between them and the next separator is the
first run.
-/

namespace Pyrometer.TextRuns

variable {Letter : Type} {separator : Letter → Bool}

/-- A text is a part that a test does not stop, and what begins where it is stopped. -/
theorem part_and_tail (stop : Letter → Bool) (text : List Letter) :
    ∃ front tail, text = front ++ tail ∧ (∀ letter ∈ front, stop letter = false) ∧
      ∀ letter rest, tail = letter :: rest → stop letter = true := by
  refine ⟨text.takeWhile (fun letter => !stop letter), text.dropWhile (fun letter => !stop letter),
    List.takeWhile_append_dropWhile.symm, ?_, ?_⟩
  · intro letter inside
    simpa using List.mem_takeWhile_imp inside
  · intro letter rest same
    have first := List.head?_dropWhile_not (fun letter => !stop letter) text
    rw [same] at first
    simpa using first

/-- At its first separator a text falls apart in one way only. -/
theorem first_separator {letter : Letter} {front other rest others : List Letter}
    (plain : letter ∉ front) (otherPlain : letter ∉ other)
    (same : front ++ letter :: rest = other ++ letter :: others) :
    front = other ∧ rest = others := by
  induction front generalizing other with
  | nil =>
    cases other with
    | nil => exact ⟨rfl, (List.cons.inj same).2⟩
    | cons first more =>
      obtain ⟨rfl, -⟩ := List.cons.inj same
      exact absurd List.mem_cons_self otherPlain
  | cons first more inductionHypothesis =>
    cases other with
    | nil =>
      obtain ⟨rfl, -⟩ := List.cons.inj same
      exact absurd List.mem_cons_self plain
    | cons second between =>
      obtain ⟨rfl, behind⟩ := List.cons.inj same
      obtain ⟨rfl, rfl⟩ := inductionHypothesis (List.not_mem_of_not_mem_cons plain)
        (List.not_mem_of_not_mem_cons otherPlain) behind
      exact ⟨rfl, rfl⟩

variable [DecidableEq Letter]

/-- The runs of a text: its maximal parts without separators. -/
def runs (separator : Letter → Bool) (text : List Letter) : List (List Letter) :=
  (text.splitOnP separator).filter (fun run => run != [])

/-- A separator in front of a text belongs to no run. -/
theorem runs_separator {letter : Letter} (separates : separator letter = true)
    (text : List Letter) : runs separator (letter :: text) = runs separator text := by
  have split := List.splitOnP_append_cons [] text separates
  rw [List.nil_append, List.splitOnP_nil] at split
  simp [runs, split]

/-- Separators in front of a text belong to no run. -/
theorem runs_separators (front text : List Letter)
    (separate : ∀ letter ∈ front, separator letter = true) :
    runs separator (front ++ text) = runs separator text := by
  induction front with
  | nil => rfl
  | cons letter rest inductionHypothesis =>
    have others : ∀ other ∈ rest, separator other = true :=
      fun other inside => separate other (by simp [inside])
    calc runs separator (letter :: (rest ++ text))
        = runs separator (rest ++ text) := runs_separator (separate letter (by simp)) _
      _ = runs separator text := inductionHypothesis others

/-- A text without separators is a run. -/
theorem runs_only {text : List Letter} (nonempty : text ≠ [])
    (plain : ∀ letter ∈ text, separator letter = false) : runs separator text = [text] := by
  simp [runs, List.splitOnP_eq_singleton plain, nonempty]

/-- What stands in front of the first separator is the first run. -/
theorem runs_first {run : List Letter} (nonempty : run ≠ [])
    (plain : ∀ letter ∈ run, separator letter = false) {letter : Letter}
    (separates : separator letter = true) (text : List Letter) :
    runs separator (run ++ letter :: text) = run :: runs separator text := by
  have split := List.splitOnP_append_cons_of_forall_mem plain letter separates text
  simp [runs, split, nonempty]

end Pyrometer.TextRuns
