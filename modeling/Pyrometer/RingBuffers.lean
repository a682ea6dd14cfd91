import Mathlib.Tactic

/-!
# Ring buffers

A ring of `capacity` cells lives in an indexed store. `slice` reads elements in
ring order from a cell on, and `fill` writes them in ring order, one at a time.
The laws say what a reader sees after a writer has gone past: the elements that
were there, then the new ones, as long as both fit the ring together. Cells that
hold no element are unrestricted.

Nothing here keeps indices or counts. A program that does relates its own to the
cell a slice starts from and to the length of the slice.
-/

namespace Pyrometer.RingBuffers

variable {α : Type}

/-- The elements of `count` cells in ring order, from the cell `first` on. -/
def slice (capacity : Nat) (cells : Nat → α) (first count : Nat) : List α :=
  (List.range count).map fun offset => cells ((first + offset) % capacity)

/-- Write elements one after the other from the cell `first` on. -/
def fill (capacity : Nat) (cells : Nat → α) : Nat → List α → Nat → α
  | _, [] => cells
  | first, element :: rest =>
      fill capacity (Function.update cells first element) ((first + 1) % capacity) rest

/-- A pointer that reaches the end of the ring goes back to its start. -/
def rewind (capacity cell : Nat) : Nat := if cell = capacity then 0 else cell

/-- Rewinding is reduction, for a pointer that has not passed the end. -/
theorem rewind_mod {capacity cell : Nat} (reached : cell ≤ capacity) :
    rewind capacity cell = cell % capacity := by
  unfold rewind
  split
  case isTrue atEnd => rw [atEnd, Nat.mod_self]
  case isFalse before => exact (Nat.mod_eq_of_lt (by omega)).symm

/-- A slice has as many elements as cells were read. -/
@[simp] theorem slice_length (capacity : Nat) (cells : Nat → α) (first count : Nat) :
    (slice capacity cells first count).length = count := by
  simp [slice]

/-- An empty slice. -/
@[simp] theorem slice_zero (capacity : Nat) (cells : Nat → α) (first : Nat) :
    slice capacity cells first 0 = [] := rfl

/-- A slice of one cell. -/
theorem slice_one {capacity first : Nat} (cells : Nat → α) (inside : first < capacity) :
    slice capacity cells first 1 = [cells first] := by
  simp [slice, Nat.mod_eq_of_lt inside]

/-- Going round the ring from a reduced cell is going round from the cell itself. -/
theorem index_shift (capacity first step offset : Nat) :
    ((first + step) % capacity + offset) % capacity = (first + (step + offset)) % capacity := by
  rw [Nat.mod_add_mod, Nat.add_assoc]

/-- A slice is its first part and the slice from where that ends. -/
theorem slice_add (capacity : Nat) (cells : Nat → α) (first front back : Nat) :
    slice capacity cells first (front + back) =
      slice capacity cells first front ++
        slice capacity cells ((first + front) % capacity) back := by
  simp only [slice, List.range_add, List.map_append, List.map_map]
  refine congrArg _ (List.map_congr_left fun offset _ => ?_)
  simp only [Function.comp_apply, index_shift]

/-- A slice is its first cell and the slice behind it. -/
theorem slice_cons {capacity first : Nat} (cells : Nat → α) (inside : first < capacity)
    (count : Nat) :
    slice capacity cells first (count + 1) =
      cells first :: slice capacity cells ((first + 1) % capacity) count := by
  rw [Nat.add_comm count 1, slice_add, slice_one cells inside]
  rfl

/-- What is left of a slice behind some of its cells begins with the next one. -/
theorem slice_rest {capacity : Nat} (cells : Nat → α) (first : Nat) {taken count : Nat}
    (positive : 0 < capacity) (more : taken < count) :
    slice capacity cells ((first + taken) % capacity) (count - taken) =
      cells ((first + taken) % capacity) ::
        slice capacity cells ((first + (taken + 1)) % capacity) (count - (taken + 1)) := by
  have counted : count - taken = count - (taken + 1) + 1 := by omega
  rw [counted, slice_cons cells (Nat.mod_lt _ positive), Nat.mod_add_mod, Nat.add_assoc]

/-- Dropping elements moves the first cell. -/
theorem slice_drop (capacity : Nat) (cells : Nat → α) (first : Nat) {taken count : Nat}
    (enough : taken ≤ count) :
    (slice capacity cells first count).drop taken =
      slice capacity cells ((first + taken) % capacity) (count - taken) := by
  obtain ⟨rest, rfl⟩ := Nat.exists_eq_add_of_le enough
  rw [slice_add, Nat.add_sub_cancel_left]
  exact List.drop_left' (slice_length capacity cells first taken)

/-- Two stores that agree on the cells of a slice have the same slice. -/
theorem slice_congr {capacity first count : Nat} {left right : Nat → α}
    (same : ∀ offset < count,
      left ((first + offset) % capacity) = right ((first + offset) % capacity)) :
    slice capacity left first count = slice capacity right first count :=
  List.map_congr_left fun offset member => same offset (List.mem_range.mp member)

/-- A whole round of the ring comes past every cell. -/
theorem mem_round {capacity first cell : Nat} (cells : Nat → α) (inside : first < capacity)
    (here : cell < capacity) : cells cell ∈ slice capacity cells first capacity := by
  rw [slice, List.mem_map]
  refine ⟨(cell + (capacity - first)) % capacity,
    List.mem_range.mpr (Nat.mod_lt _ (Nat.zero_lt_of_lt here)), ?_⟩
  have around : first + (cell + (capacity - first)) = cell + capacity := by omega
  rw [Nat.add_mod_mod, around, Nat.add_mod_right, Nat.mod_eq_of_lt here]

/-- Without going past the end of the ring a slice reads consecutive cells. -/
theorem slice_straight {capacity first count : Nat} (cells : Nat → α)
    (fits : first + count ≤ capacity) :
    slice capacity cells first count =
      (List.range count).map fun offset => cells (first + offset) := by
  refine List.map_congr_left fun offset member => ?_
  have below := List.mem_range.mp member
  rw [Nat.mod_eq_of_lt (by omega)]

/-- Within one round different offsets are different cells. -/
theorem index_injective (first : Nat) {capacity left right : Nat} (leftInside : left < capacity)
    (rightInside : right < capacity)
    (same : (first + left) % capacity = (first + right) % capacity) : left = right :=
  Nat.ModEq.eq_of_lt_of_lt (Nat.ModEq.add_left_cancel' first same) leftInside rightInside

/-- Writing leaves the cells it does not come to. -/
theorem fill_outside {capacity : Nat} (elements : List α) (cells : Nat → α) (first cell : Nat)
    (inside : first < capacity)
    (missed : ∀ offset < elements.length, (first + offset) % capacity ≠ cell) :
    fill capacity cells first elements cell = cells cell := by
  induction elements generalizing cells first with
  | nil => rfl
  | cons element rest inductionHypothesis =>
    have positive : 0 < capacity := by omega
    have apart : first ≠ cell := by
      have start := missed 0 (by simp)
      rwa [Nat.add_zero, Nat.mod_eq_of_lt inside] at start
    have later : ∀ offset < rest.length, ((first + 1) % capacity + offset) % capacity ≠ cell := by
      intro offset below
      rw [index_shift, Nat.add_comm 1 offset]
      exact missed (offset + 1) (by simpa using below)
    calc fill capacity cells first (element :: rest) cell
        = Function.update cells first element cell :=
          inductionHypothesis _ _ (Nat.mod_lt _ positive) later
      _ = cells cell := Function.update_of_ne apart.symm _ _

/-- What was written is read back, if it fits the ring. -/
theorem slice_fill {capacity : Nat} (elements : List α) (cells : Nat → α) (first : Nat)
    (inside : first < capacity) (fits : elements.length ≤ capacity) :
    slice capacity (fill capacity cells first elements) first elements.length = elements := by
  induction elements generalizing cells first with
  | nil => rfl
  | cons element rest inductionHypothesis =>
    have positive : 0 < capacity := by omega
    have shorter : rest.length < capacity := by simpa using fits
    have rewritten : ∀ offset < rest.length,
        ((first + 1) % capacity + offset) % capacity ≠ first := by
      intro offset below meets
      rw [index_shift] at meets
      have wrapped := index_injective first (by omega) positive
        (meets.trans (Nat.mod_eq_of_lt inside).symm)
      omega
    have kept : fill capacity (Function.update cells first element) ((first + 1) % capacity) rest
        first = element := by
      rw [fill_outside rest _ _ first (Nat.mod_lt _ positive) rewritten]
      exact Function.update_self first element cells
    rw [List.length_cons, slice_cons _ inside]
    simp only [fill, kept]
    exact congrArg (element :: ·)
      (inductionHypothesis _ _ (Nat.mod_lt _ positive) (Nat.le_of_lt shorter))

/-- What a ring holds after a write behind its elements: those, then the new ones. -/
theorem slice_push {capacity : Nat} (cells : Nat → α) (first count : Nat) (elements : List α)
    (positive : 0 < capacity) (fits : count + elements.length ≤ capacity) :
    slice capacity (fill capacity cells ((first + count) % capacity) elements) first
        (count + elements.length) =
      slice capacity cells first count ++ elements := by
  have inside : (first + count) % capacity < capacity := Nat.mod_lt _ positive
  rw [slice_add, slice_fill elements cells _ inside (by omega)]
  refine congrArg (· ++ elements) (slice_congr fun offset below => ?_)
  refine fill_outside elements cells _ _ inside fun written bound meets => ?_
  rw [index_shift] at meets
  have same := index_injective first (by omega) (by omega) meets
  omega

/-- One element more behind the others. -/
theorem slice_push_one {capacity : Nat} (cells : Nat → α) (first : Nat) {count : Nat}
    (element : α) (room : count < capacity) :
    slice capacity (Function.update cells ((first + count) % capacity) element) first (count + 1) =
      slice capacity cells first count ++ [element] :=
  slice_push cells first count [element] (by omega) room

/-- One element more behind the others when the first one is given up. -/
theorem slice_advance {capacity : Nat} (cells : Nat → α) (first : Nat) {count : Nat} (element : α)
    (nonempty : 0 < count) (fits : count ≤ capacity) :
    slice capacity (Function.update cells ((first + count) % capacity) element)
        ((first + 1) % capacity) count =
      (slice capacity cells first count).drop 1 ++ [element] := by
  have cell : ((first + 1) % capacity + (count - 1)) % capacity = (first + count) % capacity := by
    rw [index_shift, Nat.add_sub_cancel' nonempty]
  have pushed := slice_push_one cells ((first + 1) % capacity) element
    (show count - 1 < capacity by omega)
  rwa [cell, Nat.sub_add_cancel nonempty, ← slice_drop _ _ _ nonempty] at pushed

/-- Writing elements one after the other in two goes. -/
theorem fill_append {capacity : Nat} (front back : List α) (cells : Nat → α) (first : Nat)
    (inside : first < capacity) :
    fill capacity cells first (front ++ back) =
      fill capacity (fill capacity cells first front) ((first + front.length) % capacity) back := by
  induction front generalizing cells first with
  | nil => simp [fill, Nat.mod_eq_of_lt inside]
  | cons element rest inductionHypothesis =>
    have positive : 0 < capacity := by omega
    simp only [List.cons_append, fill, List.length_cons]
    rw [inductionHypothesis _ _ (Nat.mod_lt _ positive), Nat.mod_add_mod]
    congr 1
    rw [Nat.add_assoc, Nat.add_comm 1]

end Pyrometer.RingBuffers
