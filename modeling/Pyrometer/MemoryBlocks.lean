import Mathlib.Tactic

/-!
# Blocks of allocated memory

A block is the list of the elements there is room for; an element that was never set is `none`.
A read of an element that is not there or was never set, and a write behind the end of the
block, have no result. `Starts` says that a block starts with the elements of a list. The laws
give what loads, stores, copies and the loop that closes a gap do to that list.
-/

namespace Pyrometer.MemoryBlocks

variable {α : Type}

/-- The elements there is room for. -/
abbrev Block (α : Type) := List (Option α)

/-- A new block, with no element set. -/
def malloc (α : Type) (count : Nat) : Block α := List.replicate count none

/-- Read an element. -/
def load (block : Block α) (index : Nat) : Option α := block[index]?.join

/-- Write an element. -/
def store (block : Block α) (index : Nat) (value : α) : Option (Block α) :=
  if index < block.length then some (block.set index (some value)) else none

/-- Copy the first elements of a block to the start of another one. -/
def memcpy (dst src : Block α) (count : Nat) : Option (Block α) :=
  if count ≤ dst.length ∧ count ≤ src.length then some (src.take count ++ dst.drop count) else none

/-- Move elements down by one place, from a place on. -/
def shiftDown : Nat → Nat → Block α → Option (Block α)
  | 0, _, block => some block
  | remaining + 1, index, block => do
      let value ← load block (index + 1)
      let moved ← store block index value
      shiftDown remaining (index + 1) moved

/-- The block starts with the elements of a list. -/
def Starts (block : Block α) (values : List α) : Prop := values.map some <+: block

/-- A block is long enough for what it starts with. -/
theorem Starts.length_le {block : Block α} {values : List α} (starts : Starts block values) :
    values.length ≤ block.length := by
  simpa using List.IsPrefix.length_le starts

/-- A block that starts with some elements starts with the first of them. -/
theorem Starts.front {block : Block α} {front back : List α}
    (starts : Starts block (front ++ back)) : Starts block front := by
  rw [Starts, List.map_append] at starts
  exact (List.prefix_append _ _).trans starts

/-- An element that the block starts with is read. -/
theorem Starts.load {block : Block α} {front back : List α} {value : α}
    (starts : Starts block (front ++ value :: back)) : load block front.length = some value := by
  obtain ⟨rest, rfl⟩ := starts
  simp [MemoryBlocks.load]

/-- An element that the block starts with is replaced. -/
theorem Starts.store {block : Block α} {front back : List α} {old : α}
    (starts : Starts block (front ++ old :: back)) (value : α) :
    ∃ stored, store block front.length value = some stored ∧
      Starts stored (front ++ value :: back) ∧ stored.length = block.length := by
  obtain ⟨rest, rfl⟩ := starts
  refine ⟨_, if_pos (by simp), ⟨rest, ?_⟩, by simp⟩
  simp

/-- An element is written behind those that the block starts with. -/
theorem Starts.push {block : Block α} {values : List α} (starts : Starts block values)
    (room : values.length < block.length) (value : α) :
    ∃ stored, MemoryBlocks.store block values.length value = some stored ∧
      Starts stored (values ++ [value]) ∧ stored.length = block.length := by
  obtain ⟨rest, rfl⟩ := starts
  refine ⟨_, if_pos room, ?_, by simp⟩
  cases rest with
  | nil => simp at room
  | cons first rest => exact ⟨rest, by simp⟩

/-- The elements that a block starts with are copied. -/
theorem Starts.memcpy {src : Block α} {values : List α} (starts : Starts src values)
    {dst : Block α} (room : values.length ≤ dst.length) :
    ∃ copy, memcpy dst src values.length = some copy ∧ Starts copy values ∧
      copy.length = dst.length := by
  have enough := starts.length_le
  obtain ⟨rest, rfl⟩ := starts
  refine ⟨_, if_pos ⟨room, enough⟩, ⟨dst.drop values.length, ?_⟩, ?_⟩
  · rw [List.take_left' (by simp)]
  · simp
    omega

/-- Moving the elements behind a gap down closes it. Induct on the elements behind: the element
that moves first leaves the gap one place further on. -/
theorem Starts.close_gap (back : List α) {block : Block α} {front : List α} {gap : α}
    (starts : Starts block (front ++ gap :: back)) :
    ∃ closed, shiftDown back.length front.length block = some closed ∧
      Starts closed (front ++ back) ∧ closed.length = block.length := by
  induction back generalizing block front gap with
  | nil => exact ⟨block, rfl, by simpa using starts.front, rfl⟩
  | cons value rest inductionHypothesis =>
    have split : front ++ gap :: value :: rest = (front ++ [gap]) ++ value :: rest := by simp
    have read : MemoryBlocks.load block (front.length + 1) = some value := by
      rw [split] at starts
      simpa using starts.load
    obtain ⟨moved, stored, next, same⟩ := starts.store value
    have regroup : front ++ value :: value :: rest = (front ++ [value]) ++ value :: rest := by simp
    rw [regroup] at next
    obtain ⟨closed, finished, result, length⟩ := inductionHypothesis next
    refine ⟨closed, ?_, by simpa using result, length.trans same⟩
    simpa [shiftDown, read, stored] using finished

end Pyrometer.MemoryBlocks
