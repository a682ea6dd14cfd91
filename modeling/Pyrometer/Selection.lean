import Mathlib.Data.Finset.Sort
import Mathlib.Order.Interval.Finset.Nat
import Mathlib.Tactic

/-!
# Rearranged cells and order statistics

Cells of an indexed store are rearranged in a range when the store afterwards reads
the store before through a permutation that moves no cell outside the range. The
values in any larger range are then the same, as often as they occur.

A value has a rank among some values when fewer than that many are below it and at
least that many are up to it. This fixes the value, and says nothing about how it is
found. Values around a pivot reduce the question to one of the two sides.
-/

namespace Pyrometer.Selection

variable {α : Type}

/-- The store with two cells exchanged. -/
def exchange (cells : Nat → α) (left right : Nat) : Nat → α := fun cell =>
  if cell = left then cells right else if cell = right then cells left else cells cell

/-- Only cells of a range were moved. -/
def Rearranged (start stop : Nat) (before after : Nat → α) : Prop :=
  ∃ order : Equiv.Perm Nat, (∀ cell, order cell ≠ cell → start ≤ cell ∧ cell < stop) ∧
    after = before ∘ order

/-- The values in a range. -/
def contents (cells : Nat → α) (start stop : Nat) : Multiset α :=
  (Finset.Ico start stop).val.map cells

/-- An exchange is a permutation of two cells. -/
theorem exchange_swap (cells : Nat → α) (left right : Nat) :
    exchange cells left right = cells ∘ Equiv.swap left right := by
  funext cell
  simp only [exchange, Function.comp_apply, Equiv.swap_apply_def]
  split_ifs <;> rfl

/-- Nothing was moved. -/
theorem rearranged_refl (start stop : Nat) (cells : Nat → α) :
    Rearranged start stop cells cells :=
  ⟨Equiv.refl Nat, fun _ moved => absurd rfl moved, rfl⟩

/-- Cells rearranged twice. -/
theorem rearranged_trans {start stop : Nat} {first second third : Nat → α}
    (left : Rearranged start stop first second) (right : Rearranged start stop second third) :
    Rearranged start stop first third := by
  obtain ⟨one, oneMoves, rfl⟩ := left
  obtain ⟨two, twoMoves, rfl⟩ := right
  refine ⟨two.trans one, fun cell moved => ?_, rfl⟩
  by_cases stays : two cell = cell
  · apply oneMoves cell
    rwa [Equiv.trans_apply, stays] at moved
  · exact twoMoves cell stays

/-- Cells rearranged in a range are rearranged in a larger one. -/
theorem rearranged_mono {start stop first last : Nat} {before after : Nat → α}
    (rearranged : Rearranged start stop before after) (low : first ≤ start) (high : stop ≤ last) :
    Rearranged first last before after := by
  obtain ⟨order, moves, same⟩ := rearranged
  refine ⟨order, fun cell moved => ?_, same⟩
  obtain ⟨above, below⟩ := moves cell moved
  constructor <;> omega

/-- Two exchanged cells of a range. -/
theorem rearranged_exchange {start stop left right : Nat} (cells : Nat → α)
    (leftInside : start ≤ left ∧ left < stop) (rightInside : start ≤ right ∧ right < stop) :
    Rearranged start stop cells (exchange cells left right) := by
  refine ⟨Equiv.swap left right, fun cell moved => ?_, exchange_swap cells left right⟩
  rcases Equiv.swap_apply_ne_self_iff.mp moved with ⟨_, rfl | rfl⟩
  · exact leftInside
  · exact rightInside

/-- Cells outside the range keep their values. -/
theorem rearranged_outside {start stop cell : Nat} {before after : Nat → α}
    (rearranged : Rearranged start stop before after) (outside : cell < start ∨ stop ≤ cell) :
    after cell = before cell := by
  obtain ⟨order, moves, rfl⟩ := rearranged
  have stays : order cell = cell := by
    by_contra moved
    obtain ⟨above, below⟩ := moves cell moved
    omega
  rw [Function.comp_apply, stays]

/-- A larger range has the same values as before. -/
theorem contents_rearranged {start stop first last : Nat} {before after : Nat → α}
    (rearranged : Rearranged start stop before after) (low : first ≤ start) (high : stop ≤ last) :
    contents after first last = contents before first last := by
  obtain ⟨order, moves, rfl⟩ := rearranged
  have kept : (Finset.Ico first last).map order.toEmbedding = Finset.Ico first last := by
    apply Finset.map_perm
    intro cell moved
    obtain ⟨above, below⟩ := moves cell moved
    rw [Finset.coe_Ico, Set.mem_Ico]
    constructor <;> omega
  calc contents (before ∘ order) first last
      = ((Finset.Ico first last).map order.toEmbedding).val.map before := by
        rw [contents, Finset.map_val, Multiset.map_map]
        rfl
    _ = contents before first last := by rw [kept, contents]

/-- The values in a range are as many as its cells. -/
@[simp] theorem contents_card (cells : Nat → α) (start stop : Nat) :
    (contents cells start stop).card = stop - start := by
  rw [contents, Multiset.card_map, Finset.card_val, Nat.card_Ico]

/-- A value of a range is in one of its cells. -/
theorem mem_contents {cells : Nat → α} {start stop : Nat} {value : α} :
    value ∈ contents cells start stop ↔
      ∃ cell, start ≤ cell ∧ cell < stop ∧ cells cell = value := by
  simp [contents, and_assoc]

/-- The values in a range from the first cell on, in the order of the cells. -/
theorem contents_range (cells : Nat → α) (stop : Nat) :
    contents cells 0 stop = ((List.range stop).map cells : Multiset α) := by
  rw [contents, Nat.Ico_zero_eq_range, Finset.range_val, Multiset.range, Multiset.map_coe]

/-- A range around one of its cells. -/
theorem contents_around {cells : Nat → α} {start middle stop : Nat} (low : start ≤ middle)
    (high : middle < stop) :
    contents cells start stop =
      contents cells start middle + cells middle ::ₘ contents cells (middle + 1) stop := by
  have front : (Finset.Ico start middle).disjUnion (Finset.Ico middle stop)
      (Finset.Ico_disjoint_Ico_consecutive start middle stop) = Finset.Ico start stop := by
    rw [Finset.disjUnion_eq_union, Finset.Ico_union_Ico_eq_Ico low (by omega)]
  have back : Finset.cons middle (Finset.Ico (middle + 1) stop) (by simp) =
      Finset.Ico middle stop := by
    rw [Finset.cons_eq_insert]
    exact Finset.insert_Ico_add_one_left_eq_Ico high
  rw [contents, ← front, Finset.disjUnion_val, Multiset.map_add, ← back, Finset.cons_val,
    Multiset.map_cons]
  rfl

variable [LinearOrder α]

/-- Fewer values than the rank are below a value, and at least as many are up to it. -/
structure Ranked (values : Multiset α) (rank : Nat) (value : α) : Prop where
  below : values.countP (· < value) < rank
  upTo : rank ≤ values.countP (· ≤ value)

/-- A value with a rank occurs. -/
theorem ranked_mem {values : Multiset α} {rank : Nat} {value : α}
    (ranked : Ranked values rank value) : value ∈ values := by
  by_contra missing
  have same : values.countP (· ≤ value) = values.countP (· < value) := by
    apply Multiset.countP_congr rfl
    intro other member
    refine propext ⟨fun upTo => lt_of_le_of_ne upTo ?_, le_of_lt⟩
    rintro rfl
    exact missing member
  have below := ranked.below
  have upTo := ranked.upTo
  omega

/-- A rank belongs to one value. -/
theorem ranked_unique {values : Multiset α} {rank : Nat} {left right : α}
    (one : Ranked values rank left) (two : Ranked values rank right) : left = right := by
  have notBelow : ∀ {low high : α}, Ranked values rank low → Ranked values rank high →
      ¬low < high := by
    intro low high lower upper smaller
    have more : values.countP (· ≤ low) ≤ values.countP (· < high) := by
      rw [Multiset.countP_eq_card_filter, Multiset.countP_eq_card_filter]
      exact Multiset.card_le_card (Multiset.monotone_filter_right values
        fun _ upTo => lt_of_le_of_lt upTo smaller)
    have below := upper.below
    have upTo := lower.upTo
    omega
  exact le_antisymm (not_lt.mp (notBelow two one)) (not_lt.mp (notBelow one two))

/-- A pivot has the rank that follows the values before it. -/
theorem ranked_pivot {lower upper : Multiset α} {pivot : α}
    (before : ∀ value ∈ lower, value ≤ pivot) (after : ∀ value ∈ upper, pivot ≤ value) :
    Ranked (lower + pivot ::ₘ upper) (lower.card + 1) pivot := by
  have allBefore : lower.countP (· ≤ pivot) = lower.card := Multiset.countP_eq_card.mpr before
  have fewBefore : lower.countP (· < pivot) ≤ lower.card := Multiset.countP_le_card _ _
  have noneAfter : upper.countP (· < pivot) = 0 :=
    Multiset.countP_eq_zero.mpr fun value member => not_lt.mpr (after value member)
  constructor
  · rw [Multiset.countP_add, Multiset.countP_cons, if_neg (lt_irrefl pivot)]
    omega
  · rw [Multiset.countP_add, Multiset.countP_cons, if_pos (le_refl pivot)]
    omega

/-- A rank among the values before a pivot is that rank among all. -/
theorem ranked_lower {lower upper : Multiset α} {pivot value : α} {rank : Nat}
    (before : ∀ value ∈ lower, value ≤ pivot) (after : ∀ value ∈ upper, pivot ≤ value)
    (ranked : Ranked lower rank value) : Ranked (lower + pivot ::ₘ upper) rank value := by
  have small : value ≤ pivot := before value (ranked_mem ranked)
  have noneAfter : upper.countP (· < value) = 0 :=
    Multiset.countP_eq_zero.mpr fun other member => not_lt.mpr (small.trans (after other member))
  have below := ranked.below
  have upTo := ranked.upTo
  constructor
  · rw [Multiset.countP_add, Multiset.countP_cons, if_neg (not_lt.mpr small)]
    omega
  · rw [Multiset.countP_add]
    omega

/-- A rank among the values after a pivot is counted on from the pivot. -/
theorem ranked_upper {lower upper : Multiset α} {pivot value : α} {rank : Nat}
    (before : ∀ value ∈ lower, value ≤ pivot) (after : ∀ value ∈ upper, pivot ≤ value)
    (ranked : Ranked upper rank value) :
    Ranked (lower + pivot ::ₘ upper) (lower.card + 1 + rank) value := by
  have large : pivot ≤ value := after value (ranked_mem ranked)
  have allBefore : lower.countP (· ≤ value) = lower.card :=
    Multiset.countP_eq_card.mpr fun other member => (before other member).trans large
  have fewBefore : lower.countP (· < value) ≤ lower.card := Multiset.countP_le_card _ _
  have below := ranked.below
  have upTo := ranked.upTo
  constructor
  · rw [Multiset.countP_add, Multiset.countP_cons]
    split <;> omega
  · rw [Multiset.countP_add, Multiset.countP_cons, if_pos large]
    omega

/-- The rank of an element of a sorted list is one more than its place. -/
theorem ranked_sorted {elements : List α} (sorted : elements.Pairwise (· ≤ ·)) {place : Nat}
    (inside : place < elements.length) :
    Ranked (elements : Multiset α) (place + 1) elements[place] := by
  have parts : elements.take place ++ elements[place] :: elements.drop (place + 1) = elements := by
    rw [← List.drop_eq_getElem_cons inside, List.take_append_drop]
  have ordered : (elements.take place ++ elements[place] :: elements.drop (place + 1)).Pairwise
      (· ≤ ·) := by rwa [parts]
  obtain ⟨_, later, across⟩ := List.pairwise_append.mp ordered
  have before : ∀ value ∈ (elements.take place : Multiset α), value ≤ elements[place] :=
    fun value member => across value (Multiset.mem_coe.mp member) _ List.mem_cons_self
  have after : ∀ value ∈ (elements.drop (place + 1) : Multiset α), elements[place] ≤ value :=
    fun value member => (List.pairwise_cons.mp later).1 value (Multiset.mem_coe.mp member)
  have ranked := ranked_pivot before after
  rw [Multiset.cons_coe, Multiset.coe_add, parts, Multiset.coe_card, List.length_take,
    Nat.min_eq_left (Nat.le_of_lt inside)] at ranked
  exact ranked

end Pyrometer.Selection
