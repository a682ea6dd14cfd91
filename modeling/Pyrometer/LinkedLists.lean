import Mathlib.Data.List.Nodup
import Mathlib.Tactic

/-!
# Singly linked lists in a heap

A heap maps addresses to cells, and a cell holds a value and the pointer to the next cell. The
null pointer is `none`. `Stored` says that a heap holds the cells of a list of addresses and
values in order, the last one with the null pointer; the pointer to a stored list is the address
of its first cell.

Walks take fuel: a walk that does not end, or follows a pointer to no cell, has no result. The
laws give the result of each walk over a stored list and what is stored when a cell is put in
front, given another value or taken out.
-/

namespace Pyrometer.LinkedLists

/-- A value and the pointer to the next cell. -/
structure Cell (α : Type) where
  value : α
  next : Option Nat

/-- The cells that are allocated, by their addresses. -/
abbrev Heap (α : Type) := Nat → Option (Cell α)

variable {α : Type}

/-- The pointer to the first of some cells. -/
def headOf (nodes : List (Nat × α)) : Option Nat := nodes.head?.map Prod.fst

/-- The addresses of some cells. -/
def addresses (nodes : List (Nat × α)) : List Nat := nodes.map Prod.fst

/-- The heap holds the cells of a list, each with the pointer to the next one. -/
def Stored (heap : Heap α) : List (Nat × α) → Prop
  | [] => True
  | node :: rest => heap node.1 = some ⟨node.2, headOf rest⟩ ∧ Stored heap rest

/-- Walk from a pointer to the first cell with a wanted value. The result is the address of the
cell before it, if the walk has passed one, and its own, or nothing at the null pointer. -/
def locate (heap : Heap α) (wanted : α → Bool) :
    Nat → Option Nat → Option Nat → Option (Option (Option Nat × Nat))
  | 0, _, _ => none
  | _ + 1, _, none => some none
  | fuel + 1, before, some address =>
      match heap address with
      | none => none
      | some cell =>
          if wanted cell.value then some (some (before, address))
          else locate heap wanted fuel (some address) cell.next

/-- Free all cells from a pointer on. -/
def freeAll : Nat → Heap α → Option Nat → Option (Heap α)
  | 0, _, _ => none
  | _ + 1, heap, none => some heap
  | fuel + 1, heap, some address =>
      match heap address with
      | none => none
      | some cell => freeAll fuel (Function.update heap address none) cell.next

/-- The cell that a walk has passed last. -/
def lastOf (before : Option Nat) (nodes : List (Nat × α)) : Option Nat :=
  (nodes.getLast?.map Prod.fst).or before

@[simp] theorem head_of_cons (node : Nat × α) (rest : List (Nat × α)) :
    headOf (node :: rest) = some node.1 := rfl

/-- Other cells do not see a change of a cell. -/
theorem update_apart {heap : Heap α} {cell : Option (Cell α)} {address other : Nat}
    {places : List Nat} (missing : address ∉ places) (member : other ∈ places) :
    Function.update heap address cell other = heap other := by
  apply Function.update_of_ne
  rintro rfl
  exact missing member

/-- Cells do not see a change of the heap elsewhere. -/
theorem stored_frame {heap changed : Heap α} {nodes : List (Nat × α)}
    (same : ∀ address ∈ addresses nodes, changed address = heap address)
    (stored : Stored heap nodes) : Stored changed nodes := by
  induction nodes with
  | nil => exact True.intro
  | cons node rest inductionHypothesis =>
    obtain ⟨here, later⟩ := stored
    refine ⟨(same node.1 (by simp [addresses])).trans here, inductionHypothesis ?_ later⟩
    exact fun address member => same address (List.mem_cons_of_mem _ member)

/-- The last cells of a stored list are a stored list. -/
theorem stored_suffix {heap : Heap α} (front : List (Nat × α)) {back : List (Nat × α)}
    (stored : Stored heap (front ++ back)) : Stored heap back := by
  induction front with
  | nil => exact stored
  | cons node rest inductionHypothesis => exact inductionHypothesis stored.2

/-- A cell of a stored list. -/
theorem stored_cell {heap : Heap α} {front back : List (Nat × α)} {node : Nat × α}
    (stored : Stored heap (front ++ node :: back)) :
    heap node.1 = some ⟨node.2, headOf back⟩ :=
  (stored_suffix front stored).1

/-- A new cell in front. -/
theorem stored_push {heap : Heap α} {nodes : List (Nat × α)} (stored : Stored heap nodes)
    {address : Nat} (fresh : address ∉ addresses nodes) (value : α) :
    Stored (Function.update heap address (some ⟨value, headOf nodes⟩))
      ((address, value) :: nodes) := by
  exact ⟨Function.update_self _ _ _, stored_frame (fun _ => update_apart fresh) stored⟩

/-- A cell is given another value, and the cells behind it another list: the cells in front
need no change. -/
theorem stored_replace {heap changed : Heap α} {front back tail : List (Nat × α)}
    {node : Nat × α} {value : α} (stored : Stored heap (front ++ node :: back))
    (same : ∀ address ∈ addresses front, changed address = heap address)
    (replaced : Stored changed ((node.1, value) :: tail)) :
    Stored changed (front ++ (node.1, value) :: tail) := by
  induction front with
  | nil => exact replaced
  | cons first rest inductionHypothesis =>
    obtain ⟨here, later⟩ := stored
    have pointer : headOf (rest ++ (node.1, value) :: tail) = headOf (rest ++ node :: back) := by
      cases rest <;> rfl
    refine ⟨?_, inductionHypothesis later fun address member =>
      same address (List.mem_cons_of_mem _ member)⟩
    change changed first.1 = some ⟨first.2, headOf (rest ++ (node.1, value) :: tail)⟩
    rw [pointer]
    exact (same first.1 (by simp [addresses])).trans here

/-- A cell is given another value. -/
theorem stored_set {heap : Heap α} {front back : List (Nat × α)} {node : Nat × α}
    (stored : Stored heap (front ++ node :: back))
    (distinct : (addresses (front ++ node :: back)).Nodup) (value : α) :
    Stored (Function.update heap node.1 (some ⟨value, headOf back⟩))
      (front ++ (node.1, value) :: back) := by
  simp only [addresses, List.map_append, List.map_cons, List.nodup_append, List.nodup_cons]
    at distinct
  obtain ⟨-, ⟨behind, -⟩, apart⟩ := distinct
  refine stored_replace stored (fun address member => ?_) ⟨Function.update_self _ _ _, ?_⟩
  · exact Function.update_of_ne (apart address member node.1 (by simp)) _ _
  · exact stored_frame (fun _ => update_apart behind) (stored_suffix front stored).2

/-- The first cell is freed. -/
theorem stored_pop {heap : Heap α} {node : Nat × α} {rest : List (Nat × α)}
    (stored : Stored heap (node :: rest)) (distinct : (addresses (node :: rest)).Nodup) :
    Stored (Function.update heap node.1 none) rest := by
  have behind := (List.nodup_cons.mp distinct).1
  exact stored_frame (fun _ => update_apart behind) stored.2

/-- A cell behind another one is taken out and freed. -/
theorem stored_unlink {heap : Heap α} {front back : List (Nat × α)} {before node : Nat × α}
    (stored : Stored heap (front ++ before :: node :: back))
    (distinct : (addresses (front ++ before :: node :: back)).Nodup) :
    Stored (Function.update (Function.update heap before.1 (some ⟨before.2, headOf back⟩))
      node.1 none) (front ++ before :: back) := by
  simp only [addresses, List.map_append, List.map_cons, List.nodup_append, List.nodup_cons,
    List.mem_cons, not_or] at distinct
  obtain ⟨-, ⟨⟨other, first⟩, second, -⟩, apart⟩ := distinct
  refine stored_replace stored (fun address member => ?_) ⟨?_, ?_⟩
  · rw [Function.update_of_ne (apart address member node.1 (by simp)),
      Function.update_of_ne (apart address member before.1 (by simp))]
  · rw [Function.update_of_ne other, Function.update_self]
  · refine stored_frame (fun address member => ?_) (stored_suffix front stored).2.2
    exact (update_apart second member).trans (update_apart first member)

/-- The walk over a list without a wanted value ends at the null pointer. -/
theorem locate_missing (heap : Heap α) (wanted : α → Bool) (nodes : List (Nat × α)) (fuel : Nat)
    (before : Option Nat) (stored : Stored heap nodes)
    (other : ∀ node ∈ nodes, wanted node.2 = false) (enough : nodes.length < fuel) :
    locate heap wanted fuel before (headOf nodes) = some none := by
  induction nodes generalizing fuel before with
  | nil =>
    obtain ⟨fuel, rfl⟩ := Nat.exists_eq_add_of_lt enough
    simp [locate, headOf]
  | cons node rest inductionHypothesis =>
    obtain ⟨here, later⟩ := stored
    obtain ⟨fuel, rfl⟩ := Nat.exists_eq_succ_of_ne_zero (Nat.ne_zero_of_lt enough)
    have own : wanted node.2 = false := other node (by simp)
    simp only [head_of_cons, locate, here, own, Bool.false_eq_true, if_false]
    exact inductionHypothesis fuel (some node.1) later
      (fun next member => other next (by simp [member])) (by simpa using enough)

/-- The walk stops at the first wanted value. -/
theorem locate_found (heap : Heap α) (wanted : α → Bool) (front back : List (Nat × α))
    (node : Nat × α) (fuel : Nat) (before : Option Nat)
    (stored : Stored heap (front ++ node :: back))
    (other : ∀ earlier ∈ front, wanted earlier.2 = false) (found : wanted node.2 = true)
    (enough : front.length < fuel) :
    locate heap wanted fuel before (headOf (front ++ node :: back)) =
      some (some (lastOf before front, node.1)) := by
  induction front generalizing fuel before with
  | nil =>
    obtain ⟨fuel, rfl⟩ := Nat.exists_eq_add_of_lt enough
    obtain ⟨here, -⟩ := stored
    simp [locate, here, found, lastOf]
  | cons first rest inductionHypothesis =>
    obtain ⟨here, later⟩ := stored
    obtain ⟨fuel, rfl⟩ := Nat.exists_eq_succ_of_ne_zero (Nat.ne_zero_of_lt enough)
    have own : wanted first.2 = false := other first (by simp)
    have passed : lastOf (some first.1) rest = lastOf before (first :: rest) := by
      cases rest with
      | nil => simp [lastOf]
      | cons second rest =>
        have nonempty : (second :: rest).getLast? ≠ none := by simp
        obtain ⟨last, same⟩ := Option.ne_none_iff_exists'.mp nonempty
        simp [lastOf, List.getLast?_cons_cons, same]
    simp only [List.cons_append, head_of_cons, locate, here, own, Bool.false_eq_true, if_false]
    rw [← passed]
    exact inductionHypothesis fuel (some first.1) later
      (fun next member => other next (by simp [member])) (by simpa using enough)

/-- Freeing a list frees its cells and no others. -/
theorem free_all_eq (nodes : List (Nat × α)) (heap : Heap α) (fuel : Nat)
    (stored : Stored heap nodes) (distinct : (addresses nodes).Nodup)
    (enough : nodes.length < fuel) :
    freeAll fuel heap (headOf nodes) =
      some (fun address => if address ∈ addresses nodes then none else heap address) := by
  induction nodes generalizing heap fuel with
  | nil =>
    obtain ⟨fuel, rfl⟩ := Nat.exists_eq_add_of_lt enough
    simp [freeAll, headOf, addresses]
  | cons node rest inductionHypothesis =>
    obtain ⟨fuel, rfl⟩ := Nat.exists_eq_succ_of_ne_zero (Nat.ne_zero_of_lt enough)
    simp only [head_of_cons, freeAll, stored.1]
    rw [inductionHypothesis _ fuel (stored_pop stored distinct) (List.nodup_cons.mp distinct).2
      (by simpa using enough)]
    refine congrArg some (funext fun address => ?_)
    have members : address ∈ addresses (node :: rest) ↔
        address = node.1 ∨ address ∈ addresses rest := List.mem_cons
    by_cases first : address = node.1
    · rw [if_pos (members.mpr (Or.inl first)), first, Function.update_self, ite_self]
    · rw [Function.update_of_ne first]
      simp only [members, first, false_or]

end Pyrometer.LinkedLists
