import Pyrometer.RingLists
import Pyrometer.Runs

/-!
# The circular doubly linked list of `hq_cdllist.c`

Each operation writes links one after the other, and reads links that it may have written
before. The contents say what the list is for: adding puts a node in front or at the end,
and deleting takes a node out. The nodes that were deleted, and not added again since, are
kept beside the list.

A node is any thing that can be told from others, as the pointers to it are only compared.
A run starts with `list_init`, whatever was in memory before.
-/

namespace Pyrometer.CircularList

open RingLists Runs

variable {Node : Type} [DecidableEq Node]

/-- A write of `next`. -/
def setNext (links : Links Node) (node value : Node) : Links Node :=
  { links with next := setLink links.next node value }

/-- A write of `prev`. -/
def setPrev (links : Links Node) (node value : Node) : Links Node :=
  { links with prev := setLink links.prev node value }

/-- `list_init`. -/
def listInit (links : Links Node) (head : Node) : Links Node :=
  let links := setNext links head head
  setPrev links head head

/-- `list_add`. -/
def listAdd (links : Links Node) (item head : Node) : Links Node :=
  let links := setPrev links (links.next head) item
  let links := setNext links item (links.next head)
  let links := setPrev links item head
  setNext links head item

/-- `list_add_tail`. -/
def listAddTail (links : Links Node) (item head : Node) : Links Node :=
  let links := setPrev links item (links.prev head)
  let links := setNext links (links.prev head) item
  let links := setNext links item head
  setPrev links head item

/-- `list_del`. -/
def listDel (links : Links Node) (item : Node) : Links Node :=
  let links := setPrev links (links.next item) (links.prev item)
  let links := setNext links (links.prev item) (links.next item)
  let links := setNext links item item
  setPrev links item item

/-- The calls on one list. -/
inductive Call (Node : Type) where
  | init
  | add (item : Node)
  | addTail (item : Node)
  | del (item : Node)

/-- One call. -/
def call (head : Node) (links : Links Node) : Call Node → Links Node
  | .init => listInit links head
  | .add item => listAdd links item head
  | .addTail item => listAddTail links item head
  | .del item => listDel links item

/-- The nodes of the list, and those that were deleted and not added since. -/
structure Contents (Node : Type) where
  items : List Node
  deleted : List Node

/-- What a call is for. -/
def contentsAfter (contents : Contents Node) : Call Node → Contents Node
  | .init => { contents with items := [] }
  | .add item => ⟨item :: contents.items, contents.deleted.filter (· != item)⟩
  | .addTail item => ⟨contents.items ++ [item], contents.deleted.filter (· != item)⟩
  | .del item => ⟨contents.items.erase item, item :: contents.deleted⟩

/-- Only nodes that are not in the list are added, and only nodes in it are deleted. -/
def Allowed (head : Node) (contents : Contents Node) : Call Node → Prop
  | .init => True
  | .add item => item ∉ head :: contents.items
  | .addTail item => item ∉ head :: contents.items
  | .del item => item ∈ contents.items

/-- The links form the ring of the contents, and deleted nodes are rings of their own. -/
structure Represents (head : Node) (contents : Contents Node) (links : Links Node) : Prop where
  ring : Ring links head contents.items
  outside : ∀ node ∈ contents.deleted, node ∉ head :: contents.items
  alone : ∀ node ∈ contents.deleted, Ring links node []

/-- An initialised head is a ring of its own, whatever was in memory before. -/
theorem init_alone (links : Links Node) (head : Node) : Ring (listInit links head) head [] :=
  ring_alone.mpr ⟨set_same _ head head, set_same _ head head⟩

/-- `list_add` sets the node in between the head and what is behind it. -/
theorem add_splices {links : Links Node} {head item : Node} {items : List Node}
    (ring : Ring links head items) (new : item ∉ head :: items) :
    listAdd links item head =
      ⟨spliceIn links.next head item, spliceIn links.prev (items.headD head) item⟩ := by
  have first : links.next head = items.headD head := walk_first ring.forward
  have back : links.prev (items.headD head) = head :=
    first ▸ (ring_inverse ring head List.mem_cons_self).1
  have apart : items.headD head ≠ item := by
    intro same
    exact new (same ▸ first_mem head items)
  have writes : listAdd links item head = ⟨spliceIn links.next head item,
      setLink (setLink links.prev (links.next head) item) item head⟩ := rfl
  rw [writes, first, splice_in_late back apart]

/-- `list_add_tail` sets the node in between the last node and the head. -/
theorem add_tail_splices {links : Links Node} {head item : Node} {items : List Node}
    (ring : Ring links head items) (new : item ∉ head :: items) :
    listAddTail links item head =
      ⟨spliceIn links.next (items.getLastD head) item, spliceIn links.prev head item⟩ := by
  have last : links.prev head = items.getLastD head := by
    simpa using walk_first ring.backward
  have back : links.next (items.getLastD head) = head :=
    last ▸ (ring_inverse ring head List.mem_cons_self).2
  have apart : items.getLastD head ≠ item := by
    intro same
    exact new (same ▸ List.getLastD_mem_cons)
  have other : head ≠ item := by
    rintro rfl
    exact new List.mem_cons_self
  have writes : listAddTail links item head =
      ⟨setLink (setLink links.next (setLink links.prev item (links.prev head) head) item) item head,
        spliceIn links.prev head item⟩ := rfl
  rw [writes, set_other _ _ other, last, splice_in_late back apart]

/-- `list_del` takes the node out from between its neighbours. -/
theorem del_splices {links : Links Node} {item : Node} (apart : links.next item ≠ item) :
    listDel links item =
      ⟨spliceOut links.next (links.prev item) item,
        spliceOut links.prev (links.next item) item⟩ := by
  have writes : listDel links item =
      ⟨setLink (setLink links.next (setLink links.prev (links.next item) (links.prev item) item)
        (links.next item)) item item, spliceOut links.prev (links.next item) item⟩ := rfl
  have kept : setLink links.prev (links.next item) (links.prev item) item = links.prev item :=
    set_other links.prev _ apart.symm
  rw [writes, kept]
  rfl

/-- `list_init` empties the list. -/
theorem init_represents {head : Node} {contents : Contents Node} {links : Links Node}
    (before : Represents head contents links) :
    Represents head ⟨[], contents.deleted⟩ (listInit links head) where
  ring := init_alone links head
  outside := by
    intro node member
    have apart := List.ne_of_not_mem_cons (before.outside node member)
    exact List.not_mem_cons_of_ne_of_not_mem apart List.not_mem_nil
  alone := by
    intro node member
    have apart := List.ne_of_not_mem_cons (before.outside node member)
    obtain ⟨next, prev⟩ := ring_alone.mp (before.alone node member)
    exact ring_alone.mpr ⟨(set_other _ head apart).trans next, (set_other _ head apart).trans prev⟩

/-- A node that is set in belongs to the list, and is no longer among the deleted ones. -/
theorem splice_represents {head item : Node} {contents : Contents Node} {links : Links Node}
    (before : Represents head contents links) (left right : List Node)
    (split : contents.items = left ++ right) (new : item ∉ head :: contents.items) :
    Represents head ⟨left ++ item :: right, contents.deleted.filter (· != item)⟩
      ⟨spliceIn links.next (left.getLastD head) item,
        spliceIn links.prev (right.headD head) item⟩ where
  ring := ring_splice_in (split ▸ before.ring) (split ▸ new)
  outside := by
    intro node member
    obtain ⟨deleted, other⟩ := List.mem_filter.mp member
    have outside := before.outside node deleted
    rw [split] at outside
    have apart : node ≠ item := bne_iff_ne.mp other
    simp only [List.mem_cons, List.mem_append, not_or] at outside ⊢
    exact ⟨outside.1, outside.2.1, apart, outside.2.2⟩
  alone := by
    intro node member
    obtain ⟨deleted, other⟩ := List.mem_filter.mp member
    have outside := before.outside node deleted
    have apart : node ≠ item := bne_iff_ne.mp other
    obtain ⟨next, prev⟩ := ring_alone.mp (before.alone node deleted)
    rw [split] at outside
    obtain ⟨inside, behind⟩ := around_mem head left right
    have last : node ≠ left.getLastD head := fun same => outside (same ▸ inside)
    have first : node ≠ right.headD head := fun same => outside (same ▸ behind)
    exact ring_alone.mpr ⟨(splice_in_other _ last apart).trans next,
      (splice_in_other _ first apart).trans prev⟩

/-- `list_del` takes a node out of the list and puts it among the deleted ones. -/
theorem del_represents {head item : Node} {contents : Contents Node} {links : Links Node}
    (before : Represents head contents links) (member : item ∈ contents.items) :
    Represents head ⟨contents.items.erase item, item :: contents.deleted⟩
      (listDel links item) := by
  have apart := ring_next_ne before.ring member
  obtain ⟨left, right, -, split, erased⟩ := List.exists_erase_eq member
  have ring := split ▸ before.ring
  rw [del_splices apart, erased]
  have others : ∀ node ∈ contents.deleted, node ≠ item ∧ node ∉ head :: (left ++ right) := by
    intro node deleted
    have outside := before.outside node deleted
    rw [split, (moved_front head item left right).mem_iff] at outside
    exact List.ne_and_not_mem_of_not_mem_cons outside
  refine ⟨ring_splice_out ring, ?_, ?_⟩
  · intro node gone
    rcases List.mem_cons.mp gone with rfl | deleted
    · exact ring_once ring
    · exact (others node deleted).2
  · intro node gone
    rcases List.mem_cons.mp gone with rfl | deleted
    · exact splice_out_alone links node
    · obtain ⟨distinct, outside⟩ := others node deleted
      obtain ⟨next, prev⟩ := ring_alone.mp (before.alone node deleted)
      obtain ⟨behind, inFront⟩ := ring_neighbours ring
      obtain ⟨inside, beyond⟩ := around_mem head left right
      have last : node ≠ links.prev item := fun same => outside (same ▸ inFront ▸ inside)
      have first : node ≠ links.next item := fun same => outside (same ▸ behind ▸ beyond)
      exact ring_alone.mpr ⟨(splice_out_other _ last distinct).trans next,
        (splice_out_other _ first distinct).trans prev⟩

/-- A call keeps the links to the contents. -/
theorem call_represents {head : Node} {contents : Contents Node} {links : Links Node}
    (event : Call Node) (before : Represents head contents links)
    (allowed : Allowed head contents event) :
    Represents head (contentsAfter contents event) (call head links event) := by
  cases event with
  | init => exact init_represents before
  | add item =>
    have spliced := splice_represents before [] contents.items rfl allowed
    rw [call, add_splices before.ring allowed]
    exact spliced
  | addTail item =>
    have spliced := splice_represents before contents.items [] (List.append_nil _).symm allowed
    rw [call, add_tail_splices before.ring allowed]
    exact spliced
  | del item => exact del_represents before allowed

/-- What the links of a list show: the nodes of the list forwards and backwards, links that
are inverse on the ring, and deleted nodes that lead to themselves. -/
structure Circular (links : Links Node) (head : Node) (contents : Contents Node) : Prop where
  forward : Walk links.next head contents.items head
  backward : Walk links.prev head contents.items.reverse head
  distinct : (head :: contents.items).Nodup
  inverse : ∀ node ∈ head :: contents.items,
    links.prev (links.next node) = node ∧ links.next (links.prev node) = node
  alone : ∀ node ∈ contents.deleted, links.next node = node ∧ links.prev node = node

/-- After every run of allowed calls on an initialised list, the links show the contents. -/
theorem circular_list (links : Links Node) (head : Node) (calls : List (Call Node))
    (allowed : Along contentsAfter (Allowed head) ⟨[], []⟩ calls) :
    Circular (run (call head) (listInit links head) calls) head
      (run contentsAfter ⟨[], []⟩ calls) := by
  have start : Represents head ⟨[], []⟩ (listInit links head) :=
    ⟨init_alone links head, fun _ member => absurd member List.not_mem_nil,
      fun _ member => absurd member List.not_mem_nil⟩
  have after := along_simulation contentsAfter (call head)
    (fun _ _ event before allowed => call_represents event before allowed) ⟨[], []⟩
    (listInit links head) start calls allowed
  exact ⟨after.ring.forward, after.ring.backward, after.ring.distinct, ring_inverse after.ring,
    fun node member => ring_alone.mp (after.alone node member)⟩

/-- Two nodes are added and the first of them is deleted. -/
theorem circular_list_two :
    Circular (run (call 0) (listInit ⟨fun node => node + 1, fun _ => 7⟩ 0)
      [.add 1, .addTail 2, .del 1]) 0 ⟨[2], [1]⟩ :=
  circular_list ⟨fun node => node + 1, fun _ => 7⟩ 0 [.add 1, .addTail 2, .del 1]
    (by simp [Along, Allowed, contentsAfter])

end Pyrometer.CircularList
