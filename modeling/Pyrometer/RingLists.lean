import Mathlib.Tactic

/-!
# Rings of linked cells

A walk follows a link from a start through a list of nodes to a stop. A ring is a list of
nodes that one link walks from the head back to the head and the other link walks in the
reverse order; no node is in it twice, and the head is not in the list. A node is linked
into a ring between two neighbours, and it is unlinked from between them.
-/

namespace Pyrometer.RingLists

variable {Node : Type}

/-- A link from the start through a list of nodes to the stop. -/
def Walk (link : Node → Node) (start : Node) : List Node → Node → Prop
  | [], stop => link start = stop
  | node :: rest, stop => link start = node ∧ Walk link node rest stop

/-- The two links of all nodes. -/
structure Links (Node : Type) where
  next : Node → Node
  prev : Node → Node

/-- A ring of a head and a list of nodes. -/
structure Ring (links : Links Node) (head : Node) (items : List Node) : Prop where
  forward : Walk links.next head items head
  backward : Walk links.prev head items.reverse head
  distinct : (head :: items).Nodup

/-- A walk goes through a node as a walk to it and a walk from it. -/
theorem walk_append (link : Node → Node) (start node stop : Node) (left right : List Node) :
    Walk link start (left ++ node :: right) stop ↔
      Walk link start left node ∧ Walk link node right stop := by
  induction left generalizing start with
  | nil => exact Iff.rfl
  | cons first rest inductionHypothesis =>
    rw [List.cons_append, Walk, Walk, inductionHypothesis, and_assoc]

/-- A walk starts with its first node. -/
theorem walk_first {link : Node → Node} {start stop : Node} {items : List Node}
    (walk : Walk link start items stop) : link start = items.headD stop := by
  cases items with
  | nil => exact walk
  | cons first rest => exact walk.1

/-- A walk depends on where its start leads and on the links of the nodes it comes through. -/
theorem walk_congr {link other : Node → Node} {start beginning stop : Node} {items : List Node}
    (walk : Walk link start items stop) (same : other beginning = link start)
    (through : ∀ node ∈ items, other node = link node) : Walk other beginning items stop := by
  induction items generalizing start beginning with
  | nil => exact same.trans walk
  | cons first rest inductionHypothesis =>
    refine ⟨same.trans walk.1, ?_⟩
    exact inductionHypothesis walk.2 (through first List.mem_cons_self)
      fun node member => through node (.tail _ member)

/-- Two walks against each other are inverse on the nodes between them. -/
theorem walk_inverse {link back : Node → Node} {start stop : Node} {items : List Node}
    (walk : Walk link start items stop) (against : Walk back stop items.reverse start) :
    ∀ node ∈ start :: items, back (link node) = node := by
  induction items generalizing start with
  | nil =>
    intro node member
    rw [List.mem_singleton.mp member, show link start = stop from walk]
    exact against
  | cons first rest inductionHypothesis =>
    rw [List.reverse_cons, walk_append] at against
    intro node member
    rcases List.mem_cons.mp member with rfl | later
    · rw [walk.1]
      exact against.2
    · exact inductionHypothesis walk.2 against.1 node later

/-- The last node of a part is no node that is not in the list. -/
theorem ne_last {start first : Node} {rest right : List Node}
    (outside : start ∉ first :: rest ++ right) : start ≠ rest.getLastD first := by
  intro same
  apply outside
  rw [same]
  exact List.mem_append_left right List.getLastD_mem_cons

/-- A ring the other way round. -/
theorem ring_reverse {links : Links Node} {head : Node} {items : List Node}
    (ring : Ring links head items) : Ring ⟨links.prev, links.next⟩ head items.reverse where
  forward := ring.backward
  backward := (List.reverse_reverse items).symm ▸ ring.forward
  distinct := ((List.reverse_perm items).cons head).nodup_iff.mpr ring.distinct

/-- The first node of a list, or the head of an empty one, is in the ring. -/
theorem first_mem (head : Node) (items : List Node) : items.headD head ∈ head :: items := by
  cases items with
  | nil => exact List.mem_cons_self
  | cons first rest => exact .tail _ List.mem_cons_self

/-- The nodes around a place in a ring are in the ring. -/
theorem around_mem (head : Node) (left right : List Node) :
    left.getLastD head ∈ head :: (left ++ right) ∧ right.headD head ∈ head :: (left ++ right) :=
  ⟨List.cons_subset_cons head (List.subset_append_left left right) List.getLastD_mem_cons,
    List.cons_subset_cons head (List.subset_append_right left right) (first_mem head right)⟩

/-- A node can be moved to the front of the head. -/
theorem moved_front (head item : Node) (left right : List Node) :
    (head :: (left ++ item :: right)).Perm (item :: head :: (left ++ right)) :=
  (List.perm_middle.cons head).trans (.swap item head _)

/-- A node is in a ring once. -/
theorem ring_once {links : Links Node} {head item : Node} {left right : List Node}
    (ring : Ring links head (left ++ item :: right)) : item ∉ head :: (left ++ right) :=
  (List.nodup_cons.mp ((moved_front head item left right).nodup_iff.mp ring.distinct)).1

/-- The neighbours of a node of a ring. -/
theorem ring_neighbours {links : Links Node} {head item : Node} {left right : List Node}
    (ring : Ring links head (left ++ item :: right)) :
    links.next item = right.headD head ∧ links.prev item = left.getLastD head := by
  have forward := ring.forward
  have backward := ring.backward
  rw [List.reverse_append, List.reverse_cons, List.append_assoc, List.singleton_append] at backward
  rw [walk_append] at forward backward
  refine ⟨walk_first forward.2, ?_⟩
  have first := walk_first backward.2
  simpa using first

/-- A node of the list does not lead back to itself. -/
theorem ring_next_ne {links : Links Node} {head item : Node} {items : List Node}
    (ring : Ring links head items) (member : item ∈ items) : links.next item ≠ item := by
  obtain ⟨left, right, rfl⟩ := List.append_of_mem member
  intro same
  have next := (ring_neighbours ring).1
  have behind : item ∈ head :: right := same ▸ next ▸ first_mem head right
  obtain ⟨outside, inner⟩ := List.nodup_cons.mp ring.distinct
  rcases List.mem_cons.mp behind with rfl | twice
  · exact outside member
  · exact (List.nodup_cons.mp (List.nodup_append.mp inner).2.1).1 twice

/-- A node is a ring of its own when both its links lead back to it. -/
theorem ring_alone {links : Links Node} {node : Node} :
    Ring links node [] ↔ links.next node = node ∧ links.prev node = node :=
  ⟨fun ring => ⟨ring.forward, ring.backward⟩,
    fun both => ⟨both.1, both.2, List.nodup_singleton node⟩⟩

/-- The links of each node of a ring lead to its neighbours and back. -/
theorem ring_inverse {links : Links Node} {head : Node} {items : List Node}
    (ring : Ring links head items) :
    ∀ node ∈ head :: items, links.prev (links.next node) = node ∧
      links.next (links.prev node) = node := by
  intro node member
  have reversed := ring_reverse ring
  have mirrored : node ∈ head :: items.reverse := by simpa using member
  exact ⟨walk_inverse ring.forward ring.backward node member,
    walk_inverse reversed.forward reversed.backward node mirrored⟩

variable [DecidableEq Node]

/-- The link of one node set. -/
def setLink (link : Node → Node) (node value : Node) : Node → Node :=
  fun other => if other = node then value else link other

/-- The node is what it is set to. -/
theorem set_same (link : Node → Node) (node value : Node) : setLink link node value node = value :=
  if_pos rfl

/-- Other nodes are left alone. -/
theorem set_other {node other : Node} (link : Node → Node) (value : Node) (apart : other ≠ node) :
    setLink link node value other = link other :=
  if_neg apart

/-- The order in which two nodes are set does not matter. -/
theorem set_comm {node other : Node} (link : Node → Node) (value last : Node)
    (apart : node ≠ other) :
    setLink (setLink link node value) other last =
      setLink (setLink link other last) node value := by
  funext place
  by_cases first : place = node
  · subst first
    rw [set_same, set_other _ last apart, set_same]
  · rw [set_other _ value first]
    by_cases second : place = other
    · rw [second, set_same, set_same]
    · rw [set_other _ last second, set_other _ last second, set_other _ value first]

/-- The link with a node set in behind another. -/
def spliceIn (link : Node → Node) (before item : Node) : Node → Node :=
  setLink (setLink link item (link before)) before item

/-- The link with a node taken out behind another, and led to itself. -/
def spliceOut (link : Node → Node) (before item : Node) : Node → Node :=
  setLink (setLink link before (link item)) item item

/-- A node can be led onward after it was set in, where what is behind is known. -/
theorem splice_in_late {link : Node → Node} {before item behind : Node}
    (known : link before = behind) (apart : before ≠ item) :
    setLink (setLink link before item) item behind = spliceIn link before item := by
  rw [set_comm link item behind apart, spliceIn, known]

/-- Nodes elsewhere are left alone where a node is set in. -/
theorem splice_in_other {before item other : Node} (link : Node → Node) (apart : other ≠ before)
    (distinct : other ≠ item) : spliceIn link before item other = link other :=
  (set_other _ item apart).trans (set_other link _ distinct)

/-- Nodes elsewhere are left alone where a node is taken out. -/
theorem splice_out_other {before item other : Node} (link : Node → Node) (apart : other ≠ before)
    (distinct : other ≠ item) : spliceOut link before item other = link other :=
  (set_other _ item distinct).trans (set_other link _ apart)

/-- A node is set in behind the last one of the first part of a walk. -/
theorem walk_splice_in {link : Node → Node} {start stop item : Node} {left right : List Node}
    (walk : Walk link start (left ++ right) stop) (distinct : (start :: (left ++ right)).Nodup)
    (new : item ∉ start :: (left ++ right)) :
    Walk (spliceIn link (left.getLastD start) item) start (left ++ item :: right) stop := by
  induction left generalizing start with
  | nil =>
    obtain ⟨apart, outside⟩ := List.ne_and_not_mem_of_not_mem_cons new
    obtain ⟨once, -⟩ := List.nodup_cons.mp distinct
    rw [List.getLastD_nil]
    refine ⟨set_same _ start item, walk_congr walk ?_ ?_⟩
    · exact (set_other _ item apart).trans (set_same link item _)
    · intro node member
      exact splice_in_other link (fun same => once (same ▸ member))
        fun same => outside (same ▸ member)
  | cons first rest inductionHypothesis =>
    obtain ⟨apart, outside⟩ := List.ne_and_not_mem_of_not_mem_cons new
    obtain ⟨once, others⟩ := List.nodup_cons.mp distinct
    rw [List.getLastD_cons]
    refine ⟨?_, inductionHypothesis walk.2 others outside⟩
    have behind := ne_last once
    calc spliceIn link (rest.getLastD first) item start
      _ = link start := splice_in_other link behind (Ne.symm apart)
      _ = first := walk.1

/-- A node is taken out behind the last one of the first part of a walk. -/
theorem walk_splice_out {link : Node → Node} {start stop item : Node} {left right : List Node}
    (walk : Walk link start (left ++ item :: right) stop)
    (distinct : (start :: (left ++ item :: right)).Nodup) :
    Walk (spliceOut link (left.getLastD start) item) start (left ++ right) stop := by
  induction left generalizing start with
  | nil =>
    obtain ⟨once, others⟩ := List.nodup_cons.mp distinct
    obtain ⟨apart, outside⟩ := List.ne_and_not_mem_of_not_mem_cons once
    obtain ⟨alone, -⟩ := List.nodup_cons.mp others
    rw [List.getLastD_nil]
    refine walk_congr walk.2 ?_ ?_
    · exact (set_other _ item apart).trans (set_same link start _)
    · intro node member
      exact splice_out_other link (fun same => outside (same ▸ member))
        fun same => alone (same ▸ member)
  | cons first rest inductionHypothesis =>
    obtain ⟨once, others⟩ := List.nodup_cons.mp distinct
    rw [List.getLastD_cons]
    refine ⟨?_, inductionHypothesis walk.2 others⟩
    have behind := ne_last once
    have apart : start ≠ item := by
      rintro rfl
      exact once (List.mem_append_right _ List.mem_cons_self)
    calc spliceOut link (rest.getLastD first) item start
      _ = link start := splice_out_other link behind apart
      _ = first := walk.1

/-- A node is linked into a ring between its neighbours. -/
theorem ring_splice_in {links : Links Node} {head item : Node} {left right : List Node}
    (ring : Ring links head (left ++ right)) (new : item ∉ head :: (left ++ right)) :
    Ring ⟨spliceIn links.next (left.getLastD head) item,
        spliceIn links.prev (right.headD head) item⟩
      head (left ++ item :: right) where
  forward := walk_splice_in ring.forward ring.distinct new
  backward := by
    have reversed := ring_reverse ring
    rw [List.reverse_append] at reversed
    have spliced := walk_splice_in reversed.forward reversed.distinct (by simpa [or_comm] using new)
    simpa using spliced
  distinct := (moved_front head item left right).nodup_iff.mpr
    (List.nodup_cons.mpr ⟨new, ring.distinct⟩)

/-- A node that is unlinked is a ring of its own. -/
theorem splice_out_alone (links : Links Node) (item : Node) :
    Ring ⟨spliceOut links.next (links.prev item) item, spliceOut links.prev (links.next item) item⟩
      item [] :=
  ring_alone.mpr ⟨set_same _ item item, set_same _ item item⟩

/-- A node is unlinked from between its neighbours. -/
theorem ring_splice_out {links : Links Node} {head item : Node} {left right : List Node}
    (ring : Ring links head (left ++ item :: right)) :
    Ring ⟨spliceOut links.next (links.prev item) item, spliceOut links.prev (links.next item) item⟩
      head (left ++ right) := by
  obtain ⟨next, prev⟩ := ring_neighbours ring
  rw [next, prev]
  refine ⟨walk_splice_out ring.forward ring.distinct, ?_, ?_⟩
  · have reversed := ring_reverse ring
    rw [List.reverse_append, List.reverse_cons, List.append_assoc, List.singleton_append]
      at reversed
    have spliced := walk_splice_out reversed.forward reversed.distinct
    simpa using spliced
  · have fewer : (left ++ right).Sublist (left ++ item :: right) :=
      (List.sublist_cons_self item right).append_left left
    exact ring.distinct.sublist (fewer.cons_cons head)

end Pyrometer.RingLists
