import Pyrometer.ByteMemory
import Pyrometer.LinkedLists
import Pyrometer.Runs

/-!
# The command hash table

`hq_hash.c` keeps entries of a command and its identifier in 101 buckets; a bucket is a linked
list in the heap, and the hash of the command, which wraps at 32 bits, selects it. A string is
the list of its bytes. An operation that adds an entry carries what its two calls of
`pvPortMalloc` give: the address of a block that is not in use, or nothing, for the entry, and
whether there is a block for the string.

A table whose loops run out of fuel or follow a pointer to no entry is lost. `Represents` says
which lists the buckets hold and `Holds` which map from commands to identifiers these are. The
mutex is left out: an operation is one step. Characters are unsigned.
-/

namespace Pyrometer.HashTable

open ByteMemory LinkedLists Runs

/-- `HASH_TABLE_SIZE` -/
def hashTableSize : Nat := 101

/-- What an entry holds besides the pointer to the next one. -/
structure Item where
  cmdStr : List Byte
  cmdId : BitVec 16

/-- The hash table and the entries in the heap. -/
structure Table where
  heap : Heap Item
  table : Nat → Option Nat

/-- `cmd_hash_init`, with no entry in the heap. -/
def cmdHashInit : Table := ⟨fun _ => none, fun _ => none⟩

/-- The loop of `hash_func`. -/
def hashWord (str : List Byte) : BitVec 32 :=
  str.foldl (fun hash char => ((hash <<< 5) + hash) + char.setWidth 32) 5381#32

/-- `hash_func` -/
def hashFunc (str : List Byte) : Nat := (hashWord str).toNat % hashTableSize

/-- `strcmp` of an entry's command. -/
def named (cmd : List Byte) (item : Item) : Bool := item.cmdStr == cmd

variable (fuel : Nat)

/-- The walk of a bucket to the entry of a command. -/
def walk (table : Table) (cmd : List Byte) : Option (Option (Option Nat × Nat)) :=
  locate table.heap (named cmd) fuel none (table.table (hashFunc cmd))

/-- `cmd_hash_add` -/
def cmdHashAdd (table : Table) (cmd : List Byte) (cmdId : BitVec 16) (entryBlock : Option Nat)
    (stringBlock : Bool) : Option Table := do
  match ← walk fuel table cmd with
  | some (_, entry) =>
      let cell ← table.heap entry
      pure { table with
        heap := Function.update table.heap entry
          (some { cell with value := { cell.value with cmdId := cmdId } }) }
  | none =>
      match entryBlock with
      | none => pure table
      | some entry =>
          if stringBlock then
            pure {
              heap := Function.update table.heap entry
                (some ⟨⟨cmd, cmdId⟩, table.table (hashFunc cmd)⟩)
              table := Function.update table.table (hashFunc cmd) (some entry) }
          else pure { table with heap := Function.update table.heap entry none }

/-- `cmd_hash_find` -/
def cmdHashFind (table : Table) (cmd : List Byte) : Option (Option Nat) :=
  (walk fuel table cmd).map (fun found => found.map Prod.snd)

/-- `cmd_hash_remove` -/
def cmdHashRemove (table : Table) (cmd : List Byte) : Option Table := do
  match ← walk fuel table cmd with
  | none => pure table
  | some (prev, entry) =>
      let cell ← table.heap entry
      match prev with
      | none =>
          pure {
            heap := Function.update table.heap entry none
            table := Function.update table.table (hashFunc cmd) cell.next }
      | some prev =>
          let before ← table.heap prev
          pure { table with
            heap := Function.update
              (Function.update table.heap prev (some { before with next := cell.next }))
              entry none }

/-- One bucket of `cmd_hash_clear`. -/
def clearBucket (table : Table) (index : Nat) : Option Table :=
  (freeAll fuel table.heap (table.table index)).map
    (fun heap => ⟨heap, Function.update table.table index none⟩)

/-- `cmd_hash_clear` -/
def cmdHashClear (table : Table) : Option Table :=
  (List.range hashTableSize).foldlM (clearBucket fuel) table

/-- What is done with the table. -/
inductive Event where
  | add (cmd : List Byte) (cmdId : BitVec 16) (entryBlock : Option Nat) (stringBlock : Bool)
  | find (cmd : List Byte)
  | remove (cmd : List Byte)
  | clear

/-- The table after an operation; a lost table stays lost. -/
def step (table : Option Table) (event : Event) : Option Table :=
  table.bind fun table =>
    match event with
    | .add cmd cmdId entryBlock stringBlock =>
        cmdHashAdd fuel table cmd cmdId entryBlock stringBlock
    | .find cmd => (cmdHashFind fuel table cmd).map fun _ => table
    | .remove cmd => cmdHashRemove fuel table cmd
    | .clear => cmdHashClear fuel table

/-- A block that the allocator gives is not in use. -/
def Fresh (table : Option Table) : Event → Prop
  | .add _ _ (some entry) _ => ∀ here, table = some here → here.heap entry = none
  | _ => True

/-- The finite map that the table stands for. -/
abbrev Commands := List Byte → Option (BitVec 16)

/-- The map after an operation: an identifier is recorded if the command is known or both
blocks are there. -/
def Commands.step (commands : Commands) : Event → Commands
  | .add cmd cmdId entryBlock stringBlock =>
      if (commands cmd).isSome ∨ (entryBlock.isSome ∧ stringBlock) then
        Function.update commands cmd (some cmdId)
      else commands
  | .find _ => commands
  | .remove cmd => Function.update commands cmd none
  | .clear => fun _ => none

/-- The lists in the buckets: entries of the table are entries of one bucket, of the one that
the hash of their command selects, and no two have the same command. -/
structure Represents (table : Table) (buckets : Nat → List (Nat × Item)) : Prop where
  heads : ∀ index, table.table index = headOf (buckets index)
  stored : ∀ index, Stored table.heap (buckets index)
  distinct : ∀ index, (addresses (buckets index)).Nodup
  apart : ∀ left right, left ≠ right → ∀ address ∈ addresses (buckets left),
    address ∉ addresses (buckets right)
  hashed : ∀ index, ∀ node ∈ buckets index, hashFunc node.2.cmdStr = index
  once : ∀ index, ((buckets index).map fun node => node.2.cmdStr).Nodup

/-- The lists in the buckets are those of a map. -/
def Holds (buckets : Nat → List (Nat × Item)) (commands : Commands) : Prop :=
  ∀ cmd cmdId, commands cmd = some cmdId ↔
    ∃ address, (address, ⟨cmd, cmdId⟩) ∈ buckets (hashFunc cmd)

/-- A bucket either has no entry of a command, or one, and no other. -/
theorem bucket_cases {table : Table} {buckets : Nat → List (Nat × Item)}
    (represents : Represents table buckets) (cmd : List Byte) (index : Nat) :
    (∀ node ∈ buckets index, named cmd node.2 = false) ∨
      ∃ front address cmdId back, buckets index = front ++ (address, ⟨cmd, cmdId⟩) :: back ∧
        (∀ node ∈ front, named cmd node.2 = false) ∧
        ∀ node ∈ front ++ back, node.2.cmdStr ≠ cmd := by
  by_cases missing : ∀ node ∈ buckets index, named cmd node.2 = false
  · exact Or.inl missing
  · push Not at missing
    obtain ⟨⟨address, item⟩, member, found⟩ := missing
    obtain ⟨front, back, whole⟩ := List.append_of_mem member
    have same : item.cmdStr = cmd := by simpa [named] using found
    have once := represents.once index
    simp only [whole, List.map_append, List.map_cons, List.nodup_append, List.nodup_cons,
      same] at once
    obtain ⟨-, ⟨behind, -⟩, before⟩ := once
    have frontOther : ∀ node ∈ front, node.2.cmdStr ≠ cmd := fun node inside =>
      before _ (List.mem_map_of_mem inside) cmd (by simp)
    have backOther : ∀ node ∈ back, node.2.cmdStr ≠ cmd := by
      intro node inside equal
      exact behind (equal ▸ List.mem_map_of_mem inside)
    refine Or.inr ⟨front, address, item.cmdId, back, ?_, ?_, ?_⟩
    · rw [whole, ← same]
    · intro node inside
      simpa [named] using frontOther node inside
    · intro node inside
      rcases List.mem_append.mp inside with first | second
      · exact frontOther node first
      · exact backOther node second

/-- The walk of a bucket without an entry of the command. -/
theorem walk_missing {table : Table} {buckets : Nat → List (Nat × Item)}
    (represents : Represents table buckets) (cmd : List Byte)
    (enough : (buckets (hashFunc cmd)).length < fuel)
    (missing : ∀ node ∈ buckets (hashFunc cmd), named cmd node.2 = false) :
    walk fuel table cmd = some none := by
  rw [walk, represents.heads]
  exact locate_missing _ _ _ fuel none (represents.stored _) missing enough

/-- The walk of a bucket with an entry of the command. -/
theorem walk_found {table : Table} {buckets : Nat → List (Nat × Item)}
    (represents : Represents table buckets) (cmd : List Byte)
    (enough : (buckets (hashFunc cmd)).length < fuel) {front back : List (Nat × Item)}
    {address : Nat} {cmdId : BitVec 16}
    (whole : buckets (hashFunc cmd) = front ++ (address, ⟨cmd, cmdId⟩) :: back)
    (other : ∀ node ∈ front, named cmd node.2 = false) :
    walk fuel table cmd = some (some (lastOf none front, address)) := by
  have stored := represents.stored (hashFunc cmd)
  rw [whole] at stored enough
  rw [walk, represents.heads, whole]
  refine locate_found _ _ front back (address, ⟨cmd, cmdId⟩) fuel none stored other
    (by simp [named]) ?_
  simp only [List.length_append] at enough
  omega

/-- One bucket gets another list: the other buckets keep theirs if the heap keeps their cells
and their addresses are not used for the new one. -/
theorem represents_replace {table : Table} {buckets : Nat → List (Nat × Item)}
    (represents : Represents table buckets) {changed : Table} (index : Nat)
    (nodes : List (Nat × Item))
    (head : changed.table = Function.update table.table index (headOf nodes))
    (stored : Stored changed.heap nodes) (distinct : (addresses nodes).Nodup)
    (kept : ∀ other, other ≠ index → ∀ address ∈ addresses (buckets other),
      changed.heap address = table.heap address ∧ address ∉ addresses nodes)
    (hashed : ∀ node ∈ nodes, hashFunc node.2.cmdStr = index)
    (once : (nodes.map fun node => node.2.cmdStr).Nodup) :
    Represents changed (Function.update buckets index nodes) := by
  have own : Function.update buckets index nodes index = nodes := Function.update_self _ _ _
  have others : ∀ other, other ≠ index → Function.update buckets index nodes other =
      buckets other := fun other apart => Function.update_of_ne apart _ _
  constructor
  case heads =>
    intro other
    rw [head]
    by_cases same : other = index
    · rw [same, own, Function.update_self]
    · rw [others other same, Function.update_of_ne same, represents.heads]
  case stored =>
    refine (Function.forall_update_iff buckets fun _ => Stored changed.heap).mpr ⟨stored, ?_⟩
    intro other apart
    exact stored_frame (fun address member => (kept other apart address member).1)
      (represents.stored other)
  case distinct =>
    exact (Function.forall_update_iff buckets fun _ nodes => (addresses nodes).Nodup).mpr
      ⟨distinct, fun other _ => represents.distinct other⟩
  case apart =>
    intro left right unequal address member
    by_cases first : left = index
    · have second : right ≠ index := fun same => unequal (first.trans same.symm)
      rw [first, own] at member
      rw [others right second]
      exact fun inside => (kept right second address inside).2 member
    · rw [others left first] at member
      by_cases second : right = index
      · rw [second, own]
        exact (kept left first address member).2
      · rw [others right second]
        exact represents.apart left right unequal address member
  case hashed =>
    exact (Function.forall_update_iff buckets fun other nodes =>
      ∀ node ∈ nodes, hashFunc node.2.cmdStr = other).mpr
      ⟨hashed, fun other _ => represents.hashed other⟩
  case once =>
    exact (Function.forall_update_iff buckets fun _ nodes =>
      (nodes.map fun node => node.2.cmdStr).Nodup).mpr ⟨once, fun other _ => represents.once other⟩

/-- One bucket gets another list that differs in the entries of one command only. -/
theorem holds_replace {buckets : Nat → List (Nat × Item)} {commands : Commands}
    (holds : Holds buckets commands) (cmd : List Byte) (value : Option (BitVec 16))
    (nodes : List (Nat × Item))
    (own : ∀ cmdId, value = some cmdId ↔ ∃ address, (address, ⟨cmd, cmdId⟩) ∈ nodes)
    (rest : ∀ node : Nat × Item, node.2.cmdStr ≠ cmd →
      (node ∈ nodes ↔ node ∈ buckets (hashFunc cmd))) :
    Holds (Function.update buckets (hashFunc cmd) nodes) (Function.update commands cmd value) := by
  intro other cmdId
  by_cases same : other = cmd
  · rw [same, Function.update_self, Function.update_self]
    exact own cmdId
  · rw [Function.update_of_ne same, holds other cmdId]
    by_cases bucket : hashFunc other = hashFunc cmd
    · rw [bucket, Function.update_self]
      exact exists_congr fun address => (rest (address, ⟨other, cmdId⟩) same).symm
    · rw [Function.update_of_ne bucket]

/-- What is kept of a table in every run: it holds the map, in lists of bounded length. -/
def Kept (table : Table) (commands : Commands) (count : Nat) : Prop :=
  ∃ buckets, Represents table buckets ∧ Holds buckets commands ∧
    ∀ index, (buckets index).length ≤ count

/-- Lists stay bounded when one of them gets at most one entry more. -/
theorem bounded_replace {buckets : Nat → List (Nat × Item)} {count : Nat}
    (bounded : ∀ index, (buckets index).length ≤ count) (index : Nat)
    (nodes : List (Nat × Item)) (one : nodes.length ≤ (buckets index).length + 1) (other : Nat) :
    (Function.update buckets index nodes other).length ≤ count + 1 := by
  by_cases same : other = index
  · have before := bounded index
    rw [same, Function.update_self]
    omega
  · have before := bounded other
    rw [Function.update_of_ne same]
    omega

/-- An identifier of a known command is replaced where it stands. -/
theorem add_known {table : Table} {commands : Commands} {buckets : Nat → List (Nat × Item)}
    {count : Nat} (represents : Represents table buckets) (holds : Holds buckets commands)
    (bounded : ∀ index, (buckets index).length ≤ count) (enough : count < fuel)
    (cmd : List Byte) (cmdId : BitVec 16) (entryBlock : Option Nat) (stringBlock : Bool)
    {front back : List (Nat × Item)} {address : Nat} {old : BitVec 16}
    (whole : buckets (hashFunc cmd) = front ++ (address, ⟨cmd, old⟩) :: back)
    (first : ∀ node ∈ front, named cmd node.2 = false)
    (other : ∀ node ∈ front ++ back, node.2.cmdStr ≠ cmd) :
    ∃ changed, cmdHashAdd fuel table cmd cmdId entryBlock stringBlock = some changed ∧
      Kept changed (Function.update commands cmd (some cmdId)) (count + 1) := by
  have stored := represents.stored (hashFunc cmd)
  have distinct := represents.distinct (hashFunc cmd)
  have hashed := represents.hashed (hashFunc cmd)
  have once := represents.once (hashFunc cmd)
  rw [whole] at stored distinct hashed once
  have found := walk_found fuel represents cmd (Nat.lt_of_le_of_lt (bounded _) enough) whole first
  have cell := stored_cell stored
  have places : addresses (front ++ (address, ⟨cmd, cmdId⟩) :: back) =
      addresses (front ++ (address, ⟨cmd, old⟩) :: back) := by simp [addresses]
  refine ⟨⟨Function.update table.heap address (some ⟨⟨cmd, cmdId⟩, headOf back⟩), table.table⟩, ?_,
    Function.update buckets (hashFunc cmd) (front ++ (address, ⟨cmd, cmdId⟩) :: back), ?_, ?_, ?_⟩
  · simp only [cmdHashAdd, found, cell, Option.bind_eq_bind, Option.bind_some]
    rfl
  · refine represents_replace represents _ _ ?_ ?_ ?_ ?_ ?_ ?_
    · have head : headOf (front ++ (address, (⟨cmd, cmdId⟩ : Item)) :: back) =
          table.table (hashFunc cmd) := by
        rw [represents.heads, whole]
        cases front <;> rfl
      rw [head, Function.update_eq_self]
    · exact stored_set stored distinct _
    · rwa [places]
    · intro index apart place member
      have outside := represents.apart index _ apart place member
      rw [whole] at outside
      refine ⟨Function.update_of_ne ?_ _ _, by rwa [places]⟩
      rintro rfl
      exact outside (by simp [addresses])
    · intro node member
      rcases List.mem_append.mp member with inFront | inBack
      · exact hashed node (by simp [inFront])
      · rcases List.mem_cons.mp inBack with rfl | inBack
        · rfl
        · exact hashed node (by simp [inBack])
    · simpa using once
  · refine holds_replace holds cmd (some cmdId) _ (fun number => ?_) (fun node apart => ?_)
    · constructor
      · intro same
        obtain rfl := Option.some.inj same
        exact ⟨address, by simp⟩
      · rintro ⟨place, member⟩
        rcases List.mem_append.mp member with inFront | inBack
        · exact absurd rfl (other _ (List.mem_append_left _ inFront))
        · rcases List.mem_cons.mp inBack with same | inBack
          · exact congrArg some (congrArg (fun node : Nat × Item => node.2.cmdId) same).symm
          · exact absurd rfl (other _ (List.mem_append_right _ inBack))
    · have outside : ∀ value : BitVec 16, node ≠ (address, ⟨cmd, value⟩) := by
        rintro value rfl
        exact apart rfl
      simp only [whole, List.mem_append, List.mem_cons, outside, false_or]
  · exact bounded_replace bounded _ _ (by simp [whole])

/-- A new command gets an entry in front of its bucket. -/
theorem add_new {table : Table} {commands : Commands} {buckets : Nat → List (Nat × Item)}
    {count : Nat} (represents : Represents table buckets) (holds : Holds buckets commands)
    (bounded : ∀ index, (buckets index).length ≤ count) (enough : count < fuel)
    (cmd : List Byte) (cmdId : BitVec 16) (entry : Nat) (fresh : table.heap entry = none)
    (missing : ∀ node ∈ buckets (hashFunc cmd), named cmd node.2 = false) :
    ∃ changed, cmdHashAdd fuel table cmd cmdId (some entry) true = some changed ∧
      Kept changed (Function.update commands cmd (some cmdId)) (count + 1) := by
  have found := walk_missing fuel represents cmd (Nat.lt_of_le_of_lt (bounded _) enough) missing
  have unused : ∀ index, entry ∉ addresses (buckets index) := by
    intro index member
    obtain ⟨node, inside, rfl⟩ := List.mem_map.mp member
    obtain ⟨front, back, whole⟩ := List.append_of_mem inside
    have stored := represents.stored index
    rw [whole] at stored
    exact absurd ((stored_cell stored).symm.trans fresh) (Option.some_ne_none _)
  have absent : ∀ address, ∀ other : BitVec 16,
      (address, (⟨cmd, other⟩ : Item)) ∉ buckets (hashFunc cmd) := by
    intro address other member
    have unnamed := missing _ member
    simp [named] at unnamed
  refine ⟨⟨Function.update table.heap entry (some ⟨⟨cmd, cmdId⟩, table.table (hashFunc cmd)⟩),
      Function.update table.table (hashFunc cmd) (some entry)⟩, ?_,
    Function.update buckets (hashFunc cmd) ((entry, ⟨cmd, cmdId⟩) :: buckets (hashFunc cmd)),
    ?_, ?_, ?_⟩
  · simp only [cmdHashAdd, found, Option.bind_eq_bind, Option.bind_some]
    rfl
  · refine represents_replace represents _ _ rfl ?_ ?_ ?_ ?_ ?_
    · rw [represents.heads]
      exact stored_push (represents.stored _) (unused _) _
    · exact List.nodup_cons.mpr ⟨unused _, represents.distinct _⟩
    · intro index apart place member
      have other : place ≠ entry := fun same => unused index (same ▸ member)
      refine ⟨Function.update_of_ne other _ _, ?_⟩
      exact List.not_mem_cons_of_ne_of_not_mem other (represents.apart index _ apart place member)
    · exact List.forall_mem_cons.mpr ⟨rfl, represents.hashed _⟩
    · refine List.nodup_cons.mpr ⟨?_, represents.once _⟩
      intro member
      obtain ⟨⟨address, item⟩, inside, same⟩ := List.mem_map.mp member
      have unnamed := missing _ inside
      have equal : item.cmdStr = cmd := same
      simp [named, equal] at unnamed
  · refine holds_replace holds cmd (some cmdId) _ (fun number => ?_) (fun node apart => ?_)
    · simp [absent, eq_comm]
    · have outside : node ≠ (entry, ⟨cmd, cmdId⟩) := by
        rintro rfl
        exact apart rfl
      simp only [List.mem_cons, outside, false_or]
  · exact bounded_replace bounded _ _ (by simp)

/-- A table whose bucket lost the entry of a command, wherever that entry stood. -/
theorem kept_without {table changed : Table} {commands : Commands}
    {buckets : Nat → List (Nat × Item)} {count : Nat} (represents : Represents table buckets)
    (holds : Holds buckets commands) (bounded : ∀ index, (buckets index).length ≤ count)
    (cmd : List Byte) {front back : List (Nat × Item)} {address : Nat} {old : BitVec 16}
    (whole : buckets (hashFunc cmd) = front ++ (address, ⟨cmd, old⟩) :: back)
    (other : ∀ node ∈ front ++ back, node.2.cmdStr ≠ cmd)
    (head : changed.table = Function.update table.table (hashFunc cmd) (headOf (front ++ back)))
    (stored : Stored changed.heap (front ++ back))
    (frame : ∀ place, place ∉ addresses (buckets (hashFunc cmd)) →
      changed.heap place = table.heap place) :
    Kept changed (Function.update commands cmd none) (count + 1) := by
  have shorter : (front ++ back).Sublist (buckets (hashFunc cmd)) := by
    rw [whole]
    exact (List.sublist_cons_self _ _).append_left front
  refine ⟨Function.update buckets (hashFunc cmd) (front ++ back), ?_, ?_, ?_⟩
  · refine represents_replace represents _ _ head stored ?_ ?_ ?_ ?_
    · exact (represents.distinct _).sublist (shorter.map Prod.fst)
    · intro index apart place member
      have outside := represents.apart index _ apart place member
      exact ⟨frame place outside, fun inside => outside ((shorter.map Prod.fst).subset inside)⟩
    · exact fun node member => represents.hashed _ node (shorter.subset member)
    · exact (represents.once _).sublist (shorter.map _)
  · refine holds_replace holds cmd none _ (fun number => ?_) (fun node apart => ?_)
    · refine iff_of_false (Option.some_ne_none number).symm ?_
      rintro ⟨place, member⟩
      exact other _ member rfl
    · have outside : node ≠ (address, ⟨cmd, old⟩) := by
        rintro rfl
        exact apart rfl
      simp only [whole, List.mem_append, List.mem_cons, outside, false_or]
  · exact bounded_replace bounded _ _ (Nat.le_succ_of_le shorter.length_le)

/-- The entry of a command is taken out of its bucket. -/
theorem remove_known {table : Table} {commands : Commands} {buckets : Nat → List (Nat × Item)}
    {count : Nat} (represents : Represents table buckets) (holds : Holds buckets commands)
    (bounded : ∀ index, (buckets index).length ≤ count) (enough : count < fuel)
    (cmd : List Byte) {front back : List (Nat × Item)} {address : Nat} {old : BitVec 16}
    (whole : buckets (hashFunc cmd) = front ++ (address, ⟨cmd, old⟩) :: back)
    (first : ∀ node ∈ front, named cmd node.2 = false)
    (other : ∀ node ∈ front ++ back, node.2.cmdStr ≠ cmd) :
    ∃ changed, cmdHashRemove fuel table cmd = some changed ∧
      Kept changed (Function.update commands cmd none) (count + 1) := by
  have stored := represents.stored (hashFunc cmd)
  have distinct := represents.distinct (hashFunc cmd)
  have head := represents.heads (hashFunc cmd)
  rw [whole] at stored distinct head
  have found := walk_found fuel represents cmd (Nat.lt_of_le_of_lt (bounded _) enough) whole first
  have cell := stored_cell stored
  have removed := fun changed => @kept_without table changed commands buckets count represents
    holds bounded cmd front back address old whole other
  rcases List.eq_nil_or_concat' front with rfl | ⟨init, before, rfl⟩
  · refine ⟨⟨Function.update table.heap address none,
      Function.update table.table (hashFunc cmd) (headOf back)⟩, ?_, removed _ rfl ?_ ?_⟩
    · simp only [cmdHashRemove, found, cell, Option.bind_eq_bind, Option.bind_some]
      rfl
    · exact stored_pop stored distinct
    · intro place outside
      exact Function.update_of_ne (fun same => outside (by simp [whole, addresses, same])) _ _
  · rw [List.append_assoc] at stored distinct
    have previous := stored_cell stored
    have passed : lastOf none (init ++ [before]) = some before.1 := by simp [lastOf]
    have same : headOf (init ++ [before] ++ back) = table.table (hashFunc cmd) := by
      rw [head]
      cases init <;> rfl
    refine ⟨⟨Function.update
      (Function.update table.heap before.1 (some ⟨before.2, headOf back⟩)) address none,
      table.table⟩, ?_, removed _ ?_ ?_ ?_⟩
    · simp only [cmdHashRemove, found, cell, passed, previous, Option.bind_eq_bind,
        Option.bind_some]
      rfl
    · rw [same, Function.update_eq_self]
    · rw [List.append_assoc]
      exact stored_unlink stored distinct
    · intro place outside
      have apart : place ≠ address ∧ place ≠ before.1 := by
        constructor <;> rintro rfl <;> exact outside (by simp [whole, addresses])
      exact (Function.update_of_ne apart.1 _ _).trans (Function.update_of_ne apart.2 _ _)

/-- A bucket is emptied. -/
theorem clear_bucket_kept {table : Table} {buckets : Nat → List (Nat × Item)}
    (represents : Represents table buckets) (index : Nat)
    (enough : (buckets index).length < fuel) :
    ∃ changed, clearBucket fuel table index = some changed ∧
      Represents changed (Function.update buckets index []) := by
  have freed := free_all_eq (buckets index) table.heap fuel (represents.stored index)
    (represents.distinct index) enough
  rw [← represents.heads] at freed
  refine ⟨_, by rw [clearBucket, freed]; rfl, ?_⟩
  refine represents_replace represents _ _ rfl True.intro List.nodup_nil ?_ (by simp)
    List.nodup_nil
  intro other apart address member
  exact ⟨if_neg (represents.apart other index apart address member), List.not_mem_nil⟩

/-- Buckets are emptied one after the other. -/
theorem clear_buckets_kept (indices : List Nat) {table : Table}
    {buckets : Nat → List (Nat × Item)} (represents : Represents table buckets)
    (enough : ∀ index, (buckets index).length < fuel) :
    ∃ changed, indices.foldlM (clearBucket fuel) table = some changed ∧
      Represents changed (fun index => if index ∈ indices then [] else buckets index) := by
  induction indices generalizing table buckets with
  | nil => exact ⟨table, rfl, by simpa using represents⟩
  | cons index rest inductionHypothesis =>
    obtain ⟨next, cleared, kept⟩ := clear_bucket_kept fuel represents index (enough index)
    have shorter : ∀ other, (Function.update buckets index [] other).length < fuel := by
      intro other
      by_cases same : other = index
      · rw [same, Function.update_self]
        exact Nat.zero_lt_of_lt (enough index)
      · rw [Function.update_of_ne same]
        exact enough other
    obtain ⟨changed, finished, result⟩ := inductionHypothesis kept shorter
    refine ⟨changed, by rw [List.foldlM_cons, cleared]; exact finished, ?_⟩
    have lists : (fun other => if other ∈ index :: rest then [] else buckets other) =
        fun other => if other ∈ rest then [] else Function.update buckets index [] other := by
      funext other
      by_cases same : other = index
      · simp [same]
      · simp [same]
    rwa [lists]

/-- A cleared table holds nothing. -/
theorem clear_kept {table : Table} {buckets : Nat → List (Nat × Item)}
    (represents : Represents table buckets) (enough : ∀ index, (buckets index).length < fuel) :
    ∃ changed, cmdHashClear fuel table = some changed ∧ Represents changed (fun _ => []) := by
  obtain ⟨changed, cleared, result⟩ := clear_buckets_kept fuel (List.range hashTableSize)
    represents enough
  have empty : (fun index => if index ∈ List.range hashTableSize then [] else buckets index) =
      fun _ => [] := by
    funext index
    by_cases inside : index ∈ List.range hashTableSize
    · rw [if_pos inside]
    · rw [if_neg inside, List.eq_nil_iff_forall_not_mem]
      intro node member
      have selected := represents.hashed index node member
      have below : hashFunc node.2.cmdStr < hashTableSize := Nat.mod_lt _ (by decide)
      exact inside (List.mem_range.mpr (selected ▸ below))
  exact ⟨changed, cleared, empty ▸ result⟩

/-- An add without the blocks it needs leaves a table without the command as it was. -/
theorem add_refused {table : Table} {buckets : Nat → List (Nat × Item)}
    (represents : Represents table buckets) (cmd : List Byte) (cmdId : BitVec 16)
    (entryBlock : Option Nat) (stringBlock : Bool)
    (enough : (buckets (hashFunc cmd)).length < fuel)
    (missing : ∀ node ∈ buckets (hashFunc cmd), named cmd node.2 = false)
    (fresh : ∀ entry, entryBlock = some entry → table.heap entry = none)
    (refused : ¬(entryBlock.isSome ∧ stringBlock)) :
    cmdHashAdd fuel table cmd cmdId entryBlock stringBlock = some table := by
  have found := walk_missing fuel represents cmd enough missing
  simp only [cmdHashAdd, found, Option.bind_eq_bind, Option.bind_some]
  cases entryBlock with
  | none => rfl
  | some entry =>
    have noString : stringBlock = false := by simpa using refused
    have same : Function.update table.heap entry none = table.heap := by
      rw [← fresh entry rfl, Function.update_eq_self]
    simp only [noString, Bool.false_eq_true, if_false, same]
    rfl

/-- A command is in the map exactly when its bucket has an entry of it. -/
theorem holds_none {buckets : Nat → List (Nat × Item)} {commands : Commands}
    (holds : Holds buckets commands) (cmd : List Byte) :
    commands cmd = none ↔ ∀ node ∈ buckets (hashFunc cmd), named cmd node.2 = false := by
  constructor
  · rintro absent ⟨address, item⟩ member
    by_contra found
    have same : item.cmdStr = cmd := by simpa [named] using found
    have present := (holds cmd item.cmdId).mpr ⟨address, same ▸ member⟩
    exact Option.some_ne_none _ (present.symm.trans absent)
  · intro missing
    cases known : commands cmd with
    | none => rfl
    | some cmdId =>
      obtain ⟨address, member⟩ := (holds cmd cmdId).mp known
      have unnamed := missing _ member
      simp [named] at unnamed

/-- A table kept for some number of entries is kept for more. -/
theorem Kept.mono {table : Table} {commands : Commands} {count : Nat}
    (kept : Kept table commands count) : Kept table commands (count + 1) := by
  obtain ⟨buckets, represents, holds, bounded⟩ := kept
  exact ⟨buckets, represents, holds, fun index => Nat.le_succ_of_le (bounded index)⟩

/-- What each operation preserves: it ends, and the table holds the next map. -/
theorem step_kept {table : Table} {commands : Commands} {count : Nat}
    (kept : Kept table commands count) (enough : count < fuel) (event : Event)
    (fresh : Fresh (some table) event) :
    ∃ changed, step fuel (some table) event = some changed ∧
      Kept changed (commands.step event) (count + 1) := by
  obtain ⟨buckets, represents, holds, bounded⟩ := kept
  have short : ∀ index, (buckets index).length < fuel := fun index =>
    Nat.lt_of_le_of_lt (bounded index) enough
  cases event with
  | add cmd cmdId entryBlock stringBlock =>
    rcases bucket_cases represents cmd (hashFunc cmd) with missing | found
    · have unknown := (holds_none holds cmd).mpr missing
      by_cases granted : entryBlock.isSome ∧ stringBlock
      · obtain ⟨entry, rfl⟩ := Option.isSome_iff_exists.mp granted.1
        obtain rfl : stringBlock = true := granted.2
        have next : commands.step (.add cmd cmdId (some entry) true) =
            Function.update commands cmd (some cmdId) := by simp [Commands.step]
        rw [next]
        exact add_new fuel represents holds bounded enough cmd cmdId entry (fresh table rfl) missing
      · have next : commands.step (.add cmd cmdId entryBlock stringBlock) = commands := by
          simp only [Commands.step, unknown, Option.isSome_none, Bool.false_eq_true, false_or]
          exact if_neg granted
        have free : ∀ entry, entryBlock = some entry → table.heap entry = none := by
          rintro entry rfl
          exact fresh table rfl
        rw [next]
        exact ⟨table, add_refused fuel represents cmd cmdId entryBlock stringBlock (short _)
          missing free granted, Kept.mono ⟨buckets, represents, holds, bounded⟩⟩
    · obtain ⟨front, address, old, back, whole, first, other⟩ := found
      have known : commands cmd = some old := (holds cmd old).mpr ⟨address, by simp [whole]⟩
      have next : commands.step (.add cmd cmdId entryBlock stringBlock) =
          Function.update commands cmd (some cmdId) := by simp [Commands.step, known]
      rw [next]
      exact add_known fuel represents holds bounded enough cmd cmdId entryBlock stringBlock whole
        first other
  | find cmd =>
    refine ⟨table, ?_, Kept.mono ⟨buckets, represents, holds, bounded⟩⟩
    rcases bucket_cases represents cmd (hashFunc cmd) with
      missing | ⟨front, address, old, back, whole, first, -⟩
    · have found := walk_missing fuel represents cmd (short _) missing
      simp [step, cmdHashFind, found]
    · have found := walk_found fuel represents cmd (short _) whole first
      simp [step, cmdHashFind, found]
  | remove cmd =>
    rcases bucket_cases represents cmd (hashFunc cmd) with
      missing | ⟨front, address, old, back, whole, first, other⟩
    · have found := walk_missing fuel represents cmd (short _) missing
      have unknown := (holds_none holds cmd).mpr missing
      have next : commands.step (.remove cmd) = commands := by
        rw [Commands.step, ← unknown, Function.update_eq_self]
      rw [next]
      refine ⟨table, ?_, Kept.mono ⟨buckets, represents, holds, bounded⟩⟩
      simp [step, cmdHashRemove, found]
    · exact remove_known fuel represents holds bounded enough cmd whole first other
  | clear =>
    obtain ⟨changed, cleared, result⟩ := clear_kept fuel represents short
    exact ⟨changed, cleared, fun _ => [], result, fun cmd cmdId => by simp [Commands.step],
      fun index => Nat.zero_le _⟩

/-- What every run preserves. -/
theorem run_kept (events : List Event) {table : Table} {commands : Commands} {count : Nat}
    (kept : Kept table commands count) (enough : count + events.length ≤ fuel)
    (fresh : Along (step fuel) Fresh (some table) events) :
    ∃ changed, run (step fuel) (some table) events = some changed ∧
      Kept changed (run Commands.step commands events) (count + events.length) := by
  induction events generalizing table commands count with
  | nil => exact ⟨table, rfl, kept⟩
  | cons event rest inductionHypothesis =>
    rw [List.length_cons] at enough ⊢
    obtain ⟨next, stepped, after⟩ := step_kept fuel kept (by omega) event fresh.1
    have later := fresh.2
    rw [stepped] at later
    obtain ⟨changed, finished, result⟩ := inductionHypothesis after (by omega) later
    refine ⟨changed, ?_, ?_⟩
    · have first : run (step fuel) (some table) (event :: rest) =
          run (step fuel) (step fuel (some table) event) rest := rfl
      rw [first, stepped, finished]
    · rwa [Nat.add_comm rest.length, ← Nat.add_assoc]

/-- The empty table holds the empty map. -/
theorem init_kept : Kept cmdHashInit (fun _ => none) 0 := by
  refine ⟨fun _ => [], ?_, fun cmd cmdId => by simp, fun _ => Nat.le_refl 0⟩
  constructor <;> simp [cmdHashInit, headOf, Stored, addresses]

/-- What `cmd_hash_find` gives for a command: no entry if the map does not have it, and else
an entry of this command with the identifier that the map has. -/
def Finds (table : Table) (cmd : List Byte) (known : Option (BitVec 16)) : Option Nat → Prop
  | none => known = none
  | some entry =>
      ∃ cell, table.heap entry = some cell ∧ cell.value.cmdStr = cmd ∧
        known = some cell.value.cmdId

/-- A find in a table that holds a map. -/
theorem find_kept {table : Table} {buckets : Nat → List (Nat × Item)} {commands : Commands}
    (represents : Represents table buckets) (holds : Holds buckets commands) (cmd : List Byte)
    (enough : (buckets (hashFunc cmd)).length < fuel) :
    ∃ entry, cmdHashFind fuel table cmd = some entry ∧ Finds table cmd (commands cmd) entry := by
  rcases bucket_cases represents cmd (hashFunc cmd) with
    missing | ⟨front, address, old, back, whole, first, -⟩
  · have found := walk_missing fuel represents cmd enough missing
    exact ⟨none, by simp [cmdHashFind, found], (holds_none holds cmd).mpr missing⟩
  · have found := walk_found fuel represents cmd enough whole first
    have stored := represents.stored (hashFunc cmd)
    rw [whole] at stored
    refine ⟨some address, by simp [cmdHashFind, found], _, stored_cell stored, rfl, ?_⟩
    exact (holds cmd old).mpr ⟨address, by simp [whole]⟩

/-- After any operations the table is a finite map from commands to identifiers. Each command
occurs at most once, in the bucket of its hash; a find gives an entry with the identifier that
was added last and not removed since, or none; an add without its blocks changes nothing. The
fuel of the loops is the number of operations, and one step more. -/
theorem cmd_hash_refines (events : List Event) (enough : events.length < fuel)
    (fresh : Along (step fuel) Fresh (some cmdHashInit) events) :
    ∃ table buckets, run (step fuel) (some cmdHashInit) events = some table ∧
      Represents table buckets ∧ Holds buckets (run Commands.step (fun _ => none) events) ∧
      (∀ cmd, ∃ entry, cmdHashFind fuel table cmd = some entry ∧
        Finds table cmd (run Commands.step (fun _ => none) events cmd) entry) ∧
      ∀ cmd cmdId entryBlock stringBlock,
        run Commands.step (fun _ => none) events cmd = none →
        Fresh (some table) (.add cmd cmdId entryBlock stringBlock) →
        ¬(entryBlock.isSome ∧ stringBlock) →
          cmdHashAdd fuel table cmd cmdId entryBlock stringBlock = some table := by
  obtain ⟨table, finished, buckets, represents, holds, bounded⟩ :=
    run_kept fuel events init_kept (by omega) fresh
  have short : ∀ index, (buckets index).length < fuel := by
    intro index
    have most := bounded index
    omega
  refine ⟨table, buckets, finished, represents, holds, fun cmd => ?_, ?_⟩
  · exact find_kept fuel represents holds cmd (short _)
  · intro cmd cmdId entryBlock stringBlock unknown free refused
    have missing := (holds_none holds cmd).mp unknown
    refine add_refused fuel represents cmd cmdId entryBlock stringBlock (short _) missing ?_ refused
    rintro entry rfl
    exact free table rfl

/-- Two commands that are added, the first one again without any block. -/
theorem cmd_hash_two_commands :
    ∃ table, run (step 4) (some cmdHashInit)
        [.add [0x50] 1 (some 0) true, .add [0x51] 2 (some 8) true, .add [0x50] 7 none false] =
          some table ∧
      ∃ entry, cmdHashFind 4 table [0x50] = some entry ∧ Finds table [0x50] (some 7) entry := by
  obtain ⟨table, buckets, finished, -, -, finds, -⟩ := cmd_hash_refines 4
    [.add [0x50] 1 (some 0) true, .add [0x51] 2 (some 8) true, .add [0x50] 7 none false]
    (by decide)
    ⟨fun here same => Option.some.inj same ▸ rfl, fun here same => Option.some.inj same ▸ rfl,
      True.intro, True.intro⟩
  exact ⟨table, finished, finds [0x50]⟩

end Pyrometer.HashTable
