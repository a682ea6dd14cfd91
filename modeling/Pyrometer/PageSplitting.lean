import Pyrometer.EepromAliasing

/-!
# The pages of an EEPROM write

The loop of `at24c_write` hands one page after the other to `write_in_page` and ends when
nothing remains, or when a page was not written in full. Addresses have 32 bits and wrap.

What `write_in_page` answers is a parameter, given for each call: the number of bytes it
wrote. The calls are kept in the order in which they are issued. The pin that protects the
chip and the delays are left out.
-/

namespace Pyrometer.PageSplitting

open ByteMemory
open EepromStorage (at24cPageSize pageChunk page_chunk_pos page_chunk_le)

/-- A call of `write_in_page`: the address, the place in the buffer and the length. -/
structure Issued where
  memAddr : BitVec 32
  data : Nat
  size : Nat
  deriving DecidableEq

/-- The length of the next call: up to the end of the page, at most what remains. -/
def nextSize (addr : BitVec 32) (remain : Nat) : Nat :=
  let size := at24cPageSize - (addr &&& BitVec.ofNat 32 (at24cPageSize - 1)).toNat
  if remain < size then remain else size

/-- The mask keeps the place in the page. -/
theorem masked (addr : BitVec 32) :
    (addr &&& BitVec.ofNat 32 (at24cPageSize - 1)).toNat = addr.toNat % at24cPageSize := by
  rw [BitVec.toNat_and]
  exact Nat.and_two_pow_sub_one_eq_mod addr.toNat 8

/-- The length is that of the storage model. -/
theorem next_size_chunk (addr : BitVec 32) (remain : Nat) :
    nextSize addr remain = pageChunk addr.toNat remain := by
  rw [nextSize, masked, pageChunk]
  split <;> omega

/-- The loop of `at24c_write` from a call on: what remains unwritten, and the calls. -/
def at24cWriteLoop (writeInPage : Nat → Int) (call : Nat) (addr : BitVec 32) (data remain : Nat) :
    Nat × List Issued :=
  if remain = 0 then (0, [])
  else
    let size := nextSize addr remain
    if writeInPage call ≠ size then (remain, [⟨addr, data, size⟩])
    else
      let rest := at24cWriteLoop writeInPage (call + 1) (addr + BitVec.ofNat 32 size)
        (data + size) (remain - size)
      (rest.1, ⟨addr, data, size⟩ :: rest.2)
termination_by remain
decreasing_by
  have positive := page_chunk_pos addr.toNat remain ‹_›
  have bounded := page_chunk_le addr.toNat remain
  rw [next_size_chunk]
  omega

/-- `at24c_write`: the bytes it takes for written, and the calls. -/
def at24cWrite (writeInPage : Nat → Int) (memAddr : BitVec 32) (len : Nat) : Nat × List Issued :=
  let result := at24cWriteLoop writeInPage 0 memAddr 0 len
  (len - result.1, result.2)

/-- Calls one behind the other, from an address and a place in the buffer on. -/
def Consecutive : BitVec 32 → Nat → List Issued → Prop
  | _, _, [] => True
  | addr, data, issued :: rest =>
      (issued.memAddr = addr ∧ issued.data = data) ∧
        Consecutive (addr + BitVec.ofNat 32 issued.size) (data + issued.size) rest

/-- The bytes of the calls that were written in full before the first failure. -/
def completed (writeInPage : Nat → Int) : Nat → List Issued → Nat
  | _, [] => 0
  | call, issued :: rest =>
      if writeInPage call = issued.size then
        issued.size + completed writeInPage (call + 1) rest
      else 0

/-- A call stays in its page. -/
def Issued.InPage (issued : Issued) : Prop :=
  0 < issued.size ∧ issued.memAddr.toNat % at24cPageSize + issued.size ≤ at24cPageSize

/-- Two calls have no address in common. -/
def Issued.Disjoint (left right : Issued) : Prop :=
  ∀ first < left.size, ∀ second < right.size,
    left.memAddr + BitVec.ofNat 32 first ≠ right.memAddr + BitVec.ofNat 32 second

/-- What splitting a write into pages should do. -/
structure Splits (writeInPage : Nat → Int) (memAddr : BitVec 32) (len returned : Nat)
    (calls : List Issued) : Prop where
  inPage : ∀ issued ∈ calls, issued.InPage
  consecutive : Consecutive memAddr 0 calls
  inside : ∀ issued ∈ calls, issued.data + issued.size ≤ len
  disjoint : calls.Pairwise Issued.Disjoint
  counted : returned = completed writeInPage 0 calls
  whole : (∀ call issued, calls[call]? = some issued → writeInPage call = issued.size) →
    returned = len
  ends : ∀ call issued, calls[call]? = some issued → writeInPage call ≠ issued.size →
    call + 1 = calls.length

/-- The length of a call is not zero, stays in the page, and is no more than what remains. -/
theorem next_size_bounds (addr : BitVec 32) {remain : Nat} (left : remain ≠ 0) :
    0 < nextSize addr remain ∧
      addr.toNat % at24cPageSize + nextSize addr remain ≤ at24cPageSize ∧
      nextSize addr remain ≤ remain := by
  rw [next_size_chunk]
  refine ⟨page_chunk_pos _ _ left, ?_, page_chunk_le _ _⟩
  have most : pageChunk addr.toNat remain ≤ at24cPageSize - addr.toNat % at24cPageSize :=
    Nat.min_le_left _ _
  have place : addr.toNat % at24cPageSize < at24cPageSize := Nat.mod_lt _ (by decide)
  omega

/-- A loop with nothing left makes no call. -/
theorem loop_done (writeInPage : Nat → Int) (call : Nat) (addr : BitVec 32) (data : Nat) :
    at24cWriteLoop writeInPage call addr data 0 = (0, []) := by
  rw [at24cWriteLoop, if_pos rfl]

/-- A call that fails is the last one. -/
theorem loop_failed {writeInPage : Nat → Int} {call remain : Nat} {addr : BitVec 32} {data : Nat}
    (left : remain ≠ 0) (failed : writeInPage call ≠ nextSize addr remain) :
    at24cWriteLoop writeInPage call addr data remain =
      (remain, [⟨addr, data, nextSize addr remain⟩]) := by
  rw [at24cWriteLoop, if_neg left, if_pos failed]

/-- After a call that succeeds the loop goes on behind it. -/
theorem loop_written {writeInPage : Nat → Int} {call remain : Nat} {addr : BitVec 32} {data : Nat}
    (left : remain ≠ 0) (written : writeInPage call = nextSize addr remain) :
    at24cWriteLoop writeInPage call addr data remain =
      let rest := at24cWriteLoop writeInPage (call + 1)
        (addr + BitVec.ofNat 32 (nextSize addr remain)) (data + nextSize addr remain)
        (remain - nextSize addr remain)
      (rest.1, ⟨addr, data, nextSize addr remain⟩ :: rest.2) := by
  rw [at24cWriteLoop, if_neg left, if_neg (not_not.mpr written)]

/-- What holds of the calls of the loop: each stays in its page and in what remains, they
follow each other, only the last one may fail, and what was written before that and what
remains are all. -/
structure LoopSplits (writeInPage : Nat → Int) (call : Nat) (addr : BitVec 32) (data remain : Nat)
    (result : Nat × List Issued) : Prop where
  inPage : ∀ issued ∈ result.2, issued.InPage
  consecutive : Consecutive addr data result.2
  inside : ∀ issued ∈ result.2, issued.data + issued.size ≤ data + remain
  written : completed writeInPage call result.2 + result.1 = remain
  whole : (∀ index issued, result.2[index]? = some issued →
    writeInPage (call + index) = issued.size) → result.1 = 0
  ends : ∀ index issued, result.2[index]? = some issued →
    writeInPage (call + index) ≠ issued.size → index + 1 = result.2.length

/-- A failed call splits what remains so far. -/
theorem failed_splits {writeInPage : Nat → Int} {call remain : Nat} {addr : BitVec 32}
    {data size : Nat} (positive : 0 < size)
    (page : addr.toNat % at24cPageSize + size ≤ at24cPageSize) (most : size ≤ remain)
    (failed : writeInPage call ≠ size) :
    LoopSplits writeInPage call addr data remain (remain, [⟨addr, data, size⟩]) where
  inPage := by
    intro issued member
    rw [List.mem_singleton] at member
    exact member ▸ ⟨positive, page⟩
  consecutive := ⟨⟨rfl, rfl⟩, True.intro⟩
  inside := by
    intro issued member
    rw [List.mem_singleton] at member
    subst member
    exact Nat.add_le_add_left most data
  written := by
    simp only [completed, if_neg failed]
    exact Nat.zero_add remain
  whole := fun all => absurd (all 0 _ rfl) failed
  ends := by
    intro index issued found _
    obtain ⟨below, -⟩ := List.getElem?_eq_some_iff.mp found
    simp only [List.length_singleton] at below ⊢
    omega

/-- A written call in front of a loop that splits what is left behind it. -/
theorem written_splits {writeInPage : Nat → Int} {call remain : Nat} {addr : BitVec 32}
    {data size : Nat} (positive : 0 < size)
    (page : addr.toNat % at24cPageSize + size ≤ at24cPageSize) (most : size ≤ remain)
    (written : writeInPage call = size) {result : Nat × List Issued}
    (rest : LoopSplits writeInPage (call + 1) (addr + BitVec.ofNat 32 size) (data + size)
      (remain - size) result) :
    LoopSplits writeInPage call addr data remain (result.1, ⟨addr, data, size⟩ :: result.2) where
  inPage := List.forall_mem_cons.mpr ⟨⟨positive, page⟩, rest.inPage⟩
  consecutive := ⟨⟨rfl, rfl⟩, rest.consecutive⟩
  inside := by
    refine List.forall_mem_cons.mpr ⟨Nat.add_le_add_left most data, fun issued member => ?_⟩
    have before := rest.inside issued member
    omega
  written := by
    have all := rest.written
    simp only [completed, if_pos written]
    omega
  whole := by
    intro all
    apply rest.whole
    intro index issued found
    have next := all (index + 1) issued found
    rwa [Nat.add_comm index 1, ← Nat.add_assoc] at next
  ends := by
    intro index issued found failed
    cases index with
    | zero =>
      cases found
      exact absurd written failed
    | succ index =>
      rw [Nat.add_comm index 1, ← Nat.add_assoc] at failed
      exact congrArg Nat.succ (rest.ends index issued found failed)

/-- The loop splits what remains. The induction is on that. -/
theorem loop_splits (writeInPage : Nat → Int) (call : Nat) (addr : BitVec 32) (data remain : Nat) :
    LoopSplits writeInPage call addr data remain
      (at24cWriteLoop writeInPage call addr data remain) := by
  induction remain using Nat.strong_induction_on generalizing call addr data with
  | _ remain inductionHypothesis =>
    by_cases none : remain = 0
    · subst none
      rw [loop_done]
      exact ⟨by simp, True.intro, by simp, rfl, fun _ => rfl, by simp⟩
    obtain ⟨positive, page, most⟩ := next_size_bounds addr none
    by_cases written : writeInPage call = nextSize addr remain
    · rw [loop_written none written]
      apply written_splits positive page most written
      exact inductionHypothesis (remain - nextSize addr remain) (by omega) _ _ _
    · rw [loop_failed none written]
      exact failed_splits positive page most written

/-- Consecutive calls lie at their places in the buffer, counted from one base. -/
theorem consecutive_places {base : BitVec 32} {data : Nat} {calls : List Issued}
    (consecutive : Consecutive (base + BitVec.ofNat 32 data) data calls) :
    ∀ issued ∈ calls, data ≤ issued.data ∧
      issued.memAddr = base + BitVec.ofNat 32 issued.data := by
  induction calls generalizing data with
  | nil => simp
  | cons first rest inductionHypothesis =>
    obtain ⟨⟨place, here⟩, following⟩ := consecutive
    have moved : base + BitVec.ofNat 32 data + BitVec.ofNat 32 first.size =
        base + BitVec.ofNat 32 (data + first.size) := by
      rw [BitVec.add_assoc, ← BitVec.ofNat_add]
    rw [moved] at following
    refine List.forall_mem_cons.mpr ⟨⟨here.ge, ?_⟩, fun issued member => ?_⟩
    · rw [place, here]
    · obtain ⟨behind, address⟩ := inductionHypothesis following issued member
      exact ⟨by omega, address⟩

/-- Of consecutive calls each one ends before the later ones begin. -/
theorem consecutive_apart {base : BitVec 32} {data : Nat} {calls : List Issued}
    (consecutive : Consecutive (base + BitVec.ofNat 32 data) data calls) :
    calls.Pairwise fun left right => left.data + left.size ≤ right.data := by
  induction calls generalizing data with
  | nil => exact List.Pairwise.nil
  | cons first rest inductionHypothesis =>
    obtain ⟨⟨place, here⟩, following⟩ := consecutive
    have moved : base + BitVec.ofNat 32 data + BitVec.ofNat 32 first.size =
        base + BitVec.ofNat 32 (data + first.size) := by
      rw [BitVec.add_assoc, ← BitVec.ofNat_add]
    rw [moved] at following
    refine List.Pairwise.cons (fun issued member => ?_) (inductionHypothesis following)
    rw [here]
    exact (consecutive_places following issued member).1

/-- Consecutive calls that fit the address space have no address in common. -/
theorem consecutive_disjoint {memAddr : BitVec 32} {calls : List Issued} {len : Nat}
    (consecutive : Consecutive memAddr 0 calls)
    (inside : ∀ issued ∈ calls, issued.data + issued.size ≤ len) (fits : len ≤ 2 ^ 32) :
    calls.Pairwise Issued.Disjoint := by
  have based : Consecutive (memAddr + BitVec.ofNat 32 0) 0 calls := by
    rwa [BitVec.add_zero]
  refine (consecutive_apart based).imp_of_mem fun {left right} leftMember rightMember before => ?_
  intro first firstBelow second secondBelow same
  rw [(consecutive_places based left leftMember).2, (consecutive_places based right rightMember).2,
    BitVec.add_assoc, BitVec.add_assoc, ← BitVec.ofNat_add, ← BitVec.ofNat_add] at same
  have equal := congrArg BitVec.toNat (add_left_cancel same)
  have leftEnd := inside left leftMember
  have rightEnd := inside right rightMember
  rw [BitVec.toNat_ofNat, BitVec.toNat_ofNat, Nat.mod_eq_of_lt (by omega),
    Nat.mod_eq_of_lt (by omega)] at equal
  omega

/-- A write of any length that fits an `int`, from any address on and whatever the pages
answer, ends, and is split as it should be. -/
theorem page_splitting (writeInPage : Nat → Int) (memAddr : BitVec 32) (len : Nat)
    (representable : len < 2 ^ 31) :
    Splits writeInPage memAddr len (at24cWrite writeInPage memAddr len).1
      (at24cWrite writeInPage memAddr len).2 := by
  have splits := loop_splits writeInPage 0 memAddr 0 len
  rw [at24cWrite]
  generalize at24cWriteLoop writeInPage 0 memAddr 0 len = result at splits ⊢
  have written := splits.written
  have inside : ∀ issued ∈ result.2, issued.data + issued.size ≤ len := by
    simpa only [Nat.zero_add] using splits.inside
  refine ⟨splits.inPage, splits.consecutive, inside, ?_, ?_, ?_, ?_⟩
  · exact consecutive_disjoint splits.consecutive inside (by omega)
  · change len - result.1 = completed writeInPage 0 result.2
    omega
  · intro all
    have nothing := splits.whole fun index issued found => by
      rw [Nat.zero_add]
      exact all index issued found
    change len - result.1 = len
    omega
  · intro call issued found failed
    refine splits.ends call issued found ?_
    rwa [Nat.zero_add]

/-- Ten bytes from five before the end of a page on, the second page of which fails. -/
theorem page_splitting_ten :
    Splits (fun call => if call = 0 then 5 else 0) 251 10
      (at24cWrite (fun call => if call = 0 then 5 else 0) 251 10).1
      (at24cWrite (fun call => if call = 0 then 5 else 0) 251 10).2 :=
  page_splitting (fun call => if call = 0 then 5 else 0) 251 10 (by decide)

end Pyrometer.PageSplitting
