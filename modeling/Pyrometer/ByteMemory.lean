import Mathlib.Data.BitVec
import Mathlib.Tactic

/-!
# Byte-addressed memory

A memory is a total map from natural addresses to bytes. Ranges are half open.
`overlay` is the effect of a block copy; `Agree` compares two memories on one
range only, so that a law never says anything about bytes it did not inspect.
Words are little endian: the byte at the lowest address is the least significant.

Nothing here fixes an address width. A program whose addresses wrap applies its
own reduction before it reads or writes.
-/

namespace Pyrometer.ByteMemory

/-- One addressable cell. -/
abbrev Byte := BitVec 8

/-- Contents of every address. -/
abbrev Mem := Nat → Byte

/-- Equality on the half-open range that starts at `start` and has `len` bytes. -/
def Agree (left right : Mem) (start len : Nat) : Prop :=
  ∀ address, start ≤ address → address < start + len → left address = right address

/-- The memory seen through a pointer to `base`: offset zero is that address. -/
def window (memory : Mem) (base : Nat) : Mem := fun offset => memory (base + offset)

/-- Copy the first `len` bytes of `source` to `start`; every other byte stays. -/
def overlay (target source : Mem) (start len : Nat) : Mem := fun address =>
  if start ≤ address ∧ address < start + len then source (address - start) else target address

/-- A finite buffer seen as memory. Addresses past its end read as zero. -/
def ofList (bytes : List Byte) : Mem := fun address => bytes.getD address 0

/-- The first `len` bytes from `start`, in address order. -/
def toList (memory : Mem) (start len : Nat) : List Byte :=
  (List.range len).map (fun offset => memory (start + offset))

/-- Byte number `index` of a word, counted from the least significant end. -/
def byteOf {width : Nat} (value : BitVec width) (index : Nat) : Byte :=
  value.extractLsb' (8 * index) 8

/-- The little-endian half word at an address. -/
def load16 (memory : Mem) (address : Nat) : BitVec 16 :=
  memory (address + 1) ++ memory address

/-- The little-endian word at an address. -/
def load32 (memory : Mem) (address : Nat) : BitVec 32 :=
  memory (address + 3) ++ memory (address + 2) ++ memory (address + 1) ++ memory address

/-- The number that some bytes write, the least significant one first. -/
def littleEndian (bytes : List Byte) : Nat :=
  bytes.foldr (fun byte rest => byte.toNat + 256 * rest) 0

/-- The bytes of a number, the least significant one first; what does not fit is cut. -/
def leBytes : Nat → Nat → List Byte
  | 0, _ => []
  | size + 1, value => BitVec.ofNat 8 value :: leBytes size (value / 256)

/-- Agreement is an equivalence on each fixed range: reflexivity. -/
theorem agree_refl (memory : Mem) (start len : Nat) : Agree memory memory start len :=
  fun _ _ _ => rfl

/-- Agreement on a range is symmetric. -/
theorem agree_symm {left right : Mem} {start len : Nat} (agreed : Agree left right start len) :
    Agree right left start len :=
  fun address low high => (agreed address low high).symm

/-- Agreement on a range is transitive. -/
theorem agree_trans {first second third : Mem} {start len : Nat}
    (left : Agree first second start len) (right : Agree second third start len) :
    Agree first third start len :=
  fun address low high => (left address low high).trans (right address low high)

/-- Agreement restricts to every range inside the compared one. -/
theorem agree_mono {left right : Mem} {start len inner size : Nat}
    (agreed : Agree left right start len) (low : start ≤ inner)
    (high : inner + size ≤ start + len) : Agree left right inner size := by
  intro address above below
  exact agreed address (by omega) (by omega)

/-- Inside its range an overlay reads the source. -/
theorem overlay_inside (target source : Mem) (start len address : Nat)
    (low : start ≤ address) (high : address < start + len) :
    overlay target source start len address = source (address - start) := by
  simp [overlay, low, high]

/-- Outside its range an overlay reads the target. -/
theorem overlay_outside (target source : Mem) (start len address : Nat)
    (outside : address < start ∨ start + len ≤ address) :
    overlay target source start len address = target address := by
  have miss : ¬(start ≤ address ∧ address < start + len) := by omega
  simp [overlay, miss]

/-- Copying a range onto itself from a memory that agrees there changes nothing. -/
theorem overlay_window_agree (target source : Mem) (start len : Nat) :
    Agree (overlay target (window source start) start len) source start len := by
  intro address low high
  rw [overlay_inside target _ start len address low high, window]
  congr 1
  omega

/-- An overlay does not reach a range disjoint from its own. -/
theorem overlay_frame (target source : Mem) (start len other size : Nat)
    (disjoint : other + size ≤ start ∨ start + len ≤ other) :
    Agree (overlay target source start len) target other size := by
  intro address low high
  exact overlay_outside target source start len address (by omega)

/-- Of two copies to one range the second one counts. -/
theorem overlay_again (target first second : Mem) (start len : Nat) :
    overlay (overlay target first start len) second start len =
      overlay target second start len := by
  funext address
  by_cases inside : start ≤ address ∧ address < start + len <;> simp [overlay, inside]

/-- A byte and the bytes behind it are one copy. -/
theorem overlay_cons (target : Mem) (byte : Byte) (rest : List Byte) (start : Nat) :
    overlay (Function.update target start byte) (ofList rest) (start + 1) rest.length =
      overlay target (ofList (byte :: rest)) start (rest.length + 1) := by
  funext address
  rcases Nat.lt_trichotomy address start with below | equal | above
  · rw [overlay_outside _ _ _ _ _ (by omega), overlay_outside _ _ _ _ _ (by omega),
      Function.update_of_ne (by omega)]
  · subst equal
    rw [overlay_outside _ _ _ _ _ (by omega), overlay_inside _ _ _ _ _ (by omega) (by omega),
      Function.update_self, Nat.sub_self]
    rfl
  · by_cases inside : address < start + (rest.length + 1)
    · have place : address - start = address - (start + 1) + 1 := by omega
      rw [overlay_inside _ _ _ _ _ (by omega) (by omega),
        overlay_inside _ _ _ _ _ (by omega) (by omega), place]
      rfl
    · rw [overlay_outside _ _ _ _ _ (by omega), overlay_outside _ _ _ _ _ (by omega),
        Function.update_of_ne (by omega)]

/-- A half word depends on its two bytes only. -/
theorem load16_congr {left right : Mem} {address : Nat} (agreed : Agree left right address 2) :
    load16 left address = load16 right address := by
  have low := agreed address (by omega) (by omega)
  have high := agreed (address + 1) (by omega) (by omega)
  simp only [load16, low, high]

/-- A word depends on its four bytes only. -/
theorem load32_congr {left right : Mem} {address : Nat} (agreed : Agree left right address 4) :
    load32 left address = load32 right address := by
  have first := agreed address (by omega) (by omega)
  have second := agreed (address + 1) (by omega) (by omega)
  have third := agreed (address + 2) (by omega) (by omega)
  have fourth := agreed (address + 3) (by omega) (by omega)
  simp only [load32, first, second, third, fourth]

/-- The two bytes of a loaded half word are the bytes that were loaded. -/
theorem byte_of_load16 (memory : Mem) (address index : Nat) (inside : index < 2) :
    byteOf (load16 memory address) index = memory (address + index) := by
  interval_cases index <;>
    · apply BitVec.eq_of_getLsbD_eq
      intro position bound
      simp only [byteOf, load16, BitVec.getLsbD_extractLsb', BitVec.getLsbD_append]
      grind

/-- The four bytes of a loaded word are the bytes that were loaded. -/
theorem byte_of_load32 (memory : Mem) (address index : Nat) (inside : index < 4) :
    byteOf (load32 memory address) index = memory (address + index) := by
  interval_cases index <;>
    · apply BitVec.eq_of_getLsbD_eq
      intro position bound
      simp only [byteOf, load32, BitVec.getLsbD_extractLsb', BitVec.getLsbD_append]
      grind

/-- Loading the stored bytes of a half word gives that half word back. -/
theorem load16_of_bytes (memory : Mem) (address : Nat) (value : BitVec 16)
    (stored : ∀ index, index < 2 → memory (address + index) = byteOf value index) :
    load16 memory address = value := by
  have low := stored 0 (by decide)
  have high := stored 1 (by decide)
  simp only [Nat.add_zero] at low
  apply BitVec.eq_of_getLsbD_eq
  intro position bound
  simp only [load16, low, high, byteOf, BitVec.getLsbD_append, BitVec.getLsbD_extractLsb']
  grind

/-- Loading the stored bytes of a word gives that word back. -/
theorem load32_of_bytes (memory : Mem) (address : Nat) (value : BitVec 32)
    (stored : ∀ index, index < 4 → memory (address + index) = byteOf value index) :
    load32 memory address = value := by
  have first := stored 0 (by decide)
  have second := stored 1 (by decide)
  have third := stored 2 (by decide)
  have fourth := stored 3 (by decide)
  simp only [Nat.add_zero] at first
  apply BitVec.eq_of_getLsbD_eq
  intro position bound
  simp only [load32, first, second, third, fourth, byteOf, BitVec.getLsbD_append,
    BitVec.getLsbD_extractLsb']
  grind

/-- Words with the same bytes are equal. -/
theorem word_ext {left right : BitVec 32}
    (bytes : ∀ index, index < 4 → byteOf left index = byteOf right index) : left = right := by
  have own : ∀ value : BitVec 32, load32 (byteOf value) 0 = value := fun value =>
    load32_of_bytes _ 0 value (fun index _ => by rw [Nat.zero_add])
  rw [← own left, ← own right]
  exact load32_congr (fun index _ inside => bytes index (by omega))

/-- A buffer keeps its bytes when something is appended. -/
theorem of_list_left (first second : List Byte) (address : Nat) (inside : address < first.length) :
    ofList (first ++ second) address = ofList first address := by
  simp [ofList, List.getElem?_append_left inside]

/-- Behind its first part a concatenated buffer reads its second part. -/
theorem of_list_right (first second : List Byte) :
    window (ofList (first ++ second)) first.length = ofList second := by
  funext address
  simp [window, ofList, List.getElem?_append_right]

/-- A buffer filled from memory reads that memory. -/
theorem of_list_to_list (memory : Mem) (start len address : Nat) (inside : address < len) :
    ofList (toList memory start len) address = memory (start + address) := by
  simp [ofList, toList, inside]

/-- A buffer filled from memory has the requested length. -/
@[simp] theorem to_list_length (memory : Mem) (start len : Nat) :
    (toList memory start len).length = len := by
  simp [toList]

/-- A range read in two parts. -/
theorem to_list_append (memory : Mem) (start first second : Nat) :
    toList memory start (first + second) =
      toList memory start first ++ toList memory (start + first) second := by
  rw [toList, List.range_add, List.map_append, List.map_map]
  refine congrArg _ (List.map_congr_left (fun offset _ => ?_))
  rw [Function.comp_apply, Nat.add_assoc]

/-- A range of one byte. -/
@[simp] theorem to_list_one (memory : Mem) (start : Nat) :
    toList memory start 1 = [memory start] := rfl

/-- Part of a range that was read as a whole. -/
theorem to_list_part (memory : Mem) (bytes : List Byte) (start len : Nat)
    (whole : toList memory 0 bytes.length = bytes) (inside : start + len ≤ bytes.length) :
    toList memory start len = (bytes.drop start).take len := by
  have split : bytes.length = start + (len + (bytes.length - start - len)) := by omega
  have parts : bytes = toList memory 0 start ++
      (toList memory start len ++ toList memory (start + len) (bytes.length - start - len)) := by
    conv_lhs => rw [← whole, split, to_list_append, to_list_append, Nat.zero_add]
  rw [parts, List.drop_left' (by simp), List.take_left' (by simp)]

/-- The bytes of a number are as many as asked for. -/
@[simp] theorem le_bytes_length (size value : Nat) : (leBytes size value).length = size := by
  induction size generalizing value with
  | zero => rfl
  | succ size inductionHypothesis => simp [leBytes, inductionHypothesis]

/-- The bytes of a number write it, as far as it fits. -/
theorem little_endian_le_bytes (size value : Nat) :
    littleEndian (leBytes size value) = value % 256 ^ size := by
  induction size generalizing value with
  | zero => simp [leBytes, littleEndian, Nat.mod_one]
  | succ size inductionHypothesis =>
    have step : littleEndian (leBytes (size + 1) value) =
        value % 256 + 256 * littleEndian (leBytes size (value / 256)) := by
      simp [leBytes, littleEndian]
    rw [step, inductionHypothesis, pow_succ', Nat.mod_mul]

/-- The number of some bytes is stored as these bytes. -/
theorem le_bytes_little_endian (bytes : List Byte) :
    leBytes bytes.length (littleEndian bytes) = bytes := by
  induction bytes with
  | nil => rfl
  | cons byte rest inductionHypothesis =>
    have number : littleEndian (byte :: rest) = byte.toNat + 256 * littleEndian rest := rfl
    have lowest : BitVec.ofNat 8 (littleEndian (byte :: rest)) = byte := by
      apply BitVec.eq_of_toNat_eq
      have small := byte.isLt
      rw [BitVec.toNat_ofNat, number]
      omega
    have others : littleEndian (byte :: rest) / 256 = littleEndian rest := by
      have small := byte.isLt
      rw [number]
      omega
    rw [List.length_cons, leBytes, others, inductionHypothesis, lowest]

/-- A range read back after a copy into it. -/
theorem to_list_overlay (target : Mem) (bytes : List Byte) (start : Nat) :
    toList (overlay target (ofList bytes) start bytes.length) start bytes.length = bytes := by
  apply List.ext_getElem
  · simp
  · intro index inside _
    rw [to_list_length] at inside
    simp [toList, overlay, ofList, inside]

/-- A copy into a range is undone by the bytes that were there. -/
theorem overlay_restore (target source : Mem) (start len : Nat) :
    overlay (overlay target source start len) (ofList (toList target start len)) start len =
      target := by
  funext address
  by_cases inside : start ≤ address ∧ address < start + len
  · rw [overlay_inside _ _ _ _ _ inside.1 inside.2, of_list_to_list _ _ _ _ (by omega)]
    congr 1
    omega
  · rw [overlay_outside _ _ _ _ _ (by omega), overlay_outside _ _ _ _ _ (by omega)]

/-- A range copied from another memory reads as it does there. -/
theorem overlay_to_list_agree (target source : Mem) (start len : Nat) :
    Agree (overlay target (ofList (toList source start len)) start len) source start len := by
  intro address low high
  rw [overlay_inside _ _ _ _ _ low high, of_list_to_list _ _ _ _ (by omega)]
  congr 1
  omega

/-- A range copied onto itself stays. -/
theorem overlay_own (memory : Mem) (start len : Nat) :
    overlay memory (ofList (toList memory start len)) start len = memory := by
  funext address
  by_cases inside : start ≤ address ∧ address < start + len
  · exact overlay_to_list_agree memory memory start len address inside.1 inside.2
  · exact overlay_outside _ _ _ _ _ (by omega)

/-- Two buffers copied one behind the other are one copy. -/
theorem overlay_append (target : Mem) (first second : List Byte) (start : Nat) :
    overlay (overlay target (ofList first) start first.length) (ofList second)
        (start + first.length) second.length =
      overlay target (ofList (first ++ second)) start (first ++ second).length := by
  funext address
  rw [List.length_append]
  by_cases before : address < start + first.length
  · rw [overlay_outside _ _ _ _ _ (Or.inl before)]
    by_cases low : start ≤ address
    · rw [overlay_inside _ _ _ _ _ low before, overlay_inside _ _ _ _ _ low (by omega),
        of_list_left _ _ _ (by omega)]
    · rw [overlay_outside _ _ _ _ _ (by omega), overlay_outside _ _ _ _ _ (by omega)]
  · by_cases high : address < start + (first.length + second.length)
    · have place : address - start = first.length + (address - (start + first.length)) := by
        omega
      rw [overlay_inside _ _ _ _ _ (by omega) (by omega),
        overlay_inside _ _ _ _ _ (by omega) high, place]
      exact (congrFun (of_list_right first second) _).symm
    · rw [overlay_outside _ _ _ _ _ (by omega), overlay_outside _ _ _ _ _ (by omega),
        overlay_outside _ _ _ _ _ (by omega)]

/-- A range depends on its own bytes only. -/
theorem to_list_congr {left right : Mem} {start len : Nat} (agreed : Agree left right start len) :
    toList left start len = toList right start len := by
  refine List.map_congr_left (fun offset inside => ?_)
  have below := List.mem_range.mp inside
  exact agreed (start + offset) (by omega) (by omega)

/-- A range does not see a byte written outside it. -/
theorem to_list_update (memory : Mem) (start len other : Nat) (byte : Byte)
    (outside : other < start ∨ start + len ≤ other) :
    toList (Function.update memory other byte) start len = toList memory start len := by
  apply to_list_congr
  intro address low high
  exact Function.update_of_ne (by omega) _ _

/-- Equal ranges have equal bytes. -/
theorem agree_of_to_list {left right : Mem} {start len : Nat}
    (same : toList left start len = toList right start len) : Agree left right start len := by
  intro address low high
  have here := congrArg (fun bytes => bytes[address - start]?) same
  have place : start + (address - start) = address := by omega
  have below : address - start < len := by omega
  simpa [toList, place, below] using here

end Pyrometer.ByteMemory
