import Pyrometer.Checksums
import Mathlib.Data.Fintype.OfMap

/-!
# Layout of the parameter structure

`sys_para_t` is a packed structure: a magic word, fourteen parameter groups in
the order of `para_type_t`, and one 16-bit checksum word for each group. The
model keeps it as bytes; `PARA_INFO_TBL` gives each group's offset and size.

A group's validity is a fact about its own bytes and its own checksum word.
Everything proved about loading, repair and saving rests on that locality and
on the disjointness of the fields, which is decided from the table.
-/

namespace Pyrometer.ParameterLayout

open ByteMemory Checksums

/-- `para_type_t`. -/
inductive ParaType where
  | dev | port | gain | ana | adc | temp | net | record | algo | burst | alarm | video | filter
  | heater
  deriving DecidableEq, Repr

namespace ParaType

/-- The groups in the order of their enumeration values. -/
def all : List ParaType :=
  [.dev, .port, .gain, .ana, .adc, .temp, .net, .record, .algo, .burst, .alarm, .video, .filter,
    .heater]

instance : Fintype ParaType :=
  Fintype.ofList all (by intro group; cases group <;> decide)

/-- The enumeration value of a group. -/
def index : ParaType → Nat
  | .dev => 0 | .port => 1 | .gain => 2 | .ana => 3 | .adc => 4 | .temp => 5 | .net => 6
  | .record => 7 | .algo => 8 | .burst => 9 | .alarm => 10 | .video => 11 | .filter => 12
  | .heater => 13

/-- Size of a group's packed structure, field by field. -/
def size : ParaType → Nat
  | .dev => 1 + 17 + 11 + 1 + 1
  | .port => 1 + 4 + 4 + 32 + 1
  | .gain => 8 + 8 + 8 + 16 + 16 + 4 * 6
  | .ana => 1 + 4 * 10 + 2
  | .adc => 4 + 4 + 4 + 4
  | .temp => 1 + 4 * 3 + 8 + 8 + 4 * 2 + 8 + 8 + 4 * 12 + 1 + 12 + 12
  | .net => 4 * 4 + 16 * 4
  | .record => 4
  | .algo => 4 * (8 + 2 * 9) + 2 * (1 + 4 + 15 * 9) + 4 * (64 + 64 + 64 + 1)
  | .burst => 2 + 3 + 40 + 1
  | .alarm => 4 * 9
  | .video => 4 + 4 + 1 + 4 + 4 + 1 + 1 + 4 * 3 + 1 + 1 + 2 + 4
  | .filter => 2 + 4 * 4 + 1
  | .heater => 4 + 8 * 3

/-- Offset of a group: the structure is packed, so each group follows the one
before it and the first follows the magic word. -/
def offset (group : ParaType) : Nat := 4 + ((all.take group.index).map size).sum

end ParaType

open ParaType

/-- Offset of the checksum array, behind the last group. -/
def crcOffset : Nat := 1750

/-- `sizeof(sys_para_t)`. -/
def sizeofSysPara : Nat := 1778

/-- Offset of a group's checksum word. -/
def crcWord (group : ParaType) : Nat := crcOffset + 2 * group.index

/-- `PARAM_MAGIC`. -/
def paramMagic : BitVec 32 := 0x00080296#32

/-- Offset of `dev.addr`, the first byte of the device group. -/
def devAddr : Nat := 4

/-- The magic word of a parameter structure. -/
def magicOf (para : Mem) : BitVec 32 := load32 para 0

/-- The stored checksum word of a group. -/
def storedCrc (para : Mem) (group : ParaType) : BitVec 16 := load16 para (crcWord group)

/-- The checksum the code computes for a group. -/
def groupCrc (para : Mem) (group : ParaType) : BitVec 16 :=
  ~~~(crc16RTU (window para group.offset) group.size)

/-- The stored word matches the group's bytes. -/
def groupValid (para : Mem) (group : ParaType) : Bool := groupCrc para group == storedCrc para group

/-- A structure all of whose checks pass. -/
def FullyValid (para : Mem) : Prop :=
  magicOf para = paramMagic ∧ ∀ group, groupValid para group = true

/-- The bytes of a group are equal in both structures. -/
def SameGroup (left right : Mem) (group : ParaType) : Prop :=
  Agree left right group.offset group.size

/-- A byte belongs to a group: it is one of its data bytes or of its checksum word. -/
def Owns (group : ParaType) (address : Nat) : Prop :=
  (group.offset ≤ address ∧ address < group.offset + group.size) ∨
    (crcWord group ≤ address ∧ address < crcWord group + 2)

instance (group : ParaType) (address : Nat) : Decidable (Owns group address) :=
  inferInstanceAs (Decidable (_ ∨ _))

/-- Every group is enumerated. -/
theorem mem_all (group : ParaType) : group ∈ ParaType.all := by
  cases group <;> decide

/-- No group is enumerated twice. -/
theorem all_nodup : ParaType.all.Nodup := by decide

/-- Different groups have different enumeration values. -/
theorem index_injective : Function.Injective ParaType.index := by decide

/-- Enumeration values are below the magic bit. -/
theorem index_lt (group : ParaType) : group.index < 14 := by
  cases group <;> decide

/-- Every group is nonempty and lies between the magic word and the checksums. -/
theorem group_bounds (group : ParaType) :
    4 ≤ group.offset ∧ 0 < group.size ∧ group.offset + group.size ≤ crcOffset := by
  cases group <;> decide

/-- The checksum words end where the structure ends. -/
theorem crc_word_bounds (group : ParaType) :
    crcOffset ≤ crcWord group ∧ crcWord group + 2 ≤ sizeofSysPara := by
  cases group <;> decide

/-- Different groups have disjoint data bytes. -/
theorem groups_disjoint : ∀ first second : ParaType, first ≠ second →
    first.offset + first.size ≤ second.offset ∨ second.offset + second.size ≤ first.offset := by
  decide

/-- Different groups have disjoint checksum words. -/
theorem crc_words_disjoint : ∀ first second : ParaType, first ≠ second →
    crcWord first + 2 ≤ crcWord second ∨ crcWord second + 2 ≤ crcWord first := by
  decide

/-- A byte belongs to at most one group. -/
theorem owner_unique (first second : ParaType) (address : Nat) (left : Owns first address)
    (right : Owns second address) : first = second := by
  by_contra different
  have data := groups_disjoint first second different
  have words := crc_words_disjoint first second different
  have firstBounds := group_bounds first
  have secondBounds := group_bounds second
  have firstWord := crc_word_bounds first
  have secondWord := crc_word_bounds second
  unfold Owns at left right
  omega

/-- A position inside consecutive blocks falls into one of them. Induct on the
blocks: it lies in the first one, or in the rest once the first is skipped. -/
theorem block_of_position {α : Type} (blocks : List α) (length : α → Nat) (position : Nat)
    (inside : position < (blocks.map length).sum) :
    ∃ block count, blocks[count]? = some block ∧
      ((blocks.take count).map length).sum ≤ position ∧
      position < ((blocks.take count).map length).sum + length block := by
  induction blocks generalizing position with
  | nil => simp at inside
  | cons first rest inductionHypothesis =>
    by_cases here : position < length first
    · exact ⟨first, 0, by simp, by simp, by simpa using here⟩
    · have later : position - length first < (rest.map length).sum := by
        simp only [List.map_cons, List.sum_cons] at inside
        omega
      obtain ⟨block, count, found, low, high⟩ := inductionHypothesis _ later
      refine ⟨block, count + 1, by simpa using found, ?_, ?_⟩
      · simp only [List.take_succ_cons, List.map_cons, List.sum_cons]
        omega
      · simp only [List.take_succ_cons, List.map_cons, List.sum_cons]
        omega

/-- The enumeration lists each group at its own value. -/
theorem all_index (count : Nat) (group : ParaType) (found : ParaType.all[count]? = some group) :
    group.index = count := by
  have bound : count < 14 := (List.getElem?_eq_some_iff.mp found).1
  interval_cases count <;> simp [ParaType.all] at found <;> subst found <;> rfl

/-- The groups and their checksum words fill the structure behind the magic word. -/
theorem owner_exists (address : Nat) (low : 4 ≤ address) (high : address < sizeofSysPara) :
    ∃ group, Owns group address := by
  by_cases data : address < crcOffset
  · have total : (ParaType.all.map ParaType.size).sum = crcOffset - 4 := by decide
    obtain ⟨group, count, found, above, below⟩ :=
      block_of_position ParaType.all ParaType.size (address - 4) (by omega)
    have position : group.offset = 4 + ((ParaType.all.take count).map ParaType.size).sum := by
      rw [ParaType.offset, all_index count group found]
    exact ⟨group, Or.inl ⟨by omega, by omega⟩⟩
  · have slot : (address - crcOffset) / 2 < ParaType.all.length := by
      have size : sizeofSysPara = crcOffset + 28 := by decide
      have length : ParaType.all.length = 14 := by decide
      omega
    have value : ParaType.all[(address - crcOffset) / 2].index = (address - crcOffset) / 2 :=
      all_index _ _ (List.getElem?_eq_getElem slot)
    refine ⟨ParaType.all[(address - crcOffset) / 2], Or.inr ?_⟩
    rw [crcWord, value]
    omega

/-- A group's data bytes belong to it. -/
theorem owns_data {group : ParaType} {address : Nat} (low : group.offset ≤ address)
    (high : address < group.offset + group.size) : Owns group address := Or.inl ⟨low, high⟩

/-- A group's checksum bytes belong to it. -/
theorem owns_word {group : ParaType} {address : Nat} (low : crcWord group ≤ address)
    (high : address < crcWord group + 2) : Owns group address := Or.inr ⟨low, high⟩

/-- The magic word belongs to no group. -/
theorem owns_above {group : ParaType} {address : Nat} (owned : Owns group address) :
    4 ≤ address ∧ address < sizeofSysPara := by
  have data := group_bounds group
  have word := crc_word_bounds group
  unfold Owns at owned
  omega

/-- A group's computed checksum depends on its data bytes only. -/
theorem group_crc_congr {left right : Mem} {group : ParaType} (same : SameGroup left right group) :
    groupCrc left group = groupCrc right group := by
  have view : Agree (window left group.offset) (window right group.offset) 0 group.size := by
    intro address _ high
    exact same (group.offset + address) (by omega) (by omega)
  rw [groupCrc, groupCrc, crc16_congr view]

/-- A group's stored checksum depends on its two bytes only. -/
theorem stored_crc_congr {left right : Mem} {group : ParaType}
    (same : Agree left right (crcWord group) 2) : storedCrc left group = storedCrc right group :=
  load16_congr same

/-- A group's validity depends on the bytes it owns only. -/
theorem group_valid_congr {left right : Mem} {group : ParaType}
    (same : ∀ address, Owns group address → left address = right address) :
    groupValid left group = groupValid right group := by
  have data : SameGroup left right group :=
    fun address low high => same address (owns_data low high)
  have word : Agree left right (crcWord group) 2 :=
    fun address low high => same address (owns_word low high)
  rw [groupValid, groupValid, group_crc_congr data, stored_crc_congr word]

/-- Structures with the same bytes have the same magic word and the same valid groups. -/
theorem fully_valid_congr {left right : Mem} (same : Agree left right 0 sizeofSysPara) :
    FullyValid left ↔ FullyValid right := by
  have magic : magicOf left = magicOf right :=
    load32_congr (agree_mono same (by omega) (by decide))
  have groups : ∀ group, groupValid left group = groupValid right group := by
    intro group
    apply group_valid_congr
    intro address owned
    have inside := owns_above owned
    exact same address (by omega) (by omega)
  simp only [FullyValid, magic, groups]

end Pyrometer.ParameterLayout
