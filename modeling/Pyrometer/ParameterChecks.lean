import Pyrometer.ParameterManager

/-!
# Checks and checksums of a parameter structure

What `pmm_validate_para` reports, what `para_recalculate_all_crc` establishes
and what a group copy changes, each read byte by byte or bit by bit. Later
modules use these laws and never unfold the functions.
-/

namespace Pyrometer.ParameterChecks

open ByteMemory BitMasks ParameterLayout ParameterManager

/-- Membership of a position among the selected groups' enumeration values. -/
theorem any_index (selected : ParaType → Bool) (group : ParaType) :
    ParaType.all.any (fun tested => selected tested && decide (group.index = tested.index)) =
      selected group := by
  rw [Bool.eq_iff_iff, List.any_eq_true]
  constructor
  · rintro ⟨tested, _, chosen⟩
    simp only [Bool.and_eq_true, decide_eq_true_eq] at chosen
    obtain ⟨held, same⟩ := chosen
    rw [index_injective same]
    exact held
  · intro held
    exact ⟨group, mem_all group, by simp [held]⟩

/-- Every enumeration value is a bit position. -/
theorem index_inside (group : ParaType) : group.index < 32 :=
  Nat.lt_trans (index_lt group) (by decide)

/-- The bits of `pmm_validate_para`, position by position. -/
theorem validate_bits (para : Mem) (position : Nat) (inside : position < 32) :
    hasBit (pmmValidatePara para) position =
      (decide (magicOf para = paramMagic) &&
        (decide (position = magicBit) ||
          ParaType.all.any (fun group =>
            groupValid para group && decide (position = group.index)))) := by
  unfold pmmValidatePara
  by_cases magic : magicOf para = paramMagic
  · rw [if_pos magic, has_bit_fold ParaType.all ParaType.index (groupValid para) _ position
      (fun group _ => index_inside group) inside,
      has_bit_set 0 magicBit position (by decide) inside, has_bit_zero]
    simp [magic]
  · rw [if_neg magic, has_bit_zero]
    simp [magic]

/-- The magic flag reports the magic word. -/
theorem validate_magic (para : Mem) :
    hasBit (pmmValidatePara para) magicBit = decide (magicOf para = paramMagic) := by
  rw [validate_bits para magicBit (by decide)]
  simp

/-- A group's bit reports the magic word and the group's own checksum. -/
theorem validate_group (para : Mem) (group : ParaType) :
    hasBit (pmmValidatePara para) group.index =
      (decide (magicOf para = paramMagic) && groupValid para group) := by
  have below : group.index ≠ magicBit := by
    have bound := index_lt group
    unfold magicBit
    omega
  rw [validate_bits para group.index (index_inside group), any_index (groupValid para) group]
  simp [below]

/-- The initial mask asks for every group. -/
theorem group_mask_bits (position : Nat) (inside : position < 32) :
    hasBit groupMask position =
      ParaType.all.any (fun group => decide (position = group.index)) := by
  have folded := has_bit_fold ParaType.all ParaType.index (fun _ => true) (0 : BitVec 32) position
    (fun group _ => index_inside group) inside
  simp only [if_true, Bool.true_and, has_bit_zero, Bool.false_or] at folded
  exact folded

/-- Every group is in the initial mask. -/
theorem group_mask_index (group : ParaType) : hasBit groupMask group.index = true := by
  rw [group_mask_bits group.index (index_inside group)]
  simpa using any_index (fun _ => true) group

/-- Recording the magic flag in the reported state gives the full mask exactly
for a structure all of whose checks pass. -/
theorem recorded_corrent_iff (para : Mem) :
    setBit (pmmValidatePara para) magicBit = correntMask ↔ FullyValid para := by
  constructor
  · intro full
    have groups : ∀ group, magicOf para = paramMagic ∧ groupValid para group = true := by
      intro group
      have below : group.index ≠ magicBit := by
        have bound := index_lt group
        unfold magicBit
        omega
      have present : hasBit (setBit (pmmValidatePara para) magicBit) group.index = true := by
        rw [full, correntMask, has_bit_set _ _ _ (by decide) (index_inside group),
          group_mask_index]
        rfl
      rw [has_bit_set _ _ _ (by decide) (index_inside group), validate_group] at present
      simpa [below] using present
    exact ⟨(groups .dev).1, fun group => (groups group).2⟩
  · rintro ⟨magic, groups⟩
    apply mask_ext
    intro position inside
    rw [has_bit_set _ _ _ (by decide) inside, validate_bits para position inside, correntMask,
      has_bit_set _ _ _ (by decide) inside, group_mask_bits position inside]
    simp only [magic, groups, decide_true, Bool.true_and]
    cases decide (position = magicBit) with
    | true => simp
    | false => simp

/-- `pmm_validate_para` reports every bit exactly for a structure all of whose
checks pass. -/
theorem validate_corrent_iff (para : Mem) :
    pmmValidatePara para = correntMask ↔ FullyValid para := by
  constructor
  · intro full
    apply (recorded_corrent_iff para).mp
    rw [full]
    decide
  · intro valid
    rw [← (recorded_corrent_iff para).mpr valid]
    apply mask_ext
    intro position inside
    rw [has_bit_set _ _ _ (by decide) inside]
    by_cases top : position = magicBit
    · rw [top, validate_magic]
      simp [valid.1]
    · simp [top]

/-- The report depends on the bytes of the structure only. -/
theorem validate_congr {left right : Mem} (same : Agree left right 0 sizeofSysPara) :
    pmmValidatePara left = pmmValidatePara right := by
  have magic : magicOf left = magicOf right :=
    load32_congr (agree_mono same (by omega) (by decide))
  have groups : ∀ group, groupValid left group = groupValid right group := by
    intro group
    apply group_valid_congr
    intro address owned
    have inside := owns_above owned
    exact same address (by omega) (by omega)
  simp only [pmmValidatePara, magic, groups]

/-- Assigning the magic word changes the first four bytes only. -/
theorem set_magic_above (para : Mem) (address : Nat) (above : 4 ≤ address) :
    setMagic para address = para address :=
  overlay_outside _ _ _ _ _ (by omega)

/-- The assigned magic word. -/
theorem set_magic_bytes (para : Mem) (address : Nat) (below : address < 4) :
    setMagic para address = byteOf paramMagic address := by
  rw [setMagic, overlay_inside _ _ _ _ _ (by omega) (by omega), Nat.sub_zero]

/-- Assigning a checksum word changes its two bytes only. -/
theorem set_crc_outside (para : Mem) (group : ParaType) (value : BitVec 16) (address : Nat)
    (outside : address < crcWord group ∨ crcWord group + 2 ≤ address) :
    setCrc para group value address = para address :=
  overlay_outside _ _ _ _ _ outside

/-- An assigned checksum word reads back. -/
theorem stored_set_crc (para : Mem) (group : ParaType) (value : BitVec 16) :
    storedCrc (setCrc para group value) group = value := by
  apply load16_of_bytes
  intro index inside
  rw [setCrc, overlay_inside _ _ _ _ _ (by omega) (by omega)]
  congr 1
  omega

/-- Assigning one group's checksum leaves another group's alone. -/
theorem stored_set_crc_other (para : Mem) (group other : ParaType) (value : BitVec 16)
    (different : other ≠ group) :
    storedCrc (setCrc para group value) other = storedCrc para other := by
  have apart := crc_words_disjoint other group different
  apply stored_crc_congr
  intro address low high
  exact set_crc_outside para group value address (by omega)

/-- A copied group takes exactly the bytes it owns. -/
theorem copy_group_exact (sysPara tempPara : Mem) (group : ParaType) (address : Nat) :
    copyGroup sysPara tempPara group address =
      if Owns group address then tempPara address else sysPara address := by
  have data := group_bounds group
  have word := crc_word_bounds group
  by_cases inWord : crcWord group ≤ address ∧ address < crcWord group + 2
  · have owned : Owns group address := Or.inr inWord
    rw [if_pos owned, copyGroup, setCrc, overlay_inside _ _ _ _ _ inWord.1 inWord.2, storedCrc,
      byte_of_load16 tempPara (crcWord group) _ (by omega)]
    congr 1
    omega
  · rw [copyGroup, set_crc_outside _ _ _ _ (by omega)]
    by_cases inData : group.offset ≤ address ∧ address < group.offset + group.size
    · have owned : Owns group address := Or.inl inData
      rw [if_pos owned]
      exact overlay_window_agree sysPara tempPara _ _ address inData.1 inData.2
    · have foreign : ¬Owns group address := by
        rintro (held | held)
        · exact inData held
        · exact inWord held
      rw [if_neg foreign]
      exact overlay_outside _ _ _ _ _ (by omega)

/-- Every byte of the fourteen groups keeps its value. -/
def SameData (left right : Mem) : Prop := Agree left right 4 (crcOffset - 4)

/-- Structures with the same data have the same groups. -/
theorem same_data_group {left right : Mem} (same : SameData left right) (group : ParaType) :
    SameGroup left right group := by
  have bounds := group_bounds group
  exact agree_mono same (by omega) (by unfold crcOffset at *; omega)

/-- The checksum loop: data stay, and each listed group's word becomes the
checksum of its data. Induct on the listed groups; the words are disjoint from
all data, so an assignment disturbs neither data nor an earlier word. -/
theorem recalculate_loop (groups : List ParaType) (para : Mem) (distinct : groups.Nodup) :
    let result := groups.foldl (fun para group => setCrc para group (groupCrc para group)) para
    (∀ address, address < crcOffset ∨ sizeofSysPara ≤ address →
        result address = para address) ∧
      (∀ group ∈ groups, storedCrc result group = groupCrc para group) ∧
      ∀ group, group ∉ groups → storedCrc result group = storedCrc para group := by
  induction groups generalizing para with
  | nil => exact ⟨fun _ _ => rfl, fun group member => absurd member (by simp), fun _ _ => rfl⟩
  | cons first rest inductionHypothesis =>
    obtain ⟨fresh, restDistinct⟩ := List.nodup_cons.mp distinct
    obtain ⟨frame, listed, others⟩ :=
      inductionHypothesis (setCrc para first (groupCrc para first)) restDistinct
    have outside : ∀ address, address < crcOffset ∨ sizeofSysPara ≤ address →
        setCrc para first (groupCrc para first) address = para address := by
      intro address away
      have bounds := crc_word_bounds first
      exact set_crc_outside para first _ address (by omega)
    have sameCrc : ∀ group,
        groupCrc (setCrc para first (groupCrc para first)) group = groupCrc para group := by
      intro group
      have bounds := group_bounds group
      apply group_crc_congr
      intro address low high
      exact outside address (by omega)
    refine ⟨fun address away => (frame address away).trans (outside address away), ?_, ?_⟩
    · intro group member
      rcases List.mem_cons.mp member with rfl | later
      · rw [List.foldl_cons, others group fresh, stored_set_crc]
      · rw [List.foldl_cons, listed group later, sameCrc]
    · intro group absent
      have notFirst : group ≠ first := fun same => absent (by simp [same])
      have notRest : group ∉ rest := fun member => absent (by simp [member])
      rw [List.foldl_cons, others group notRest, stored_set_crc_other para first group _ notFirst]

/-- Recalculation changes the magic word and the checksum words only. -/
theorem recalculate_data (para : Mem) : SameData (paraRecalculateAllCrc para) para := by
  intro address low high
  have away : address < crcOffset ∨ sizeofSysPara ≤ address := by
    unfold crcOffset at *
    omega
  exact ((recalculate_loop ParaType.all (setMagic para) all_nodup).1 address away).trans
    (set_magic_above para address low)

/-- Recalculation stores the checksum of each group's data. -/
theorem recalculate_stored (para : Mem) (group : ParaType) :
    storedCrc (paraRecalculateAllCrc para) group = groupCrc para group := by
  have stored := (recalculate_loop ParaType.all (setMagic para) all_nodup).2.1 group
    (mem_all group)
  have data : groupCrc (setMagic para) group = groupCrc para group := by
    have bounds := group_bounds group
    apply group_crc_congr
    intro address low high
    exact set_magic_above para address (by omega)
  exact stored.trans data

/-- Recalculation stores the magic word. -/
theorem recalculate_magic_bytes (para : Mem) (address : Nat) (below : address < 4) :
    paraRecalculateAllCrc para address = byteOf paramMagic address := by
  have away : address < crcOffset ∨ sizeofSysPara ≤ address := by
    unfold crcOffset
    omega
  exact ((recalculate_loop ParaType.all (setMagic para) all_nodup).1 address away).trans
    (set_magic_bytes para address below)

/-- A structure starting with the magic bytes has the magic word. -/
theorem magic_of_bytes {para : Mem}
    (bytes : ∀ address, address < 4 → para address = byteOf paramMagic address) :
    magicOf para = paramMagic := by
  apply load32_of_bytes
  intro index inside
  rw [Nat.zero_add]
  exact bytes index inside

/-- The magic word determines its bytes. -/
theorem magic_bytes {para : Mem} (magic : magicOf para = paramMagic) (address : Nat)
    (below : address < 4) : para address = byteOf paramMagic address := by
  rw [← magic, magicOf, byte_of_load32 para 0 address below, Nat.zero_add]

/-- After recalculation every check passes. -/
theorem recalculate_valid (para : Mem) : FullyValid (paraRecalculateAllCrc para) := by
  refine ⟨magic_of_bytes (recalculate_magic_bytes para), ?_⟩
  intro group
  have data := group_crc_congr (same_data_group (recalculate_data para) group)
  rw [groupValid, recalculate_stored, data]
  exact beq_self_eq_true _

/-- Structures with the same data, the magic word and valid checksums have the
same bytes throughout. -/
theorem fully_valid_unique {left right : Mem} (leftValid : FullyValid left)
    (rightValid : FullyValid right) (same : ∀ group, SameGroup left right group) :
    Agree left right 0 sizeofSysPara := by
  intro address _ high
  by_cases inMagic : address < 4
  · rw [magic_bytes leftValid.1 address inMagic, magic_bytes rightValid.1 address inMagic]
  · obtain ⟨group, owned⟩ := owner_exists address (by omega) (by omega)
    rcases owned with data | word
    · exact same group address data.1 data.2
    · have leftStored : groupCrc left group = storedCrc left group :=
        eq_of_beq (leftValid.2 group)
      have rightStored : groupCrc right group = storedCrc right group :=
        eq_of_beq (rightValid.2 group)
      have stored : storedCrc left group = storedCrc right group := by
        rw [← leftStored, ← rightStored, group_crc_congr (same group)]
      have position : crcWord group + (address - crcWord group) = address := by omega
      have leftByte := byte_of_load16 left (crcWord group) (address - crcWord group) (by omega)
      have rightByte := byte_of_load16 right (crcWord group) (address - crcWord group) (by omega)
      rw [position] at leftByte rightByte
      rw [← leftByte, ← rightByte]
      exact congrArg (fun word => byteOf word (address - crcWord group)) stored

/-- Recalculating a structure all of whose checks pass changes none of its bytes. -/
theorem recalculate_fixed {para : Mem} (valid : FullyValid para) :
    Agree (paraRecalculateAllCrc para) para 0 sizeofSysPara :=
  fully_valid_unique (recalculate_valid para) valid
    (fun group => same_data_group (recalculate_data para) group)

end Pyrometer.ParameterChecks
