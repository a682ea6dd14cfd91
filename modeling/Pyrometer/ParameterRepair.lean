import Pyrometer.ParameterSaving

/-!
# Repair at start-up

After loading, `para_init` repairs the stored areas: it compares checksum words
when the user area is fully valid, and otherwise rewrites what its status words
report as invalid. Neither path looks at a backup group whose checksum is right
but whose bytes differ, and the first path looks at no magic word. On working
chips the user area always ends up valid and equal to the running parameters;
`RepairsBackup` is exactly the condition under which the backup area does too.
-/

namespace Pyrometer.ParameterRepair

open ByteMemory EepromStorage BitMasks ParameterLayout DefaultParameters ParameterManager
open ParameterChecks ParameterLoading ParameterSaving

/-- A stored group is valid and has the bytes of the running one. -/
def Holds (area para : Mem) (group : ParaType) : Prop :=
  groupValid area group = true ∧ SameGroup area para group

/-- An area passes every check and holds the running parameters. -/
def Converged (area para : Mem) : Prop :=
  pmmValidatePara area = correntMask ∧ ∀ group, SameGroup area para group

/-- Both writable areas have converged. -/
def BothConverged (pmm : Pmm) : Prop :=
  Converged (pmm.chips.area .user) pmm.sysPara ∧ Converged (pmm.chips.area .backup) pmm.sysPara

/-- The device group is rewritten whatever it holds, because its address is
rejected. -/
def Rewritten (para : Mem) (group : ParaType) : Prop :=
  group = .dev ∧ addrRejected para = true

/-- The backup contents that `para_init` repairs. With a fully valid user area:
some checksum word differs between the areas, or the backup area has the magic
word and the same groups. Otherwise: the backup area has no magic word or no
valid group, or every group valid in both areas is the same. A device group
whose user address is rejected does not count. -/
def RepairsBackup (user backup : Mem) : Prop :=
  (FullyValid user →
    (∃ group, storedCrc user group ≠ storedCrc backup group) ∨
      (magicOf backup = paramMagic ∧
        ∀ group, SameGroup user backup group ∨ Rewritten user group)) ∧
  (¬FullyValid user →
    magicOf backup ≠ paramMagic ∨ (∀ group, groupValid backup group = false) ∨
      ∀ group, magicOf user = paramMagic → groupValid user group = true →
        groupValid backup group = true →
          SameGroup user backup group ∨ Rewritten user group)

/-- Convergence, group by group. -/
theorem converged_iff (area para : Mem) :
    Converged area para ↔ magicOf area = paramMagic ∧ ∀ group, Holds area para group := by
  rw [Converged, validate_corrent_iff]
  constructor
  · rintro ⟨⟨magic, valid⟩, same⟩
    exact ⟨magic, fun group => ⟨valid group, same group⟩⟩
  · rintro ⟨magic, held⟩
    exact ⟨⟨magic, fun group => (held group).1⟩, fun group => (held group).2⟩

/-- An area with the bytes of a fully valid structure has converged to it. -/
theorem converged_of_agree {area para : Mem} (valid : FullyValid para)
    (same : Agree area para 0 sizeofSysPara) : Converged area para := by
  refine ⟨(validate_corrent_iff area).mpr ((fully_valid_congr same).mpr valid), ?_⟩
  intro group
  have bounds := group_bounds group
  have size : crcOffset ≤ sizeofSysPara := by decide
  exact agree_mono same (by omega) (by omega)

/-- A held group depends on the area's own bytes of that group. -/
theorem holds_congr {left right para : Mem} {group : ParaType}
    (same : ∀ address, Owns group address → left address = right address) :
    Holds left para group ↔ Holds right para group := by
  have valid := group_valid_congr same
  have data : SameGroup left right group :=
    fun address low high => same address (owns_data low high)
  rw [Holds, Holds, valid]
  constructor
  · rintro ⟨checked, equal⟩
    exact ⟨checked, agree_trans (agree_symm data) equal⟩
  · rintro ⟨checked, equal⟩
    exact ⟨checked, agree_trans data equal⟩

/-- A held group depends on the running group. -/
theorem holds_data {area left right : Mem} {group : ParaType} (same : SameGroup left right group) :
    Holds area left group ↔ Holds area right group := by
  constructor
  · rintro ⟨checked, equal⟩
    exact ⟨checked, agree_trans equal same⟩
  · rintro ⟨checked, equal⟩
    exact ⟨checked, agree_trans equal (agree_symm same)⟩

/-- Agreement on the whole structure is agreement on every owned byte. -/
theorem agree_owned {left right : Mem} (same : Agree left right 0 sizeofSysPara)
    {group : ParaType} (address : Nat) (owned : Owns group address) :
    left address = right address := by
  have inside := owns_above owned
  exact same address (by omega) (by omega)

/-- Replacing the device address changes no other group. -/
theorem default_addr_other (para : Mem) (group : ParaType) (different : group ≠ .dev) :
    SameGroup (setDefaultAddr para) para group := by
  intro address low high
  have foreign : address ≠ devAddr := by
    intro here
    subst here
    exact different (owner_unique group .dev devAddr (owns_data low high) owns_dev_addr)
  exact overlay_outside para _ devAddr 1 address (by omega)

/-- The address stage keeps the user area converged. -/
theorem addr_stage_user (pmm : Pmm) (sound : pmm.Sound)
    (held : Converged (pmm.chips.area .user) pmm.sysPara) :
    Converged ((addrStage pmm).chips.area .user) (addrStage pmm).sysPara := by
  unfold addrStage
  split
  · have saved := group_save .dev { pmm with sysPara := setDefaultAddr pmm.sysPara } sound
    exact converged_of_agree saved.valid saved.user
  · exact held

/-- After the address stage the backup area has converged exactly when it had the
magic word and held every group that the stage does not rewrite. -/
theorem addr_stage_backup (pmm : Pmm) (sound : pmm.Sound) :
    Converged ((addrStage pmm).chips.area .backup) (addrStage pmm).sysPara ↔
      magicOf (pmm.chips.area .backup) = paramMagic ∧
        ∀ group, Holds (pmm.chips.area .backup) pmm.sysPara group ∨
          Rewritten pmm.sysPara group := by
  rw [converged_iff]
  by_cases rejected : addrRejected pmm.sysPara = true
  · have stage : addrStage pmm =
        pmmSaveGroup .dev { pmm with sysPara := setDefaultAddr pmm.sysPara } := if_pos rejected
    have saved := group_save .dev { pmm with sysPara := setDefaultAddr pmm.sysPara } sound
    rw [← stage] at saved
    have magic : magicOf ((addrStage pmm).chips.area .backup) =
        magicOf (pmm.chips.area .backup) :=
      load32_congr (fun address _ high => saved.magic address (by omega))
    have device : Holds ((addrStage pmm).chips.area .backup) (addrStage pmm).sysPara .dev := by
      have same : ∀ address, Owns .dev address →
          (addrStage pmm).chips.area .backup address = (addrStage pmm).sysPara address := by
        intro address owned
        rw [saved.backup .dev address owned, if_pos rfl]
      exact ⟨(group_valid_congr same).trans (saved.valid.2 .dev),
        fun address low high => same address (owns_data low high)⟩
    have others : ∀ group, group ≠ .dev →
        (Holds ((addrStage pmm).chips.area .backup) (addrStage pmm).sysPara group ↔
          Holds (pmm.chips.area .backup) pmm.sysPara group) := by
      intro group different
      have same : ∀ address, Owns group address →
          (addrStage pmm).chips.area .backup address = pmm.chips.area .backup address := by
        intro address owned
        rw [saved.backup group address owned, if_neg different]
        rfl
      have data : SameGroup (addrStage pmm).sysPara pmm.sysPara group :=
        agree_trans (same_data_group saved.data group)
          (default_addr_other pmm.sysPara group different)
      exact (holds_congr same).trans (holds_data data)
    rw [magic]
    constructor
    · rintro ⟨right, held⟩
      refine ⟨right, fun group => ?_⟩
      by_cases first : group = .dev
      · exact Or.inr ⟨first, rejected⟩
      · exact Or.inl ((others group first).mp (held group))
    · rintro ⟨right, held⟩
      refine ⟨right, fun group => ?_⟩
      by_cases first : group = .dev
      · rw [first]
        exact device
      · rcases held group with kept | ⟨same, _⟩
        · exact (others group first).mpr kept
        · exact absurd same first
  · have stage : addrStage pmm = pmm := if_neg rejected
    rw [stage]
    constructor
    · rintro ⟨right, held⟩
      exact ⟨right, fun group => Or.inl (held group)⟩
    · rintro ⟨right, held⟩
      refine ⟨right, fun group => ?_⟩
      rcases held group with kept | ⟨_, impossible⟩
      · exact kept
      · exact absurd impossible rejected

/-- Convergence depends on the bytes of the area and on the running groups. -/
theorem converged_congr {area stored para running : Mem} (same : Agree area stored 0 sizeofSysPara)
    (data : ∀ group, SameGroup para running group) :
    Converged area para ↔ Converged stored running := by
  have groups : ∀ group, SameGroup area stored group := by
    intro group
    have bounds := group_bounds group
    have size : crcOffset ≤ sizeofSysPara := by decide
    exact agree_mono same (by omega) (by omega)
  rw [Converged, Converged, validate_congr same]
  constructor
  · rintro ⟨full, equal⟩
    exact ⟨full, fun group => agree_trans (agree_symm (groups group))
      (agree_trans (equal group) (data group))⟩
  · rintro ⟨full, equal⟩
    exact ⟨full, fun group => agree_trans (groups group)
      (agree_trans (equal group) (agree_symm (data group)))⟩

/-- A start whose reads all deliver. -/
def delivered : StorageType → ReadOutcome := fun _ => .delivered

/-- A group that is valid in the user area is taken from there. -/
theorem source_user (chips : Chips) (group : ParaType)
    (magic : magicOf (chips.area .user) = paramMagic)
    (valid : groupValid (chips.area .user) group = true) :
    sourcePara delivered chips group = chips.area .user := by
  simp [sourcePara, sourceArea, List.find?, qualifies, delivered, magic, valid]

/-- A group that is valid in the backup area and not in the user area is taken
from the backup area. -/
theorem source_backup (chips : Chips) (group : ParaType)
    (missing : ¬(magicOf (chips.area .user) = paramMagic ∧
      groupValid (chips.area .user) group = true))
    (magic : magicOf (chips.area .backup) = paramMagic)
    (valid : groupValid (chips.area .backup) group = true) :
    sourcePara delivered chips group = chips.area .backup := by
  have unqualified : qualifies (delivered .user) (chips.area .user) group = false := by
    rw [Bool.eq_false_iff]
    intro qualified
    simp only [qualifies, Bool.and_eq_true, decide_eq_true_eq] at qualified
    exact missing qualified.2
  have qualified : qualifies (delivered .backup) (chips.area .backup) group = true := by
    simp [qualifies, delivered, magic, valid]
  simp only [sourcePara, sourceArea, List.find?, unqualified, qualified]

/-- The complement of a recorded status selects every group exactly when the area
has no magic word or no valid group. -/
theorem complement_whole_iff (para : Mem) :
    ~~~(setBit (pmmValidatePara para) magicBit) &&& groupMask = groupMask ↔
      ∀ group, ¬(magicOf para = paramMagic ∧ groupValid para group = true) := by
  have recorded : ∀ group : ParaType, hasBit (setBit (pmmValidatePara para) magicBit) group.index =
      (decide (magicOf para = paramMagic) && groupValid para group) := by
    intro group
    have below : group.index ≠ magicBit := by
      have bound := index_lt group
      unfold magicBit
      omega
    rw [has_bit_set _ _ _ (by decide) (index_inside group), validate_group]
    simp [below]
  constructor
  · rintro whole group ⟨magic, valid⟩
    have selected := group_mask_index group
    rw [← whole, has_bit_and _ _ _ (index_inside group), has_bit_not _ _ (index_inside group),
      recorded group] at selected
    simp [magic, valid] at selected
  · intro nothing
    apply mask_ext
    intro position inside
    rw [has_bit_and _ _ _ inside, has_bit_not _ _ inside]
    cases selected : hasBit groupMask position with
    | false => simp
    | true =>
      rw [group_mask_bits position inside, List.any_eq_true] at selected
      obtain ⟨group, _, same⟩ := selected
      rw [decide_eq_true_eq] at same
      subst same
      have missing := nothing group
      have absent : hasBit (setBit (pmmValidatePara para) magicBit) group.index = false := by
        rw [recorded group, Bool.eq_false_iff]
        intro present
        simp only [Bool.and_eq_true, decide_eq_true_eq] at present
        exact missing present
      simp [absent]

/-- A partial repair selects exactly the groups that are not valid. -/
theorem complement_selects (para : Mem) (magic : magicOf para = paramMagic) (group : ParaType) :
    hasBit (~~~(setBit (pmmValidatePara para) magicBit)) group.index = !groupValid para group := by
  have below : group.index ≠ magicBit := by
    have bound := index_lt group
    unfold magicBit
    omega
  rw [has_bit_not _ _ (index_inside group), has_bit_set _ _ _ (by decide) (index_inside group),
    validate_group]
  simp [below, magic]

/-- A recorded status is never zero. -/
theorem recorded_nonzero (state : BitVec 32) : setBit state magicBit ≠ 0 := by
  intro zero
  have flag := has_bit_set state magicBit magicBit (by decide) (by decide)
  rw [zero, has_bit_zero] at flag
  simp at flag

/-- What `repair_invalid_storage` does to the backup area: a whole rewrite when no
group is valid there, otherwise a rewrite of the invalid groups only. -/
structure BackupRepair (before after : Pmm) : Prop where
  sound : after.Sound
  data : ∀ group, SameGroup after.sysPara before.sysPara group
  user : Agree (after.chips.area .user) (before.chips.area .user) 0 sizeofSysPara
  whole : (∀ group, ¬(magicOf (before.chips.area .backup) = paramMagic ∧
      groupValid (before.chips.area .backup) group = true)) →
    Converged (after.chips.area .backup) after.sysPara
  partly : magicOf (before.chips.area .backup) = paramMagic →
    (∃ group, groupValid (before.chips.area .backup) group = true) →
    magicOf (after.chips.area .backup) = paramMagic ∧
      (∀ group, groupValid (before.chips.area .backup) group = true →
        ∀ address, Owns group address →
          after.chips.area .backup address = before.chips.area .backup address) ∧
      ∀ group, groupValid (before.chips.area .backup) group = false →
        Holds (after.chips.area .backup) after.sysPara group

/-- The backup part of `repair_invalid_storage`, given the recorded status. -/
theorem backup_repair (pmm : Pmm) (sound : pmm.Sound)
    (recorded : pmm.paraErrStatus .backup =
      setBit (pmmValidatePara (pmm.chips.area .backup)) magicBit) :
    BackupRepair pmm (repairArea .backup pmm) := by
  by_cases full : FullyValid (pmm.chips.area .backup)
  · have idle : repairArea .backup pmm = pmm := by
      rw [repairArea, recorded, (recorded_corrent_iff _).mpr full]
      simp
    rw [idle]
    refine ⟨sound, fun group => agree_refl _ _ _, agree_refl _ _ _, ?_, ?_⟩
    · intro missing
      exact absurd ⟨full.1, full.2 .dev⟩ (missing .dev)
    · intro magic _
      refine ⟨magic, fun _ _ _ _ => rfl, ?_⟩
      intro group invalid
      rw [full.2 group] at invalid
      cases invalid
  · have repairs : repairArea .backup pmm = (paraSaveToStorage .backup
        (~~~(setBit (pmmValidatePara (pmm.chips.area .backup)) magicBit)) pmm).2 := by
      have wrong : setBit (pmmValidatePara (pmm.chips.area .backup)) magicBit ≠ correntMask :=
        fun same => full ((recorded_corrent_iff _).mp same)
      rw [repairArea, recorded, if_pos ⟨wrong, recorded_nonzero _⟩]
    have data : SameData (repairArea .backup pmm).sysPara pmm.sysPara := by
      rw [repairs]
      exact para_save_data .backup _ pmm
    by_cases none : ∀ group, ¬(magicOf (pmm.chips.area .backup) = paramMagic ∧
        groupValid (pmm.chips.area .backup) group = true)
    · have saved := whole_save .backup _ pmm sound
        (Or.inr ((complement_whole_iff (pmm.chips.area .backup)).mpr none))
      rw [← repairs] at saved
      refine ⟨saved.sound, ?_, saved.frame .user (by decide), ?_, ?_⟩
      · intro group
        exact same_data_group data group
      · intro _
        apply converged_of_agree _ saved.written
        rw [saved.sysPara]
        exact recalculate_valid _
      · rintro magic ⟨group, valid⟩
        exact absurd ⟨magic, valid⟩ (none group)
    · have notWhole := fun whole => none ((complement_whole_iff (pmm.chips.area .backup)).mp whole)
      have saved := partial_save _ pmm sound notWhole
      rw [← repairs] at saved
      refine ⟨saved.sound, ?_, saved.frame .user (by decide), ?_, ?_⟩
      · intro group
        exact same_data_group data group
      · intro missing
        exact absurd missing none
      · intro magic _
        refine ⟨?_, ?_, ?_⟩
        · exact (load32_congr (fun address _ high => saved.magic address (by omega))).trans magic
        · intro group valid address owned
          rw [saved.owned group address owned, complement_selects _ magic, valid]
          rfl
        · intro group invalid
          have same : ∀ address, Owns group address →
              (repairArea .backup pmm).chips.area .backup address =
                (repairArea .backup pmm).sysPara address := by
            intro address owned
            rw [saved.owned group address owned, complement_selects _ magic, invalid]
            rfl
          have checked : groupValid (repairArea .backup pmm).sysPara group = true := by
            rw [saved.sysPara]
            exact (recalculate_valid _).2 group
          exact ⟨(group_valid_congr same).trans checked,
            fun address low high => same address (owns_data low high)⟩

/-- The condition of `addr_stage_backup`: the backup area is right except for what
the address stage rewrites. -/
def BackupReady (pmm : Pmm) : Prop :=
  magicOf (pmm.chips.area .backup) = paramMagic ∧
    ∀ group, Holds (pmm.chips.area .backup) pmm.sysPara group ∨ Rewritten pmm.sysPara group

/-- A converged backup area is ready. -/
theorem converged_ready {pmm : Pmm} (held : Converged (pmm.chips.area .backup) pmm.sysPara) :
    BackupReady pmm := by
  obtain ⟨magic, groups⟩ := (converged_iff _ _).mp held
  exact ⟨magic, fun group => Or.inl (groups group)⟩

/-- Loading reads the chips and does not change them. -/
theorem loaded_chips (pmm : Pmm) : (loadAreas delivered pmm).chips = pmm.chips := by
  have effect := load_areas_effect delivered pmm
  simp only [Pmm.chips, effect.fmc, effect.eeprom]

/-- Chips that work before loading work after it. -/
theorem loaded_sound {pmm : Pmm} (sound : pmm.Sound) : (loadAreas delivered pmm).Sound := by
  have effect := load_areas_effect delivered pmm
  rw [Pmm.Sound, effect.fmc, effect.eeprom]
  exact sound

/-- The bytes of a fully valid user area are the running parameters. -/
theorem loaded_valid_user (pmm : Pmm) (full : FullyValid (pmm.chips.area .user)) (group : ParaType)
    (address : Nat) (owned : Owns group address) :
    (loadAreas delivered pmm).sysPara address = pmm.chips.area .user address := by
  rw [(load_areas_effect delivered pmm).bytes group address owned,
    source_user pmm.chips group full.1 (full.2 group)]

/-- A fully valid user area has converged when it is loaded. -/
theorem loaded_user_converged (pmm : Pmm) (full : FullyValid (pmm.chips.area .user)) :
    Converged (pmm.chips.area .user) (loadAreas delivered pmm).sysPara :=
  ⟨(validate_corrent_iff _).mpr full, fun group address low high =>
    (loaded_valid_user pmm full group address (owns_data low high)).symm⟩

/-- The checksum words of two areas differ somewhere. -/
def WordsDiffer (user backup : Mem) : Prop :=
  ∃ group, storedCrc user group ≠ storedCrc backup group

/-- The comparison `para_init` makes behind a fully valid user area. -/
theorem loaded_words_differ (pmm : Pmm) :
    (ParaType.all.any (fun group => (loadAreas delivered pmm).crcUser group !=
        (loadAreas delivered pmm).crcBackup group)) = true ↔
      WordsDiffer (pmm.chips.area .user) (pmm.chips.area .backup) := by
  have effect := load_areas_effect delivered pmm
  simp only [List.any_eq_true, mem_all, true_and, bne_iff_ne, effect.crcUser, effect.crcBackup,
    delivered, if_true, WordsDiffer]

/-- A fully valid user area is recorded as such. -/
theorem loaded_status_iff (pmm : Pmm) :
    (loadAreas delivered pmm).paraErrStatus .user = correntMask ↔
      FullyValid (pmm.chips.area .user) := by
  rw [(load_areas_effect delivered pmm).status]
  exact recorded_corrent_iff _

/-- Different checksum words have the backup area rewritten. -/
theorem repair_stage_differing (pmm : Pmm) (sound : pmm.Sound)
    (full : FullyValid (pmm.chips.area .user))
    (differs : WordsDiffer (pmm.chips.area .user) (pmm.chips.area .backup)) :
    (repairStage (loadAreas delivered pmm)).Sound ∧
      Converged ((repairStage (loadAreas delivered pmm)).chips.area .user)
        (repairStage (loadAreas delivered pmm)).sysPara ∧
      BackupReady (repairStage (loadAreas delivered pmm)) := by
  have userHeld := loaded_user_converged pmm full
  have chips := loaded_chips pmm
  have loadedSound := loaded_sound sound
  have stage : repairStage (loadAreas delivered pmm) =
      pmmSaveToBackup (loadAreas delivered pmm) := by
    rw [repairStage, if_pos ((loaded_status_iff pmm).mpr full),
      if_pos ((loaded_words_differ pmm).mpr differs)]
  generalize loadAreas delivered pmm = loaded at *
  have saved := whole_save .backup wholeMask loaded loadedSound (whole_mask_whole .backup)
  have data : ∀ group, SameGroup (repairStage loaded).sysPara loaded.sysPara group :=
    fun group => same_data_group (repair_stage_data loaded) group
  rw [show (paraSaveToStorage .backup wholeMask loaded).2 = repairStage loaded from stage.symm]
    at saved
  have user : Agree ((repairStage loaded).chips.area .user) (pmm.chips.area .user) 0
      sizeofSysPara := by
    rw [← chips]
    exact saved.frame .user (by decide)
  have valid : FullyValid (repairStage loaded).sysPara := by
    rw [saved.sysPara]
    exact recalculate_valid _
  exact ⟨saved.sound, (converged_congr user data).mpr userHeld,
    converged_ready (converged_of_agree valid saved.written)⟩

/-- With equal checksum words the backup area stays as it is, and is ready exactly
when it has the magic word and each group that is not rewritten. -/
theorem backup_ready_equal_words (pmm : Pmm) (full : FullyValid (pmm.chips.area .user))
    (same : ¬WordsDiffer (pmm.chips.area .user) (pmm.chips.area .backup)) :
    BackupReady (loadAreas delivered pmm) ↔
      magicOf (pmm.chips.area .backup) = paramMagic ∧
        ∀ group, SameGroup (pmm.chips.area .user) (pmm.chips.area .backup) group ∨
          Rewritten (pmm.chips.area .user) group := by
  have groups := (loaded_user_converged pmm full).2
  have held : ∀ group,
      Holds (pmm.chips.area .backup) (loadAreas delivered pmm).sysPara group ↔
        SameGroup (pmm.chips.area .user) (pmm.chips.area .backup) group := by
    intro group
    have word : storedCrc (pmm.chips.area .user) group =
        storedCrc (pmm.chips.area .backup) group := by
      by_contra different
      exact same ⟨group, different⟩
    constructor
    · rintro ⟨_, equal⟩
      exact agree_trans (groups group) (agree_symm equal)
    · intro equal
      refine ⟨?_, agree_trans (agree_symm equal) (groups group)⟩
      rw [groupValid, ← group_crc_congr equal, ← word]
      exact full.2 group
  have rewritten : ∀ group, Rewritten (loadAreas delivered pmm).sysPara group ↔
      Rewritten (pmm.chips.area .user) group := by
    intro group
    rw [Rewritten, Rewritten,
      addr_rejected_congr (loaded_valid_user pmm full .dev devAddr owns_dev_addr)]
  rw [BackupReady, loaded_chips pmm]
  simp only [held, rewritten]

/-- What the repair stage leaves on working chips: the user area converges, and the backup
area is ready exactly for the contents that repair it. -/
structure StageRepairs (pmm : Pmm) : Prop where
  sound : (repairStage (loadAreas delivered pmm)).Sound
  user : Converged ((repairStage (loadAreas delivered pmm)).chips.area .user)
    (repairStage (loadAreas delivered pmm)).sysPara
  ready : BackupReady (repairStage (loadAreas delivered pmm)) ↔
    RepairsBackup (pmm.chips.area .user) (pmm.chips.area .backup)

/-- The repair stage behind a fully valid user area. -/
theorem repair_stage_valid_user (pmm : Pmm) (sound : pmm.Sound)
    (full : FullyValid (pmm.chips.area .user)) : StageRepairs pmm := by
  by_cases differs : WordsDiffer (pmm.chips.area .user) (pmm.chips.area .backup)
  · obtain ⟨stageSound, user, ready⟩ := repair_stage_differing pmm sound full differs
    refine ⟨stageSound, user, iff_of_true ready ?_⟩
    exact ⟨fun _ => Or.inl differs, fun invalid => absurd full invalid⟩
  · have stage : repairStage (loadAreas delivered pmm) = loadAreas delivered pmm := by
      rw [repairStage, if_pos ((loaded_status_iff pmm).mpr full),
        if_neg (fun any => differs ((loaded_words_differ pmm).mp any))]
    constructor
    · rw [stage]
      exact loaded_sound sound
    · rw [stage, loaded_chips pmm]
      exact loaded_user_converged pmm full
    · rw [stage, backup_ready_equal_words pmm full differs]
      constructor
      · intro ready
        exact ⟨fun _ => Or.inr ready, fun invalid => absurd full invalid⟩
      · rintro ⟨valid, _⟩
        rcases valid full with different | ready
        · exact absurd different differs
        · exact ready

/-- The bytes of the running parameters behind an invalid user area, for a group
that is valid in the backup area. -/
theorem loaded_valid_backup (pmm : Pmm) (group : ParaType)
    (magic : magicOf (pmm.chips.area .backup) = paramMagic)
    (valid : groupValid (pmm.chips.area .backup) group = true) :
    SameGroup (pmm.chips.area .backup) (loadAreas delivered pmm).sysPara group ↔
      (magicOf (pmm.chips.area .user) = paramMagic →
        groupValid (pmm.chips.area .user) group = true →
          SameGroup (pmm.chips.area .user) (pmm.chips.area .backup) group) := by
  have effect := load_areas_effect delivered pmm
  by_cases inUser : magicOf (pmm.chips.area .user) = paramMagic ∧
      groupValid (pmm.chips.area .user) group = true
  · have taken : SameGroup (loadAreas delivered pmm).sysPara (pmm.chips.area .user) group := by
      intro address low high
      rw [effect.bytes group address (owns_data low high),
        source_user pmm.chips group inUser.1 inUser.2]
    constructor
    · intro same _ _
      exact agree_symm (agree_trans same taken)
    · intro same
      exact agree_trans (agree_symm (same inUser.1 inUser.2)) (agree_symm taken)
  · have taken : SameGroup (pmm.chips.area .backup) (loadAreas delivered pmm).sysPara group := by
      intro address low high
      rw [effect.bytes group address (owns_data low high),
        source_backup pmm.chips group inUser magic valid]
    constructor
    · intro _ userMagic userValid
      exact absurd ⟨userMagic, userValid⟩ inUser
    · intro _
      exact taken

/-- What the repair stage does behind a user area that fails some check: the user
area is rewritten as a whole, the backup area as `BackupRepair` says. -/
structure InvalidRepair (pmm stage : Pmm) : Prop where
  sound : stage.Sound
  user : Converged (stage.chips.area .user) stage.sysPara
  running : ∀ group, SameGroup stage.sysPara (loadAreas delivered pmm).sysPara group
  whole : (∀ group, ¬(magicOf (pmm.chips.area .backup) = paramMagic ∧
      groupValid (pmm.chips.area .backup) group = true)) →
    Converged (stage.chips.area .backup) stage.sysPara
  partly : magicOf (pmm.chips.area .backup) = paramMagic →
    (∃ group, groupValid (pmm.chips.area .backup) group = true) →
    magicOf (stage.chips.area .backup) = paramMagic ∧
      (∀ group, groupValid (pmm.chips.area .backup) group = true →
        ∀ address, Owns group address →
          stage.chips.area .backup address = pmm.chips.area .backup address) ∧
      ∀ group, groupValid (pmm.chips.area .backup) group = false →
        Holds (stage.chips.area .backup) stage.sysPara group

/-- The repair stage behind a user area that fails some check, step by step. -/
theorem invalid_repair (pmm : Pmm) (sound : pmm.Sound)
    (invalid : ¬FullyValid (pmm.chips.area .user)) :
    InvalidRepair pmm (repairStage (loadAreas delivered pmm)) := by
  have effect := load_areas_effect delivered pmm
  have chips := loaded_chips pmm
  have loadedSound := loaded_sound sound
  set loaded := loadAreas delivered pmm with loadedDef
  have wrong : loaded.paraErrStatus .user ≠ correntMask := fun same =>
    invalid ((loaded_status_iff pmm).mp same)
  have nonzero : loaded.paraErrStatus .user ≠ 0 := by
    rw [effect.status]
    exact recorded_nonzero _
  have first : repairArea .user loaded =
      (paraSaveToStorage .user (~~~(loaded.paraErrStatus .user)) loaded).2 := by
    rw [repairArea, if_pos ⟨wrong, nonzero⟩]
  have saved := whole_save .user (~~~(loaded.paraErrStatus .user)) loaded loadedSound
    (Or.inl rfl)
  have ram := para_save_ram .user (~~~(loaded.paraErrStatus .user)) loaded
  rw [← first] at saved ram
  set repaired := repairArea .user loaded with repairedDef
  have untouched : Agree (repaired.chips.area .backup) (pmm.chips.area .backup) 0
      sizeofSysPara := by
    rw [← chips]
    exact saved.frame .backup (by decide)
  have recorded : repaired.paraErrStatus .backup =
      setBit (pmmValidatePara (repaired.chips.area .backup)) magicBit := by
    rw [ram.paraErrStatus, validate_congr untouched]
    exact effect.status .backup
  have result : repairStage loaded = repairArea .backup repaired := by
    rw [repairStage, if_neg wrong]
    rfl
  have repair := backup_repair repaired saved.sound recorded
  rw [← result] at repair
  have sameMagic : magicOf (repaired.chips.area .backup) = magicOf (pmm.chips.area .backup) :=
    load32_congr (agree_mono untouched (by omega) (by decide))
  have sameValid : ∀ group, groupValid (repaired.chips.area .backup) group =
      groupValid (pmm.chips.area .backup) group :=
    fun group => group_valid_congr (agree_owned untouched)
  have validUser : FullyValid repaired.sysPara := by
    rw [saved.sysPara]
    exact recalculate_valid _
  refine ⟨repair.sound, ?_, fun group => same_data_group (repair_stage_data loaded) group, ?_, ?_⟩
  · exact (converged_congr repair.user repair.data).mpr
      (converged_of_agree validUser saved.written)
  · intro nothing
    exact repair.whole (by simpa only [sameMagic, sameValid] using nothing)
  · rintro magic ⟨witness, valid⟩
    obtain ⟨magicAfter, kept, filled⟩ := repair.partly (sameMagic.trans magic)
      ⟨witness, (sameValid witness).trans valid⟩
    refine ⟨magicAfter, ?_, fun group missing => filled group ((sameValid group).trans missing)⟩
    intro group present address owned
    exact (kept group ((sameValid group).trans present) address owned).trans
      (agree_owned untouched address owned)

/-- A group that was valid in the backup area holds after the repair exactly when
the user area had no other valid version of it. -/
theorem kept_group_holds_iff {pmm stage : Pmm} (repair : InvalidRepair pmm stage)
    (magic : magicOf (pmm.chips.area .backup) = paramMagic) {group : ParaType}
    (valid : groupValid (pmm.chips.area .backup) group = true) :
    Holds (stage.chips.area .backup) stage.sysPara group ↔
      (magicOf (pmm.chips.area .user) = paramMagic →
        groupValid (pmm.chips.area .user) group = true →
          SameGroup (pmm.chips.area .user) (pmm.chips.area .backup) group) := by
  obtain ⟨_, kept, _⟩ := repair.partly magic ⟨group, valid⟩
  rw [holds_congr (kept group valid), holds_data (repair.running group),
    ← loaded_valid_backup pmm group magic valid]
  constructor
  · exact fun held => held.2
  · exact fun same => ⟨valid, same⟩

/-- Whether the address stage rewrites a group that was valid in the user area is
decided by that area. -/
theorem rewritten_valid_user_iff {pmm stage : Pmm} (repair : InvalidRepair pmm stage)
    {group : ParaType} (magic : magicOf (pmm.chips.area .user) = paramMagic)
    (valid : groupValid (pmm.chips.area .user) group = true) :
    Rewritten stage.sysPara group ↔ Rewritten (pmm.chips.area .user) group := by
  rw [Rewritten, Rewritten]
  refine and_congr_right fun device => ?_
  subst device
  have sameAddr : stage.sysPara devAddr = pmm.chips.area .user devAddr := by
    rw [repair.running .dev devAddr (by decide) (by decide),
      (load_areas_effect delivered pmm).bytes .dev devAddr owns_dev_addr,
      source_user pmm.chips .dev magic valid]
  rw [addr_rejected_congr sameAddr]

/-- The repair stage behind a user area that fails some check. -/
theorem repair_stage_invalid_user (pmm : Pmm) (sound : pmm.Sound)
    (invalid : ¬FullyValid (pmm.chips.area .user)) : StageRepairs pmm := by
  have repair := invalid_repair pmm sound invalid
  refine ⟨repair.sound, repair.user, ?_⟩
  by_cases none : ∀ group, ¬(magicOf (pmm.chips.area .backup) = paramMagic ∧
      groupValid (pmm.chips.area .backup) group = true)
  · refine iff_of_true (converged_ready (repair.whole none)) ?_
    refine ⟨fun full => absurd full invalid, fun _ => ?_⟩
    by_cases magic : magicOf (pmm.chips.area .backup) = paramMagic
    · refine Or.inr (Or.inl fun group => ?_)
      rw [Bool.eq_false_iff]
      exact fun valid => none group ⟨magic, valid⟩
    · exact Or.inl magic
  · obtain ⟨witness, magic, validWitness⟩ : ∃ group,
        magicOf (pmm.chips.area .backup) = paramMagic ∧
          groupValid (pmm.chips.area .backup) group = true := by
      simpa only [not_forall, not_not] using none
    obtain ⟨magicAfter, _, filled⟩ := repair.partly magic ⟨witness, validWitness⟩
    constructor
    · rintro ⟨_, ready⟩
      refine ⟨fun full => absurd full invalid, fun _ => Or.inr (Or.inr ?_)⟩
      intro group userMagic userValid valid
      rcases ready group with held | again
      · exact Or.inl ((kept_group_holds_iff repair magic valid).mp held userMagic userValid)
      · exact Or.inr ((rewritten_valid_user_iff repair userMagic userValid).mp again)
    · rintro ⟨_, condition⟩
      refine ⟨magicAfter, fun group => ?_⟩
      cases valid : groupValid (pmm.chips.area .backup) group with
      | false => exact Or.inl (filled group valid)
      | true =>
        rcases condition invalid with noMagic | noGroup | same
        · exact absurd magic noMagic
        · rw [noGroup witness] at validWitness
          cases validWitness
        · by_cases inUser : magicOf (pmm.chips.area .user) = paramMagic ∧
              groupValid (pmm.chips.area .user) group = true
          · rcases same group inUser.1 inUser.2 valid with equal | again
            · exact Or.inl ((kept_group_holds_iff repair magic valid).mpr (fun _ _ => equal))
            · exact Or.inr
                ((rewritten_valid_user_iff repair inUser.1 inUser.2).mpr again)
          · exact Or.inl ((kept_group_holds_iff repair magic valid).mpr
              (fun userMagic userValid => absurd ⟨userMagic, userValid⟩ inUser))

/-- On working chips `para_init` leaves both areas valid in every check and equal
to the running parameters exactly for the contents described by `RepairsBackup`. -/
theorem para_init_converges_iff (pmm : Pmm) (sound : pmm.Sound) :
    BothConverged (paraInit delivered pmm) ↔
      RepairsBackup (pmm.chips.area .user) (pmm.chips.area .backup) := by
  have stage : StageRepairs pmm := by
    by_cases full : FullyValid (pmm.chips.area .user)
    · exact repair_stage_valid_user pmm sound full
    · exact repair_stage_invalid_user pmm sound full
  obtain ⟨stageSound, user, ready⟩ := stage
  rw [BothConverged, paraInit, addr_stage_backup _ stageSound]
  constructor
  · rintro ⟨_, held⟩
    exact ready.mp held
  · intro condition
    exact ⟨addr_stage_user _ stageSound user, ready.mpr condition⟩

/-- Chips whose user and backup areas hold the given structures; the rest of the
flash is erased. -/
def chipsOf (user backup : Mem) : Chips :=
  ⟨overlay (fun _ => NorFlash.erased) user (StorageType.address .user) sizeofSysPara, backup⟩

/-- The user area of such chips. -/
theorem chips_of_user (user backup : Mem) :
    Agree ((chipsOf user backup).area .user) user 0 sizeofSysPara := by
  intro address _ high
  have view : (chipsOf user backup).area .user address =
      overlay (fun _ => NorFlash.erased) user (StorageType.address .user) sizeofSysPara
        (StorageType.address .user + address) := rfl
  rw [view]
  generalize StorageType.address .user = base
  rw [overlay_inside _ user base sizeofSysPara (base + address) (by omega) (by omega),
    Nat.add_sub_cancel_left]

/-- A powered-up device has working chips. -/
theorem power_up_sound (chips : Chips) : (Pmm.powerUp chips).Sound :=
  ⟨NorFlash.Device.healthy_sound chips.flash, EepromStorage.healthy_sound chips.cells⟩

/-- A powered-up device has the given contents. -/
theorem power_up_chips (chips : Chips) : (Pmm.powerUp chips).chips = chips := rfl

/-- The default parameters with their checksums. -/
def checkedDefault : Mem := paraRecalculateAllCrc sysDefPara

/-- Two equal valid copies stay converged through a start. -/
theorem equal_copies_converge :
    BothConverged (paraInit delivered (Pmm.powerUp (chipsOf checkedDefault checkedDefault))) := by
  have stored := chips_of_user checkedDefault checkedDefault
  have backup := backup_area (chipsOf checkedDefault checkedDefault)
  have valid : FullyValid checkedDefault := recalculate_valid sysDefPara
  apply (para_init_converges_iff _ (power_up_sound _)).mpr
  change RepairsBackup ((chipsOf checkedDefault checkedDefault).area .user)
    ((chipsOf checkedDefault checkedDefault).area .backup)
  rw [backup]
  refine ⟨fun _ => Or.inr ⟨valid.1, fun group => Or.inl ?_⟩, fun invalid => ?_⟩
  · exact fun address low high => agree_owned stored address (owns_data low high)
  · exact absurd ((fully_valid_congr stored).mpr valid) invalid

/-- A backup copy that lost its magic word, with all checksum words intact. -/
def magiclessDefault : Mem := fun address => if address = 0 then 0 else checkedDefault address

/-- A fully valid user area and a backup copy without its magic word: the start
compares checksum words only, so the backup area stays invalid. -/
theorem magicless_backup_not_repaired :
    ¬BothConverged
      (paraInit delivered (Pmm.powerUp (chipsOf checkedDefault magiclessDefault))) := by
  have stored := chips_of_user checkedDefault magiclessDefault
  have backup : (chipsOf checkedDefault magiclessDefault).area .backup = magiclessDefault :=
    backup_area (chipsOf checkedDefault magiclessDefault)
  have valid : FullyValid ((chipsOf checkedDefault magiclessDefault).area .user) :=
    (fully_valid_congr stored).mpr (recalculate_valid sysDefPara)
  have noMagic : magicOf magiclessDefault ≠ paramMagic := by
    intro magic
    exact absurd (magic_bytes magic 0 (by decide)) (by decide)
  have sameWords : ∀ group, storedCrc ((chipsOf checkedDefault magiclessDefault).area .user) group =
      storedCrc magiclessDefault group := by
    intro group
    have bounds := crc_word_bounds group
    have start : 0 < crcOffset := by decide
    apply stored_crc_congr
    intro address low high
    rw [stored address (by omega) (by omega), magiclessDefault, if_neg (by omega)]
  obtain ⟨sound, _, ready⟩ := repair_stage_valid_user
    (Pmm.powerUp (chipsOf checkedDefault magiclessDefault)) (power_up_sound _) valid
  rintro ⟨_, held⟩
  have condition := ready.mp ((addr_stage_backup _ sound).mp held)
  rcases condition.1 valid with ⟨group, different⟩ | ⟨magic, _⟩
  · change storedCrc ((chipsOf checkedDefault magiclessDefault).area .user) group ≠
      storedCrc ((chipsOf checkedDefault magiclessDefault).area .backup) group at different
    rw [backup] at different
    exact different (sameWords group)
  · change magicOf ((chipsOf checkedDefault magiclessDefault).area .backup) = paramMagic at magic
    rw [backup] at magic
    exact noMagic magic

end Pyrometer.ParameterRepair
