import Pyrometer.ParameterRepair

/-!
# Power cuts while a group is saved

`pmm_save_group` first rewrites the whole user page and then updates one group
of the backup area. A power cut keeps a prefix of those elementary writes. The
flash part leaves the backup area alone, and the EEPROM part starts only when
the user page is complete, so at every cut one of the two areas holds all groups
in a valid form.

That a torn group fails its check is an assumption about checksums, stated for
the user area and for the writes of the save in question. Cuts inside one
elementary write are not modelled.
-/

namespace Pyrometer.PowerCutSaving

open ByteMemory NorFlash FlashController EepromStorage BitMasks ParameterLayout DefaultParameters
open ParameterManager ParameterChecks ParameterLoading ParameterSaving ParameterRepair

/-- The elementary writes that saving a group issues, in order. -/
def savedWrites (group : ParaType) (pmm : Pmm) : List Write :=
  (pmmSaveGroup group pmm).trace.drop pmm.trace.length

/-- Chip contents when power is lost after `cut` of those writes. -/
def cutChips (group : ParaType) (pmm : Pmm) (cut : Nat) : Chips :=
  pmm.chips.replay ((savedWrites group pmm).take cut)

/-- Both writable areas hold the valid parameters `old`, and the running
parameters differ from them in the one group only. -/
structure Before (group : ParaType) (old : Mem) (pmm : Pmm) : Prop where
  sound : pmm.Sound
  valid : FullyValid old
  user : Agree (pmm.chips.area .user) old 0 sizeofSysPara
  backup : Agree (pmm.chips.area .backup) old 0 sizeofSysPara
  others : ∀ other, other ≠ group → SameGroup pmm.sysPara old other

/-- At every cut, a group of the user area whose bytes are neither the old nor
the new ones fails its magic or checksum check. -/
def TornGroupsFail (group : ParaType) (old : Mem) (pmm : Pmm) : Prop :=
  ∀ cut tested,
    ¬SameGroup ((cutChips group pmm cut).area .user) old tested →
    ¬SameGroup ((cutChips group pmm cut).area .user) pmm.sysPara tested →
    ¬(magicOf ((cutChips group pmm cut).area .user) = paramMagic ∧
      groupValid ((cutChips group pmm cut).area .user) tested = true)

/-- The writes of a group save: the whole user page from one fully valid
structure with the running data, then page transfers to the backup area. -/
theorem saved_writes_split (group : ParaType) (pmm : Pmm) (sound : pmm.Sound) :
    ∃ (para : Mem) (pages : List PageWrite), FullyValid para ∧ SameData para pmm.sysPara ∧
      savedWrites group pmm =
        (writePlan (StorageType.address .user) sizeofSysPara para).map .flash ++
          pages.map .page := by
  set marked := { pmm with
    sysPara := setMagic (setCrc pmm.sysPara group (groupCrc pmm.sysPara group)) } with markedDef
  have markedSound : marked.Sound := sound
  obtain ⟨afterUser, userCall, user⟩ :=
    para_save_sound .user (bit 32 group.index) marked markedSound
  obtain ⟨after, backupCall, backup⟩ :=
    para_save_sound .backup (bit 32 group.index) afterUser user.sound
  have result : pmmSaveGroup group pmm = after := by
    have unfolded : pmmSaveGroup group pmm = (paraSaveToStorage .backup (bit 32 group.index)
        (paraSaveToStorage .user (bit 32 group.index) marked).2).2 := rfl
    rw [unfolded, userCall, backupCall]
  have pages : areaPlan .backup (bit 32 group.index) (paraRecalculateAllCrc afterUser.sysPara) =
      (groupPlan (paraRecalculateAllCrc afterUser.sysPara) (bit 32 group.index)
        ParaType.all).map .page := if_neg (bit_not_whole group)
  refine ⟨paraRecalculateAllCrc marked.sysPara, groupPlan
    (paraRecalculateAllCrc afterUser.sysPara) (bit 32 group.index) ParaType.all,
    recalculate_valid _, ?_, ?_⟩
  · exact agree_trans (recalculate_data marked.sysPara) (marked_data pmm.sysPara group _)
  · have trace : after.trace = pmm.trace ++
        (areaPlan .user (bit 32 group.index) (paraRecalculateAllCrc marked.sysPara) ++
          areaPlan .backup (bit 32 group.index) (paraRecalculateAllCrc afterUser.sysPara)) := by
      rw [backup.trace, ← List.append_assoc]
      exact congrArg (fun trace => trace ++ _) user.trace
    rw [savedWrites, result, trace, List.drop_left, pages]
    rfl

/-- A cut during the flash part has performed a prefix of the page write and left
the EEPROM alone; a later cut finds the user page complete. -/
theorem cut_chips_cases (group : ParaType) (pmm : Pmm) (sound : pmm.Sound) (cut : Nat) :
    ∃ para, FullyValid para ∧ SameData para pmm.sysPara ∧
      (cutChips group pmm cut = { pmm.chips with
          flash := NorFlash.replay pmm.chips.flash
            ((writePlan (StorageType.address .user) sizeofSysPara para).take cut) } ∨
        Agree ((cutChips group pmm cut).area .user) para 0 sizeofSysPara) := by
  obtain ⟨para, pages, valid, data, split⟩ := saved_writes_split group pmm sound
  have complete := area_plan_whole pmm.chips .user 0 para (Or.inl rfl)
  have plan : areaPlan .user 0 para =
      (writePlan (StorageType.address .user) sizeofSysPara para).map .flash := rfl
  rw [plan] at complete
  refine ⟨para, valid, data, ?_⟩
  generalize writePlan (StorageType.address .user) sizeofSysPara para = ops at split complete ⊢
  rw [cutChips, split]
  by_cases early : cut ≤ (ops.map Write.flash).length
  · refine Or.inl ?_
    rw [List.take_append_of_le_length early, ← List.map_take, replay_flash]
  · refine Or.inr ?_
    rw [List.take_append, List.take_of_length_le (by omega), ← List.map_take,
      chips_replay_append, replay_pages]
    exact complete

/-- At every cut the next start takes each group from the user or the backup
area, and what it takes is the old group or, for the saved one, the new group. -/
theorem cut_source (group : ParaType) (old : Mem) (pmm : Pmm) (before : Before group old pmm)
    (torn : TornGroupsFail group old pmm) (cut : Nat) (tested : ParaType) :
    (sourceArea delivered (cutChips group pmm cut) tested = some .user ∨
        sourceArea delivered (cutChips group pmm cut) tested = some .backup) ∧
      ∃ source, (source = old ∨ (tested = group ∧ source = pmm.sysPara)) ∧
        SameGroup (sourcePara delivered (cutChips group pmm cut) tested) source tested := by
  have oldOrNew : ∀ para : Mem, SameGroup para pmm.sysPara tested →
      ∃ source, (source = old ∨ (tested = group ∧ source = pmm.sysPara)) ∧
        SameGroup para source tested := by
    intro para same
    by_cases saved : tested = group
    · exact ⟨pmm.sysPara, Or.inr ⟨saved, rfl⟩, same⟩
    · exact ⟨old, Or.inl rfl, agree_trans same (before.others tested saved)⟩
  by_cases inUser : magicOf ((cutChips group pmm cut).area .user) = paramMagic ∧
      groupValid ((cutChips group pmm cut).area .user) tested = true
  · have source := source_user (cutChips group pmm cut) tested inUser.1 inUser.2
    have area : sourceArea delivered (cutChips group pmm cut) tested = some .user := by
      simp [sourceArea, List.find?, qualifies, delivered, inUser.1, inUser.2]
    refine ⟨Or.inl area, ?_⟩
    rw [source]
    by_cases asOld : SameGroup ((cutChips group pmm cut).area .user) old tested
    · exact ⟨old, Or.inl rfl, asOld⟩
    · by_cases asNew : SameGroup ((cutChips group pmm cut).area .user) pmm.sysPara tested
      · exact oldOrNew _ asNew
      · exact absurd inUser (torn cut tested asOld asNew)
  · obtain ⟨para, valid, _, flashOnly | complete⟩ := cut_chips_cases group pmm before.sound cut
    · have untouched : (cutChips group pmm cut).area .backup = pmm.chips.area .backup := by
        rw [flashOnly, backup_area, backup_area]
      have backup : Agree ((cutChips group pmm cut).area .backup) old 0 sizeofSysPara := by
        rw [untouched]
        exact before.backup
      have full := (fully_valid_congr backup).mpr before.valid
      have source := source_backup (cutChips group pmm cut) tested inUser full.1 (full.2 tested)
      have unqualified : qualifies .delivered ((cutChips group pmm cut).area .user) tested =
          false := by
        rw [Bool.eq_false_iff]
        intro qualified
        simp only [qualifies, Bool.and_eq_true, decide_eq_true_eq] at qualified
        exact inUser qualified.2
      have area : sourceArea delivered (cutChips group pmm cut) tested = some .backup := by
        simp only [sourceArea, List.find?, delivered, unqualified]
        simp [qualifies, full.1, full.2 tested]
      refine ⟨Or.inr area, old, Or.inl rfl, ?_⟩
      rw [source]
      exact fun address low high => agree_owned backup address (owns_data low high)
    · have full := (fully_valid_congr complete).mpr valid
      exact absurd ⟨full.1, full.2 tested⟩ inUser

/-- Power-cut safety of saving a group. Whatever prefix of the elementary writes
was performed, the next start takes no group from the factory area or from the
defaults; every group other than the saved one has its old bytes and the saved
one its old or its new bytes, except that a device address outside its limits is
replaced by the default one. -/
theorem save_group_survives_power_cut (group : ParaType) (old : Mem) (pmm : Pmm)
    (before : Before group old pmm) (torn : TornGroupsFail group old pmm) (cut : Nat)
    (next : Pmm) (contents : next.chips = cutChips group pmm cut) (tested : ParaType) :
    (sourceArea delivered next.chips tested = some .user ∨
        sourceArea delivered next.chips tested = some .backup) ∧
      ∃ source, (source = old ∨ (tested = group ∧ source = pmm.sysPara)) ∧
        ∀ address, tested.offset ≤ address → address < tested.offset + tested.size →
          (paraInit delivered next).sysPara address =
            if address = devAddr ∧ addrRejected source = true then sysDefPara devAddr
            else source address := by
  obtain ⟨area, source, origin, same⟩ := cut_source group old pmm before torn cut tested
  rw [contents]
  refine ⟨area, source, origin, ?_⟩
  intro address low high
  rw [para_init_data delivered next tested address low high, contents, same address low high]
  by_cases here : address = devAddr
  · subst here
    have device : tested = .dev :=
      owner_unique tested .dev devAddr (owns_data low high) owns_dev_addr
    subst device
    rw [addr_rejected_congr (same devAddr (by decide) (by decide))]
  · simp [here]

/-- A valid structure whose data bytes are all ones, except for the device address. -/
def plainPara (addr : Byte) : Mem :=
  paraRecalculateAllCrc (fun address => if address = devAddr then addr else erased)

/-- A device that holds one such structure in both areas and is about to save
another device address. -/
def plainSave (oldAddr newAddr : Byte) : Pmm :=
  { Pmm.powerUp (chipsOf (plainPara oldAddr) (plainPara oldAddr)) with
    sysPara := plainPara newAddr }

/-- The data bytes of such a structure. -/
theorem plain_para_data (addr : Byte) (address : Nat) (low : 4 ≤ address)
    (high : address < crcOffset) :
    plainPara addr address = if address = devAddr then addr else erased :=
  recalculate_data _ address low (by unfold crcOffset at *; omega)

/-- Such a device is in the state a group save starts from. -/
theorem plain_save_before (oldAddr newAddr : Byte) :
    Before .dev (plainPara oldAddr) (plainSave oldAddr newAddr) := by
  refine ⟨power_up_sound _, recalculate_valid _, chips_of_user _ _, ?_, ?_⟩
  · have cells : (plainSave oldAddr newAddr).chips.area .backup = plainPara oldAddr :=
      backup_area _
    rw [cells]
    exact agree_refl _ _ _
  · intro other different address low high
    have bounds := group_bounds other
    have foreign : address ≠ devAddr := by
      intro here
      subst here
      exact different (owner_unique other .dev devAddr (owns_data low high) owns_dev_addr)
    have new := plain_para_data newAddr address (by omega) (by omega)
    have old := plain_para_data oldAddr address (by omega) (by omega)
    rw [if_neg foreign] at new old
    exact new.trans old.symm

/-- An erased device group fails its check. -/
theorem erased_device_invalid : groupValid (fun _ => erased) .dev = false := by
  decide +kernel

/-- A partly programmed page, read through the user area: each group has the new
bytes, or it is the device group and still erased. -/
theorem plain_partial_group (newAddr : Byte) (area para : Mem) (done : Nat)
    (data : SameData para (plainPara newAddr))
    (progress : ∀ address, address < sizeofSysPara →
      area address = if address < done then para address else erased) (tested : ParaType) :
    SameGroup area (plainPara newAddr) tested ∨ groupValid area tested = false := by
  have size : crcOffset ≤ sizeofSysPara := by decide
  have plain : ∀ address, 4 ≤ address → address < crcOffset → address ≠ devAddr →
      area address = plainPara newAddr address := by
    intro address low high foreign
    rw [progress address (by omega), data address low (by unfold crcOffset at *; omega),
      plain_para_data newAddr address low high, if_neg foreign, ite_self]
  by_cases programmed : devAddr < done
  · refine Or.inl fun address low high => ?_
    have bounds := group_bounds tested
    by_cases here : address = devAddr
    · rw [progress address (by omega), if_pos (by omega)]
      exact data address (by omega) (by unfold crcOffset at *; omega)
    · exact plain address (by omega) (by omega) here
  · by_cases device : tested = .dev
    · subst device
      refine Or.inr ((group_valid_congr fun address owned => ?_).trans erased_device_invalid)
      have inside := owns_above owned
      have start : devAddr = 4 := rfl
      rw [progress address (by omega), if_neg (by omega)]
    · refine Or.inl fun address low high => ?_
      have bounds := group_bounds tested
      refine plain address (by omega) (by omega) fun here => ?_
      subst here
      exact device (owner_unique tested .dev devAddr (owns_data low high) owns_dev_addr)

/-- For such a device every torn group of the user area fails its check. -/
theorem plain_save_torn (oldAddr newAddr : Byte) :
    TornGroupsFail .dev (plainPara oldAddr) (plainSave oldAddr newAddr) := by
  have before := plain_save_before oldAddr newAddr
  intro cut tested notOld notNew checked
  obtain ⟨para, _, data, flashOnly | complete⟩ :=
    cut_chips_cases .dev (plainSave oldAddr newAddr) before.sound cut
  · cases cut with
    | zero =>
      exact notOld (fun address low high => agree_owned before.user address (owns_data low high))
    | succ progress =>
      obtain ⟨done, bytes⟩ := write_plan_interrupted (plainSave oldAddr newAddr).chips.flash
        (StorageType.address .user) sizeofSysPara para progress (by decide)
      have bytesHere : ∀ address, address < sizeofSysPara →
          (cutChips .dev (plainSave oldAddr newAddr) (progress + 1)).area .user address =
            if address < done then para address else erased := by
        intro address inside
        rw [flashOnly]
        exact bytes address inside
      rcases plain_partial_group newAddr _ para done data bytesHere tested with same | invalid
      · exact notNew same
      · rw [invalid] at checked
        exact absurd checked.2 (by decide)
  · exact notNew (agree_trans (fun address low high =>
      agree_owned complete address (owns_data low high)) (same_data_group data tested))

/-- An address within its limits is kept by the final check. -/
theorem plain_para_accepted (addr : Byte) (inside : addr.toNat ≤ devMaxAddr) :
    addrRejected (plainPara addr) = false := by
  have stored : plainPara addr devAddr = addr :=
    plain_para_data addr devAddr (by decide) (by decide)
  rw [addrRejected, stored, decide_eq_false_iff_not]
  unfold devMinAddr
  omega

/-- Saving device address 1 over device address 0: after a cut behind the first
three writes the next start finds one of the two device groups. -/
theorem plain_save_survives :
    ∃ source, (source = plainPara 0 ∨ source = plainPara 1) ∧
      SameGroup (paraInit delivered (Pmm.powerUp (cutChips .dev (plainSave 0 1) 3))).sysPara
        source .dev := by
  obtain ⟨_, source, origin, bytes⟩ := save_group_survives_power_cut .dev (plainPara 0)
    (plainSave 0 1) (plain_save_before 0 1) (plain_save_torn 0 1) 3
    (Pmm.powerUp (cutChips .dev (plainSave 0 1) 3)) (power_up_chips _) .dev
  have accepted : addrRejected source = false := by
    rcases origin with rfl | ⟨_, rfl⟩
    · exact plain_para_accepted 0 (by decide)
    · exact plain_para_accepted 1 (by decide)
  refine ⟨source, ?_, fun address low high => ?_⟩
  · rcases origin with old | ⟨_, new⟩
    · exact Or.inl old
    · exact Or.inr new
  · rw [bytes address low high, accepted]
    simp

/-- With the stored device address 33, out of its limits, a cut before the first
write makes the next start load neither the old nor the new device group. -/
theorem rejected_address_replaced_after_cut :
    Before .dev (plainPara 33) (plainSave 33 1) ∧
      TornGroupsFail .dev (plainPara 33) (plainSave 33 1) ∧
      ¬(SameGroup (paraInit delivered (Pmm.powerUp (cutChips .dev (plainSave 33 1) 0))).sysPara
            (plainPara 33) .dev ∨
          SameGroup (paraInit delivered (Pmm.powerUp (cutChips .dev (plainSave 33 1) 0))).sysPara
            (plainSave 33 1).sysPara .dev) := by
  have before := plain_save_before 33 1
  have full := (fully_valid_congr before.user).mpr before.valid
  have oldAddr : (plainSave 33 1).chips.area .user devAddr = 33 :=
    (agree_owned before.user devAddr owns_dev_addr).trans
      (plain_para_data 33 devAddr (by decide) (by decide))
  have source := source_user (plainSave 33 1).chips .dev full.1 (full.2 .dev)
  have loaded : (paraInit delivered
      (Pmm.powerUp (cutChips .dev (plainSave 33 1) 0))).sysPara devAddr = 0 := by
    rw [para_init_data delivered _ .dev devAddr (by decide) (by decide)]
    change (if devAddr = devAddr ∧
      addrRejected (sourcePara delivered (plainSave 33 1).chips .dev) = true then _ else _) = _
    have rejected : addrRejected (sourcePara delivered (plainSave 33 1).chips .dev) = true := by
      rw [source, addrRejected, oldAddr]
      decide
    rw [if_pos ⟨rfl, rejected⟩, default_addr]
  refine ⟨before, plain_save_torn 33 1, ?_⟩
  rintro (old | new)
  · have same := old devAddr (by decide) (by decide)
    rw [loaded, plain_para_data 33 devAddr (by decide) (by decide)] at same
    exact absurd same (by decide)
  · have same := new devAddr (by decide) (by decide)
    rw [loaded] at same
    exact absurd (same.trans (plain_para_data 1 devAddr (by decide) (by decide))) (by decide)

end Pyrometer.PowerCutSaving
