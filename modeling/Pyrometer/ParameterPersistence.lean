import Pyrometer.ParameterRepair
import Pyrometer.Runs

/-!
# Persistence of the parameters over runs

A run is any sequence of edits of the running parameters and of the five
operations of the parameter manager, on chips that refuse nothing. Beside the
device the run carries, for each group, whether it was written to both writable
areas since its last edit: by saving that group, by restoring the defaults, by a
restore from the factory area that completed, or by saving everything to the
backup area. Saving to the factory area touches neither writable area. A restore
from an incomplete factory area writes no area either, and counts as an edit of the
groups whose bytes in RAM it changes.
-/

namespace Pyrometer.ParameterPersistence

open ByteMemory EepromStorage BitMasks ParameterLayout DefaultParameters ParameterManager
open ParameterChecks ParameterLoading ParameterSaving ParameterRepair Runs

/-- An edit of one group by the application, or an operation of the manager. -/
inductive Event where
  | edit (group : ParaType) (bytes : Mem)
  | saveGroup (group : ParaType)
  | restoreToDefault
  | restoreToFactory
  | saveToFactory
  | saveToBackup

/-- The device and the groups that are backed up since their last edit. -/
structure Session where
  pmm : Pmm
  backedUp : ParaType → Bool

/-- The factory area passes every check, so a restore from it completes. -/
def factoryComplete (pmm : Pmm) : Bool :=
  decide (pmmValidatePara (pmm.chips.area .factory) = correntMask)

instance (left right : Mem) (group : ParaType) : Decidable (SameGroup left right group) :=
  decidable_of_iff (∀ place < group.size,
      left (group.offset + place) = right (group.offset + place)) (by
    constructor
    · intro same address low high
      have here := same (address - group.offset) (by omega)
      rwa [Nat.add_sub_cancel' low] at here
    · intro same place inside
      exact same (group.offset + place) (by omega) (by omega))

/-- One event. The flash read of the factory area always delivers. -/
def step (session : Session) : Event → Session
  | .edit group bytes =>
      { pmm := { session.pmm with
          sysPara := overlay session.pmm.sysPara bytes group.offset group.size }
        backedUp := fun tested => if tested = group then false else session.backedUp tested }
  | .saveGroup group =>
      { pmm := pmmSaveGroup group session.pmm
        backedUp := fun tested => if tested = group then true else session.backedUp tested }
  | .restoreToDefault => { pmm := pmmRestoreToDefault session.pmm, backedUp := fun _ => true }
  | .restoreToFactory =>
      let restored := pmmRestoreToFactory .delivered session.pmm
      { pmm := restored
        backedUp := fun group =>
          factoryComplete session.pmm ||
            (session.backedUp group &&
              decide (SameGroup restored.sysPara session.pmm.sysPara group)) }
  | .saveToFactory => { session with pmm := pmmSaveToFactory session.pmm }
  | .saveToBackup => { pmm := pmmSaveToBackup session.pmm, backedUp := fun _ => true }

/-- The event writes the user area. -/
def writesUser (pmm : Pmm) : Event → Bool
  | .edit _ _ => false
  | .saveGroup _ => true
  | .restoreToDefault => true
  | .restoreToFactory => factoryComplete pmm
  | .saveToFactory => false
  | .saveToBackup => false

/-- The user area holds the running parameters, and these pass every check. -/
def UserCurrent (pmm : Pmm) : Prop :=
  FullyValid pmm.sysPara ∧ Agree (pmm.chips.area .user) pmm.sysPara 0 sizeofSysPara

/-- Between events: the chips work, the backup area has its magic word, and it
holds every group that is backed up. -/
structure Persistent (session : Session) : Prop where
  sound : session.pmm.Sound
  magic : magicOf (session.pmm.chips.area .backup) = paramMagic
  held : ∀ group, session.backedUp group = true →
    Holds (session.pmm.chips.area .backup) session.pmm.sysPara group

/-- The effect of saving everything to the user and then to the backup area. -/
structure BothSaved (before after : Pmm) : Prop where
  sound : after.Sound
  user : UserCurrent after
  backup : Converged (after.chips.area .backup) after.sysPara
  data : SameData after.sysPara before.sysPara

/-- The pair of whole saves that ends both restore operations. -/
theorem both_saved (pmm : Pmm) (sound : pmm.Sound) :
    BothSaved pmm (paraSaveToStorage .backup wholeMask
      (paraSaveToStorage .user wholeMask pmm).2).2 := by
  have user := whole_save .user wholeMask pmm sound (whole_mask_whole .user)
  have userData := para_save_data .user wholeMask pmm
  set afterUser := (paraSaveToStorage .user wholeMask pmm).2 with afterUserDef
  have backup := whole_save .backup wholeMask afterUser user.sound (whole_mask_whole .backup)
  have backupData := para_save_data .backup wholeMask afterUser
  set after := (paraSaveToStorage .backup wholeMask afterUser).2 with afterDef
  have validUser : FullyValid afterUser.sysPara := by
    rw [user.sysPara]
    exact recalculate_valid _
  have valid : FullyValid after.sysPara := by
    rw [backup.sysPara]
    exact recalculate_valid _
  have same : Agree after.sysPara afterUser.sysPara 0 sizeofSysPara := by
    rw [backup.sysPara]
    exact recalculate_fixed validUser
  refine ⟨backup.sound, ⟨valid, ?_⟩, converged_of_agree valid backup.written,
    agree_trans backupData userData⟩
  exact agree_trans (backup.frame .user (by decide)) (agree_trans user.written (agree_symm same))

/-- A restore from a complete factory area ends with the two whole saves; from an
incomplete one it changes RAM only. -/
theorem restore_to_factory_cases (pmm : Pmm) (sound : pmm.Sound) :
    (factoryComplete pmm = true →
        UserCurrent (pmmRestoreToFactory .delivered pmm) ∧
          Converged ((pmmRestoreToFactory .delivered pmm).chips.area .backup)
            (pmmRestoreToFactory .delivered pmm).sysPara) ∧
      (factoryComplete pmm = false →
        (pmmRestoreToFactory .delivered pmm).chips = pmm.chips) ∧
      (pmmRestoreToFactory .delivered pmm).Sound := by
  have effect := try_restore_effect .delivered .factory groupMask pmm
  have state : (tryRestoreFromStorage .delivered .factory groupMask pmm).paraState =
      pmmValidatePara (pmm.chips.area .factory) := effect.state
  have restoredSound : (tryRestoreFromStorage .delivered .factory groupMask pmm).pmm.Sound := by
    rw [Pmm.Sound, effect.fmc, effect.eeprom]
    exact sound
  by_cases complete : pmmValidatePara (pmm.chips.area .factory) = correntMask
  · have saved := both_saved _ restoredSound
    have result : pmmRestoreToFactory .delivered pmm = (paraSaveToStorage .backup wholeMask
        (paraSaveToStorage .user wholeMask
          (tryRestoreFromStorage .delivered .factory groupMask pmm).pmm).2).2 := by
      rw [pmmRestoreToFactory, state, if_neg (not_not_intro complete)]
    rw [← result] at saved
    refine ⟨fun _ => ⟨saved.user, saved.backup⟩, fun incomplete => ?_, saved.sound⟩
    rw [factoryComplete, decide_eq_false_iff_not] at incomplete
    exact absurd complete incomplete
  · have result : pmmRestoreToFactory .delivered pmm =
        (tryRestoreFromStorage .delivered .factory groupMask pmm).pmm := by
      rw [pmmRestoreToFactory, state, if_pos complete]
    rw [result]
    refine ⟨fun claimed => ?_, fun _ => ?_, restoredSound⟩
    · rw [factoryComplete, decide_eq_true_eq] at claimed
      exact absurd claimed complete
    · simp only [Pmm.chips, effect.fmc, effect.eeprom]

/-- A converged backup area holds every group. -/
theorem converged_holds {area para : Mem} (held : Converged area para) :
    magicOf area = paramMagic ∧ ∀ group, Holds area para group :=
  (converged_iff area para).mp held

/-- Every event keeps the backup area right for the groups that are backed up. -/
theorem step_persistent (session : Session) (event : Event) (before : Persistent session) :
    Persistent (step session event) := by
  cases event with
  | edit group bytes =>
    refine ⟨before.sound, before.magic, fun tested backed => ?_⟩
    by_cases edited : tested = group
    · simp [step, edited] at backed
    · have kept := before.held tested (by simpa [step, edited] using backed)
      have same : SameGroup (overlay session.pmm.sysPara bytes group.offset group.size)
          session.pmm.sysPara tested :=
        overlay_frame _ _ _ _ _ _ (groups_disjoint tested group edited)
      exact (holds_data same).mpr kept
  | saveGroup group =>
    have saved := group_save group session.pmm before.sound
    refine ⟨saved.sound, ?_, fun tested backed => ?_⟩
    · exact (load32_congr (fun address _ high => saved.magic address (by omega))).trans
        before.magic
    · by_cases here : tested = group
      · subst here
        have same : ∀ address, Owns tested address →
            (pmmSaveGroup tested session.pmm).chips.area .backup address =
              (pmmSaveGroup tested session.pmm).sysPara address := by
          intro address owned
          rw [saved.backup tested address owned, if_pos rfl]
        exact ⟨(group_valid_congr same).trans (saved.valid.2 tested),
          fun address low high => same address (owns_data low high)⟩
      · have kept := before.held tested (by simpa [step, here] using backed)
        have same : ∀ address, Owns tested address →
            (pmmSaveGroup group session.pmm).chips.area .backup address =
              session.pmm.chips.area .backup address := by
          intro address owned
          rw [saved.backup tested address owned, if_neg here]
        exact (holds_congr same).mpr ((holds_data (same_data_group saved.data tested)).mpr kept)
  | restoreToDefault =>
    have saved := both_saved
      { session.pmm with sysPara := paraRecalculateAllCrc sysDefPara } before.sound
    obtain ⟨magic, held⟩ := converged_holds saved.backup
    exact ⟨saved.sound, magic, fun group _ => held group⟩
  | restoreToFactory =>
    obtain ⟨complete, incomplete, sound⟩ := restore_to_factory_cases session.pmm before.sound
    cases checked : factoryComplete session.pmm with
    | true =>
      obtain ⟨magic, held⟩ := converged_holds (complete checked).2
      exact ⟨sound, magic, fun group _ => held group⟩
    | false =>
      refine ⟨sound, ?_, fun group backed => ?_⟩
      · change magicOf ((pmmRestoreToFactory .delivered session.pmm).chips.area .backup) = _
        rw [incomplete checked]
        exact before.magic
      · simp only [step, checked, Bool.false_or, Bool.and_eq_true, decide_eq_true_eq] at backed
        have kept := (holds_data backed.2).mpr (before.held group backed.1)
        change Holds ((pmmRestoreToFactory .delivered session.pmm).chips.area .backup) _ group
        rw [incomplete checked]
        exact kept
  | saveToFactory =>
    have saved := whole_save .factory wholeMask session.pmm before.sound
      (whole_mask_whole .factory)
    have data := para_save_data .factory wholeMask session.pmm
    have same := saved.frame .backup (by decide)
    refine ⟨saved.sound, ?_, fun group backed => ?_⟩
    · exact (load32_congr (agree_mono same (by omega) (by decide))).trans before.magic
    · exact (holds_congr (agree_owned same)).mpr
        ((holds_data (same_data_group data group)).mpr (before.held group backed))
  | saveToBackup =>
    have saved := whole_save .backup wholeMask session.pmm before.sound (whole_mask_whole .backup)
    have valid : FullyValid (pmmSaveToBackup session.pmm).sysPara := by
      rw [pmmSaveToBackup, saved.sysPara]
      exact recalculate_valid _
    obtain ⟨magic, held⟩ := converged_holds (converged_of_agree valid saved.written)
    exact ⟨saved.sound, magic, fun group _ => held group⟩

/-- After an event that writes the user area, that area holds the running
parameters. -/
theorem step_user_current (session : Session) (event : Event) (sound : session.pmm.Sound)
    (writes : writesUser session.pmm event = true) : UserCurrent (step session event).pmm := by
  cases event with
  | edit group bytes => cases writes
  | saveGroup group =>
    have saved := group_save group session.pmm sound
    exact ⟨saved.valid, saved.user⟩
  | restoreToDefault =>
    exact (both_saved { session.pmm with sysPara := paraRecalculateAllCrc sysDefPara } sound).user
  | restoreToFactory => exact ((restore_to_factory_cases session.pmm sound).1 writes).1
  | saveToFactory => cases writes
  | saveToBackup => cases writes

/-- Saving a group writes the user area. -/
theorem save_group_writes (pmm : Pmm) (group : ParaType) :
    writesUser pmm (.saveGroup group) = true := rfl

/-- A start restores a group: it has the given bytes, except that a device address
outside its limits is replaced by the default one. -/
def Restores (next : Pmm) (para : Mem) (group : ParaType) : Prop :=
  ∀ address, group.offset ≤ address → address < group.offset + group.size →
    (paraInit delivered next).sysPara address =
      if address = devAddr ∧ addrRejected para = true then sysDefPara devAddr else para address

/-- A start restores every group whose source has the given bytes. -/
theorem restores_of_source {next : Pmm} {para : Mem} {group : ParaType}
    (same : SameGroup (sourcePara delivered next.chips group) para group) :
    Restores next para group := by
  intro address low high
  rw [para_init_data delivered next group address low high, same address low high]
  by_cases here : address = devAddr
  · subst here
    have device : group = .dev := owner_unique group .dev devAddr (owns_data low high) owns_dev_addr
    subst device
    rw [addr_rejected_congr (same devAddr (by decide) (by decide))]
  · simp [here]

/-- With a current user area every group is restored. -/
theorem reboot_restores {pmm next : Pmm} (current : UserCurrent pmm)
    (contents : next.chips = pmm.chips) (group : ParaType) : Restores next pmm.sysPara group := by
  have full := (fully_valid_congr current.2).mpr current.1
  apply restores_of_source
  rw [contents, source_user pmm.chips group full.1 (full.2 group)]
  exact fun address low high => agree_owned current.2 address (owns_data low high)

/-- With a current user area and an address within its limits the whole structure,
magic and checksum words included, is restored. -/
theorem reboot_restores_all {pmm next : Pmm} (current : UserCurrent pmm)
    (contents : next.chips = pmm.chips) (accepted : addrRejected pmm.sysPara = false) :
    Agree (paraInit delivered next).sysPara pmm.sysPara 0 sizeofSysPara := by
  have full := (fully_valid_congr current.2).mpr current.1
  have effect := load_areas_effect delivered next
  have loaded : Agree (loadAreas delivered next).sysPara pmm.sysPara 0 sizeofSysPara := by
    intro address _ high
    by_cases inMagic : address < 4
    · rw [effect.magic rfl (by rw [contents]; exact full.1) address inMagic,
        magic_bytes current.1.1 address inMagic]
    · obtain ⟨group, owned⟩ := owner_exists address (by omega) (by omega)
      rw [effect.bytes group address owned, contents,
        source_user pmm.chips group full.1 (full.2 group)]
      exact agree_owned current.2 address owned
  have status : (loadAreas delivered next).paraErrStatus .user = correntMask := by
    rw [effect.status, contents]
    exact (recorded_corrent_iff _).mpr full
  have repaired : Agree (repairStage (loadAreas delivered next)).sysPara pmm.sysPara 0
      sizeofSysPara := by
    rw [repairStage, if_pos status]
    split
    · rw [pmmSaveToBackup, (para_save_ram .backup wholeMask _).sysPara]
      exact agree_trans (recalculate_fixed ((fully_valid_congr loaded).mpr current.1)) loaded
    · exact loaded
  have kept : addrRejected (repairStage (loadAreas delivered next)).sysPara = false :=
    (addr_rejected_congr (agree_owned repaired devAddr owns_dev_addr)).trans accepted
  rw [paraInit, addrStage, kept]
  exact repaired

/-- When the user area no longer supplies a group, a backed up one is restored
from the backup area. -/
theorem reboot_restores_lost {session : Session} (persistent : Persistent session) {next : Pmm}
    (cells : next.chips.cells = session.pmm.chips.cells) (group : ParaType)
    (backed : session.backedUp group = true)
    (lost : ¬(magicOf (next.chips.area .user) = paramMagic ∧
      groupValid (next.chips.area .user) group = true)) :
    Restores next session.pmm.sysPara group := by
  have backup : next.chips.area .backup = session.pmm.chips.area .backup := by
    rw [backup_area, backup_area, cells]
  obtain ⟨valid, same⟩ := persistent.held group backed
  apply restores_of_source
  rw [source_backup next.chips group lost (by rw [backup]; exact persistent.magic)
    (by rw [backup]; exact valid), backup]
  exact same

/-- Persistence over runs. From a device whose two writable areas are valid and
hold the running parameters, after any sequence of edits and operations: a start
right after an operation that wrote the user area restores the running
parameters, and a start after the user area was lost restores every group that
was backed up since its last edit. The only exception in both cases is a device
address outside its limits, which is replaced by the default one. -/
theorem parameters_persist (start : Pmm) (sound : start.Sound) (agreed : BothConverged start)
    (events : List Event) :
    (∀ earlier event, events = earlier ++ [event] →
      writesUser (run step ⟨start, fun _ => true⟩ earlier).pmm event = true →
      ∀ next : Pmm, next.chips = (run step ⟨start, fun _ => true⟩ events).pmm.chips →
        (∀ group, Restores next (run step ⟨start, fun _ => true⟩ events).pmm.sysPara group) ∧
          (addrRejected (run step ⟨start, fun _ => true⟩ events).pmm.sysPara = false →
            Agree (paraInit delivered next).sysPara
              (run step ⟨start, fun _ => true⟩ events).pmm.sysPara 0 sizeofSysPara)) ∧
    ∀ group, (run step ⟨start, fun _ => true⟩ events).backedUp group = true →
      ∀ next : Pmm,
        next.chips.cells = (run step ⟨start, fun _ => true⟩ events).pmm.chips.cells →
        ¬(magicOf (next.chips.area .user) = paramMagic ∧
          groupValid (next.chips.area .user) group = true) →
        Restores next (run step ⟨start, fun _ => true⟩ events).pmm.sysPara group := by
  have initial : Persistent ⟨start, fun _ => true⟩ := by
    obtain ⟨magic, held⟩ := converged_holds agreed.2
    exact ⟨sound, magic, fun group _ => held group⟩
  refine ⟨?_, ?_⟩
  · rintro earlier event rfl writes next contents
    have before := run_invariant step step_persistent ⟨start, fun _ => true⟩ initial earlier
    rw [run_snoc] at contents ⊢
    have current := step_user_current _ event before.sound writes
    exact ⟨reboot_restores current contents, reboot_restores_all current contents⟩
  · intro group backed next cells lost
    have reached := run_invariant step step_persistent ⟨start, fun _ => true⟩ initial events
    exact reboot_restores_lost reached cells group backed lost

/-- An edit followed by saving the edited group puts the edited bytes into the
user area. -/
theorem edit_saved (session : Session) (sound : session.pmm.Sound) (group : ParaType)
    (bytes : Mem) :
    UserCurrent (run step session [.edit group bytes, .saveGroup group]).pmm ∧
      SameGroup (run step session [.edit group bytes, .saveGroup group]).pmm.sysPara
        (overlay session.pmm.sysPara bytes group.offset group.size) group := by
  have edited : (step session (.edit group bytes)).pmm.Sound := sound
  have reached : run step session [.edit group bytes, .saveGroup group] =
      step (step session (.edit group bytes)) (.saveGroup group) := rfl
  rw [reached]
  refine ⟨step_user_current _ (.saveGroup group) edited rfl, ?_⟩
  exact same_data_group (pmm_save_group_data group (step session (.edit group bytes)).pmm) group

/-- A saved edit is backed up. -/
theorem edit_saved_backs (session : Session) (group : ParaType) (bytes : Mem) :
    (run step session [.edit group bytes, .saveGroup group]).backedUp group = true :=
  if_pos rfl

/-- A device that runs with the default parameters and holds them in both areas. -/
def defaultDevice : Pmm :=
  { Pmm.powerUp (chipsOf checkedDefault checkedDefault) with sysPara := checkedDefault }

/-- Such a device has converged. -/
theorem default_device_converged : BothConverged defaultDevice := by
  have valid : FullyValid checkedDefault := recalculate_valid sysDefPara
  have cells : defaultDevice.chips.area .backup = checkedDefault := backup_area _
  refine ⟨converged_of_agree valid (chips_of_user checkedDefault checkedDefault), ?_⟩
  rw [cells]
  exact converged_of_agree valid (agree_refl _ _ _)

/-- An erased flash has no valid user area. -/
theorem erased_user_lost (cells : Mem) (group : ParaType) :
    ¬(magicOf (Chips.area ⟨fun _ => NorFlash.erased, cells⟩ .user) = paramMagic ∧
      groupValid (Chips.area ⟨fun _ => NorFlash.erased, cells⟩ .user) group = true) := by
  rintro ⟨magic, _⟩
  have first : Chips.area ⟨fun _ => NorFlash.erased, cells⟩ .user 0 = NorFlash.erased := rfl
  have expected := magic_bytes magic 0 (by decide)
  rw [first] at expected
  exact absurd expected (by decide)

/-- After one saved edit of the record group a start restores that group, and so
does a start from an erased flash. -/
theorem saved_record_persists :
    Restores (Pmm.powerUp (run step ⟨defaultDevice, fun _ => true⟩
          [.edit .record (fun _ => 7), .saveGroup .record]).pmm.chips)
        (run step ⟨defaultDevice, fun _ => true⟩
          [.edit .record (fun _ => 7), .saveGroup .record]).pmm.sysPara .record ∧
      Restores (Pmm.powerUp ⟨fun _ => NorFlash.erased, (run step ⟨defaultDevice, fun _ => true⟩
          [.edit .record (fun _ => 7), .saveGroup .record]).pmm.chips.cells⟩)
        (run step ⟨defaultDevice, fun _ => true⟩
          [.edit .record (fun _ => 7), .saveGroup .record]).pmm.sysPara .record := by
  obtain ⟨kept, recovered⟩ := parameters_persist defaultDevice (power_up_sound _)
    default_device_converged [.edit .record (fun _ => 7), .saveGroup .record]
  have backed := edit_saved_backs ⟨defaultDevice, fun _ => true⟩ .record (fun _ => 7)
  have first := kept [.edit .record (fun _ => 7)] (.saveGroup .record) rfl
    (save_group_writes _ .record)
  generalize run step ⟨defaultDevice, fun _ => true⟩
    [.edit .record (fun _ => 7), .saveGroup .record] = reached at *
  exact ⟨(first _ (power_up_chips _)).1 .record,
    recovered .record backed _ rfl (erased_user_lost _ .record)⟩

/-- A rejected device address that is saved is not the one after a start. -/
theorem rejected_address_replaced :
    (paraInit delivered (Pmm.powerUp (run step ⟨defaultDevice, fun _ => true⟩
          [.edit .dev (fun _ => 33), .saveGroup .dev]).pmm.chips)).sysPara devAddr ≠
        (run step ⟨defaultDevice, fun _ => true⟩
          [.edit .dev (fun _ => 33), .saveGroup .dev]).pmm.sysPara devAddr := by
  obtain ⟨current, stored⟩ := edit_saved ⟨defaultDevice, fun _ => true⟩ (power_up_sound _) .dev
    (fun _ => 33)
  have edited := (stored devAddr (by decide) (by decide)).trans
    (overlay_inside defaultDevice.sysPara (fun _ => 33) (ParaType.offset .dev)
      (ParaType.size .dev) devAddr (by decide) (by decide))
  generalize run step ⟨defaultDevice, fun _ => true⟩
    [.edit .dev (fun _ => 33), .saveGroup .dev] = reached at *
  have rejected : addrRejected reached.pmm.sysPara = true := by
    rw [addrRejected, edited]
    decide
  rw [reboot_restores current (power_up_chips _) .dev devAddr (by decide) (by decide),
    if_pos ⟨rfl, rejected⟩, default_addr, edited]
  decide

/-- The first byte of the record interval. -/
def recordStart : Nat := ParaType.offset .record

/-- The default record interval does not start with 7. -/
theorem default_record : checkedDefault recordStart ≠ 7 := by
  have data : checkedDefault recordStart = sysDefPara recordStart :=
    recalculate_data sysDefPara recordStart (by decide) (by decide)
  have placed := group_default_place .record 0 (Nat.le_refl _) (by decide)
  have first : sysDefPara recordStart = ofList (groupDefault .record) 0 := placed
  rw [data, first]
  decide

/-- With the defaults in the backup area a start from an erased flash has the default record
interval. -/
theorem erased_start_record {cells : Mem} (backup : Agree cells checkedDefault 0 sizeofSysPara) :
    (paraInit delivered (Pmm.powerUp ⟨fun _ => NorFlash.erased, cells⟩)).sysPara recordStart =
      checkedDefault recordStart := by
  have valid : FullyValid cells := (fully_valid_congr backup).mpr (recalculate_valid sysDefPara)
  have area : Chips.area ⟨fun _ => NorFlash.erased, cells⟩ .backup = cells := backup_area _
  have source : sourcePara delivered ⟨fun _ => NorFlash.erased, cells⟩ .record = cells := by
    rw [source_backup _ .record (erased_user_lost cells .record) (by rw [area]; exact valid.1)
      (by rw [area]; exact valid.2 .record), area]
  have restored : Restores (Pmm.powerUp ⟨fun _ => NorFlash.erased, cells⟩) cells .record := by
    apply restores_of_source
    rw [power_up_chips, source]
    exact agree_refl _ _ _
  rw [restored recordStart (Nat.le_refl _) (by decide),
    if_neg fun here => absurd here.1 (by decide)]
  exact backup recordStart (Nat.zero_le _) (by decide)

/-- A record interval of sevens starts with 7. -/
theorem edited_record (para : Mem) :
    overlay para (fun _ => 7) (ParaType.offset .record) (ParaType.size .record) recordStart = 7 :=
  overlay_inside _ _ _ _ _ (Nat.le_refl _) (by decide)

/-- An edit that is saved to the factory area only leaves the cells of the backup area. -/
theorem factory_saved (session : Session) (sound : session.pmm.Sound) :
    let after := (run step session [.edit .record (fun _ => 7), .saveToFactory]).pmm
    after.sysPara recordStart = 7 ∧
      Agree after.chips.cells session.pmm.chips.cells 0 sizeofSysPara := by
  have edited : (step session (.edit .record (fun _ => 7))).pmm.Sound := sound
  have saved := whole_save .factory wholeMask _ edited (whole_mask_whole .factory)
  have data := para_save_data .factory wholeMask
    (step session (.edit .record (fun _ => 7))).pmm recordStart (by decide) (by decide)
  have backup := saved.frame .backup (by decide)
  rw [backup_area, backup_area] at backup
  exact ⟨data.trans (edited_record session.pmm.sysPara), backup⟩

/-- An edited record interval that was only saved to the factory area is lost with the flash. -/
theorem factory_saved_lost :
    (paraInit delivered (Pmm.powerUp ⟨fun _ => NorFlash.erased, (run step
          ⟨defaultDevice, fun _ => true⟩
          [.edit .record (fun _ => 7), .saveToFactory]).pmm.chips.cells⟩)).sysPara recordStart ≠
        (run step ⟨defaultDevice, fun _ => true⟩
          [.edit .record (fun _ => 7), .saveToFactory]).pmm.sysPara recordStart := by
  obtain ⟨edited, backup⟩ := factory_saved ⟨defaultDevice, fun _ => true⟩ (power_up_sound _)
  have cells : defaultDevice.chips.cells = checkedDefault := rfl
  simp only [cells] at backup
  rw [edited, erased_start_record backup]
  exact default_record

/-- A factory area with another record interval and a wrong checksum word of the device group. -/
def spoiledFactory : Mem :=
  let edited := paraRecalculateAllCrc
    (overlay sysDefPara (fun _ => 7) (ParaType.offset .record) (ParaType.size .record))
  setCrc edited .dev (storedCrc edited .dev + 1)

/-- Such a factory area supplies the record interval, but is not complete. -/
theorem spoiled_factory_partial :
    magicOf spoiledFactory = paramMagic ∧ groupValid spoiledFactory .record = true ∧
      spoiledFactory recordStart = 7 ∧ groupValid spoiledFactory .dev = false := by
  have valid := recalculate_valid
    (overlay sysDefPara (fun _ => 7) (ParaType.offset .record) (ParaType.size .record))
  have data := recalculate_data
    (overlay sysDefPara (fun _ => 7) (ParaType.offset .record) (ParaType.size .record)) recordStart
    (by decide) (by decide)
  rw [edited_record] at data
  unfold spoiledFactory
  generalize paraRecalculateAllCrc
    (overlay sysDefPara (fun _ => 7) (ParaType.offset .record) (ParaType.size .record)) =
      edited at valid data ⊢
  have outside (address : Nat) (away : address < crcWord .dev ∨ crcWord .dev + 2 ≤ address) :
      setCrc edited .dev (storedCrc edited .dev + 1) address = edited address :=
    set_crc_outside edited .dev _ address away
  refine ⟨?_, ?_, ?_, ?_⟩
  · refine (load32_congr fun address _ high => outside address (.inl ?_)).trans valid.1
    exact Nat.lt_of_lt_of_le high (by decide)
  · refine (group_valid_congr fun address owned => outside address ?_).trans (valid.2 .record)
    by_contra inside
    have other := owner_unique .record .dev address owned (owns_word (by omega) (by omega))
    cases other
  · exact (outside recordStart (.inl (by decide))).trans data
  · have same : groupCrc (setCrc edited .dev (storedCrc edited .dev + 1)) .dev =
        groupCrc edited .dev := by
      refine group_crc_congr fun address _ high => outside address (.inl ?_)
      exact Nat.lt_of_lt_of_le high (by decide)
    have stored : groupCrc edited .dev = storedCrc edited .dev := eq_of_beq (valid.2 .dev)
    rw [groupValid, same, stored_set_crc, stored]
    generalize storedCrc edited .dev = word
    simp

/-- The default device with such a factory area. -/
def spoiledDevice : Pmm :=
  { Pmm.powerUp ⟨fun address =>
      if address < StorageType.address .factory then
        (chipsOf checkedDefault checkedDefault).flash address
      else spoiledFactory (address - StorageType.address .factory), checkedDefault⟩ with
    sysPara := checkedDefault }

/-- Its factory area. -/
theorem spoiled_device_factory : spoiledDevice.chips.area .factory = spoiledFactory := by
  funext address
  change (if StorageType.address .factory + address < StorageType.address .factory then _
    else spoiledFactory (StorageType.address .factory + address - StorageType.address .factory)) = _
  rw [if_neg (by omega), Nat.add_sub_cancel_left]

/-- It has converged. -/
theorem spoiled_device_converged : BothConverged spoiledDevice := by
  have valid : FullyValid checkedDefault := recalculate_valid sysDefPara
  have cells : spoiledDevice.chips.area .backup = checkedDefault := backup_area _
  refine ⟨converged_of_agree valid ?_, ?_⟩
  · intro address low high
    have below : StorageType.address .user + address < StorageType.address .factory :=
      Nat.lt_of_lt_of_le (Nat.add_lt_add_left high _) (by decide)
    exact (if_pos below).trans (chips_of_user checkedDefault checkedDefault address low high)
  · rw [cells]
    exact converged_of_agree valid (agree_refl _ _ _)

/-- A restore from a factory area that is not complete takes a group that it supplies, and leaves
the cells of the backup area. -/
theorem failed_restore (session : Session) (group : ParaType)
    (magic : magicOf (session.pmm.chips.area .factory) = paramMagic)
    (valid : groupValid (session.pmm.chips.area .factory) group = true)
    (incomplete : ¬FullyValid (session.pmm.chips.area .factory)) :
    let after := (run step session [.restoreToFactory]).pmm
    (∀ address, Owns group address →
        after.sysPara address = session.pmm.chips.area .factory address) ∧
      after.chips.cells = session.pmm.chips.cells := by
  have effect := try_restore_effect .delivered .factory groupMask session.pmm
  have state : (tryRestoreFromStorage .delivered .factory groupMask session.pmm).paraState =
      pmmValidatePara (session.pmm.chips.area .factory) := effect.state
  have result : (run step session [.restoreToFactory]).pmm =
      (tryRestoreFromStorage .delivered .factory groupMask session.pmm).pmm := by
    change pmmRestoreToFactory .delivered session.pmm = _
    rw [pmmRestoreToFactory, state, if_pos fun complete =>
      incomplete ((validate_corrent_iff _).mp complete)]
  have supplied : qualifies .delivered (session.pmm.chips.area .factory) group = true := by
    simp [qualifies, magic, valid]
  simp only [result]
  refine ⟨fun address owned => ?_, congrArg Eeprom.cells effect.eeprom⟩
  rw [effect.bytes group address owned, if_pos ⟨group_mask_index group, supplied⟩]

/-- What a failed restore took from the factory area is lost with the flash. -/
theorem failed_restore_lost :
    (paraInit delivered (Pmm.powerUp ⟨fun _ => NorFlash.erased, (run step
          ⟨spoiledDevice, fun _ => true⟩ [.restoreToFactory]).pmm.chips.cells⟩)).sysPara
        recordStart ≠
      (run step ⟨spoiledDevice, fun _ => true⟩ [.restoreToFactory]).pmm.sysPara recordStart := by
  obtain ⟨magic, record, seven, dev⟩ := spoiled_factory_partial
  rw [← spoiled_device_factory] at magic record seven dev
  have incomplete : ¬FullyValid (spoiledDevice.chips.area .factory) := by
    rintro ⟨-, valid⟩
    rw [valid .dev] at dev
    cases dev
  obtain ⟨bytes, cells⟩ :=
    failed_restore ⟨spoiledDevice, fun _ => true⟩ .record magic record incomplete
  have taken := bytes recordStart (owns_data (Nat.le_refl _) (by decide))
  have held : spoiledDevice.chips.cells = checkedDefault := rfl
  simp only [held] at cells
  rw [taken, seven, cells, erased_start_record (agree_refl _ _ _)]
  exact default_record

/-- From two devices that have converged: a device address of 33 that was saved is another one
after a start, and when the flash is lost a record interval is another one that was only saved to
the factory area, or that a failed restore took from there. -/
theorem saved_rejected_address_lost :
    (defaultDevice.Sound ∧ BothConverged defaultDevice) ∧
      (spoiledDevice.Sound ∧ BothConverged spoiledDevice) ∧
      (writesUser (run step ⟨defaultDevice, fun _ => true⟩ [.edit .dev (fun _ => 33)]).pmm
          (.saveGroup .dev) = true ∧
        (paraInit delivered (Pmm.powerUp (run step ⟨defaultDevice, fun _ => true⟩
            [.edit .dev (fun _ => 33), .saveGroup .dev]).pmm.chips)).sysPara devAddr ≠
          (run step ⟨defaultDevice, fun _ => true⟩
            [.edit .dev (fun _ => 33), .saveGroup .dev]).pmm.sysPara devAddr) ∧
      (paraInit delivered (Pmm.powerUp ⟨fun _ => NorFlash.erased, (run step
            ⟨defaultDevice, fun _ => true⟩
            [.edit .record (fun _ => 7), .saveToFactory]).pmm.chips.cells⟩)).sysPara recordStart ≠
          (run step ⟨defaultDevice, fun _ => true⟩
            [.edit .record (fun _ => 7), .saveToFactory]).pmm.sysPara recordStart ∧
      (paraInit delivered (Pmm.powerUp ⟨fun _ => NorFlash.erased, (run step
            ⟨spoiledDevice, fun _ => true⟩ [.restoreToFactory]).pmm.chips.cells⟩)).sysPara
          recordStart ≠
        (run step ⟨spoiledDevice, fun _ => true⟩ [.restoreToFactory]).pmm.sysPara recordStart :=
  ⟨⟨power_up_sound _, default_device_converged⟩, ⟨power_up_sound _, spoiled_device_converged⟩,
    ⟨save_group_writes _ .dev, rejected_address_replaced⟩, factory_saved_lost,
    failed_restore_lost⟩

end Pyrometer.ParameterPersistence
