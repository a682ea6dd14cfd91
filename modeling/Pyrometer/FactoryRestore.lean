import Pyrometer.ParameterPersistence

/-!
# Restoring the factory parameters

`pmm_restore_to_factory` runs in a critical section. It loads the factory area into the
running parameters, looks at the state that the load reports, and saves to the user and to
the backup area if that state is complete. The exit for an incomplete state lies between
the two ends of the critical section, and by then the load has copied every group that
passed its own check.

The critical section is the nesting counter of the kernel; interrupts stay masked while it
is not zero. No other function that is called here touches it.
-/

namespace Pyrometer.FactoryRestore

open ByteMemory EepromStorage ParameterLayout ParameterManager ParameterChecks
open ParameterLoading ParameterSaving ParameterRepair ParameterPersistence

/-- The parameter manager and `uxCriticalNesting`. -/
structure Core where
  pmm : Pmm
  uxCriticalNesting : Nat

/-- `ENTER_CRITICAL`. -/
def enterCritical (core : Core) : Core :=
  { core with uxCriticalNesting := core.uxCriticalNesting + 1 }

/-- `EXIT_CRITICAL`. -/
def exitCritical (core : Core) : Core :=
  { core with uxCriticalNesting := core.uxCriticalNesting - 1 }

/-- `pmm_restore_to_factory` with its critical section. -/
def restoreToFactory (outcome : ReadOutcome) (core : Core) : Core :=
  let core := enterCritical core
  let restored := tryRestoreFromStorage outcome .factory groupMask core.pmm
  let core := { core with pmm := restored.pmm }
  if restored.paraState ≠ correntMask then core
  else
    let core := { core with pmm := (paraSaveToStorage .user wholeMask core.pmm).2 }
    let core := { core with pmm := (paraSaveToStorage .backup wholeMask core.pmm).2 }
    exitCritical core

/-- What the critical section surrounds is the function without it. -/
theorem restore_to_factory_pmm (outcome : ReadOutcome) (core : Core) :
    (restoreToFactory outcome core).pmm = pmmRestoreToFactory outcome core.pmm := by
  unfold restoreToFactory pmmRestoreToFactory
  dsimp only [enterCritical]
  split <;> rfl

/-- The factory area was read and passes every check. -/
def FactoryValid (outcome : ReadOutcome) (pmm : Pmm) : Prop :=
  outcome = .delivered ∧ FullyValid (pmm.chips.area .factory)

/-- A structure has the bytes and the checksum words of all groups of another. -/
def HoldsGroups (para source : Mem) : Prop :=
  ∀ group address, Owns group address → para address = source address

/-- What a restore that does not happen leaves alone. -/
structure Untouched (before after : Core) : Prop where
  sysPara : Agree after.pmm.sysPara before.pmm.sysPara 0 sizeofSysPara
  user : Agree (after.pmm.chips.area .user) (before.pmm.chips.area .user) 0 sizeofSysPara
  backup : Agree (after.pmm.chips.area .backup) (before.pmm.chips.area .backup) 0 sizeofSysPara
  nesting : after.uxCriticalNesting = before.uxCriticalNesting

/-- What a restore should do: everything from a valid factory area, and nothing from any
other. -/
structure AllOrNothing (outcome : ReadOutcome) (core : Core) : Prop where
  nothing : ¬FactoryValid outcome core.pmm → Untouched core (restoreToFactory outcome core)
  all : FactoryValid outcome core.pmm →
    HoldsGroups (restoreToFactory outcome core).pmm.sysPara (core.pmm.chips.area .factory) ∧
      HoldsGroups ((restoreToFactory outcome core).pmm.chips.area .user)
        (core.pmm.chips.area .factory) ∧
      HoldsGroups ((restoreToFactory outcome core).pmm.chips.area .backup)
        (core.pmm.chips.area .factory)

/-- The reported state is complete exactly for a valid factory area. -/
theorem state_complete_iff (outcome : ReadOutcome) (pmm : Pmm) :
    (tryRestoreFromStorage outcome .factory groupMask pmm).paraState = correntMask ↔
      FactoryValid outcome pmm := by
  rw [(try_restore_effect outcome .factory groupMask pmm).state, areaState, FactoryValid]
  by_cases read : outcome = .delivered
  · rw [if_pos read, validate_corrent_iff]
    exact ⟨fun valid => ⟨read, valid⟩, fun valid => valid.2⟩
  · rw [if_neg read]
    constructor
    · intro zero
      exact absurd zero (by decide)
    · intro valid
      exact absurd valid.1 read

/-- An area that is not valid: every group that passes its own check is in the running
parameters all the same, the chips are as they were, and the critical section is not
left. -/
structure Abandoned (outcome : ReadOutcome) (before after : Core) : Prop where
  groups : ∀ group address, Owns group address →
    after.pmm.sysPara address =
      if qualifies outcome (before.pmm.chips.area .factory) group = true then
        before.pmm.chips.area .factory address
      else before.pmm.sysPara address
  chips : after.pmm.chips = before.pmm.chips
  nesting : after.uxCriticalNesting = before.uxCriticalNesting + 1

/-- A restore from an area that is not valid is abandoned half way. -/
theorem invalid_abandoned {outcome : ReadOutcome} {core : Core}
    (invalid : ¬FactoryValid outcome core.pmm) :
    Abandoned outcome core (restoreToFactory outcome core) := by
  have effect := try_restore_effect outcome .factory groupMask core.pmm
  have incomplete : (tryRestoreFromStorage outcome .factory groupMask core.pmm).paraState ≠
      correntMask := fun complete => invalid ((state_complete_iff outcome core.pmm).mp complete)
  have result : restoreToFactory outcome core =
      ⟨(tryRestoreFromStorage outcome .factory groupMask core.pmm).pmm,
        core.uxCriticalNesting + 1⟩ := if_pos incomplete
  rw [result]
  constructor
  case groups =>
    intro group address owned
    have bytes := effect.bytes group address owned
    rw [group_mask_index] at bytes
    simpa only [true_and] using bytes
  case chips => simp only [Pmm.chips, effect.fmc, effect.eeprom]
  case nesting => rfl

/-- The load of a valid factory area copies it whole. -/
theorem valid_loaded {pmm : Pmm} (valid : FullyValid (pmm.chips.area .factory)) :
    Agree (tryRestoreFromStorage .delivered .factory groupMask pmm).pmm.sysPara
      (pmm.chips.area .factory) 0 sizeofSysPara := by
  have effect := try_restore_effect .delivered .factory groupMask pmm
  intro address _ high
  by_cases below : address < 4
  · rw [effect.magic address below, if_pos ⟨rfl, valid.1⟩]
    rw [← valid.1, magicOf, byte_of_load32 _ _ _ below, Nat.zero_add]
  · obtain ⟨group, owned⟩ := owner_exists address (Nat.le_of_not_lt below) (by omega)
    have supplied : qualifies .delivered (pmm.chips.area .factory) group = true := by
      simp [qualifies, valid.1, valid.2 group]
    rw [effect.bytes group address owned, if_pos ⟨group_mask_index group, supplied⟩]

/-- Saving valid parameters to both areas puts the same bytes everywhere. -/
theorem both_saved_valid {pmm : Pmm} {source : Mem} (sound : pmm.Sound)
    (loaded : Agree pmm.sysPara source 0 sizeofSysPara) (valid : FullyValid source) :
    let after := (paraSaveToStorage .backup wholeMask (paraSaveToStorage .user wholeMask pmm).2).2
    Agree after.sysPara source 0 sizeofSysPara ∧
      Agree (after.chips.area .user) source 0 sizeofSysPara ∧
      Agree (after.chips.area .backup) source 0 sizeofSysPara := by
  have user := whole_save .user wholeMask pmm sound (whole_mask_whole .user)
  set afterUser := (paraSaveToStorage .user wholeMask pmm).2
  have backup := whole_save .backup wholeMask afterUser user.sound (whole_mask_whole .backup)
  set after := (paraSaveToStorage .backup wholeMask afterUser).2
  have validPara : FullyValid pmm.sysPara := (fully_valid_congr loaded).mpr valid
  have validUser : FullyValid afterUser.sysPara := by
    rw [user.sysPara]
    exact recalculate_valid _
  have sameUser : Agree afterUser.sysPara source 0 sizeofSysPara := by
    rw [user.sysPara]
    exact agree_trans (recalculate_fixed validPara) loaded
  have same : Agree after.sysPara source 0 sizeofSysPara := by
    rw [backup.sysPara]
    exact agree_trans (recalculate_fixed validUser) sameUser
  refine ⟨same, ?_, agree_trans backup.written same⟩
  exact agree_trans (backup.frame .user (by decide)) (agree_trans user.written sameUser)

/-- Equal structures hold the same groups. -/
theorem holds_groups_of_agree {para source : Mem} (same : Agree para source 0 sizeofSysPara) :
    HoldsGroups para source :=
  fun _ address owned => agree_owned same address owned

/-- A restore is all or nothing exactly from a valid factory area: from any other it stays in
the critical section. -/
theorem factory_restore_iff (outcome : ReadOutcome) (core : Core) (sound : core.pmm.Sound) :
    AllOrNothing outcome core ↔ FactoryValid outcome core.pmm := by
  constructor
  · intro restores
    by_contra invalid
    have left := (restores.nothing invalid).nesting
    have kept := (invalid_abandoned invalid).nesting
    omega
  · intro valid
    have effect := try_restore_effect outcome .factory groupMask core.pmm
    refine ⟨fun invalid => absurd valid invalid, fun _ => ?_⟩
    obtain ⟨rfl, full⟩ := valid
    have restoredSound :
        (tryRestoreFromStorage .delivered .factory groupMask core.pmm).pmm.Sound := by
      rw [Pmm.Sound, effect.fmc, effect.eeprom]
      exact sound
    have complete := (state_complete_iff .delivered core.pmm).mpr ⟨rfl, full⟩
    have result : pmmRestoreToFactory .delivered core.pmm = (paraSaveToStorage .backup wholeMask
        (paraSaveToStorage .user wholeMask
          (tryRestoreFromStorage .delivered .factory groupMask core.pmm).pmm).2).2 := by
      rw [pmmRestoreToFactory, if_neg (not_not_intro complete)]
    rw [restore_to_factory_pmm, result]
    obtain ⟨sysPara, user, backup⟩ := both_saved_valid restoredSound (valid_loaded full) full
    exact ⟨holds_groups_of_agree sysPara, holds_groups_of_agree user,
      holds_groups_of_agree backup⟩

/-- A device outside a critical section with the given factory area and working chips. -/
def deviceWith (factory : Mem) : Core :=
  ⟨Pmm.powerUp ⟨fun address => factory (address - StorageType.factory.address), fun _ => 0xFF⟩, 0⟩

/-- The factory area of such a device. -/
theorem device_with_factory (factory : Mem) :
    (deviceWith factory).pmm.chips.area .factory = factory := by
  funext address
  show factory (StorageType.factory.address + address - StorageType.factory.address) = _
  rw [Nat.add_sub_cancel_left]

/-- The default parameters with their checksums are restored. -/
theorem checked_default_restored : AllOrNothing .delivered (deviceWith checkedDefault) := by
  apply (factory_restore_iff .delivered (deviceWith checkedDefault) (power_up_sound _)).mpr
  refine ⟨rfl, ?_⟩
  rw [device_with_factory]
  exact recalculate_valid _

/-- A restore from an erased factory area is not left. -/
theorem erased_factory_not_left : ¬AllOrNothing .delivered (deviceWith fun _ => 0xFF) := by
  intro restores
  have invalid : ¬FactoryValid .delivered (deviceWith fun _ => 0xFF).pmm := by
    rintro ⟨_, valid⟩
    rw [device_with_factory] at valid
    exact absurd valid.1 (by decide)
  have left := (restores.nothing invalid).nesting
  have kept := (invalid_abandoned invalid).nesting
  omega

end Pyrometer.FactoryRestore
