import Pyrometer.ParameterChecks

/-!
# Loading the parameters at start-up

`para_init` walks over the user, backup and factory areas with one mask of
groups still needed, one temporary structure and in-place copies. The laws here
separate those shared variables: for each group the outcome is a function of
that group's own bytes in the three areas, of their magic words and of the
outcomes of the three reads. Nothing is assumed about the areas or about which
later writes the chips refuse.
-/

namespace Pyrometer.ParameterLoading

open ByteMemory EepromStorage BitMasks ParameterLayout DefaultParameters ParameterManager
open ParameterChecks

/-- An area supplies a group: it was read, its magic word is right, and the
group's checksum word matches the group's bytes. -/
def qualifies (outcome : ReadOutcome) (area : Mem) (group : ParaType) : Bool :=
  decide (outcome = .delivered) && (decide (magicOf area = paramMagic) && groupValid area group)

/-- The first area in the order user, backup, factory that supplies a group. -/
def sourceArea (reads : StorageType → ReadOutcome) (chips : Chips) (group : ParaType) :
    Option StorageType :=
  [StorageType.user, .backup, .factory].find?
    (fun type => qualifies (reads type) (chips.area type) group)

/-- The structure a group is taken from: its source area, or the defaults. -/
def sourcePara (reads : StorageType → ReadOutcome) (chips : Chips) (group : ParaType) : Mem :=
  match sourceArea reads chips group with
  | some type => chips.area type
  | none => sysDefPara

/-- The group loop copies each listed group that is needed and valid, and clears
it from the mask. Induct on the listed groups; a byte has one owner, so a later
copy never overwrites an earlier one. -/
theorem restore_loop_exact (tempPara : Mem) (status : BitVec 32) (groups : List ParaType)
    (sysPara : Mem) (needed : BitVec 32) (distinct : groups.Nodup) :
    let result := restoreLoop tempPara status groups (sysPara, needed)
    (∀ group, hasBit result.2 group.index =
        (hasBit needed group.index &&
          !(decide (group ∈ groups) && hasBit status group.index))) ∧
      (∀ group address, Owns group address →
        result.1 address =
          if group ∈ groups ∧ hasBit needed group.index = true ∧ hasBit status group.index = true
          then tempPara address else sysPara address) := by
  induction groups generalizing sysPara needed with
  | nil => exact ⟨fun group => by simp [restoreLoop], fun group address _ => by simp [restoreLoop]⟩
  | cons first rest inductionHypothesis =>
    obtain ⟨fresh, restDistinct⟩ := List.nodup_cons.mp distinct
    unfold restoreLoop
    by_cases taken : (hasBit needed first.index && hasBit status first.index) = true
    · obtain ⟨wanted, valid⟩ := Bool.and_eq_true_iff.mp taken
      obtain ⟨masks, bytes⟩ := inductionHypothesis (copyGroup sysPara tempPara first)
        (clearBit needed first.index) restDistinct
      have cleared : ∀ group : ParaType, hasBit (clearBit needed first.index) group.index =
          (hasBit needed group.index && !decide (group = first)) := by
        intro group
        rw [has_bit_clear needed _ _ (index_inside first) (index_inside group)]
        simp only [index_injective.eq_iff]
      rw [if_pos taken]
      refine ⟨?_, ?_⟩
      · intro group
        rw [masks group, cleared group]
        by_cases same : group = first
        · subst same
          simp [valid]
        · simp [same]
      · intro group address owned
        rw [bytes group address owned, cleared group, copy_group_exact]
        by_cases same : group = first
        · subst same
          simp [fresh, owned, wanted, valid]
        · have foreign : ¬Owns first address :=
            fun other => same (owner_unique group first address owned other)
          simp [same, foreign]
    · obtain ⟨masks, bytes⟩ := inductionHypothesis sysPara needed restDistinct
      rw [if_neg taken]
      refine ⟨?_, ?_⟩
      · intro group
        rw [masks group]
        by_cases same : group = first
        · subst same
          simp only [List.mem_cons, true_or, decide_true, Bool.true_and, fresh, decide_false,
            Bool.false_and, Bool.not_false, Bool.and_true]
          cases wanted : hasBit needed group.index with
          | false => rfl
          | true =>
            cases valid : hasBit status group.index with
            | false => rfl
            | true => simp [wanted, valid] at taken
        · simp [same]
      · intro group address owned
        rw [bytes group address owned]
        by_cases same : group = first
        · subst same
          have idle : ¬(hasBit needed group.index = true ∧ hasBit status group.index = true) :=
            fun both => taken (Bool.and_eq_true_iff.mpr both)
          simp [fresh, idle]
        · simp [same]

/-- The state reported for an area: nothing is valid in an area that was not read. -/
def areaState (outcome : ReadOutcome) (area : Mem) : BitVec 32 :=
  if outcome = .delivered then pmmValidatePara area else 0

/-- Everything one load does: which groups remain needed, which bytes change,
what is reported, and which chips are left alone. -/
structure RestoreEffect (outcome : ReadOutcome) (type : StorageType) (neededMask : BitVec 32)
    (pmm : Pmm) (restored : Restored) : Prop where
  fmc : restored.pmm.fmc = pmm.fmc
  eeprom : restored.pmm.eeprom = pmm.eeprom
  trace : restored.pmm.trace = pmm.trace
  crcUser : restored.pmm.crcUser = pmm.crcUser
  crcBackup : restored.pmm.crcBackup = pmm.crcBackup
  paraErrStatus : restored.pmm.paraErrStatus = pmm.paraErrStatus
  needed : ∀ group, hasBit restored.neededMask group.index =
    (hasBit neededMask group.index && !qualifies outcome (pmm.chips.area type) group)
  bytes : ∀ group address, Owns group address →
    restored.pmm.sysPara address =
      if hasBit neededMask group.index = true ∧
          qualifies outcome (pmm.chips.area type) group = true
      then pmm.chips.area type address else pmm.sysPara address
  magic : ∀ address, address < 4 →
    restored.pmm.sysPara address =
      if outcome = .delivered ∧ magicOf (pmm.chips.area type) = paramMagic
      then byteOf paramMagic address else pmm.sysPara address
  state : restored.paraState = areaState outcome (pmm.chips.area type)
  words : ∀ group, storedCrc restored.pmm.tempPara group =
    if outcome = .delivered then storedCrc (pmm.chips.area type) group else 0

/-- A cleared structure fails its magic check. -/
theorem cleared_invalid : pmmValidatePara clearedPara = 0 := by
  have wrong : magicOf clearedPara ≠ paramMagic := by decide
  rw [pmmValidatePara, if_neg wrong]

/-- A cleared structure has zero checksum words. -/
theorem cleared_words (group : ParaType) : storedCrc clearedPara group = 0 := by
  simp [storedCrc, load16, clearedPara]

/-- Without delivered bytes a load only clears the temporary structure. -/
theorem try_restore_unread (outcome : ReadOutcome) (type : StorageType) (neededMask : BitVec 32)
    (pmm : Pmm) (unread : outcome ≠ .delivered) :
    tryRestoreFromStorage outcome type neededMask pmm =
      ⟨-1, neededMask, 0, { pmm with tempPara := clearedPara }⟩ := by
  cases outcome with
  | delivered => exact absurd rfl unread
  | refused => rfl
  | skipped =>
    have flag : hasBit (0 : BitVec 32) magicBit = false := has_bit_zero magicBit
    simp only [tryRestoreFromStorage, ReadOutcome.result, cleared_invalid, flag,
      Bool.false_eq_true, if_false]

/-- A delivered structure has the bytes of the area. -/
theorem delivered_agree (area : Mem) :
    Agree (overlay clearedPara area 0 sizeofSysPara) area 0 sizeofSysPara := by
  intro address low high
  rw [overlay_inside _ _ _ _ _ low high, Nat.sub_zero]

/-- A delivered structure with a wrong magic word is kept in the temporary
structure and otherwise ignored. -/
theorem try_restore_wrong_magic (type : StorageType) (neededMask : BitVec 32) (pmm : Pmm)
    (wrong : magicOf (pmm.chips.area type) ≠ paramMagic) :
    tryRestoreFromStorage .delivered type neededMask pmm =
      ⟨-1, neededMask, pmmValidatePara (pmm.chips.area type),
        { pmm with tempPara := overlay clearedPara (pmm.chips.area type) 0 sizeofSysPara }⟩ := by
  have status := validate_congr (delivered_agree (pmm.chips.area type))
  have flag : hasBit (pmmValidatePara (pmm.chips.area type)) magicBit = false := by
    rw [validate_magic]
    simp [wrong]
  simp only [tryRestoreFromStorage, ReadOutcome.result, status, flag, Bool.false_eq_true,
    if_false]

/-- A delivered structure with the magic word goes through the group loop. -/
theorem try_restore_right_magic (type : StorageType) (neededMask : BitVec 32) (pmm : Pmm)
    (right : magicOf (pmm.chips.area type) = paramMagic) :
    tryRestoreFromStorage .delivered type neededMask pmm =
      let tempPara := overlay clearedPara (pmm.chips.area type) 0 sizeofSysPara
      let looped := restoreLoop tempPara (pmmValidatePara (pmm.chips.area type)) ParaType.all
        (pmm.sysPara, neededMask)
      ⟨0, looped.2, pmmValidatePara (pmm.chips.area type),
        { pmm with tempPara := tempPara, sysPara := setMagic looped.1 }⟩ := by
  have status := validate_congr (delivered_agree (pmm.chips.area type))
  have flag : hasBit (pmmValidatePara (pmm.chips.area type)) magicBit = true := by
    rw [validate_magic]
    simp [right]
  simp only [tryRestoreFromStorage, ReadOutcome.result, status, flag, if_true]

/-- `try_restore_from_storage` has exactly the described effect, whatever the
area holds and however its read ends. -/
theorem try_restore_effect (outcome : ReadOutcome) (type : StorageType) (neededMask : BitVec 32)
    (pmm : Pmm) :
    RestoreEffect outcome type neededMask pmm
      (tryRestoreFromStorage outcome type neededMask pmm) := by
  by_cases read : outcome = .delivered
  · subst read
    have agreed := delivered_agree (pmm.chips.area type)
    have words : ∀ group, storedCrc (overlay clearedPara (pmm.chips.area type) 0 sizeofSysPara)
        group = storedCrc (pmm.chips.area type) group := by
      intro group
      have bounds := crc_word_bounds group
      exact stored_crc_congr (agree_mono agreed (by omega) (by omega))
    by_cases magic : magicOf (pmm.chips.area type) = paramMagic
    · have groups : ∀ group : ParaType,
          hasBit (pmmValidatePara (pmm.chips.area type)) group.index =
            qualifies .delivered (pmm.chips.area type) group := by
        intro group
        rw [validate_group]
        simp [qualifies]
      obtain ⟨masks, bytes⟩ := restore_loop_exact
        (overlay clearedPara (pmm.chips.area type) 0 sizeofSysPara)
        (pmmValidatePara (pmm.chips.area type)) ParaType.all pmm.sysPara neededMask all_nodup
      rw [try_restore_right_magic type neededMask pmm magic]
      refine ⟨rfl, rfl, rfl, rfl, rfl, rfl, ?_, ?_, ?_, rfl, words⟩
      · intro group
        have listed := masks group
        rw [groups group, decide_eq_true (mem_all group), Bool.true_and] at listed
        exact listed
      · intro group address owned
        have inside := owns_above owned
        have copied := bytes group address owned
        rw [groups group, agreed address (by omega) (by omega)] at copied
        simp only [mem_all, true_and] at copied
        exact (set_magic_above _ _ inside.1).trans copied
      · intro address below
        rw [if_pos ⟨rfl, magic⟩]
        exact set_magic_bytes _ address below
    · rw [try_restore_wrong_magic type neededMask pmm magic]
      refine ⟨rfl, rfl, rfl, rfl, rfl, rfl, ?_, ?_, ?_, rfl, words⟩
      · intro group
        simp [qualifies, magic]
      · intro group address _
        simp [qualifies, magic]
      · intro address _
        simp [magic]
  · rw [try_restore_unread outcome type neededMask pmm read]
    refine ⟨rfl, rfl, rfl, rfl, rfl, rfl, ?_, ?_, ?_, ?_, ?_⟩
    · intro group
      simp [qualifies, read]
    · intro group address _
      simp [qualifies, read]
    · intro address _
      simp [read]
    · rw [areaState, if_neg read]
    · intro group
      rw [if_neg read]
      exact cleared_words group

/-- Everything the three loads do together. -/
structure LoadEffect (reads : StorageType → ReadOutcome) (pmm loaded : Pmm) : Prop where
  fmc : loaded.fmc = pmm.fmc
  eeprom : loaded.eeprom = pmm.eeprom
  trace : loaded.trace = pmm.trace
  bytes : ∀ group address, Owns group address →
    loaded.sysPara address = sourcePara reads pmm.chips group address
  magic : reads .user = .delivered → magicOf (pmm.chips.area .user) = paramMagic →
    ∀ address, address < 4 → loaded.sysPara address = byteOf paramMagic address
  status : ∀ type, loaded.paraErrStatus type =
    setBit (areaState (reads type) (pmm.chips.area type)) magicBit
  crcUser : ∀ group, loaded.crcUser group =
    if reads .user = .delivered then storedCrc (pmm.chips.area .user) group else 0
  crcBackup : ∀ group, loaded.crcBackup group =
    if reads .backup = .delivered then storedCrc (pmm.chips.area .backup) group else 0

/-- The source of a group, area by area. -/
theorem source_para_chain (reads : StorageType → ReadOutcome) (chips : Chips) (group : ParaType)
    (address : Nat) :
    sourcePara reads chips group address =
      if qualifies (reads .user) (chips.area .user) group = true then chips.area .user address
      else if qualifies (reads .backup) (chips.area .backup) group = true then
        chips.area .backup address
      else if qualifies (reads .factory) (chips.area .factory) group = true then
        chips.area .factory address
      else sysDefPara address := by
  unfold sourcePara sourceArea
  cases inUser : qualifies (reads .user) (chips.area .user) group with
  | true => simp [List.find?, inUser]
  | false =>
    cases inBackup : qualifies (reads .backup) (chips.area .backup) group with
    | true => simp [List.find?, inUser, inBackup]
    | false =>
      cases inFactory : qualifies (reads .factory) (chips.area .factory) group with
      | true => simp [List.find?, inUser, inBackup, inFactory]
      | false => simp [List.find?, inUser, inBackup, inFactory]

/-- The first load of `para_init`. -/
def userLoad (reads : StorageType → ReadOutcome) (pmm : Pmm) : Restored :=
  tryRestoreFromStorage (reads .user) .user groupMask { pmm with sysPara := sysDefPara }

/-- What the second load finds. -/
def afterUser (reads : StorageType → ReadOutcome) (pmm : Pmm) : Pmm :=
  { recordStatus .user (userLoad reads pmm).paraState (userLoad reads pmm).pmm with
    crcUser := storedCrc (userLoad reads pmm).pmm.tempPara }

/-- The second load, of the groups that the first one left. -/
def backupLoad (reads : StorageType → ReadOutcome) (pmm : Pmm) : Restored :=
  tryRestoreFromStorage (reads .backup) .backup (userLoad reads pmm).neededMask
    (afterUser reads pmm)

/-- What the third load finds. -/
def afterBackup (reads : StorageType → ReadOutcome) (pmm : Pmm) : Pmm :=
  { recordStatus .backup (backupLoad reads pmm).paraState (backupLoad reads pmm).pmm with
    crcBackup := storedCrc (backupLoad reads pmm).pmm.tempPara }

/-- The third load, of the groups that both others left. -/
def factoryLoad (reads : StorageType → ReadOutcome) (pmm : Pmm) : Restored :=
  tryRestoreFromStorage (reads .factory) .factory (backupLoad reads pmm).neededMask
    (afterBackup reads pmm)

section Loads

variable (reads : StorageType → ReadOutcome) (pmm : Pmm)

/-- The effect of the first load. -/
theorem user_load_effect :
    RestoreEffect (reads .user) .user groupMask { pmm with sysPara := sysDefPara }
      (userLoad reads pmm) :=
  try_restore_effect _ _ _ _

/-- The effect of the second load. -/
theorem backup_load_effect :
    RestoreEffect (reads .backup) .backup (userLoad reads pmm).neededMask (afterUser reads pmm)
      (backupLoad reads pmm) :=
  try_restore_effect _ _ _ _

/-- The effect of the third load. -/
theorem factory_load_effect :
    RestoreEffect (reads .factory) .factory (backupLoad reads pmm).neededMask
      (afterBackup reads pmm) (factoryLoad reads pmm) :=
  try_restore_effect _ _ _ _

/-- The first load changes no chip. -/
theorem after_user_chips : (afterUser reads pmm).chips = pmm.chips := by
  have user := user_load_effect reads pmm
  simp only [Pmm.chips, afterUser, recordStatus, user.fmc, user.eeprom]

/-- The second load changes no chip. -/
theorem after_backup_chips : (afterBackup reads pmm).chips = pmm.chips := by
  have backup := backup_load_effect reads pmm
  rw [← after_user_chips reads pmm]
  simp only [Pmm.chips, afterBackup, recordStatus, backup.fmc, backup.eeprom]

/-- Each group comes from its first qualifying area. The mask carries a group to the next
load exactly when no earlier area supplied it. -/
theorem loaded_bytes (group : ParaType) (address : Nat) (owned : Owns group address) :
    (factoryLoad reads pmm).pmm.sysPara address =
      sourcePara reads pmm.chips group address := by
  have user := user_load_effect reads pmm
  have backup := backup_load_effect reads pmm
  have fromUser := user.bytes group address owned
  have fromBackup := backup.bytes group address owned
  have fromFactory := (factory_load_effect reads pmm).bytes group address owned
  rw [backup.needed, user.needed, group_mask_index, after_backup_chips, after_user_chips]
    at fromFactory
  rw [user.needed, group_mask_index, after_user_chips] at fromBackup
  rw [group_mask_index] at fromUser
  have viaBackup : (afterBackup reads pmm).sysPara address =
      (backupLoad reads pmm).pmm.sysPara address := rfl
  have viaUser : (afterUser reads pmm).sysPara address =
      (userLoad reads pmm).pmm.sysPara address := rfl
  have start : Pmm.chips { pmm with sysPara := sysDefPara } = pmm.chips := rfl
  rw [fromFactory, viaBackup, fromBackup, viaUser, fromUser, start, source_para_chain]
  cases inUser : qualifies (reads .user) (pmm.chips.area .user) group with
  | true => simp
  | false =>
    cases inBackup : qualifies (reads .backup) (pmm.chips.area .backup) group with
    | true => simp
    | false => simp

/-- A user area with the magic word leaves it in the running parameters. -/
theorem loaded_magic (read : reads .user = .delivered)
    (right : magicOf (pmm.chips.area .user) = paramMagic) (address : Nat) (below : address < 4) :
    (factoryLoad reads pmm).pmm.sysPara address = byteOf paramMagic address := by
  have set : (userLoad reads pmm).pmm.sysPara address = byteOf paramMagic address := by
    rw [(user_load_effect reads pmm).magic address below]
    exact if_pos ⟨read, right⟩
  have kept : (backupLoad reads pmm).pmm.sysPara address = byteOf paramMagic address := by
    rw [(backup_load_effect reads pmm).magic address below]
    split
    · rfl
    · exact set
  rw [(factory_load_effect reads pmm).magic address below]
  split
  · rfl
  · exact kept

/-- Each area's state is recorded with the magic flag. -/
theorem loaded_status (type : StorageType) :
    (loadAreas reads pmm).paraErrStatus type =
      setBit (areaState (reads type) (pmm.chips.area type)) magicBit := by
  have factory := factory_load_effect reads pmm
  have backup := backup_load_effect reads pmm
  cases type with
  | user =>
    change (factoryLoad reads pmm).pmm.paraErrStatus .user = _
    rw [factory.paraErrStatus]
    change (backupLoad reads pmm).pmm.paraErrStatus .user = _
    rw [backup.paraErrStatus]
    exact congrArg (fun state => setBit state magicBit) (user_load_effect reads pmm).state
  | backup =>
    change (factoryLoad reads pmm).pmm.paraErrStatus .backup = _
    rw [factory.paraErrStatus]
    have state := backup.state
    rw [after_user_chips] at state
    exact congrArg (fun state => setBit state magicBit) state
  | factory =>
    have state := factory.state
    rw [after_backup_chips] at state
    exact congrArg (fun state => setBit state magicBit) state

/-- The checksum words of the user and of the backup area are kept. -/
theorem loaded_words (group : ParaType) :
    (loadAreas reads pmm).crcUser group =
        (if reads .user = .delivered then storedCrc (pmm.chips.area .user) group else 0) ∧
      (loadAreas reads pmm).crcBackup group =
        (if reads .backup = .delivered then storedCrc (pmm.chips.area .backup) group else 0) := by
  have factory := factory_load_effect reads pmm
  have backup := backup_load_effect reads pmm
  constructor
  · change (factoryLoad reads pmm).pmm.crcUser group = _
    rw [factory.crcUser]
    change (backupLoad reads pmm).pmm.crcUser group = _
    rw [backup.crcUser]
    exact (user_load_effect reads pmm).words group
  · change (factoryLoad reads pmm).pmm.crcBackup group = _
    rw [factory.crcBackup]
    have words := backup.words group
    rw [after_user_chips] at words
    exact words

/-- The three loads take each group from its first qualifying area. -/
theorem load_areas_effect : LoadEffect reads pmm (loadAreas reads pmm) := by
  have user := user_load_effect reads pmm
  have backup := backup_load_effect reads pmm
  have factory := factory_load_effect reads pmm
  constructor
  case fmc => exact factory.fmc.trans (backup.fmc.trans user.fmc)
  case eeprom => exact factory.eeprom.trans (backup.eeprom.trans user.eeprom)
  case trace => exact factory.trace.trans (backup.trace.trans user.trace)
  case bytes => exact loaded_bytes reads pmm
  case magic => exact loaded_magic reads pmm
  case status => exact loaded_status reads pmm
  case crcUser => exact fun group => (loaded_words reads pmm group).1
  case crcBackup => exact fun group => (loaded_words reads pmm group).2

end Loads

/-- What a call that only writes storage leaves in RAM. -/
structure KeepsRam (before after : Pmm) : Prop where
  sysPara : after.sysPara = before.sysPara
  crcUser : after.crcUser = before.crcUser
  crcBackup : after.crcBackup = before.crcBackup
  paraErrStatus : after.paraErrStatus = before.paraErrStatus

/-- A storage write changes chips only, whether or not it succeeds. -/
theorem storage_write_ram (type : StorageType) (offset : Nat) (buff : Mem) (len : Nat)
    (pmm : Pmm) : KeepsRam pmm (storageWrite type offset buff len pmm).2 := by
  cases type with
  | user => exact ⟨rfl, rfl, rfl, rfl⟩
  | backup => exact ⟨rfl, rfl, rfl, rfl⟩
  | factory => exact ⟨rfl, rfl, rfl, rfl⟩

/-- Two calls that keep RAM keep it in turn. -/
theorem keeps_ram_trans {first second third : Pmm} (left : KeepsRam first second)
    (right : KeepsRam second third) : KeepsRam first third :=
  ⟨right.sysPara.trans left.sysPara, right.crcUser.trans left.crcUser,
    right.crcBackup.trans left.crcBackup, right.paraErrStatus.trans left.paraErrStatus⟩

/-- The group loop changes chips only, at whichever write it stops. -/
theorem save_group_loop_ram (type : StorageType) (paraState : BitVec 32) (groups : List ParaType)
    (pmm : Pmm) : KeepsRam pmm (saveGroupLoop type paraState groups pmm).2 := by
  induction groups generalizing pmm with
  | nil => exact ⟨rfl, rfl, rfl, rfl⟩
  | cons group rest inductionHypothesis =>
    unfold saveGroupLoop
    split
    · have data := storage_write_ram type group.offset (window pmm.sysPara group.offset)
        group.size pmm
      split
      · rename_i afterData written
        rw [written] at data
        have word := storage_write_ram type (crcWord group)
          (window afterData.sysPara (crcWord group)) 2 afterData
        split
        · rename_i afterWord stored
          rw [stored] at word
          exact keeps_ram_trans (keeps_ram_trans data word) (inductionHypothesis afterWord)
        · rename_i stored
          rw [stored] at word
          exact keeps_ram_trans data word
      · rename_i written
        rw [written] at data
        exact data
    · exact inductionHypothesis pmm

/-- Saving recalculates the checksums of the running parameters and changes
nothing else in RAM, whatever the writes report. -/
theorem para_save_ram (type : StorageType) (paraState : BitVec 32) (pmm : Pmm) :
    KeepsRam { pmm with sysPara := paraRecalculateAllCrc pmm.sysPara }
      (paraSaveToStorage type paraState pmm).2 := by
  unfold paraSaveToStorage
  simp only
  split
  · exact storage_write_ram type 0 _ _ _
  · split
    · exact storage_write_ram type 0 _ _ _
    · exact save_group_loop_ram type paraState ParaType.all _

/-- Saving keeps the data of the running parameters. -/
theorem para_save_data (type : StorageType) (paraState : BitVec 32) (pmm : Pmm) :
    SameData (paraSaveToStorage type paraState pmm).2.sysPara pmm.sysPara := by
  rw [(para_save_ram type paraState pmm).sysPara]
  exact recalculate_data pmm.sysPara

/-- Assigning the magic word and a checksum word keeps all data. -/
theorem marked_data (para : Mem) (group : ParaType) (value : BitVec 16) :
    SameData (setMagic (setCrc para group value)) para := by
  intro address low high
  have bounds := crc_word_bounds group
  rw [set_magic_above _ _ low, set_crc_outside _ _ _ _ (by unfold crcOffset at *; omega)]

/-- Saving a group keeps the data of the running parameters. -/
theorem pmm_save_group_data (group : ParaType) (pmm : Pmm) :
    SameData (pmmSaveGroup group pmm).sysPara pmm.sysPara :=
  agree_trans (para_save_data .backup _ _)
    (agree_trans (para_save_data .user _ _) (marked_data pmm.sysPara group _))

/-- The repair stage keeps the data of the running parameters. -/
theorem repair_stage_data (pmm : Pmm) : SameData (repairStage pmm).sysPara pmm.sysPara := by
  have area : ∀ type before, SameData (repairArea type before).sysPara before.sysPara := by
    intro type before
    unfold repairArea
    split
    · exact para_save_data type _ before
    · exact agree_refl _ _ _
  unfold repairStage
  split
  · split
    · exact para_save_data .backup _ pmm
    · exact agree_refl _ _ _
  · exact agree_trans (area .backup _) (area .user pmm)

/-- The address stage replaces a rejected device address and keeps all other data. -/
theorem addr_stage_data (pmm : Pmm) (address : Nat) (low : 4 ≤ address)
    (high : address < crcOffset) :
    (addrStage pmm).sysPara address =
      if address = devAddr ∧ addrRejected pmm.sysPara = true then sysDefPara devAddr
      else pmm.sysPara address := by
  unfold addrStage
  by_cases rejected : addrRejected pmm.sysPara = true
  · rw [if_pos rejected,
      pmm_save_group_data .dev _ address low (by unfold crcOffset at *; omega)]
    by_cases here : address = devAddr
    · subst here
      rw [if_pos ⟨rfl, rejected⟩]
      exact overlay_inside pmm.sysPara (window sysDefPara devAddr) devAddr 1 devAddr (by omega)
        (by omega)
    · rw [if_neg (fun both => here both.1)]
      exact overlay_outside _ _ _ _ _ (by omega)
  · rw [if_neg rejected, if_neg (fun both => rejected both.2)]

/-- The address check reads one byte. -/
theorem addr_rejected_congr {left right : Mem} (same : left devAddr = right devAddr) :
    addrRejected left = addrRejected right := by
  rw [addrRejected, addrRejected, same]

/-- The device group owns the device address. -/
theorem owns_dev_addr : Owns .dev devAddr := by decide

/-- The data of the running parameters after a start, byte by byte. -/
theorem para_init_data (reads : StorageType → ReadOutcome) (pmm : Pmm) (group : ParaType)
    (address : Nat) (low : group.offset ≤ address) (high : address < group.offset + group.size) :
    (paraInit reads pmm).sysPara address =
      if address = devAddr ∧ addrRejected (sourcePara reads pmm.chips .dev) = true
      then sysDefPara devAddr else sourcePara reads pmm.chips group address := by
  have loaded := load_areas_effect reads pmm
  have bounds := group_bounds group
  have repaired := repair_stage_data (loadAreas reads pmm)
  have sameAddr : (repairStage (loadAreas reads pmm)).sysPara devAddr =
      sourcePara reads pmm.chips .dev devAddr :=
    (repaired devAddr (by decide) (by decide)).trans
      (loaded.bytes .dev devAddr owns_dev_addr)
  have kept : (repairStage (loadAreas reads pmm)).sysPara address =
      sourcePara reads pmm.chips group address :=
    (repaired address (by omega) (by unfold crcOffset at *; omega)).trans
      (loaded.bytes group address (owns_data low high))
  rw [paraInit, addr_stage_data _ address (by omega) (by omega), addr_rejected_congr sameAddr, kept]

/-- The structure a group is taken from depends on that group's own bytes, the
magic words and the reads only. -/
theorem source_para_congr (reads other : StorageType → ReadOutcome) (chips altered : Chips)
    (group : ParaType) (sameReads : ∀ type, reads type = .delivered ↔ other type = .delivered)
    (sameMagic : ∀ type, magicOf (chips.area type) = paramMagic ↔
      magicOf (altered.area type) = paramMagic)
    (sameBytes : ∀ type address, Owns group address →
      chips.area type address = altered.area type address)
    (address : Nat) (owned : Owns group address) :
    sourcePara reads chips group address = sourcePara other altered group address := by
  have same : ∀ type, qualifies (reads type) (chips.area type) group =
      qualifies (other type) (altered.area type) group := by
    intro type
    simp only [qualifies, sameReads type, sameMagic type, group_valid_congr (sameBytes type)]
  have areas : sourceArea reads chips group = sourceArea other altered group := by
    simp only [sourceArea, same]
  rw [sourcePara, sourcePara, areas]
  cases sourceArea other altered group with
  | none => rfl
  | some type => exact sameBytes type address owned

/-- After `para_init` every group is, byte for byte, that group as stored in the
first area, in the order user, backup, factory, whose read delivered, whose
magic word is right and whose checksum word matches, and the default group when
no area qualifies; only a device address outside its limits is replaced by the
default one. Changing the validity or the contents of other groups, in any area,
does not change the result for this one. -/
theorem para_init_loads_first_valid_area (reads : StorageType → ReadOutcome) (pmm : Pmm)
    (group : ParaType) :
    (∀ address, group.offset ≤ address → address < group.offset + group.size →
      (paraInit reads pmm).sysPara address =
        if address = devAddr ∧ addrRejected (sourcePara reads pmm.chips .dev) = true
        then sysDefPara devAddr else sourcePara reads pmm.chips group address) ∧
    ∀ (other : StorageType → ReadOutcome) (altered : Pmm),
      (∀ type, reads type = .delivered ↔ other type = .delivered) →
      (∀ type, magicOf (pmm.chips.area type) = paramMagic ↔
        magicOf (altered.chips.area type) = paramMagic) →
      (∀ type address, Owns group address →
        pmm.chips.area type address = altered.chips.area type address) →
      SameGroup (paraInit reads pmm).sysPara (paraInit other altered).sysPara group := by
  refine ⟨para_init_data reads pmm group, ?_⟩
  intro other altered sameReads sameMagic sameBytes address low high
  have same := source_para_congr reads other pmm.chips altered.chips group sameReads sameMagic
    sameBytes
  rw [para_init_data reads pmm group address low high,
    para_init_data other altered group address low high, same address (owns_data low high)]
  by_cases here : address = devAddr
  · subst here
    have device : group = .dev := owner_unique group .dev devAddr (owns_data low high) owns_dev_addr
    subst device
    rw [addr_rejected_congr (same devAddr owns_dev_addr)]
  · simp [here]

/-- With all areas erased the device name is the default one, and an altered
backup area changes nothing in the port group as long as its own bytes stay. -/
theorem para_init_erased_defaults :
    let erasedChips : Chips := ⟨fun _ => 255, fun _ => 255⟩
    let alteredChips : Chips := ⟨fun _ => 255, fun address => if address = 1000 then 7 else 255⟩
    let reads : StorageType → ReadOutcome := fun _ => .delivered
    (paraInit reads (Pmm.powerUp erasedChips)).sysPara 5 = 0x4C ∧
      SameGroup (paraInit reads (Pmm.powerUp erasedChips)).sysPara
        (paraInit reads (Pmm.powerUp alteredChips)).sysPara .port := by
  intro erasedChips alteredChips reads
  have wrongMagic : ∀ type, magicOf (erasedChips.area type) ≠ paramMagic := by
    intro type
    cases type <;> decide
  have alteredMagic : ∀ type, magicOf (alteredChips.area type) ≠ paramMagic := by
    intro type
    cases type <;> decide
  have default : sourcePara reads erasedChips .dev = sysDefPara := by
    simp [sourcePara, sourceArea, List.find?, qualifies, wrongMagic]
  have bytes := (para_init_loads_first_valid_area reads (Pmm.powerUp erasedChips) .dev).1 5
    (by decide) (by decide)
  have groups := (para_init_loads_first_valid_area reads (Pmm.powerUp erasedChips) .port).2 reads
    (Pmm.powerUp alteredChips) (fun _ => Iff.rfl)
  refine ⟨?_, groups ?_ ?_⟩
  · rw [bytes, if_neg (fun both => absurd both.1 (by decide))]
    change sourcePara reads erasedChips .dev 5 = _
    rw [default]
    decide
  · intro type
    exact iff_of_false (wrongMagic type) (alteredMagic type)
  · intro type address owned
    have bounds : address < 1000 ∨ 1001 ≤ address := by
      have data : ParaType.port.offset + ParaType.port.size ≤ 1000 := by decide
      have word : 1001 ≤ crcWord .port := by decide
      rcases owned with held | held
      · omega
      · omega
    cases type with
    | user => rfl
    | factory => rfl
    | backup =>
      have other : StorageType.address .backup + address ≠ 1000 := by
        change 0 + address ≠ 1000
        omega
      change (255 : Byte) = if StorageType.address .backup + address = 1000 then 7 else 255
      rw [if_neg other]

end Pyrometer.ParameterLoading
