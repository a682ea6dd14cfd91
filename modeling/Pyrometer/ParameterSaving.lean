import Pyrometer.ParameterLoading

/-!
# Saving the parameters to working chips

On chips that refuse nothing, `para_save_to_storage` performs a fixed list of
elementary writes. A save to flash rewrites the whole page; a partial save to
the EEPROM writes each selected group and then its checksum word. The list is
also the history a power cut interrupts.
-/

namespace Pyrometer.ParameterSaving

open ByteMemory NorFlash FlashController EepromStorage BitMasks ParameterLayout ParameterManager
open ParameterChecks ParameterLoading

/-- The page transfers of a partial save, in the order of the group loop. -/
def groupPlan (para : Mem) (paraState : BitVec 32) (groups : List ParaType) : List PageWrite :=
  groups.flatMap (fun group =>
    if hasBit paraState group.index then
      pagePlan group.offset (window para group.offset) group.size ++
        pagePlan (crcWord group) (window para (crcWord group)) 2
    else [])

/-- The elementary writes of one save. -/
def areaPlan (type : StorageType) (paraState : BitVec 32) (para : Mem) : List Write :=
  match type.media with
  | .intFlash => (writePlan type.address sizeofSysPara para).map .flash
  | .extEeprom =>
      if paraState &&& groupMask = groupMask then (pagePlan 0 para sizeofSysPara).map .page
      else (groupPlan para paraState ParaType.all).map .page

/-- Flash operations act on the flash contents only. -/
theorem replay_flash (chips : Chips) (ops : List Op) :
    chips.replay (ops.map .flash) = { chips with flash := NorFlash.replay chips.flash ops } := by
  induction ops generalizing chips with
  | nil => rfl
  | cons op rest inductionHypothesis =>
    exact inductionHypothesis (chips.apply (.flash op))

/-- Page transfers act on the EEPROM cells only. -/
theorem replay_pages (chips : Chips) (pages : List PageWrite) :
    chips.replay (pages.map .page) = { chips with cells := storePages chips.cells pages } := by
  induction pages generalizing chips with
  | nil => rfl
  | cons page rest inductionHypothesis =>
    exact inductionHypothesis (chips.apply (.page page))

/-- A concatenated history is replayed in two parts. -/
theorem chips_replay_append (chips : Chips) (first second : List Write) :
    chips.replay (first ++ second) = (chips.replay first).replay second := by
  simp [Chips.replay, List.foldl_append]

/-- The user and factory pages can be written. -/
theorem flash_area_writable (type : StorageType) (inFlash : type.media = .intFlash) :
    Writable (type.address + 0) sizeofSysPara := by
  cases type with
  | user => exact ⟨by decide, by decide, by decide⟩
  | backup => exact absurd inFlash (by decide)
  | factory => exact ⟨by decide, by decide, by decide⟩

/-- The effect of writes that were all performed. -/
structure WriteEffect (history : List Write) (before after : Pmm) : Prop where
  ram : KeepsRam before after
  chips : after.chips = before.chips.replay history
  trace : after.trace = before.trace ++ history
  sound : after.Sound

/-- Two performed histories are performed in turn. -/
theorem write_effect_trans {first second : List Write} {start middle finish : Pmm}
    (left : WriteEffect first start middle) (right : WriteEffect second middle finish) :
    WriteEffect (first ++ second) start finish :=
  ⟨keeps_ram_trans left.ram right.ram,
    by rw [right.chips, left.chips, chips_replay_append],
    by rw [right.trace, left.trace, List.append_assoc], right.sound⟩

/-- A whole write to a flash area performs its plan. -/
theorem storage_write_flash (type : StorageType) (buff : Mem) (pmm : Pmm) (sound : pmm.Sound)
    (inFlash : type.media = .intFlash) :
    ∃ after, storageWrite type 0 buff sizeofSysPara pmm = (0, after) ∧
      WriteEffect ((writePlan type.address sizeofSysPara buff).map .flash) pmm after := by
  have written := flash_write_sound (type.address + 0) sizeofSysPara buff pmm.fmc sound.1
    (flash_area_writable type inFlash)
  rw [Nat.add_zero] at written
  refine ⟨{ pmm with
      fmc := pmm.fmc.perform (writePlan type.address sizeofSysPara buff)
      trace := pmm.trace ++ (writePlan type.address sizeofSysPara buff).map .flash },
    ?_, ⟨⟨rfl, rfl, rfl, rfl⟩, ?_, rfl, ⟨Device.perform_sound sound.1 _, sound.2⟩⟩⟩
  · simp only [storageWrite, inFlash, Nat.add_zero, written, Device.perform_log,
      List.drop_left]
  · rw [replay_flash]
    simp only [Pmm.chips, Device.perform_mem]

/-- A write to the backup area performs its page plan. -/
theorem storage_write_backup (offset : Nat) (buff : Mem) (len : Nat) (pmm : Pmm)
    (sound : pmm.Sound) (nonempty : 0 < len) (inside : offset + len ≤ sizeofSysPara) :
    ∃ after, storageWrite .backup offset buff len pmm = (0, after) ∧
      WriteEffect ((pagePlan offset buff len).map .page) pmm after := by
  have small : sizeofSysPara ≤ 2 ^ 16 := by decide
  have start : StorageType.address .backup + offset = offset := Nat.zero_add offset
  have written := eeprom_write_lock_sound offset buff len pmm.eeprom sound.2 nonempty
    (inside.trans small)
  refine ⟨{ pmm with
      eeprom := { pmm.eeprom with locks := pmm.eeprom.locks + 1 }.perform
        (pagePlan offset buff len)
      trace := pmm.trace ++ (pagePlan offset buff len).map .page },
    ?_, ⟨⟨rfl, rfl, rfl, rfl⟩, ?_, rfl, ⟨sound.1, sound.2⟩⟩⟩
  · simp only [storageWrite, StorageType.media, start, written, Eeprom.perform, List.drop_left]
  · rw [replay_pages]
    rfl

/-- The group loop performs its plan. Induct on the listed groups; RAM does not
change, so every group is written from the same parameters. -/
theorem save_group_loop_sound (paraState : BitVec 32) (groups : List ParaType) (pmm : Pmm)
    (sound : pmm.Sound) :
    ∃ after, saveGroupLoop .backup paraState groups pmm = (0, after) ∧
      WriteEffect ((groupPlan pmm.sysPara paraState groups).map .page) pmm after := by
  induction groups generalizing pmm with
  | nil =>
    exact ⟨pmm, rfl, ⟨⟨rfl, rfl, rfl, rfl⟩, rfl, (List.append_nil _).symm, sound⟩⟩
  | cons group rest inductionHypothesis =>
    have dataBounds := group_bounds group
    have wordBounds := crc_word_bounds group
    by_cases chosen : hasBit paraState group.index = true
    · obtain ⟨afterData, dataCall, dataEffect⟩ := storage_write_backup group.offset
        (window pmm.sysPara group.offset) group.size pmm sound dataBounds.2.1 (by omega)
      obtain ⟨afterWord, wordCall, wordEffect⟩ := storage_write_backup (crcWord group)
        (window afterData.sysPara (crcWord group)) 2 afterData dataEffect.sound (by omega)
        (by omega)
      obtain ⟨after, restCall, restEffect⟩ := inductionHypothesis afterWord wordEffect.sound
      have kept : afterWord.sysPara = pmm.sysPara :=
        (keeps_ram_trans dataEffect.ram wordEffect.ram).sysPara
      refine ⟨after, ?_, ?_⟩
      · simp only [saveGroupLoop, chosen, if_true, dataCall, wordCall, restCall]
      · have plan : groupPlan pmm.sysPara paraState (group :: rest) =
            pagePlan group.offset (window pmm.sysPara group.offset) group.size ++
              pagePlan (crcWord group) (window pmm.sysPara (crcWord group)) 2 ++
              groupPlan pmm.sysPara paraState rest := by
          simp [groupPlan, chosen]
        rw [dataEffect.ram.sysPara] at wordEffect
        rw [kept] at restEffect
        rw [plan, List.map_append, List.map_append]
        exact write_effect_trans (write_effect_trans dataEffect wordEffect) restEffect
    · obtain ⟨after, restCall, restEffect⟩ := inductionHypothesis pmm sound
      refine ⟨after, ?_, ?_⟩
      · simp only [saveGroupLoop, chosen, if_false, restCall, Bool.false_eq_true]
      · have plan : groupPlan pmm.sysPara paraState (group :: rest) =
            groupPlan pmm.sysPara paraState rest := by
          simp [groupPlan, chosen]
        rw [plan]
        exact restEffect

/-- A save succeeds, performs its plan on the recalculated parameters, and keeps
the rest of RAM. -/
theorem para_save_sound (type : StorageType) (paraState : BitVec 32) (pmm : Pmm)
    (sound : pmm.Sound) :
    ∃ after, paraSaveToStorage type paraState pmm = (0, after) ∧
      WriteEffect (areaPlan type paraState (paraRecalculateAllCrc pmm.sysPara))
        { pmm with sysPara := paraRecalculateAllCrc pmm.sysPara } after := by
  have ready : Pmm.Sound { pmm with sysPara := paraRecalculateAllCrc pmm.sysPara } := sound
  have flashCase : type.media = .intFlash →
      ∃ after, paraSaveToStorage type paraState pmm = (0, after) ∧
        WriteEffect (areaPlan type paraState (paraRecalculateAllCrc pmm.sysPara))
          { pmm with sysPara := paraRecalculateAllCrc pmm.sysPara } after := by
    intro inFlash
    obtain ⟨after, call, effect⟩ := storage_write_flash type (paraRecalculateAllCrc pmm.sysPara)
      { pmm with sysPara := paraRecalculateAllCrc pmm.sysPara } ready inFlash
    refine ⟨after, ?_, ?_⟩
    · simp only [paraSaveToStorage, inFlash, call, ite_self]
    · simpa only [areaPlan, inFlash] using effect
  cases type with
  | user => exact flashCase rfl
  | factory => exact flashCase rfl
  | backup =>
    by_cases whole : paraState &&& groupMask = groupMask
    · obtain ⟨after, call, effect⟩ := storage_write_backup 0 (paraRecalculateAllCrc pmm.sysPara)
        sizeofSysPara { pmm with sysPara := paraRecalculateAllCrc pmm.sysPara } ready (by decide)
        (by omega)
      refine ⟨after, ?_, ?_⟩
      · simp only [paraSaveToStorage, whole, if_true, call]
      · simpa only [areaPlan, StorageType.media, whole, if_true] using effect
    · obtain ⟨after, call, effect⟩ := save_group_loop_sound paraState ParaType.all
        { pmm with sysPara := paraRecalculateAllCrc pmm.sysPara } ready
      refine ⟨after, ?_, ?_⟩
      · simp only [paraSaveToStorage, whole, if_false, StorageType.media, call]
      · simpa only [areaPlan, StorageType.media, whole, if_false] using effect

/-- Both transfers of a group store exactly the bytes the group owns. -/
theorem group_pages_contents (cells para : Mem) (group : ParaType) (address : Nat) :
    storePages cells (pagePlan group.offset (window para group.offset) group.size ++
        pagePlan (crcWord group) (window para (crcWord group)) 2) address =
      if Owns group address then para address else cells address := by
  rw [store_pages_append, page_plan_contents, page_plan_contents]
  by_cases inWord : crcWord group ≤ address ∧ address < crcWord group + 2
  · have owned : Owns group address := Or.inr inWord
    rw [if_pos owned]
    exact overlay_window_agree _ para _ _ address inWord.1 inWord.2
  · rw [overlay_outside _ _ _ _ _ (by omega)]
    by_cases inData : group.offset ≤ address ∧ address < group.offset + group.size
    · have owned : Owns group address := Or.inl inData
      rw [if_pos owned]
      exact overlay_window_agree cells para _ _ address inData.1 inData.2
    · have foreign : ¬Owns group address := by
        rintro (held | held)
        · exact inData held
        · exact inWord held
      rw [if_neg foreign]
      exact overlay_outside _ _ _ _ _ (by omega)

/-- A partial save stores exactly the bytes owned by the selected groups. Induct
on the listed groups. -/
theorem group_plan_contents (cells para : Mem) (paraState : BitVec 32) (groups : List ParaType)
    (group : ParaType) (address : Nat) (owned : Owns group address) :
    storePages cells (groupPlan para paraState groups) address =
      if group ∈ groups ∧ hasBit paraState group.index = true then para address
      else cells address := by
  induction groups generalizing cells with
  | nil => simp [groupPlan, storePages]
  | cons first rest inductionHypothesis =>
    by_cases chosen : hasBit paraState first.index = true
    · have plan : groupPlan para paraState (first :: rest) =
          (pagePlan first.offset (window para first.offset) first.size ++
            pagePlan (crcWord first) (window para (crcWord first)) 2) ++
            groupPlan para paraState rest := by
        simp [groupPlan, chosen]
      rw [plan, store_pages_append, inductionHypothesis, group_pages_contents]
      by_cases same : group = first
      · subst same
        simp [owned, chosen]
      · have foreign : ¬Owns first address :=
          fun other => same (owner_unique group first address owned other)
        simp [same, foreign]
    · have plan : groupPlan para paraState (first :: rest) = groupPlan para paraState rest := by
        simp [groupPlan, chosen]
      rw [plan, inductionHypothesis]
      by_cases same : group = first
      · subst same
        simp [chosen]
      · simp [same]

/-- A partial save leaves every byte outside the selected groups alone. -/
theorem group_plan_unowned (cells para : Mem) (paraState : BitVec 32) (groups : List ParaType)
    (address : Nat) (unowned : ∀ group, ¬Owns group address) :
    storePages cells (groupPlan para paraState groups) address = cells address := by
  induction groups generalizing cells with
  | nil => rfl
  | cons first rest inductionHypothesis =>
    by_cases chosen : hasBit paraState first.index = true
    · have plan : groupPlan para paraState (first :: rest) =
          (pagePlan first.offset (window para first.offset) first.size ++
            pagePlan (crcWord first) (window para (crcWord first)) 2) ++
            groupPlan para paraState rest := by
        simp [groupPlan, chosen]
      rw [plan, store_pages_append, inductionHypothesis, group_pages_contents,
        if_neg (unowned first)]
    · have plan : groupPlan para paraState (first :: rest) = groupPlan para paraState rest := by
        simp [groupPlan, chosen]
      rw [plan, inductionHypothesis]

/-- The backup area starts at the first cell. -/
theorem backup_area (chips : Chips) : chips.area .backup = chips.cells := by
  funext address
  exact congrArg chips.cells (Nat.zero_add address)

/-- The save rewrites the whole structure: every group is selected, or the area
is in flash. -/
def WritesWhole (type : StorageType) (paraState : BitVec 32) : Prop :=
  type.media = .intFlash ∨ paraState &&& groupMask = groupMask

/-- A whole save leaves the saved parameters in its area. -/
theorem area_plan_whole (chips : Chips) (type : StorageType) (paraState : BitVec 32) (para : Mem)
    (whole : WritesWhole type paraState) :
    Agree ((chips.replay (areaPlan type paraState para)).area type) para 0 sizeofSysPara := by
  have flashCase : type.media = .intFlash →
      Agree ((chips.replay (areaPlan type paraState para)).area type) para 0 sizeofSysPara := by
    intro inFlash address _ high
    simp only [areaPlan, inFlash, replay_flash, Chips.area, window]
    rw [write_plan_contents, if_pos (by omega)]
    congr 1
    omega
  cases type with
  | user => exact flashCase rfl
  | factory => exact flashCase rfl
  | backup =>
    rcases whole with inFlash | full
    · exact absurd inFlash (by decide)
    · have plan : areaPlan .backup paraState para = (pagePlan 0 para sizeofSysPara).map .page :=
        if_pos full
      intro address _ high
      rw [backup_area, plan, replay_pages, page_plan_contents]
      exact overlay_inside chips.cells para 0 sizeofSysPara address (by omega) high

/-- A partial save to the backup area stores the selected groups and keeps the
others and the magic word. -/
theorem area_plan_partial (chips : Chips) (paraState : BitVec 32) (para : Mem)
    (notWhole : paraState &&& groupMask ≠ groupMask) :
    (∀ group address, Owns group address →
        (chips.replay (areaPlan .backup paraState para)).area .backup address =
          if hasBit paraState group.index = true then para address
          else chips.area .backup address) ∧
      ∀ address, address < 4 →
        (chips.replay (areaPlan .backup paraState para)).area .backup address =
          chips.area .backup address := by
  have plan : areaPlan .backup paraState para =
      (groupPlan para paraState ParaType.all).map .page := if_neg notWhole
  rw [backup_area, backup_area, plan, replay_pages]
  refine ⟨?_, ?_⟩
  · intro group address owned
    have stored := group_plan_contents chips.cells para paraState ParaType.all group address owned
    simpa only [mem_all, true_and] using stored
  · intro address below
    have unowned : ∀ group, ¬Owns group address := by
      intro group owned
      have inside := owns_above owned
      omega
    exact group_plan_unowned chips.cells para paraState ParaType.all address unowned

/-- A save changes no area but its own: the flash areas are on different pages
and the backup area is in another chip. -/
theorem area_plan_frame (chips : Chips) (type other : StorageType) (paraState : BitVec 32)
    (para : Mem) (different : other ≠ type) :
    Agree ((chips.replay (areaPlan type paraState para)).area other) (chips.area other) 0
      sizeofSysPara := by
  have page : fmcPageSize * pageCount sizeofSysPara = 4096 := by decide
  have size : sizeofSysPara = 1778 := rfl
  have apart : type.media = .intFlash → other.media = .intFlash →
      type.address + 4096 ≤ other.address ∨ other.address + 4096 ≤ type.address := by
    cases type <;> cases other <;> first | exact absurd rfl different | decide
  intro address _ high
  cases medium : type.media with
  | intFlash =>
    simp only [areaPlan, medium, replay_flash, Chips.area]
    cases otherMedium : other.media with
    | intFlash =>
      have distance := apart medium otherMedium
      simp only [window]
      rw [write_plan_contents, if_neg (by omega), if_neg (by omega)]
    | extEeprom => rfl
  | extEeprom =>
    have inFlash : other.media = .intFlash := by
      cases type <;> cases other <;> first | rfl | exact absurd rfl different | cases medium
    simp only [areaPlan, medium, Chips.area, inFlash]
    split
    · rw [replay_pages]
    · rw [replay_pages]

/-- The effect of a whole save on RAM and on the three areas. -/
structure WholeSave (type : StorageType) (before after : Pmm) : Prop where
  sysPara : after.sysPara = paraRecalculateAllCrc before.sysPara
  sound : after.Sound
  written : Agree (after.chips.area type) after.sysPara 0 sizeofSysPara
  frame : ∀ other, other ≠ type →
    Agree (after.chips.area other) (before.chips.area other) 0 sizeofSysPara

/-- A whole save puts the recalculated parameters into its area. -/
theorem whole_save (type : StorageType) (paraState : BitVec 32) (pmm : Pmm) (sound : pmm.Sound)
    (whole : WritesWhole type paraState) :
    WholeSave type pmm (paraSaveToStorage type paraState pmm).2 := by
  obtain ⟨after, call, effect⟩ := para_save_sound type paraState pmm sound
  rw [call]
  refine ⟨effect.ram.sysPara, effect.sound, ?_, ?_⟩
  · rw [effect.chips, effect.ram.sysPara]
    exact area_plan_whole _ type paraState _ whole
  · intro other different
    rw [effect.chips]
    exact area_plan_frame _ type other paraState _ different

/-- The effect of a partial save of the backup area. -/
structure PartialSave (paraState : BitVec 32) (before after : Pmm) : Prop where
  sysPara : after.sysPara = paraRecalculateAllCrc before.sysPara
  sound : after.Sound
  owned : ∀ group address, Owns group address →
    after.chips.area .backup address =
      if hasBit paraState group.index = true then after.sysPara address
      else before.chips.area .backup address
  magic : ∀ address, address < 4 →
    after.chips.area .backup address = before.chips.area .backup address
  frame : ∀ other, other ≠ .backup →
    Agree (after.chips.area other) (before.chips.area other) 0 sizeofSysPara

/-- A partial save puts the selected groups into the backup area. -/
theorem partial_save (paraState : BitVec 32) (pmm : Pmm) (sound : pmm.Sound)
    (notWhole : paraState &&& groupMask ≠ groupMask) :
    PartialSave paraState pmm (paraSaveToStorage .backup paraState pmm).2 := by
  obtain ⟨after, call, effect⟩ := para_save_sound .backup paraState pmm sound
  rw [call]
  obtain ⟨owned, magic⟩ := area_plan_partial
    (Pmm.chips { pmm with sysPara := paraRecalculateAllCrc pmm.sysPara }) paraState
    (paraRecalculateAllCrc pmm.sysPara) notWhole
  refine ⟨effect.ram.sysPara, effect.sound, ?_, ?_, ?_⟩
  · intro group address held
    rw [effect.chips, effect.ram.sysPara]
    exact owned group address held
  · intro address below
    rw [effect.chips]
    exact magic address below
  · intro other different
    rw [effect.chips]
    exact area_plan_frame _ .backup other paraState _ different

/-- One group's bit does not select every group. -/
theorem bit_not_whole (group : ParaType) : bit 32 group.index &&& groupMask ≠ groupMask := by
  cases group <;> decide

/-- One group's bit selects that group. -/
theorem bit_selects (group tested : ParaType) :
    hasBit (bit 32 group.index) tested.index = decide (tested = group) := by
  rw [has_bit_get _ _ (index_inside tested), bit_get _ _ (index_inside group)]
  simp only [index_injective.eq_iff]

/-- The argument of the whole saves selects every group. -/
theorem whole_mask_whole (type : StorageType) : WritesWhole type wholeMask := Or.inr (by decide)

/-- The effect of `pmm_save_group`. -/
structure GroupSave (group : ParaType) (before after : Pmm) : Prop where
  valid : FullyValid after.sysPara
  data : SameData after.sysPara before.sysPara
  sound : after.Sound
  user : Agree (after.chips.area .user) after.sysPara 0 sizeofSysPara
  backup : ∀ tested address, Owns tested address →
    after.chips.area .backup address =
      if tested = group then after.sysPara address else before.chips.area .backup address
  magic : ∀ address, address < 4 →
    after.chips.area .backup address = before.chips.area .backup address
  factory : Agree (after.chips.area .factory) (before.chips.area .factory) 0 sizeofSysPara

/-- `pmm_save_group` on working chips: the user area becomes the running
parameters, and the backup area takes over the one group. The second save
recalculates checksums that are already right, so both areas get the same bytes. -/
theorem group_save (group : ParaType) (pmm : Pmm) (sound : pmm.Sound) :
    GroupSave group pmm (pmmSaveGroup group pmm) := by
  set marked := { pmm with
    sysPara := setMagic (setCrc pmm.sysPara group (groupCrc pmm.sysPara group)) } with markedDef
  have markedSound : marked.Sound := sound
  have user := whole_save .user (bit 32 group.index) marked markedSound (Or.inl rfl)
  set afterUser := (paraSaveToStorage .user (bit 32 group.index) marked).2 with afterUserDef
  have backup := partial_save (bit 32 group.index) afterUser user.sound (bit_not_whole group)
  have result : pmmSaveGroup group pmm =
      (paraSaveToStorage .backup (bit 32 group.index) afterUser).2 := rfl
  rw [← result] at backup
  have validUser : FullyValid afterUser.sysPara := by
    rw [user.sysPara]
    exact recalculate_valid _
  have same : Agree (pmmSaveGroup group pmm).sysPara afterUser.sysPara 0 sizeofSysPara := by
    rw [backup.sysPara]
    exact recalculate_fixed validUser
  refine ⟨?_, pmm_save_group_data group pmm, backup.sound, ?_, ?_, ?_, ?_⟩
  · rw [backup.sysPara]
    exact recalculate_valid _
  · exact agree_trans (backup.frame .user (by decide)) (agree_trans user.written (agree_symm same))
  · intro tested address owned
    have inside := owns_above owned
    rw [backup.owned tested address owned, bit_selects,
      user.frame .backup (by decide) address (by omega) (by omega)]
    simp only [decide_eq_true_eq]
    rfl
  · intro address below
    rw [backup.magic address below]
    exact user.frame .backup (by decide) address (by omega)
      (Nat.lt_of_lt_of_le below (by decide))
  · exact agree_trans (backup.frame .factory (by decide)) (user.frame .factory (by decide))

end Pyrometer.ParameterSaving
