import Pyrometer.BootInstaller

/-!
# What an installation leaves, and what a power cut leaves of it

On a flash that refuses nothing the installer performs a fixed list of
operations, so a power cut leaves the replay of a prefix of it. For an image that
fits into the application area the list never touches the record or the staged
image before the record is rewritten; a cut before that is followed by the same
installation, and a completed one by none.

The copy drops what is left of the image after its last whole word, and the
checksum masks that word the other way round: of `n` remaining bytes it keeps the
last `n` bytes of the word. `TailSafe` is the exact condition under which a
reported success means that the image arrived.
-/

namespace Pyrometer.BootInstallation

open ByteMemory Checksums NorFlash FlashController FirmwareInfo BootInstaller

/-- The image fits into the application area. -/
def Fits (flash : Mem) : Prop := imageBytes flash ≤ appAreaSize

/-- The staged image, by offset. -/
def staged (flash : Mem) : Mem := window flash fwDataAddr

/-- Offset of the first byte after the whole words of the image. -/
def tailStart (flash : Mem) : Nat := 4 * (imageBytes flash / 4)

/-- The bytes of the last word that the checksum looks at are all erased ones. -/
def TailUnseen (flash : Mem) : Prop :=
  ∀ index, 4 - imageBytes flash % 4 ≤ index → index < 4 →
    staged flash (tailStart flash + index) = erased

/-- When the checksum cannot tell the dropped bytes from erased ones, they are
erased ones. -/
def TailSafe (flash : Mem) : Prop :=
  TailUnseen flash → ∀ index, index < imageBytes flash % 4 →
    staged flash (tailStart flash + index) = erased

/-- One boot on a flash that refuses nothing. -/
def boot (flash : Mem) : Outcome × Device := upgrade (Device.healthy flash)

/-- The flash after a power cut that lets through the first operations of a boot. -/
def cutFlash (flash : Mem) (operations : Nat) : Mem :=
  replay flash ((boot flash).2.log.take operations)

/-- The cut came before the record was rewritten. -/
def BeforeRewrite (flash : Mem) (operations : Nat) : Prop :=
  ∀ op ∈ (boot flash).2.log.take operations, ∀ address, InInfoPage address → ¬Touches op address

/-- What an installation promises: nothing is erased or programmed unless the
checks pass; a reported success means that the application is the staged image; a
cut before the record is rewritten is followed by the same operations, with the
same end and the same contents; a completed installation is not repeated. -/
structure InstallsCorrectly (flash : Mem) : Prop where
  checked : ∀ fmc : Device, fmc.mem = flash → performed fmc ≠ [] → Accepted flash
  arrived : (boot flash).1 = .upgraded →
    Agree (window (boot flash).2.mem appEntryAddr) (staged flash) 0 (imageBytes flash)
  resumed : ∀ operations, BeforeRewrite flash operations →
    (boot (cutFlash flash operations)).1 = (boot flash).1 ∧
      (boot (cutFlash flash operations)).2.log = (boot flash).2.log ∧
      (boot (cutFlash flash operations)).2.mem = (boot flash).2.mem
  retired : (boot flash).1 = .upgraded →
    (boot (boot flash).2.mem).1 = .notUpgraded ∧ (boot (boot flash).2.mem).2.log = []

/-- Erase of the application and copy of the whole words, in order. -/
def installPlan (flash : Mem) : List Op :=
  appErases ++ programUnits appEntryAddr (staged flash) 4 (imageBytes flash / 4)

/-- Rewriting the record with a finished status. -/
def retirePlan (flash : Mem) : List Op :=
  writePlan fwInfoAddr sizeofFwInfo
    (ofList { storedInfo flash with status := ugStateFinished }.bytes)

/-- The copy passes the check of the application. -/
def Verified (flash : Mem) : Prop :=
  calculateCrc32 (window (replay flash (installPlan flash)) appEntryAddr)
    (asInt (storedInfo flash).imgSize) .big = (storedInfo flash).imgCrc32

/-- An installation that fits stays inside the application area. -/
theorem install_plan_touch {flash : Mem} (fits : Fits flash) {op : Op}
    (member : op ∈ installPlan flash) {address : Nat} (touches : Touches op address) :
    InApp address := by
  rw [installPlan, List.mem_append] at member
  rcases member with erase | program
  · exact app_erases_touch erase touches
  · obtain ⟨low, high⟩ := program_units_touch program touches
    have size : imageBytes flash ≤ appAreaSize := fits
    exact ⟨low, by omega⟩

/-- Operations of the plan leave every other address alone. -/
theorem install_outside {flash memory : Mem} (fits : Fits flash) {history : List Op}
    (planned : ∀ op ∈ history, op ∈ installPlan flash) {address : Nat}
    (outside : ¬InApp address) : replay memory history address = memory address := by
  apply replay_untouched
  intro op member touches
  exact outside (install_plan_touch fits (planned op member) touches)

/-- The record does not lie in the application area. -/
theorem record_outside (offset : Nat) (inside : offset < sizeofFwInfo) :
    ¬InApp (fwInfoAddr + offset) := by
  have below : fwInfoAddr + sizeofFwInfo ≤ appEntryAddr := by decide
  rintro ⟨low, _⟩
  omega

/-- The application area after the whole plan, whatever it held before: the whole
words of the image, then erased cells. -/
theorem app_contents (flash memory : Mem) (offset : Nat) (inside : offset < appAreaSize) :
    replay memory (installPlan flash) (appEntryAddr + offset) =
      if offset < tailStart flash then staged flash offset else erased := by
  have app : InApp (appEntryAddr + offset) := ⟨Nat.le_add_right _ _, by omega⟩
  rw [installPlan, replay_append, replay_program_units, app_erases_cover memory app, erased_and,
    Nat.add_sub_cancel_left]
  have same : (appEntryAddr ≤ appEntryAddr + offset ∧
      appEntryAddr + offset < appEntryAddr + 4 * (imageBytes flash / 4)) ↔
        offset < tailStart flash := by
    unfold tailStart
    omega
  simp only [same]

/-- On a device that refuses nothing, an image that fits is installed by the plan. -/
theorem update_app_sound (fmc : Device) (sound : fmc.Sound) (fits : Fits fmc.mem) :
    updateApp (storedInfo fmc.mem).imgSize fmc = fmc.perform (installPlan fmc.mem) := by
  have size : (storedInfo fmc.mem).imgSize.toNat ≤ appAreaSize := fits
  have apart : appEntryAddr + appAreaSize ≤ fwDataAddr := by decide
  have below : fwDataAddr + appAreaSize < 2 ^ 32 := by decide
  have source : window (fmc.perform appErases).mem fwDataAddr = staged fmc.mem := by
    funext offset
    apply replay_untouched
    intro op member touches
    exact staged_outside offset (app_erases_touch member touches)
  rw [update_app_erases _ fmc sound, copy_loop_sound _ _ _ _ _ _ (Device.perform_sound sound _)
    (chunk_count_covers _) (by omega) (by omega), source, ← Device.perform_append]
  rfl

/-- A verified installation ends with the record rewritten. -/
theorem boot_verified {flash : Mem} (accepted : Accepted flash) (fits : Fits flash)
    (verified : Verified flash) :
    boot flash = (.upgraded, (Device.healthy flash).perform
      (installPlan flash ++ retirePlan flash)) := by
  have sound := Device.healthy_sound flash
  have checked : calculateCrc32
      (window ((Device.healthy flash).perform (installPlan flash)).mem appEntryAddr)
      (asInt (storedInfo flash).imgSize) .big = (storedInfo flash).imgCrc32 := verified
  have same : (Device.healthy flash).mem = flash := rfl
  rw [boot, upgrade_accepted (Device.healthy flash) accepted,
    update_app_sound (Device.healthy flash) sound fits, same, checkApp, if_pos checked]
  dsimp only
  rw [gdf_write_data_by_page_sound _ _ _ _ (Device.perform_sound sound _)
    info_page_writable,
    Device.perform_append]
  rfl

/-- An installation that fails its check ends with a reset. -/
theorem boot_unverified {flash : Mem} (accepted : Accepted flash) (fits : Fits flash)
    (failed : ¬Verified flash) :
    boot flash = (.systemReset, (Device.healthy flash).perform (installPlan flash)) := by
  have sound := Device.healthy_sound flash
  have checked : ¬calculateCrc32
      (window ((Device.healthy flash).perform (installPlan flash)).mem appEntryAddr)
      (asInt (storedInfo flash).imgSize) .big = (storedInfo flash).imgCrc32 := failed
  have same : (Device.healthy flash).mem = flash := rfl
  rw [boot, upgrade_accepted (Device.healthy flash) accepted,
    update_app_sound (Device.healthy flash) sound fits, same, checkApp, if_neg checked]

/-- A reported success is a verified installation. -/
theorem upgraded_verified {flash : Mem} (accepted : Accepted flash) (fits : Fits flash)
    (success : (boot flash).1 = .upgraded) : Verified flash := by
  by_contra failed
  rw [boot_unverified accepted fits failed] at success
  exact Outcome.noConfusion success

/-- Without a job a boot does nothing. -/
theorem boot_rejected {flash : Mem} (rejected : ¬Accepted flash) :
    boot flash = (.notUpgraded, Device.healthy flash) :=
  upgrade_rejected (Device.healthy flash) rejected

/-- The installation is verified exactly when the checksum sees no byte of the
remainder that is not an erased one. -/
theorem verified_iff {flash : Mem} (accepted : Accepted flash) (fits : Fits flash) :
    Verified flash ↔ (imageBytes flash % 4 ≠ 0 → TailUnseen flash) := by
  have size : imageBytes flash ≤ appAreaSize := fits
  have area : appAreaSize = 196608 := by decide
  have plain : (asInt (storedInfo flash).imgSize).toNat = imageBytes flash := by
    rw [asInt, BitVec.toInt_eq_toNat_of_lt]
    · rfl
    · have bound : (storedInfo flash).imgSize.toNat = imageBytes flash := rfl
      omega
  have words : Agree (window (replay flash (installPlan flash)) appEntryAddr) (staged flash) 0
      (4 * ((asInt (storedInfo flash).imgSize).toNat / 4)) := by
    intro offset _ below
    rw [plain] at below
    rw [window, app_contents flash flash offset (by omega), if_pos]
    unfold tailStart
    omega
  have tail : imageBytes flash % 4 ≠ 0 → ∀ index, index < 4 →
      window (replay flash (installPlan flash)) appEntryAddr (tailStart flash + index) =
        erased := by
    intro partialWord index high
    have position : tailStart flash + index < appAreaSize := by
      unfold tailStart
      omega
    rw [window, app_contents flash flash _ position, if_neg (by omega)]
  have start : 4 * (imageBytes flash / 4) = tailStart flash := rfl
  rw [Verified, ← accepted.image]
  refine (calculate_crc32_tail_iff _ (staged flash) _ .big words).trans ?_
  rw [plain, start]
  constructor
  · intro same partialWord index low high
    have kept := (tail_mask_iff _ _ _ _ (by omega) (by omega)).mp (same partialWord) index low high
    exact kept.symm.trans (tail partialWord index high)
  · intro unseen partialWord
    rw [tail_mask_iff _ _ _ _ (by omega) (by omega)]
    intro index low high
    exact (tail partialWord index high).trans (unseen partialWord index low high).symm

/-- What a reported success says of the application, exactly. -/
theorem arrived_iff {flash : Mem} (accepted : Accepted flash) (fits : Fits flash) :
    ((boot flash).1 = .upgraded →
        Agree (window (boot flash).2.mem appEntryAddr) (staged flash) 0 (imageBytes flash)) ↔
      TailSafe flash := by
  have size : imageBytes flash ≤ appAreaSize := fits
  have split : tailStart flash + imageBytes flash % 4 = imageBytes flash := by
    unfold tailStart
    omega
  have contents : Verified flash → ∀ offset, offset < imageBytes flash →
      window (boot flash).2.mem appEntryAddr offset =
        if offset < tailStart flash then staged flash offset else erased := by
    intro verified offset inside
    have record : fwInfoAddr + sizeofFwInfo ≤ appEntryAddr := by decide
    have page : fwInfoAddr + fmcPageSize * pageCount sizeofFwInfo ≤ appEntryAddr := by decide
    rw [boot_verified accepted fits verified]
    dsimp only
    rw [window, Device.perform_mem, replay_append, retirePlan, write_plan_contents,
      if_neg (by omega), if_neg (by omega)]
    exact app_contents flash flash offset (by omega)
  constructor
  · intro arrived unseen index inside
    have verified := (verified_iff accepted fits).mpr (fun _ => unseen)
    have success : (boot flash).1 = .upgraded := by rw [boot_verified accepted fits verified]
    have cell := arrived success (tailStart flash + index) (Nat.zero_le _) (by omega)
    rw [contents verified _ (by omega), if_neg (by omega)] at cell
    exact cell.symm
  · intro safe success
    have verified := upgraded_verified accepted fits success
    intro offset _ inside
    rw [Nat.zero_add] at inside
    rw [contents verified offset inside]
    split
    · rfl
    · have unseen := (verified_iff accepted fits).mp verified (by omega)
      have cell := safe unseen (offset - tailStart flash) (by omega)
      have position : tailStart flash + (offset - tailStart flash) = offset := by omega
      rw [position] at cell
      exact cell.symm

/-- A cut before the record is rewritten leaves a prefix of the installation. -/
theorem cut_flash_prefix {flash : Mem} (accepted : Accepted flash) (fits : Fits flash)
    (operations : Nat) (before : BeforeRewrite flash operations) :
    ∃ count, cutFlash flash operations = replay flash ((installPlan flash).take count) := by
  by_cases verified : Verified flash
  · have log : (boot flash).2.log = installPlan flash ++ retirePlan flash := by
      rw [boot_verified accepted fits verified]
      exact List.nil_append _
    rcases Nat.lt_or_ge (installPlan flash).length operations with late | early
    · have retire : retirePlan flash =
          .erase (fwInfoAddr + fmcPageSize * 0) fmcPageSize :: (retirePlan flash).tail := rfl
      obtain ⟨extra, reached⟩ := Nat.exists_eq_add_of_lt late
      have member : .erase (fwInfoAddr + fmcPageSize * 0) fmcPageSize ∈
          (boot flash).2.log.take operations := by
        rw [log, List.take_append, retire, reached]
        apply List.mem_append_right
        have more : (installPlan flash).length + extra + 1 - (installPlan flash).length =
            extra + 1 := by omega
        rw [more, List.take_succ_cons]
        exact List.mem_cons_self
      have page : fwInfoAddr < fwInfoAddr + fmcPageSize := by decide
      exact absurd ⟨Nat.le_refl _, page⟩
        (before _ member fwInfoAddr ⟨Nat.le_refl _, page⟩)
    · refine ⟨operations, ?_⟩
      rw [cutFlash, log, List.take_append_of_le_length early]
  · refine ⟨operations, ?_⟩
    have log : (boot flash).2.log = installPlan flash := by
      rw [boot_unverified accepted fits verified]
      exact List.nil_append _
    rw [cutFlash, log]

/-- The whole plan after a part of it leaves what the plan alone leaves. -/
theorem replay_after_cut {flash : Mem} (fits : Fits flash) (count : Nat) :
    replay (replay flash ((installPlan flash).take count)) (installPlan flash) =
      replay flash (installPlan flash) := by
  funext address
  by_cases app : InApp address
  · obtain ⟨offset, rfl⟩ := Nat.exists_eq_add_of_le app.1
    have inside : offset < appAreaSize := by
      have high := app.2
      omega
    rw [app_contents flash _ offset inside, app_contents flash _ offset inside]
  · rw [install_outside fits (fun _ member => member) app,
      install_outside fits (fun _ member => List.mem_of_mem_take member) app,
      install_outside fits (fun _ member => member) app]

/-- After a cut before the record is rewritten the next boot installs again: the
same operations, the same end, the same contents. -/
theorem boot_resumes {flash : Mem} (accepted : Accepted flash) (fits : Fits flash)
    (operations : Nat) (before : BeforeRewrite flash operations) :
    (boot (cutFlash flash operations)).1 = (boot flash).1 ∧
      (boot (cutFlash flash operations)).2.log = (boot flash).2.log ∧
      (boot (cutFlash flash operations)).2.mem = (boot flash).2.mem := by
  obtain ⟨count, cut⟩ := cut_flash_prefix accepted fits operations before
  have outside : ∀ address, ¬InApp address → cutFlash flash operations address = flash address := by
    intro address away
    rw [cut]
    exact install_outside fits (fun _ member => List.mem_of_mem_take member) away
  have source : staged (cutFlash flash operations) = staged flash := by
    funext offset
    exact outside _ (staged_outside offset)
  have record : Agree (window flash fwInfoAddr) (window (cutFlash flash operations) fwInfoAddr) 0
      sizeofFwInfo := by
    intro offset _ inside
    rw [Nat.zero_add] at inside
    exact (outside _ (record_outside offset inside)).symm
  obtain ⟨again, info⟩ := accepted_congr record source.symm accepted
  have size : imageBytes (cutFlash flash operations) = imageBytes flash := by
    rw [imageBytes, imageBytes, info]
  have plan : installPlan (cutFlash flash operations) = installPlan flash := by
    rw [installPlan, installPlan, source, size]
  have retire : retirePlan (cutFlash flash operations) = retirePlan flash := by
    rw [retirePlan, retirePlan, info]
  have fitsAgain : Fits (cutFlash flash operations) := by
    rw [Fits, size]
    exact fits
  have contents : replay (cutFlash flash operations) (installPlan flash) =
      replay flash (installPlan flash) := by
    rw [cut]
    exact replay_after_cut fits count
  have check : Verified (cutFlash flash operations) ↔ Verified flash := by
    rw [Verified, Verified, plan, contents, info]
  by_cases verified : Verified flash
  · rw [boot_verified accepted fits verified,
      boot_verified again fitsAgain (check.mpr verified), plan, retire]
    refine ⟨rfl, rfl, ?_⟩
    dsimp only
    rw [Device.perform_mem, Device.perform_mem, replay_append, replay_append]
    exact congrArg (fun memory => replay memory (retirePlan flash)) contents
  · rw [boot_unverified accepted fits verified,
      boot_unverified again fitsAgain (fun passed => verified (check.mp passed)), plan]
    exact ⟨rfl, rfl, contents⟩

/-- A completed installation is not repeated: its record is finished. -/
theorem boot_retires {flash : Mem} (accepted : Accepted flash) (fits : Fits flash)
    (success : (boot flash).1 = .upgraded) : ¬Accepted (boot flash).2.mem := by
  have verified := upgraded_verified accepted fits success
  have status : (storedInfo (boot flash).2.mem).status = ugStateFinished := by
    have byte : (boot flash).2.mem (fwInfoAddr + 15) = ugStateFinished := by
      rw [boot_verified accepted fits verified]
      dsimp only
      have inside : fwInfoAddr ≤ fwInfoAddr + 15 ∧ fwInfoAddr + 15 < fwInfoAddr + sizeofFwInfo := by
        decide
      rw [Device.perform_mem, replay_append, retirePlan, write_plan_contents, if_pos inside,
        Nat.add_sub_cancel_left]
      rfl
    exact byte
  intro again
  have passed := again.status
  rw [status] at passed
  exact absurd passed (by decide)

/-- An installation that fits is correct exactly when its remainder is safe. -/
theorem installs_correctly_iff {flash : Mem} (accepted : Accepted flash) (fits : Fits flash) :
    InstallsCorrectly flash ↔ TailSafe flash := by
  constructor
  · intro correct
    exact (arrived_iff accepted fits).mp correct.arrived
  · intro safe
    refine ⟨fun _ _ _ => accepted, (arrived_iff accepted fits).mpr safe,
      boot_resumes accepted fits, ?_⟩
    intro success
    rw [boot_rejected (boot_retires accepted fits success)]
    exact ⟨rfl, rfl⟩

/-- Without a job nothing happens, which is correct. -/
theorem rejected_installs_correctly {flash : Mem} (rejected : ¬Accepted flash) :
    InstallsCorrectly flash := by
  have idle := boot_rejected rejected
  refine ⟨?_, ?_, ?_, ?_⟩
  · intro fmc contents acted
    by_contra _
    subst contents
    apply acted
    rw [performed, upgrade_rejected fmc rejected]
    exact List.drop_length
  · intro success
    rw [idle] at success
    exact Outcome.noConfusion success
  · intro operations _
    have same : cutFlash flash operations = flash := by
      rw [cutFlash, idle]
      have empty : (Device.healthy flash).log.take operations = [] := List.take_nil
      dsimp only
      rw [empty]
      rfl
    rw [same]
    exact ⟨rfl, rfl, rfl⟩
  · intro success
    rw [idle] at success
    exact Outcome.noConfusion success

/-- Boot installation for every flash content: it is correct, across every power
cut, when an accepted image fits into the application area and its remainder is
safe; and an accepted image that fits is installed correctly only if its remainder
is safe. -/
theorem boot_installs_correctly (flash : Mem) :
    ((Accepted flash → Fits flash ∧ TailSafe flash) → InstallsCorrectly flash) ∧
      (InstallsCorrectly flash → Accepted flash → Fits flash → TailSafe flash) := by
  constructor
  · intro condition
    by_cases accepted : Accepted flash
    · obtain ⟨fits, safe⟩ := condition accepted
      exact (installs_correctly_iff accepted fits).mpr safe
    · exact rejected_installs_correctly accepted
  · intro correct accepted fits
    exact (installs_correctly_iff accepted fits).mp correct

/-- The record of a staged image of one byte that passed its checks. -/
def byteInfo : FwInfo :=
  let info := { FwInfo.cleared with
    imgSize := 1
    imgCrc32 := calculateCrc32 (ofList [7, erased, erased, erased]) 1 .big
    status := ugStateCheckPass }
  { info with crc32 := infoCrc (ofList info.bytes) }

/-- A flash that is erased but for this record and the staged byte. -/
def byteFlash : Mem :=
  overlay (overlay (fun _ => erased) (ofList [7]) fwDataAddr 1) (ofList byteInfo.bytes) fwInfoAddr
    sizeofFwInfo

/-- The bootloader reports success and has installed nothing of this image. -/
theorem byte_image_not_installed : ¬InstallsCorrectly byteFlash := by
  intro correct
  have success : (boot byteFlash).1 = .upgraded := by decide +kernel
  have first := correct.arrived success 0 (Nat.le_refl 0) (by decide)
  exact absurd first (by decide +kernel)

end Pyrometer.BootInstallation
