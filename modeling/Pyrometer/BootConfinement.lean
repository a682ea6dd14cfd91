import Pyrometer.BootInstaller

/-!
# Where the bootloader writes

The number of words `upgrade` copies is the image size of the record, any 32-bit
number, and no check relates it to the application area. The staged image starts
where that area ends. Whichever operations the flash refuses, the installer stays
inside the application area and the info page exactly for images of at most 192 KB
and the up to three bytes that the word writer drops.
-/

namespace Pyrometer.BootConfinement

open ByteMemory Checksums NorFlash FlashController FirmwareInfo BootInstaller

/-- An operation that touches the application area and the info page only. -/
def Confined (op : Op) : Prop := ∀ address, Touches op address → InApp address ∨ InInfoPage address

/-- What confinement promises of every flash with these contents: if anything is
done the application area is erased first, every operation stays inside it and the
info page, and the staged image stays as it was. -/
structure StaysInside (flash : Mem) : Prop where
  erased : ∀ fmc : Device, fmc.mem = flash → fmc.Sound → performed fmc ≠ [] →
    ∀ address, InApp address → replay flash ((performed fmc).take 2) address = erased
  confined : ∀ fmc : Device, fmc.mem = flash → ∀ op ∈ performed fmc, Confined op
  preserved : ∀ fmc : Device, fmc.mem = flash →
    Agree (upgrade fmc).2.mem flash fwDataAddr (imageBytes flash)

/-- Whatever is refused, the copy programs inside the words of the image only. -/
theorem copy_loop_grows {kind : Op → Prop} (chunks imgAddr appAddr len : Nat) (buffer : Mem)
    (fmc : Device) (fits : appAddr + len < 2 ^ 32)
    (allowed : ∀ target bytes, appAddr ≤ target →
      target + bytes.length ≤ appAddr + 4 * (len / 4) → kind (.program target bytes)) :
    Device.Grows kind fmc (copyLoop chunks imgAddr appAddr len buffer fmc) := by
  induction chunks generalizing imgAddr appAddr len buffer fmc with
  | zero => exact Device.grows_refl kind fmc
  | succ chunks inductionHypothesis =>
    rw [copyLoop]
    split
    · exact Device.grows_refl kind fmc
    · have wordwise : ∀ size, size ≤ len → ∀ source, Device.Grows kind fmc
          (gdfWriteDataByWord appAddr size source fmc).2 := by
        intro size inside source
        apply program_word_loop_grows
        intro word _ high
        have plain : wrap32 (appAddr + 4 * word) = appAddr + 4 * word :=
          Nat.mod_eq_of_lt (by omega)
        rw [plain]
        apply allowed
        · omega
        · rw [to_list_length]
          omega
      dsimp only
      have chunk : sizeofBuffer = 4096 := rfl
      by_cases last : len < sizeofBuffer
      · rw [if_pos last, Nat.sub_self]
        apply Device.grows_trans (wordwise len (Nat.le_refl len) _)
        cases chunks with
        | zero => exact Device.grows_refl kind _
        | succ chunks => exact Device.grows_refl kind _
      · rw [if_neg last]
        have target : wrap32 (appAddr + sizeofBuffer) = appAddr + sizeofBuffer :=
          Nat.mod_eq_of_lt (by omega)
        rw [target]
        apply Device.grows_trans (wordwise sizeofBuffer (by omega) _)
        apply inductionHypothesis
        · omega
        · intro address bytes low high
          exact allowed address bytes (by omega) (by omega)

/-- On a device that refuses nothing every whole word of the image is programmed. -/
theorem copy_loop_reaches (chunks imgAddr appAddr len : Nat) (buffer : Mem) (fmc : Device)
    (sound : fmc.Sound) (enough : len ≤ sizeofBuffer * chunks) :
    ∃ history, copyLoop chunks imgAddr appAddr len buffer fmc = fmc.perform history ∧
      ∀ word, word < len / 4 → appAddr + 4 * word < 2 ^ 32 →
        ∃ bytes, bytes.length = 4 ∧ .program (appAddr + 4 * word) bytes ∈ history := by
  induction chunks generalizing imgAddr appAddr len buffer fmc with
  | zero =>
    refine ⟨[], (Device.perform_nil fmc).symm, fun word inside => ?_⟩
    omega
  | succ chunks inductionHypothesis =>
    rw [copyLoop]
    split
    · refine ⟨[], (Device.perform_nil fmc).symm, fun word inside => ?_⟩
      omega
    · dsimp only
      generalize sizeIs : (if len < sizeofBuffer then len else sizeofBuffer) = size
      generalize overlay buffer (window fmc.mem imgAddr) 0 size = filled
      have chunk : sizeofBuffer = 4096 := rfl
      rw [chunk] at enough sizeIs
      have bound : size ≤ len ∧ (size < len → size = 4096) ∧ len - size ≤ 4096 * chunks := by
        split at sizeIs
        · omega
        · omega
      rw [gdfWriteDataByWord, program_word_loop_sound _ _ _ _ _ sound]
      obtain ⟨later, rest, reached⟩ := inductionHypothesis (wrap32 (imgAddr + size))
        (wrap32 (appAddr + size)) (len - size) filled
        (fmc.perform (wordPrograms appAddr filled 0 (size / 4))) (Device.perform_sound sound _)
        bound.2.2
      refine ⟨wordPrograms appAddr filled 0 (size / 4) ++ later, ?_, ?_⟩
      · rw [rest, Device.perform_append]
      · intro word inside below
        rcases Nat.lt_or_ge word (size / 4) with here | there
        · refine ⟨toList filled (4 * word) 4, to_list_length _ _ _, List.mem_append_left _ ?_⟩
          have plain : wrap32 (appAddr + 4 * word) = appAddr + 4 * word := Nat.mod_eq_of_lt below
          rw [wordPrograms, List.mem_map]
          exact ⟨word, by simp [List.mem_range'_1, here], by rw [plain]⟩
        · have full : size = 4096 := bound.2.1 (by omega)
          have target : wrap32 (appAddr + size) = appAddr + size := Nat.mod_eq_of_lt (by omega)
          rw [target] at reached
          obtain ⟨bytes, length, member⟩ := reached (word - 1024) (by omega) (by omega)
          have position : appAddr + size + 4 * (word - 1024) = appAddr + 4 * word := by omega
          rw [position] at member
          exact ⟨bytes, length, List.mem_append_right _ member⟩

/-- The whole update on a device that refuses nothing: the two erases, then the
copy with every whole word of the image. -/
theorem update_app_reaches (imgSize : BitVec 32) (fmc : Device) (sound : fmc.Sound) :
    ∃ history, updateApp imgSize fmc = fmc.perform (appErases ++ history) ∧
      ∀ word, word < imgSize.toNat / 4 → appEntryAddr + 4 * word < 2 ^ 32 →
        ∃ bytes, bytes.length = 4 ∧ .program (appEntryAddr + 4 * word) bytes ∈ history := by
  obtain ⟨history, copied, reached⟩ := copy_loop_reaches (chunkCount imgSize.toNat) fwDataAddr
    appEntryAddr imgSize.toNat (fun _ => 0) (fmc.perform appErases)
    (Device.perform_sound sound _) (chunk_count_covers _)
  refine ⟨history, ?_, reached⟩
  rw [update_app_erases imgSize fmc sound, copied, ← Device.perform_append]

/-- The check of the application performs no more than the rewriting of the
record. -/
theorem check_app_performs (fwInfo : FwInfo) (fmc : Device) (sound : fmc.Sound) :
    ∃ history, (checkApp fwInfo fmc).2 = fmc.perform history := by
  unfold checkApp
  split
  · dsimp only
    rw [gdf_write_data_by_page_sound _ _ _ _ sound info_page_writable]
    exact ⟨_, rfl⟩
  · exact ⟨[], (Device.perform_nil fmc).symm⟩

/-- What an accepted flash that refuses nothing goes through: the erases first,
then at least the words of the image. -/
theorem accepted_performs (fmc : Device) (sound : fmc.Sound) (accepted : Accepted fmc.mem) :
    ∃ history, performed fmc = appErases ++ history ∧
      ∀ word, word < imageBytes fmc.mem / 4 → appEntryAddr + 4 * word < 2 ^ 32 →
        ∃ bytes, bytes.length = 4 ∧ .program (appEntryAddr + 4 * word) bytes ∈ history := by
  obtain ⟨copied, update, reached⟩ :=
    update_app_reaches (storedInfo fmc.mem).imgSize fmc sound
  obtain ⟨retired, check⟩ := check_app_performs (storedInfo fmc.mem)
    (fmc.perform (appErases ++ copied)) (Device.perform_sound sound _)
  refine ⟨copied ++ retired, ?_, ?_⟩
  · rw [performed, upgrade_accepted fmc accepted, update, check, ← Device.perform_append,
      Device.perform_log, List.drop_left, List.append_assoc]
  · intro word inside below
    obtain ⟨bytes, length, member⟩ := reached word inside below
    exact ⟨bytes, length, List.mem_append_left _ member⟩

/-- Whatever is refused, the check of the application is confined. -/
theorem check_app_grows (fwInfo : FwInfo) (fmc : Device) :
    Device.Grows Confined fmc (checkApp fwInfo fmc).2 := by
  unfold checkApp
  split
  · apply info_page_grows
    · exact fun address touches => Or.inr touches
    · intro target bytes low high address touches
      obtain ⟨above, below⟩ := touches
      exact Or.inr ⟨by omega, by omega⟩
  · exact Device.grows_refl Confined fmc

/-- Whatever is refused, an image whose words fit is installed by confined
operations. -/
theorem upgrade_grows (fmc : Device) (accepted : Accepted fmc.mem)
    (fits : imageBytes fmc.mem < appAreaSize + 4) :
    Device.Grows Confined fmc (upgrade fmc).2 := by
  have area : appEntryAddr + (appAreaSize + 4) < 2 ^ 32 := by decide
  have whole : appAreaSize % 4 = 0 := by decide
  have size : (storedInfo fmc.mem).imgSize.toNat < appAreaSize + 4 := fits
  have erases : ∀ op ∈ appErases, Confined op := fun op member address touches =>
    Or.inl (app_erases_touch member touches)
  have firstErase : Confined (.erase (sectorStart 4) (sectorSize 4)) :=
    erases _ (by simp [appErases])
  have secondErase : Confined (.erase (sectorStart 5) (sectorSize 5)) :=
    erases _ (by simp [appErases])
  have copy : ∀ target bytes, appEntryAddr ≤ target →
      target + bytes.length ≤ appEntryAddr + 4 * ((storedInfo fmc.mem).imgSize.toNat / 4) →
      Confined (.program target bytes) := by
    intro target bytes low high address touches
    obtain ⟨above, below⟩ := touches
    exact Or.inl ⟨by omega, by omega⟩
  rw [upgrade_accepted fmc accepted]
  refine Device.grows_trans ?_ (check_app_grows _ _)
  unfold updateApp
  exact Device.grows_trans (Device.issue_grows firstErase fmc)
    (Device.grows_trans (Device.issue_grows secondErase _)
      (copy_loop_grows _ _ _ _ _ _ (by omega) copy))

/-- The words of an image that does not fit reach the staged image. -/
theorem wide_image_escapes {flash : Mem} (accepted : Accepted flash)
    (wide : appAreaSize + 4 ≤ imageBytes flash) :
    ∃ op ∈ performed (Device.healthy flash), ¬Confined op := by
  have words : appAreaSize = 4 * 49152 := by decide
  have border : appEntryAddr + 4 * 49152 = fwDataAddr := by decide
  have below : fwDataAddr < 2 ^ 32 := by decide
  have page : fwInfoAddr + fmcPageSize ≤ fwDataAddr := by decide
  obtain ⟨history, all, reached⟩ :=
    accepted_performs (Device.healthy flash) (Device.healthy_sound flash) accepted
  have inside : 49152 < imageBytes flash / 4 := by omega
  have target : appEntryAddr + 4 * 49152 < 2 ^ 32 := by
    rw [border]
    exact below
  obtain ⟨bytes, length, member⟩ := reached 49152 inside target
  rw [border] at member
  have longer : fwDataAddr < fwDataAddr + bytes.length := by
    rw [length]
    exact Nat.lt_add_of_pos_right (by decide)
  have touched : Touches (.program fwDataAddr bytes) fwDataAddr :=
    ⟨Nat.le_refl fwDataAddr, longer⟩
  have found : .program fwDataAddr bytes ∈ performed (Device.healthy flash) := by
    rw [all]
    exact List.mem_append_right _ member
  refine ⟨.program fwDataAddr bytes, found, ?_⟩
  intro confined
  rcases confined fwDataAddr touched with app | info
  · have high : fwDataAddr < appEntryAddr + appAreaSize := app.2
    omega
  · have high : fwDataAddr < fwInfoAddr + fmcPageSize := info.2
    omega

/-- A flash with nothing to install stays as it is. -/
theorem rejected_stays_inside {flash : Mem} (rejected : ¬Accepted flash) : StaysInside flash := by
  have idle : ∀ fmc : Device, fmc.mem = flash → performed fmc = [] := by
    intro fmc contents
    subst contents
    rw [performed, upgrade_rejected fmc rejected]
    exact List.drop_length
  refine ⟨?_, ?_, ?_⟩
  · intro fmc contents _ acted
    exact absurd (idle fmc contents) acted
  · intro fmc contents op member
    rw [idle fmc contents] at member
    exact absurd member (List.not_mem_nil)
  · intro fmc contents
    subst contents
    rw [upgrade_rejected fmc rejected]
    exact agree_refl _ _ _

/-- An accepted image whose words fit is installed inside the application area. -/
theorem fitting_stays_inside {flash : Mem} (accepted : Accepted flash)
    (fits : imageBytes flash < appAreaSize + 4) : StaysInside flash := by
  refine ⟨?_, ?_, ?_⟩
  · intro fmc contents sound _ address inside
    subst contents
    obtain ⟨history, all, _⟩ := accepted_performs fmc sound accepted
    rw [all]
    exact app_erases_cover fmc.mem inside
  · intro fmc contents
    subst contents
    exact Device.grows_new (upgrade_grows fmc accepted fits)
  · intro fmc contents
    subst contents
    obtain ⟨history, _, contents, confined⟩ := upgrade_grows fmc accepted fits
    intro address low _
    rw [contents]
    apply replay_untouched
    intro op member touches
    have border : appEntryAddr + appAreaSize = fwDataAddr := by decide
    have page : fwInfoAddr + fmcPageSize ≤ fwDataAddr := by decide
    rcases confined op member address touches with app | info
    · have high := app.2
      omega
    · have high := info.2
      omega

/-- Boot confinement for every flash content and whichever operations are refused:
the installer stays inside the application area and the info page, and leaves the
staged image alone, exactly when an accepted image is less than one word longer
than the application area. -/
theorem boot_stays_inside_iff (flash : Mem) :
    StaysInside flash ↔ (Accepted flash → imageBytes flash < appAreaSize + 4) := by
  constructor
  · intro inside accepted
    by_contra wide
    obtain ⟨op, member, escapes⟩ := wide_image_escapes accepted (by omega)
    exact escapes (inside.confined (Device.healthy flash) rfl op member)
  · intro condition
    by_cases accepted : Accepted flash
    · exact fitting_stays_inside accepted (condition accepted)
    · exact rejected_stays_inside accepted

/-- A record with its checksum. -/
def sealedInfo (info : FwInfo) : FwInfo := { info with crc32 := infoCrc (ofList info.bytes) }

/-- A flash that is erased but for a record. -/
def flashWith (info : FwInfo) : Mem :=
  overlay (fun _ => NorFlash.erased) (ofList info.bytes) fwInfoAddr sizeofFwInfo

/-- The record is stored where the bootloader reads it. -/
theorem flash_with_record (info : FwInfo) :
    Agree (window (flashWith info) fwInfoAddr) (ofList info.bytes) 0 sizeofFwInfo := by
  intro offset _ inside
  rw [window, flashWith, overlay_inside _ _ _ _ _ (Nat.le_add_right _ _) (by omega),
    Nat.add_sub_cancel_left]

/-- The bootloader reads the record. -/
theorem flash_with_stored (info : FwInfo) : storedInfo (flashWith info) = info :=
  (fw_info_at_congr (flash_with_record info)).trans (fw_info_at_bytes info)

/-- An erased image with the announced checksum is accepted. -/
theorem erased_image_accepted (info : FwInfo) (size : info.imgSize ≠ 0)
    (status : info.status = ugStateCheckPass)
    (image : calculateCrc32 (fun _ => NorFlash.erased) (asInt info.imgSize) .big =
      info.imgCrc32) : Accepted (flashWith (sealedInfo info)) := by
  have page : fwInfoAddr + sizeofFwInfo ≤ fwDataAddr := by decide
  have staged : window (flashWith (sealedInfo info)) fwDataAddr = fun _ => NorFlash.erased := by
    funext offset
    rw [window, flashWith, overlay_outside _ _ _ _ _ (Or.inr (by omega))]
  refine ⟨?_, ?_, ?_, ?_⟩
  · rw [flash_with_stored, info_crc_congr (flash_with_record _)]
    exact info_crc_own info _
  · rw [flash_with_stored]
    exact size
  · rw [flash_with_stored]
    exact status
  · rw [flash_with_stored, staged]
    exact image

/-- The record of an erased image one word longer than the application area. -/
def wideInfo : FwInfo :=
  { FwInfo.cleared with
    imgSize := 196612
    imgCrc32 := calculateCrc32 (fun _ => NorFlash.erased) (asInt 196612) .big
    status := ugStateCheckPass }

/-- The bootloader accepts this image and programs the first word of the staged
image. -/
theorem wide_image_not_confined : ¬StaysInside (flashWith (sealedInfo wideInfo)) := by
  have image : calculateCrc32 (fun _ => NorFlash.erased) (asInt wideInfo.imgSize) .big =
      wideInfo.imgCrc32 := by simp only [wideInfo]
  have accepted := erased_image_accepted wideInfo (by decide) rfl image
  have size : imageBytes (flashWith (sealedInfo wideInfo)) = appAreaSize + 4 := by
    rw [imageBytes, flash_with_stored]
    rfl
  intro inside
  obtain ⟨op, member, escapes⟩ := wide_image_escapes accepted (Nat.le_of_eq size.symm)
  exact escapes (inside.confined (Device.healthy _) rfl op member)

end Pyrometer.BootConfinement
