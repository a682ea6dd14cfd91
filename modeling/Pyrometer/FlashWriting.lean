import Pyrometer.FlashController

/-!
# What success of a flash write means

A call of `flash_write` issues its erases and its programs to a device that may refuse any of
them. The operations it issues are two lists; the first list is issued whatever is refused, the
second until one is refused. `WriteHonest` is what the caller relies on: success means stored,
other pages keep their bytes, and a range that is not made of whole pages of the flash is an
error that changes nothing. `Faithful` is the condition on the call, the contents and the
refusals under which the driver does that.

The length is the count of bytes to store, so it is not negative.
-/

namespace Pyrometer.FlashWriting

open ByteMemory NorFlash FlashController

/-- The erases that a page write issues: none if `gdf_erase_pages` rejects its arguments. -/
def pageErasures (addr len : Nat) : List Op :=
  if addr % fmcPageSize ≠ 0 ∨
      wrap32 (addr + 2 ^ 32 - flashBase) / fmcPageSize % 2 ^ 16 + pageCount len > fmcPageMax then []
  else pageErases addr 0 (pageCount len)

/-- The programs that a page write issues: whole words, then the bytes that are left. -/
def pagePrograms (addr len : Nat) (buff : Mem) : List Op :=
  wordPrograms addr buff 0 (len / 4) ++
    bytePrograms (addr + 4 * (len / 4)) (window buff (4 * (len / 4))) 0 (len % 4)

instance (addr len : Nat) : Decidable (Writable addr len) :=
  inferInstanceAs (Decidable (_ ∧ _ ∧ _))

/-- What a caller of `flash_write` relies on. -/
def WriteHonest (addr len : Nat) (buff : Mem) (fmc : Device) : Prop :=
  if Writable addr len then
    ((flashWrite addr buff len fmc).1 = 0 →
      ∀ target, Agree (flashRead addr target len (flashWrite addr buff len fmc).2).2 buff 0 len) ∧
    ∀ address, address < addr ∨ addr + fmcPageSize * pageCount len ≤ address →
      (flashWrite addr buff len fmc).2.mem address = fmc.mem address
  else
    (flashWrite addr buff len fmc).1 ≠ 0 ∧ (flashWrite addr buff len fmc).2.mem = fmc.mem

/-- The device when the erases of a page write have been issued. -/
def erasedDevice (addr len : Nat) (fmc : Device) : Device := fmc.issueAll (pageErasures addr len)

/-- When the driver does what its callers rely on. In whole pages of the flash: some program is
refused, or each byte in a page whose erase is refused can take its new value without an erase.
Elsewhere: a program is refused before what was completed has changed the contents. -/
def Faithful (addr len : Nat) (buff : Mem) (fmc : Device) : Prop :=
  if Writable addr len then
    (∃ number, (erasedDevice addr len fmc).Refuses (pagePrograms addr len buff).length number) ∨
      ∀ index < len, fmc.fault (fmc.issued + index / fmcPageSize) = true →
        fmc.mem (addr + index) &&& buff index = buff index
  else
    ∃ number, (erasedDevice addr len fmc).Refuses (pagePrograms addr len buff).length number ∧
      replay fmc.mem (Device.completed fmc.fault fmc.issued (pageErasures addr len) ++
        (pagePrograms addr len buff).take number) = fmc.mem

/-- The result code of an attempt. -/
def codeOf (outcome : Bool × Device) : Int × Device := (if outcome.1 then 0 else -1, outcome.2)

/-- `flash_write` hands on the result code of an attempt. -/
theorem code_handed_on (outcome : Bool × Device) :
    (match codeOf outcome with
      | (0, fmc) => ((0 : Int), fmc)
      | (_, fmc) => (-1, fmc)) = codeOf outcome := by
  obtain ⟨done, fmc⟩ := outcome
  cases done <;> rfl

/-- The erase loop issues its erases whatever is refused. -/
theorem erase_page_loop_eq (addr remaining index : Nat) (fmc : Device) :
    erasePageLoop addr remaining index fmc = fmc.issueAll (pageErases addr index remaining) := by
  induction remaining generalizing index fmc with
  | zero => rfl
  | succ remaining inductionHypothesis =>
    rw [erasePageLoop, inductionHypothesis, pageErases, pageErases, List.range'_succ]
    rfl

/-- `gdf_erase_pages` issues the erases of the pages, or none. -/
theorem gdf_erase_pages_eq (addr len : Nat) (fmc : Device) :
    (gdfErasePages addr (pageCount len) fmc).2 = erasedDevice addr len fmc := by
  unfold gdfErasePages erasedDevice pageErasures
  by_cases misaligned : addr % fmcPageSize ≠ 0
  · rw [if_pos misaligned, if_pos (Or.inl misaligned)]
    rfl
  · rw [if_neg misaligned]
    by_cases beyond :
        wrap32 (addr + 2 ^ 32 - flashBase) / fmcPageSize % 2 ^ 16 + pageCount len > fmcPageMax
    · rw [if_pos beyond, if_pos (Or.inr beyond)]
      rfl
    · rw [if_neg beyond, if_neg (not_or.mpr ⟨misaligned, beyond⟩)]
      exact erase_page_loop_eq addr _ 0 fmc

/-- The word loop issues its programs until one is refused. -/
theorem program_word_loop_eq (addr : Nat) (src : Mem) (remaining index : Nat) (fmc : Device) :
    programWordLoop addr src remaining index fmc =
      codeOf (fmc.attempt (wordPrograms addr src index remaining)) := by
  induction remaining generalizing index fmc with
  | zero => rfl
  | succ remaining inductionHypothesis =>
    rw [programWordLoop, fmcWordProgram, word_bytes, wordPrograms, List.range'_succ, List.map_cons,
      Device.attempt]
    cases fmc.issue (.program (wrap32 (addr + 4 * index)) (toList src (4 * index) 4)) with
    | mk done next =>
      cases done with
      | true => exact inductionHypothesis (index + 1) next
      | false => rfl

/-- The byte loop issues its programs until one is refused. -/
theorem program_byte_loop_eq (addr : Nat) (src : Mem) (remaining index : Nat) (fmc : Device) :
    programByteLoop addr src remaining index fmc =
      codeOf (fmc.attempt (bytePrograms addr src index remaining)) := by
  induction remaining generalizing index fmc with
  | zero => rfl
  | succ remaining inductionHypothesis =>
    rw [programByteLoop, fmcByteProgram, bytePrograms, List.range'_succ, List.map_cons,
      to_list_one, Device.attempt]
    cases fmc.issue (.program (wrap32 (addr + index)) [src index]) with
    | mk done next =>
      cases done with
      | true => exact inductionHypothesis (index + 1) next
      | false => rfl

/-- `flash_write` issues the erases whatever is refused, and then the programs until one is
refused. -/
theorem flash_write_eq (addr len : Nat) (buff : Mem) (fmc : Device) :
    flashWrite addr buff len fmc =
      codeOf ((erasedDevice addr len fmc).attempt (pagePrograms addr len buff)) := by
  have written : gdfWriteDataByPage addr len buff fmc =
      codeOf ((erasedDevice addr len fmc).attempt (pagePrograms addr len buff)) := by
    unfold gdfWriteDataByPage
    rw [gdf_erase_pages_eq, program_word_loop_eq, pagePrograms, Device.attempt_append]
    cases (erasedDevice addr len fmc).attempt (wordPrograms addr buff 0 (len / 4)) with
    | mk done next =>
      cases done with
      | true => exact program_byte_loop_eq _ _ _ _ next
      | false => rfl
  unfold flashWrite
  rw [written]
  exact code_handed_on _

/-- The contents when the erases have been issued. -/
theorem erased_device_mem (addr len : Nat) (fmc : Device) :
    (erasedDevice addr len fmc).mem =
      replay fmc.mem (Device.completed fmc.fault fmc.issued (pageErasures addr len)) := by
  rw [erasedDevice, Device.issue_all_eq]

/-- A write that has a program refused reports an error; what it leaves is what was performed
before. -/
theorem flash_write_refused (addr len : Nat) (buff : Mem) (fmc : Device) (number : Nat)
    (refused : (erasedDevice addr len fmc).Refuses (pagePrograms addr len buff).length number) :
    (flashWrite addr buff len fmc).1 ≠ 0 ∧
      (flashWrite addr buff len fmc).2.mem =
        replay fmc.mem (Device.completed fmc.fault fmc.issued (pageErasures addr len) ++
          (pagePrograms addr len buff).take number) := by
  obtain ⟨failed, contents⟩ := Device.attempt_refused _ _ number refused
  rw [flash_write_eq]
  refine ⟨by simp [codeOf, failed], ?_⟩
  rw [replay_append, ← erased_device_mem]
  exact contents

/-- A write that has no program refused reports success. -/
theorem flash_write_granted (addr len : Nat) (buff : Mem) (fmc : Device)
    (granted : (erasedDevice addr len fmc).Grants (pagePrograms addr len buff).length) :
    flashWrite addr buff len fmc =
      (0, (erasedDevice addr len fmc).perform (pagePrograms addr len buff)) := by
  rw [flash_write_eq, Device.attempt_granted _ _ granted]
  rfl

/-- In pages of the flash the operations issued are those of the plan. -/
theorem writable_operations {addr len : Nat} (buff : Mem) (writable : Writable addr len) :
    pageErasures addr len = eraseUnits addr fmcPageSize (pageCount len) ∧
      pagePrograms addr len buff = programUnits addr buff 4 (len / 4) ++
        programUnits (addr + 4 * (len / 4)) (window buff (4 * (len / 4))) 1 (len % 4) := by
  obtain ⟨above, aligned, below⟩ := writable
  have covers := page_count_covers len
  have limit : fmcPageSize * fmcPageMax = 3145728 := by decide
  have base : flashBase = 134217728 := by decide
  constructor
  · have offset : wrap32 (addr + 2 ^ 32 - flashBase) = addr - flashBase := by
      unfold wrap32
      omega
    have accepted : ¬(addr % fmcPageSize ≠ 0 ∨
        wrap32 (addr + 2 ^ 32 - flashBase) / fmcPageSize % 2 ^ 16 + pageCount len >
          fmcPageMax) := by
      rw [offset]
      unfold fmcPageSize fmcPageMax at *
      omega
    rw [pageErasures, if_neg accepted]
    exact page_erases_units addr _ (by omega)
  · rw [pagePrograms, word_programs_units addr buff _ (by omega),
      byte_programs_units _ _ _ (by omega)]

/-- What the driver issues for pages of the flash misses every other address. -/
theorem writable_misses {addr len : Nat} (buff : Mem) (writable : Writable addr len)
    {performed : List Op} (issued : performed ⊆ pageErasures addr len ++ pagePrograms addr len buff)
    (memory : Mem) (address : Nat)
    (outside : address < addr ∨ addr + fmcPageSize * pageCount len ≤ address) :
    replay memory performed address = memory address := by
  apply replay_untouched
  intro op member
  obtain ⟨erases, programs⟩ := writable_operations buff writable
  have planned := issued member
  rw [erases, programs] at planned
  exact write_plan_misses addr len buff address outside op planned

/-- A write to pages of the flash changes nothing outside them, whatever is refused. -/
theorem flash_write_outside (addr len : Nat) (buff : Mem) (fmc : Device)
    (writable : Writable addr len) (address : Nat)
    (outside : address < addr ∨ addr + fmcPageSize * pageCount len ≤ address) :
    (flashWrite addr buff len fmc).2.mem address = fmc.mem address := by
  have erases := (Device.completed_sublist fmc.fault fmc.issued (pageErasures addr len)).subset
  rcases Device.grants_or_refuses (erasedDevice addr len fmc) (pagePrograms addr len buff).length
    with granted | ⟨number, refused⟩
  · rw [flash_write_granted addr len buff fmc granted, Device.perform_mem, erased_device_mem,
      ← replay_append]
    exact writable_misses buff writable (List.append_subset.mpr
      ⟨fun op member => List.mem_append_left _ (erases member),
       List.subset_append_right _ _⟩) _ address outside
  · rw [(flash_write_refused addr len buff fmc number refused).2]
    exact writable_misses buff writable (List.append_subset.mpr
      ⟨fun op member => List.mem_append_left _ (erases member),
       fun op member => List.mem_append_right _ (List.mem_of_mem_take member)⟩) _ address outside

/-- After a write to pages of the flash that reports success, each byte of the range is the new
one, cut out of what its page held where the erase of that page was refused. -/
theorem flash_write_contents (addr len : Nat) (buff : Mem) (fmc : Device)
    (writable : Writable addr len)
    (granted : (erasedDevice addr len fmc).Grants (pagePrograms addr len buff).length)
    (index : Nat) (inside : index < len) :
    (flashWrite addr buff len fmc).2.mem (addr + index) =
      if fmc.fault (fmc.issued + index / fmcPageSize) = true then
        fmc.mem (addr + index) &&& buff index
      else buff index := by
  obtain ⟨erases, programs⟩ := writable_operations buff writable
  have covers := page_count_covers len
  have split : 4 * (len / 4) + len % 4 = len := Nat.div_add_mod len 4
  have erasure := Device.replay_completed_erases fmc.fault fmc.issued fmc.mem addr fmcPageSize
    (pageCount len) (addr + index) (by decide)
  have reached : addr ≤ addr + index ∧ addr + index < addr + fmcPageSize * pageCount len := by
    omega
  simp only [Nat.add_sub_cancel_left, reached, true_and] at erasure
  have cut : (flashWrite addr buff len fmc).2.mem (addr + index) =
      replay fmc.mem (Device.completed fmc.fault fmc.issued (pageErasures addr len))
        (addr + index) &&& buff index := by
    rw [flash_write_granted addr len buff fmc granted, Device.perform_mem, erased_device_mem,
      programs, replay_append]
    simp only [replay_program_units, window, Nat.one_mul]
    by_cases inWords : addr + index < addr + 4 * (len / 4)
    · have notTail : ¬(addr + 4 * (len / 4) ≤ addr + index ∧
          addr + index < addr + 4 * (len / 4) + len % 4) := by omega
      rw [if_neg notTail, if_pos ⟨by omega, inWords⟩, Nat.add_sub_cancel_left]
    · have position : 4 * (len / 4) + (addr + index - (addr + 4 * (len / 4))) = index := by omega
      have notWord : ¬(addr ≤ addr + index ∧ addr + index < addr + 4 * (len / 4)) := by omega
      rw [if_pos ⟨by omega, by omega⟩, if_neg notWord, position]
  rw [cut, erases, erasure]
  by_cases refused : fmc.fault (fmc.issued + index / fmcPageSize) = true
  · rw [if_pos refused, if_neg (by simp [refused])]
  · rw [if_neg refused, if_pos (by simpa using refused), erased_and]

/-- A byte that is read back. -/
theorem flash_read_at (addr len : Nat) (target : Mem) (fmc : Device) (index : Nat)
    (inside : index < len) : (flashRead addr target len fmc).2 index = fmc.mem (addr + index) :=
  overlay_inside target (window fmc.mem addr) 0 len index (Nat.zero_le _) (by omega)

/-- Reading back gives the buffer exactly when the contents are the buffer's. -/
theorem read_back_iff (addr len : Nat) (buff : Mem) (fmc : Device) :
    (∀ target, Agree (flashRead addr target len fmc).2 buff 0 len) ↔
      ∀ index < len, fmc.mem (addr + index) = buff index := by
  constructor
  · intro agreed index inside
    rw [← flash_read_at addr len buff fmc index inside]
    exact agreed buff index (Nat.zero_le _) (by omega)
  · intro same target index _ inside
    have below : index < len := by omega
    rw [flash_read_at addr len target fmc index below]
    exact same index below

/-- In pages of the flash a write that has no program refused stores the buffer exactly when
each byte that was not erased can take its new value. -/
theorem granted_stores_iff (addr len : Nat) (buff : Mem) (fmc : Device)
    (writable : Writable addr len)
    (granted : (erasedDevice addr len fmc).Grants (pagePrograms addr len buff).length) :
    (∀ target, Agree (flashRead addr target len (flashWrite addr buff len fmc).2).2 buff 0 len) ↔
      ∀ index < len, fmc.fault (fmc.issued + index / fmcPageSize) = true →
        fmc.mem (addr + index) &&& buff index = buff index := by
  rw [read_back_iff]
  refine forall₂_congr fun index inside => ?_
  rw [flash_write_contents addr len buff fmc writable granted index inside]
  by_cases refused : fmc.fault (fmc.issued + index / fmcPageSize) = true <;> simp [refused]

/-- The driver does what its callers rely on exactly when the write is faithful. -/
theorem flash_write_iff (addr len : Nat) (buff : Mem) (fmc : Device) :
    WriteHonest addr len buff fmc ↔ Faithful addr len buff fmc := by
  unfold WriteHonest Faithful
  have either := Device.grants_or_refuses (erasedDevice addr len fmc)
    (pagePrograms addr len buff).length
  by_cases writable : Writable addr len
  · rw [if_pos writable, if_pos writable]
    have outside := flash_write_outside addr len buff fmc writable
    rcases either with granted | ⟨number, refused⟩
    · have success : (flashWrite addr buff len fmc).1 = 0 := by
        rw [flash_write_granted addr len buff fmc granted]
      have stores := granted_stores_iff addr len buff fmc writable granted
      constructor
      · exact fun honest => Or.inr (stores.mp (honest.1 success))
      · rintro (⟨number, refused⟩ | free)
        · exact (Device.granted_not_refused granted refused).elim
        · exact ⟨fun _ => stores.mpr free, outside⟩
    · have failed := (flash_write_refused addr len buff fmc number refused).1
      exact iff_of_true ⟨fun success => absurd success failed, outside⟩ (Or.inl ⟨number, refused⟩)
  · rw [if_neg writable, if_neg writable]
    rcases either with granted | ⟨number, refused⟩
    · refine iff_of_false (fun honest => honest.1 ?_) ?_
      · rw [flash_write_granted addr len buff fmc granted]
      · rintro ⟨number, refused, -⟩
        exact Device.granted_not_refused granted refused
    · obtain ⟨failed, contents⟩ := flash_write_refused addr len buff fmc number refused
      rw [contents]
      constructor
      · exact fun honest => ⟨number, refused, honest.2⟩
      · rintro ⟨other, earlier, unchanged⟩
        obtain rfl := Device.refused_once refused earlier
        exact ⟨failed, unchanged⟩

/-- A write to an address inside a page reports success. -/
theorem misaligned_write_succeeds :
    ¬∀ (addr len : Nat) (buff : Mem) (fmc : Device), WriteHonest addr len buff fmc := by
  intro all
  have honest := all (flashBase + 1) 1 (fun _ => 0) (Device.healthy fun _ => 0)
  have inner : ¬Writable (flashBase + 1) 1 := fun writable => absurd writable.2.1 (by decide)
  rw [WriteHonest, if_neg inner] at honest
  exact honest.1 rfl

end Pyrometer.FlashWriting
