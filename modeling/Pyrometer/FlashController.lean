import Pyrometer.NorFlash

/-!
# The flash driver of `gd32_fmc.c`

Each routine issues elementary operations to the flash device and reacts to
their completion as the source does: the word and byte writers stop at the
first refused program, the page eraser ignores refused erases, and
`gdf_write_data_by_page` ignores the page eraser's result. Addresses are 32-bit
and wrap.

On a device that refuses nothing, each writer performs a fixed list of
operations; `writePlan` is that list for a page write. The contents it leaves
are the buffer, over erased pages.
-/

namespace Pyrometer.FlashController

open ByteMemory NorFlash

/-- `FLASH_BASE`. -/
def flashBase : Nat := 0x08000000

/-- `FMC_PAGE_SIZE`. -/
def fmcPageSize : Nat := 4096

/-- `FMC_PAGE_MAX`. -/
def fmcPageMax : Nat := 768

/-- Addresses are unsigned 32-bit numbers. -/
def wrap32 (address : Nat) : Nat := address % 2 ^ 32

/-- Start address of a sector (`FLASH_SECTn_BASE`): four of 16 KB, one of 64 KB,
then 128 KB each. -/
def sectorStart (sector : Fin 12) : Nat :=
  if sector.val < 5 then flashBase + 0x4000 * sector.val
  else flashBase + 0x20000 * (sector.val - 4)

/-- Bytes in a sector. -/
def sectorSize (sector : Fin 12) : Nat :=
  if sector.val < 4 then 0x4000 else if sector.val = 4 then 0x10000 else 0x20000

/-- `fmc_page_erase`: true when the controller reports `FMC_READY`. -/
def fmcPageErase (address : Nat) (fmc : Device) : Bool × Device :=
  fmc.issue (.erase address fmcPageSize)

/-- `fmc_sector_erase`. -/
def fmcSectorErase (sector : Fin 12) (fmc : Device) : Bool × Device :=
  fmc.issue (.erase (sectorStart sector) (sectorSize sector))

/-- `fmc_word_program`: the four bytes of the word, low byte first. -/
def fmcWordProgram (address : Nat) (data : BitVec 32) (fmc : Device) : Bool × Device :=
  fmc.issue (.program address [byteOf data 0, byteOf data 1, byteOf data 2, byteOf data 3])

/-- `fmc_byte_program`. -/
def fmcByteProgram (address : Nat) (data : Byte) (fmc : Device) : Bool × Device :=
  fmc.issue (.program address [data])

/-- The erase loop of `gdf_erase_pages`; the state of each erase is not looked at. -/
def erasePageLoop (addr : Nat) : Nat → Nat → Device → Device
  | 0, _, fmc => fmc
  | remaining + 1, index, fmc =>
      erasePageLoop addr remaining (index + 1)
        (fmcPageErase (wrap32 (addr + fmcPageSize * index)) fmc).2

/-- `gdf_erase_pages`: -1 for an address that is not a page boundary, -2 for
pages past the last one, otherwise 0. The first page number is 16 bits wide. -/
def gdfErasePages (addr num : Nat) (fmc : Device) : Int × Device :=
  let pageStart := wrap32 (addr + 2 ^ 32 - flashBase) / fmcPageSize % 2 ^ 16
  if addr % fmcPageSize ≠ 0 then (-1, fmc)
  else if pageStart + num > fmcPageMax then (-2, fmc)
  else (0, erasePageLoop addr num 0 fmc)

/-- `gdf_erase_sector`: 0 when the erase completed, otherwise -1. -/
def gdfEraseSector (sector : Fin 12) (fmc : Device) : Int × Device :=
  match fmcSectorErase sector fmc with
  | (true, fmc) => (0, fmc)
  | (false, fmc) => (-1, fmc)

/-- The word loop shared by the writers: stop with -1 at a refused program. -/
def programWordLoop (addr : Nat) (src : Mem) : Nat → Nat → Device → Int × Device
  | 0, _, fmc => (0, fmc)
  | remaining + 1, index, fmc =>
      match fmcWordProgram (wrap32 (addr + 4 * index)) (load32 src (4 * index)) fmc with
      | (true, fmc) => programWordLoop addr src remaining (index + 1) fmc
      | (false, fmc) => (-1, fmc)

/-- The byte loop that finishes a page write. -/
def programByteLoop (addr : Nat) (src : Mem) : Nat → Nat → Device → Int × Device
  | 0, _, fmc => (0, fmc)
  | remaining + 1, index, fmc =>
      match fmcByteProgram (wrap32 (addr + index)) (src index) fmc with
      | (true, fmc) => programByteLoop addr src remaining (index + 1) fmc
      | (false, fmc) => (-1, fmc)

/-- `gdf_write_data_by_word`: only whole words are written; a length that is not
a multiple of four loses its remainder. -/
def gdfWriteDataByWord (addr len : Nat) (buff : Mem) (fmc : Device) : Int × Device :=
  programWordLoop addr buff (len / 4) 0 fmc

/-- Pages covering a length. -/
def pageCount (len : Nat) : Nat :=
  if len % fmcPageSize = 0 then len / fmcPageSize else len / fmcPageSize + 1

/-- `gdf_write_data_by_page`: erase the covering pages, then write whole words
and the remaining bytes. The eraser's result is dropped. -/
def gdfWriteDataByPage (addr len : Nat) (buff : Mem) (fmc : Device) : Int × Device :=
  match programWordLoop addr buff (len / 4) 0 (gdfErasePages addr (pageCount len) fmc).2 with
  | (0, fmc) =>
      programByteLoop (addr + 4 * (len / 4)) (window buff (4 * (len / 4))) (len % 4) 0 fmc
  | (code, fmc) => (code, fmc)

/-- `flash_read`: copy `len` bytes into the buffer; it cannot fail. -/
def flashRead (addr : Nat) (buff : Mem) (len : Nat) (fmc : Device) : Int × Mem :=
  (0, overlay buff (window fmc.mem addr) 0 len)

/-- `flash_write`: any failure of the page writer is reported as -1. -/
def flashWrite (addr : Nat) (buff : Mem) (len : Nat) (fmc : Device) : Int × Device :=
  match gdfWriteDataByPage addr len buff fmc with
  | (0, fmc) => (0, fmc)
  | (_, fmc) => (-1, fmc)

/-- The operations of a word write in the order they are issued. -/
def wordPrograms (addr : Nat) (src : Mem) (start count : Nat) : List Op :=
  (List.range' start count).map (fun index =>
    .program (wrap32 (addr + 4 * index)) (toList src (4 * index) 4))

/-- The operations of a byte write in the order they are issued. -/
def bytePrograms (addr : Nat) (src : Mem) (start count : Nat) : List Op :=
  (List.range' start count).map (fun index =>
    .program (wrap32 (addr + index)) (toList src index 1))

/-- The operations of a page erase in the order they are issued. -/
def pageErases (addr start count : Nat) : List Op :=
  (List.range' start count).map (fun index =>
    .erase (wrap32 (addr + fmcPageSize * index)) fmcPageSize)

/-- A loaded word is stored as the four bytes it was loaded from. -/
theorem word_bytes (src : Mem) (offset : Nat) :
    [byteOf (load32 src offset) 0, byteOf (load32 src offset) 1, byteOf (load32 src offset) 2,
      byteOf (load32 src offset) 3] = toList src offset 4 := by
  simp [toList, byte_of_load32, List.range_succ]

/-- A sound device performs every program of the word loop. -/
theorem program_word_loop_sound (addr : Nat) (src : Mem) (remaining index : Nat) (fmc : Device)
    (sound : fmc.Sound) :
    programWordLoop addr src remaining index fmc =
      (0, fmc.perform (wordPrograms addr src index remaining)) := by
  induction remaining generalizing index fmc with
  | zero => simp [programWordLoop, wordPrograms]
  | succ remaining inductionHypothesis =>
    rw [programWordLoop, fmcWordProgram, Device.issue_sound sound, word_bytes]
    simp only
    rw [inductionHypothesis (index + 1) _ (Device.perform_sound sound _), ← Device.perform_append]
    simp [wordPrograms, List.range'_succ]

/-- A sound device performs every program of the byte loop. -/
theorem program_byte_loop_sound (addr : Nat) (src : Mem) (remaining index : Nat) (fmc : Device)
    (sound : fmc.Sound) :
    programByteLoop addr src remaining index fmc =
      (0, fmc.perform (bytePrograms addr src index remaining)) := by
  induction remaining generalizing index fmc with
  | zero => simp [programByteLoop, bytePrograms]
  | succ remaining inductionHypothesis =>
    rw [programByteLoop, fmcByteProgram, Device.issue_sound sound]
    simp only
    rw [inductionHypothesis (index + 1) _ (Device.perform_sound sound _), ← Device.perform_append]
    simp [bytePrograms, toList, List.range'_succ]

/-- A sound device performs every erase of the page loop. -/
theorem erase_page_loop_sound (addr remaining index : Nat) (fmc : Device) (sound : fmc.Sound) :
    erasePageLoop addr remaining index fmc = fmc.perform (pageErases addr index remaining) := by
  induction remaining generalizing index fmc with
  | zero => simp [erasePageLoop, pageErases]
  | succ remaining inductionHypothesis =>
    rw [erasePageLoop, fmcPageErase, Device.issue_sound sound]
    simp only
    rw [inductionHypothesis (index + 1) _ (Device.perform_sound sound _), ← Device.perform_append]
    simp [pageErases, List.range'_succ]

/-- Operations that are numbered from zero are one list when each of them is the same. -/
theorem numbered_units {wrapped plain : Nat → Op} {count : Nat}
    (same : ∀ index < count, wrapped index = plain index) :
    (List.range' 0 count).map wrapped = (List.range count).map plain := by
  rw [← List.range_eq_range']
  apply List.map_congr_left
  intro index member
  exact same index (List.mem_range.mp member)

/-- Below the address limit the wrapped word programs are consecutive units. -/
theorem word_programs_units (addr : Nat) (src : Mem) (count : Nat)
    (fits : addr + 4 * count ≤ 2 ^ 32) :
    wordPrograms addr src 0 count = programUnits addr src 4 count := by
  apply numbered_units
  intro index inside
  have small : wrap32 (addr + 4 * index) = addr + 4 * index := Nat.mod_eq_of_lt (by omega)
  rw [small]

/-- Below the address limit the wrapped byte programs are consecutive units. -/
theorem byte_programs_units (addr : Nat) (src : Mem) (count : Nat)
    (fits : addr + count ≤ 2 ^ 32) :
    bytePrograms addr src 0 count = programUnits addr src 1 count := by
  apply numbered_units
  intro index inside
  have small : wrap32 (addr + index) = addr + index := Nat.mod_eq_of_lt (by omega)
  rw [small, Nat.one_mul]

/-- Below the address limit the wrapped page erases are consecutive blocks. -/
theorem page_erases_units (addr count : Nat) (fits : addr + fmcPageSize * count ≤ 2 ^ 32) :
    pageErases addr 0 count = eraseUnits addr fmcPageSize count := by
  apply numbered_units
  intro index inside
  have small : wrap32 (addr + fmcPageSize * index) = addr + fmcPageSize * index :=
    Nat.mod_eq_of_lt (by unfold fmcPageSize at *; omega)
  rw [small]

/-- A sound device performs every program of a word write below the address limit. -/
theorem gdf_write_data_by_word_sound (addr len : Nat) (buff : Mem) (fmc : Device)
    (sound : fmc.Sound) (fits : addr + 4 * (len / 4) ≤ 2 ^ 32) :
    gdfWriteDataByWord addr len buff fmc =
      (0, fmc.perform (programUnits addr buff 4 (len / 4))) := by
  rw [gdfWriteDataByWord, program_word_loop_sound addr buff _ 0 fmc sound,
    word_programs_units addr buff _ fits]

/-- A sound device performs a sector erase. -/
theorem gdf_erase_sector_sound (sector : Fin 12) (fmc : Device) (sound : fmc.Sound) :
    gdfEraseSector sector fmc =
      (0, fmc.perform [.erase (sectorStart sector) (sectorSize sector)]) := by
  rw [gdfEraseSector, fmcSectorErase, Device.issue_sound sound]

/-- Elementary operations of a page write at a page boundary inside the chip. -/
def writePlan (addr len : Nat) (buff : Mem) : List Op :=
  eraseUnits addr fmcPageSize (pageCount len) ++
    (programUnits addr buff 4 (len / 4) ++
      programUnits (addr + 4 * (len / 4)) (window buff (4 * (len / 4))) 1 (len % 4))

/-- The chip's address range: a page boundary whose covering pages exist. -/
def Writable (addr len : Nat) : Prop :=
  flashBase ≤ addr ∧ addr % fmcPageSize = 0 ∧
    addr + fmcPageSize * pageCount len ≤ flashBase + fmcPageSize * fmcPageMax

/-- The covering pages hold the whole length. -/
theorem page_count_covers (len : Nat) : len ≤ fmcPageSize * pageCount len := by
  unfold pageCount fmcPageSize
  split <;> omega

/-- A page write at a writable address, on a device that refuses nothing,
performs exactly its plan and reports success. -/
theorem gdf_write_data_by_page_sound (addr len : Nat) (buff : Mem) (fmc : Device)
    (sound : fmc.Sound) (writable : Writable addr len) :
    gdfWriteDataByPage addr len buff fmc = (0, fmc.perform (writePlan addr len buff)) := by
  obtain ⟨above, aligned, below⟩ := writable
  have covers := page_count_covers len
  have limit : fmcPageSize * fmcPageMax = 3145728 := by decide
  have base : flashBase = 134217728 := by decide
  have erase : gdfErasePages addr (pageCount len) fmc =
      (0, fmc.perform (eraseUnits addr fmcPageSize (pageCount len))) := by
    have offset : wrap32 (addr + 2 ^ 32 - flashBase) = addr - flashBase := by
      unfold wrap32
      omega
    have pages : (addr - flashBase) / fmcPageSize % 2 ^ 16 + pageCount len ≤ fmcPageMax := by
      unfold fmcPageSize fmcPageMax at *
      omega
    unfold gdfErasePages
    simp only [aligned, ne_eq, not_true_eq_false, if_false, offset, gt_iff_lt,
      Nat.not_lt.mpr pages]
    rw [erase_page_loop_sound addr _ 0 fmc sound, page_erases_units addr _ (by omega)]
  unfold gdfWriteDataByPage
  rw [erase]
  simp only
  rw [program_word_loop_sound addr buff _ 0 _ (Device.perform_sound sound _)]
  simp only
  rw [program_byte_loop_sound _ _ _ 0 _
      (Device.perform_sound (Device.perform_sound sound _) _),
    word_programs_units addr buff _ (by omega),
    byte_programs_units _ _ _ (by omega), ← Device.perform_append, ← Device.perform_append]
  simp only [writePlan]

/-- `flash_write` at a writable address, on a device that refuses nothing,
performs exactly its plan and reports success. -/
theorem flash_write_sound (addr len : Nat) (buff : Mem) (fmc : Device)
    (sound : fmc.Sound) (writable : Writable addr len) :
    flashWrite addr buff len fmc = (0, fmc.perform (writePlan addr len buff)) := by
  unfold flashWrite
  rw [gdf_write_data_by_page_sound addr len buff fmc sound writable]
  rfl

/-- A completed page write stores the buffer. Past the buffer the covering pages
are erased, and nothing outside them changes. -/
theorem write_plan_contents (memory : Mem) (addr len : Nat) (buff : Mem) (tested : Nat) :
    replay memory (writePlan addr len buff) tested =
      if addr ≤ tested ∧ tested < addr + len then buff (tested - addr)
      else if addr ≤ tested ∧ tested < addr + fmcPageSize * pageCount len then erased
      else memory tested := by
  have covers := page_count_covers len
  have split : 4 * (len / 4) + len % 4 = len := Nat.div_add_mod len 4
  rw [writePlan, replay_append, replay_append]
  simp only [replay_program_units, replay_erase_units, window, Nat.one_mul]
  by_cases stored : addr ≤ tested ∧ tested < addr + len
  · have cleared : addr ≤ tested ∧ tested < addr + fmcPageSize * pageCount len := by omega
    simp only [stored, cleared, and_self, if_true]
    by_cases inWords : tested < addr + 4 * (len / 4)
    · have notTail : ¬(addr + 4 * (len / 4) ≤ tested ∧
          tested < addr + 4 * (len / 4) + len % 4) := by omega
      simp [inWords, notTail, erased_and]
    · have tail : addr + 4 * (len / 4) ≤ tested ∧
          tested < addr + 4 * (len / 4) + len % 4 := by omega
      have position : 4 * (len / 4) + (tested - (addr + 4 * (len / 4))) = tested - addr := by omega
      simp [inWords, tail, erased_and, position]
  · have notWord : ¬(addr ≤ tested ∧ tested < addr + 4 * (len / 4)) := by omega
    have notTail : ¬(addr + 4 * (len / 4) ≤ tested ∧
        tested < addr + 4 * (len / 4) + len % 4) := by omega
    rw [if_neg notTail, if_neg notWord, if_neg stored]

/-- A page write touches nothing outside its covering pages. -/
theorem write_plan_misses (addr len : Nat) (buff : Mem) (address : Nat)
    (outside : address < addr ∨ addr + fmcPageSize * pageCount len ≤ address) :
    ∀ op ∈ writePlan addr len buff, ¬Touches op address := by
  have covers := page_count_covers len
  intro op member
  simp only [writePlan, eraseUnits, programUnits, List.mem_append, List.mem_map,
    List.mem_range] at member
  rcases member with ⟨page, inside, rfl⟩ | ⟨word, inside, rfl⟩ | ⟨byte, inside, rfl⟩
  · rintro ⟨low, high⟩
    unfold fmcPageSize at *
    omega
  · rintro ⟨low, high⟩
    rw [to_list_length] at high
    omega
  · rintro ⟨low, high⟩
    rw [to_list_length] at high
    omega

/-- A page write of at most one page that was interrupted after its erase has
programmed a prefix of the buffer and left the rest of it erased: words and
bytes are programmed in increasing address order. -/
theorem write_plan_interrupted (memory : Mem) (addr len : Nat) (buff : Mem) (cut : Nat)
    (onePage : pageCount len = 1) :
    ∃ done, ∀ tested, tested < len →
      replay memory ((writePlan addr len buff).take (cut + 1)) (addr + tested) =
        if tested < done then buff tested else erased := by
  have covers := page_count_covers len
  have split : 4 * (len / 4) + len % 4 = len := Nat.div_add_mod len 4
  have eraseOnly : (eraseUnits addr fmcPageSize (pageCount len)).length = 1 := by
    rw [erase_units_length, onePage]
  have prefixEq : (writePlan addr len buff).take (cut + 1) =
      eraseUnits addr fmcPageSize (pageCount len) ++
        (programUnits addr buff 4 (len / 4) ++ programUnits (addr + 4 * (len / 4))
          (window buff (4 * (len / 4))) 1 (len % 4)).take cut := by
    rw [writePlan, List.take_append, eraseOnly,
      List.take_of_length_le (by rw [eraseOnly]; omega), Nat.add_sub_cancel]
  rw [prefixEq]
  by_cases inWords : cut ≤ len / 4
  · refine ⟨4 * cut, fun tested inside => ?_⟩
    rw [List.take_append_of_le_length (by rw [program_units_length]; exact inWords),
      program_units_take _ _ _ _ _ inWords, replay_append, replay_program_units,
      replay_erase_units]
    have cleared : addr ≤ addr + tested ∧
        addr + tested < addr + fmcPageSize * pageCount len := by omega
    rw [if_pos cleared, Nat.add_sub_cancel_left, erased_and]
    have same : (addr ≤ addr + tested ∧ addr + tested < addr + 4 * cut) ↔ tested < 4 * cut := by
      omega
    simp only [same]
  · have count : min (cut - len / 4) (len % 4) ≤ len % 4 := Nat.min_le_right _ _
    have tail : (programUnits (addr + 4 * (len / 4)) (window buff (4 * (len / 4))) 1
        (len % 4)).take (cut - len / 4) = programUnits (addr + 4 * (len / 4))
          (window buff (4 * (len / 4))) 1 (min (cut - len / 4) (len % 4)) := by
      rw [← program_units_take _ _ _ _ _ count, List.take_eq_take_iff, program_units_length]
      omega
    refine ⟨4 * (len / 4) + min (cut - len / 4) (len % 4), fun tested inside => ?_⟩
    rw [List.take_append, program_units_length,
      List.take_of_length_le (by rw [program_units_length]; omega), tail, replay_append,
      replay_append, replay_program_units, replay_program_units, replay_erase_units]
    have cleared : addr ≤ addr + tested ∧
        addr + tested < addr + fmcPageSize * pageCount len := by omega
    rw [if_pos cleared, Nat.add_sub_cancel_left, erased_and, Nat.one_mul]
    by_cases early : tested < 4 * (len / 4)
    · rw [if_neg (by omega), if_pos (by omega), if_pos (by omega)]
    · have position : 4 * (len / 4) + (addr + tested - (addr + 4 * (len / 4))) = tested := by omega
      rw [if_neg (by omega : ¬(addr ≤ addr + tested ∧ addr + tested < addr + 4 * (len / 4))),
        window, position, erased_and]
      have same : (addr + 4 * (len / 4) ≤ addr + tested ∧
          addr + tested < addr + 4 * (len / 4) + min (cut - len / 4) (len % 4)) ↔
            tested < 4 * (len / 4) + min (cut - len / 4) (len % 4) := by omega
      simp only [same]

/-- What an operation and the loop behind it perform, the loop ending at a refusal. -/
theorem attempt_grows {kind : Op → Prop} {fmc : Device} {attempt : Bool × Device}
    {loop : Device → Int × Device} (issued : Device.Grows kind fmc attempt.2)
    (later : ∀ next, Device.Grows kind next (loop next).2) :
    Device.Grows kind fmc
      (match attempt with
        | (true, fmc) => loop fmc
        | (false, fmc) => (-1, fmc)).2 := by
  split
  · exact Device.grows_trans issued (later _)
  · exact issued

/-- Whatever is refused, the word loop performs programs of its words only. -/
theorem program_word_loop_grows {kind : Op → Prop} (addr : Nat) (src : Mem)
    (remaining index : Nat) (fmc : Device)
    (allowed : ∀ word, index ≤ word → word < index + remaining →
      kind (.program (wrap32 (addr + 4 * word)) (toList src (4 * word) 4))) :
    Device.Grows kind fmc (programWordLoop addr src remaining index fmc).2 := by
  induction remaining generalizing index fmc with
  | zero => exact Device.grows_refl kind fmc
  | succ remaining inductionHypothesis =>
    have issued : Device.Grows kind fmc
        (fmcWordProgram (wrap32 (addr + 4 * index)) (load32 src (4 * index)) fmc).2 := by
      rw [fmcWordProgram, word_bytes]
      exact Device.issue_grows (allowed index (by omega) (by omega)) fmc
    apply attempt_grows issued
    intro next
    exact inductionHypothesis (index + 1) next
      (fun word low high => allowed word (by omega) (by omega))

/-- Whatever is refused, the byte loop performs programs of its bytes only. -/
theorem program_byte_loop_grows {kind : Op → Prop} (addr : Nat) (src : Mem)
    (remaining index : Nat) (fmc : Device)
    (allowed : ∀ byte, index ≤ byte → byte < index + remaining →
      kind (.program (wrap32 (addr + byte)) [src byte])) :
    Device.Grows kind fmc (programByteLoop addr src remaining index fmc).2 := by
  induction remaining generalizing index fmc with
  | zero => exact Device.grows_refl kind fmc
  | succ remaining inductionHypothesis =>
    have issued : Device.Grows kind fmc
        (fmcByteProgram (wrap32 (addr + index)) (src index) fmc).2 :=
      Device.issue_grows (allowed index (by omega) (by omega)) fmc
    apply attempt_grows issued
    intro next
    exact inductionHypothesis (index + 1) next
      (fun byte low high => allowed byte (by omega) (by omega))

/-- Whatever is refused, the page eraser performs erases of its pages only. -/
theorem erase_page_loop_grows {kind : Op → Prop} (addr remaining index : Nat) (fmc : Device)
    (allowed : ∀ page, index ≤ page → page < index + remaining →
      kind (.erase (wrap32 (addr + fmcPageSize * page)) fmcPageSize)) :
    Device.Grows kind fmc (erasePageLoop addr remaining index fmc) := by
  induction remaining generalizing index fmc with
  | zero => exact Device.grows_refl kind fmc
  | succ remaining inductionHypothesis =>
    have issued : Device.Grows kind fmc
        (fmcPageErase (wrap32 (addr + fmcPageSize * index)) fmc).2 :=
      Device.issue_grows (allowed index (by omega) (by omega)) fmc
    exact Device.grows_trans issued (inductionHypothesis (index + 1) _
      (fun page low high => allowed page (by omega) (by omega)))

/-- Whatever is refused, a page write performs erases of its pages and programs of
its words and bytes only. -/
theorem write_data_by_page_grows {kind : Op → Prop} (addr len : Nat) (buff : Mem) (fmc : Device)
    (erases : ∀ page, page < pageCount len →
      kind (.erase (wrap32 (addr + fmcPageSize * page)) fmcPageSize))
    (words : ∀ word, word < len / 4 →
      kind (.program (wrap32 (addr + 4 * word)) (toList buff (4 * word) 4)))
    (bytes : ∀ byte, byte < len % 4 →
      kind (.program (wrap32 (addr + 4 * (len / 4) + byte)) [buff (4 * (len / 4) + byte)])) :
    Device.Grows kind fmc (gdfWriteDataByPage addr len buff fmc).2 := by
  have erased : Device.Grows kind fmc (gdfErasePages addr (pageCount len) fmc).2 := by
    unfold gdfErasePages
    simp only
    split
    · exact Device.grows_refl kind fmc
    · split
      · exact Device.grows_refl kind fmc
      · exact erase_page_loop_grows addr _ 0 fmc (fun page _ high => erases page (by omega))
  have programmed := program_word_loop_grows addr buff (len / 4) 0
    (gdfErasePages addr (pageCount len) fmc).2 (fun word _ high => words word (by omega))
  unfold gdfWriteDataByPage
  split
  · rename_i next completed
    rw [completed] at programmed
    have finished := program_byte_loop_grows (addr + 4 * (len / 4))
      (window buff (4 * (len / 4))) (len % 4) 0 next (fun byte _ high => bytes byte (by omega))
    exact Device.grows_trans erased (Device.grows_trans programmed finished)
  · rename_i code next stopped
    rw [stopped] at programmed
    exact Device.grows_trans erased programmed

end Pyrometer.FlashController
