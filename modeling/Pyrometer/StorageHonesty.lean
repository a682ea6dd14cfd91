import Pyrometer.ParameterSaving
import Pyrometer.SoftI2c

/-!
# What a successful storage call says

Success of `eeprom_write_lock` and `eeprom_read_lock` is honest for a behaviour of the
device and the mutex if it means, whatever the contents are, that all bytes were stored
or fetched. A save to the backup area is the list of its writes: one for the whole
structure, or two for each selected group. It ends at the first write that reports a
failure, so it is honest if some write reports one or all of them are stored.

Saves to the flash areas are one write of `flash_write`; the flash refuses nothing here.
-/

namespace Pyrometer.StorageHonesty

open ByteMemory ParameterLayout BitMasks FlashController SoftI2c
open EepromStorage (cellAddress pageChunk page_chunk_pos page_chunk_le)
open ParameterManager (StorageType groupMask paraRecalculateAllCrc)

section

variable (behaviour : Behaviour)

/-- The driver finds something wrong with a byte of a write's first page, so that the
call reports a failure. -/
def Refused (call addr len : Nat) : Prop :=
  behaviour.mutexTimeout call = false ∧
    ∃ index < 3 + pageChunk addr len, (behaviour.line call index).atLastPoll = true

/-- The call gets the mutex, the transfer lies in the lower half, the device acknowledges
all its bytes, and the driver finds nothing wrong with those before the last. -/
def Stored (call addr len : Nat) : Prop :=
  behaviour.mutexTimeout call = false ∧ addr + len ≤ 2 ^ 16 ∧
    (∀ index < busBytes addr len, (behaviour.line call index).acknowledges = true) ∧
    ∀ index < busBytes addr len - 1, (behaviour.line call index).atLastPoll = false

/-- The call gets the mutex and the driver finds something wrong with the addressing of a
read. -/
def ReadRefused (call : Nat) : Prop :=
  behaviour.mutexTimeout call = false ∧
    ∃ index < 4, (behaviour.line call index).atLastPoll = true

/-- The call gets the mutex, the device acknowledges the addressing of a read, and the
range starts in the lower half and ends in the chip. -/
def Fetched (call addr len : Nat) : Prop :=
  behaviour.mutexTimeout call = false ∧ addr < 2 ^ 16 ∧ addr + len ≤ 2 ^ 17 ∧
    ∀ index < 4, (behaviour.line call index).acknowledges = true

/-- Whatever is written, success means that all bytes are in the EEPROM. -/
def WriteHonest (call addr len : Nat) : Prop :=
  ∀ cells data, (eepromWriteLock behaviour addr data len ⟨cells, call⟩).1 = 0 →
    Agree (window (eepromWriteLock behaviour addr data len ⟨cells, call⟩).2.cells addr) data 0 len

/-- Whatever the EEPROM holds, success means that the buffer holds it. -/
def ReadHonest (call addr len : Nat) : Prop :=
  ∀ cells buff, (eepromReadLock behaviour addr buff len ⟨cells, call⟩).1 = 0 →
    Agree (eepromReadLock behaviour addr buff len ⟨cells, call⟩).2.1 (window cells addr) 0 len

end

section

variable {behaviour : Behaviour}

/-- A call counts as one. -/
theorem write_lock_calls (addr : Nat) (data : Mem) (len : Nat) (chip : Chip) :
    (eepromWriteLock behaviour addr data len chip).2.calls = chip.calls + 1 := by
  unfold eepromWriteLock
  split <;> rfl

/-- A write reports a failure exactly when the driver finds something wrong with its first
page. -/
theorem write_lock_refused (addr : Nat) (data : Mem) (len : Nat) (chip : Chip)
    (nonzero : 0 < len) :
    (eepromWriteLock behaviour addr data len chip).1 ≠ 0 ↔
      Refused behaviour chip.calls addr len := by
  have progress := @write_loop_progress (behaviour.line chip.calls) addr data len
    ⟨chip.cells, 0⟩ nonzero
  simp only [Quiet, Nat.zero_add] at progress
  have positive : 0 < len - (at24cWriteLoop (behaviour.line chip.calls) addr data len
      ⟨chip.cells, 0⟩).1 ↔ (at24cWriteLoop (behaviour.line chip.calls) addr data len
      ⟨chip.cells, 0⟩).1 < len := Nat.sub_pos_iff_lt
  unfold Refused
  cases timeout : behaviour.mutexTimeout chip.calls with
  | true => simp [eepromWriteLock, timeout]
  | false =>
    simp only [eepromWriteLock, timeout, at24cWrite, positive, progress, Bool.false_eq_true,
      if_false, true_and]
    constructor
    · intro failed
      by_contra quiet
      rw [if_pos (fun index below => ?_)] at failed
      · exact failed rfl
      · by_contra noisy
        exact quiet ⟨index, below, Bool.eq_true_of_not_eq_false noisy⟩
    · rintro ⟨index, below, noisy⟩
      rw [if_neg (fun quiet => by simp [quiet index below] at noisy)]
      decide

/-- A write touches no cell outside of a range in the lower half. -/
theorem write_lock_outside (addr : Nat) (data : Mem) (len : Nat) (chip : Chip) (address : Nat)
    (outside : 2 ^ 16 ≤ address ∨
      (addr + len ≤ 2 ^ 16 ∧ (address < addr ∨ addr + len ≤ address))) :
    (eepromWriteLock behaviour addr data len chip).2.cells address = chip.cells address := by
  unfold eepromWriteLock
  split
  · rfl
  · exact write_loop_outside addr data len ⟨chip.cells, 0⟩ address outside

/-- A write that meets the conditions is stored. -/
theorem write_lock_stores (addr : Nat) (data : Mem) (len : Nat) (chip : Chip)
    (stored : Stored behaviour chip.calls addr len) :
    (eepromWriteLock behaviour addr data len chip).2.cells = overlay chip.cells data addr len := by
  obtain ⟨locked, fits, heard, quiet⟩ := stored
  have taken : Taken (behaviour.line chip.calls) ⟨chip.cells, 0⟩ addr len := by
    simp only [Taken, Heard, Quiet, Nat.zero_add]
    exact ⟨heard, quiet⟩
  simp only [eepromWriteLock, locked, Bool.false_eq_true, if_false, at24cWrite]
  exact write_loop_stores addr data len ⟨chip.cells, 0⟩ fits taken

/-- If the cells of a range in the lower half held other values and hold the data after a
write, except perhaps for some bytes at the start of the first page, the write met the
conditions. -/
theorem write_lock_stored (addr : Nat) (data : Mem) (len first : Nat) (chip : Chip)
    (fits : addr + len ≤ 2 ^ 16) (positive : 0 < len) (inPage : first < pageChunk addr len)
    (different : ∀ offset < len, chip.cells (addr + offset) ≠ data offset)
    (stored : ∀ offset, first ≤ offset → offset < len →
      (eepromWriteLock behaviour addr data len chip).2.cells (addr + offset) = data offset) :
    Stored behaviour chip.calls addr len := by
  have bounded := page_chunk_le addr len
  cases timeout : behaviour.mutexTimeout chip.calls with
  | true =>
    simp only [eepromWriteLock, timeout, if_true] at stored
    exact absurd (stored first (Nat.le_refl _) (by omega)) (different first (by omega))
  | false =>
    simp only [eepromWriteLock, timeout, Bool.false_eq_true, if_false, at24cWrite] at stored
    have taken :=
      write_loop_taken addr data len first ⟨chip.cells, 0⟩ fits positive inPage different
      stored
    simp only [Taken, Heard, Quiet, Nat.zero_add] at taken
    exact ⟨timeout, fits, taken⟩

/-- Success of a write is honest exactly when there is nothing to write, the driver finds
something wrong with the first page, or the write meets the conditions. -/
theorem write_honest_iff (call addr len : Nat) :
    WriteHonest behaviour call addr len ↔
      len = 0 ∨ Refused behaviour call addr len ∨ Stored behaviour call addr len := by
  constructor
  · intro honest
    by_contra neither
    obtain ⟨nonzero, accepted, notStored⟩ := not_or.mp neither |>.imp_right not_or.mp
    have positive : 0 < len := Nat.pos_of_ne_zero nonzero
    have success : (eepromWriteLock behaviour addr (fun _ => 1) len ⟨fun _ => 0, call⟩).1 = 0 := by
      by_contra failed
      exact accepted ((write_lock_refused addr _ len ⟨fun _ => 0, call⟩ positive).mp failed)
    have agreed := honest (fun _ => 0) (fun _ => 1) success
    by_cases fits : addr + len ≤ 2 ^ 16
    · exact notStored (write_lock_stored addr (fun _ => 1) len 0 ⟨fun _ => 0, call⟩ fits positive
        (page_chunk_pos addr len nonzero) (fun _ _ => by simp)
        (fun offset _ inside => agreed offset (Nat.zero_le _) (by omega)))
    · have last := agreed (len - 1) (Nat.zero_le _) (by omega)
      rw [window, write_lock_outside _ _ _ _ _ (Or.inl (by omega))] at last
      exact absurd last (by simp)
  · rintro (rfl | refused | stored) cells data success
    · intro offset _ below
      omega
    · rcases Nat.eq_zero_or_pos len with rfl | some
      · intro offset _ below
        omega
      · exact absurd success ((write_lock_refused addr data len ⟨cells, call⟩ some).mpr refused)
    · intro offset _ inside
      rw [write_lock_stores addr data len ⟨cells, call⟩ stored, window,
        overlay_inside _ _ _ _ _ (by omega) (by omega), Nat.add_sub_cancel_left]

/-- A device that acknowledges every byte in time stores a transfer to the lower half as
the chip does whose page transfers are all acknowledged. -/
theorem prompt_write_refines (addr : Nat) (data : Mem) (len : Nat) (chip : EepromStorage.Eeprom)
    (call : Nat) (sound : chip.Sound) (locked : behaviour.mutexTimeout call = false)
    (prompt : ∀ index, (behaviour.line call index).acknowledges = true ∧
      (behaviour.line call index).atLastPoll = false)
    (positive : 0 < len) (fits : addr + len ≤ 2 ^ 16) :
    (eepromWriteLock behaviour addr data len ⟨chip.cells, call⟩).1 =
        (EepromStorage.eepromWriteLock addr data len chip).1 ∧
      (eepromWriteLock behaviour addr data len ⟨chip.cells, call⟩).2.cells =
        (EepromStorage.eepromWriteLock addr data len chip).2.cells := by
  have stored : Stored behaviour call addr len :=
    ⟨locked, fits, fun index _ => (prompt index).1, fun index _ => (prompt index).2⟩
  have success : (eepromWriteLock behaviour addr data len ⟨chip.cells, call⟩).1 = 0 := by
    by_contra failed
    obtain ⟨-, index, -, late⟩ := (write_lock_refused addr data len _ positive).mp failed
    exact absurd ((prompt index).2.symm.trans late) Bool.false_ne_true
  rw [success, write_lock_stores addr data len ⟨chip.cells, call⟩ stored,
    EepromStorage.eeprom_write_lock_sound addr data len chip sound positive fits]
  exact ⟨rfl, (EepromStorage.page_plan_contents chip.cells addr data len).symm⟩

/-- A read of some bytes: it fails, or it returns what the device or the noise says. -/
theorem read_lock_cases (addr : Nat) (buff : Mem) (len : Nat) (chip : Chip) (positive : 0 < len)
    (locked : behaviour.mutexTimeout chip.calls = false) :
    (ReadRefused behaviour chip.calls ∧ (eepromReadLock behaviour addr buff len chip).1 ≠ 0) ∨
    ∃ listening, (listening = true ↔
        ∀ index < 4, (behaviour.line chip.calls index).acknowledges = true) ∧
      (eepromReadLock behaviour addr buff len chip).1 = 0 ∧
      (eepromReadLock behaviour addr buff len chip).2.1 = overlay buff (if listening then
          fun offset => chip.cells ((cellAddress addr + offset) % 2 ^ 17)
        else behaviour.noise chip.calls) 0 len ∧
      ¬ReadRefused behaviour chip.calls := by
  rcases @at24c_read_cases (behaviour.line chip.calls) (behaviour.noise chip.calls) addr buff len
    ⟨chip.cells, 0⟩ with ⟨quiet, listening, listens, call⟩ | ⟨noisy, none⟩
  · simp only [Heard, Quiet, Nat.zero_add] at quiet listens
    refine Or.inr ⟨listening, listens, ?_, ?_, ?_⟩
    · simp [eepromReadLock, locked, call, positive]
    · simp [eepromReadLock, locked, call]
    · rintro ⟨-, index, below, noisy⟩
      simp [quiet index below] at noisy
  · simp only [Quiet, Nat.zero_add] at noisy
    refine Or.inl ⟨⟨locked, ?_⟩, ?_⟩
    · by_contra quiet
      refine noisy fun index below => ?_
      by_contra wrong
      exact quiet ⟨index, below, Bool.eq_true_of_not_eq_false wrong⟩
    · simp [eepromReadLock, locked, none]

/-- What an honest read that is not refused returns is what the EEPROM holds, whether the
device listens or not. -/
theorem honest_read_bytes (call addr len : Nat) (positive : 0 < len)
    (locked : behaviour.mutexTimeout call = false) (accepted : ¬ReadRefused behaviour call)
    (honest : ReadHonest behaviour call addr len) (cells : Mem) :
    ∃ listening, (listening = true ↔
        ∀ index < 4, (behaviour.line call index).acknowledges = true) ∧
      ∀ offset < len, (if listening = true then cells ((cellAddress addr + offset) % 2 ^ 17)
        else behaviour.noise call offset) = cells (addr + offset) := by
  rcases read_lock_cases addr (fun _ => 0) len ⟨cells, call⟩ positive locked with
    ⟨refused, -⟩ | ⟨listening, listens, success, bytes, -⟩
  · exact absurd refused accepted
  · refine ⟨listening, listens, fun offset inside => ?_⟩
    have agreed := honest cells (fun _ => 0) success offset (Nat.zero_le _) (by omega)
    rw [bytes, overlay_inside _ _ _ _ _ (Nat.zero_le _) (by omega), Nat.sub_zero] at agreed
    cases listening <;> exact agreed

/-- Success of a read is honest exactly when there is nothing to read, the driver finds
something wrong with the addressing, or the read meets the conditions. -/
theorem read_honest_iff (call addr len : Nat) :
    ReadHonest behaviour call addr len ↔
      len = 0 ∨ ReadRefused behaviour call ∨ Fetched behaviour call addr len := by
  rcases Nat.eq_zero_or_pos len with rfl | some
  · refine ⟨fun _ => Or.inl rfl, fun _ cells buff _ offset _ below => ?_⟩
    omega
  cases locked : behaviour.mutexTimeout call with
  | true =>
    constructor
    · intro honest
      have agreed := honest (fun _ => 0) (fun _ => 1) (by simp [eepromReadLock, locked]) 0
        (Nat.le_refl _) (by omega)
      simp [eepromReadLock, locked, window] at agreed
    · rintro (none | refused | fetched)
      · omega
      · exact absurd (locked.symm.trans refused.1) (by decide)
      · exact absurd (locked.symm.trans fetched.1) (by decide)
  | false =>
    constructor
    · intro honest
      by_contra neither
      obtain ⟨-, accepted, notFetched⟩ := not_or.mp neither |>.imp_right not_or.mp
      apply notFetched
      have returned := honest_read_bytes call addr len some locked accepted honest
      have heard : ∀ index < 4, (behaviour.line call index).acknowledges = true := by
        obtain ⟨listening, listens, bytes⟩ :=
          returned (fun address => behaviour.noise call (address - addr) + 1)
        cases listening with
        | true => exact listens.mp rfl
        | false =>
          have first := bytes 0 some
          simp at first
      obtain ⟨listening, listens, bytes⟩ :=
        returned (fun address => if address = addr then 1 else 0)
      obtain ⟨listeningLast, listensLast, bytesLast⟩ :=
        returned (fun address => if address = addr + (len - 1) then 1 else 0)
      have first := bytes 0 some
      have last := bytesLast (len - 1) (by omega)
      rw [if_pos (listens.mpr heard)] at first
      rw [if_pos (listensLast.mpr heard)] at last
      simp only [Nat.add_zero, if_true] at first last
      have start : cellAddress addr % 2 ^ 17 = addr := by
        by_contra other
        rw [if_neg other] at first
        exact absurd first (by decide)
      have finish : (cellAddress addr + (len - 1)) % 2 ^ 17 = addr + (len - 1) := by
        by_contra other
        rw [if_neg other] at last
        exact absurd last (by decide)
      unfold cellAddress at start finish
      exact ⟨locked, by omega, by omega, heard⟩
    · rintro (none | refused | ⟨-, low, inside, heard⟩) cells buff success
      · omega
      · rcases read_lock_cases addr buff len ⟨cells, call⟩ some locked with
          ⟨-, failed⟩ | ⟨-, -, -, -, accepted⟩
        · exact absurd success failed
        · exact absurd refused accepted
      · rcases read_lock_cases addr buff len ⟨cells, call⟩ some locked with
          ⟨-, failed⟩ | ⟨listening, listens, -, bytes, -⟩
        · exact absurd success failed
        · intro offset _ below
          have place : (cellAddress addr + offset) % 2 ^ 17 = addr + offset := by
            unfold cellAddress
            omega
          rw [bytes, overlay_inside _ _ _ _ _ (Nat.zero_le _) below, Nat.sub_zero,
            if_pos (listens.mpr heard)]
          exact congrArg cells place

end

/-- The flash behind its controller, and the EEPROM. -/
structure Media where
  fmc : NorFlash.Device
  chip : Chip

/-- An area as the code addresses it. -/
def Media.area (media : Media) (type : StorageType) : Mem :=
  match type.media with
  | .intFlash => window media.fmc.mem type.address
  | .extEeprom => window media.chip.cells type.address

section

variable (behaviour : Behaviour)

/-- `loc->write` at an offset of the area. -/
def storageWrite (type : StorageType) (offset : Nat) (buff : Mem) (len : Nat) (media : Media) :
    Int × Media :=
  match type.media with
  | .intFlash =>
      match flashWrite (type.address + offset) buff len media.fmc with
      | (code, fmc) => (code, { media with fmc := fmc })
  | .extEeprom =>
      match eepromWriteLock behaviour (type.address + offset) buff len media.chip with
      | (code, chip) => (code, { media with chip := chip })

/-- The group loop of `para_save_to_storage`. -/
def saveGroupLoop (type : StorageType) (paraState : BitVec 32) (para : Mem) :
    List ParaType → Media → Int × Media
  | [], media => (0, media)
  | group :: rest, media =>
      if hasBit paraState group.index then
        match storageWrite behaviour type group.offset (window para group.offset) group.size
            media with
        | (0, media) =>
            match storageWrite behaviour type (crcWord group) (window para (crcWord group)) 2
                media with
            | (0, media) => saveGroupLoop type paraState para rest media
            | (code, media) => (code, media)
        | (code, media) => (code, media)
      else saveGroupLoop type paraState para rest media

/-- `para_save_to_storage`. -/
def paraSaveToStorage (type : StorageType) (paraState : BitVec 32) (sysPara : Mem)
    (media : Media) : Int × Media :=
  let para := paraRecalculateAllCrc sysPara
  if paraState &&& groupMask = groupMask then
    storageWrite behaviour type 0 para sizeofSysPara media
  else
    match type.media with
    | .intFlash => storageWrite behaviour type 0 para sizeofSysPara media
    | .extEeprom => saveGroupLoop behaviour type paraState para ParaType.all media

/-- Whatever the parameters and the EEPROM are, success of a save means that every
selected group and its checksum word are in the area. -/
def SaveHonest (type : StorageType) (paraState : BitVec 32) (call : Nat) : Prop :=
  ∀ sysPara fmc cells, fmc.Sound →
    (paraSaveToStorage behaviour type paraState sysPara ⟨fmc, ⟨cells, call⟩⟩).1 = 0 →
    ∀ group : ParaType, hasBit paraState group.index = true →
      ∀ address, Owns group address →
        (paraSaveToStorage behaviour type paraState sysPara ⟨fmc, ⟨cells, call⟩⟩).2.area type
          address = paraRecalculateAllCrc sysPara address

end

/-- One write of a save to the backup area. -/
structure Request where
  offset : Nat
  len : Nat
  deriving DecidableEq

/-- The writes for a group, if it is selected. -/
def groupRequests (paraState : BitVec 32) (group : ParaType) : List Request :=
  if hasBit paraState group.index then [⟨group.offset, group.size⟩, ⟨crcWord group, 2⟩] else []

/-- The writes of a save to the backup area, in order. -/
def requests (paraState : BitVec 32) : List Request :=
  if paraState &&& groupMask = groupMask then [⟨0, sizeofSysPara⟩]
  else ParaType.all.flatMap (groupRequests paraState)

section

variable (behaviour : Behaviour)

/-- Write one request after the other, up to the first that reports a failure. -/
def writeAll (para : Mem) : List Request → Chip → Int × Chip
  | [], chip => (0, chip)
  | request :: rest, chip =>
      match eepromWriteLock behaviour request.offset (window para request.offset) request.len
          chip with
      | (0, chip) => writeAll para rest chip
      | (code, chip) => (code, chip)

end

section

variable {behaviour : Behaviour}

/-- A write to the backup area is a write to the EEPROM at the same address. -/
theorem storage_write_backup (offset : Nat) (buff : Mem) (len : Nat) (media : Media) :
    storageWrite behaviour .backup offset buff len media =
      ((eepromWriteLock behaviour offset buff len media.chip).1,
        { media with chip := (eepromWriteLock behaviour offset buff len media.chip).2 }) := by
  have start : StorageType.address .backup + offset = offset := Nat.zero_add offset
  simp only [storageWrite, StorageType.media, start]

/-- Writing continues exactly after a success. -/
theorem write_all_cons (para : Mem) (request : Request) (rest : List Request) (chip : Chip) :
    writeAll behaviour para (request :: rest) chip =
      if (eepromWriteLock behaviour request.offset (window para request.offset) request.len
          chip).1 = 0 then
        writeAll behaviour para rest (eepromWriteLock behaviour request.offset
          (window para request.offset) request.len chip).2
      else eepromWriteLock behaviour request.offset (window para request.offset) request.len
        chip := by
  rw [writeAll]
  split
  · rename_i written call
    rw [call, if_pos rfl]
  · rename_i code written failed call
    rw [call, if_neg failed]

/-- The group loop writes its requests in turn. -/
theorem save_group_loop_writes (paraState : BitVec 32) (para : Mem) (groups : List ParaType)
    (media : Media) :
    saveGroupLoop behaviour .backup paraState para groups media =
      ((writeAll behaviour para (groups.flatMap (groupRequests paraState)) media.chip).1,
        { media with chip :=
          (writeAll behaviour para (groups.flatMap (groupRequests paraState)) media.chip).2 }) := by
  induction groups generalizing media with
  | nil => rfl
  | cons group rest inductionHypothesis =>
    by_cases chosen : hasBit paraState group.index = true
    · simp only [saveGroupLoop, groupRequests, chosen, if_true, List.flatMap_cons,
        List.cons_append, List.nil_append, write_all_cons, storage_write_backup]
      by_cases data : (eepromWriteLock behaviour group.offset (window para group.offset)
          group.size media.chip).1 = 0
      · rw [if_pos data, data]
        simp only
        by_cases word : (eepromWriteLock behaviour (crcWord group) (window para (crcWord group)) 2
            (eepromWriteLock behaviour group.offset (window para group.offset) group.size
              media.chip).2).1 = 0
        · rw [if_pos word, word]
          exact inductionHypothesis _
        · rw [if_neg word]
          split
          · rename_i call
            exact absurd (congrArg Prod.fst call) word
          · rename_i call
            rw [← call]
      · rw [if_neg data]
        split
        · rename_i call
          exact absurd (congrArg Prod.fst call) data
        · rename_i call
          rw [← call]
    · simp only [saveGroupLoop, groupRequests, chosen, if_false, Bool.false_eq_true,
        List.flatMap_cons, List.nil_append]
      exact inductionHypothesis media

/-- Requests of some bytes each in the lower half, none of which overlaps another. -/
structure Separate (list : List Request) : Prop where
  nonempty : ∀ request ∈ list, 0 < request.len
  fits : ∀ request ∈ list, request.offset + request.len ≤ 2 ^ 16
  apart : list.Pairwise fun first second =>
    first.offset + first.len ≤ second.offset ∨ second.offset + second.len ≤ first.offset

/-- Requests after the first are separate, and apart from it. -/
theorem separate_cons {request : Request} {rest : List Request}
    (separate : Separate (request :: rest)) :
    Separate rest ∧ 0 < request.len ∧ request.offset + request.len ≤ 2 ^ 16 ∧
      ∀ other ∈ rest, request.offset + request.len ≤ other.offset ∨
        other.offset + other.len ≤ request.offset :=
  ⟨⟨fun other member => separate.nonempty other (List.mem_cons_of_mem _ member),
      fun other member => separate.fits other (List.mem_cons_of_mem _ member),
      (List.pairwise_cons.mp separate.apart).2⟩,
    separate.nonempty request List.mem_cons_self, separate.fits request List.mem_cons_self,
    (List.pairwise_cons.mp separate.apart).1⟩

/-- No request of a list is refused. -/
def Unrefused (behaviour : Behaviour) (list : List Request) (call : Nat) : Prop :=
  ∀ (index : Nat) (request : Request), list[index]? = some request →
    ¬Refused behaviour (call + index) request.offset request.len

/-- No request after the first is refused either, and the first one is not. -/
theorem unrefused_cons (request : Request) (rest : List Request) (call : Nat) :
    Unrefused behaviour (request :: rest) call ↔
      ¬Refused behaviour call request.offset request.len ∧
        Unrefused behaviour rest (call + 1) := by
  constructor
  · intro unrefused
    refine ⟨unrefused 0 request rfl, fun index other found => ?_⟩
    have later := unrefused (index + 1) other (by simpa using found)
    rwa [Nat.add_comm index 1, ← Nat.add_assoc] at later
  · rintro ⟨first, others⟩ index other found
    cases index with
    | zero =>
      obtain rfl : request = other := by simpa using found
      exact first
    | succ index =>
      have later := others index other (by simpa using found)
      rwa [Nat.add_assoc, Nat.add_comm 1 index] at later

/-- Requests are written without a failure exactly when none is refused. -/
theorem write_all_zero (para : Mem) (list : List Request) (chip : Chip)
    (nonempty : ∀ request ∈ list, 0 < request.len) :
    (writeAll behaviour para list chip).1 = 0 ↔ Unrefused behaviour list chip.calls := by
  induction list generalizing chip with
  | nil => simp [writeAll, Unrefused]
  | cons request rest inductionHypothesis =>
    have refused := @write_lock_refused behaviour request.offset
      (window para request.offset) request.len chip (nonempty request List.mem_cons_self)
    have later := inductionHypothesis (eepromWriteLock behaviour request.offset
      (window para request.offset) request.len chip).2
      (fun other member => nonempty other (List.mem_cons_of_mem _ member))
    rw [write_lock_calls] at later
    rw [write_all_cons, unrefused_cons, ← refused, ← later]
    by_cases success : (eepromWriteLock behaviour request.offset (window para request.offset)
        request.len chip).1 = 0
    · rw [if_pos success]
      exact ⟨fun rest => ⟨not_not.mpr success, rest⟩, fun both => both.2⟩
    · rw [if_neg success]
      exact ⟨fun zero => absurd zero success, fun both => absurd success both.1⟩

/-- Writing requests keeps the cells outside of all of them. -/
theorem write_all_outside (para : Mem) (list : List Request) (chip : Chip) (address : Nat)
    (fits : ∀ request ∈ list, request.offset + request.len ≤ 2 ^ 16)
    (outside : ∀ request ∈ list,
      address < request.offset ∨ request.offset + request.len ≤ address) :
    (writeAll behaviour para list chip).2.cells address = chip.cells address := by
  induction list generalizing chip with
  | nil => rfl
  | cons request rest inductionHypothesis =>
    have first := @write_lock_outside behaviour request.offset
      (window para request.offset) request.len chip address
      (Or.inr ⟨fits request List.mem_cons_self, outside request List.mem_cons_self⟩)
    have later := inductionHypothesis (eepromWriteLock behaviour request.offset
      (window para request.offset) request.len chip).2
      (fun other member => fits other (List.mem_cons_of_mem _ member))
      (fun other member => outside other (List.mem_cons_of_mem _ member))
    rw [write_all_cons]
    split
    · rw [later, first]
    · exact first

/-- A request of a list in which none is refused: the call that writes it starts on the
cells the list started on, and leaves the cells the list leaves. -/
theorem write_all_at (para : Mem) (list : List Request) (chip : Chip) (separate : Separate list)
    (unrefused : Unrefused behaviour list chip.calls) (index : Nat) (request : Request)
    (found : list[index]? = some request) :
    ∃ before : Chip, before.calls = chip.calls + index ∧
      ∀ address, request.offset ≤ address → address < request.offset + request.len →
        before.cells address = chip.cells address ∧
        (writeAll behaviour para list chip).2.cells address =
          (eepromWriteLock behaviour request.offset (window para request.offset) request.len
            before).2.cells address := by
  induction list generalizing chip index with
  | nil => simp at found
  | cons head rest inductionHypothesis =>
    obtain ⟨later, nonempty, fits, apart⟩ := separate_cons separate
    obtain ⟨notRefused, others⟩ := (unrefused_cons head rest chip.calls).mp unrefused
    have success : (eepromWriteLock behaviour head.offset (window para head.offset) head.len
        chip).1 = 0 := by
      by_contra failed
      exact notRefused ((write_lock_refused _ _ _ chip nonempty).mp failed)
    rw [write_all_cons, if_pos success]
    cases index with
    | zero =>
      obtain rfl : head = request := by simpa using found
      refine ⟨chip, rfl, fun address low high => ⟨rfl, ?_⟩⟩
      exact write_all_outside para rest _ address later.fits fun other member => by
        have away := apart other member
        omega
    | succ index =>
      have inRest : rest[index]? = some request := by simpa using found
      obtain ⟨before, calls, cells⟩ := inductionHypothesis
        (eepromWriteLock behaviour head.offset (window para head.offset) head.len chip).2 later
        (by rw [write_lock_calls]; exact others) index inRest
      refine ⟨before, ?_, fun address low high => ⟨?_, (cells address low high).2⟩⟩
      · rw [calls, write_lock_calls]
        omega
      · have away := apart request (List.mem_of_getElem? inRest)
        rw [(cells address low high).1]
        exact write_lock_outside _ _ _ chip address (Or.inr ⟨fits, by omega⟩)

/-- A save to the backup area writes its requests in turn. -/
theorem save_backup_writes (paraState : BitVec 32) (sysPara : Mem) (media : Media) :
    paraSaveToStorage behaviour .backup paraState sysPara media =
      ((writeAll behaviour (paraRecalculateAllCrc sysPara) (requests paraState) media.chip).1,
        { media with chip := (writeAll behaviour (paraRecalculateAllCrc sysPara)
          (requests paraState) media.chip).2 }) := by
  by_cases whole : paraState &&& groupMask = groupMask
  · have start : window (paraRecalculateAllCrc sysPara) 0 = paraRecalculateAllCrc sysPara := by
      funext address
      exact congrArg _ (Nat.zero_add address)
    simp only [paraSaveToStorage, requests, whole, if_true, storage_write_backup, write_all_cons,
      writeAll, start]
    split
    · rename_i success
      rw [success]
    · rfl
  · simp only [paraSaveToStorage, requests, whole, if_false, StorageType.media,
      save_group_loop_writes]

end

/-- A request for a group is for its data or for its checksum word. -/
theorem mem_group_requests {paraState : BitVec 32} {group : ParaType} {request : Request} :
    request ∈ groupRequests paraState group ↔ hasBit paraState group.index = true ∧
      (request = ⟨group.offset, group.size⟩ ∨ request = ⟨crcWord group, 2⟩) := by
  unfold groupRequests
  by_cases chosen : hasBit paraState group.index = true
  · simp [chosen]
  · simp [chosen]

/-- The bytes of a request for a group belong to the group. -/
theorem group_request_owned {paraState : BitVec 32} {group : ParaType} {request : Request}
    (member : request ∈ groupRequests paraState group) (address : Nat)
    (low : request.offset ≤ address) (high : address < request.offset + request.len) :
    Owns group address := by
  rcases (mem_group_requests.mp member).2 with rfl | rfl
  · exact owns_data low high
  · exact owns_word low high

/-- Requests for groups lie inside the structure. -/
theorem group_request_bounds {paraState : BitVec 32} {group : ParaType} {request : Request}
    (member : request ∈ groupRequests paraState group) :
    0 < request.len ∧ request.offset + request.len ≤ 2 ^ 16 := by
  have data := group_bounds group
  have word := crc_word_bounds group
  have small : sizeofSysPara ≤ 2 ^ 16 := by decide
  rcases (mem_group_requests.mp member).2 with rfl | rfl
  · simp only
    omega
  · simp only
    omega

/-- Requests for different groups do not overlap. -/
theorem group_requests_apart {paraState : BitVec 32} {first second : ParaType}
    (different : first ≠ second) {left right : Request}
    (inFirst : left ∈ groupRequests paraState first)
    (inSecond : right ∈ groupRequests paraState second) :
    left.offset + left.len ≤ right.offset ∨ right.offset + right.len ≤ left.offset := by
  by_contra overlap
  have leftSome := (group_request_bounds inFirst).1
  have rightSome := (group_request_bounds inSecond).1
  have shared := owner_unique first second (max left.offset right.offset)
    (group_request_owned inFirst _ (by omega) (by omega))
    (group_request_owned inSecond _ (by omega) (by omega))
  exact different shared

/-- The requests of a save do not overlap. -/
theorem requests_separate (paraState : BitVec 32) : Separate (requests paraState) := by
  unfold requests
  split
  · refine ⟨fun request member => ?_, fun request member => ?_, List.pairwise_singleton _ _⟩
    · rw [List.mem_singleton.mp member]
      decide
    · rw [List.mem_singleton.mp member]
      decide
  · refine ⟨fun request member => ?_, fun request member => ?_, ?_⟩
    · obtain ⟨group, -, inGroup⟩ := List.mem_flatMap.mp member
      exact (group_request_bounds inGroup).1
    · obtain ⟨group, -, inGroup⟩ := List.mem_flatMap.mp member
      exact (group_request_bounds inGroup).2
    · rw [List.pairwise_flatMap]
      refine ⟨fun group _ => ?_, ?_⟩
      · unfold groupRequests
        split
        · have data := group_bounds group
          have word := crc_word_bounds group
          simp only [List.pairwise_cons, List.mem_singleton, forall_eq, List.not_mem_nil,
            false_implies, implies_true, List.Pairwise.nil, and_true]
          omega
        · exact List.Pairwise.nil
      · exact all_nodup.imp fun different left inFirst right inSecond =>
          group_requests_apart different inFirst inSecond

/-- A save of everything selects every group. -/
theorem whole_selects {paraState : BitVec 32} (whole : paraState &&& groupMask = groupMask)
    (group : ParaType) : hasBit paraState group.index = true := by
  have inMask := ParameterChecks.group_mask_index group
  have inside : group.index < 32 := (index_lt group).trans (by decide)
  rw [← whole, has_bit_and _ _ _ inside, Bool.and_eq_true] at inMask
  exact inMask.1

/-- The bytes of a request belong to selected groups, up to the magic word at the start
of the structure. -/
theorem request_owned {paraState : BitVec 32} {request : Request}
    (member : request ∈ requests paraState) :
    ∃ first < pageChunk request.offset request.len, ∀ address, request.offset + first ≤ address →
      address < request.offset + request.len →
        ∃ group : ParaType, hasBit paraState group.index = true ∧ Owns group address := by
  unfold requests at member
  split at member
  · rename_i whole
    rw [List.mem_singleton.mp member]
    refine ⟨4, by decide, fun address low high => ?_⟩
    obtain ⟨group, owned⟩ := owner_exists address (by simpa using low) (by simpa using high)
    exact ⟨group, whole_selects whole group, owned⟩
  · obtain ⟨group, -, inGroup⟩ := List.mem_flatMap.mp member
    have nonempty := (group_request_bounds inGroup).1
    exact ⟨0, page_chunk_pos _ _ (by omega), fun address low high =>
      ⟨group, (mem_group_requests.mp inGroup).1,
        group_request_owned inGroup address (by omega) high⟩⟩

/-- Every byte of a selected group is requested. -/
theorem owned_requested {paraState : BitVec 32} {group : ParaType} {address : Nat}
    (chosen : hasBit paraState group.index = true) (owned : Owns group address) :
    ∃ request ∈ requests paraState,
      request.offset ≤ address ∧ address < request.offset + request.len := by
  have data := group_bounds group
  have word := crc_word_bounds group
  unfold requests
  split
  · refine ⟨⟨0, sizeofSysPara⟩, List.mem_singleton_self _, Nat.zero_le _, ?_⟩
    unfold Owns at owned
    simp only
    omega
  · rcases owned with inData | inWord
    · exact ⟨⟨group.offset, group.size⟩, List.mem_flatMap.mpr ⟨group, mem_all group,
        mem_group_requests.mpr ⟨chosen, Or.inl rfl⟩⟩, inData⟩
    · exact ⟨⟨crcWord group, 2⟩, List.mem_flatMap.mpr ⟨group, mem_all group,
        mem_group_requests.mpr ⟨chosen, Or.inr rfl⟩⟩, inWord⟩

section

variable {behaviour : Behaviour}

/-- A save to a flash that refuses nothing stores the whole structure. -/
theorem flash_save_honest (type : StorageType) (inFlash : type.media = .intFlash)
    (paraState : BitVec 32) (call : Nat) : SaveHonest behaviour type paraState call := by
  intro sysPara fmc cells sound _ group _ address owned
  have data := group_bounds group
  have word := crc_word_bounds group
  have inside : address < sizeofSysPara := by
    unfold Owns at owned
    omega
  have written := flash_write_sound (type.address + 0) sizeofSysPara
    (paraRecalculateAllCrc sysPara) fmc sound (ParameterSaving.flash_area_writable type inFlash)
  rw [Nat.add_zero] at written
  simp only [paraSaveToStorage, inFlash, storageWrite, ite_self, Nat.add_zero, written,
    Media.area, window, NorFlash.Device.perform_mem]
  rw [write_plan_contents, if_pos (by omega), Nat.add_sub_cancel_left]

/-- The backup area starts at the first cell. -/
theorem backup_area (media : Media) : media.area .backup = media.chip.cells := by
  funext address
  exact congrArg media.chip.cells (Nat.zero_add address)

/-- If success of a save to the backup area is honest and no request is refused, every
request is stored. -/
theorem backup_requests_stored (paraState : BitVec 32) (call : Nat)
    (honest : SaveHonest behaviour .backup paraState call)
    (unrefused : Unrefused behaviour (requests paraState) call) (index : Nat) (request : Request)
    (found : (requests paraState)[index]? = some request) :
    Stored behaviour (call + index) request.offset request.len := by
  have separate := requests_separate paraState
  have member := List.mem_of_getElem? found
  obtain ⟨first, inPage, owned⟩ := request_owned member
  let para := paraRecalculateAllCrc fun _ => 0
  let chip : Chip := ⟨fun address => para address + 1, call⟩
  have success : (writeAll behaviour para (requests paraState) chip).1 = 0 :=
    (write_all_zero para _ chip separate.nonempty).mpr unrefused
  obtain ⟨before, calls, cells⟩ :=
    write_all_at para (requests paraState) chip separate unrefused index request found
  have stored := honest (fun _ => 0) (NorFlash.Device.healthy fun _ => 0) chip.cells
    (NorFlash.Device.healthy_sound _)
  rw [save_backup_writes, backup_area] at stored
  have result : Stored behaviour before.calls request.offset request.len := by
    refine write_lock_stored request.offset (window para request.offset) request.len first before
      (separate.fits request member) (separate.nonempty request member) inPage ?_ ?_
    · intro offset inside
      rw [(cells _ (by omega) (by omega)).1]
      simp [chip, window]
    · intro offset low inside
      obtain ⟨group, chosen, owner⟩ := owned (request.offset + offset) (by omega) (by omega)
      rw [← (cells _ (by omega) (by omega)).2]
      exact stored success group chosen _ owner
  rw [calls] at result
  exact result

/-- Success of a save is honest exactly when the area is in flash, some request is
refused, or every request is stored. -/
theorem save_honest_iff (type : StorageType) (paraState : BitVec 32) (call : Nat) :
    SaveHonest behaviour type paraState call ↔
      type ≠ .backup ∨
      (∃ index request, (requests paraState)[index]? = some request ∧
        Refused behaviour (call + index) request.offset request.len) ∨
      ∀ index request, (requests paraState)[index]? = some request →
        Stored behaviour (call + index) request.offset request.len := by
  have inFlash : type ≠ .backup → SaveHonest behaviour type paraState call := by
    intro other
    apply flash_save_honest
    cases type with
    | user => rfl
    | backup => exact absurd rfl other
    | factory => rfl
  by_cases other : type ≠ .backup
  · exact ⟨fun _ => Or.inl other, fun _ => inFlash other⟩
  · obtain rfl := not_not.mp other
    constructor
    · intro honest
      by_cases unrefused : Unrefused behaviour (requests paraState) call
      · exact Or.inr (Or.inr (backup_requests_stored paraState call honest unrefused))
      · simp only [Unrefused, not_forall, not_not] at unrefused
        obtain ⟨index, request, found, refused⟩ := unrefused
        exact Or.inr (Or.inl ⟨index, request, found, refused⟩)
    · rintro (flash | ⟨index, request, found, refused⟩ | stored) sysPara fmc cells sound success
      · exact absurd rfl flash
      · rw [save_backup_writes, write_all_zero _ _ _ (requests_separate paraState).nonempty]
          at success
        exact absurd refused (success index request found)
      · intro group chosen address owner
        obtain ⟨request, member, low, high⟩ := owned_requested chosen owner
        obtain ⟨index, found⟩ := List.getElem?_of_mem member
        rw [save_backup_writes] at success
        rw [save_backup_writes, backup_area]
        obtain ⟨before, calls, written⟩ := write_all_at (paraRecalculateAllCrc sysPara) _
          ⟨cells, call⟩ (requests_separate paraState)
          ((write_all_zero _ _ _ (requests_separate paraState).nonempty).mp success) index request
          found
        have kept : Stored behaviour before.calls request.offset request.len := by
          rw [calls]
          exact stored index request found
        rw [(written address low high).2, write_lock_stores _ _ _ _ kept,
          overlay_inside _ _ _ _ _ low high, window]
        congr 1
        omega

end

/-- Success of a write, a read or a save means that the bytes were transferred exactly
for the behaviours that the driver finds something wrong with early enough, or that the
mutex, the device and the address let through; saves are judged write by write. -/
theorem storage_success_iff (behaviour : Behaviour) (call : Nat) :
    (∀ addr len, WriteHonest behaviour call addr len ↔
      len = 0 ∨ Refused behaviour call addr len ∨ Stored behaviour call addr len) ∧
    (∀ addr len, ReadHonest behaviour call addr len ↔
      len = 0 ∨ ReadRefused behaviour call ∨ Fetched behaviour call addr len) ∧
    ∀ type paraState, SaveHonest behaviour type paraState call ↔
      type ≠ .backup ∨
      (∃ index request, (requests paraState)[index]? = some request ∧
        Refused behaviour (call + index) request.offset request.len) ∨
      ∀ index request, (requests paraState)[index]? = some request →
        Stored behaviour (call + index) request.offset request.len :=
  ⟨write_honest_iff call, read_honest_iff call, fun type paraState =>
    save_honest_iff type paraState call⟩

/-- A write that does not get the mutex succeeds without storing its byte. -/
theorem timed_out_write_succeeds :
    ¬∀ (behaviour : Behaviour) (call : Nat),
      (∀ addr len, WriteHonest behaviour call addr len) ∧
      (∀ addr len, ReadHonest behaviour call addr len) ∧
      ∀ type paraState, SaveHonest behaviour type paraState call := by
  intro honest
  have stored := (honest ⟨fun _ _ => some 0, fun _ _ => 0, fun _ => true⟩ 0).1 0 1 (fun _ => 0)
    (fun _ => 1) rfl 0 (Nat.le_refl _) Nat.zero_lt_one
  exact absurd stored (by decide)

end Pyrometer.StorageHonesty
