import Pyrometer.EepromStorage

/-!
# Addresses of the EEPROM

The AT24CM01 has 128 KB and takes address bit 16 from its device-select byte.
`eeprom.c` sets that bit for another chip type only (`AT24C1024`), so the lower two
bytes of an address are all the chip is told, and an address of the upper half names
a cell of the lower one. Reads run on through the whole chip once they have started.

The law of a byte array holds for the transfers that end at 64 KB or before. The areas
of the EEPROM map are compared by the cells that the single addresses of each name.
-/

namespace Pyrometer.EepromAliasing

open ByteMemory EepromStorage

/-- The chip behaves like an array on the range: a write followed by a read returns
what was written, and the rest of the chip keeps its value. -/
def StoresRange (addr len : Nat) : Prop :=
  ∀ (chip : Eeprom) (data buff : Mem), chip.Sound →
    (at24cWrite addr data len chip).1 = len ∧
    (at24cRead addr buff len (at24cWrite addr data len chip).2).1 = len ∧
    Agree (at24cRead addr buff len (at24cWrite addr data len chip).2).2.1 data 0 len ∧
    ∀ address < 2 ^ 17, address < addr ∨ addr + len ≤ address →
      (at24cWrite addr data len chip).2.cells address = chip.cells address

/-- The areas of the EEPROM map: the backup of the parameters, the index of the logs,
the black box log, the log of working states, and the test area. -/
inductive Area where
  | backupPara
  | recIndex
  | recBbox
  | recState
  | test
  deriving DecidableEq

/-- The first address of an area. -/
def Area.on : Area → Nat
  | .backupPara => 0
  | .recIndex => 4096
  | .recBbox => 4352
  | .recState => 63360
  | .test => 131008

/-- The address behind an area. -/
def Area.off : Area → Nat
  | .backupPara => 4096
  | .recIndex => 4352
  | .recBbox => 63360
  | .recState => 131008
  | .test => 131072

/-- No address of one area names a cell that an address of the other names. -/
def Area.Apart (first second : Area) : Prop :=
  ∀ left right, first.on ≤ left → left < first.off → second.on ≤ right → right < second.off →
    cellAddress left ≠ cellAddress right

/-- A page transfer stays in its page, also in the cells the chip stores it to. -/
theorem page_chunk_inside (addr remain : Nat) :
    cellAddress addr + pageChunk addr remain ≤ 2 ^ 16 := by
  have most : pageChunk addr remain ≤ at24cPageSize - addr % at24cPageSize :=
    Nat.min_le_left _ _
  unfold cellAddress
  simp only [at24cPageSize] at most
  omega

/-- A sound chip stores a page transfer whole. -/
theorem write_in_page_sound (addr : Nat) (data : Mem) (len : Nat) (chip : Eeprom)
    (sound : chip.Sound) :
    (writeInPage addr data len chip).1 = len ∧
      (writeInPage addr data len chip).2.cells =
        overlay chip.cells (ofList (toList data 0 len)) (cellAddress addr) len ∧
      (writeInPage addr data len chip).2.Sound := by
  simp [writeInPage, sound.1 chip.transfers, storePage, Eeprom.Sound, sound.1, sound.2]

/-- On a sound chip the cell that the last address of a write names holds the last byte. -/
theorem write_loop_last (addr : Nat) (data : Mem) (remain : Nat) (chip : Eeprom)
    (sound : chip.Sound) (nonzero : 0 < remain) :
    (at24cWriteLoop addr data remain chip).2.cells (cellAddress (addr + (remain - 1))) =
      data (remain - 1) := by
  induction remain using Nat.strong_induction_on generalizing addr data chip with
  | _ remain inductionHypothesis =>
    have positive := page_chunk_pos addr remain (by omega)
    have bounded := page_chunk_le addr remain
    have inside := page_chunk_inside addr remain
    obtain ⟨whole, cells, still⟩ :=
      write_in_page_sound addr data (pageChunk addr remain) chip sound
    rw [at24cWriteLoop, if_neg (by omega)]
    simp only [whole, ne_eq, not_true_eq_false, if_false]
    rcases Nat.lt_or_eq_of_le bounded with more | last
    · have later := inductionHypothesis (remain - pageChunk addr remain) (by omega)
        (addr + pageChunk addr remain) (window data (pageChunk addr remain))
        (writeInPage addr data (pageChunk addr remain) chip).2 still (by omega)
      have place : addr + pageChunk addr remain + (remain - pageChunk addr remain - 1) =
          addr + (remain - 1) := by omega
      have offset : pageChunk addr remain + (remain - pageChunk addr remain - 1) =
          remain - 1 := by omega
      rw [place, window, offset] at later
      exact later
    · have place : cellAddress (addr + (remain - 1)) = cellAddress addr + (remain - 1) := by
        unfold cellAddress at inside ⊢
        omega
      rw [last, Nat.sub_self, at24cWriteLoop, if_pos rfl]
      rw [last] at cells inside
      simp only [cells]
      rw [place, overlay_inside _ _ _ _ _ (by omega) (by omega), Nat.add_sub_cancel_left,
        of_list_to_list _ _ _ _ (by omega), Nat.zero_add]

/-- A range that ends at 64 KB or before behaves like an array. -/
theorem lower_half_stores (addr len : Nat) (inside : addr + len ≤ 2 ^ 16) :
    StoresRange addr len := by
  intro chip data buff sound
  have loop := at24c_write_loop_sound addr data len chip sound inside
  have written : at24cWrite addr data len chip =
      (len, chip.perform (pagePlan addr data len)) := by
    simp [at24cWrite, loop]
  have cells : (chip.perform (pagePlan addr data len)).cells = overlay chip.cells data addr len :=
    page_plan_contents chip.cells addr data len
  have read : at24cRead addr buff len (chip.perform (pagePlan addr data len)) =
      (len, overlay buff (fun offset => overlay chip.cells data addr len
        ((cellAddress addr + offset) % 2 ^ 17)) 0 len,
        { chip.perform (pagePlan addr data len) with
          transfers := (chip.perform (pagePlan addr data len)).transfers + 1 }) := by
    have acked : (chip.perform (pagePlan addr data len)).ack
        (chip.perform (pagePlan addr data len)).transfers = none := sound.1 _
    simp only [at24cRead, acked, cells]
  rw [written]
  refine ⟨rfl, by rw [read], ?_, ?_⟩
  · rw [read]
    intro offset low high
    have small : (cellAddress addr + offset) % 2 ^ 17 = addr + offset := by
      unfold cellAddress
      omega
    simp only [overlay_inside _ _ _ _ _ low high, Nat.sub_zero, small]
    rw [overlay_inside _ _ _ _ _ (by omega) (by omega), Nat.add_sub_cancel_left]
  · intro address _ outside
    simp only [cells]
    exact overlay_outside _ _ _ _ _ outside

/-- A transfer of no bytes changes nothing. -/
theorem empty_stores (addr : Nat) : StoresRange addr 0 := by
  intro chip data buff sound
  have written : at24cWrite addr data 0 chip = (0, chip) := by
    simp [at24cWrite, at24cWriteLoop]
  rw [written]
  refine ⟨rfl, ?_, ?_, fun _ _ _ => rfl⟩
  · simp [at24cRead, sound.1]
  · intro offset _ below
    omega

/-- A read that returned all its bytes took them from the cells. -/
theorem read_complete (addr : Nat) (buff : Mem) (len : Nat) (chip : Eeprom) (positive : 0 < len)
    (complete : (at24cRead addr buff len chip).1 = len) (offset : Nat) (inside : offset < len) :
    (at24cRead addr buff len chip).2.1 offset =
      chip.cells ((cellAddress addr + offset) % 2 ^ 17) := by
  unfold at24cRead at complete ⊢
  cases acked : chip.ack chip.transfers with
  | some count =>
    simp only [acked] at complete
    omega
  | none =>
    simp only
    rw [overlay_inside _ _ _ _ _ (Nat.zero_le _) (by omega), Nat.sub_zero]

/-- A range that ends behind 64 KB does not behave like an array: the cell that its last
address names lies outside of it, or is one that the read takes for an earlier byte. -/
theorem upper_half_aliases (addr len : Nat) (positive : 0 < len) (beyond : 2 ^ 16 < addr + len) :
    ¬StoresRange addr len := by
  intro stores
  have sound := healthy_sound (fun _ => 0)
  obtain ⟨-, complete, back, kept⟩ := stores (Eeprom.healthy fun _ => 0)
    (fun offset => if offset = len - 1 then 1 else 0) (fun _ => 0) sound
  have last := write_loop_last addr (fun offset => if offset = len - 1 then 1 else 0) len
    (Eeprom.healthy fun _ => 0) sound positive
  simp only [if_true] at last
  have low : cellAddress (addr + (len - 1)) < 2 ^ 16 := Nat.mod_lt _ (by decide)
  rcases Nat.lt_or_ge (cellAddress (addr + (len - 1))) addr with outside | within
  · have unchanged := kept (cellAddress (addr + (len - 1))) (by omega) (Or.inl outside)
    rw [at24cWrite, last] at unchanged
    exact absurd unchanged (by simp [Eeprom.healthy])
  · have earlier : cellAddress (addr + (len - 1)) - addr < len - 1 := by omega
    have place : (cellAddress addr + (cellAddress (addr + (len - 1)) - addr)) % 2 ^ 17 =
        cellAddress (addr + (len - 1)) := by
      have same : cellAddress addr = addr := Nat.mod_eq_of_lt (by omega)
      omega
    have read := read_complete addr (fun _ => 0) len _ positive complete
      (cellAddress (addr + (len - 1)) - addr) (by omega)
    have returned := back (cellAddress (addr + (len - 1)) - addr) (Nat.zero_le _) (by omega)
    have notLast : cellAddress (addr + (len - 1)) - addr ≠ len - 1 := by omega
    rw [read, place, at24cWrite, last] at returned
    simp only [if_neg notLast] at returned
    exact absurd returned (by decide)

/-- Areas other than the log of working states name different cells. -/
theorem other_areas_apart (first second : Area) (different : first ≠ second)
    (firstOther : first ≠ .recState) (secondOther : second ≠ .recState) :
    first.Apart second := by
  intro left right low high lowRight highRight
  unfold cellAddress
  cases first <;> cases second <;>
    first
    | exact absurd rfl different
    | exact absurd rfl firstOther
    | exact absurd rfl secondOther
    | simp only [Area.on, Area.off] at low high lowRight highRight; omega

/-- An address of the log of working states and one of another area that name one cell. -/
def sharedCell : Area → Nat × Nat
  | .backupPara => (65536, 0)
  | .recIndex => (69632, 4096)
  | .recBbox => (69888, 4352)
  | .recState => (63360, 63360)
  | .test => (65472, 131008)

/-- The log of working states shares a cell with every area. -/
theorem state_shares (other : Area) :
    Area.recState.on ≤ (sharedCell other).1 ∧ (sharedCell other).1 < Area.recState.off ∧
      other.on ≤ (sharedCell other).2 ∧ (sharedCell other).2 < other.off ∧
      cellAddress (sharedCell other).1 = cellAddress (sharedCell other).2 := by
  cases other <;> decide

/-- Two areas are apart exactly when neither is the log of working states, which reaches
from below 64 KB to the end of the upper half. -/
theorem areas_apart_iff (first second : Area) (different : first ≠ second) :
    first.Apart second ↔ first ≠ .recState ∧ second ≠ .recState := by
  constructor
  · intro apart
    constructor
    · rintro rfl
      obtain ⟨low, high, lowRight, highRight, same⟩ := state_shares second
      exact apart _ _ low high lowRight highRight same
    · rintro rfl
      obtain ⟨low, high, lowLeft, highLeft, same⟩ := state_shares first
      exact apart _ _ lowLeft highLeft low high same.symm
  · rintro ⟨firstOther, secondOther⟩
    exact other_areas_apart first second different firstOther secondOther

/-- The EEPROM behaves like an array exactly on the ranges that end at 64 KB or before,
and two areas of its map never share a cell exactly when neither is the log of working
states. -/
theorem eeprom_array_iff (addr len : Nat) (first second : Area) :
    (StoresRange addr len ↔ len = 0 ∨ addr + len ≤ 2 ^ 16) ∧
      (first ≠ second → (first.Apart second ↔ first ≠ .recState ∧ second ≠ .recState)) := by
  refine ⟨⟨?_, ?_⟩, areas_apart_iff first second⟩
  · intro stores
    by_contra neither
    obtain ⟨present, beyond⟩ := not_or.mp neither
    exact upper_half_aliases addr len (Nat.pos_of_ne_zero present) (Nat.lt_of_not_le beyond) stores
  · rintro (rfl | inside)
    · exact empty_stores addr
    · exact lower_half_stores addr len inside

/-- A byte stored at the first address of the upper half replaces the first byte of the
parameters. -/
theorem upper_half_overwrites_parameters :
    ¬((∀ addr len, addr + len ≤ 2 ^ 17 → StoresRange addr len) ∧
      ∀ first second : Area, first ≠ second → first.Apart second) := by
  rintro ⟨stores, -⟩
  exact upper_half_aliases 65536 1 (by decide) (by decide) (stores 65536 1 (by decide))

end Pyrometer.EepromAliasing
