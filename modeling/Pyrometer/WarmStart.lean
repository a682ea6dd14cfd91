import Pyrometer.FlashController
import Pyrometer.GainControl

/-!
# What a start of the instrument brings back

`sys_quick_save` and `start_flag` lie in memory that the start-up code does not clear. A reset
keeps them; after a loss of power they hold anything. `service_task` stores a snapshot of the
measurement there each second, `safe_reset` does it once more, and the interrupt of the low
voltage renews the internal temperatures only. `dev_start_type` takes a start for a warm one when
it finds its magic number, and then brings the snapshot back once.

The interrupt also programs the snapshot into a page of the flash that `lvd_init` erased at the
start. No later interrupt of the same session erases it again, so the page keeps the conjunction
of what was programmed. `powerup_quick_save_get` would read that page.

A start is one event: an interrupt between the enabling and the erase of `lvd_init` is not here.
The measurement is what the tasks leave in the variables that are saved; between two events of
the run it is anything. Numbers in single and double precision are their bit patterns.
-/

namespace Pyrometer.WarmStart

open ByteMemory NorFlash FlashController Runs BinaryFloats GainControl VoltageFilter

/-- `WARM_START_MAGIC`. -/
def warmStartMagic : BitVec 32 := 0xA55AB66B

/-- `QUICK_SAVE_ADDR`. -/
def quickSaveAddr : Nat := flashBase + 0x08000 + 0x02000

/-- `sizeof(sys_quick_save_t)`. -/
def quickSaveSize : Nat := 40

/-- Offset of `flag_temp_internal`. -/
def flagOffset : Nat := 0

/-- Offset of `temp_internal_n`. -/
def tempNOffset : Nat := 4

/-- Offset of `temp_internal_w`. -/
def tempWOffset : Nat := 8

/-- Offset of `target_temp`. -/
def targetOffset : Nat := 12

/-- Offset of `ratio_temp`. -/
def ratioOffset : Nat := 16

/-- Offset of `ratio_temp_nerve`. -/
def nerveOffset : Nat := 20

/-- Offset of `integral`, whose upper word follows its lower one. -/
def integralOffset : Nat := 24

/-- Offset of `nb_gain`. -/
def nbGainOffset : Nat := 32

/-- Offset of `wb_gain`. -/
def wbGainOffset : Nat := 33

/-- A member is stored. -/
def store {width : Nat} (memory : Mem) (offset : Nat) (value : BitVec width) : Mem :=
  overlay memory (byteOf value) offset (width / 8)

/-- The member of 64 bits at an offset. -/
def load64 (memory : Mem) (offset : Nat) : BitVec 64 :=
  load32 memory (offset + 4) ++ load32 memory offset

/-- What `sys_state` and `heater_data` hold of a measurement, without the gains. -/
structure Live where
  internalTempN : BitVec 32
  internalTempW : BitVec 32
  targetTemp : BitVec 32
  ratioTemp : BitVec 32
  ratioTempNerve : BitVec 32
  integral : BitVec 64
  previousIntegral : BitVec 32
deriving DecidableEq

/-- The variables as the start-up code leaves them. -/
def cleared : Live := ⟨0, 0, 0, 0, 0, 0, 0⟩

/-- The recorded gains. -/
abbrev Gains := Spec → Nat

/-- The memory that no start clears. -/
structure Kept where
  startFlag : BitVec 32
  quick : Mem

/-- `hot_start_quick_save_set`. -/
def hotStartQuickSaveSet (live : Live) (gains : Gains) (quick : Mem) : Mem :=
  let quick := store quick flagOffset (1 : BitVec 32)
  let quick := store quick tempNOffset live.internalTempN
  let quick := store quick tempWOffset live.internalTempW
  let quick := store quick ratioOffset live.ratioTemp
  let quick := store quick nerveOffset live.ratioTempNerve
  let quick := store quick targetOffset live.targetTemp
  let quick := store quick integralOffset live.integral
  let quick := store quick nbGainOffset (BitVec.ofNat 8 (gains .nb))
  store quick wbGainOffset (BitVec.ofNat 8 (gains .wb))

/-- `hot_start_quick_save_get`. -/
def hotStartQuickSaveGet (live : Live) (gains : Gains) (quick : Mem) : Live × Gains × Mem :=
  if load32 quick flagOffset = 1 then
    ({ internalTempN := load32 quick tempNOffset
       internalTempW := load32 quick tempWOffset
       targetTemp := load32 quick targetOffset
       ratioTemp := load32 quick ratioOffset
       ratioTempNerve := load32 quick nerveOffset
       integral := load64 quick integralOffset
       previousIntegral := BitVec.ofNat 32 (narrow (load64 quick integralOffset).toNat) },
     fun
      | .nb => (quick nbGainOffset).toNat
      | .wb => (quick wbGainOffset).toNat,
     store quick flagOffset (0 : BitVec 32))
  else (live, gains, quick)

/-- `powerup_quick_save_get`. -/
def powerupQuickSaveGet (fmc : Device) (live : Live) (quick : Mem) : Live × Mem :=
  let quick := overlay quick (window fmc.mem quickSaveAddr) 0 quickSaveSize
  if load32 quick flagOffset = 1 then
    ({ live with
        internalTempN := load32 quick tempNOffset
        internalTempW := load32 quick tempWOffset },
      store quick flagOffset (0 : BitVec 32))
  else (live, quick)

/-- `gdf_write_data_by_page_fast`: a page write that erases nothing. -/
def gdfWriteDataByPageFast (addr len : Nat) (buff : Mem) (fmc : Device) : Int × Device :=
  match programWordLoop addr buff (len / 4) 0 fmc with
  | (0, fmc) =>
      programByteLoop (addr + 4 * (len / 4)) (window buff (4 * (len / 4))) (len % 4) 0 fmc
  | (code, fmc) => (code, fmc)

/-- The instrument between two events. -/
structure Instrument where
  kept : Kept
  warmStart : Bool
  live : Live
  front : Front
  fmc : Device

/-- The recorded gains of an instrument. -/
def Instrument.gains (instrument : Instrument) : Gains :=
  fun spec => (instrument.front.stage spec).nowGain

/-- The snapshot is renewed. -/
def Instrument.snapshot (instrument : Instrument) : Kept :=
  { instrument.kept with
    quick := hotStartQuickSaveSet instrument.live instrument.gains instrument.kept.quick }

/-- `lvd_handler`: what it stores into the record. -/
def renewTemps (live : Live) (quick : Mem) : Mem :=
  let quick := store quick flagOffset (1 : BitVec 32)
  let quick := store quick tempNOffset live.internalTempN
  store quick tempWOffset live.internalTempW

/-- `lvd_handler`. -/
def lvdHandler (instrument : Instrument) : Instrument :=
  let quick := renewTemps instrument.live instrument.kept.quick
  { instrument with
    kept := { instrument.kept with quick := quick }
    fmc := (gdfWriteDataByPageFast quickSaveAddr quickSaveSize quick instrument.fmc).2 }

/-- `dev_start_type`: the kind of the start, and what it brings back. -/
def devStartType (kept : Kept) : Bool × Live × Gains × Kept :=
  if kept.startFlag = warmStartMagic then
    let restored := hotStartQuickSaveGet cleared (fun _ => gainL) kept.quick
    (true, restored.1, restored.2.1, ⟨warmStartMagic, restored.2.2⟩)
  else (false, cleared, fun _ => gainL, ⟨warmStartMagic, kept.quick⟩)

/-- `hq_sys_init`, as far as the snapshot goes: `dev_start_type`, `lvd_init` and `tiag_init`. -/
def hqSysInit (kept : Kept) (fmc : Device) : Instrument :=
  let started := devStartType kept
  { kept := started.2.2.2
    warmStart := started.1
    live := started.2.1
    front := tiagInit (if started.1 then started.2.2.1 else fun _ => gainH)
    fmc := (gdfErasePages quickSaveAddr 1 fmc).2 }

/-- What happens to the instrument. -/
inductive Event where
  /-- The tasks of the measurement and of the heater leave new values. -/
  | measured (live : Live) (front : Front)
  /-- A call of `service_task`. -/
  | service
  /-- An interrupt of the low voltage. -/
  | lowVoltage
  /-- A call of `safe_reset`. -/
  | safeReset
  /-- A reset that keeps the memory: the watchdog, the pin, a fault. -/
  | reset
  /-- A loss of power, after which the memory holds anything. -/
  | powerLoss (content : Kept)

/-- One event. -/
def step (instrument : Instrument) : Event → Instrument
  | .measured live front => { instrument with live := live, front := front }
  | .service => { instrument with kept := instrument.snapshot }
  | .lowVoltage => lvdHandler instrument
  | .safeReset => hqSysInit instrument.snapshot instrument.fmc
  | .reset => hqSysInit instrument.kept instrument.fmc
  | .powerLoss content => hqSysInit content instrument.fmc

/-- Events that neither start the instrument nor call `service_task`. -/
def Event.between : Event → Prop
  | .measured _ _ | .lowVoltage => True
  | .service | .safeReset | .reset | .powerLoss _ => False

/-- Events that start the instrument. -/
def Event.starts : Event → Prop
  | .safeReset | .reset | .powerLoss _ => True
  | .measured _ _ | .service | .lowVoltage => False

/-- The internal temperatures at the interrupts of the low voltage of a stretch, in order. -/
def interrupts (live : Live) : List Event → List (BitVec 32 × BitVec 32)
  | [] => []
  | .measured live _ :: rest => interrupts live rest
  | .lowVoltage :: rest => (live.internalTempN, live.internalTempW) :: interrupts live rest
  | _ :: rest => interrupts live rest

/-- What a warm start makes of a saved measurement: the internal temperatures are those of the
last interrupt after it, or its own. -/
def Live.resumed (live : Live) (interrupted : List (BitVec 32 × BitVec 32)) : Live :=
  let temps := interrupted.getLastD (live.internalTempN, live.internalTempW)
  { live with
    internalTempN := temps.1
    internalTempW := temps.2
    previousIntegral := BitVec.ofNat 32 (narrow live.integral.toNat) }

/-- What a warm start makes of saved gains: a byte was kept of each. -/
def resumedGains (gains : Gains) : Gains := fun spec => gains spec % 2 ^ 8

/-- An instrument that was started warm with these values. -/
structure Resumed (instrument : Instrument) (values : Live) (restored : Gains) : Prop where
  warm : instrument.warmStart = true
  live : instrument.live = values
  gains : instrument.gains = restored
  selected : ∀ spec, restored spec < gainCount →
    (instrument.front.stage spec).position = restored spec

/-- A record that holds a snapshot with these internal temperatures. -/
structure Holds (quick : Mem) (live : Live) (temps : BitVec 32 × BitVec 32) (gains : Gains) :
    Prop where
  flag : load32 quick flagOffset = 1
  tempN : load32 quick tempNOffset = temps.1
  tempW : load32 quick tempWOffset = temps.2
  target : load32 quick targetOffset = live.targetTemp
  ratio : load32 quick ratioOffset = live.ratioTemp
  nerve : load32 quick nerveOffset = live.ratioTempNerve
  integral : load64 quick integralOffset = live.integral
  nbGain : quick nbGainOffset = BitVec.ofNat 8 (gains .nb)
  wbGain : quick wbGainOffset = BitVec.ofNat 8 (gains .wb)

/-- A member that was stored is loaded. -/
theorem load_store (memory : Mem) (offset : Nat) (value : BitVec 32) :
    load32 (store memory offset value) offset = value := by
  apply load32_of_bytes
  intro index inside
  exact (overlay_inside _ _ _ _ _ (by omega) (by omega)).trans (by rw [Nat.add_sub_cancel_left])

/-- A store leaves the bytes of the other members alone. -/
theorem store_other {width : Nat} (memory : Mem) (offset address : Nat) (value : BitVec width)
    (apart : address < offset ∨ offset + width / 8 ≤ address) :
    store memory offset value address = memory address :=
  overlay_outside _ _ _ _ _ apart

/-- A store leaves the other members alone. -/
theorem load_other {width : Nat} (memory : Mem) (offset other : Nat) (value : BitVec width)
    (apart : other + 4 ≤ offset ∨ offset + width / 8 ≤ other) :
    load32 (store memory offset value) other = load32 memory other := by
  apply load32_congr
  intro address low high
  exact store_other memory offset address value (by omega)

/-- A stored member of 64 bits is loaded. -/
theorem load64_store (memory : Mem) (offset : Nat) (value : BitVec 64) :
    load64 (store memory offset value) offset = value := by
  have byte : ∀ index < 8, store memory offset value (offset + index) = byteOf value index := by
    intro index inside
    exact (overlay_inside _ _ _ _ _ (by omega) (by omega)).trans
      (by rw [Nat.add_sub_cancel_left])
  have lower : load32 (store memory offset value) offset = value.extractLsb' 0 32 := by
    apply load32_of_bytes
    intro index inside
    rw [byte index (by omega)]
    apply BitVec.eq_of_getLsbD_eq
    intro position bound
    simp only [byteOf, BitVec.getLsbD_extractLsb']
    grind
  have upper : load32 (store memory offset value) (offset + 4) = value.extractLsb' 32 32 := by
    apply load32_of_bytes
    intro index inside
    rw [Nat.add_assoc, byte (4 + index) (by omega)]
    apply BitVec.eq_of_getLsbD_eq
    intro position bound
    simp only [byteOf, BitVec.getLsbD_extractLsb']
    grind
  apply BitVec.eq_of_getLsbD_eq
  intro position bound
  simp only [load64, lower, upper, BitVec.getLsbD_append, BitVec.getLsbD_extractLsb']
  grind

/-- A store leaves a member of 64 bits elsewhere alone. -/
theorem load64_other {width : Nat} (memory : Mem) (offset other : Nat) (value : BitVec width)
    (apart : other + 8 ≤ offset ∨ offset + width / 8 ≤ other) :
    load64 (store memory offset value) other = load64 memory other := by
  unfold load64
  rw [load_other memory offset other value (by omega),
    load_other memory offset (other + 4) value (by omega)]

/-- A stored byte is read. -/
theorem store_byte (memory : Mem) (offset : Nat) (value : Byte) :
    store memory offset value offset = value := by
  refine (overlay_inside _ _ _ _ _ (by omega) (by omega)).trans ?_
  rw [Nat.sub_self]
  apply BitVec.eq_of_getLsbD_eq
  intro position bound
  simp only [byteOf, BitVec.getLsbD_extractLsb']
  grind

/-- A renewed snapshot is held by the record. -/
theorem set_holds (live : Live) (gains : Gains) (quick : Mem) :
    Holds (hotStartQuickSaveSet live gains quick) live (live.internalTempN, live.internalTempW)
      gains := by
  unfold hotStartQuickSaveSet
  constructor <;>
    simp (disch := decide) only [load_store, load_other, load64_store, load64_other, store_byte,
      store_other]

/-- An interrupt renews the internal temperatures of a held snapshot. -/
theorem renew_holds {quick : Mem} {live : Live} {temps : BitVec 32 × BitVec 32} {gains : Gains}
    (holds : Holds quick live temps gains) (current : Live) :
    Holds (renewTemps current quick) live (current.internalTempN, current.internalTempW) gains := by
  unfold renewTemps
  constructor <;>
    simp (disch := decide) only [load_store, load_other, load64_other, store_other, holds.target,
      holds.ratio, holds.nerve, holds.integral, holds.nbGain, holds.wbGain]

/-- What is brought back of a held snapshot. -/
theorem get_held {quick : Mem} {live : Live} {temps : BitVec 32 × BitVec 32} {gains : Gains}
    (holds : Holds quick live temps gains) (own : Live) (recorded : Gains) :
    hotStartQuickSaveGet own recorded quick =
      ({ live with
          internalTempN := temps.1
          internalTempW := temps.2
          previousIntegral := BitVec.ofNat 32 (narrow live.integral.toNat) },
        resumedGains gains, store quick flagOffset (0 : BitVec 32)) := by
  have restored : (fun
      | .nb => (quick nbGainOffset).toNat
      | .wb => (quick wbGainOffset).toNat : Gains) = resumedGains gains := by
    funext spec
    cases spec
    · exact (congrArg BitVec.toNat holds.wbGain).trans (BitVec.toNat_ofNat _ _)
    · exact (congrArg BitVec.toNat holds.nbGain).trans (BitVec.toNat_ofNat _ _)
  unfold hotStartQuickSaveGet
  rw [if_pos holds.flag, restored, holds.tempN, holds.tempW, holds.target, holds.ratio,
    holds.nerve, holds.integral]

/-- What a start brings back leaves the flag of the record other than one. -/
theorem start_clears_flag (kept : Kept) (warm : kept.startFlag = warmStartMagic) (fmc : Device) :
    load32 (hqSysInit kept fmc).kept.quick flagOffset ≠ 1 := by
  unfold hqSysInit devStartType
  rw [if_pos warm]
  unfold hotStartQuickSaveGet
  by_cases flag : load32 kept.quick flagOffset = 1
  · rw [if_pos flag]
    exact fun one => absurd ((load_store _ _ _).symm.trans one) (by decide)
  · rw [if_neg flag]
    exact flag

/-- A warm start from a held snapshot resumes it. -/
theorem start_resumes {kept : Kept} {live : Live} {temps : BitVec 32 × BitVec 32} {gains : Gains}
    (warm : kept.startFlag = warmStartMagic) (holds : Holds kept.quick live temps gains)
    (fmc : Device) :
    Resumed (hqSysInit kept fmc)
      { live with
        internalTempN := temps.1
        internalTempW := temps.2
        previousIntegral := BitVec.ofNat 32 (narrow live.integral.toNat) }
      (resumedGains gains) := by
  have started : devStartType kept =
      (true, { live with
        internalTempN := temps.1
        internalTempW := temps.2
        previousIntegral := BitVec.ofNat 32 (narrow live.integral.toNat) }, resumedGains gains,
        ⟨warmStartMagic, store kept.quick flagOffset (0 : BitVec 32)⟩) := by
    unfold devStartType
    rw [if_pos warm, get_held holds]
  unfold hqSysInit
  rw [started]
  exact ⟨rfl, rfl, rfl, fun spec known => if_pos known⟩

/-- A warm start from a record whose flag is not set resumes nothing. -/
theorem start_empty {kept : Kept} (warm : kept.startFlag = warmStartMagic)
    (unset : load32 kept.quick flagOffset ≠ 1) (fmc : Device) :
    Resumed (hqSysInit kept fmc) cleared (fun _ => gainL) := by
  have started : devStartType kept =
      (true, cleared, fun _ => gainL, ⟨warmStartMagic, kept.quick⟩) := by
    unfold devStartType hotStartQuickSaveGet
    rw [if_pos warm, if_neg unset]
  unfold hqSysInit
  rw [started]
  exact ⟨rfl, rfl, rfl, fun _ _ => rfl⟩

/-- A start without the magic number is a cold one. -/
theorem start_cold {kept : Kept} (destroyed : kept.startFlag ≠ warmStartMagic) (fmc : Device) :
    let cold := hqSysInit kept fmc
    cold.warmStart = false ∧ cold.live = cleared ∧ cold.gains = fun _ => gainH := by
  have started : devStartType kept =
      (false, cleared, fun _ => gainL, ⟨warmStartMagic, kept.quick⟩) := if_neg destroyed
  unfold hqSysInit
  rw [started]
  exact ⟨rfl, rfl, rfl⟩

/-- Every start leaves the magic number behind. -/
theorem start_marks (kept : Kept) (fmc : Device) :
    (hqSysInit kept fmc).kept.startFlag = warmStartMagic := by
  unfold hqSysInit devStartType
  split <;> rfl

/-- The magic number stays. -/
theorem step_marks (instrument : Instrument) (event : Event)
    (marked : instrument.kept.startFlag = warmStartMagic) :
    (step instrument event).kept.startFlag = warmStartMagic := by
  cases event with
  | measured live front => exact marked
  | service => exact marked
  | lowVoltage => exact marked
  | safeReset => exact start_marks _ _
  | reset => exact start_marks _ _
  | powerLoss content => exact start_marks _ _

/-- Between a call of `service_task` and the next start the record holds its snapshot, with the
temperatures of the last interrupt. -/
theorem between_holds (instrument : Instrument) (after : List Event)
    (between : ∀ event ∈ after, event.between) {live : Live} {temps : BitVec 32 × BitVec 32}
    {gains : Gains} (holds : Holds instrument.kept.quick live temps gains) :
    Holds (run step instrument after).kept.quick live
      ((interrupts instrument.live after).getLastD temps) gains := by
  induction after generalizing instrument temps with
  | nil => exact holds
  | cons event rest inductionHypothesis =>
    have later : ∀ event ∈ rest, event.between :=
      fun event member => between event (List.mem_cons_of_mem _ member)
    cases event with
    | measured live front => exact inductionHypothesis _ later holds
    | lowVoltage =>
      have renewed := inductionHypothesis (lvdHandler instrument) later
        (renew_holds holds instrument.live)
      rwa [interrupts, List.getLastD_cons]
    | service => exact absurd (between _ List.mem_cons_self) id
    | safeReset => exact absurd (between _ List.mem_cons_self) id
    | reset => exact absurd (between _ List.mem_cons_self) id
    | powerLoss content => exact absurd (between _ List.mem_cons_self) id

/-- Without an interrupt the flag stays as it is between two starts. -/
theorem between_unset (instrument : Instrument) (after : List Event)
    (between : ∀ event ∈ after, event.between) (quiet : .lowVoltage ∉ after) :
    (run step instrument after).kept = instrument.kept := by
  induction after generalizing instrument with
  | nil => rfl
  | cons event rest inductionHypothesis =>
    have later : ∀ event ∈ rest, event.between :=
      fun event member => between event (List.mem_cons_of_mem _ member)
    have still : .lowVoltage ∉ rest := fun member => quiet (List.mem_cons_of_mem _ member)
    cases event with
    | measured live front => exact inductionHypothesis _ later still
    | lowVoltage => exact absurd List.mem_cons_self quiet
    | service => exact absurd (between _ List.mem_cons_self) id
    | safeReset => exact absurd (between _ List.mem_cons_self) id
    | reset => exact absurd (between _ List.mem_cons_self) id
    | powerLoss content => exact absurd (between _ List.mem_cons_self) id

/-- A run goes on from where an earlier one ended. -/
theorem run_parts (start : Instrument) (first second : List Event) :
    run step start (first ++ second) = run step (run step start first) second :=
  List.foldl_append

/-- After every run of the instrument: a reset that follows a call of `service_task` resumes the
measurement of that call, with the internal temperatures of the last interrupt of the low voltage
since; `safe_reset` resumes the measurement it was called at; a second reset before the next
call and without an interrupt resumes nothing and selects the lowest gain; and a loss of power
that destroys the magic number starts cold, with the highest gain. -/
theorem warm_start_resumes (content : Kept) (fmc : Device) (before after : List Event)
    (between : ∀ event ∈ after, event.between) :
    let start := hqSysInit content fmc
    let served := run step start before
    Resumed (run step start (before ++ .service :: after ++ [.reset]))
        (served.live.resumed (interrupts served.live after)) (resumedGains served.gains) ∧
      Resumed (run step start (before ++ [.safeReset])) (served.live.resumed [])
        (resumedGains served.gains) ∧
      (∀ first, first = .safeReset ∨ first = .reset → .lowVoltage ∉ after →
        Resumed (run step start (before ++ first :: after ++ [.reset])) cleared
          (fun _ => gainL)) ∧
      ∀ other : Kept, other.startFlag ≠ warmStartMagic →
        let cold := run step start (before ++ [.powerLoss other])
        cold.warmStart = false ∧ cold.live = cleared ∧ cold.gains = fun _ => gainH := by
  intro start served
  have marked : served.kept.startFlag = warmStartMagic :=
    run_invariant step step_marks start (start_marks content fmc) before
  have snapshot : Holds served.snapshot.quick served.live
      (served.live.internalTempN, served.live.internalTempW) served.gains :=
    set_holds served.live served.gains served.kept.quick
  refine ⟨?_, ?_, ?_, ?_⟩
  case refine_1 =>
    rw [run_parts, run_parts]
    have held := between_holds (step served .service) after between snapshot
    have still : (run step (step served .service) after).kept.startFlag = warmStartMagic :=
      run_invariant step step_marks (step served .service) marked after
    exact start_resumes still held _
  case refine_2 =>
    rw [run_parts]
    exact @start_resumes served.snapshot _ _ _ marked snapshot served.fmc
  case refine_3 =>
    rintro first starts quiet
    rw [run_parts, run_parts]
    have unset : load32 (step served first).kept.quick flagOffset ≠ 1 := by
      rcases starts with rfl | rfl
      · exact start_clears_flag served.snapshot marked served.fmc
      · exact start_clears_flag served.kept marked served.fmc
    have same := between_unset (step served first) after between quiet
    have again : (step served first).kept.startFlag = warmStartMagic := step_marks _ _ marked
    change Resumed (hqSysInit (run step (step served first) after).kept _) _ _
    rw [same]
    exact start_empty again unset _
  case refine_4 =>
    intro other destroyed
    rw [run_parts]
    exact start_cold destroyed served.fmc

/-- The bits that two records share. -/
def common (left right : Mem) : Mem := fun address => left address &&& right address

/-- What a page keeps of the records that are programmed into it one after the other. -/
def conjunction (records : List Mem) : Mem := records.foldl common (fun _ => erased)

/-- The bits that all of some words share. -/
def sharedBits (words : List (BitVec 32)) : BitVec 32 :=
  words.foldl (· &&& ·) (BitVec.allOnes 32)

/-- The internal temperatures of a record. -/
def recordTemps (quick : Mem) : BitVec 32 × BitVec 32 :=
  (load32 quick tempNOffset, load32 quick tempWOffset)

/-- The page of the flash holds the records of these interrupts, and the rest of the flash what
it held. -/
structure PageHolds (fmc : Device) (memory : Mem) (interrupted : List (BitVec 32 × BitVec 32)) :
    Prop where
  sound : fmc.Sound
  record : ∃ records : List Mem, records.map recordTemps = interrupted ∧
    (∀ quick ∈ records, load32 quick flagOffset = 1) ∧
    ∀ index < quickSaveSize, fmc.mem (quickSaveAddr + index) = conjunction records index
  outside : ∀ address, address < quickSaveAddr ∨ quickSaveAddr + fmcPageSize ≤ address →
    fmc.mem address = memory address

/-- A word of the shared bits. -/
theorem load_common (left right : Mem) (offset : Nat) :
    load32 (common left right) offset = load32 left offset &&& load32 right offset := by
  apply BitVec.eq_of_getLsbD_eq
  intro position bound
  simp only [load32, common, BitVec.getLsbD_and, BitVec.getLsbD_append]
  grind

/-- A word of what a page keeps. -/
theorem load_conjunction (records : List Mem) (offset : Nat) :
    load32 (conjunction records) offset =
      sharedBits (records.map fun quick => load32 quick offset) := by
  have kept : ∀ base : Mem, load32 (records.foldl common base) offset =
      (records.map fun quick => load32 quick offset).foldl (· &&& ·) (load32 base offset) := by
    induction records with
    | nil => exact fun base => rfl
    | cons quick rest inductionHypothesis =>
      intro base
      rw [List.foldl_cons, inductionHypothesis, load_common]
      rfl
  have ones : load32 (fun _ => erased) offset = BitVec.allOnes 32 :=
    (by decide : erased ++ erased ++ erased ++ erased = BitVec.allOnes 32)
  refine (kept _).trans ?_
  rw [ones]
  rfl

/-- Records that all have their flag set keep it. -/
theorem shared_flag {records : List Mem} (nonempty : records ≠ [])
    (flags : ∀ quick ∈ records, load32 quick flagOffset = 1) :
    sharedBits (records.map fun quick => load32 quick flagOffset) = 1 := by
  have ones : records.map (fun quick => load32 quick flagOffset) =
      List.replicate records.length 1 := by
    rw [List.eq_replicate_iff]
    refine ⟨List.length_map _, ?_⟩
    intro word member
    obtain ⟨quick, inside, rfl⟩ := List.mem_map.mp member
    exact flags quick inside
  have kept : ∀ count : Nat,
      (List.replicate count (1 : BitVec 32)).foldl (· &&& ·) 1 = 1 := by
    intro count
    induction count with
    | zero => rfl
    | succ count inductionHypothesis => exact inductionHypothesis
  rw [ones]
  obtain ⟨first, rest, rfl⟩ := List.exists_cons_of_ne_nil nonempty
  exact kept rest.length

/-- A start erases the page. -/
theorem init_page {kept : Kept} {fmc : Device} {memory : Mem} (sound : fmc.Sound)
    (outside : ∀ address, address < quickSaveAddr ∨ quickSaveAddr + fmcPageSize ≤ address →
      fmc.mem address = memory address) :
    PageHolds (hqSysInit kept fmc).fmc memory [] := by
  have erases : (hqSysInit kept fmc).fmc =
      fmc.perform (eraseUnits quickSaveAddr fmcPageSize 1) := by
    have loop := erase_page_loop_sound quickSaveAddr 1 0 fmc sound
    rw [page_erases_units quickSaveAddr 1 (by decide)] at loop
    exact loop
  have contents (address : Nat) : (hqSysInit kept fmc).fmc.mem address =
      if quickSaveAddr ≤ address ∧ address < quickSaveAddr + fmcPageSize * 1 then erased
      else fmc.mem address := by
    rw [erases, Device.perform_mem]
    exact replay_erase_units _ _ _ _ _
  refine ⟨?_, ⟨[], rfl, by simp, ?_⟩, ?_⟩
  · rw [erases]
    exact Device.perform_sound sound _
  · intro index inside
    refine (contents _).trans (if_pos ?_)
    have size : quickSaveSize ≤ fmcPageSize * 1 := by decide
    omega
  · intro address apart
    refine ((contents address).trans (if_neg ?_)).trans (outside address apart)
    omega

/-- An interrupt programs its record into the page. -/
theorem lvd_page {instrument : Instrument} {memory : Mem}
    {interrupted : List (BitVec 32 × BitVec 32)}
    (holds : PageHolds instrument.fmc memory interrupted) :
    PageHolds (lvdHandler instrument).fmc memory
      (interrupted ++ [(instrument.live.internalTempN, instrument.live.internalTempW)]) := by
  obtain ⟨records, temps, flags, bytes⟩ := holds.record
  have programs : (lvdHandler instrument).fmc = instrument.fmc.perform
      (programUnits quickSaveAddr (renewTemps instrument.live instrument.kept.quick) 4 10) := by
    have loop := program_word_loop_sound quickSaveAddr
      (renewTemps instrument.live instrument.kept.quick) 10 0 instrument.fmc holds.sound
    rw [word_programs_units quickSaveAddr _ 10 (by decide)] at loop
    change (gdfWriteDataByPageFast quickSaveAddr (4 * 10) _ instrument.fmc).2 = _
    unfold gdfWriteDataByPageFast
    rw [Nat.mul_div_cancel_left 10 (by decide), loop]
    rfl
  have contents (address : Nat) : (lvdHandler instrument).fmc.mem address =
      if quickSaveAddr ≤ address ∧ address < quickSaveAddr + 4 * 10 then
        instrument.fmc.mem address &&&
          renewTemps instrument.live instrument.kept.quick (address - quickSaveAddr)
      else instrument.fmc.mem address := by
    rw [programs, Device.perform_mem]
    exact replay_program_units _ _ _ _ _ _
  refine ⟨?_, ⟨records ++ [renewTemps instrument.live instrument.kept.quick], ?_, ?_, ?_⟩, ?_⟩
  · rw [programs]
    exact Device.perform_sound holds.sound _
  · rw [List.map_append, temps]
    unfold renewTemps recordTemps
    simp (disch := decide) only [List.map_cons, List.map_nil, load_store, load_other]
  · intro quick member
    rcases List.mem_append.mp member with earlier | last
    · exact flags quick earlier
    · obtain rfl := List.mem_singleton.mp last
      unfold renewTemps
      simp (disch := decide) only [load_store, load_other]
  · intro index inside
    have reached : quickSaveAddr ≤ quickSaveAddr + index ∧
        quickSaveAddr + index < quickSaveAddr + 4 * 10 :=
      ⟨Nat.le_add_right _ _, Nat.add_lt_add_left inside _⟩
    rw [contents, if_pos reached, bytes index inside, Nat.add_sub_cancel_left, conjunction,
      conjunction, List.foldl_append]
    rfl
  · intro address apart
    have size : 4 * 10 ≤ fmcPageSize := by decide
    refine ((contents address).trans (if_neg ?_)).trans (holds.outside address apart)
    omega

/-- What a run leaves outside the page. -/
theorem run_page {memory : Mem} (instrument : Instrument) (events : List Event)
    {interrupted : List (BitVec 32 × BitVec 32)}
    (holds : PageHolds instrument.fmc memory interrupted) :
    ∃ reached, PageHolds (run step instrument events).fmc memory reached := by
  induction events generalizing instrument interrupted with
  | nil => exact ⟨interrupted, holds⟩
  | cons event rest inductionHypothesis =>
    cases event with
    | measured live front => exact inductionHypothesis _ holds
    | service => exact inductionHypothesis _ holds
    | lowVoltage => exact inductionHypothesis _ (lvd_page holds)
    | safeReset => exact inductionHypothesis _ (init_page holds.sound holds.outside)
    | reset => exact inductionHypothesis _ (init_page holds.sound holds.outside)
    | powerLoss content => exact inductionHypothesis _ (init_page holds.sound holds.outside)

/-- Between two starts the page gathers the records of the interrupts. -/
theorem session_page {memory : Mem} (instrument : Instrument) (after : List Event)
    (session : ∀ event ∈ after, ¬event.starts) {interrupted : List (BitVec 32 × BitVec 32)}
    (holds : PageHolds instrument.fmc memory interrupted) :
    PageHolds (run step instrument after).fmc memory
      (interrupted ++ interrupts instrument.live after) := by
  induction after generalizing instrument interrupted with
  | nil => rwa [interrupts, List.append_nil]
  | cons event rest inductionHypothesis =>
    have later : ∀ event ∈ rest, ¬event.starts :=
      fun event member => session event (List.mem_cons_of_mem _ member)
    cases event with
    | measured live front => exact inductionHypothesis _ later holds
    | service => exact inductionHypothesis (step instrument .service) later holds
    | lowVoltage =>
      have gathered := inductionHypothesis (lvdHandler instrument) later (lvd_page holds)
      rwa [List.append_assoc] at gathered
    | safeReset => exact absurd True.intro (session _ List.mem_cons_self)
    | reset => exact absurd True.intro (session _ List.mem_cons_self)
    | powerLoss content => exact absurd True.intro (session _ List.mem_cons_self)

/-- What is read back of the page. -/
theorem page_restores {fmc : Device} {memory : Mem}
    {interrupted : List (BitVec 32 × BitVec 32)} (holds : PageHolds fmc memory interrupted)
    (live : Live) (quick : Mem) :
    (powerupQuickSaveGet fmc live quick).1 =
      if interrupted = [] then live
      else { live with
        internalTempN := sharedBits (interrupted.map Prod.fst)
        internalTempW := sharedBits (interrupted.map Prod.snd) } := by
  obtain ⟨records, temps, flags, bytes⟩ := holds.record
  have word (offset : Nat) (inside : offset + 4 ≤ quickSaveSize) :
      load32 (overlay quick (window fmc.mem quickSaveAddr) 0 quickSaveSize) offset =
        sharedBits (records.map fun quick => load32 quick offset) := by
    rw [← load_conjunction]
    apply load32_congr
    intro address low high
    refine (overlay_inside _ _ _ _ _ (Nat.zero_le _) (by omega)).trans ?_
    exact bytes address (by omega)
  have first : interrupted.map Prod.fst = records.map fun quick => load32 quick tempNOffset := by
    rw [← temps, List.map_map]
    rfl
  have second : interrupted.map Prod.snd = records.map fun quick => load32 quick tempWOffset := by
    rw [← temps, List.map_map]
    rfl
  unfold powerupQuickSaveGet
  simp only [word flagOffset (by decide), word tempNOffset (by decide),
    word tempWOffset (by decide), first, second]
  by_cases none : records = []
  · subst none
    have empty : interrupted = [] := temps.symm
    rw [if_neg (by decide), if_pos empty]
  · have nonempty : interrupted ≠ [] := by
      rw [← temps]
      exact fun empty => none (List.map_eq_nil_iff.mp empty)
    rw [if_pos (shared_flag none flags), if_neg nonempty]

/-- On a flash that refuses nothing, after every run and every start: reading the page back
restores the bits that the internal temperatures at all interrupts since that start share, so
the temperatures of the interrupt itself when there was one, and nothing when there was none.
The rest of the flash is never written. -/
theorem quick_save_restores (content : Kept) (fmc : Device) (sound : fmc.Sound)
    (before after : List Event) (start : Event) (starts : start.starts)
    (session : ∀ event ∈ after, ¬event.starts) (live : Live) (quick : Mem) :
    let started := run step (hqSysInit content fmc) (before ++ [start])
    let interrupted := interrupts started.live after
    let final := run step started after
    (powerupQuickSaveGet final.fmc live quick).1 =
        (if interrupted = [] then live
        else { live with
          internalTempN := sharedBits (interrupted.map Prod.fst)
          internalTempW := sharedBits (interrupted.map Prod.snd) }) ∧
      ∀ address, address < quickSaveAddr ∨ quickSaveAddr + fmcPageSize ≤ address →
        final.fmc.mem address = fmc.mem address := by
  intro started interrupted final
  obtain ⟨gathered, earlier⟩ := run_page (hqSysInit content fmc) before
    (init_page sound fun _ _ => rfl)
  have fresh : PageHolds started.fmc fmc.mem [] := by
    change PageHolds (run step (hqSysInit content fmc) (before ++ [start])).fmc fmc.mem []
    rw [run_snoc]
    cases start with
    | measured live front => exact absurd starts id
    | service => exact absurd starts id
    | lowVoltage => exact absurd starts id
    | safeReset => exact init_page earlier.sound earlier.outside
    | reset => exact init_page earlier.sound earlier.outside
    | powerLoss content => exact init_page earlier.sound earlier.outside
  have page := session_page started after session fresh
  exact ⟨page_restores page live quick, page.outside⟩

/-- A measurement with an integral. -/
def warmed : Live := ⟨5, 6, 7, 8, 9, 10, 11⟩

/-- A memory with the magic number, and nothing saved. -/
def marked : Kept := ⟨warmStartMagic, fun _ => 0⟩

/-- A reset after a call of `service_task` and one interrupt. -/
theorem warm_start_resumes_once :
    (∀ event ∈ [.lowVoltage], Event.between event) ∧
      Resumed (run step (hqSysInit marked (Device.healthy fun _ => 0))
        ([.measured warmed (tiagInit fun _ => gainM)] ++ .service :: [.lowVoltage] ++ [.reset]))
        (warmed.resumed [(5, 6)]) (resumedGains fun _ => gainM) := by
  have between : ∀ event ∈ [.lowVoltage], Event.between event := by
    intro event member
    rw [List.mem_singleton.mp member]
    exact True.intro
  exact ⟨between, (warm_start_resumes marked (Device.healthy fun _ => 0)
    [.measured warmed (tiagInit fun _ => gainM)] [.lowVoltage] between).1⟩

/-- The page after a reset and two interrupts at the same temperatures. -/
theorem quick_save_restores_twice :
    (Device.healthy fun _ => 0).Sound ∧
      (powerupQuickSaveGet (run step (run step (hqSysInit marked (Device.healthy fun _ => 0))
        ([] ++ [.reset])) [.measured warmed (tiagInit fun _ => gainM), .lowVoltage, .lowVoltage]).fmc
        cleared fun _ => 0).1 =
        { cleared with
          internalTempN := sharedBits [5, 5]
          internalTempW := sharedBits [6, 6] } := by
  have session : ∀ event ∈ [.measured warmed (tiagInit fun _ => gainM), .lowVoltage,
      .lowVoltage], ¬Event.starts event := by
    intro event member starts
    simp only [List.mem_cons, List.not_mem_nil, or_false, or_self] at member
    rcases member with rfl | rfl
    · exact starts
    · exact starts
  have sound := Device.healthy_sound fun _ => 0
  exact ⟨sound, (quick_save_restores marked (Device.healthy fun _ => 0) sound [] _ .reset
    True.intro session cleared fun _ => 0).1⟩

end Pyrometer.WarmStart
