import Pyrometer.ByteMemory

/-!
# NOR flash and elementary operations

An erase sets a range to all ones. A program can only clear bits: the stored
byte becomes the conjunction of its old value and the programmed one. A history
is a list of elementary operations, so the contents after a power cut are the
replay of a prefix of the history.

`Device` adds what a driver observes: each issued operation may fail, a failed
operation leaves the contents unchanged, and the performed operations are
recorded in order. `perform` is the effect of a list none of whose operations
fails. Wear, partial erasure inside one operation and read protection are not
modelled.
-/

namespace Pyrometer.NorFlash

open ByteMemory

/-- An erased cell has all bits set. -/
def erased : Byte := 255#8

/-- One elementary operation of the chip: it either happens or it does not. -/
inductive Op where
  | erase (start len : Nat)
  | program (address : Nat) (bytes : List Byte)
  deriving DecidableEq, Repr

/-- Effect of one completed operation on the contents. -/
def apply (memory : Mem) : Op → Mem
  | .erase start len => fun address =>
      if start ≤ address ∧ address < start + len then erased else memory address
  | .program target bytes => fun address =>
      if target ≤ address ∧ address < target + bytes.length then
        memory address &&& bytes.getD (address - target) erased
      else memory address

/-- Contents after a history of completed operations. -/
def replay (memory : Mem) (history : List Op) : Mem := history.foldl apply memory

/-- Addresses an operation can change. -/
def Touches : Op → Nat → Prop
  | .erase start len, address => start ≤ address ∧ address < start + len
  | .program target bytes, address => target ≤ address ∧ address < target + bytes.length

/-- Program consecutive cells in units of `unit` bytes, in increasing address order. -/
def programUnits (address : Nat) (source : Mem) (unit count : Nat) : List Op :=
  (List.range count).map (fun index =>
    .program (address + unit * index) (toList source (unit * index) unit))

/-- Erase consecutive blocks of `unit` bytes, in increasing address order. -/
def eraseUnits (start unit count : Nat) : List Op :=
  (List.range count).map (fun index => .erase (start + unit * index) unit)

/-- Programming an erased cell stores the programmed byte. -/
theorem erased_and (value : Byte) : erased &&& value = value := by
  apply BitVec.eq_of_getLsbD_eq
  intro position bound
  interval_cases position <;> simp [erased]

/-- A concatenated history is replayed in two parts. -/
theorem replay_append (memory : Mem) (first second : List Op) :
    replay memory (first ++ second) = replay (replay memory first) second := by
  simp [replay, List.foldl_append]

/-- A cell that no operation touches keeps its value. -/
theorem replay_untouched (memory : Mem) (history : List Op) (address : Nat)
    (untouched : ∀ op ∈ history, ¬Touches op address) :
    replay memory history address = memory address := by
  induction history generalizing memory with
  | nil => rfl
  | cons op rest inductionHypothesis =>
    have headMiss : apply memory op address = memory address := by
      have miss : ¬Touches op address := untouched op (by simp)
      cases op with
      | erase start len => exact if_neg miss
      | program target bytes => exact if_neg miss
    have tailMiss : ∀ later ∈ rest, ¬Touches later address :=
      fun later member => untouched later (by simp [member])
    exact (inductionHypothesis (apply memory op) tailMiss).trans headMiss

/-- One more unit is programmed after the units before it. -/
theorem program_units_succ (address : Nat) (source : Mem) (unit count : Nat) :
    programUnits address source unit (count + 1) =
      programUnits address source unit count ++
        [.program (address + unit * count) (toList source (unit * count) unit)] := by
  simp [programUnits, List.range_succ]

/-- One more block is erased after the blocks before it. -/
theorem erase_units_succ (start unit count : Nat) :
    eraseUnits start unit (count + 1) =
      eraseUnits start unit count ++ [.erase (start + unit * count) unit] := by
  simp [eraseUnits, List.range_succ]

/-- Each unit is one operation. -/
@[simp] theorem program_units_length (address : Nat) (source : Mem) (unit count : Nat) :
    (programUnits address source unit count).length = count := by
  simp [programUnits]

/-- Each block is one operation. -/
@[simp] theorem erase_units_length (start unit count : Nat) :
    (eraseUnits start unit count).length = count := by
  simp [eraseUnits]

/-- A prefix of a sequence of unit programs is the sequence of the first units. -/
theorem program_units_take (address : Nat) (source : Mem) (unit count taken : Nat)
    (inside : taken ≤ count) :
    (programUnits address source unit count).take taken =
      programUnits address source unit taken := by
  simp [programUnits, ← List.map_take, List.take_range, Nat.min_eq_left inside]

/-- Units programmed in two parts, the second from where the first ended. -/
theorem program_units_append (address : Nat) (source : Mem) (unit first second : Nat) :
    programUnits address source unit (first + second) =
      programUnits address source unit first ++
        programUnits (address + unit * first) (window source (unit * first)) unit second := by
  induction second with
  | zero => simp [programUnits]
  | succ second inductionHypothesis =>
    have position : unit * (first + second) = unit * first + unit * second := Nat.mul_add _ _ _
    rw [← Nat.add_assoc, program_units_succ, inductionHypothesis, program_units_succ,
      List.append_assoc, position, Nat.add_assoc]
    simp [toList, window, Nat.add_assoc]

/-- Programs depend on the bytes they store only. -/
theorem program_units_congr (address : Nat) {left right : Mem} (unit count : Nat)
    (agreed : Agree left right 0 (unit * count)) :
    programUnits address left unit count = programUnits address right unit count := by
  induction count with
  | zero => rfl
  | succ count inductionHypothesis =>
    have grown : unit * (count + 1) = unit * count + unit := Nat.mul_succ unit count
    have before : Agree left right 0 (unit * count) := agree_mono agreed (by omega) (by omega)
    have last : toList left (unit * count) unit = toList right (unit * count) unit := by
      apply List.map_congr_left
      intro offset member
      exact agreed _ (Nat.zero_le _) (by have := List.mem_range.mp member; omega)
    rw [program_units_succ, program_units_succ, inductionHypothesis before, last]

/-- Unit programs touch the range they cover only. -/
theorem program_units_touch {address : Nat} {source : Mem} {unit count : Nat} {op : Op}
    (member : op ∈ programUnits address source unit count) {tested : Nat}
    (touches : Touches op tested) : address ≤ tested ∧ tested < address + unit * count := by
  simp only [programUnits, List.mem_map, List.mem_range] at member
  obtain ⟨index, inside, rfl⟩ := member
  obtain ⟨low, high⟩ := touches
  have reach : unit * index + unit ≤ unit * count := by
    rw [← Nat.mul_succ]
    exact Nat.mul_le_mul_left unit inside
  simp only [toList, List.length_map, List.length_range] at high
  omega

/-- Programming unit after unit conjoins the source bytes with the contents of
exactly the covered range. Induct on the number of units: the last unit starts
where the earlier ones end, so no cell is programmed twice. -/
theorem replay_program_units (memory : Mem) (address : Nat) (source : Mem)
    (unit count : Nat) (tested : Nat) :
    replay memory (programUnits address source unit count) tested =
      if address ≤ tested ∧ tested < address + unit * count then
        memory tested &&& source (tested - address)
      else memory tested := by
  induction count with
  | zero =>
    have vacant : ¬(address ≤ tested ∧ tested < address + unit * 0) := by omega
    rw [if_neg vacant]
    rfl
  | succ count inductionHypothesis =>
    rw [program_units_succ, replay_append]
    have grown : unit * (count + 1) = unit * count + unit := Nat.mul_succ unit count
    simp only [replay, List.foldl_cons, List.foldl_nil] at inductionHypothesis ⊢
    simp only [apply, toList, List.length_map, List.length_range, inductionHypothesis, grown]
    by_cases last : address + unit * count ≤ tested ∧ tested < address + unit * count + unit
    · have fresh : ¬(address ≤ tested ∧ tested < address + unit * count) := by omega
      have covered : address ≤ tested ∧ tested < address + (unit * count + unit) := by omega
      have index : tested - (address + unit * count) < unit := by omega
      have position : unit * count + (tested - (address + unit * count)) = tested - address := by
        omega
      rw [if_pos last, if_neg fresh, if_pos covered]
      simp [List.getD_eq_getElem?_getD, index, position]
    · have same : (address ≤ tested ∧ tested < address + (unit * count + unit)) ↔
          (address ≤ tested ∧ tested < address + unit * count) := by omega
      rw [if_neg last]
      simp only [same]

/-- Erasing block after block sets exactly the covered range. -/
theorem replay_erase_units (memory : Mem) (start unit count tested : Nat) :
    replay memory (eraseUnits start unit count) tested =
      if start ≤ tested ∧ tested < start + unit * count then erased else memory tested := by
  induction count with
  | zero =>
    have vacant : ¬(start ≤ tested ∧ tested < start + unit * 0) := by omega
    rw [if_neg vacant]
    rfl
  | succ count inductionHypothesis =>
    rw [erase_units_succ, replay_append]
    have grown : unit * (count + 1) = unit * count + unit := Nat.mul_succ unit count
    simp only [replay, List.foldl_cons, List.foldl_nil] at inductionHypothesis ⊢
    simp only [apply, inductionHypothesis, grown]
    split_ifs <;> first | rfl | omega

/-- The number of programs of a cell since its last erase, after one operation. -/
def worn (address count : Nat) : Op → Nat
  | .erase start len => if start ≤ address ∧ address < start + len then 0 else count
  | .program target bytes =>
      if target ≤ address ∧ address < target + bytes.length then count + 1 else count

/-- The number of programs of a cell since its last erase in a history. -/
def wear (history : List Op) (address : Nat) : Nat := history.foldl (worn address) 0

/-- Operations that do not touch a cell do not wear it. -/
theorem wear_untouched (history more : List Op) (address : Nat)
    (untouched : ∀ op ∈ more, ¬Touches op address) :
    wear (history ++ more) address = wear history address := by
  induction more using List.reverseRecOn with
  | nil => rw [List.append_nil]
  | append_singleton earlier op inductionHypothesis =>
    have miss : ¬Touches op address := untouched op (by simp)
    have before := inductionHypothesis (fun other member => untouched other (by simp [member]))
    rw [← List.append_assoc, wear, List.foldl_append, ← wear, before]
    cases op with
    | erase start len => exact if_neg miss
    | program target bytes => exact if_neg miss

/-- An erase starts the count of its cells again. -/
theorem wear_erase (history : List Op) (start len address : Nat) :
    wear (history ++ [.erase start len]) address =
      if start ≤ address ∧ address < start + len then 0 else wear history address := by
  simp [wear, List.foldl_append, worn]

/-- Programming unit after unit wears each covered cell once. -/
theorem wear_program_units (history : List Op) (address : Nat) (source : Mem)
    (unit count tested : Nat) :
    wear (history ++ programUnits address source unit count) tested =
      if address ≤ tested ∧ tested < address + unit * count then wear history tested + 1
      else wear history tested := by
  induction count with
  | zero =>
    have vacant : ¬(address ≤ tested ∧ tested < address + unit * 0) := by omega
    rw [if_neg vacant]
    simp [programUnits]
  | succ count inductionHypothesis =>
    have grown : unit * (count + 1) = unit * count + unit := Nat.mul_succ unit count
    have length : (toList source (unit * count) unit).length = unit := by simp [toList]
    rw [program_units_succ, ← List.append_assoc, wear, List.foldl_append, ← wear,
      inductionHypothesis, grown]
    simp only [List.foldl_cons, List.foldl_nil, worn, length]
    split_ifs <;> first | rfl | omega

/-- A flash chip behind a controller. `fault` says which issued operations the
hardware refuses; `issued` counts them; `log` holds the performed ones. -/
structure Device where
  mem : Mem
  fault : Nat → Bool
  issued : Nat
  log : List Op

namespace Device

/-- A chip with the given contents on which every operation succeeds. -/
def healthy (contents : Mem) : Device := ⟨contents, fun _ => false, 0, []⟩

/-- Issue one operation. The result is whether the chip reported completion; a
refused operation leaves the contents and the record of performed ones alone. -/
def issue (device : Device) (op : Op) : Bool × Device :=
  if device.fault device.issued then
    (false, { device with issued := device.issued + 1 })
  else
    (true, { device with
      mem := apply device.mem op, issued := device.issued + 1, log := device.log ++ [op] })

/-- The effect of a list of operations all of which complete. -/
def perform (device : Device) (history : List Op) : Device :=
  { device with
    mem := replay device.mem history
    issued := device.issued + history.length
    log := device.log ++ history }

/-- No operation issued from now on is refused. -/
def Sound (device : Device) : Prop := ∀ index, device.fault index = false

/-- A healthy chip refuses nothing. -/
theorem healthy_sound (contents : Mem) : (healthy contents).Sound := fun _ => rfl

@[simp] theorem perform_mem (device : Device) (history : List Op) :
    (device.perform history).mem = replay device.mem history := rfl

@[simp] theorem perform_log (device : Device) (history : List Op) :
    (device.perform history).log = device.log ++ history := rfl

/-- Performing nothing leaves a device as it was. -/
@[simp] theorem perform_nil (device : Device) : device.perform [] = device := by
  simp [perform, replay]

/-- Two lists performed in turn are their concatenation performed at once. -/
theorem perform_append (device : Device) (first second : List Op) :
    device.perform (first ++ second) = (device.perform first).perform second := by
  simp [perform, replay_append, Nat.add_assoc]

/-- Performing operations does not change which later ones are refused. -/
theorem perform_sound {device : Device} (sound : device.Sound) (history : List Op) :
    (device.perform history).Sound := sound

/-- On a sound device every issued operation is performed. -/
theorem issue_sound {device : Device} (sound : device.Sound) (op : Op) :
    device.issue op = (true, device.perform [op]) := by
  simp [issue, sound device.issued, perform, replay]

/-- The device performed only operations of one kind, and these explain how its
contents changed. Which issued operations were refused is left open. -/
def Grows (kind : Op → Prop) (before after : Device) : Prop :=
  ∃ performed, after.log = before.log ++ performed ∧
    after.mem = replay before.mem performed ∧ ∀ op ∈ performed, kind op

/-- Performing nothing is of every kind. -/
theorem grows_refl (kind : Op → Prop) (device : Device) : Grows kind device device :=
  ⟨[], (List.append_nil _).symm, rfl, fun _ member => absurd member (by simp)⟩

/-- Operations of one kind performed in turn are of that kind together. -/
theorem grows_trans {kind : Op → Prop} {first second third : Device}
    (left : Grows kind first second) (right : Grows kind second third) :
    Grows kind first third := by
  obtain ⟨early, earlyLog, earlyMem, earlyKind⟩ := left
  obtain ⟨late, lateLog, lateMem, lateKind⟩ := right
  refine ⟨early ++ late, ?_, ?_, ?_⟩
  · rw [lateLog, earlyLog, List.append_assoc]
  · rw [lateMem, earlyMem, replay_append]
  · intro op member
    rcases List.mem_append.mp member with inEarly | inLate
    · exact earlyKind op inEarly
    · exact lateKind op inLate

/-- An issued operation of the kind is performed or refused. -/
theorem issue_grows {kind : Op → Prop} {op : Op} (allowed : kind op) (device : Device) :
    Grows kind device (device.issue op).2 := by
  unfold issue
  split
  · exact ⟨[], (List.append_nil _).symm, rfl, fun _ member => absurd member (by simp)⟩
  · exact ⟨[op], rfl, rfl, fun tested member => by
      rw [List.mem_singleton.mp member]
      exact allowed⟩

/-- Every newly recorded operation is of the kind. -/
theorem grows_new {kind : Op → Prop} {before after : Device} (grows : Grows kind before after)
    (op : Op) (member : op ∈ after.log.drop before.log.length) : kind op := by
  obtain ⟨performed, log, _, allowed⟩ := grows
  rw [log, List.drop_left] at member
  exact allowed op member

/-- Issue operations one after the other, whatever is refused. -/
def issueAll (device : Device) (ops : List Op) : Device :=
  ops.foldl (fun reached op => (reached.issue op).2) device

/-- What is performed of operations that are issued one after the other, from the operation
with some number on. -/
def completed (fault : Nat → Bool) : Nat → List Op → List Op
  | _, [] => []
  | number, op :: rest =>
      if fault number then completed fault (number + 1) rest
      else op :: completed fault (number + 1) rest

/-- Issue operations one after the other until one is refused. -/
def attempt (device : Device) : List Op → Bool × Device
  | [] => (true, device)
  | op :: rest =>
      match device.issue op with
      | (true, next) => next.attempt rest
      | (false, next) => (false, next)

/-- Of some operations to be issued none is refused. -/
def Grants (device : Device) (count : Nat) : Prop :=
  ∀ number < count, device.fault (device.issued + number) = false

/-- Of some operations to be issued the one with this number is the first one refused. -/
def Refuses (device : Device) (count number : Nat) : Prop :=
  number < count ∧ device.fault (device.issued + number) = true ∧ device.Grants number

/-- Operations are all granted, or one of them is the first one refused. -/
theorem grants_or_refuses (device : Device) (count : Nat) :
    device.Grants count ∨ ∃ number, device.Refuses count number := by
  induction count with
  | zero => exact Or.inl fun number below => absurd below (Nat.not_lt_zero number)
  | succ count inductionHypothesis =>
    rcases inductionHypothesis with granted | ⟨number, inside, refused⟩
    · by_cases last : device.fault (device.issued + count) = true
      · exact Or.inr ⟨count, Nat.lt_succ_self count, last, granted⟩
      · refine Or.inl fun number below => ?_
        rcases Nat.lt_succ_iff_lt_or_eq.mp below with earlier | rfl
        · exact granted number earlier
        · simpa using last
    · exact Or.inr ⟨number, Nat.lt_succ_of_lt inside, refused⟩

/-- Of granted operations none is refused. -/
theorem granted_not_refused {device : Device} {count number : Nat} (granted : device.Grants count)
    (refused : device.Refuses count number) : False :=
  Bool.false_ne_true ((granted number refused.1).symm.trans refused.2.1)

/-- At most one operation is the first one refused. -/
theorem refused_once {device : Device} {count left right : Nat}
    (first : device.Refuses count left) (second : device.Refuses count right) : left = right := by
  rcases Nat.lt_trichotomy left right with before | same | behind
  · exact absurd ((second.2.2 left before).symm.trans first.2.1) Bool.false_ne_true
  · exact same
  · exact absurd ((first.2.2 right behind).symm.trans second.2.1) Bool.false_ne_true

/-- A device that grants the first operation performs it and goes on. -/
theorem issue_granted {device : Device} (granted : device.fault device.issued = false) (op : Op) :
    device.issue op = (true, device.perform [op]) := by
  simp [issue, granted, perform, replay]

/-- What is left of granted operations when the first is performed. -/
theorem grants_rest {device : Device} {count : Nat} (granted : device.Grants (count + 1))
    (op : Op) : (device.perform [op]).Grants count := by
  intro number below
  have next := granted (number + 1) (Nat.succ_lt_succ below)
  rwa [Nat.add_comm number 1, ← Nat.add_assoc] at next

/-- Granted operations are all performed. -/
theorem attempt_granted (device : Device) (ops : List Op) (granted : device.Grants ops.length) :
    device.attempt ops = (true, device.perform ops) := by
  induction ops generalizing device with
  | nil => simp [attempt]
  | cons op rest inductionHypothesis =>
    have first : device.fault device.issued = false := granted 0 (Nat.succ_pos _)
    simp only [attempt, issue_granted first]
    rw [inductionHypothesis _ (grants_rest granted op), ← perform_append]
    rfl

/-- The operations in front of the first refused one are performed, and no others. -/
theorem attempt_refused (device : Device) (ops : List Op) (number : Nat)
    (refused : device.Refuses ops.length number) :
    (device.attempt ops).1 = false ∧
      (device.attempt ops).2.mem = replay device.mem (ops.take number) := by
  induction ops generalizing device number with
  | nil => exact absurd refused.1 (Nat.not_lt_zero number)
  | cons op rest inductionHypothesis =>
    obtain ⟨inside, fault, granted⟩ := refused
    cases number with
    | zero =>
      have first : device.fault device.issued = true := fault
      simp [attempt, issue, first, replay]
    | succ number =>
      have first : device.fault device.issued = false := granted 0 (Nat.succ_pos _)
      have later : (device.perform [op]).Refuses rest.length number := by
        refine ⟨Nat.lt_of_succ_lt_succ inside, ?_, grants_rest granted op⟩
        rwa [Nat.add_comm number 1, ← Nat.add_assoc] at fault
      simp only [attempt, issue_granted first]
      exact inductionHypothesis _ number later

/-- Operations are attempted in two parts, the second one if nothing of the first is refused. -/
theorem attempt_append (device : Device) (first second : List Op) :
    device.attempt (first ++ second) =
      match device.attempt first with
      | (true, next) => next.attempt second
      | (false, next) => (false, next) := by
  induction first generalizing device with
  | nil => rfl
  | cons op rest inductionHypothesis =>
    simp only [List.cons_append, attempt]
    cases device.issue op with
    | mk done next =>
      cases done with
      | true => exact inductionHypothesis next
      | false => rfl

/-- Issuing operations whatever is refused performs those that are completed. -/
theorem issue_all_eq (device : Device) (ops : List Op) :
    device.issueAll ops =
      { device with
        mem := replay device.mem (completed device.fault device.issued ops)
        issued := device.issued + ops.length
        log := device.log ++ completed device.fault device.issued ops } := by
  induction ops generalizing device with
  | nil => simp [issueAll, completed, replay]
  | cons op rest inductionHypothesis =>
    have next : device.issueAll (op :: rest) = (device.issue op).2.issueAll rest := rfl
    rw [next, inductionHypothesis]
    by_cases refused : device.fault device.issued = true
    · simp [issue, refused, completed, Nat.add_comm, Nat.add_left_comm]
    · simp [issue, refused, completed, replay, Nat.add_comm, Nat.add_left_comm]

/-- What is completed was issued, in the same order. -/
theorem completed_sublist (fault : Nat → Bool) (issued : Nat) (ops : List Op) :
    (completed fault issued ops).Sublist ops := by
  induction ops generalizing issued with
  | nil => exact List.Sublist.slnil
  | cons op rest inductionHypothesis =>
    unfold completed
    split
    · exact (inductionHypothesis (issued + 1)).cons op
    · exact (inductionHypothesis (issued + 1)).cons_cons op

/-- What is completed of operations issued in two parts. -/
theorem completed_append (fault : Nat → Bool) (issued : Nat) (first second : List Op) :
    completed fault issued (first ++ second) =
      completed fault issued first ++ completed fault (issued + first.length) second := by
  induction first generalizing issued with
  | nil => rfl
  | cons op rest inductionHypothesis =>
    have shift : issued + (op :: rest).length = issued + 1 + rest.length := by
      rw [List.length_cons]
      omega
    simp only [List.cons_append, completed, inductionHypothesis, shift]
    split <;> rfl

/-- A cell is erased exactly if the erase of its block is not refused. Induct on the number
of blocks: the last one covers the cells whose quotient is its own number. -/
theorem replay_completed_erases (fault : Nat → Bool) (issued : Nat) (memory : Mem)
    (start unit count tested : Nat) (positive : 0 < unit) :
    replay memory (completed fault issued (eraseUnits start unit count)) tested =
      if start ≤ tested ∧ tested < start + unit * count ∧
          fault (issued + (tested - start) / unit) = false then erased
      else memory tested := by
  induction count with
  | zero =>
    have vacant : ¬(start ≤ tested ∧ tested < start + unit * 0 ∧
        fault (issued + (tested - start) / unit) = false) := by omega
    rw [if_neg vacant]
    rfl
  | succ count inductionHypothesis =>
    have grown : unit * (count + 1) = unit * count + unit := Nat.mul_succ unit count
    rw [erase_units_succ, completed_append, replay_append, erase_units_length]
    by_cases last : start + unit * count ≤ tested ∧ tested < start + unit * count + unit
    · have number : (tested - start) / unit = count := by
        apply Nat.div_eq_of_lt_le
        · rw [Nat.mul_comm]
          omega
        · rw [Nat.mul_comm, grown]
          omega
      have earlier : ¬(start ≤ tested ∧ tested < start + unit * count ∧
          fault (issued + (tested - start) / unit) = false) := by omega
      rw [if_neg earlier] at inductionHypothesis
      have inside : start ≤ tested ∧ tested < start + unit * (count + 1) := by omega
      cases refused : fault (issued + count) with
      | true => simp [completed, refused, replay, number, ← inductionHypothesis]
      | false => simp [completed, refused, replay, apply, number, inside, last]
    · have same : (start ≤ tested ∧ tested < start + unit * (count + 1) ∧
            fault (issued + (tested - start) / unit) = false) ↔
          (start ≤ tested ∧ tested < start + unit * count ∧
            fault (issued + (tested - start) / unit) = false) := by
        constructor <;> rintro ⟨low, high, granted⟩ <;> exact ⟨low, by omega, granted⟩
      simp only [same, ← inductionHypothesis]
      cases refused : fault (issued + count) with
      | true => simp [completed, refused, replay]
      | false => simp only [completed, refused, replay, List.foldl_cons, List.foldl_nil, apply,
          if_neg last, Bool.false_eq_true, if_false]

end Device

end Pyrometer.NorFlash
