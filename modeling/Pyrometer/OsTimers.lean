import Pyrometer.Runs

/-!
# The soft timers of `ostimer.c`

`ostimer_task` reads the tick once and then scans the list. The read, the scan of one
item and every call from another task are single steps, and the tick advances between
any two of them. The tick is a 32-bit word that wraps around; the time that has really
passed is counted beside it and is not part of the firmware. So are the times a run is
judged by: when the tick of the scan was read, at which time the tick that an item has
recorded as its start was taken, and when it was last posted, opened or restarted.

An identifier outside the list and a tick count of another width do not occur. What
becomes of a post is the matter of the agent queues.
-/

namespace Pyrometer.OsTimers

open Runs

/-- `OSTIMER_COUNT`. -/
abbrev ostimerCount : Nat := 11

/-- `AGENT_PRIO_CNT`. -/
abbrev agentPrioCnt : Int := 3

/-- An index of the list. -/
abbrev Id : Type := Fin ostimerCount

/-- `ostimer_list_item_t`: a function, unless the pointer is null, with its argument. -/
structure Item (Func Arg : Type) where
  func : Option Func
  arg : Arg
  prio : Int
  start : BitVec 32
  period : BitVec 32
  enable : Bool

/-- One call of `agent_post`. -/
structure Posted (Func Arg : Type) where
  prio : Int
  func : Option Func
  arg : Arg
  deriving DecidableEq

/-- Where `ostimer_task` is: behind a scan, or at an item of the list with the tick it
has read. -/
inductive OstimerTask where
  | delaying
  | scanning (tick : BitVec 32) (position : Id)

/-- The list and its task, the posts made so far, and the times a run is judged by. -/
structure System (Func Arg : Type) where
  list : Id → Item Func Arg
  task : OstimerTask
  posts : List (Posted Func Arg)
  clock : Nat
  read : Nat
  recorded : Id → Nat
  last : Id → Nat

/-- One step: the tick advances, the task reads it or scans an item, or another task
makes a call. -/
inductive Event (Func Arg : Type) where
  | tick
  | read
  | scan
  | register (id : Id) (func : Option Func) (arg : Arg) (prio : Int) (period : Int)
  | opens (id : Id) (now : Bool)
  | close (id : Id)
  | setPeriod (id : Id) (period : BitVec 32)
  | restart (id : Id)
  | setPrio (id : Id) (prio : Int)

variable {Func Arg : Type}

/-- `ostimer_register`. -/
def ostimerRegister (func : Option Func) (arg : Arg) (prio period : Int) : Item Func Arg :=
  ⟨func, arg, prio, 0, BitVec.ofInt 32 period, false⟩

/-- The item can be opened. -/
def Item.usable (item : Item Func Arg) : Bool := item.func.isSome && decide (0 < item.period)

/-- The item is due at a tick: it is enabled and the unsigned difference to its start
has reached the period. -/
def Item.due (item : Item Func Arg) (tick : BitVec 32) : Bool :=
  item.enable && decide (item.period ≤ tick - item.start)

/-- The post of an item. -/
def Item.post (item : Item Func Arg) : Posted Func Arg := ⟨item.prio, item.func, item.arg⟩

/-- `xTaskGetTickCount`. -/
def System.tickCount (system : System Func Arg) : BitVec 32 := BitVec.ofNat 32 system.clock

/-- Change one item. -/
def System.put (system : System Func Arg) (id : Id) (item : Item Func Arg) : System Func Arg :=
  { system with list := Function.update system.list id item }

/-- The start of an item is taken anew from the tick count. -/
def System.starts (system : System Func Arg) (id : Id) (item : Item Func Arg) :
    System Func Arg :=
  { system with
    list := Function.update system.list id { item with start := system.tickCount }
    recorded := Function.update system.recorded id system.clock
    last := Function.update system.last id system.clock }

/-- `ostimer_open`. -/
def System.ostimerOpen (system : System Func Arg) (id : Id) (now : Bool) : System Func Arg :=
  let item := system.list id
  if item.usable then
    let opened := system.starts id { item with enable := true }
    if now then { opened with posts := opened.posts ++ [item.post] } else opened
  else system

/-- `ostimer_close`. -/
def System.ostimerClose (system : System Func Arg) (id : Id) : System Func Arg :=
  system.put id { system.list id with enable := false }

/-- `ostimer_set_period`. -/
def System.ostimerSetPeriod (system : System Func Arg) (id : Id) (period : BitVec 32) :
    System Func Arg :=
  if (system.list id).enable then system.put id { system.list id with period := period }
  else system

/-- `ostimer_restart`. -/
def System.ostimerRestart (system : System Func Arg) (id : Id) : System Func Arg :=
  if (system.list id).enable then system.starts id (system.list id) else system

/-- `ostimer_set_prio`, which tests the priority that is already there. -/
def System.ostimerSetPrio (system : System Func Arg) (id : Id) (prio : Int) : System Func Arg :=
  let item := system.list id
  if 0 ≤ item.prio ∧ item.prio < agentPrioCnt then system.put id { item with prio := prio }
  else system

/-- `ostimer_task` reads the tick and begins a scan. -/
def System.readTick (system : System Func Arg) : System Func Arg :=
  match system.task with
  | .delaying =>
      { system with task := .scanning system.tickCount ⟨0, by decide⟩, read := system.clock }
  | .scanning _ _ => system

/-- The task behind an item. -/
def OstimerTask.next (tick : BitVec 32) (position : Id) : OstimerTask :=
  if more : position.val + 1 < ostimerCount then .scanning tick ⟨position.val + 1, more⟩
  else .delaying

/-- `ostimer_task` scans one item. -/
def System.scan (system : System Func Arg) : System Func Arg :=
  match system.task with
  | .delaying => system
  | .scanning tick position =>
      let item := system.list position
      if item.due tick then
        { system with
          list := Function.update system.list position { item with start := tick }
          task := .next tick position
          posts := system.posts ++ [item.post]
          recorded := Function.update system.recorded position system.read
          last := Function.update system.last position system.clock }
      else { system with task := .next tick position }

/-- One step. -/
def step (system : System Func Arg) : Event Func Arg → System Func Arg
  | .tick => { system with clock := system.clock + 1 }
  | .read => system.readTick
  | .scan => system.scan
  | .register id func arg prio period => system.put id (ostimerRegister func arg prio period)
  | .opens id now => system.ostimerOpen id now
  | .close id => system.ostimerClose id
  | .setPeriod id period => system.ostimerSetPeriod id period
  | .restart id => system.ostimerRestart id
  | .setPrio id prio => system.ostimerSetPrio id prio

/-- The timers before the task runs: nothing is enabled yet. The clock may stand anywhere. -/
def System.init (list : Id → Item Func Arg) (clock : Nat) : System Func Arg :=
  ⟨fun id => { list id with enable := false }, .delaying, [], clock, clock, fun _ => clock,
    fun _ => clock⟩

/-- The task stands at an item with a tick, and the scan of the item posts something. -/
def Posts (system : System Func Arg) (tick : BitVec 32) (position : Id) : Prop :=
  system.task = .scanning tick position ∧ system.scan.posts ≠ system.posts

/-- A scan posts an item only if it is enabled and at least its period has passed since
it was last posted, opened or restarted. -/
def NotEarly (system : System Func Arg) : Event Func Arg → Prop
  | .scan => ∀ tick position, Posts system tick position →
      (system.list position).enable = true ∧
        (system.list position).period.toNat + system.last position ≤ system.clock
  | _ => True

/-- A scan posts an item only if it is enabled and at least its period lies between the
tick that the item has recorded and the one that was read. -/
def Counted (system : System Func Arg) : Event Func Arg → Prop
  | .scan => ∀ tick position, Posts system tick position →
      (system.list position).enable = true ∧
        (system.list position).period.toNat + system.recorded position ≤ system.read
  | _ => True

/-- A scan comes to a due item only with a tick read no earlier than the one that the
item has recorded. -/
def Fresh (system : System Func Arg) : Event Func Arg → Prop
  | .scan => ∀ tick position, system.task = .scanning tick position →
      (system.list position).due tick = true → system.recorded position ≤ system.read
  | _ => True

/-- Besides, it comes no less late behind the tick that was read than the last post,
open or restart came behind the tick that the item has recorded. -/
def Timely (system : System Func Arg) : Event Func Arg → Prop
  | .scan => ∀ tick position, system.task = .scanning tick position →
      (system.list position).due tick = true →
        system.recorded position ≤ system.read ∧
          system.last position - system.recorded position ≤ system.clock - system.read
  | _ => True

/-- What holds between any two steps: the ticks are those of the times beside them, and
no time is later than the clock. -/
structure Consistent (system : System Func Arg) : Prop where
  start : ∀ id, (system.list id).enable = true →
    (system.list id).start = BitVec.ofNat 32 (system.recorded id)
  recorded : ∀ id, system.recorded id ≤ system.last id
  last : ∀ id, system.last id ≤ system.clock
  read : system.read ≤ system.clock
  tick : ∀ tick position, system.task = .scanning tick position →
    tick = BitVec.ofNat 32 system.read

/-- The unsigned difference of two ticks is at most the time between them. -/
theorem tick_difference {earlier later : Nat} (order : earlier ≤ later) :
    (BitVec.ofNat 32 later - BitVec.ofNat 32 earlier).toNat ≤ later - earlier := by
  rw [BitVec.toNat_sub, BitVec.toNat_ofNat, BitVec.toNat_ofNat]
  omega

/-- The scan of an item posts it exactly when it is due. -/
theorem posts_iff (system : System Func Arg) (tick : BitVec 32) (position : Id) :
    Posts system tick position ↔
      system.task = .scanning tick position ∧ (system.list position).due tick = true := by
  unfold Posts
  refine and_congr_right fun standing => ?_
  cases due : (system.list position).due tick <;> simp [System.scan, standing, due]

/-- A due item is enabled, and the difference to its start has reached the period. -/
theorem due_iff (item : Item Func Arg) (tick : BitVec 32) :
    item.due tick = true ↔ item.enable = true ∧ item.period ≤ tick - item.start := by
  simp [Item.due]

/-- A due item whose recorded tick is not later than the one that was read has a period
between the two. -/
theorem due_counted {system : System Func Arg} (consistent : Consistent system)
    {tick : BitVec 32} {position : Id} (standing : system.task = .scanning tick position)
    (due : (system.list position).due tick = true)
    (fresh : system.recorded position ≤ system.read) :
    (system.list position).enable = true ∧
      (system.list position).period.toNat + system.recorded position ≤ system.read := by
  obtain ⟨enabled, reached⟩ := (due_iff _ _).mp due
  refine ⟨enabled, ?_⟩
  rw [consistent.tick tick position standing, consistent.start position enabled] at reached
  have within := Nat.le_trans (BitVec.le_def.mp reached) (tick_difference fresh)
  omega

/-- Before a scan, being counted and being fresh are one. -/
theorem counted_iff {system : System Func Arg} (consistent : Consistent system)
    (event : Event Func Arg) : Counted system event ↔ Fresh system event := by
  cases event with
  | scan =>
    constructor
    · intro counted tick position standing due
      have passed := (counted tick position ((posts_iff ..).mpr ⟨standing, due⟩)).2
      exact Nat.le_trans (Nat.le_add_left _ _) passed
    · intro fresh tick position posts
      obtain ⟨standing, due⟩ := (posts_iff ..).mp posts
      exact due_counted consistent standing due (fresh tick position standing due)
  | _ => exact Iff.rfl

/-- A timely scan posts nothing early. -/
theorem timely_notEarly {system : System Func Arg} (consistent : Consistent system)
    (event : Event Func Arg) (timely : Timely system event) : NotEarly system event := by
  cases event with
  | scan =>
    intro tick position posts
    obtain ⟨standing, due⟩ := (posts_iff ..).mp posts
    obtain ⟨fresh, lateness⟩ := timely tick position standing due
    obtain ⟨enabled, passed⟩ := due_counted consistent standing due fresh
    have behind := consistent.recorded position
    have read := consistent.read
    exact ⟨enabled, by omega⟩
  | _ => exact True.intro

/-- Nothing is enabled at the start. -/
theorem init_consistent (list : Id → Item Func Arg) (clock : Nat) :
    Consistent (System.init list clock) where
  start := fun id enabled => absurd enabled (by simp [System.init])
  recorded := fun _ => Nat.le_refl _
  last := fun _ => Nat.le_refl _
  read := Nat.le_refl _
  tick := fun _ _ standing => by simp [System.init] at standing

/-- What relates an item to its time is kept when both are stored anew with it. -/
theorem update_both {α β : Type} {relates : α → β → Prop} {first : Id → α} {second : Id → β}
    (position : Id) {value : α} {time : β} (stored : relates value time)
    (others : ∀ other, relates (first other) (second other)) (other : Id) :
    relates (Function.update first position value other)
      (Function.update second position time other) := by
  by_cases here : other = position
  · subst here
    simpa only [Function.update_self] using stored
  · simpa only [Function.update_of_ne here] using others other

/-- Changing an item other than in its start, without enabling it, keeps the times. -/
theorem put_consistent {system : System Func Arg} (consistent : Consistent system) (id : Id)
    (item : Item Func Arg)
    (same : item.enable = true → (system.list id).enable = true ∧
      item.start = (system.list id).start) : Consistent (system.put id item) := by
  refine { consistent with start := ?_ }
  apply (Function.forall_update_iff system.list fun other item =>
    item.enable = true → item.start = BitVec.ofNat 32 (system.recorded other)).mpr
  constructor
  · intro enabled
    obtain ⟨before, start⟩ := same enabled
    exact start.trans (consistent.start id before)
  · exact fun other _ => consistent.start other

/-- The start of an item that is taken from a time not later than the clock is as old as
that time. -/
theorem restamp_consistent {system : System Func Arg} (consistent : Consistent system) (id : Id)
    (item : Item Func Arg) {time : Nat} (start : item.start = BitVec.ofNat 32 time)
    (past : time ≤ system.clock) :
    Consistent { system with
      list := Function.update system.list id item
      recorded := Function.update system.recorded id time
      last := Function.update system.last id system.clock } where
  start := @update_both (Item Func Arg) Nat (fun item time => item.enable = true →
    item.start = BitVec.ofNat 32 time) _ _ id _ _ (fun _ => start) consistent.start
  recorded := update_both id past consistent.recorded
  last := (Function.forall_update_iff system.last fun _ last => last ≤ system.clock).mpr
    ⟨Nat.le_refl _, fun other _ => consistent.last other⟩
  read := consistent.read
  tick := consistent.tick

/-- A start taken from the tick count is the time of the clock. -/
theorem starts_consistent {system : System Func Arg} (consistent : Consistent system) (id : Id)
    (item : Item Func Arg) : Consistent (system.starts id item) :=
  restamp_consistent consistent id _ rfl (Nat.le_refl _)

/-- The task behind an item still holds the tick it has read. -/
theorem next_tick {tick read : BitVec 32} {position other : Id}
    (standing : OstimerTask.next tick position = .scanning read other) : read = tick := by
  unfold OstimerTask.next at standing
  split at standing
  · exact (OstimerTask.scanning.inj standing).1.symm
  · cases standing

/-- The scan of an item keeps the times: the start it stores is the tick that was read. -/
theorem scan_consistent {system : System Func Arg} (consistent : Consistent system) :
    Consistent system.scan := by
  unfold System.scan
  cases standing : system.task with
  | delaying => exact consistent
  | scanning tick position =>
    have read := consistent.tick tick position standing
    by_cases due : (system.list position).due tick = true
    · have stored := restamp_consistent consistent position
        { system.list position with start := tick } read consistent.read
      simp only [due, if_true]
      exact { stored with tick := fun _ _ stands => (next_tick stands).trans read }
    · simp only [due, Bool.false_eq_true, if_false]
      exact { consistent with tick := fun _ _ stands => (next_tick stands).trans read }

/-- Every step keeps the times. -/
theorem step_consistent (system : System Func Arg) (event : Event Func Arg)
    (consistent : Consistent system) : Consistent (step system event) := by
  cases event with
  | tick =>
    exact { consistent with
      last := fun id => Nat.le_succ_of_le (consistent.last id)
      read := Nat.le_succ_of_le consistent.read }
  | read =>
    simp only [step, System.readTick]
    cases standing : system.task with
    | scanning tick position => exact consistent
    | delaying =>
      refine { consistent with
        read := Nat.le_refl _
        tick := fun tick position stands => ?_ }
      exact (OstimerTask.scanning.inj stands).1.symm
  | scan => exact scan_consistent consistent
  | register id func arg prio period =>
    exact put_consistent consistent id _ fun enabled => absurd enabled (by simp [ostimerRegister])
  | opens id now =>
    simp only [step, System.ostimerOpen]
    have opened := starts_consistent consistent id { system.list id with enable := true }
    split
    · split
      · exact { opened with }
      · exact opened
    · exact consistent
  | close id => exact put_consistent consistent id _ fun enabled => absurd enabled (by simp)
  | setPeriod id period =>
    simp only [step, System.ostimerSetPeriod]
    split
    · exact put_consistent consistent id _ fun enabled => ⟨enabled, rfl⟩
    · exact consistent
  | restart id =>
    simp only [step, System.ostimerRestart]
    split
    · exact starts_consistent consistent id _
    · exact consistent
  | setPrio id prio =>
    simp only [step, System.ostimerSetPrio]
    split
    · exact put_consistent consistent id _ fun enabled => ⟨enabled, rfl⟩
    · exact consistent

/-- For every interleaving, from whatever time on and with the tick wrapping around: the
posts all have their period between the tick recorded and the tick read exactly when
every scan of a due item is fresh; and when every such scan is timely, no item is
posted early. -/
theorem timers_not_early (list : Id → Item Func Arg) (clock : Nat)
    (events : List (Event Func Arg)) :
    (Along step Counted (System.init list clock) events ↔
        Along step Fresh (System.init list clock) events) ∧
      (Along step Timely (System.init list clock) events →
        Along step NotEarly (System.init list clock) events) := by
  have initial := init_consistent list clock
  constructor
  · exact along_iff step step_consistent (fun _ event kept => counted_iff kept event) _ initial
      events
  · exact along_carry step step_consistent (fun _ event kept => timely_notEarly kept event) _
      initial events

/-- One item, with a function and a period of 100 ticks. -/
def item100 : Item Unit Unit := ⟨some (), (), 0, 0, 100, false⟩

/-- An item is opened, the task reads the tick 100 ticks later and scans the item. -/
def onTime : List (Event Unit Unit) :=
  [.opens 0 false] ++ List.replicate 100 .tick ++ [.read, .scan]

set_option maxRecDepth 4000 in
/-- An item that is scanned on time is not posted early. -/
theorem onTime_not_early :
    Along step NotEarly (System.init (fun _ => item100) (2 ^ 32 - 50)) onTime := by
  refine (timers_not_early (fun _ => item100) (2 ^ 32 - 50) onTime).2 ?_
  have quiet : ∀ (count : Nat) (system : System Unit Unit) (rest : List (Event Unit Unit)),
      Along step Timely (run step system (List.replicate count .tick)) rest →
        Along step Timely system (List.replicate count .tick ++ rest) := by
    intro count system rest later
    refine (along_append step system _ rest).mpr ⟨?_, later⟩
    induction count generalizing system with
    | zero => exact True.intro
    | succ count inductionHypothesis => exact ⟨True.intro, inductionHypothesis _ later⟩
  refine ⟨True.intro, quiet 100 _ [.read, .scan] ⟨True.intro, ?_, True.intro⟩⟩
  intro tick position standing _
  obtain ⟨-, rfl⟩ := OstimerTask.scanning.inj standing
  decide

/-- An item is opened between the read of the tick and its scan, once the tick has
advanced. -/
def openedLate : List (Event Unit Unit) := [.read, .tick, .opens 0 false, .scan]

/-- The start of the item is later than the tick that was read, the unsigned difference
is almost 2^32, and the item is posted in the tick it was opened in. -/
theorem openedLate_early :
    ¬ ∀ (list : Id → Item Unit Unit) (clock : Nat) (events : List (Event Unit Unit)),
      Along step NotEarly (System.init list clock) events := by
  intro always
  have early := (always (fun _ => item100) 0 openedLate).2.2.2.1 (0 : BitVec 32) 0
  have posts : Posts (run step (System.init (fun _ => item100) 0) (openedLate.take 3))
      (0 : BitVec 32) 0 := ⟨rfl, by decide⟩
  have passed := (early posts).2
  revert passed
  decide

end Pyrometer.OsTimers
