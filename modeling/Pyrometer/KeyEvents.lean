import Mathlib.Data.BitVec
import Pyrometer.Runs

/-!
# Key presses and what is made of them

A task scans the keys of the panel. Every key has an automaton with a timer against
bouncing contacts, at the press and at the release, and a timer for how long it is held.
A key raises a short event when it is released, or long events while it is held. When
no key has done anything for some time, the panel is idle, and before that half idle.

The clock of the task counts milliseconds in 32 bits. Beside the model stands a clock that
never wraps, and a record of what was seen and raised since a key last left its rest
state. Between two scans the panel takes events or clears them all. An attempt to read
the keys may fail; the answers come with the scan.
-/

namespace Pyrometer.KeyEvents

open Runs

/-- The keys of the panel, in the order of `KEY_TABLES`. -/
inductive Key where
  | up
  | down
  | set
  | right
deriving DecidableEq

namespace Key

/-- `KEY_TABLES`: every key. -/
def all : List Key := [.up, .down, .set, .right]

/-- `key_mask`. -/
def keyMask : Key → BitVec 16
  | .up => 0x0080
  | .down => 0x0004
  | .set => 0x0040
  | .right => 0x0008

end Key

/-- `button_state_t`. -/
inductive ButtonState where
  | idle
  | debouncePress
  | pressed
  | debounceRelease
deriving DecidableEq

/-- `key_info_t`, without the mask and the number of the key. -/
structure KeyInfo where
  state : ButtonState
  pressStartTime : BitVec 32
  debounceTime : BitVec 32
  longPressed : Bool
  stepValue : Int
  shortFlag : Bool
  longFlag : Bool
deriving DecidableEq

/-- The two kinds of events. -/
inductive KeyEvent where
  | short
  | long
deriving DecidableEq

/-- `DEBOUNCE_TIME`. -/
def debounceTime : Nat := 10

/-- `LONG_PRESS_1S_THRESHOLD`. -/
def longPress1s : Nat := 1000

/-- `LONG_PRESS_2S_THRESHOLD`. -/
def longPress2s : Nat := 2000

/-- `LONG_PRESS_3S_THRESHOLD`. -/
def longPress3s : Nat := 3000

/-- `NO_KEY_PRESS_TIMEOUT`. -/
def noKeyPressTimeout : Nat := 10000

/-- `NO_KEY_PRESS_SHORT_TIMEOUT`. -/
def noKeyPressShortTimeout : Nat := 2000

/-- What `key_task` keeps: the table of keys, the time of the last action, the idle flag,
and whether the last scan that tells so has found the display chip in error. -/
structure Keys where
  table : Key → KeyInfo
  lastKeyActionTime : BitVec 32
  keyIdleFlag : Nat
  devError : Bool

/-- The step of a hold of some length, if it is long enough for an event. -/
def holdStep (holdTime : Nat) : Option Int :=
  if longPress3s ≤ holdTime then some 100
  else if longPress2s ≤ holdTime then some 10
  else if longPress1s ≤ holdTime then some 1
  else none

/-- One key in `key_task`: its next state and the event it raises. -/
def scanKey (currentTime : BitVec 32) (isPressed : Bool) (key : KeyInfo) :
    KeyInfo × Option KeyEvent :=
  match key.state with
  | .idle =>
      if isPressed then
        ({ key with state := .debouncePress, debounceTime := currentTime,
                    longPressed := false }, none)
      else (key, none)
  | .debouncePress =>
      if !isPressed then ({ key with state := .idle }, none)
      else if debounceTime ≤ (currentTime - key.debounceTime).toNat then
        ({ key with state := .pressed, pressStartTime := currentTime }, none)
      else (key, none)
  | .pressed =>
      if !isPressed then
        ({ key with state := .debounceRelease, debounceTime := currentTime }, none)
      else
        match holdStep (currentTime - key.pressStartTime).toNat with
        | none => (key, none)
        | some step =>
            ({ key with stepValue := step, longFlag := true, longPressed := true }, some .long)
  | .debounceRelease =>
      if isPressed then ({ key with state := .pressed }, none)
      else if debounceTime ≤ (currentTime - key.debounceTime).toNat then
        if key.longPressed then ({ key with state := .idle }, none)
        else ({ key with state := .idle, shortFlag := true, stepValue := 1 }, some .short)
      else (key, none)

/-- The first of four attempts to read the keys that does not fail. -/
def keyStatus (attempts : Nat → BitVec 16) : Option (BitVec 16) :=
  ((List.range 4).map attempts).find? (fun status => status != 0xFFFF)

/-- A key is pressed when all bits of its mask are set. -/
def isPressed (status : BitVec 16) (key : Key) : Bool := status &&& key.keyMask == key.keyMask

/-- The idle flag of a scan: cleared by an action, else set by the time without one. -/
def idleFlag (anyKeyAction : Bool) (quiet : BitVec 32) (flag : Nat) : Nat :=
  if anyKeyAction then 0
  else if noKeyPressTimeout ≤ quiet.toNat then 1
  else if noKeyPressShortTimeout ≤ quiet.toNat then 2
  else flag

/-- The events that a scan raises. -/
def raisedBy (currentTime : BitVec 32) (attempts : Nat → BitVec 16) (keys : Keys) (key : Key) :
    Option KeyEvent :=
  match keyStatus attempts with
  | none => none
  | some status => (scanKey currentTime (isPressed status key) (keys.table key)).2

/-- `key_task`. -/
def keyTask (currentTime : BitVec 32) (attempts : Nat → BitVec 16) (keys : Keys) : Keys :=
  match keyStatus attempts with
  | none => { keys with devError := true }
  | some status =>
      let anyKeyAction := Key.all.any (fun key => (raisedBy currentTime attempts keys key).isSome)
      { table := fun key => (scanKey currentTime (isPressed status key) (keys.table key)).1
        lastKeyActionTime := if anyKeyAction then currentTime else keys.lastKeyActionTime
        keyIdleFlag :=
          idleFlag anyKeyAction (currentTime - keys.lastKeyActionTime) keys.keyIdleFlag
        devError := if status &&& 0xCC == 0 then keys.devError else false }

/-- `key_init`. -/
def keyInit (keys : Keys) : Keys :=
  { keys with table := fun key =>
      { keys.table key with shortFlag := false, longFlag := false } }

/-- `key_get_short_flag`, but for its result. -/
def keyGetShortFlag (key : Key) (keys : Keys) : Keys :=
  { keys with table := fun other =>
      if other = key then { keys.table other with shortFlag := false } else keys.table other }

/-- `key_get_long_flag`, but for its result. -/
def keyGetLongFlag (key : Key) (keys : Keys) : Keys :=
  { keys with table := fun other =>
      if other = key then { keys.table other with longFlag := false } else keys.table other }

/-- The time of the task at a time of the clock that never wraps. -/
def tick (time : Nat) : BitVec 32 := BitVec.ofNat 32 time

/-- What happens to the keys: a scan some ticks after the last event, with the answers of
its attempts, or the panel takes or clears events. -/
inductive Event where
  | scan (gap : Nat) (attempts : Nat → BitVec 16)
  | getShortFlag (key : Key)
  | getLongFlag (key : Key)
  | init

/-- What was seen of a key, and what it raised, since it last left its rest state: the
first and the last scan that saw it pressed, the scan that confirmed the press, and
whether a scan in the pressed state saw it pressed a second or more after that. -/
structure Stay where
  first : Nat
  last : Nat
  confirmed : Option Nat
  held : Bool
  raised : List KeyEvent
deriving DecidableEq

/-- The record after one more scan. -/
def Stay.observe (stay : Stay) (now : Nat) (pressed : Bool) (before after : ButtonState)
    (event : Option KeyEvent) : Stay :=
  let stay := if before = .idle then ⟨now, now, none, false, []⟩ else stay
  { first := stay.first
    last := if pressed then now else stay.last
    confirmed := if before = .debouncePress ∧ after = .pressed then some now else stay.confirmed
    held := stay.held || (decide (before = .pressed) && pressed &&
      stay.confirmed.any (fun confirmed => decide (longPress1s ≤ now - confirmed)))
    raised := stay.raised ++ event.toList }

/-- The keys with the clock that never wraps, the records, and the last action. -/
structure World where
  keys : Keys
  now : Nat
  stays : Key → Stay
  lastAction : Option Nat

/-- One event. -/
def step (world : World) : Event → World
  | .scan gap attempts =>
      let now := world.now + gap
      let keys := keyTask (tick now) attempts world.keys
      match keyStatus attempts with
      | none => { world with keys := keys, now := now }
      | some status =>
          { keys := keys
            now := now
            stays := fun key => (world.stays key).observe now (isPressed status key)
              (world.keys.table key).state (keys.table key).state
              (raisedBy (tick now) attempts world.keys key)
            lastAction :=
              if Key.all.any (fun key => (raisedBy (tick now) attempts world.keys key).isSome)
              then some now else world.lastAction }
  | .getShortFlag key => { world with keys := keyGetShortFlag key world.keys }
  | .getLongFlag key => { world with keys := keyGetLongFlag key world.keys }
  | .init => { world with keys := keyInit world.keys }

/-- The keys when the program starts. -/
def start : World where
  keys :=
    { table := fun _ => ⟨.idle, 0, 0, false, 1, false, false⟩
      lastKeyActionTime := 0
      keyIdleFlag := 1
      devError := false }
  now := 0
  stays := fun _ => ⟨0, 0, none, false, []⟩
  lastAction := none

/-- A difference of times of the task is the time between them, as far as 32 bits go. -/
theorem tick_sub {early late : Nat} (ordered : early ≤ late) :
    (tick late - tick early).toNat = (late - early) % 2 ^ 32 := by
  rw [tick, tick, BitVec.toNat_sub, BitVec.toNat_ofNat, BitVec.toNat_ofNat]
  omega

/-- A hold raises an event from the first second on. -/
theorem hold_step_none (holdTime : Nat) : holdStep holdTime = none ↔ holdTime < longPress1s := by
  have second : longPress1s < longPress2s := by decide
  have third : longPress2s < longPress3s := by decide
  rw [holdStep]
  split_ifs
  · exact iff_of_false not_false (by omega)
  · exact iff_of_false not_false (by omega)
  · exact iff_of_false not_false (by omega)
  · exact iff_of_true rfl (by omega)

/-- A confirmed press: its timer, and the long events it has raised so far. -/
structure Confirmed (now confirmed : Nat) (info : KeyInfo) (stay : Stay) : Prop where
  recorded : stay.confirmed = some confirmed
  started : info.pressStartTime = tick confirmed
  past : confirmed ≤ now
  seen : debounceTime ≤ stay.last - stay.first
  last : stay.last ≤ now
  only : ∀ event ∈ stay.raised, event = .long
  raised : info.longPressed = true ↔ stay.raised ≠ []
  held : now - confirmed < 2 ^ 32 → info.longPressed = stay.held

/-- A press that is not confirmed yet. -/
structure Unconfirmed (now : Nat) (info : KeyInfo) (stay : Stay) : Prop where
  recorded : stay.confirmed = none
  started : info.debounceTime = tick stay.first
  first : stay.first ≤ stay.last
  last : stay.last ≤ now
  quiet : stay.raised = []
  fresh : info.longPressed = false
  held : stay.held = false

/-- The record of a key goes with its state. -/
def Follows (now : Nat) (info : KeyInfo) (stay : Stay) : Prop :=
  match info.state with
  | .idle => True
  | .debouncePress => Unconfirmed now info stay
  | .pressed => ∃ confirmed, Confirmed now confirmed info stay
  | .debounceRelease => ∃ confirmed, Confirmed now confirmed info stay

/-- What a record shows when the key is back in its rest state. -/
structure Settled (now : Nat) (stay : Stay) : Prop where
  brief : stay.last - stay.first < debounceTime → stay.raised = []
  unconfirmed : stay.confirmed = none → stay.raised = []
  kind : stay.confirmed ≠ none →
    stay.raised = [.short] ∨ stay.raised ≠ [] ∧ ∀ event ∈ stay.raised, event = .long
  held : ∀ confirmed, stay.confirmed = some confirmed → now - confirmed < 2 ^ 32 →
    (.long ∈ stay.raised ↔ stay.held = true)

/-- What one scan of a key does to its record, and what the record shows when the key
comes back to its rest state. -/
def Good (now : Nat) (before : KeyInfo) (after : KeyInfo) (stay : Stay) : Prop :=
  Follows now after stay ∧ (before.state ≠ .idle → after.state = .idle → Settled now stay)

/-- A scan of a key at rest. -/
theorem scan_idle {now : Nat} {info : KeyInfo} (pressed : Bool) (stay : Stay)
    (state : info.state = .idle) :
    Good now info (scanKey (tick now) pressed info).1
      (stay.observe now pressed info.state (scanKey (tick now) pressed info).1.state
        (scanKey (tick now) pressed info).2) := by
  refine ⟨?_, fun away => absurd state away⟩
  rw [scanKey, state]
  cases pressed with
  | true =>
    exact ⟨rfl, rfl, le_rfl, le_rfl, rfl, rfl, rfl⟩
  | false =>
    simp only [Bool.false_eq_true, if_false, Follows, state]

/-- A scan of a key whose press is not confirmed. -/
theorem scan_debounce_press {now later : Nat} {info : KeyInfo} (pressed : Bool) {stay : Stay}
    (state : info.state = .debouncePress) (follows : Unconfirmed now info stay)
    (ordered : now ≤ later) :
    Good later info (scanKey (tick later) pressed info).1
      (stay.observe later pressed info.state (scanKey (tick later) pressed info).1.state
        (scanKey (tick later) pressed info).2) := by
  have first := follows.first
  have last := follows.last
  cases pressed with
  | false =>
    have scanned : scanKey (tick later) false info = ({ info with state := .idle }, none) := by
      rw [scanKey, state]
      rfl
    have seen : stay.observe later false info.state .idle none = stay := by
      rw [state, Stay.observe]
      simp
    rw [scanned]
    refine ⟨trivial, fun _ _ => ?_⟩
    rw [seen]
    exact ⟨fun _ => follows.quiet, fun _ => follows.quiet,
      fun press => absurd follows.recorded press,
      fun confirmed press => absurd (follows.recorded.symm.trans press) (by simp)⟩
  | true =>
    by_cases settled : debounceTime ≤ (tick later - info.debounceTime).toNat
    · have scanned : scanKey (tick later) true info =
          ({ info with state := .pressed, pressStartTime := tick later }, none) := by
        rw [scanKey, state]
        exact if_pos settled
      rw [follows.started, tick_sub (by omega)] at settled
      have long : debounceTime ≤ later - stay.first :=
        Nat.le_trans settled (Nat.mod_le _ _)
      have seen : stay.observe later true info.state .pressed none =
          ⟨stay.first, later, some later, stay.held, stay.raised⟩ := by
        rw [state, Stay.observe]
        simp
      rw [scanned]
      refine ⟨⟨later, ?_⟩, fun _ away => absurd away (by simp)⟩
      rw [seen]
      exact ⟨rfl, rfl, le_rfl, long, le_rfl, fun event member => by simp [follows.quiet] at member,
        by simp [follows.fresh, follows.quiet], fun _ => follows.fresh.trans follows.held.symm⟩
    · have scanned : scanKey (tick later) true info = (info, none) := by
        rw [scanKey, state]
        exact if_neg settled
      have seen : stay.observe later true info.state .debouncePress none =
          ⟨stay.first, later, none, stay.held, stay.raised⟩ := by
        rw [state, Stay.observe]
        simp [follows.recorded]
      rw [scanned]
      refine ⟨?_, fun away back => absurd (state.symm.trans back) (by simp)⟩
      rw [state] at seen
      rw [Follows, state, seen]
      exact ⟨rfl, follows.started, Nat.le_trans first (Nat.le_trans last ordered), le_rfl,
        follows.quiet, follows.fresh, follows.held⟩

/-- A confirmed press stays one while nothing but the clock and its last sight change. -/
theorem Confirmed.later {now later confirmed : Nat} {info changed : KeyInfo} {stay seen : Stay}
    (follows : Confirmed now confirmed info stay) (ordered : now ≤ later)
    (recorded : seen.confirmed = stay.confirmed) (started : changed.pressStartTime =
      info.pressStartTime) (first : seen.first = stay.first) (last : stay.last ≤ seen.last)
    (past : seen.last ≤ later) (raised : seen.raised = stay.raised)
    (pressed : changed.longPressed = info.longPressed)
    (held : later - confirmed < 2 ^ 32 → seen.held = stay.held) :
    Confirmed later confirmed changed seen where
  recorded := recorded.trans follows.recorded
  started := started.trans follows.started
  past := Nat.le_trans follows.past ordered
  seen := by
    have before := follows.seen
    omega
  last := past
  only := raised ▸ follows.only
  raised := by rw [pressed, raised, follows.raised]
  held := fun near => by
    rw [pressed, held near, follows.held (by omega)]

/-- A scan of a key that is held. -/
theorem scan_pressed {now later confirmed : Nat} {info : KeyInfo} (pressed : Bool) {stay : Stay}
    (state : info.state = .pressed) (follows : Confirmed now confirmed info stay)
    (ordered : now ≤ later) :
    Good later info (scanKey (tick later) pressed info).1
      (stay.observe later pressed info.state (scanKey (tick later) pressed info).1.state
        (scanKey (tick later) pressed info).2) := by
  have past := Nat.le_trans follows.past ordered
  have last := Nat.le_trans follows.last ordered
  have elapsed : (tick later - info.pressStartTime).toNat = (later - confirmed) % 2 ^ 32 := by
    rw [follows.started, tick_sub past]
  cases pressed with
  | false =>
    have scanned : scanKey (tick later) false info =
        ({ info with state := .debounceRelease, debounceTime := tick later }, none) := by
      rw [scanKey, state]
      rfl
    have seen : stay.observe later false .pressed .debounceRelease none = stay := by
      rw [Stay.observe]
      simp
    rw [scanned]
    refine ⟨⟨confirmed, ?_⟩, fun _ away => absurd away (by simp)⟩
    rw [state, seen]
    exact follows.later ordered rfl rfl rfl le_rfl last rfl rfl (fun _ => rfl)
  | true =>
    have observed : ∀ event : Option KeyEvent, stay.observe later true .pressed .pressed event =
        ⟨stay.first, later, stay.confirmed,
          stay.held || decide (longPress1s ≤ later - confirmed), stay.raised ++ event.toList⟩ := by
      intro event
      rw [Stay.observe]
      simp [follows.recorded]
    cases hold : holdStep (tick later - info.pressStartTime).toNat with
    | none =>
      have scanned : scanKey (tick later) true info = (info, none) := by
        simp only [scanKey, state, hold, Bool.not_true, Bool.false_eq_true, if_false]
      rw [hold_step_none, elapsed] at hold
      rw [scanned]
      refine ⟨?_, fun _ away => absurd (state.symm.trans away) (by simp)⟩
      rw [Follows, state, observed]
      refine ⟨confirmed, follows.later ordered rfl rfl rfl last le_rfl (List.append_nil _) rfl ?_⟩
      intro near
      rw [Nat.mod_eq_of_lt near] at hold
      simp [hold]
    | some amount =>
      have scanned : scanKey (tick later) true info =
          ({ info with stepValue := amount, longFlag := true, longPressed := true },
            some .long) := by
        simp only [scanKey, state, hold, Bool.not_true, Bool.false_eq_true, if_false]
      have long : ¬(later - confirmed) % 2 ^ 32 < longPress1s := by
        rw [← elapsed, ← hold_step_none, hold]
        exact Option.some_ne_none amount
      rw [scanned]
      refine ⟨?_, fun _ away => absurd (state.symm.trans away) (by simp)⟩
      simp only [Follows, state, observed]
      have before := follows.seen
      have lastBefore := follows.last
      refine ⟨confirmed, follows.recorded, follows.started, past, ?_, le_rfl, ?_, by simp, ?_⟩
      · change debounceTime ≤ later - stay.first
        omega
      · intro event member
        rcases List.mem_append.mp member with earlier | own
        · exact follows.only event earlier
        · exact List.mem_singleton.mp own
      · intro near
        rw [Nat.mod_eq_of_lt near, Nat.not_lt] at long
        simp [long]

/-- A scan of a key that may have been released. -/
theorem scan_debounce_release {now later confirmed : Nat} {info : KeyInfo} (pressed : Bool)
    {stay : Stay} (state : info.state = .debounceRelease)
    (follows : Confirmed now confirmed info stay) (ordered : now ≤ later) :
    Good later info (scanKey (tick later) pressed info).1
      (stay.observe later pressed info.state (scanKey (tick later) pressed info).1.state
        (scanKey (tick later) pressed info).2) := by
  have last := Nat.le_trans follows.last ordered
  have observed : ∀ (after : ButtonState) (event : Option KeyEvent),
      stay.observe later pressed .debounceRelease after event =
        ⟨stay.first, if pressed then later else stay.last, stay.confirmed, stay.held,
          stay.raised ++ event.toList⟩ := by
    intro after event
    rw [Stay.observe]
    simp
  cases pressed with
  | true =>
    have scanned : scanKey (tick later) true info = ({ info with state := .pressed }, none) := by
      rw [scanKey, state]
      rfl
    rw [scanned]
    refine ⟨⟨confirmed, ?_⟩, fun _ away => absurd away (by simp)⟩
    rw [state, observed]
    exact follows.later ordered rfl rfl rfl last le_rfl (List.append_nil _) rfl (fun _ => rfl)
  | false =>
    by_cases settled : debounceTime ≤ (tick later - info.debounceTime).toNat
    · have long := follows.seen
      have near : later - confirmed < 2 ^ 32 → now - confirmed < 2 ^ 32 := by omega
      cases pressed : info.longPressed with
      | true =>
        have scanned : scanKey (tick later) false info = ({ info with state := .idle }, none) := by
          simp only [scanKey, state, settled, pressed, Bool.false_eq_true, if_false, if_true]
        have present := follows.raised.mp pressed
        rw [scanned]
        refine ⟨trivial, fun _ _ => ?_⟩
        rw [state, observed]
        simp only [Bool.false_eq_true, if_false, Option.toList_none, List.append_nil]
        refine ⟨fun brief => absurd long (Nat.not_le.mpr brief),
          fun press => absurd (follows.recorded.symm.trans press) (by simp),
          fun _ => Or.inr ⟨present, follows.only⟩, ?_⟩
        intro other press within
        obtain rfl := Option.some.inj (follows.recorded.symm.trans press)
        obtain ⟨event, member⟩ := List.exists_mem_of_ne_nil _ present
        exact iff_of_true (follows.only event member ▸ member)
          ((follows.held (near within)).symm.trans pressed)
      | false =>
        have scanned : scanKey (tick later) false info =
            ({ info with state := .idle, shortFlag := true, stepValue := 1 }, some .short) := by
          simp only [scanKey, state, settled, pressed, Bool.false_eq_true, if_false, if_true]
        have empty : stay.raised = [] := by
          by_contra some
          exact absurd (follows.raised.mpr some) (by simp [pressed])
        rw [scanned]
        refine ⟨trivial, fun _ _ => ?_⟩
        rw [state, observed, empty]
        simp only [Bool.false_eq_true, if_false, Option.toList_some, List.nil_append]
        refine ⟨fun brief => absurd long (Nat.not_le.mpr brief),
          fun press => absurd (follows.recorded.symm.trans press) (by simp),
          fun _ => Or.inl rfl, ?_⟩
        intro other press within
        obtain rfl := Option.some.inj (follows.recorded.symm.trans press)
        have released : stay.held = false := (follows.held (near within)).symm.trans pressed
        exact iff_of_false (show KeyEvent.long ∉ [KeyEvent.short] by decide) (by simp [released])
    · have scanned : scanKey (tick later) false info = (info, none) := by
        simp only [scanKey, state, settled, Bool.false_eq_true, if_false]
      rw [scanned]
      refine ⟨?_, fun _ away => absurd (state.symm.trans away) (by simp)⟩
      rw [Follows, state, observed]
      exact ⟨confirmed, follows.later ordered rfl rfl rfl le_rfl last (List.append_nil _) rfl
        (fun _ => rfl)⟩

/-- A scan of a key, whatever its state. -/
theorem scan_good {now later : Nat} {info : KeyInfo} (pressed : Bool) {stay : Stay}
    (follows : Follows now info stay) (ordered : now ≤ later) :
    Good later info (scanKey (tick later) pressed info).1
      (stay.observe later pressed info.state (scanKey (tick later) pressed info).1.state
        (scanKey (tick later) pressed info).2) := by
  cases state : info.state with
  | idle =>
    rw [← state]
    exact scan_idle pressed stay state
  | debouncePress =>
    rw [Follows, state] at follows
    rw [← state]
    exact scan_debounce_press pressed state follows ordered
  | pressed =>
    rw [Follows, state] at follows
    obtain ⟨confirmed, follows⟩ := follows
    rw [← state]
    exact scan_pressed pressed state follows ordered
  | debounceRelease =>
    rw [Follows, state] at follows
    obtain ⟨confirmed, follows⟩ := follows
    rw [← state]
    exact scan_debounce_release pressed state follows ordered

/-- Time passes, and the flags of a key change. -/
theorem follows_flags {now later : Nat} {info : KeyInfo} {stay : Stay}
    (follows : Follows now info stay) (ordered : now ≤ later) (short long : Bool) :
    Follows later { info with shortFlag := short, longFlag := long } stay := by
  obtain ⟨state, started, debounced, pressed, amount, oldShort, oldLong⟩ := info
  cases state with
  | idle => exact trivial
  | debouncePress =>
    have before : Unconfirmed now _ stay := follows
    exact ⟨before.recorded, before.started, before.first, Nat.le_trans before.last ordered,
      before.quiet, before.fresh, before.held⟩
  | pressed =>
    obtain ⟨confirmed, before⟩ := follows
    exact ⟨confirmed, before.later ordered rfl rfl rfl le_rfl
      (Nat.le_trans before.last ordered) rfl rfl (fun _ => rfl)⟩
  | debounceRelease =>
    obtain ⟨confirmed, before⟩ := follows
    exact ⟨confirmed, before.later ordered rfl rfl rfl le_rfl
      (Nat.le_trans before.last ordered) rfl rfl (fun _ => rfl)⟩

/-- The records go with the keys, and the time of the last action with its record. -/
structure Consistent (world : World) : Prop where
  follows : ∀ key, Follows world.now (world.keys.table key) (world.stays key)
  action : world.keys.lastKeyActionTime = tick (world.lastAction.getD 0)
  past : world.lastAction.getD 0 ≤ world.now

/-- Every event keeps the records with the keys. -/
theorem step_consistent (world : World) (event : Event) (consistent : Consistent world) :
    Consistent (step world event) := by
  have flags : ∀ key short long, Follows world.now
      { world.keys.table key with shortFlag := short, longFlag := long } (world.stays key) :=
    fun key short long => follows_flags (consistent.follows key) le_rfl short long
  cases event with
  | scan gap attempts =>
    have ordered := Nat.le_add_right world.now gap
    have past := Nat.le_trans consistent.past ordered
    cases status : keyStatus attempts with
    | none =>
      simp only [step, keyTask, status]
      exact ⟨fun key => follows_flags (consistent.follows key) ordered _ _, consistent.action, past⟩
    | some bits =>
      simp only [step, keyTask, raisedBy, status]
      refine ⟨fun key => (scan_good _ (consistent.follows key) ordered).1, ?_, ?_⟩
      · dsimp only
        split_ifs
        · rfl
        · exact consistent.action
      · dsimp only
        split_ifs
        · exact le_rfl
        · exact past
  | getShortFlag key =>
    refine ⟨fun other => ?_, consistent.action, consistent.past⟩
    simp only [step, keyGetShortFlag]
    split_ifs
    · exact flags other _ _
    · exact consistent.follows other
  | getLongFlag key =>
    refine ⟨fun other => ?_, consistent.action, consistent.past⟩
    simp only [step, keyGetLongFlag]
    split_ifs
    · exact flags other _ _
    · exact consistent.follows other
  | init => exact ⟨fun key => flags key _ _, consistent.action, consistent.past⟩

/-- The records go with the keys in every run. -/
theorem run_consistent (events : List Event) : Consistent (run step start events) :=
  run_invariant step step_consistent start ⟨fun _ => trivial, rfl, le_rfl⟩ events

/-- A key that comes back to its rest state has its record settled. -/
theorem back_settled {world : World} (consistent : Consistent world) (event : Event) (key : Key)
    (away : (world.keys.table key).state ≠ .idle)
    (back : ((step world event).keys.table key).state = .idle) :
    Settled (step world event).now ((step world event).stays key) := by
  cases event with
  | scan gap attempts =>
    cases status : keyStatus attempts with
    | none =>
      simp only [step, keyTask, status] at back
      exact absurd back away
    | some bits =>
      simp only [step, keyTask, raisedBy, status] at back ⊢
      exact (scan_good _ (consistent.follows key) (Nat.le_add_right world.now gap)).2 away back
  | getShortFlag other =>
    simp only [step, keyGetShortFlag] at back
    split_ifs at back <;> exact absurd back away
  | getLongFlag other =>
    simp only [step, keyGetLongFlag] at back
    split_ifs at back <;> exact absurd back away
  | init => exact absurd back away

/-- An idle panel shows so at every scan that reads the keys and finds no action, once the
last action is ten seconds past and the clock has not gone round since. -/
theorem idle_shown {world : World} (consistent : Consistent world) {gap : Nat}
    {attempts : Nat → BitVec 16} (read : keyStatus attempts ≠ none)
    (quiet : ∀ key, raisedBy (tick (world.now + gap)) attempts world.keys key = none)
    {action : Nat} (last : world.lastAction = some action)
    (past : noKeyPressTimeout ≤ world.now + gap - action)
    (near : world.now + gap - action < 2 ^ 32) :
    (step world (.scan gap attempts)).keys.keyIdleFlag = 1 := by
  obtain ⟨status, answered⟩ := Option.ne_none_iff_exists'.mp read
  have absent : Key.all.any
      (fun key => (raisedBy (tick (world.now + gap)) attempts world.keys key).isSome) = false := by
    simp [quiet]
  have before := consistent.past
  rw [last, Option.getD_some] at before
  have elapsed : (tick (world.now + gap) - world.keys.lastKeyActionTime).toNat =
      world.now + gap - action := by
    rw [consistent.action, last, Option.getD_some, tick_sub (by omega), Nat.mod_eq_of_lt near]
  simp only [step, keyTask, answered, absent, idleFlag, elapsed, past, Bool.false_eq_true,
    if_false, if_true]

/-- What one key sees of an event: the time that passes, and whether it was pressed if the
keys were read. -/
def view (key : Key) : Event → Option (Nat × Option Bool)
  | .scan gap attempts => some (gap, (keyStatus attempts).map (fun status => isPressed status key))
  | _ => none

/-- The event that a key raises in a step. -/
def raisedIn (key : Key) (world : World) : Event → Option KeyEvent
  | .scan gap attempts => raisedBy (tick (world.now + gap)) attempts world.keys key
  | _ => none

/-- The events that a key raises in a run, step by step. -/
def raisedAlong (key : Key) : World → List Event → List (Option KeyEvent)
  | _, [] => []
  | world, event :: rest =>
      raisedIn key world event :: raisedAlong key (step world event) rest

/-- Two keys do the same, whatever their flags. -/
def Alike (one other : KeyInfo) : Prop :=
  one.state = other.state ∧ one.pressStartTime = other.pressStartTime ∧
    one.debounceTime = other.debounceTime ∧ one.longPressed = other.longPressed

/-- Keys that do the same raise the same and go on so. -/
theorem scan_alike {one other : KeyInfo} (alike : Alike one other) (currentTime : BitVec 32)
    (pressed : Bool) :
    Alike (scanKey currentTime pressed one).1 (scanKey currentTime pressed other).1 ∧
      (scanKey currentTime pressed one).2 = (scanKey currentTime pressed other).2 := by
  obtain ⟨state, started, debounced, long, amount, short, longFlag⟩ := one
  obtain ⟨_, _, _, _, otherAmount, otherShort, otherLong⟩ := other
  obtain ⟨rfl, rfl, rfl, rfl⟩ := alike
  cases state with
  | idle => cases pressed <;> simp [scanKey, Alike]
  | debouncePress =>
    simp only [scanKey]
    split_ifs <;> simp [Alike]
  | pressed =>
    cases pressed with
    | false => simp [scanKey, Alike]
    | true =>
      simp only [scanKey]
      cases holdStep (currentTime - started).toNat <;> simp [Alike]
  | debounceRelease =>
    simp only [scanKey]
    split_ifs <;> simp [Alike]

/-- An event that a key does not see leaves it as it is, but for its flags. -/
theorem unseen_alike {key : Key} (world : World) {event : Event} (unseen : view key event = none) :
    (step world event).now = world.now ∧
      Alike ((step world event).keys.table key) (world.keys.table key) ∧
        raisedIn key world event = none := by
  cases event with
  | scan gap attempts => cases unseen
  | getShortFlag other =>
    refine ⟨rfl, ?_, rfl⟩
    simp only [step, keyGetShortFlag]
    split_ifs <;> exact ⟨rfl, rfl, rfl, rfl⟩
  | getLongFlag other =>
    refine ⟨rfl, ?_, rfl⟩
    simp only [step, keyGetLongFlag]
    split_ifs <;> exact ⟨rfl, rfl, rfl, rfl⟩
  | init => exact ⟨rfl, ⟨rfl, rfl, rfl, rfl⟩, rfl⟩

/-- Alike keys on both sides of alike keys are alike. -/
theorem Alike.around {first second third fourth : KeyInfo} (left : Alike first second)
    (middle : Alike second third) (right : Alike fourth third) : Alike first fourth :=
  ⟨left.1.trans (middle.1.trans right.1.symm),
    left.2.1.trans (middle.2.1.trans right.2.1.symm),
    left.2.2.1.trans (middle.2.2.1.trans right.2.2.1.symm),
    left.2.2.2.trans (middle.2.2.2.trans right.2.2.2.symm)⟩

/-- Events of which a key sees the same keep two runs of it alike. -/
theorem step_alike {key : Key} {one other : World} (now : one.now = other.now)
    (alike : Alike (one.keys.table key) (other.keys.table key)) {event otherEvent : Event}
    (same : view key event = view key otherEvent) :
    (step one event).now = (step other otherEvent).now ∧
      Alike ((step one event).keys.table key) ((step other otherEvent).keys.table key) ∧
        raisedIn key one event = raisedIn key other otherEvent := by
  cases seen : view key event with
  | none =>
    obtain ⟨nowAfter, kept, quiet⟩ := unseen_alike one seen
    obtain ⟨otherNow, otherKept, otherQuiet⟩ := unseen_alike other (same.symm.trans seen)
    exact ⟨nowAfter.trans (now.trans otherNow.symm), kept.around alike otherKept,
      quiet.trans otherQuiet.symm⟩
  | some sight =>
    cases event with
    | scan gap attempts =>
      cases otherEvent with
      | scan otherGap otherAttempts =>
        simp only [view, Option.some.injEq, Prod.mk.injEq] at same
        obtain ⟨rfl, status⟩ := same
        cases answered : keyStatus attempts with
        | none =>
          rw [answered, Option.map_none, eq_comm, Option.map_eq_none_iff] at status
          simp only [step, keyTask, raisedIn, raisedBy, answered, status, now]
          exact ⟨trivial, alike, trivial⟩
        | some bits =>
          rw [answered, Option.map_some, eq_comm, Option.map_eq_some_iff] at status
          obtain ⟨otherBits, otherAnswered, pressed⟩ := status
          simp only [step, keyTask, raisedIn, raisedBy, answered, otherAnswered, now, pressed]
          exact ⟨trivial, scan_alike alike _ _⟩
      | getShortFlag _ => cases same
      | getLongFlag _ => cases same
      | init => cases same
    | getShortFlag _ => cases seen
    | getLongFlag _ => cases seen
    | init => cases seen

/-- A key raises what it sees, whatever the other keys do. -/
theorem raised_alike {key : Key} {one other : World} (now : one.now = other.now)
    (alike : Alike (one.keys.table key) (other.keys.table key)) {events others : List Event}
    (same : events.map (view key) = others.map (view key)) :
    raisedAlong key one events = raisedAlong key other others := by
  induction events generalizing one other others with
  | nil =>
    rw [List.map_nil, eq_comm, List.map_eq_nil_iff] at same
    rw [same]
    rfl
  | cons event rest inductionHypothesis =>
    obtain ⟨otherEvent, otherRest, rfl, first, behind⟩ := List.map_eq_cons_iff.mp same.symm
    obtain ⟨nowAfter, alikeAfter, raised⟩ := step_alike now alike first.symm
    rw [raisedAlong, raisedAlong, raised, inductionHypothesis nowAfter alikeAfter behind.symm]

/-- In every run, what a key raises between leaving its rest state and coming back is one
short event or some long events, as it was held; keys raise what they see themselves; and
the panel shows ten seconds without an action. -/
theorem key_events :
    (∀ events event key, ((run step start events).keys.table key).state ≠ .idle →
      ((step (run step start events) event).keys.table key).state = .idle →
        Settled (step (run step start events) event).now
          ((step (run step start events) event).stays key)) ∧
    (∀ key events others, events.map (view key) = others.map (view key) →
      raisedAlong key start events = raisedAlong key start others) ∧
    (∀ events gap attempts action, keyStatus attempts ≠ none →
      (∀ key, raisedIn key (run step start events) (.scan gap attempts) = none) →
        (run step start events).lastAction = some action →
          noKeyPressTimeout ≤ (run step start events).now + gap - action →
            (run step start events).now + gap - action < 2 ^ 32 →
              (step (run step start events) (.scan gap attempts)).keys.keyIdleFlag = 1) := by
  refine ⟨?_, ?_, ?_⟩
  · intro events event key
    exact back_settled (run_consistent events) event key
  · intro key events others same
    exact raised_alike rfl ⟨rfl, rfl, rfl, rfl⟩ same
  · intro events gap attempts action read quiet last past near
    exact idle_shown (run_consistent events) read quiet last past near

/-- A scan that sees only the key for up. -/
def upSeen (gap : Nat) : Event := .scan gap (fun _ => 0x0080)

/-- A scan that sees no key. -/
def noneSeen (gap : Nat) : Event := .scan gap (fun _ => 0)

/-- The key for up is pressed shortly. -/
def tap : List Event := [upSeen 100, upSeen 10, noneSeen 10, noneSeen 10]

/-- The key for up bounces while it is released, a little more than a second after its
press was confirmed. -/
def lateBounce : List Event :=
  [upSeen 100, upSeen 10, noneSeen 990, upSeen 15, noneSeen 5]

/-- A key that is seen pressed a second after the confirmation may raise a short event; a
scan that fails does not show the idle panel; and neither does a scan three seconds
after the clock has gone round. -/
theorem key_events_fail :
    (¬∀ events event key, ((run step start events).keys.table key).state ≠ .idle →
      ((step (run step start events) event).keys.table key).state = .idle →
        ∀ confirmed, ((step (run step start events) event).stays key).confirmed =
          some confirmed →
            (.long ∈ ((step (run step start events) event).stays key).raised ↔
              longPress1s ≤ ((step (run step start events) event).stays key).last - confirmed)) ∧
    (¬∀ events gap attempts action, keyStatus attempts = none →
      (run step start events).lastAction = some action →
        noKeyPressTimeout ≤ (run step start events).now + gap - action →
          (run step start events).now + gap - action < 2 ^ 32 →
            (step (run step start events) (.scan gap attempts)).keys.keyIdleFlag = 1) ∧
    (¬∀ events gap attempts action, keyStatus attempts ≠ none →
      (∀ key, raisedIn key (run step start events) (.scan gap attempts) = none) →
        (run step start events).lastAction = some action →
          noKeyPressTimeout ≤ (run step start events).now + gap - action →
            (step (run step start events) (.scan gap attempts)).keys.keyIdleFlag = 1) := by
  refine ⟨?_, ?_, ?_⟩
  · intro always
    have long := (always lateBounce (noneSeen 10) .up (by decide) (by decide) 110
      (by decide)).mpr (by decide)
    exact absurd long (by decide)
  · intro always
    have idle := always tap 15000 (fun _ => 0xFFFF) 130 (by decide) (by decide) (by decide)
      (by decide)
    exact absurd idle (by decide)
  · intro always
    have idle := always (tap ++ List.replicate 4 (noneSeen (2 ^ 30))) 3000 (fun _ => 0) 130
      (by decide) (fun key => by cases key <;> decide) (by decide) (by decide)
    exact absurd idle (by decide)

end Pyrometer.KeyEvents
