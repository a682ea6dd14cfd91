import Pyrometer.RingBuffers
import Pyrometer.Runs

/-!
# The message queue of `message.c`

The queue is a ring of 50 words with a read pointer, a write pointer and a count.
The three operations run inside critical sections, so a run is any list of them.
`msg_enqueue` writes at the write pointer also when the queue is full, and the
count then stays where it is. The read pointer does not move.

What the queue is for is stated apart, as a list that keeps the newest 50. Nothing
in the firmware calls these functions, so every word is a possible message.
-/

namespace Pyrometer.MessageQueue

open RingBuffers Runs

/-- `MSG_QUEUE_SIZE`. -/
abbrev msgQueueSize : Nat := 50

/-- `MSG_NONE`. -/
def msgNone : BitVec 32 := 0

/-- `msg_make`. -/
def msgMake (type value : BitVec 32) : BitVec 32 := type <<< 24 ||| value

/-- `msg_queue_t` with `msg_data`. The pointers are indices of the array, which starts
at 0 and ends at its size. -/
structure MsgQueue where
  msgData : Nat → BitVec 32
  head : Nat
  tail : Nat
  count : Nat

/-- One call. -/
inductive Event where
  | enqueue (type value : BitVec 32)
  | dequeue
  | flush

/-- `msg_init`. What the array holds then does not matter. -/
def msgInit (msgData : Nat → BitVec 32) : MsgQueue := ⟨msgData, 0, 0, 0⟩

/-- `msg_count`. -/
def MsgQueue.msgCount (queue : MsgQueue) : Nat := queue.count

/-- `msg_flush_queue`. -/
def MsgQueue.flush (queue : MsgQueue) : MsgQueue := { queue with head := 0, tail := 0, count := 0 }

/-- `msg_enqueue`. -/
def MsgQueue.enqueue (queue : MsgQueue) (type value : BitVec 32) : MsgQueue :=
  { queue with
    msgData := Function.update queue.msgData queue.tail (msgMake type value)
    tail := rewind msgQueueSize (queue.tail + 1)
    count := if queue.count < msgQueueSize then queue.count + 1 else queue.count }

/-- `msg_dequeue`: the message it returns, and the queue behind it. -/
def MsgQueue.dequeue (queue : MsgQueue) : BitVec 32 × MsgQueue :=
  if queue.count = 0 then (msgNone, queue)
  else (queue.msgData queue.head,
    { queue with
      head := rewind msgQueueSize (queue.head + 1)
      count := queue.count - 1 })

/-- One call, with the messages that the calls of `msg_dequeue` have returned so far. -/
def step (state : MsgQueue × List (BitVec 32)) : Event → MsgQueue × List (BitVec 32)
  | .enqueue type value => (state.1.enqueue type value, state.2)
  | .dequeue => (state.1.dequeue.2, state.2 ++ [state.1.dequeue.1])
  | .flush => (state.1.flush, state.2)

/-- What the queue is for: the pending messages, the oldest one first, of which only
the newest 50 are kept. -/
def newest (pending : List (BitVec 32)) : List (BitVec 32) :=
  pending.drop (pending.length - msgQueueSize)

/-- One call on the pending messages, with the messages returned so far. -/
def intended (state : List (BitVec 32) × List (BitVec 32)) :
    Event → List (BitVec 32) × List (BitVec 32)
  | .enqueue type value => (newest (state.1 ++ [msgMake type value]), state.2)
  | .dequeue => (state.1.tail, state.2 ++ [state.1.headD msgNone])
  | .flush => ([], state.2)

/-- What successive calls of `msg_dequeue` return. -/
def MsgQueue.drain : Nat → MsgQueue → List (BitVec 32)
  | 0, _ => []
  | calls + 1, queue => queue.dequeue.1 :: MsgQueue.drain calls queue.dequeue.2

/-- The queue does what it is for: the count is the number of pending messages, the
messages come out in their order, those returned so far were the right ones, and on an
empty queue there is no message and no change. -/
structure Orderly (queue : MsgQueue × List (BitVec 32))
    (pending : List (BitVec 32) × List (BitVec 32)) : Prop where
  counted : queue.1.msgCount = pending.1.length
  drained : queue.1.drain pending.1.length = pending.1
  returned : queue.2 = pending.2
  empty : pending.1 = [] → queue.1.dequeue = (msgNone, queue.1)

/-- No message is enqueued while 50 are pending. -/
def Room (state : MsgQueue × List (BitVec 32)) : Event → Prop
  | .enqueue _ _ => state.1.count < msgQueueSize
  | _ => True

/-- The words in the ring, from the read pointer on. -/
def MsgQueue.contents (queue : MsgQueue) : List (BitVec 32) :=
  slice msgQueueSize queue.msgData queue.head queue.count

/-- The write pointer stands behind the last message. -/
structure MsgQueue.Consistent (queue : MsgQueue) : Prop where
  head : queue.head < msgQueueSize
  tail : queue.tail = (queue.head + queue.count) % msgQueueSize
  bounded : queue.count ≤ msgQueueSize

/-- The write pointer is in the array. -/
theorem MsgQueue.Consistent.tail_inside {queue : MsgQueue} (consistent : queue.Consistent) :
    queue.tail < msgQueueSize := by
  rw [consistent.tail]
  exact Nat.mod_lt _ (by decide)

/-- The ring holds as many words as were counted. -/
@[simp] theorem contents_length (queue : MsgQueue) : queue.contents.length = queue.count :=
  slice_length _ _ _ _

/-- An empty queue has no message and stays as it is. -/
theorem dequeue_empty {queue : MsgQueue} (empty : queue.count = 0) :
    queue.dequeue = (msgNone, queue) := if_pos empty

/-- The next pointer is the next cell of the ring. -/
theorem rewind_next {cell : Nat} (inside : cell < msgQueueSize) :
    rewind msgQueueSize (cell + 1) = (cell + 1) % msgQueueSize := rewind_mod inside

/-- A message that finds room goes behind the others. -/
theorem enqueue_contents {queue : MsgQueue} (consistent : queue.Consistent)
    (type value : BitVec 32) (room : queue.count < msgQueueSize) :
    (queue.enqueue type value).Consistent ∧
      (queue.enqueue type value).contents = queue.contents ++ [msgMake type value] := by
  have counted : (queue.enqueue type value).count = queue.count + 1 := if_pos room
  refine ⟨⟨consistent.head, ?_, ?_⟩, ?_⟩
  · rw [counted]
    change rewind msgQueueSize (queue.tail + 1) = (queue.head + (queue.count + 1)) % _
    rw [rewind_next consistent.tail_inside, consistent.tail, Nat.mod_add_mod, Nat.add_assoc]
  · rw [counted]
    exact room
  · have pushed := slice_push_one queue.msgData queue.head (msgMake type value) room
    rw [← consistent.tail] at pushed
    rw [MsgQueue.contents, counted]
    exact pushed

/-- The oldest message comes out first. -/
theorem dequeue_contents {queue : MsgQueue} (consistent : queue.Consistent)
    {oldest : BitVec 32} {rest : List (BitVec 32)} (holds : queue.contents = oldest :: rest) :
    queue.dequeue.1 = oldest ∧ queue.dequeue.2.Consistent ∧ queue.dequeue.2.contents = rest := by
  have counted : queue.count = rest.length + 1 := by
    rw [← contents_length, holds, List.length_cons]
  have present : queue.count ≠ 0 := by omega
  have parts : queue.msgData queue.head = oldest ∧
      slice msgQueueSize queue.msgData ((queue.head + 1) % msgQueueSize) (queue.count - 1) =
        rest := by
    have split := slice_cons queue.msgData consistent.head (queue.count - 1)
    rw [Nat.sub_add_cancel (by omega)] at split
    exact List.cons.inj (split.symm.trans holds)
  simp only [MsgQueue.dequeue, if_neg present, rewind_next consistent.head]
  refine ⟨parts.1, ⟨Nat.mod_lt _ (by decide), ?_, ?_⟩, parts.2⟩
  · have position := consistent.tail
    have shifted := index_shift msgQueueSize queue.head 1 (queue.count - 1)
    rw [Nat.add_sub_cancel' (by omega)] at shifted
    exact position.trans shifted.symm
  · have bounded := consistent.bounded
    change queue.count - 1 ≤ msgQueueSize
    omega

/-- Draining a queue returns what it holds. -/
theorem drain_contents (pending : List (BitVec 32)) {queue : MsgQueue}
    (consistent : queue.Consistent) (holds : queue.contents = pending) :
    queue.drain pending.length = pending := by
  induction pending generalizing queue with
  | nil => rfl
  | cons oldest rest inductionHypothesis =>
    obtain ⟨first, behind, others⟩ := dequeue_contents consistent holds
    rw [List.length_cons, MsgQueue.drain, first, inductionHypothesis behind others]

/-- The ring holds the pending messages, and the returned ones were the right ones. -/
structure Refines (state : MsgQueue × List (BitVec 32))
    (pending : List (BitVec 32) × List (BitVec 32)) : Prop where
  consistent : state.1.Consistent
  holds : state.1.contents = pending.1
  returned : state.2 = pending.2

/-- A queue that holds the pending messages does what it is for. -/
theorem refines_orderly {state : MsgQueue × List (BitVec 32)}
    {pending : List (BitVec 32) × List (BitVec 32)} (refines : Refines state pending) :
    Orderly state pending where
  counted := by rw [← refines.holds, contents_length, MsgQueue.msgCount]
  drained := drain_contents _ refines.consistent refines.holds
  returned := refines.returned
  empty := fun nothing => dequeue_empty (by rw [← contents_length, refines.holds, nothing]; rfl)

/-- A list within the size is kept whole. -/
theorem newest_whole {pending : List (BitVec 32)} (fits : pending.length ≤ msgQueueSize) :
    newest pending = pending := by
  rw [newest, Nat.sub_eq_zero_of_le fits, List.drop_zero]

/-- The queue after a flush, and at the start. -/
theorem restart_consistent (msgData : Nat → BitVec 32) :
    (msgInit msgData).Consistent :=
  ⟨Nat.zero_lt_succ _, rfl, Nat.zero_le _⟩

/-- A call that finds room keeps the ring and the pending messages together. -/
theorem step_refines (state : MsgQueue × List (BitVec 32))
    (pending : List (BitVec 32) × List (BitVec 32)) (event : Event)
    (refines : Refines state pending) (room : Room state event) :
    Refines (step state event) (intended pending event) := by
  obtain ⟨consistent, holds, returned⟩ := refines
  cases event with
  | enqueue type value =>
    obtain ⟨kept, pushed⟩ := enqueue_contents consistent type value room
    have fits : (pending.1 ++ [msgMake type value]).length ≤ msgQueueSize := by
      rw [← holds, List.length_append, contents_length]
      exact room
    refine ⟨kept, ?_, returned⟩
    rw [step, intended, newest_whole fits, ← holds, pushed]
  | dequeue =>
    cases waiting : pending.1 with
    | nil =>
      rw [waiting] at holds
      have zero : state.1.count = 0 := by rw [← contents_length, holds, List.length_nil]
      constructor <;>
        simp [step, intended, dequeue_empty zero, waiting, consistent, holds, returned]
    | cons oldest rest =>
      rw [waiting] at holds
      obtain ⟨first, kept, others⟩ := dequeue_contents consistent holds
      constructor <;> simp [step, intended, waiting, first, kept, others, returned]
  | flush => exact ⟨restart_consistent state.1.msgData, rfl, returned⟩

/-- In a run that never enqueues into a full queue the ring holds the pending messages. -/
theorem run_refines (msgData : Nat → BitVec 32) (events : List Event)
    (room : Along step Room (msgInit msgData, []) events) :
    Refines (run step (msgInit msgData, []) events) (run intended ([], []) events) :=
  along_simulation step intended step_refines (msgInit msgData, []) ([], [])
    ⟨restart_consistent msgData, rfl, rfl⟩ events room

/-- With 50 messages pending the write pointer stands where the read pointer does, so
the next message is written over the oldest one and comes out first. -/
theorem overflow_comes_first {queue : MsgQueue} (consistent : queue.Consistent)
    (full : queue.count = msgQueueSize) (type value : BitVec 32) :
    (queue.enqueue type value).dequeue.1 = msgMake type value := by
  have together : queue.tail = queue.head := by
    have position := consistent.tail
    rwa [full, Nat.add_mod_right, Nat.mod_eq_of_lt consistent.head] at position
  simp [MsgQueue.dequeue, MsgQueue.enqueue, together, full]

/-- A full queue keeps the 49 messages behind the oldest and the new one. -/
theorem newest_full {pending : List (BitVec 32)} (message : BitVec 32)
    (full : pending.length = msgQueueSize) :
    newest (pending ++ [message]) = pending.tail ++ [message] := by
  cases pending with
  | nil => cases full
  | cons oldest rest =>
    have size : (oldest :: rest ++ [message]).length - msgQueueSize = 1 := by
      rw [List.length_append, full]
      rfl
    rw [newest, size]
    rfl

/-- After an overflow the queue is out of order, unless the new message and the second
oldest are the same word. -/
theorem overflow_out_of_order {state : MsgQueue × List (BitVec 32)}
    {pending : List (BitVec 32) × List (BitVec 32)} (refines : Refines state pending)
    (full : state.1.count = msgQueueSize) (type value : BitVec 32)
    (other : msgMake type value ≠ pending.1.tail.headD msgNone) :
    ¬ Orderly (step state (.enqueue type value)) (intended pending (.enqueue type value)) := by
  intro orderly
  have size : pending.1.length = msgQueueSize := by
    rw [← refines.holds, contents_length, full]
  have first := overflow_comes_first refines.consistent full type value
  have drained := orderly.drained
  rw [step, intended, newest_full _ size] at drained
  match holds : pending.1, size with
  | oldest :: second :: rest, _ =>
    rw [holds] at drained other
    rw [List.tail_cons, List.cons_append, List.length_cons, MsgQueue.drain, first] at drained
    exact other (List.cons.inj drained).1

/-- In every run that never enqueues while 50 messages are pending: the messages come
out in their order, the count is the number of the pending ones, and a dequeue on an
empty queue returns `MSG_NONE` and changes nothing. The first message beyond 50 breaks
the order, unless it is the same word as the second oldest one. -/
theorem messages_in_order (msgData : Nat → BitVec 32) (events : List Event)
    (room : Along step Room (msgInit msgData, []) events) :
    let state := run step (msgInit msgData, []) events
    let pending := run intended ([], []) events
    Orderly state pending ∧
      ∀ type value, state.1.count = msgQueueSize →
        msgMake type value ≠ pending.1.tail.headD msgNone →
          ¬ Orderly (step state (.enqueue type value)) (intended pending (.enqueue type value)) :=
  have refines := run_refines msgData events room
  ⟨refines_orderly refines, fun type value full other =>
    overflow_out_of_order refines full type value other⟩

/-- Fifty messages, all equal. -/
def fifty : List Event := List.replicate msgQueueSize (.enqueue 0 1)

set_option maxRecDepth 4000 in
/-- Fifty messages find room, and are out of order once another one comes. -/
theorem fifty_in_order :
    Orderly (run step (msgInit fun _ => 0, []) fifty) (run intended ([], []) fifty) ∧
      ¬ Orderly (step (run step (msgInit fun _ => 0, []) fifty) (.enqueue 0 2))
        (intended (run intended ([], []) fifty) (.enqueue 0 2)) := by
  have room : ∀ (count : Nat) (queue : MsgQueue), queue.count + count ≤ msgQueueSize →
      Along step Room (queue, []) (List.replicate count (.enqueue 0 1)) := by
    intro count
    induction count with
    | zero => exact fun _ _ => True.intro
    | succ count inductionHypothesis =>
      intro queue fits
      have space : queue.count < msgQueueSize := by omega
      refine ⟨space, inductionHypothesis (queue.enqueue 0 1) ?_⟩
      rw [show (queue.enqueue 0 1).count = queue.count + 1 from if_pos space]
      omega
  have both := messages_in_order (fun _ => 0) fifty (room msgQueueSize _ (Nat.le_refl _))
  exact ⟨both.1, both.2 0 2 (by decide) (by decide)⟩

set_option maxRecDepth 4000 in
/-- Fifty messages, another one, and a dequeue: the new message is returned, while the
oldest one that should be kept is the second. -/
theorem overflow_loses_order :
    ¬ ∀ (msgData : Nat → BitVec 32) (events : List Event),
      Orderly (run step (msgInit msgData, []) events) (run intended ([], []) events) := by
  intro always
  have returned := (always (fun _ => 0) (fifty ++ [.enqueue 0 2, .dequeue])).returned
  revert returned
  decide

end Pyrometer.MessageQueue
