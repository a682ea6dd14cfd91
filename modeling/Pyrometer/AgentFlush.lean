import Pyrometer.AgentQueues

/-!
# Flushing an agent queue

`agent_flush` empties the ring of one priority inside a critical section. The
counting semaphore keeps its count, and a post that is between its two steps still
gives it. So the semaphore may count more than the ring holds, `agent_task` may find
the ring empty, and the semaphore may be at its maximum while the ring has room.

The events before a flush are any interleaving, with other flushes among them; the
events behind it are those up to the next flush. An entry that `agent_task` has taken
out and not yet called is no longer in the queue, and a flush does not stop its call.
Each priority has its own queue and semaphore, so one of them is followed alone.
-/

namespace Pyrometer.AgentFlush

open RingBuffers Runs AgentQueues

variable {Entry Arg : Type}

/-- `agent_flush`. -/
def flush (agent : Agent Entry Arg) : Agent Entry Arg :=
  { agent with queue := { agent.queue with head := 0, tail := 0, count := 0 } }

/-- A post begun since a flush does not find the semaphore at its maximum when it comes
to give it. -/
def Room (since : Nat) (agent : Agent Entry Arg) : Event Entry Arg → Prop
  | .give position => ∀ post, agent.posting[position]? = some post → since ≤ post.number →
      agent.queue.sem ≠ agentQueueSize
  | _ => True

/-- What holds between any two steps, flushes included. -/
structure WellFormed (agent : Agent Entry Arg) : Prop where
  head : agent.queue.head < agentQueueSize
  tail : agent.queue.tail = (agent.queue.head + agent.queue.count) % agentQueueSize
  bounded : agent.queue.count ≤ agentQueueSize
  covered : agent.queue.count ≤ agent.queue.sem + agent.posting.length + agent.task.owed
  fresh : ∀ post ∈ agent.enqueued, post.number < agent.posts
  entered : ∀ post ∈ agent.posting, post ∈ agent.enqueued
  numbered : ∀ answer ∈ agent.returned, answer.1.number < agent.posts

/-- The write pointer is in the array. -/
theorem WellFormed.tail_inside {agent : Agent Entry Arg} (wellFormed : WellFormed agent) :
    agent.queue.tail < agentQueueSize := by
  rw [wellFormed.tail]
  exact Nat.mod_lt _ (by decide)

end Pyrometer.AgentFlush
