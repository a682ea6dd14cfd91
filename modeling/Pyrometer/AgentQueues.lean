import Pyrometer.RingBuffers
import Pyrometer.Runs

/-!
# The agent queues of `agent.c`

Each priority has a ring of 32 function entries and a counting semaphore.
`agent_post` puts an entry into the ring inside a critical section and gives the
semaphore afterwards; it returns -1 when the ring is full or the semaphore is at
its maximum. `agent_task` takes the semaphore, takes an entry out of the ring
inside a critical section and calls it. Posts come from any number of tasks and
interrupts, and everything outside the critical sections interleaves freely.

A post from an interrupt uses another kind of critical section and another call to
give the semaphore, which fails under the same condition, so `from_isr` changes
nothing here. An entry may be a null pointer, which `agent_task` does not call;
no caller passes one (`ostimer_open` tests `item->func`, the others name a function).
`agent_flush` is not part of a run.
-/

namespace Pyrometer.AgentQueues

open RingBuffers Runs

/-- `AGENT_QUEUE_SIZE`, the cells of a queue and the maximum of its semaphore. -/
abbrev agentQueueSize : Nat := 32

/-- `AGENT_PRIO_xx`. -/
inductive AgentPrio where
  | hi
  | md
  | lo
  deriving DecidableEq

/-- `agent_func_t`: a function, unless the pointer is null, with its argument. -/
structure AgentFunc (Entry Arg : Type) where
  entry : Option Entry
  arg : Arg
  deriving DecidableEq

variable {Entry Arg : Type}

/-- The entry is not null. -/
def AgentFunc.callable (func : AgentFunc Entry Arg) : Bool := func.entry.isSome

/-- `agent_queue_t`. The pointers are indices of the array. -/
structure AgentQueue (Entry Arg : Type) where
  sem : Nat
  array : Nat → AgentFunc Entry Arg
  head : Nat
  tail : Nat
  count : Nat

/-- One call of `agent_post`, numbered in the order of their critical sections. -/
structure Post (Entry Arg : Type) where
  number : Nat
  func : AgentFunc Entry Arg
  deriving DecidableEq

/-- Where `agent_task` is: at its wait, behind it, or at the call. -/
inductive AgentTask (Entry Arg : Type) where
  | waiting
  | taken
  | calling (func : AgentFunc Entry Arg)

/-- What the task has taken out of the ring and not yet called. -/
def AgentTask.pending : AgentTask Entry Arg → List (AgentFunc Entry Arg)
  | .calling func => [func]
  | _ => []

/-- The semaphore was taken for an entry that is still in the ring. -/
def AgentTask.owed : AgentTask Entry Arg → Nat
  | .taken => 1
  | _ => 0

/-- One priority: its queue, the posts between their two steps, its task, and what
happened so far: the posts whose entry was enqueued, the posts that returned with
their result, the calls, and the takes that found the queue empty. -/
structure Agent (Entry Arg : Type) where
  queue : AgentQueue Entry Arg
  posting : List (Post Entry Arg)
  task : AgentTask Entry Arg
  posts : Nat
  enqueued : List (Post Entry Arg)
  returned : List (Post Entry Arg × Int)
  calls : List (AgentFunc Entry Arg)
  emptyTakes : Nat

/-- One step at one priority. A post between its two steps is named by its position. -/
inductive Event (Entry Arg : Type) where
  | post (func : AgentFunc Entry Arg)
  | give (position : Nat)
  | take
  | dequeue
  | call

/-- The pointer behind a cell of the array. -/
def advance (cell : Nat) : Nat := rewind agentQueueSize (cell + 1)

/-- Put an entry behind the others. -/
def AgentQueue.enqueue (queue : AgentQueue Entry Arg) (func : AgentFunc Entry Arg) :
    AgentQueue Entry Arg :=
  { queue with
    array := Function.update queue.array queue.tail func
    tail := advance queue.tail
    count := queue.count + 1 }

/-- The critical section of `agent_post`. A full queue makes it return. -/
def Agent.post (agent : Agent Entry Arg) (func : AgentFunc Entry Arg) : Agent Entry Arg :=
  let post : Post Entry Arg := ⟨agent.posts, func⟩
  if agent.queue.count = agentQueueSize then
    { agent with posts := agent.posts + 1, returned := agent.returned ++ [(post, -1)] }
  else
    { agent with
      queue := agent.queue.enqueue func
      posts := agent.posts + 1
      posting := agent.posting ++ [post]
      enqueued := agent.enqueued ++ [post] }

/-- `agent_post` gives the semaphore and returns. -/
def Agent.give (agent : Agent Entry Arg) (position : Nat) : Agent Entry Arg :=
  match agent.posting[position]? with
  | none => agent
  | some post =>
      let rest := agent.posting.eraseIdx position
      if agent.queue.sem = agentQueueSize then
        { agent with posting := rest, returned := agent.returned ++ [(post, -1)] }
      else
        { agent with
          queue := { agent.queue with sem := agent.queue.sem + 1 }
          posting := rest
          returned := agent.returned ++ [(post, 0)] }

/-- `agent_task` gets the semaphore. -/
def Agent.take (agent : Agent Entry Arg) : Agent Entry Arg :=
  match agent.task with
  | .waiting =>
      if agent.queue.sem = 0 then agent
      else { agent with
        queue := { agent.queue with sem := agent.queue.sem - 1 }
        task := .taken }
  | _ => agent

/-- The critical section of `agent_task`. -/
def Agent.dequeue (agent : Agent Entry Arg) : Agent Entry Arg :=
  match agent.task with
  | .taken =>
      if 0 < agent.queue.count then { agent with
        queue := { agent.queue with
          head := advance agent.queue.head
          count := agent.queue.count - 1 }
        task := .calling (agent.queue.array agent.queue.head) }
      else { agent with task := .waiting, emptyTakes := agent.emptyTakes + 1 }
  | _ => agent

/-- `agent_task` calls the entry it took out, unless it is null. -/
def Agent.call (agent : Agent Entry Arg) : Agent Entry Arg :=
  match agent.task with
  | .calling func => { agent with
      task := .waiting
      calls := if func.callable then agent.calls ++ [func] else agent.calls }
  | _ => agent

/-- One step at one priority. -/
def Agent.step (agent : Agent Entry Arg) : Event Entry Arg → Agent Entry Arg
  | .post func => agent.post func
  | .give position => agent.give position
  | .take => agent.take
  | .dequeue => agent.dequeue
  | .call => agent.call

/-- A priority after `agent_init`. What the array holds then does not matter. -/
def Agent.init (array : Nat → AgentFunc Entry Arg) : Agent Entry Arg :=
  ⟨⟨0, array, 0, 0, 0⟩, [], .waiting, 0, [], [], [], 0⟩

/-- One step at any priority. -/
def step (agents : AgentPrio → Agent Entry Arg) (event : AgentPrio × Event Entry Arg) :
    AgentPrio → Agent Entry Arg :=
  Function.update agents event.1 ((agents event.1).step event.2)

/-- Every priority after `agent_init`. -/
def agentInit (arrays : AgentPrio → Nat → AgentFunc Entry Arg) : AgentPrio → Agent Entry Arg :=
  fun prio => Agent.init (arrays prio)

/-- The entries in the ring, the oldest one first. -/
def AgentQueue.contents (queue : AgentQueue Entry Arg) : List (AgentFunc Entry Arg) :=
  slice agentQueueSize queue.array queue.head queue.count

/-- What holds of a priority between any two steps. -/
structure Agent.Consistent (agent : Agent Entry Arg) : Prop where
  head : agent.queue.head < agentQueueSize
  tail : agent.queue.tail = (agent.queue.head + agent.queue.count) % agentQueueSize
  bounded : agent.queue.count ≤ agentQueueSize
  balance : agent.queue.count = agent.queue.sem + agent.posting.length + agent.task.owed
  order : ∃ finished, agent.enqueued.map Post.func =
      finished ++ agent.task.pending ++ agent.queue.contents ∧
    agent.calls = finished.filter AgentFunc.callable
  fresh : ∀ post ∈ agent.enqueued, post.number < agent.posts
  entered : ∀ post ∈ agent.posting, post ∈ agent.enqueued
  answered : ∀ post result, (post, result) ∈ agent.returned →
    post.number < agent.posts ∧ (result = 0 ↔ post ∈ agent.enqueued)
  served : agent.emptyTakes = 0

/-- The next pointer is the next cell of the ring. -/
theorem advance_mod {cell : Nat} (inside : cell < agentQueueSize) :
    advance cell = (cell + 1) % agentQueueSize :=
  rewind_mod inside

/-- A priority starts consistent. -/
theorem init_consistent (array : Nat → AgentFunc Entry Arg) : (Agent.init array).Consistent where
  head := by simp [Agent.init]
  tail := rfl
  bounded := Nat.zero_le _
  balance := rfl
  order := ⟨[], rfl, rfl⟩
  fresh := by simp [Agent.init]
  entered := by simp [Agent.init]
  answered := by simp [Agent.init]
  served := rfl

/-- An entry goes behind the others. -/
theorem enqueue_contents (queue : AgentQueue Entry Arg) (func : AgentFunc Entry Arg)
    (tail : queue.tail = (queue.head + queue.count) % agentQueueSize)
    (space : queue.count < agentQueueSize) :
    (queue.enqueue func).contents = queue.contents ++ [func] := by
  have pushed := slice_push queue.array queue.head queue.count [func]
    (show 0 < agentQueueSize by decide) space
  rw [← tail] at pushed
  exact pushed

/-- The oldest entry comes out first. -/
theorem contents_uncons (queue : AgentQueue Entry Arg) (head : queue.head < agentQueueSize)
    (filled : 0 < queue.count) :
    queue.contents = queue.array queue.head ::
      slice agentQueueSize queue.array (advance queue.head) (queue.count - 1) := by
  have split := slice_cons queue.array head (queue.count - 1)
  rw [Nat.sub_add_cancel filled, ← advance_mod head] at split
  exact split

/-- A post that is not enqueued changes nothing for the earlier ones. -/
theorem answered_refused {agent : Agent Entry Arg} (consistent : agent.Consistent)
    (func : AgentFunc Entry Arg) :
    ∀ post result, (post, result) ∈ agent.returned ++ [(⟨agent.posts, func⟩, -1)] →
      post.number < agent.posts + 1 ∧ (result = 0 ↔ post ∈ agent.enqueued) := by
  intro post result member
  rcases List.mem_append.mp member with earlier | refused
  · obtain ⟨older, meaning⟩ := consistent.answered post result earlier
    exact ⟨by omega, meaning⟩
  · obtain ⟨rfl, rfl⟩ := Prod.mk.inj (List.mem_singleton.mp refused)
    refine ⟨Nat.lt_succ_self _, by simp, fun present => ?_⟩
    exact absurd (consistent.fresh _ present) (Nat.lt_irrefl _)

/-- A new post is none of those that returned. -/
theorem answered_enqueued {agent : Agent Entry Arg} (consistent : agent.Consistent)
    (func : AgentFunc Entry Arg) :
    ∀ post result, (post, result) ∈ agent.returned →
      post.number < agent.posts + 1 ∧
        (result = 0 ↔ post ∈ agent.enqueued ++ [⟨agent.posts, func⟩]) := by
  intro post result member
  obtain ⟨older, meaning⟩ := consistent.answered post result member
  have other : post ≠ ⟨agent.posts, func⟩ := by
    rintro rfl
    exact Nat.lt_irrefl _ older
  exact ⟨by omega, by simp [meaning, other]⟩

/-- The critical section of a post keeps a priority consistent. -/
theorem post_consistent {agent : Agent Entry Arg} (consistent : agent.Consistent)
    (func : AgentFunc Entry Arg) : (agent.post func).Consistent := by
  unfold Agent.post
  split
  case isTrue full =>
    exact { consistent with
      fresh := fun post member => Nat.lt_succ_of_lt (consistent.fresh post member)
      answered := answered_refused consistent func }
  case isFalse space =>
    have bounded := consistent.bounded
    have room : agent.queue.count < agentQueueSize := by omega
    have inside : agent.queue.tail < agentQueueSize := by
      rw [consistent.tail]
      exact Nat.mod_lt _ (by decide)
    obtain ⟨finished, order, called⟩ := consistent.order
    refine ⟨consistent.head, ?_, room, ?_, ⟨finished, ?_, called⟩, ?_, ?_,
      answered_enqueued consistent func, consistent.served⟩
    · change advance agent.queue.tail = _
      rw [advance_mod inside, consistent.tail, Nat.mod_add_mod]
      rfl
    · have balance := consistent.balance
      simp only [AgentQueue.enqueue, List.length_append, List.length_singleton]
      omega
    · rw [enqueue_contents _ _ consistent.tail room, List.map_append, order]
      simp
    · intro post member
      rcases List.mem_append.mp member with earlier | new
      · exact Nat.lt_succ_of_lt (consistent.fresh post earlier)
      · rw [List.mem_singleton.mp new]
        exact Nat.lt_succ_self _
    · intro post member
      rcases List.mem_append.mp member with earlier | new
      · exact List.mem_append_left _ (consistent.entered post earlier)
      · exact List.mem_append_right _ new

/-- Giving the semaphore keeps a priority consistent, and never fails: the entry of
the post is still counted as one that nobody was told of. -/
theorem give_consistent {agent : Agent Entry Arg} (consistent : agent.Consistent)
    (position : Nat) : (agent.give position).Consistent := by
  unfold Agent.give
  cases found : agent.posting[position]? with
  | none => exact consistent
  | some post =>
    obtain ⟨below, here⟩ := List.getElem?_eq_some_iff.mp found
    have balance := consistent.balance
    have bounded := consistent.bounded
    have shorter : (agent.posting.eraseIdx position).length + 1 = agent.posting.length := by
      rw [List.length_eraseIdx_of_lt below]
      omega
    have present : post ∈ agent.enqueued :=
      consistent.entered post (List.mem_of_getElem? found)
    have notFull : agent.queue.sem ≠ agentQueueSize := by omega
    simp only [if_neg notFull]
    refine { consistent with
      balance := ?_
      entered := fun other member => consistent.entered other (List.mem_of_mem_eraseIdx member)
      answered := fun other result member => ?_ }
    · change agent.queue.count =
        agent.queue.sem + 1 + (agent.posting.eraseIdx position).length + agent.task.owed
      omega
    · rcases List.mem_append.mp member with earlier | new
      · exact consistent.answered other result earlier
      · obtain ⟨rfl, rfl⟩ := Prod.mk.inj (List.mem_singleton.mp new)
        exact ⟨consistent.fresh _ present, by simp [present]⟩

/-- Taking the semaphore keeps a priority consistent. -/
theorem take_consistent {agent : Agent Entry Arg} (consistent : agent.Consistent) :
    agent.take.Consistent := by
  unfold Agent.take
  cases task : agent.task with
  | taken => exact consistent
  | calling func => exact consistent
  | waiting =>
    by_cases empty : agent.queue.sem = 0
    · simpa only [empty, if_true] using consistent
    · have balance := consistent.balance
      have order := consistent.order
      simp only [task, AgentTask.owed, AgentTask.pending] at balance order
      simp only [empty, if_false]
      refine { consistent with balance := ?_, order := order }
      change agent.queue.count = agent.queue.sem - 1 + agent.posting.length + 1
      omega

/-- Taking an entry out keeps a priority consistent: the one the semaphore was given
for is still in the ring. -/
theorem dequeue_consistent {agent : Agent Entry Arg} (consistent : agent.Consistent) :
    agent.dequeue.Consistent := by
  unfold Agent.dequeue
  cases task : agent.task with
  | waiting => exact consistent
  | calling func => exact consistent
  | taken =>
    have balance := consistent.balance
    simp only [task, AgentTask.owed] at balance
    have filled : 0 < agent.queue.count := by omega
    have bounded := consistent.bounded
    obtain ⟨finished, order, called⟩ := consistent.order
    rw [contents_uncons agent.queue consistent.head filled, task] at order
    simp only [if_pos filled]
    refine { consistent with
      head := ?_, tail := ?_, bounded := ?_, balance := ?_, order := ⟨finished, ?_, called⟩ }
    · rw [advance_mod consistent.head]
      exact Nat.mod_lt _ (by decide)
    · change agent.queue.tail = (advance agent.queue.head + (agent.queue.count - 1)) % _
      rw [advance_mod consistent.head, index_shift, Nat.add_sub_cancel' filled]
      exact consistent.tail
    · exact Nat.le_trans (Nat.sub_le _ _) bounded
    · change agent.queue.count - 1 = agent.queue.sem + agent.posting.length + 0
      omega
    · simpa [AgentTask.pending, AgentQueue.contents] using order

/-- A call keeps a priority consistent. -/
theorem call_consistent {agent : Agent Entry Arg} (consistent : agent.Consistent) :
    agent.call.Consistent := by
  unfold Agent.call
  cases task : agent.task with
  | waiting => exact consistent
  | taken => exact consistent
  | calling func =>
    have balance := consistent.balance
    obtain ⟨finished, order, called⟩ := consistent.order
    simp only [task, AgentTask.owed, AgentTask.pending] at balance order
    refine { consistent with balance := balance, order := ⟨finished ++ [func], ?_, ?_⟩ }
    · simpa [AgentTask.pending] using order
    · rw [List.filter_append, ← called]
      cases callable : func.callable <;> simp [callable]

/-- Every step keeps a priority consistent. -/
theorem step_consistent {agent : Agent Entry Arg} (consistent : agent.Consistent)
    (event : Event Entry Arg) : (agent.step event).Consistent := by
  cases event with
  | post func => exact post_consistent consistent func
  | give position => exact give_consistent consistent position
  | take => exact take_consistent consistent
  | dequeue => exact dequeue_consistent consistent
  | call => exact call_consistent consistent

/-- Every run keeps every priority consistent. -/
theorem run_consistent (arrays : AgentPrio → Nat → AgentFunc Entry Arg)
    (events : List (AgentPrio × Event Entry Arg)) (prio : AgentPrio) :
    (run step (agentInit arrays) events prio).Consistent := by
  have preserved : ∀ (agents : AgentPrio → Agent Entry Arg) (event : AgentPrio × Event Entry Arg),
      (∀ prio, (agents prio).Consistent) → ∀ prio, (step agents event prio).Consistent := by
    intro agents event consistent other
    by_cases same : other = event.1
    · subst same
      simpa [step] using step_consistent (consistent event.1) event.2
    · simpa [step, same] using consistent other
  exact run_invariant step preserved (agentInit arrays)
    (fun prio => init_consistent (arrays prio)) events prio

/-- Steps at one priority are steps of that agent alone. -/
theorem run_prio (agents : AgentPrio → Agent Entry Arg) (prio : AgentPrio)
    (events : List (Event Entry Arg)) :
    run step agents (events.map (Prod.mk prio)) prio = run Agent.step (agents prio) events := by
  induction events generalizing agents with
  | nil => rfl
  | cons event rest inductionHypothesis =>
    have first : step agents (prio, event) prio = (agents prio).step event :=
      Function.update_self ..
    have later := inductionHypothesis (step agents (prio, event))
    rw [first] at later
    exact later

/-- One round of `agent_task`: it takes the semaphore, takes an entry out and calls it. -/
def taskRound : List (Event Entry Arg) := [.take, .dequeue, .call]

/-- What is left to do at a priority: the posts under way give the semaphore, the task ends the
round it is in, and goes round once for each entry in the queue. -/
def Agent.serving (agent : Agent Entry Arg) : List (Event Entry Arg) :=
  List.replicate agent.posting.length (.give 0) ++ ([.dequeue, .call] ++
    (List.replicate agent.queue.count taskRound).flatten)

/-- No post is under way, and what was enqueued is given. -/
structure Agent.Given (agent : Agent Entry Arg) (enqueued : List (Post Entry Arg)) : Prop where
  consistent : agent.Consistent
  posting : agent.posting = []
  enqueued : agent.enqueued = enqueued

/-- The posts under way give the semaphore one after the other, and enqueue nothing. -/
theorem gives_given {agent : Agent Entry Arg} (consistent : agent.Consistent) (count : Nat)
    (under : agent.posting.length = count) :
    let after := run Agent.step agent (List.replicate count (.give 0))
    after.Given agent.enqueued ∧ after.queue.count = agent.queue.count := by
  induction count generalizing agent with
  | zero => exact ⟨⟨consistent, List.length_eq_zero_iff.mp under, rfl⟩, rfl⟩
  | succ count inductionHypothesis =>
    obtain ⟨post, rest, posting⟩ := List.exists_cons_of_length_eq_add_one under
    have notFull : agent.queue.sem ≠ agentQueueSize := by
      have balance := consistent.balance
      have bounded := consistent.bounded
      omega
    have given : agent.give 0 = { agent with
        queue := { agent.queue with sem := agent.queue.sem + 1 }
        posting := rest
        returned := agent.returned ++ [(post, 0)] } := by
      simp [Agent.give, posting, notFull]
    have next : (agent.give 0).Consistent := give_consistent consistent 0
    have shorter : (agent.give 0).posting.length = count := by
      rw [given]
      rw [posting, List.length_cons] at under
      exact Nat.succ.inj under
    have rest := inductionHypothesis next shorter
    rw [given] at rest
    rw [List.replicate_succ]
    change let after := run Agent.step (agent.give 0) (List.replicate count (.give 0))
      after.Given agent.enqueued ∧ after.queue.count = agent.queue.count
    rw [given]
    exact rest

/-- The round that the task is in ends, and takes at most one entry out. -/
theorem end_round {agent : Agent Entry Arg} {enqueued : List (Post Entry Arg)}
    (given : agent.Given enqueued) :
    let after := run Agent.step agent [.dequeue, .call]
    after.Given enqueued ∧ after.task = .waiting ∧ after.queue.count ≤ agent.queue.count := by
  have consistent : (agent.dequeue.call).Consistent :=
    call_consistent (dequeue_consistent given.consistent)
  change (agent.dequeue.call).Given enqueued ∧ (agent.dequeue.call).task = .waiting ∧
    (agent.dequeue.call).queue.count ≤ agent.queue.count
  cases task : agent.task with
  | waiting =>
    have idle : agent.dequeue.call = agent := by simp [Agent.dequeue, Agent.call, task]
    rw [idle]
    exact ⟨given, task, Nat.le_refl _⟩
  | calling func =>
    refine ⟨⟨consistent, ?_, ?_⟩, ?_, ?_⟩
    · simpa [Agent.dequeue, Agent.call, task] using given.posting
    · simpa [Agent.dequeue, Agent.call, task] using given.enqueued
    · simp [Agent.dequeue, Agent.call, task]
    · simp [Agent.dequeue, Agent.call, task]
  | taken =>
    have balance := given.consistent.balance
    simp only [task, AgentTask.owed] at balance
    have filled : 0 < agent.queue.count := by omega
    refine ⟨⟨consistent, ?_, ?_⟩, ?_, ?_⟩
    · simpa [Agent.dequeue, Agent.call, task, filled] using given.posting
    · simpa [Agent.dequeue, Agent.call, task, filled] using given.enqueued
    · simp [Agent.dequeue, Agent.call, task, filled]
    · simp [Agent.dequeue, Agent.call, task, filled]

/-- With all posts given a round of the waiting task takes one entry out of the queue, if there
is one. -/
theorem round_serves {agent : Agent Entry Arg} {enqueued : List (Post Entry Arg)}
    (given : agent.Given enqueued) (waiting : agent.task = .waiting) :
    let after := run Agent.step agent taskRound
    after.Given enqueued ∧ after.task = .waiting ∧
      after.queue.count = agent.queue.count - 1 := by
  have consistent : (agent.take.dequeue.call).Consistent :=
    call_consistent (dequeue_consistent (take_consistent given.consistent))
  have balance := given.consistent.balance
  rw [given.posting, waiting] at balance
  change (agent.take.dequeue.call).Given enqueued ∧ (agent.take.dequeue.call).task = .waiting ∧
    (agent.take.dequeue.call).queue.count = agent.queue.count - 1
  by_cases empty : agent.queue.sem = 0
  · have idle : agent.take.dequeue.call = agent := by
      simp [Agent.take, Agent.dequeue, Agent.call, waiting, empty]
    have nothing : agent.queue.count = 0 := by
      rw [balance, empty]
      rfl
    rw [idle, nothing]
    exact ⟨given, waiting, rfl⟩
  · have filled : 0 < agent.queue.count := by
      rw [balance]
      exact Nat.lt_of_lt_of_le (Nat.pos_of_ne_zero empty) (Nat.le_add_right _ _)
    refine ⟨⟨consistent, ?_, ?_⟩, ?_, ?_⟩
    · simpa [Agent.take, Agent.dequeue, Agent.call, waiting, empty, filled] using given.posting
    · simpa [Agent.take, Agent.dequeue, Agent.call, waiting, empty, filled] using given.enqueued
    · simp [Agent.take, Agent.dequeue, Agent.call, waiting, empty, filled]
    · simp [Agent.take, Agent.dequeue, Agent.call, waiting, empty, filled]

/-- As many rounds as there are entries empty the queue. -/
theorem rounds_serve {agent : Agent Entry Arg} {enqueued : List (Post Entry Arg)}
    (given : agent.Given enqueued) (waiting : agent.task = .waiting) (count : Nat)
    (enough : agent.queue.count ≤ count) :
    let after := run Agent.step agent (List.replicate count taskRound).flatten
    after.Given enqueued ∧ after.task = .waiting ∧ after.queue.count = 0 := by
  induction count generalizing agent with
  | zero => exact ⟨given, waiting, Nat.eq_zero_of_le_zero enough⟩
  | succ count inductionHypothesis =>
    obtain ⟨next, still, fewer⟩ := round_serves given waiting
    have rest := inductionHypothesis next still (by omega)
    rw [List.replicate_succ, List.flatten_cons, run_append]
    exact rest

/-- When the task waits and the queue is empty, all entries that were enqueued have been called. -/
theorem idle_calls {agent : Agent Entry Arg} (consistent : agent.Consistent)
    (waiting : agent.task = .waiting) (empty : agent.queue.count = 0) :
    agent.calls = (agent.enqueued.map Post.func).filter AgentFunc.callable := by
  obtain ⟨finished, order, called⟩ := consistent.order
  have nothing : agent.queue.contents = [] := by
    rw [AgentQueue.contents, empty]
    rfl
  have pending : agent.task.pending = [] := by
    rw [waiting]
    rfl
  rw [pending, nothing, List.append_nil, List.append_nil] at order
  rw [called, order]

/-- Once a priority is served, all entries that were enqueued are called. -/
theorem serving_calls {agent : Agent Entry Arg} (consistent : agent.Consistent) :
    let after := run Agent.step agent agent.serving
    after.enqueued = agent.enqueued ∧
      after.calls = (agent.enqueued.map Post.func).filter AgentFunc.callable := by
  obtain ⟨given, count⟩ := gives_given consistent _ rfl
  obtain ⟨ended, waiting, fewer⟩ := end_round given
  rw [count] at fewer
  obtain ⟨last, idle, empty⟩ := rounds_serve ended waiting _ fewer
  have called := idle_calls last.consistent idle empty
  rw [last.enqueued] at called
  rw [Agent.serving, run_append, run_append]
  exact ⟨last.enqueued, called⟩

/-- For every interleaving and at every priority: a post returns 0 exactly when its entry was
enqueued. What was enqueued is what was finished, what the task holds and what the queue holds,
in this order, and the calls are what was finished but for null entries: none is missing and none
comes twice. However far the task is behind, once it is served it has called every entry. No take
finds the queue empty, and the semaphore stays within its maximum. -/
theorem agent_calls_in_order (arrays : AgentPrio → Nat → AgentFunc Entry Arg)
    (events : List (AgentPrio × Event Entry Arg)) (prio : AgentPrio) :
    let agent := run step (agentInit arrays) events prio
    let served := run step (agentInit arrays) (events ++ agent.serving.map (Prod.mk prio)) prio
    (∀ post result, (post, result) ∈ agent.returned → (result = 0 ↔ post ∈ agent.enqueued)) ∧
      (∃ finished, agent.enqueued.map Post.func =
          finished ++ agent.task.pending ++ agent.queue.contents ∧
        agent.calls = finished.filter AgentFunc.callable) ∧
      ((∀ post ∈ agent.enqueued, post.func.callable) → agent.enqueued.map Post.func =
        agent.calls ++ agent.task.pending ++ agent.queue.contents) ∧
      (served.enqueued = agent.enqueued ∧
        served.calls = (agent.enqueued.map Post.func).filter AgentFunc.callable) ∧
      agent.emptyTakes = 0 ∧ agent.queue.sem ≤ agentQueueSize := by
  intro agent served
  have consistent : agent.Consistent := run_consistent arrays events prio
  obtain ⟨finished, order, called⟩ := consistent.order
  refine ⟨fun post result member => (consistent.answered post result member).2,
    ⟨finished, order, called⟩, ?_, ?_, consistent.served, ?_⟩
  · intro callable
    have all : ∀ func ∈ finished, func.callable := by
      intro func member
      have listed : func ∈ agent.enqueued.map Post.func := by
        rw [order, List.append_assoc]
        exact List.mem_append_left _ member
      obtain ⟨post, present, rfl⟩ := List.mem_map.mp listed
      exact callable post present
    rw [called, List.filter_eq_self.mpr all]
    exact order
  · have reached : served = run Agent.step agent agent.serving := by
      simp only [served, run_append, run_prio, agent]
    rw [reached]
    exact serving_calls consistent
  · have balance := consistent.balance
    have bounded := consistent.bounded
    omega

end Pyrometer.AgentQueues
