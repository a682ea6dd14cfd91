import Pyrometer.AgentQueues
import Pyrometer.SerialReceive

/-!
# Requests on their way from the line to the protocols

The DMA stores the bytes of a request as they come. When the line falls idle behind them,
`pc_on_rx_data` posts `pc_rx_packet_task` to the agent of the high priority, and that reads the
ring and hands what it has read to `proto_process`. Bytes, idle lines and the steps of the agent
come in any order, and others post to the same agent. So frames may come while earlier ones wait,
and while the task reads them.

`com_recv` looks at the number of unread bytes outside its critical section, so it takes two steps
here. What `proto_process` does with a request, and how long it takes, is left out.
-/

namespace Pyrometer.RequestPath

open ByteMemory RingBuffers Runs AgentQueues SerialReceive

/-- What is posted at the high priority. -/
inductive Task where
  | pcRxPacketTask
  | other (number : Nat)
  deriving DecidableEq

/-- Where a call of `pc_rx_packet_task` is: in front of the test of `com_recv`, in front of its
critical section, or behind it. -/
inductive Phase where
  | called
  | found (rxStop : Bool)
  | handled
  deriving DecidableEq

/-- The port, the agent and its call, the bytes since the line was last idle, the frames that
were accepted, and what `proto_process` was called with. -/
structure Link where
  port : Port
  agent : Agent Task Unit
  phase : Phase
  arriving : List Byte
  frames : List (List Byte)
  processed : List (List Byte)

/-- A byte comes, the line falls idle, the agent takes a step, or `com_recv` takes one of its
two. -/
inductive Event where
  | byte (byte : Byte)
  | idle
  | agent (event : AgentQueues.Event Task Unit)
  | look
  | copy

/-- The link before the first byte. -/
def Link.init (buffer : Mem) (array : Nat → AgentFunc Task Unit) : Link :=
  ⟨Port.init buffer, Agent.init array, .called, [], [], []⟩

/-- The port when `on_irq_all` has counted the unread bytes. -/
def measured (port : Port) : Port :=
  let writeIdx := comRxBuffSize - (comRxBuffSize - port.dmaDone)
  let count := toUint16
    (Int.tmod ((comRxBuffSize : Int) + writeIdx - port.readIdx) (comRxBuffSize : Int))
  { port with writeIdx := writeIdx, count := count, rxLen := count }

/-- `com_filter_recv` returns zero. -/
def passes (port : Port) : Bool := decide (pcMinLen ≤ port.rxLen ∧ port.rxLen ≤ pcMaxLen)

/-- The entry of `pc_rx_packet_task`. -/
def request : AgentFunc Task Unit := ⟨some .pcRxPacketTask, ()⟩

/-- `on_irq_all` at an idle line, with `pc_on_rx_data`. -/
def Link.idle (link : Link) : Link :=
  if passes (measured link.port) then
    { link with
      port := link.port.onIdle
      agent := link.agent.post request
      arriving := []
      frames := link.frames ++ [link.arriving] }
  else { link with port := link.port.onIdle, arriving := [] }

/-- The agent has called `pc_rx_packet_task`. -/
def running (agent : Agent Task Unit) : Bool :=
  match agent.task with
  | .calling func => decide (func.entry = some .pcRxPacketTask)
  | _ => false

/-- The agent takes a step; it goes on behind `pc_rx_packet_task` when that returns. -/
def Link.agentStep (link : Link) : AgentQueues.Event Task Unit → Link
  | .call =>
      if running link.agent ∧ link.phase ≠ .handled then link
      else { link with agent := link.agent.call, phase := .called }
  | event => { link with agent := link.agent.step event }

/-- `com_recv` looks at the number of unread bytes, and returns if there are none. -/
def Link.look (link : Link) : Link :=
  if running link.agent ∧ link.phase = .called then
    { link with phase :=
        if link.port.rxLen = 0 then .handled
        else .found (decide (comRxBuffSize ≤ link.port.rxLen)) }
  else link

/-- The critical section of `com_recv` and what comes behind it, with the bytes copied. -/
def comRecvCopy (port : Port) (rxStop : Bool) : Port × List Byte :=
  let copied := copyLoop port.buffer port.readIdx port.count
  let read := { port with
    readIdx := copied.2
    count := 0
    rxLen := toUint16 (port.rxLen - port.count) }
  (if rxStop then { read with dmaBase := read.writeIdx, dmaDone := 0 } else read, copied.1)

/-- `com_recv` copies, and `pc_rx_packet_task` hands over what it got. -/
def Link.copy (link : Link) : Link :=
  match link.phase with
  | .found rxStop =>
      let received := comRecvCopy link.port rxStop
      { link with
        port := received.1
        phase := .handled
        processed :=
          if received.2.length ≤ 1 ∨ 1056 < received.2.length then link.processed
          else link.processed ++ [received.2] }
  | _ => link

/-- One step. -/
def step (link : Link) : Event → Link
  | .byte byte =>
      { link with port := link.port.dmaStore [byte], arriving := link.arriving ++ [byte] }
  | .idle => link.idle
  | .agent event => link.agentStep event
  | .look => link.look
  | .copy => link.copy

/-- The unread bytes leave a cell of the ring, a single byte that is discarded does not lie in
the last cell, and an accepted frame finds room in the queue of the agent. -/
def Fits (link : Link) : Event → Prop
  | .byte _ => link.port.rxLen + link.arriving.length + 1 < comRxBuffSize
  | .idle =>
      (link.port.rxLen + link.arriving.length < pcMinLen →
        link.port.readIdx + link.arriving.length < comRxBuffSize) ∧
      (pcMinLen ≤ link.port.rxLen + link.arriving.length →
        link.agent.queue.count < agentQueueSize)
  | _ => True

/-- The agent has nothing left to do. -/
def Quiet (agent : Agent Task Unit) : Prop :=
  agent.posting = [] ∧ agent.queue.sem = 0 ∧ agent.task = .waiting

/-- A request will be looked at. -/
def Requested (link : Link) : Prop :=
  request ∈ link.agent.queue.contents ∨ (running link.agent = true ∧ link.phase ≠ .handled)

/-- The port holds the frames that wait and the bytes behind them. -/
structure Holds (port : Port) (waiting : List (List Byte)) (arriving : List Byte) : Prop where
  base : port.dmaBase = 0
  readIdx : port.readIdx < comRxBuffSize
  count : port.count = waiting.flatten.length
  rxLen : port.rxLen = waiting.flatten.length
  bounded : waiting.flatten.length + arriving.length < comRxBuffSize
  done : port.dmaDone =
    (port.readIdx + (waiting.flatten.length + arriving.length)) % comRxBuffSize
  contents : slice comRxBuffSize port.buffer port.readIdx
    (waiting.flatten.length + arriving.length) = waiting.flatten ++ arriving

/-- Between any two steps: the accepted frames are those handed over, in groups, and those that
wait; and if any wait they will be looked at. -/
structure Orderly (link : Link) (groups : List (List (List Byte)))
    (waiting : List (List Byte)) : Prop where
  holds : Holds link.port waiting link.arriving
  processed : link.processed = groups.map List.flatten
  frames : link.frames = groups.flatten ++ waiting
  sizes : ∀ request ∈ link.processed, 1 < request.length ∧ request.length ≤ pcMaxLen
  whole : waiting ≠ [] → pcMinLen ≤ waiting.flatten.length
  requested : waiting ≠ [] → Requested link
  consistent : link.agent.Consistent
  resting : running link.agent = false → link.phase = .called
  reading : ∀ rxStop, link.phase = .found rxStop → rxStop = false ∧ waiting ≠ []

/-- The link starts orderly. -/
theorem init_orderly (buffer : Mem) (array : Nat → AgentFunc Task Unit) :
    Orderly (Link.init buffer array) [] [] where
  holds := ⟨rfl, Nat.zero_lt_succ _, rfl, rfl, Nat.zero_lt_succ _, rfl, rfl⟩
  processed := rfl
  frames := rfl
  sizes := by simp [Link.init]
  whole := fun nonempty => absurd rfl nonempty
  requested := fun nonempty => absurd rfl nonempty
  consistent := init_consistent array
  resting := fun _ => rfl
  reading := fun rxStop found => by cases found

/-- `com_recv` as one step is its two steps. -/
theorem com_recv_steps (port : Port) (size : Nat) (nonempty : port.rxLen ≠ 0) :
    port.comRecv size =
      { (comRecvCopy port (decide (comRxBuffSize ≤ port.rxLen))).1 with
        delivered := port.delivered ++
          [(size, (comRecvCopy port (decide (comRxBuffSize ≤ port.rxLen))).2)] } := by
  unfold Port.comRecv comRecvCopy
  rw [if_neg nonempty]
  by_cases full : comRxBuffSize ≤ port.rxLen
  · simp [full]
  · simp [full]

/-- A byte is stored behind those that arrive. -/
theorem byte_holds {port : Port} {waiting : List (List Byte)} {arriving : List Byte}
    (holds : Holds port waiting arriving) (byte : Byte)
    (room : waiting.flatten.length + arriving.length + 1 < comRxBuffSize) :
    Holds (port.dmaStore [byte]) waiting (arriving ++ [byte]) := by
  have positive : 0 < comRxBuffSize := by decide
  have inside : port.dmaDone < comRxBuffSize := by
    rw [holds.done]
    exact Nat.mod_lt _ positive
  have pushed := slice_push port.buffer port.readIdx
    (waiting.flatten.length + arriving.length) [byte] positive (by
      rw [List.length_singleton]
      exact Nat.le_of_lt room)
  rw [dma_store_effect [byte] port holds.base inside]
  refine ⟨holds.base, holds.readIdx, holds.count, holds.rxLen, ?_, ?_, ?_⟩
  · rw [List.length_append, List.length_singleton]
    exact room
  · rw [holds.done, Nat.mod_add_mod, List.length_append, ← Nat.add_assoc, ← Nat.add_assoc,
      ← Nat.add_assoc]
  · rw [List.length_append, ← Nat.add_assoc, holds.done, ← List.append_assoc, ← holds.contents]
    exact pushed

/-- The unread bytes are counted. -/
theorem measured_unread {port : Port} {waiting : List (List Byte)} {arriving : List Byte}
    (holds : Holds port waiting arriving) :
    (measured port).rxLen = waiting.flatten.length + arriving.length ∧
      (measured port).count = waiting.flatten.length + arriving.length := by
  have counted := unread_count holds.readIdx holds.bounded
  rw [← holds.done] at counted
  exact ⟨counted, counted⟩

/-- What arrived waits with the others if the filter lets it pass. -/
theorem accepted_holds {port : Port} {waiting : List (List Byte)} {arriving : List Byte}
    (holds : Holds port waiting arriving) (pass : passes (measured port) = true) :
    Holds port.onIdle (waiting ++ [arriving]) [] := by
  obtain ⟨length, count⟩ := measured_unread holds
  obtain ⟨low, high⟩ := of_decide_eq_true pass
  have kept : port.onIdle = measured port := by
    change (measured port).comFilterRecv pcMinLen pcMaxLen = measured port
    unfold Port.comFilterRecv
    rw [if_neg (by omega)]
  have joined : (waiting ++ [arriving]).flatten = waiting.flatten ++ arriving := by
    rw [List.flatten_append, List.flatten_singleton]
  rw [kept]
  refine ⟨holds.base, holds.readIdx, ?_, ?_, ?_, ?_, ?_⟩
  · rw [count, joined, List.length_append]
  · rw [length, joined, List.length_append]
  · rw [joined, List.length_append, List.length_nil, Nat.add_zero]
    exact holds.bounded
  · rw [joined, List.length_append, List.length_nil, Nat.add_zero]
    exact holds.done
  · rw [joined, List.length_append, List.length_nil, Nat.add_zero, List.append_nil]
    exact holds.contents

/-- A byte alone is discarded. -/
theorem discarded_holds {port : Port} {arriving : List Byte} (holds : Holds port [] arriving)
    (short : arriving.length < pcMinLen) (ends : port.readIdx + arriving.length < comRxBuffSize) :
    Holds port.onIdle [] [] := by
  obtain ⟨length, count⟩ := measured_unread holds
  rw [List.flatten_nil, List.length_nil, Nat.zero_add] at length count
  have done := holds.done
  rw [List.flatten_nil, List.length_nil, Nat.zero_add, Nat.mod_eq_of_lt ends] at done
  have moved : toUint16 ((port.readIdx : Int) + arriving.length) =
      port.readIdx + arriving.length := by
    rw [← Nat.cast_add]
    refine to_uint16_of_lt ?_
    simp only [comRxBuffSize] at ends
    omega
  have nothing : toUint16 ((arriving.length : Int) - arriving.length) = 0 := by
    rw [Int.sub_self]
    rfl
  have filtered : port.onIdle = { measured port with
      count := toUint16 ((arriving.length : Int) - arriving.length)
      readIdx := toUint16 ((port.readIdx : Int) + arriving.length)
      rxLen := 0 } := by
    change (measured port).comFilterRecv pcMinLen pcMaxLen = _
    unfold Port.comFilterRecv
    rw [if_pos (by omega), length, count]
    rfl
  rw [filtered, moved, nothing]
  refine ⟨holds.base, ends, rfl, rfl, by decide, ?_, rfl⟩
  change port.dmaDone = (port.readIdx + arriving.length + 0) % comRxBuffSize
  rw [done, Nat.add_zero, Nat.mod_eq_of_lt ends]

/-- What waits is copied, and what arrives stays. -/
theorem copy_holds {port : Port} {waiting : List (List Byte)} {arriving : List Byte}
    (holds : Holds port waiting arriving) :
    (comRecvCopy port false).2 = waiting.flatten ∧
      Holds (comRecvCopy port false).1 [] arriving := by
  have effect := copy_loop_effect port.buffer port.count port.readIdx holds.readIdx
  have split := holds.contents
  rw [slice_add] at split
  obtain ⟨front, back⟩ := List.append_inj split (slice_length _ _ _ _)
  have nothing : toUint16 ((port.rxLen : Int) - port.count) = 0 := by
    rw [holds.rxLen, holds.count, Int.sub_self]
    rfl
  simp only [comRecvCopy, effect, Bool.false_eq_true, if_false]
  refine ⟨by rw [holds.count, front], holds.base, Nat.mod_lt _ (by decide), rfl, nothing, ?_, ?_,
    ?_⟩
  · rw [List.flatten_nil, List.length_nil, Nat.zero_add]
    exact Nat.lt_of_le_of_lt (Nat.le_add_left _ _) holds.bounded
  · rw [List.flatten_nil, List.length_nil, Nat.zero_add, index_shift, holds.count]
    exact holds.done
  · rw [List.flatten_nil, List.length_nil, Nat.zero_add, List.nil_append, holds.count]
    exact back

/-- A call of the agent leaves the queue alone and ends. -/
theorem call_ends (agent : Agent Task Unit) :
    agent.call.queue = agent.queue ∧ running agent.call = false := by
  unfold Agent.call
  cases task : agent.task with
  | waiting => exact ⟨rfl, by simp [running, task]⟩
  | taken => exact ⟨rfl, by simp [running, task]⟩
  | calling func => exact ⟨rfl, rfl⟩

/-- The agent goes on calling while it does not return. -/
theorem step_running {agent : Agent Task Unit} {event : AgentQueues.Event Task Unit}
    (started : running agent = true) (inside : event ≠ .call) :
    running (agent.step event) = true := by
  obtain ⟨func, task⟩ : ∃ func, agent.task = .calling func := by
    cases task : agent.task with
    | waiting => simp [running, task] at started
    | taken => simp [running, task] at started
    | calling func => exact ⟨func, rfl⟩
  cases event with
  | post func =>
    simp only [Agent.step, Agent.post]
    split
    · exact started
    · exact started
  | give position =>
    simp only [Agent.step, Agent.give]
    split
    · exact started
    · split
      · exact started
      · exact started
  | take =>
    simp only [Agent.step, Agent.take, task]
    exact started
  | dequeue =>
    simp only [Agent.step, Agent.dequeue, task]
    exact started
  | call => exact absurd rfl inside

/-- A post leaves what is in the queue. -/
theorem post_kept {agent : Agent Task Unit} (consistent : agent.Consistent)
    (func : AgentFunc Task Unit) (queued : request ∈ agent.queue.contents) :
    request ∈ (agent.post func).queue.contents := by
  unfold Agent.post
  split
  case isTrue full => exact queued
  case isFalse space =>
    have bounded := consistent.bounded
    change request ∈ (agent.queue.enqueue func).contents
    rw [enqueue_contents _ _ consistent.tail (by omega)]
    exact List.mem_append_left _ queued

/-- A request stays in the queue until it is called. -/
theorem step_queued {agent : Agent Task Unit} {event : AgentQueues.Event Task Unit}
    (consistent : agent.Consistent) (queued : request ∈ agent.queue.contents)
    (inside : event ≠ .call) :
    request ∈ (agent.step event).queue.contents ∨
      (running agent = false ∧ running (agent.step event) = true) := by
  cases event with
  | post func => exact Or.inl (post_kept consistent func queued)
  | give position =>
    left
    simp only [Agent.step, Agent.give]
    split
    · exact queued
    · split
      · exact queued
      · exact queued
  | take =>
    left
    simp only [Agent.step, Agent.take]
    split
    · split
      · exact queued
      · exact queued
    · exact queued
  | dequeue =>
    simp only [Agent.step, Agent.dequeue]
    cases task : agent.task with
    | waiting => exact Or.inl queued
    | calling func => exact Or.inl queued
    | taken =>
      by_cases nonempty : 0 < agent.queue.count
      · rw [contents_uncons agent.queue consistent.head nonempty] at queued
        simp only [if_pos nonempty]
        rcases List.mem_cons.mp queued with first | later
        · right
          exact ⟨by simp [running, task], by simp [running, ← first, request]⟩
        · exact Or.inl later
      · simp only [if_neg nonempty]
        exact Or.inl queued
  | call => exact absurd rfl inside

/-- A byte keeps the link orderly. -/
theorem byte_orderly {link : Link} {groups : List (List (List Byte))}
    {waiting : List (List Byte)} (orderly : Orderly link groups waiting) (byte : Byte)
    (fits : Fits link (.byte byte)) : Orderly (step link (.byte byte)) groups waiting := by
  have room : waiting.flatten.length + link.arriving.length + 1 < comRxBuffSize := by
    rw [← orderly.holds.rxLen]
    exact fits
  exact { orderly with
    holds := byte_holds orderly.holds byte room
    requested := orderly.requested }

/-- An idle line keeps the link orderly: the frame waits, and is asked for, or is discarded. -/
theorem idle_orderly {link : Link} {groups : List (List (List Byte))}
    {waiting : List (List Byte)} (orderly : Orderly link groups waiting)
    (fits : Fits link .idle) : ∃ others, Orderly (step link .idle) groups others := by
  obtain ⟨alone, room⟩ := fits
  have length := (measured_unread orderly.holds).1
  rw [← orderly.holds.rxLen] at length
  have bounded := orderly.holds.bounded
  rw [← orderly.holds.rxLen] at bounded
  simp only [step, Link.idle]
  by_cases pass : passes (measured link.port) = true
  · obtain ⟨low, -⟩ := of_decide_eq_true pass
    rw [length] at low
    have space := room low
    have posted : (link.agent.post request).queue.contents =
        link.agent.queue.contents ++ [request] := by
      unfold Agent.post
      rw [if_neg (Nat.ne_of_lt space)]
      exact enqueue_contents _ _ orderly.consistent.tail space
    have same : running (link.agent.post request) = running link.agent := by
      unfold Agent.post
      split
      · rfl
      · rfl
    rw [if_pos pass]
    refine ⟨waiting ++ [link.arriving], accepted_holds orderly.holds pass, orderly.processed, ?_,
      orderly.sizes, ?_, ?_, post_consistent orderly.consistent request, ?_, ?_⟩
    · simp only
      rw [orderly.frames, List.append_assoc]
    · intro _
      rw [List.flatten_append, List.flatten_singleton, List.length_append, ← orderly.holds.rxLen]
      exact low
    · intro _
      refine Or.inl ?_
      change request ∈ (link.agent.post request).queue.contents
      rw [posted]
      exact List.mem_append_right _ List.mem_cons_self
    · intro idle
      exact orderly.resting (same.symm.trans idle)
    · intro rxStop found
      exact ⟨(orderly.reading rxStop found).1, List.append_ne_nil_of_right_ne_nil _ (by simp)⟩
  · have short : link.port.rxLen + link.arriving.length < pcMinLen := by
      by_contra long
      refine pass (decide_eq_true ⟨?_, ?_⟩)
      · rw [length]
        exact Nat.le_of_not_lt long
      · rw [length]
        exact Nat.le_of_lt bounded
    have empty : waiting = [] := by
      by_contra nonempty
      have two := orderly.whole nonempty
      rw [← orderly.holds.rxLen] at two
      omega
    subst empty
    have holds := discarded_holds orderly.holds (by omega) (alone short)
    rw [if_neg pass]
    exact ⟨[], { orderly with holds := holds, requested := fun nonempty => absurd rfl nonempty }⟩

/-- A step of the agent keeps the link orderly. -/
theorem agent_orderly {link : Link} {groups : List (List (List Byte))}
    {waiting : List (List Byte)} (orderly : Orderly link groups waiting)
    (event : AgentQueues.Event Task Unit) :
    Orderly (step link (.agent event)) groups waiting := by
  by_cases returns : event = .call
  · subst returns
    simp only [step, Link.agentStep]
    split
    case isTrue busy => exact orderly
    case isFalse free =>
      obtain ⟨queue, ended⟩ := call_ends link.agent
      refine { orderly with
        requested := fun nonempty => ?_
        consistent := call_consistent orderly.consistent
        resting := fun _ => rfl
        reading := fun rxStop found => by cases found }
      rcases orderly.requested nonempty with queued | busy
      · left
        change request ∈ link.agent.call.queue.contents
        rw [queue]
        exact queued
      · exact absurd busy free
  · have taken : step link (.agent event) = { link with agent := link.agent.step event } := by
      cases event with
      | call => exact absurd rfl returns
      | _ => rfl
    rw [taken]
    refine { orderly with
      requested := fun nonempty => ?_
      consistent := step_consistent orderly.consistent event
      resting := fun idle => ?_ }
    · rcases orderly.requested nonempty with queued | ⟨started, inside⟩
      · rcases step_queued orderly.consistent queued returns with still | ⟨idle, called⟩
        · exact Or.inl still
        · refine Or.inr ⟨called, ?_⟩
          change link.phase ≠ .handled
          rw [orderly.resting idle]
          decide
      · exact Or.inr ⟨step_running started returns, inside⟩
    · refine orderly.resting ?_
      by_contra started
      have still := step_running (Bool.eq_true_of_not_eq_false started) returns
      rw [idle] at still
      cases still

/-- The test of `com_recv` keeps the link orderly. -/
theorem look_orderly {link : Link} {groups : List (List (List Byte))}
    {waiting : List (List Byte)} (orderly : Orderly link groups waiting) :
    Orderly (step link .look) groups waiting := by
  simp only [step, Link.look]
  split
  case isFalse elsewhere => exact orderly
  case isTrue here =>
    obtain ⟨started, -⟩ := here
    have below : link.port.rxLen < comRxBuffSize := by
      rw [orderly.holds.rxLen]
      exact Nat.lt_of_le_of_lt (Nat.le_add_right _ _) orderly.holds.bounded
    have unread : waiting ≠ [] → link.port.rxLen ≠ 0 := by
      intro nonempty
      have two := orderly.whole nonempty
      rw [← orderly.holds.rxLen] at two
      exact Nat.ne_of_gt (Nat.lt_of_lt_of_le (by decide) two)
    refine { orderly with requested := ?_, resting := ?_, reading := ?_ }
    · intro nonempty
      refine Or.inr ⟨started, ?_⟩
      simp only [if_neg (unread nonempty)]
      exact fun same => by cases same
    · intro idle
      rw [started] at idle
      cases idle
    · intro rxStop found
      simp only at found
      split at found
      case isTrue nothing => cases found
      case isFalse nonempty =>
        obtain rfl := Phase.found.inj found
        refine ⟨decide_eq_false (Nat.not_le_of_lt below), ?_⟩
        rintro rfl
        exact nonempty orderly.holds.rxLen

/-- The critical section of `com_recv` keeps the link orderly: what waits is handed over. -/
theorem copy_orderly {link : Link} {groups : List (List (List Byte))}
    {waiting : List (List Byte)} (orderly : Orderly link groups waiting) :
    ∃ more others, Orderly (step link .copy) more others := by
  simp only [step, Link.copy]
  split
  case h_2 => exact ⟨groups, waiting, orderly⟩
  case h_1 rxStop found =>
    obtain ⟨rfl, nonempty⟩ := orderly.reading rxStop found
    obtain ⟨copied, holds⟩ := copy_holds orderly.holds
    have two := orderly.whole nonempty
    have bounded := orderly.holds.bounded
    have accepted : ¬((comRecvCopy link.port false).2.length ≤ 1 ∨
        1056 < (comRecvCopy link.port false).2.length) := by
      rw [copied]
      simp only [pcMinLen, comRxBuffSize] at two bounded
      omega
    have started : running link.agent = true := by
      by_contra idle
      have called := orderly.resting (Bool.eq_false_of_not_eq_true idle)
      rw [found] at called
      cases called
    rw [if_neg accepted, copied]
    refine ⟨groups ++ [waiting], [], holds, ?_, ?_, ?_, fun nonempty => absurd rfl nonempty,
      fun nonempty => absurd rfl nonempty, orderly.consistent, ?_,
      fun rxStop found => by cases found⟩
    · rw [orderly.processed, List.map_append]
      rfl
    · simp only
      rw [orderly.frames, List.flatten_append, List.flatten_singleton, List.append_nil]
    · intro request member
      rcases List.mem_append.mp member with earlier | new
      · exact orderly.sizes request earlier
      · rw [List.mem_singleton.mp new]
        rw [copied] at accepted
        simp only [pcMaxLen]
        omega
    · intro idle
      rw [started] at idle
      cases idle

/-- Every step that fits keeps the link orderly. -/
theorem step_orderly {link : Link} {groups : List (List (List Byte))}
    {waiting : List (List Byte)} (orderly : Orderly link groups waiting) (event : Event)
    (fits : Fits link event) : ∃ more others, Orderly (step link event) more others := by
  cases event with
  | byte byte => exact ⟨groups, waiting, byte_orderly orderly byte fits⟩
  | idle => exact ⟨groups, idle_orderly orderly fits⟩
  | agent event => exact ⟨groups, waiting, agent_orderly orderly event⟩
  | look => exact ⟨groups, waiting, look_orderly orderly⟩
  | copy => exact copy_orderly orderly

/-- An agent that has nothing left to do will look at nothing. -/
theorem quiet_unrequested {link : Link} (consistent : link.agent.Consistent)
    (quiet : Quiet link.agent) : ¬Requested link := by
  obtain ⟨posting, sem, task⟩ := quiet
  have balance := consistent.balance
  rw [posting, sem, task] at balance
  have empty : link.agent.queue.contents = [] := by
    rw [AgentQueue.contents, balance]
    rfl
  rintro (queued | ⟨started, -⟩)
  · rw [empty] at queued
    cases queued
  · simp [running, task] at started

/-- Bytes, idle lines and the steps of the agent in any order. The accepted frames are those that
`proto_process` got, in their order, each once and whole, several together where they had waited
together, and those that wait; and nothing waits when the agent has nothing left to do. -/
theorem requests_processed_in_order (buffer : Mem) (array : Nat → AgentFunc Task Unit)
    (events : List Event) (met : Along step Fits (Link.init buffer array) events) :
    let link := run step (Link.init buffer array) events
    ∃ (groups : List (List (List Byte))) (waiting : List (List Byte)),
      link.processed = groups.map List.flatten ∧
      link.frames = groups.flatten ++ waiting ∧
      link.port.rxLen = waiting.flatten.length ∧
      (∀ request ∈ link.processed, 1 < request.length ∧ request.length ≤ pcMaxLen) ∧
      (Quiet link.agent → waiting = []) := by
  intro link
  have reached : ∃ groups waiting, Orderly link groups waiting := by
    have preserved : ∀ link event, (∃ groups waiting, Orderly link groups waiting) →
        Fits link event → ∃ groups waiting, Orderly (step link event) groups waiting := by
      rintro link event ⟨groups, waiting, orderly⟩ fits
      exact step_orderly orderly event fits
    exact along_invariant step preserved (Link.init buffer array)
      ⟨[], [], init_orderly buffer array⟩ events met
  obtain ⟨groups, waiting, orderly⟩ := reached
  refine ⟨groups, waiting, orderly.processed, orderly.frames, orderly.holds.rxLen, orderly.sizes,
    fun quiet => ?_⟩
  by_contra nonempty
  exact quiet_unrequested orderly.consistent quiet (orderly.requested nonempty)

/-- Two frames that come before the agent takes its first step. -/
def twoFrames : List Event :=
  [.byte 1, .byte 2, .idle, .byte 3, .byte 4, .idle, .agent (.give 0), .agent (.give 0),
    .agent .take, .agent .dequeue, .look, .byte 5, .copy, .agent .call, .agent .take,
    .agent .dequeue, .look, .agent .call]

/-- They are handed over together, and a third one arrives meanwhile. -/
theorem two_frames_processed :
    let link := run step (Link.init (fun _ => 0) fun _ => request) twoFrames
    link.processed = [[1, 2, 3, 4]] ∧ link.frames = [[1, 2], [3, 4]] ∧ link.arriving = [5] ∧
      ∃ groups : List (List (List Byte)),
        link.processed = groups.map List.flatten ∧ link.frames = groups.flatten := by
  intro link
  have met : Along step Fits (Link.init (fun _ => 0) fun _ => request) twoFrames := by
    simp only [twoFrames, Along, Fits]
    decide +kernel
  have quiet : Quiet link.agent := ⟨rfl, rfl, rfl⟩
  obtain ⟨groups, waiting, processed, frames, -, -, read⟩ :=
    requests_processed_in_order (fun _ => 0) (fun _ => request) twoFrames met
  rw [read quiet, List.append_nil] at frames
  exact ⟨rfl, rfl, rfl, groups, processed, frames⟩

end Pyrometer.RequestPath
