import Pyrometer.SerialTransmit

/-!
# How replies leave the device

`proto_process` hands a reply for the serial port to `comm_send_chunk`, which passes
it on in pieces of 1056 bytes. `pc_send` ignores how many bytes `com_send` took, so
what does not fit the transmit ring of 768 bytes is lost. `proto_process` runs in a
critical section: no interrupt frees space between the passes of `com_send`.

A reply for a TCP client stands in `server_tx_buffer`, one buffer for all clients and
all replies. `tcp_server_send_low` gives it to `tcp_write` without the copy flag, so
lwIP keeps a reference and reads the buffer whenever it transmits the segment, the
first time in `tcp_output` if the window allows, later for a retransmission.
`proto_process` then clears the first four bytes of the buffer, the size of the pointer
it has, and the next reply is written over the rest.

A segment is one reply: the longest one is shorter than the segment size of the
network. Which transmission of it reaches the client is up to the network; the client
keeps the first one. A request without a reply may leave anything in the buffer.
-/

namespace Pyrometer.ReplyDelivery

open ByteMemory RingBuffers Runs SerialTransmit

/-- The longest piece that `comm_send_chunk` hands on, and the size of the buffers. -/
abbrev chunkSize : Nat := 1056

/-- `com_send` where no interrupt comes between its passes. Each pass but the last
copies a byte at least. -/
def comSend (port : Port) (data : List Byte) : Port :=
  Port.pass^[data.length + 1] (SerialTransmit.step port (.comSend data))

/-- `comm_send_chunk` for the serial port, with `pc_send`. -/
def commSendChunk (port : Port) (data : List Byte) : Port :=
  if data = [] then port
  else commSendChunk (comSend port (data.take chunkSize)) (data.drop chunkSize)
termination_by data.length
decreasing_by
  have nonzero : 0 < data.length := List.length_pos_iff.mpr ‹_›
  have positive : 0 < chunkSize := by decide
  rw [List.length_drop]
  omega

/-- A reply that was given to `tcp_write`, and what the client received of it. -/
structure Segment where
  reply : List Byte
  received : Option (List Byte)
  deriving DecidableEq

/-- `server_tx_buffer`, whether it holds the reply of the last segment, and the segments
in the order of their replies. -/
structure TcpSender where
  txBuffer : Mem
  untouched : Bool
  segments : List Segment

/-- The client receives a transmission of a segment that is made now. It keeps an
earlier one. -/
def TcpSender.transmit (sender : TcpSender) (index : Nat) : TcpSender :=
  match sender.segments[index]? with
  | none => sender
  | some segment =>
      match segment.received with
      | some _ => sender
      | none => { sender with segments := sender.segments.set index { segment with
          received := some (toList sender.txBuffer 0 segment.reply.length) } }

/-- The two ways out of the device. -/
structure Device where
  serial : Port
  tcp : TcpSender

/-- The device before its first reply. -/
def Device.init (txFifo txBuffer : Mem) : Device := ⟨Port.init txFifo, ⟨txBuffer, false, []⟩⟩

/-- One step: a reply on the serial port, the DMA of that port and its interrupt; a reply
to a TCP client up to `tcp_write`, which may refuse it, a transmission, the clearing of
the buffer behind the reply, and a request without a reply. -/
inductive Event where
  | serialReply (reply : List Byte)
  | shift
  | onDmaTx
  | tcpReply (reply : List Byte) (written : Bool)
  | transmit (index : Nat)
  | clear
  | silent (left : Mem)

/-- One step. -/
def step (device : Device) : Event → Device
  | .serialReply reply => { device with serial := commSendChunk device.serial reply }
  | .shift => { device with serial := device.serial.shift }
  | .onDmaTx => { device with serial := device.serial.onDmaTx }
  | .tcpReply reply written => { device with tcp := {
      txBuffer := overlay device.tcp.txBuffer (ofList reply) 0 reply.length
      untouched := written
      segments := device.tcp.segments ++ if written then [⟨reply, none⟩] else [] } }
  | .transmit index => { device with tcp := device.tcp.transmit index }
  | .clear => { device with tcp := { device.tcp with
      txBuffer := overlay device.tcp.txBuffer (fun _ => 0) 0 4
      untouched := false } }
  | .silent left => { device with tcp := { device.tcp with
      txBuffer := left
      untouched := false } }

/-- The replies handed over on the serial port, one after the other. -/
def handedOver (events : List Event) : List Byte :=
  events.flatMap fun
    | .serialReply reply => reply
    | _ => []

/-- A serial reply has at most the size of the transmit buffer. -/
def Admissible : Event → Prop
  | .serialReply reply => reply.length ≤ chunkSize
  | _ => True

/-- The serial reply fits the free part of the ring, and a client that still lacks a
segment gets it from the transmission that follows its reply at once. -/
def Undisturbed (device : Device) : Event → Prop
  | .serialReply reply => reply.length ≤ comTxBuffSize - device.serial.txFifo.count
  | .transmit index => ∀ segment, device.tcp.segments[index]? = some segment →
      segment.received = none →
      device.tcp.untouched ∧ index + 1 = device.tcp.segments.length
  | _ => True

/-- The clients received their replies as they were. -/
def TcpSender.Unchanged (sender : TcpSender) : Prop :=
  ∀ segment ∈ sender.segments, ∀ bytes, segment.received = some bytes → bytes = segment.reply

/-- A pass without a call does nothing. -/
theorem pass_idle {port : Port} (idle : port.call = none) : port.pass = port := by
  simp [Port.pass, idle]

/-- Further passes without a call do nothing. -/
theorem passes_idle (count : Nat) {port : Port} (idle : port.call = none) :
    Port.pass^[count] port = port :=
  Function.iterate_fixed (pass_idle idle) count

/-- The copying loop keeps the count. -/
theorem copy_loop_count (data : List Byte) (fifo : TxFifo) :
    (copyLoop fifo data).count = fifo.count := by
  induction data generalizing fifo with
  | nil => rfl
  | cons byte rest inductionHypothesis => exact inductionHypothesis _

/-- A call that has nothing left to copy, or no space, returns. -/
theorem pass_returns (port : Port) (call : Call) (current : port.call = some call)
    (finished : call.rest = [] ∨ comTxBuffSize - port.txFifo.count = 0) :
    port.pass = { port with call := none, returned := port.returned ++ [call] } := by
  simp only [Port.pass, current, if_pos finished]

/-- A pass with bytes to copy and space for them copies what fits. -/
theorem pass_copies (port : Port) (call : Call) (current : port.call = some call)
    (unfinished : ¬(call.rest = [] ∨ comTxBuffSize - port.txFifo.count = 0)) :
    port.pass = port.copy call (call.rest.take (comTxBuffSize - port.txFifo.count)) := by
  simp only [Port.pass, current, if_neg unfinished]
  rw [Nat.min_comm, ← List.take_eq_take_min]

/-- Without interrupts a call copies what fits, and returns. -/
theorem com_send_effect {port : Port} (idle : port.call = none) (data : List Byte)
    (bounded : port.txFifo.count ≤ comTxBuffSize) :
    (comSend port data).accepted =
        port.accepted ++ data.take (comTxBuffSize - port.txFifo.count) ∧
      (comSend port data).call = none ∧
      (comSend port data).txFifo.count ≤ comTxBuffSize := by
  have begun : SerialTransmit.step port (.comSend data) =
      { port with call := some ⟨data, 0⟩ } := by simp [SerialTransmit.step, idle]
  unfold comSend
  rw [begun, Function.iterate_succ_apply]
  by_cases finished : data = [] ∨ comTxBuffSize - port.txFifo.count = 0
  · have returned := pass_returns { port with call := some ⟨data, 0⟩ } ⟨data, 0⟩ rfl finished
    rw [returned, passes_idle data.length rfl]
    refine ⟨?_, rfl, bounded⟩
    rcases finished with empty | full
    · simp [empty]
    · simp [full]
  · have copied := pass_copies { port with call := some ⟨data, 0⟩ } ⟨data, 0⟩ rfl finished
    have length : (data.take (comTxBuffSize - port.txFifo.count)).length =
        min (comTxBuffSize - port.txFifo.count) data.length := List.length_take
    rw [copied]
    simp only [Call.rest, List.drop_zero]
    generalize data.take (comTxBuffSize - port.txFifo.count) = sent at length ⊢
    have count : (Port.copy { port with call := some ⟨data, 0⟩ } ⟨data, 0⟩ sent).txFifo.count =
        port.txFifo.count + sent.length := by
      simp only [Port.copy, copy_loop_count]
    have ends : data.drop (0 + sent.length) = [] ∨ comTxBuffSize -
        (Port.copy { port with call := some ⟨data, 0⟩ } ⟨data, 0⟩ sent).txFifo.count = 0 := by
      rw [count, Nat.zero_add, List.drop_eq_nil_iff]
      omega
    have returned := pass_returns (Port.copy { port with call := some ⟨data, 0⟩ } ⟨data, 0⟩ sent)
      ⟨data, 0 + sent.length⟩ rfl ends
    obtain ⟨more, several⟩ : ∃ more, data.length = more + 1 := by
      have nonempty : data ≠ [] := fun empty => finished (Or.inl empty)
      exact Nat.exists_eq_add_one.mpr (List.length_pos_iff.mpr nonempty)
    rw [several, Function.iterate_succ_apply, returned, passes_idle more rfl]
    exact ⟨rfl, rfl, Nat.le_trans (Nat.le_of_eq count) (by omega)⟩

/-- No call is in progress and the ring is within its bounds. -/
def Ready (port : Port) : Prop := port.call = none ∧ port.txFifo.count ≤ comTxBuffSize

/-- A reply no longer than the transmit buffer is handed on in one piece. -/
theorem comm_send_chunk_once (port : Port) (reply : List Byte) (nonempty : reply ≠ [])
    (short : reply.length ≤ chunkSize) : commSendChunk port reply = comSend port reply := by
  rw [commSendChunk, if_neg nonempty, List.take_of_length_le short, List.drop_of_length_le short,
    commSendChunk, if_pos rfl]

/-- A reply that fits the ring goes into it whole. -/
theorem comm_send_chunk_whole {port : Port} (ready : Ready port) (reply : List Byte)
    (short : reply.length ≤ chunkSize) (fits : reply.length ≤ comTxBuffSize - port.txFifo.count) :
    (commSendChunk port reply).accepted = port.accepted ++ reply ∧
      Ready (commSendChunk port reply) := by
  by_cases empty : reply = []
  · rw [commSendChunk]
    simp [empty, ready]
  · obtain ⟨accepted, idle, bounded⟩ := com_send_effect ready.1 reply ready.2
    rw [comm_send_chunk_once port reply empty short]
    rw [List.take_of_length_le fits] at accepted
    exact ⟨accepted, idle, bounded⟩

/-- A byte on the wire leaves the ring as it is. -/
theorem shift_ready {port : Port} (ready : Ready port) :
    port.shift.accepted = port.accepted ∧ Ready port.shift := by
  unfold Port.shift
  split
  · exact ⟨rfl, ready⟩
  · split
    · exact ⟨rfl, ready⟩
    · exact ⟨rfl, ready⟩

/-- The interrupt takes bytes off the count. -/
theorem on_dma_tx_ready {port : Port} (ready : Ready port) :
    port.onDmaTx.accepted = port.accepted ∧ Ready port.onDmaTx := by
  unfold Port.onDmaTx
  split
  · exact ⟨rfl, ready⟩
  · exact ⟨rfl, ready.1, Nat.le_trans (Nat.sub_le _ _) ready.2⟩

/-- What one step adds to the accepted bytes is the reply it hands over. -/
theorem step_accepted {device : Device} (ready : Ready device.serial) (event : Event)
    (admissible : Admissible event) (calm : Undisturbed device event) :
    (step device event).serial.accepted = device.serial.accepted ++ handedOver [event] ∧
      Ready (step device event).serial := by
  cases event with
  | serialReply reply =>
    simpa [step, handedOver] using comm_send_chunk_whole ready reply admissible calm
  | shift => simpa [step, handedOver] using shift_ready ready
  | onDmaTx => simpa [step, handedOver] using on_dma_tx_ready ready
  | tcpReply reply written => simpa [step, handedOver] using ready
  | transmit index => simpa [step, handedOver] using ready
  | clear => simpa [step, handedOver] using ready
  | silent left => simpa [step, handedOver] using ready

/-- What a run adds to the accepted bytes is what it hands over. -/
theorem run_accepted (events : List Event) (device : Device) (ready : Ready device.serial)
    (admissible : ∀ event ∈ events, Admissible event)
    (calm : Along step Undisturbed device events) :
    (run step device events).serial.accepted = device.serial.accepted ++ handedOver events := by
  induction events generalizing device with
  | nil => simp [run, handedOver]
  | cons event rest inductionHypothesis =>
    obtain ⟨grown, still⟩ := step_accepted ready event (admissible event (by simp)) calm.1
    have later := inductionHypothesis (step device event) still
      (fun other member => admissible other (by simp [member])) calm.2
    have split : handedOver (event :: rest) = handedOver [event] ++ handedOver rest := by
      simp [handedOver]
    rw [split, ← List.append_assoc, ← grown]
    exact later

/-- The buffer still holds the reply of the last segment. -/
def TcpSender.Current (sender : TcpSender) : Prop :=
  sender.untouched = true → ∀ segment, sender.segments.getLast? = some segment →
    toList sender.txBuffer 0 segment.reply.length = segment.reply

/-- A transmission made at once carries the reply. -/
theorem transmit_unchanged {sender : TcpSender} (unchanged : sender.Unchanged)
    (current : sender.Current) (index : Nat)
    (calm : ∀ segment, sender.segments[index]? = some segment → segment.received = none →
      sender.untouched ∧ index + 1 = sender.segments.length) :
    (sender.transmit index).Unchanged ∧ (sender.transmit index).Current := by
  unfold TcpSender.transmit
  cases found : sender.segments[index]? with
  | none => exact ⟨unchanged, current⟩
  | some segment =>
    cases already : segment.received with
    | some bytes => simpa only [already] using And.intro unchanged current
    | none =>
      simp only [already]
      obtain ⟨fresh, last⟩ := calm segment found already
      have final : sender.segments.getLast? = some segment := by
        rw [List.getLast?_eq_getElem?, ← last]
        exact found
      have carried := current fresh segment final
      refine ⟨?_, ?_⟩
      · intro other member bytes received
        rcases List.mem_or_eq_of_mem_set member with old | rfl
        · exact unchanged other old bytes received
        · exact (Option.some.inj received).symm.trans carried
      · intro _ other lastOther
        have same : other = { segment with
            received := some (toList sender.txBuffer 0 segment.reply.length) } := by
          rw [List.getLast?_eq_getElem?, List.length_set, ← last,
            Nat.add_sub_cancel, List.getElem?_set_self (by omega)] at lastOther
          exact (Option.some.inj lastOther).symm
        rw [same]
        exact carried

/-- A reply that was just written stands in the buffer. -/
theorem tcp_reply_current (sender : TcpSender) (reply : List Byte) (written : Bool) :
    TcpSender.Current {
      txBuffer := overlay sender.txBuffer (ofList reply) 0 reply.length
      untouched := written
      segments := sender.segments ++ if written then [⟨reply, none⟩] else [] } := by
  intro fresh segment last
  have queued : written = true := fresh
  simp only [queued, if_true, List.getLast?_append, List.getLast?_singleton,
    Option.some_or] at last
  obtain rfl := Option.some.inj last
  exact to_list_overlay sender.txBuffer reply 0

/-- Every undisturbed step keeps what the clients received. -/
theorem step_unchanged {device : Device} (unchanged : device.tcp.Unchanged)
    (current : device.tcp.Current) (event : Event) (calm : Undisturbed device event) :
    (step device event).tcp.Unchanged ∧ (step device event).tcp.Current := by
  cases event with
  | serialReply reply => exact ⟨unchanged, current⟩
  | shift => exact ⟨unchanged, current⟩
  | onDmaTx => exact ⟨unchanged, current⟩
  | transmit index => exact transmit_unchanged unchanged current index calm
  | clear => exact ⟨unchanged, fun fresh => by simp [step] at fresh⟩
  | silent left => exact ⟨unchanged, fun fresh => by simp [step] at fresh⟩
  | tcpReply reply written =>
    refine ⟨?_, tcp_reply_current device.tcp reply written⟩
    intro segment member bytes received
    rcases List.mem_append.mp member with old | new
    · exact unchanged segment old bytes received
    · cases written with
      | false => simp at new
      | true =>
        rw [List.mem_singleton.mp new] at received
        simp at received

/-- In every run in which serial replies fit the free part of the ring and clients get
their segments from the transmission that follows the reply, the replies on the serial
port are accepted whole and in order, and the clients receive theirs unchanged. -/
theorem replies_delivered_whole (txFifo txBuffer : Mem) (events : List Event)
    (admissible : ∀ event ∈ events, Admissible event)
    (calm : Along step Undisturbed (Device.init txFifo txBuffer) events) :
    let device := run step (Device.init txFifo txBuffer) events
    device.serial.accepted = handedOver events ∧ device.tcp.Unchanged := by
  intro device
  have ready : Ready (Device.init txFifo txBuffer).serial := ⟨rfl, Nat.zero_le _⟩
  have preserved : ∀ (device : Device) (event : Event),
      device.tcp.Unchanged ∧ device.tcp.Current → Undisturbed device event →
      (step device event).tcp.Unchanged ∧ (step device event).tcp.Current :=
    fun device event kept calm => step_unchanged kept.1 kept.2 event calm
  have initial : (Device.init txFifo txBuffer).tcp.Unchanged ∧
      (Device.init txFifo txBuffer).tcp.Current := by
    constructor
    · intro segment member
      simp [Device.init] at member
    · intro fresh
      simp [Device.init] at fresh
  have kept := along_invariant step preserved (Device.init txFifo txBuffer) initial events calm
  exact ⟨run_accepted events (Device.init txFifo txBuffer) ready admissible calm, kept.1⟩

/-- A reply on each way, the one to the client transmitted at once. -/
theorem two_replies_delivered :
    let events : List Event := [.serialReply [35, 49], .shift, .tcpReply [33, 34, 35, 36, 37] true,
      .transmit 0, .clear]
    let device := run step (Device.init (fun _ => 0) fun _ => 0) events
    device.tcp.segments = [⟨[33, 34, 35, 36, 37], some [33, 34, 35, 36, 37]⟩] ∧
      device.serial.accepted = handedOver events ∧ device.tcp.Unchanged := by
  intro events device
  refine ⟨by decide, replies_delivered_whole (fun _ => 0) (fun _ => 0) events ?_ ?_⟩
  · intro event member
    simp only [events, List.mem_cons, List.not_mem_nil, or_false] at member
    rcases member with rfl | rfl | rfl | rfl | rfl
    · exact show ([35, 49] : List Byte).length ≤ chunkSize by decide
    all_goals exact trivial
  · exact ⟨show ([35, 49] : List Byte).length ≤ comTxBuffSize - 0 by decide, trivial, trivial,
      fun _ _ _ => ⟨rfl, rfl⟩, trivial, trivial⟩

/-- A reply of 800 bytes is cut to 768, and a segment that is transmitted after the
buffer was cleared carries four zeros. -/
theorem replies_cut_and_cleared :
    (¬∀ (txFifo txBuffer : Mem) (events : List Event), (∀ event ∈ events, Admissible event) →
      (run step (Device.init txFifo txBuffer) events).serial.accepted = handedOver events) ∧
    ¬∀ (txFifo txBuffer : Mem) (events : List Event), (∀ event ∈ events, Admissible event) →
      (run step (Device.init txFifo txBuffer) events).tcp.Unchanged := by
  constructor
  · intro always
    have short : (List.replicate 800 (1 : Byte)).length ≤ chunkSize := by
      rw [List.length_replicate]
      decide
    have whole := always (fun _ => 0) (fun _ => 0) [.serialReply (List.replicate 800 1)]
      (fun event member => List.mem_singleton.mp member ▸ short)
    have once := comm_send_chunk_once (Port.init fun _ => 0) (List.replicate 800 1)
      (by decide) short
    have effect := (com_send_effect (show (Port.init fun _ => 0).call = none from rfl)
      (List.replicate 800 1) (Nat.zero_le _)).1
    rw [← once] at effect
    have lengths := congrArg List.length (effect.symm.trans whole)
    simp only [handedOver, List.flatMap_cons, List.flatMap_nil, List.append_nil, List.length_append,
      List.length_take, List.length_replicate] at lengths
    exact absurd lengths (by decide)
  · intro always
    have unchanged := always (fun _ => 0) (fun _ => 0)
      [.tcpReply [33, 34, 35, 36, 37] true, .clear, .transmit 0] (by
        intro event member
        fin_cases member <;> exact trivial)
    have bytes := unchanged ⟨[33, 34, 35, 36, 37], some [0, 0, 0, 0, 37]⟩ (by decide)
      [0, 0, 0, 0, 37] rfl
    exact absurd bytes (by decide)

end Pyrometer.ReplyDelivery
