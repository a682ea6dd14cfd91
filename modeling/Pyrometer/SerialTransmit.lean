import Pyrometer.ByteMemory
import Pyrometer.RingBuffers
import Pyrometer.Runs

/-!
# The transmit ring of `serial.c`

`com_send` copies what fits into a ring of 768 bytes and starts a DMA transfer of
the bytes that lie before the end of the ring; while bytes are left it does so
again. The interrupt at the end of a transfer, `on_dma_tx`, moves the read index
past the bytes sent and starts the next transfer. `com_send` first sets the read
index to the write index, as if nothing were waiting to be sent.

The DMA engine puts one byte after another on the wire, from the memory as it is
then. Interrupts come at the end of a transfer or after an error in it, at any
time between two passes of the loop of `com_send`; calls of `com_send` do not
overlap. A pass that finds the ring empty cannot be interrupted before it has
started its transfer, and one that finds it full only returns, so passes are one
step here. The direction pins of the half-duplex mode are left out.
-/

namespace Pyrometer.SerialTransmit

open ByteMemory RingBuffers Runs

/-- `COM2_TX_BUFF_SIZE`. -/
abbrev comTxBuffSize : Nat := 768

/-- `circ_buffer_t` of the transmit ring. -/
structure TxFifo where
  buffer : Mem
  writeIdx : Nat
  readIdx : Nat
  count : Nat

/-- A started DMA transfer: its first cell, `total_cnt`, and the transfer counter. -/
structure Transfer where
  start : Nat
  totalCnt : Nat
  left : Nat

/-- The bytes a transfer has put on the wire. -/
def Transfer.moved (transfer : Transfer) : Nat := transfer.totalCnt - transfer.left

/-- A call of `com_send` in progress. -/
structure Call where
  data : List Byte
  totalSent : Nat

/-- The bytes a call has not yet copied. -/
def Call.rest (call : Call) : List Byte := call.data.drop call.totalSent

/-- The port: its ring, the running transfer if its interrupt is enabled, the call in
progress, and what happened: the bytes on the wire, the bytes copied into the ring,
and the calls that returned, with the number of bytes they reported. -/
structure Port where
  txFifo : TxFifo
  txDma : Option Transfer
  call : Option Call
  wire : List Byte
  accepted : List Byte
  returned : List Call

/-- The port after `com_init`. -/
def Port.init (buffer : Mem) : Port := ⟨⟨buffer, 0, 0, 0⟩, none, none, [], [], []⟩

/-- The loop that copies bytes into the ring. -/
def copyLoop (fifo : TxFifo) : List Byte → TxFifo
  | [] => fifo
  | byte :: rest => copyLoop { fifo with
      buffer := Function.update fifo.buffer fifo.writeIdx byte
      writeIdx := (fifo.writeIdx + 1) % comTxBuffSize } rest

/-- `gd32_dma_start` on the bytes from the read index on that lie before the end of
the ring. -/
def dmaStart (fifo : TxFifo) : Transfer :=
  let size := min (comTxBuffSize - fifo.readIdx) fifo.count
  ⟨fifo.readIdx, size, size⟩

/-- What a pass of the loop of `com_send` does with the bytes there is space for. -/
def Port.copy (port : Port) (call : Call) (sent : List Byte) : Port :=
  let copied := copyLoop { port.txFifo with readIdx := port.txFifo.writeIdx } sent
  let fifo := { copied with count := copied.count + sent.length }
  { port with
    txFifo := fifo
    txDma := some (dmaStart fifo)
    call := some { call with totalSent := call.totalSent + sent.length }
    accepted := port.accepted ++ sent }

/-- One pass of the loop of `com_send`, or its return. -/
def Port.pass (port : Port) : Port :=
  match port.call with
  | none => port
  | some call =>
      let availableSpace := comTxBuffSize - port.txFifo.count
      if call.rest = [] ∨ availableSpace = 0 then
        { port with call := none, returned := port.returned ++ [call] }
      else
        let sendLen := min call.rest.length availableSpace
        port.copy call (call.rest.take sendLen)

/-- The DMA engine puts the next byte of its range on the wire. -/
def Port.shift (port : Port) : Port :=
  match port.txDma with
  | none => port
  | some transfer =>
      if transfer.left = 0 then port
      else { port with
        txDma := some { transfer with left := transfer.left - 1 }
        wire := port.wire ++ [port.txFifo.buffer (transfer.start + transfer.moved)] }

/-- `on_dma_tx`. -/
def Port.onDmaTx (port : Port) : Port :=
  match port.txDma with
  | none => port
  | some transfer =>
      let sentLen := transfer.moved
      let fifo := { port.txFifo with
        readIdx := (port.txFifo.readIdx + sentLen) % comTxBuffSize
        count := port.txFifo.count - sentLen }
      { port with
        txFifo := fifo
        txDma := if fifo.count = 0 then none else some (dmaStart fifo) }

/-- A step of the task, of the DMA engine, or an interrupt. -/
inductive Event where
  | comSend (data : List Byte)
  | pass
  | shift
  | onDmaTx

/-- One step. A call does not begin before the last one has returned. -/
def step (port : Port) : Event → Port
  | .comSend data =>
      match port.call with
      | none => { port with call := some ⟨data, 0⟩ }
      | some _ => port
  | .pass => port.pass
  | .shift => port.shift
  | .onDmaTx => port.onDmaTx

/-- The bytes that the returned calls reported as accepted, and those the call in
progress has copied. -/
def Port.reported (port : Port) : List Byte :=
  (port.returned ++ port.call.toList).flatMap fun call => call.data.take call.totalSent

/-- The bytes of the running transfer that are on the wire. -/
def Port.moved (port : Port) : Nat := (port.txDma.map Transfer.moved).getD 0

/-- No pass that copies bytes finds the ring partly filled. -/
def Undisturbed (port : Port) : Event → Prop
  | .pass => ∀ call, port.call = some call → call.rest ≠ [] →
      port.txFifo.count = 0 ∨ port.txFifo.count = comTxBuffSize
  | _ => True

/-- What holds between any two steps of such a run. -/
structure Port.Orderly (port : Port) : Prop where
  readIdx : port.txFifo.readIdx < comTxBuffSize
  writeIdx : port.txFifo.writeIdx = (port.txFifo.readIdx + port.txFifo.count) % comTxBuffSize
  bounded : port.txFifo.count ≤ comTxBuffSize
  idle : port.txDma = none → port.txFifo.count = 0
  running : ∀ transfer, port.txDma = some transfer →
    transfer.start = port.txFifo.readIdx ∧ transfer.left ≤ transfer.totalCnt ∧
      transfer.totalCnt ≤ port.txFifo.count ∧
      transfer.start + transfer.totalCnt ≤ comTxBuffSize ∧ 0 < port.txFifo.count
  order : port.accepted = port.wire ++
    slice comTxBuffSize port.txFifo.buffer ((port.txFifo.readIdx + port.moved) % comTxBuffSize)
      (port.txFifo.count - port.moved)
  reports : port.accepted = port.reported

/-- The copying loop fills the ring behind the write index. -/
theorem copy_loop_effect (data : List Byte) (fifo : TxFifo)
    (inside : fifo.writeIdx < comTxBuffSize) :
    copyLoop fifo data = { fifo with
      buffer := fill comTxBuffSize fifo.buffer fifo.writeIdx data
      writeIdx := (fifo.writeIdx + data.length) % comTxBuffSize } := by
  induction data generalizing fifo with
  | nil => simp [copyLoop, fill, Nat.mod_eq_of_lt inside]
  | cons byte rest inductionHypothesis =>
    rw [copyLoop, inductionHypothesis _ (Nat.mod_lt _ (by decide))]
    simp only [fill, List.length_cons, Nat.mod_add_mod]
    congr 2
    omega

/-- The port starts orderly. -/
theorem init_orderly (buffer : Mem) : (Port.init buffer).Orderly where
  readIdx := by simp [Port.init]
  writeIdx := rfl
  bounded := Nat.zero_le _
  idle := fun _ => rfl
  running := fun transfer started => by simp [Port.init] at started
  order := rfl
  reports := rfl

/-- A call that returns reports what it copied. -/
theorem return_reported (port : Port) (call : Call) (current : port.call = some call) :
    { port with call := none, returned := port.returned ++ [call] : Port }.reported =
      port.reported := by
  simp [Port.reported, current]

/-- A call that has copied some more bytes reports them too. -/
theorem copy_reported (port : Port) (call : Call) (current : port.call = some call)
    (sent : List Byte) (next : sent <+: call.rest) :
    (port.copy call sent).reported = port.reported ++ sent := by
  have taken : sent = call.rest.take sent.length := List.prefix_iff_eq_take.mp next
  have grown : call.data.take (call.totalSent + sent.length) =
      call.data.take call.totalSent ++ sent := by
    rw [List.take_add]
    exact congrArg _ taken.symm
  simp [Port.reported, Port.copy, current, grown]

/-- A transfer that was just started fits the ring and covers none of the empty cells. -/
theorem dma_start_fits (fifo : TxFifo) (readIdx : fifo.readIdx < comTxBuffSize)
    (positive : 0 < fifo.count) :
    (dmaStart fifo).start = fifo.readIdx ∧ (dmaStart fifo).left ≤ (dmaStart fifo).totalCnt ∧
      (dmaStart fifo).totalCnt ≤ fifo.count ∧
      (dmaStart fifo).start + (dmaStart fifo).totalCnt ≤ comTxBuffSize ∧ 0 < fifo.count := by
  refine ⟨rfl, Nat.le_refl _, Nat.min_le_right _ _, ?_, positive⟩
  have bound := Nat.min_le_left (comTxBuffSize - fifo.readIdx) fifo.count
  simp only [dmaStart]
  omega

/-- A transfer that was just started has moved nothing. -/
theorem dma_start_moved (fifo : TxFifo) : (dmaStart fifo).moved = 0 := by
  simp [dmaStart, Transfer.moved]

/-- While a ring is empty no transfer runs. -/
theorem empty_stopped {port : Port} (orderly : port.Orderly) (empty : port.txFifo.count = 0) :
    port.moved = 0 := by
  cases started : port.txDma with
  | none => simp [Port.moved, started]
  | some transfer =>
    obtain ⟨-, -, -, -, busy⟩ := orderly.running transfer started
    omega

/-- Copying into an empty ring keeps the port orderly. -/
theorem copy_orderly {port : Port} (orderly : port.Orderly) (empty : port.txFifo.count = 0)
    (call : Call) (current : port.call = some call) (sent : List Byte) (nonempty : sent ≠ [])
    (fits : sent.length ≤ comTxBuffSize) (next : sent <+: call.rest) :
    (port.copy call sent).Orderly := by
  have inside : port.txFifo.writeIdx < comTxBuffSize := by
    rw [orderly.writeIdx]
    exact Nat.mod_lt _ (by decide)
  have delivered : port.accepted = port.wire := by
    rw [orderly.order, empty_stopped orderly empty, empty]
    simp
  have positive : 0 < sent.length := List.length_pos_iff.mpr nonempty
  have effect := copy_loop_effect sent { port.txFifo with readIdx := port.txFifo.writeIdx } inside
  have reports : (port.copy call sent).accepted = (port.copy call sent).reported := by
    rw [copy_reported port call current sent next, ← orderly.reports]
    rfl
  simp only [Port.copy, effect] at reports ⊢
  simp only [empty, Nat.zero_add] at reports ⊢
  refine ⟨inside, rfl, fits, by simp, ?_, ?_, reports⟩
  · intro transfer started
    obtain rfl := Option.some.inj started
    exact dma_start_fits _ inside positive
  · simp only [Port.moved, Option.map_some, Option.getD_some, dma_start_moved, Nat.add_zero,
      Nat.sub_zero, Nat.mod_eq_of_lt inside, slice_fill sent _ _ inside fits, delivered]

/-- A pass that finds the ring empty, or full, keeps the port orderly. -/
theorem pass_orderly {port : Port} (orderly : port.Orderly) (calm : Undisturbed port .pass) :
    port.pass.Orderly := by
  unfold Port.pass
  cases current : port.call with
  | none => exact orderly
  | some call =>
    simp only
    split
    case isTrue done =>
      exact { orderly with
        reports := orderly.reports.trans (return_reported port call current).symm }
    case isFalse more =>
      obtain ⟨unread, space⟩ := not_or.mp more
      have empty : port.txFifo.count = 0 := by
        rcases calm call current unread with empty | full
        · exact empty
        · omega
      have nonempty : 0 < call.rest.length := List.length_pos_iff.mpr unread
      refine copy_orderly orderly empty call current _ ?_ ?_ (List.take_prefix _ _)
      · refine List.length_pos_iff.mp ?_
        rw [List.length_take]
        omega
      · rw [List.length_take]
        omega

/-- A byte of the running transfer goes from the ring to the wire. -/
theorem shift_orderly {port : Port} (orderly : port.Orderly) : port.shift.Orderly := by
  unfold Port.shift
  cases started : port.txDma with
  | none => exact orderly
  | some transfer =>
    simp only
    split
    case isTrue finished => exact orderly
    case isFalse more =>
      obtain ⟨first, bound, covered, fits, busy⟩ := orderly.running transfer started
      have moved : port.moved = transfer.totalCnt - transfer.left := by
        simp [Port.moved, started, Transfer.moved]
      have further : transfer.totalCnt - (transfer.left - 1) = port.moved + 1 := by omega
      refine { orderly with
        idle := by simp, running := ?_, order := ?_, reports := orderly.reports }
      · intro other same
        obtain rfl := Option.some.inj same
        exact ⟨first, by simp only; omega, covered, fits, busy⟩
      · have place : (port.txFifo.readIdx + port.moved) % comTxBuffSize =
            transfer.start + transfer.moved := by
          rw [← first, moved]
          exact Nat.mod_eq_of_lt (by omega)
        have rest := slice_rest port.txFifo.buffer port.txFifo.readIdx
          (show 0 < comTxBuffSize by decide) (show port.moved < port.txFifo.count by omega)
        simp only [Port.moved, Option.map_some, Option.getD_some, Transfer.moved, further,
          List.append_assoc]
        rw [orderly.order, rest, place]
        rfl

/-- After a transfer the read index stands where the engine stopped. -/
theorem on_dma_tx_orderly {port : Port} (orderly : port.Orderly) : port.onDmaTx.Orderly := by
  unfold Port.onDmaTx
  cases started : port.txDma with
  | none => exact orderly
  | some transfer =>
    obtain ⟨first, bound, covered, fits, busy⟩ := orderly.running transfer started
    have moved : port.moved = transfer.moved := by simp [Port.moved, started]
    have sent : transfer.moved ≤ port.txFifo.count := by
      unfold Transfer.moved
      omega
    have inside : (port.txFifo.readIdx + transfer.moved) % comTxBuffSize < comTxBuffSize :=
      Nat.mod_lt _ (by decide)
    have order := orderly.order
    rw [moved] at order
    have still : ({ port with
        txFifo := { port.txFifo with
          readIdx := (port.txFifo.readIdx + transfer.moved) % comTxBuffSize
          count := port.txFifo.count - transfer.moved }
        txDma := if port.txFifo.count - transfer.moved = 0 then none
          else some (dmaStart { port.txFifo with
            readIdx := (port.txFifo.readIdx + transfer.moved) % comTxBuffSize
            count := port.txFifo.count - transfer.moved }) } : Port).moved = 0 := by
      simp only [Port.moved]
      split
      · rfl
      · simp [dma_start_moved]
    refine ⟨inside, ?_, Nat.le_trans (Nat.sub_le _ _) orderly.bounded, ?_, ?_, ?_,
      orderly.reports⟩
    · simp only [index_shift, Nat.add_sub_cancel' sent]
      exact orderly.writeIdx
    · intro nothing
      by_contra some
      simp [some] at nothing
    · intro next restarted
      by_cases none : port.txFifo.count - transfer.moved = 0
      · simp [none] at restarted
      · simp only [none, if_false, Option.some.injEq] at restarted
        obtain rfl := restarted
        exact dma_start_fits _ inside (Nat.pos_of_ne_zero none)
    · simp only [still, Nat.add_zero, Nat.sub_zero, Nat.mod_mod]
      exact order

/-- Beginning a call changes nothing but the call. -/
theorem com_send_orderly {port : Port} (orderly : port.Orderly) (data : List Byte) :
    (step port (.comSend data)).Orderly := by
  cases current : port.call with
  | some call => simpa only [step, current] using orderly
  | none =>
    simp only [step, current]
    refine { orderly with reports := orderly.reports.trans ?_ }
    simp [Port.reported, current]

/-- In every run in which no copying pass of `com_send` finds the ring partly filled,
the bytes on the wire are the first ones of those reported as accepted, in order, and
the ring counts the others, with those of the running transfer that are already out. -/
theorem serial_transmit_fifo (buffer : Mem) (events : List Event)
    (calm : Along step Undisturbed (Port.init buffer) events) :
    let port := run step (Port.init buffer) events
    port.wire <+: port.reported ∧
      port.txFifo.count + port.wire.length = port.reported.length + port.moved := by
  intro port
  have orderly : port.Orderly := by
    refine along_invariant step (fun state event orderly calm => ?_) (Port.init buffer)
      (init_orderly buffer) events calm
    cases event with
    | comSend data => exact com_send_orderly orderly data
    | pass => exact pass_orderly orderly calm
    | shift => exact shift_orderly orderly
    | onDmaTx => exact on_dma_tx_orderly orderly
  have order := orderly.order
  rw [orderly.reports] at order
  have covered : port.moved ≤ port.txFifo.count := by
    cases started : port.txDma with
    | none => simp [Port.moved, started]
    | some transfer =>
      obtain ⟨-, bound, covered, -, -⟩ := orderly.running transfer started
      simp only [Port.moved, started, Option.map_some, Option.getD_some, Transfer.moved]
      omega
  refine ⟨⟨_, order.symm⟩, ?_⟩
  rw [order, List.length_append, slice_length]
  omega

/-- A run of one call, its transfer and the interrupt at its end. -/
theorem one_transfer_fifo :
    let events : List Event := [.comSend [1, 2], .pass, .shift, .shift, .onDmaTx]
    let port := run step (Port.init fun _ => 0) events
    Along step Undisturbed (Port.init fun _ => 0) events ∧ port.wire = [1, 2] ∧
      port.wire <+: port.reported ∧
      port.txFifo.count + port.wire.length = port.reported.length + port.moved := by
  intro events port
  have calm : Along step Undisturbed (Port.init fun _ => 0) events :=
    ⟨trivial, fun _ _ _ => Or.inl rfl, trivial, trivial, trivial, trivial⟩
  exact ⟨calm, by decide, serial_transmit_fifo (fun _ => 0) events calm⟩

/-- A second call before the byte of the first one was sent drops that byte. -/
theorem second_call_drops_first :
    ¬∀ (buffer : Mem) (events : List Event),
      let port := run step (Port.init buffer) events
      port.wire <+: port.reported ∧
        port.txFifo.count + port.wire.length = port.reported.length + port.moved := by
  intro always
  have broken := (always (fun _ => 0)
    [.comSend [1], .pass, .pass, .comSend [2], .pass, .shift]).1
  exact absurd broken (by decide)

end Pyrometer.SerialTransmit
