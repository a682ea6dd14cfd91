import Pyrometer.SerialTransmit

/-!
# The rings of the SPI ports in `scom.c`

Each port has a transmit ring and a receive ring with a read pointer, a write
pointer and a count. `scom_send` copies what fits and starts a DMA transfer if the
ring was empty; `on_dma_tx` starts the next one. On the receiving side a transfer
writes behind the write pointer; `on_dma_rx` counts its bytes and starts the next
one, or stops when the ring is full, and a timer started with each transfer ends a
packet: `on_rx_over` counts the bytes of the transfer that is still under way and
starts one of a single byte. Transfers take at most 256 bytes and end before the
ring does.

`on_rx_over` does not ask whether the receiver was stopped, nor whether the ring is
full. If it was stopped, the bytes of its last transfer count once more, and if the
ring is full, the next byte overwrites the oldest unread one.

The capacities are those of the configured port. `scom_recv` copies its bytes before
its critical section, and interrupts may come between the two. `scom_send` asks its
caller for a critical section and is one step. An interrupt of a transfer may come at
its end or after an error in the middle. The callback of a port only learns the length.
-/

namespace Pyrometer.SpiRings

open ByteMemory RingBuffers Runs
open SerialTransmit (Transfer)

/-- `COM_DMA_XFER_SIZE`. -/
def comDmaXferSize : Nat := 256

/-- `circ_buffer_t` of `scom.c`. The pointers count from `start`. -/
structure CircBuffer where
  buffer : Mem
  head : Nat
  tail : Nat
  count : Nat

/-- The pointers are inside the ring, and the count is the way from one to the other:
all the way round when the ring is full. `pending` bytes in front of the read pointer
are still counted. -/
def CircBuffer.Measured (capacity pending : Nat) (fifo : CircBuffer) : Prop :=
  fifo.head < capacity ∧ fifo.tail < capacity ∧
    (fifo.count = pending + (fifo.tail + capacity - fifo.head) % capacity ∨
      fifo.count = pending + capacity ∧ fifo.tail = fifo.head)

section Transmit

variable (capacity : Nat)

/-- The transmitting half of a port: the running transfer if its interrupt is enabled,
the bytes on the wire, and the bytes that calls of `scom_send` returned as accepted. -/
structure Transmitter where
  txFifo : CircBuffer
  txDma : Option Transfer
  wire : List Byte
  accepted : List Byte

/-- The transmitting half after `scom_init`. -/
def Transmitter.init (buffer : Mem) : Transmitter := ⟨⟨buffer, 0, 0, 0⟩, none, [], []⟩

/-- The two copies of `scom_send`, and the write pointer behind them. -/
def CircBuffer.append (fifo : CircBuffer) (data : List Byte) : CircBuffer :=
  let size := capacity - fifo.tail
  if size < data.length then { fifo with
    buffer := overlay (overlay fifo.buffer (ofList (data.take size)) fifo.tail size)
      (ofList (data.drop size)) 0 (data.length - size)
    tail := data.length - size }
  else { fifo with
    buffer := overlay fifo.buffer (ofList data) fifo.tail data.length
    tail := rewind capacity (fifo.tail + data.length) }

/-- The transfer that `scom_send` and `on_dma_tx` start. -/
def txStart (fifo : CircBuffer) : Transfer :=
  let size := min (min (capacity - fifo.head) fifo.count) comDmaXferSize
  ⟨fifo.head, size, size⟩

/-- `scom_send`. -/
def Transmitter.scomSend (port : Transmitter) (buff : List Byte) : Transmitter :=
  let data := buff.take (capacity - port.txFifo.count)
  let txStop := port.txFifo.count = 0
  let copied := port.txFifo.append capacity data
  let fifo := { copied with count := copied.count + data.length }
  { port with
    txFifo := fifo
    txDma := if txStop then some (txStart capacity fifo) else port.txDma
    accepted := port.accepted ++ data }

/-- The DMA engine puts the next byte of its range on the wire. -/
def Transmitter.shift (port : Transmitter) : Transmitter :=
  match port.txDma with
  | none => port
  | some transfer =>
      if transfer.left = 0 then port
      else { port with
        txDma := some { transfer with left := transfer.left - 1 }
        wire := port.wire ++ [port.txFifo.buffer (transfer.start + transfer.moved)] }

/-- `on_dma_tx`. -/
def Transmitter.onDmaTx (port : Transmitter) : Transmitter :=
  match port.txDma with
  | none => port
  | some transfer =>
      let size := transfer.moved
      let fifo := { port.txFifo with
        head := rewind capacity (port.txFifo.head + size)
        count := port.txFifo.count - size }
      { port with
        txFifo := fifo
        txDma := if fifo.count = 0 then none else some (txStart capacity fifo) }

/-- A step of the transmitting half. -/
inductive TxEvent where
  | scomSend (buff : List Byte)
  | shift
  | onDmaTx

/-- One step of the transmitting half. -/
def Transmitter.step (port : Transmitter) : TxEvent → Transmitter
  | .scomSend buff => port.scomSend capacity buff
  | .shift => port.shift
  | .onDmaTx => port.onDmaTx capacity

/-- The bytes of the running transfer that are on the wire. -/
def Transmitter.moved (port : Transmitter) : Nat := (port.txDma.map Transfer.moved).getD 0

/-- What holds of the transmitting half between any two steps. -/
structure Transmitter.Orderly (port : Transmitter) : Prop where
  head : port.txFifo.head < capacity
  tail : port.txFifo.tail = (port.txFifo.head + port.txFifo.count) % capacity
  bounded : port.txFifo.count ≤ capacity
  idle : port.txDma = none → port.txFifo.count = 0
  running : ∀ transfer, port.txDma = some transfer →
    transfer.start = port.txFifo.head ∧ transfer.left ≤ transfer.totalCnt ∧
      transfer.totalCnt ≤ port.txFifo.count ∧ transfer.start + transfer.totalCnt ≤ capacity
  order : port.accepted = port.wire ++ slice capacity port.txFifo.buffer
    ((port.txFifo.head + port.moved) % capacity) (port.txFifo.count - port.moved)

/-- Copying into consecutive cells is filling the ring up to its end. -/
theorem fill_overlay {capacity : Nat} (data : List Byte) (buffer : Mem) (first : Nat)
    (fits : first + data.length ≤ capacity) :
    fill capacity buffer first data = overlay buffer (ofList data) first data.length := by
  induction data generalizing buffer first with
  | nil =>
    funext cell
    exact (overlay_outside buffer (ofList []) first 0 cell (by omega)).symm
  | cons byte rest inductionHypothesis =>
    rw [List.length_cons] at fits
    funext cell
    rw [fill]
    rcases Nat.lt_or_ge (first + 1) capacity with inside | atEnd
    · rw [Nat.mod_eq_of_lt inside, inductionHypothesis _ _ (by omega)]
      simp only [overlay, ofList, List.length_cons]
      rcases Nat.lt_trichotomy cell first with before | here | behind
      · rw [if_neg (by omega), if_neg (by omega), Function.update_of_ne (by omega)]
      · subst here
        rw [if_neg (by omega), if_pos (by omega), Function.update_self, Nat.sub_self]
        rfl
      · obtain ⟨offset, rfl⟩ := Nat.exists_eq_add_of_le behind
        have shifted : first + 1 + offset - first = offset + 1 := by omega
        have reduced : first + 1 + offset - (first + 1) = offset := by omega
        rw [Function.update_of_ne (by omega)]
        simp only [shifted, reduced, List.getD_cons_succ]
        congr 1
        simp only [eq_iff_iff]
        omega
    · have last : rest = [] := List.length_eq_zero_iff.mp (by omega)
      subst last
      simp only [fill, overlay, ofList, List.length_cons, List.length_nil]
      rcases Nat.lt_trichotomy cell first with before | here | behind
      · rw [if_neg (by omega), Function.update_of_ne (by omega)]
      · subst here
        rw [if_pos (by omega), Function.update_self, Nat.sub_self]
        rfl
      · rw [if_neg (by omega), Function.update_of_ne (by omega)]

/-- The two copies of `scom_send` fill the ring behind the write pointer. -/
theorem append_effect {capacity : Nat} (fifo : CircBuffer) (data : List Byte)
    (inside : fifo.tail < capacity) (fits : data.length ≤ capacity) :
    fifo.append capacity data = { fifo with
      buffer := fill capacity fifo.buffer fifo.tail data
      tail := (fifo.tail + data.length) % capacity } := by
  unfold CircBuffer.append
  simp only
  split
  case isTrue wraps =>
    have first : (data.take (capacity - fifo.tail)).length = capacity - fifo.tail := by
      rw [List.length_take]
      omega
    have second : (data.drop (capacity - fifo.tail)).length =
        data.length - (capacity - fifo.tail) := List.length_drop
    have around : (fifo.tail + (capacity - fifo.tail)) % capacity = 0 := by
      rw [Nat.add_sub_cancel' (Nat.le_of_lt inside), Nat.mod_self]
    have left := fill_overlay (data.take (capacity - fifo.tail)) fifo.buffer fifo.tail
      (show _ ≤ capacity by omega)
    have right := fill_overlay (data.drop (capacity - fifo.tail))
      (fill capacity fifo.buffer fifo.tail (data.take (capacity - fifo.tail))) 0
      (show _ ≤ capacity by omega)
    have pieces := fill_append (data.take (capacity - fifo.tail))
      (data.drop (capacity - fifo.tail)) fifo.buffer fifo.tail inside
    rw [List.take_append_drop, first, around, right, left, first, second] at pieces
    have position : (fifo.tail + data.length) % capacity =
        data.length - (capacity - fifo.tail) := by
      rw [Nat.mod_eq_sub_mod (by omega), Nat.mod_eq_of_lt (by omega)]
      omega
    rw [pieces, position]
  case isFalse straight =>
    rw [fill_overlay data fifo.buffer fifo.tail (by omega), rewind_mod (by omega)]

/-- The transmitting half starts orderly. -/
theorem tx_init_orderly (positive : 0 < capacity) (buffer : Mem) :
    (Transmitter.init buffer).Orderly capacity where
  head := positive
  tail := (Nat.zero_mod capacity).symm
  bounded := Nat.zero_le _
  idle := fun _ => rfl
  running := fun transfer started => by simp [Transmitter.init] at started
  order := rfl

/-- A transfer that was just started stays inside the ring and its contents. -/
theorem tx_start_fits {capacity : Nat} (fifo : CircBuffer) (head : fifo.head < capacity) :
    (txStart capacity fifo).start = fifo.head ∧
      (txStart capacity fifo).left ≤ (txStart capacity fifo).totalCnt ∧
      (txStart capacity fifo).totalCnt ≤ fifo.count ∧
      (txStart capacity fifo).start + (txStart capacity fifo).totalCnt ≤ capacity := by
  have size : (txStart capacity fifo).totalCnt ≤ min (capacity - fifo.head) fifo.count :=
    Nat.min_le_left _ _
  have place : (txStart capacity fifo).start = fifo.head := rfl
  exact ⟨rfl, Nat.le_refl _, by omega, by omega⟩

/-- A transfer that was just started has moved nothing. -/
theorem tx_start_moved (fifo : CircBuffer) : (txStart capacity fifo).moved = 0 := by
  simp [txStart, Transfer.moved]

/-- The running transfer has moved no more than the ring holds. -/
theorem tx_moved_le {port : Transmitter} (orderly : port.Orderly capacity) :
    port.moved ≤ port.txFifo.count := by
  cases started : port.txDma with
  | none => simp [Transmitter.moved, started]
  | some transfer =>
    obtain ⟨-, -, covered, -⟩ := orderly.running transfer started
    simp only [Transmitter.moved, started, Option.map_some, Option.getD_some, Transfer.moved]
    omega

/-- What `scom_send` puts behind the bytes that wait, in the ring. -/
theorem scom_send_slice {port : Transmitter} (orderly : port.Orderly capacity)
    (data : List Byte) (space : data.length ≤ capacity - port.txFifo.count) :
    slice capacity (fill capacity port.txFifo.buffer port.txFifo.tail data)
        ((port.txFifo.head + port.moved) % capacity)
        (port.txFifo.count + data.length - port.moved) =
      slice capacity port.txFifo.buffer ((port.txFifo.head + port.moved) % capacity)
        (port.txFifo.count - port.moved) ++ data := by
  have covered := tx_moved_le capacity orderly
  have bounded := orderly.bounded
  have positive : 0 < capacity := Nat.zero_lt_of_lt orderly.head
  have place : port.txFifo.tail =
      ((port.txFifo.head + port.moved) % capacity + (port.txFifo.count - port.moved)) %
        capacity := by
    rw [index_shift, Nat.add_sub_cancel' covered]
    exact orderly.tail
  have pushed := slice_push port.txFifo.buffer ((port.txFifo.head + port.moved) % capacity)
    (port.txFifo.count - port.moved) data positive (by omega)
  have total : port.txFifo.count - port.moved + data.length =
      port.txFifo.count + data.length - port.moved := by omega
  rw [← place, total] at pushed
  exact pushed

/-- A call of `scom_send` keeps the transmitting half orderly. -/
theorem scom_send_orderly {port : Transmitter} (orderly : port.Orderly capacity)
    (buff : List Byte) : (port.scomSend capacity buff).Orderly capacity := by
  have positive : 0 < capacity := Nat.zero_lt_of_lt orderly.head
  have inside : port.txFifo.tail < capacity := by
    rw [orderly.tail]
    exact Nat.mod_lt _ positive
  have space : (buff.take (capacity - port.txFifo.count)).length ≤
      capacity - port.txFifo.count := List.length_take_le _ _
  have bounded := orderly.bounded
  unfold Transmitter.scomSend
  generalize buff.take (capacity - port.txFifo.count) = data at space
  have behind := scom_send_slice capacity orderly data space
  have tail : (port.txFifo.tail + data.length) % capacity =
      (port.txFifo.head + (port.txFifo.count + data.length)) % capacity := by
    rw [orderly.tail, Nat.mod_add_mod, Nat.add_assoc]
  simp only [append_effect port.txFifo data inside (by omega)]
  by_cases empty : port.txFifo.count = 0
  · have still : port.moved = 0 := Nat.le_zero.mp (empty ▸ tx_moved_le capacity orderly)
    rw [still] at behind
    simp only [if_pos empty]
    refine ⟨orderly.head, tail, by simp only; omega, by simp, ?_, ?_⟩
    · intro transfer started
      obtain rfl := Option.some.inj started
      exact tx_start_fits _ orderly.head
    · simp only [Transmitter.moved, Option.map_some, Option.getD_some, tx_start_moved, behind]
      rw [orderly.order, still, List.append_assoc]
  · simp only [if_neg empty]
    refine ⟨orderly.head, tail, by simp only; omega, ?_, ?_, ?_⟩
    · intro stopped
      exact absurd (orderly.idle stopped) empty
    · intro transfer started
      obtain ⟨first, bound, inner, fits⟩ := orderly.running transfer started
      exact ⟨first, bound, Nat.le_add_right_of_le inner, fits⟩
    · refine Eq.trans ?_ (congrArg (port.wire ++ ·) behind.symm)
      rw [orderly.order, List.append_assoc]

/-- A byte of the running transfer goes from the ring to the wire. -/
theorem tx_shift_orderly {port : Transmitter} (orderly : port.Orderly capacity) :
    port.shift.Orderly capacity := by
  unfold Transmitter.shift
  cases started : port.txDma with
  | none => exact orderly
  | some transfer =>
    simp only
    split
    case isTrue finished => exact orderly
    case isFalse more =>
      obtain ⟨first, bound, covered, fits⟩ := orderly.running transfer started
      have positive : 0 < capacity := Nat.zero_lt_of_lt orderly.head
      have moved : port.moved = transfer.totalCnt - transfer.left := by
        simp [Transmitter.moved, started, Transfer.moved]
      have further : transfer.totalCnt - (transfer.left - 1) = port.moved + 1 := by omega
      refine { orderly with idle := by simp, running := ?_, order := ?_ }
      · intro other same
        obtain rfl := Option.some.inj same
        exact ⟨first, by simp only; omega, covered, fits⟩
      · have place : (port.txFifo.head + port.moved) % capacity =
            transfer.start + transfer.moved := by
          rw [← first, moved]
          exact Nat.mod_eq_of_lt (by omega)
        have rest := slice_rest port.txFifo.buffer port.txFifo.head positive
          (show port.moved < port.txFifo.count by omega)
        simp only [Transmitter.moved, Option.map_some, Option.getD_some, Transfer.moved, further,
          List.append_assoc]
        rw [orderly.order, rest, place]
        rfl

/-- After a transfer the read pointer stands where the engine stopped. -/
theorem on_dma_tx_orderly {port : Transmitter} (orderly : port.Orderly capacity) :
    (port.onDmaTx capacity).Orderly capacity := by
  unfold Transmitter.onDmaTx
  cases started : port.txDma with
  | none => exact orderly
  | some transfer =>
    obtain ⟨first, bound, covered, fits⟩ := orderly.running transfer started
    have moved : port.moved = transfer.moved := by simp [Transmitter.moved, started]
    have most : transfer.moved ≤ transfer.totalCnt := Nat.sub_le _ _
    have order := orderly.order
    have inside : (port.txFifo.head + transfer.moved) % capacity < capacity :=
      Nat.mod_lt _ (Nat.zero_lt_of_lt orderly.head)
    have tail : port.txFifo.tail = ((port.txFifo.head + transfer.moved) % capacity +
        (port.txFifo.count - transfer.moved)) % capacity := by
      rw [index_shift, Nat.add_sub_cancel' (by omega)]
      exact orderly.tail
    have lower := Nat.le_trans (Nat.sub_le port.txFifo.count transfer.moved) orderly.bounded
    rw [moved] at order
    simp only [rewind_mod (show port.txFifo.head + transfer.moved ≤ capacity by omega)]
    by_cases empty : port.txFifo.count - transfer.moved = 0
    · simp only [if_pos empty]
      refine ⟨inside, tail, lower, fun _ => empty, by simp, ?_⟩
      simp only [Transmitter.moved, Option.map_none, Option.getD_none, Nat.add_zero, Nat.sub_zero,
        Nat.mod_mod]
      exact order
    · simp only [if_neg empty]
      refine ⟨inside, tail, lower, by simp, ?_, ?_⟩
      · intro next restarted
        obtain rfl := Option.some.inj restarted
        exact tx_start_fits _ inside
      · simp only [Transmitter.moved, Option.map_some, Option.getD_some, tx_start_moved,
          Nat.add_zero, Nat.sub_zero, Nat.mod_mod]
        exact order

/-- Every step keeps the transmitting half orderly. -/
theorem tx_step_orderly {port : Transmitter} (orderly : port.Orderly capacity)
    (event : TxEvent) : (port.step capacity event).Orderly capacity := by
  cases event with
  | scomSend buff => exact scom_send_orderly capacity orderly buff
  | shift => exact tx_shift_orderly capacity orderly
  | onDmaTx => exact on_dma_tx_orderly capacity orderly

end Transmit

section Receive

variable (capacity : Nat)

/-- The receiving half of a port: its ring, its transfer with the state of the channel
and of its interrupt, the timer, `rx_len`, the bytes a `scom_recv` has copied and not
yet taken off the count with whether it will start the receiver, the bytes the DMA
stored, and the bytes that `scom_recv` returned. -/
structure Receiver where
  rxFifo : CircBuffer
  rxDma : Transfer
  enabled : Bool
  irqEnabled : Bool
  timerEnabled : Bool
  rxLen : Nat
  reading : Option (Nat × Bool)
  received : List Byte
  returned : List Byte

/-- The receiving half after `scom_init` and `scom_enable_recv`. -/
def Receiver.init (buffer : Mem) : Receiver :=
  ⟨⟨buffer, 0, 0, 0⟩, ⟨0, 1, 1⟩, true, true, false, 0, none, [], []⟩

/-- A byte arrives. The DMA stores it if its transfer is not over. -/
def Receiver.arrive (port : Receiver) (byte : Byte) : Receiver :=
  if port.enabled ∧ 0 < port.rxDma.left then { port with
    rxFifo := { port.rxFifo with
      buffer := Function.update port.rxFifo.buffer (port.rxDma.start + port.rxDma.moved) byte }
    rxDma := { port.rxDma with left := port.rxDma.left - 1 }
    received := port.received ++ [byte] }
  else port

/-- The ring with the bytes of the transfer counted. -/
def Receiver.counted (port : Receiver) : CircBuffer :=
  let size := port.rxDma.moved
  { port.rxFifo with
    tail := rewind capacity (port.rxFifo.tail + size)
    count := port.rxFifo.count + size }

/-- `on_dma_rx`. -/
def Receiver.onDmaRx (port : Receiver) : Receiver :=
  if port.enabled ∧ port.irqEnabled then
    let fifo := port.counted capacity
    if fifo.count = capacity then { port with
      rxFifo := fifo
      enabled := false
      irqEnabled := false
      rxLen := fifo.count }
    else
      let size := min (min (capacity - fifo.count) (capacity - fifo.tail)) comDmaXferSize
      { port with
        rxFifo := fifo
        rxDma := ⟨fifo.tail, size, size⟩
        timerEnabled := true }
  else port

/-- `on_rx_over`. -/
def Receiver.onRxOver (port : Receiver) : Receiver :=
  if port.timerEnabled then
    let fifo := port.counted capacity
    { port with
      rxFifo := fifo
      rxDma := ⟨fifo.tail, 1, 1⟩
      enabled := true
      timerEnabled := false
      rxLen := fifo.count }
  else port

/-- The two copies of `scom_recv`. -/
def CircBuffer.front (fifo : CircBuffer) (len : Nat) : List Byte :=
  let count := capacity - fifo.head
  if count < len then toList fifo.buffer fifo.head count ++ toList fifo.buffer 0 (len - count)
  else toList fifo.buffer fifo.head len

/-- The read pointer behind the copies of `scom_recv`. -/
def CircBuffer.headBehind (fifo : CircBuffer) (len : Nat) : Nat :=
  let count := capacity - fifo.head
  if count < len then len - count else rewind capacity (fifo.head + len)

/-- `scom_recv` up to its critical section. -/
def Receiver.scomRecv (port : Receiver) (size : Nat) : Receiver :=
  if port.reading.isSome ∨ port.rxLen = 0 then port
  else
    let len := min port.rxLen size
    { port with
      rxFifo := { port.rxFifo with head := port.rxFifo.headBehind capacity len }
      reading := some (len, port.rxLen = capacity)
      returned := port.returned ++ port.rxFifo.front capacity len }

/-- The critical section of `scom_recv`, and `scom_enable_recv` behind it. -/
def Receiver.scomRecvEnd (port : Receiver) : Receiver :=
  match port.reading with
  | none => port
  | some (len, rxStop) =>
      let port := { port with
        rxFifo := { port.rxFifo with count := port.rxFifo.count - len }
        rxLen := 0
        reading := none }
      if rxStop then { port with
        rxDma := ⟨port.rxFifo.tail, 1, 1⟩
        enabled := true
        irqEnabled := true }
      else port

/-- A step of the receiving half. -/
inductive RxEvent where
  | arrive (byte : Byte)
  | onDmaRx
  | onRxOver
  | scomRecv (size : Nat)
  | scomRecvEnd

/-- One step of the receiving half. -/
def Receiver.step (port : Receiver) : RxEvent → Receiver
  | .arrive byte => port.arrive byte
  | .onDmaRx => port.onDmaRx capacity
  | .onRxOver => port.onRxOver capacity
  | .scomRecv size => port.scomRecv capacity size
  | .scomRecvEnd => port.scomRecvEnd

/-- The bytes a `scom_recv` has copied and not yet taken off the count. -/
def Receiver.pending (port : Receiver) : Nat := (port.reading.map Prod.fst).getD 0

/-- The bytes of the running transfer that are in the ring and not yet counted. -/
def Receiver.moved (port : Receiver) : Nat := if port.enabled then port.rxDma.moved else 0

/-- The timer does not end a packet while the receiver is stopped or when the bytes
received fill the ring, and a full ring is not read into a buffer of no bytes. -/
def Harmless (port : Receiver) : RxEvent → Prop
  | .onRxOver => port.timerEnabled →
      port.enabled ∧ port.rxFifo.count + port.rxDma.moved < capacity
  | .scomRecv size => port.rxLen = capacity → 0 < size
  | _ => True

/-- What holds of the receiving half between any two steps of such a run. -/
structure Receiver.Orderly (port : Receiver) : Prop where
  head : port.rxFifo.head < capacity
  covered : port.pending ≤ port.rxFifo.count
  tail : port.rxFifo.tail = (port.rxFifo.head + (port.rxFifo.count - port.pending)) % capacity
  bounded : port.rxFifo.count ≤ capacity
  announced : port.reading = none → port.rxLen ≤ port.rxFifo.count
  running : port.enabled → port.rxDma.start = port.rxFifo.tail ∧
    port.rxDma.left ≤ port.rxDma.totalCnt ∧ 0 < port.rxDma.totalCnt ∧
    port.rxFifo.tail + port.rxDma.totalCnt ≤ capacity ∧
    port.rxFifo.count + port.rxDma.totalCnt ≤ capacity
  stopping : ∀ len, port.reading = some (len, true) → 0 < len ∧ port.enabled = false
  order : port.received = port.returned ++ slice capacity port.rxFifo.buffer port.rxFifo.head
    (port.rxFifo.count - port.pending + port.moved)

/-- The receiving half starts orderly. -/
theorem rx_init_orderly (positive : 0 < capacity) (buffer : Mem) :
    (Receiver.init buffer).Orderly capacity where
  head := positive
  covered := Nat.le_refl _
  tail := (Nat.zero_mod capacity).symm
  bounded := Nat.zero_le _
  announced := fun _ => Nat.le_refl _
  running := fun _ => ⟨rfl, Nat.le_refl _, Nat.one_pos, show 0 + 1 ≤ capacity by omega,
    show 0 + 1 ≤ capacity by omega⟩
  stopping := fun len reading => by simp [Receiver.init] at reading
  order := rfl

/-- The write pointer is inside the ring. -/
theorem rx_tail_inside {port : Receiver} (orderly : port.Orderly capacity) :
    port.rxFifo.tail < capacity := by
  rw [orderly.tail]
  exact Nat.mod_lt _ (Nat.zero_lt_of_lt orderly.head)

/-- A byte that the DMA stores goes behind the others. -/
theorem arrive_orderly {port : Receiver} (orderly : port.Orderly capacity) (byte : Byte) :
    (port.arrive byte).Orderly capacity := by
  unfold Receiver.arrive
  split
  case isFalse lost => exact orderly
  case isTrue stored =>
    obtain ⟨enabled, more⟩ := stored
    obtain ⟨start, bound, present, fits, space⟩ := orderly.running enabled
    have covered := orderly.covered
    have moved : port.moved = port.rxDma.totalCnt - port.rxDma.left := by
      simp [Receiver.moved, enabled, Transfer.moved]
    have further : (if port.enabled = true then port.rxDma.totalCnt - (port.rxDma.left - 1)
        else 0) = port.moved + 1 := by
      rw [if_pos enabled]
      omega
    have place : (port.rxFifo.head + (port.rxFifo.count - port.pending + port.moved)) % capacity =
        port.rxDma.start + port.rxDma.moved := by
      rw [← Nat.add_assoc, ← Nat.mod_add_mod, ← orderly.tail, start, moved]
      exact Nat.mod_eq_of_lt (by omega)
    have pushed := slice_push port.rxFifo.buffer port.rxFifo.head
      (port.rxFifo.count - port.pending + port.moved) [byte]
      (Nat.zero_lt_of_lt orderly.head) (by simp only [List.length_singleton]; omega)
    rw [place] at pushed
    refine { orderly with running := fun _ => ⟨start, ?_, present, fits, space⟩, order := ?_ }
    · exact Nat.le_trans (Nat.sub_le _ _) bound
    · change port.received ++ [byte] = port.returned ++ slice capacity
        (fill capacity port.rxFifo.buffer (port.rxDma.start + port.rxDma.moved) [byte])
        port.rxFifo.head (port.rxFifo.count - port.pending + if port.enabled = true then
          port.rxDma.totalCnt - (port.rxDma.left - 1) else 0)
      rw [further, orderly.order, List.append_assoc]
      exact congrArg (port.returned ++ ·) pushed.symm

/-- Counting the bytes of the running transfer moves the write pointer behind them. -/
theorem counted_effect {port : Receiver} (orderly : port.Orderly capacity)
    (enabled : port.enabled = true) :
    port.counted capacity = { port.rxFifo with
        tail := (port.rxFifo.tail + port.moved) % capacity
        count := port.rxFifo.count + port.moved } ∧
      (port.rxFifo.tail + port.moved) % capacity =
        (port.rxFifo.head + (port.rxFifo.count + port.moved - port.pending)) % capacity ∧
      port.rxFifo.count + port.moved ≤ capacity := by
  obtain ⟨start, bound, present, fits, space⟩ := orderly.running enabled
  have covered := orderly.covered
  have moved : port.rxDma.moved = port.moved := by simp [Receiver.moved, enabled]
  have most : port.moved ≤ port.rxDma.totalCnt := moved ▸ Nat.sub_le _ _
  refine ⟨?_, ?_, by omega⟩
  · simp only [Receiver.counted, moved]
    rw [rewind_mod (by omega)]
  · have total : port.rxFifo.count + port.moved - port.pending =
        port.rxFifo.count - port.pending + port.moved := by omega
    rw [orderly.tail, Nat.mod_add_mod, Nat.add_assoc, total]

/-- What the ring holds when the bytes of the running transfer are counted. -/
theorem counted_order {port : Receiver} (orderly : port.Orderly capacity) :
    port.received = port.returned ++ slice capacity port.rxFifo.buffer port.rxFifo.head
      (port.rxFifo.count + port.moved - port.pending + 0) := by
  have covered := orderly.covered
  have total : port.rxFifo.count + port.moved - port.pending + 0 =
      port.rxFifo.count - port.pending + port.moved := by omega
  rw [total]
  exact orderly.order

/-- The interrupt of a transfer keeps the receiving half orderly. -/
theorem on_dma_rx_orderly {port : Receiver} (orderly : port.Orderly capacity) :
    (port.onDmaRx capacity).Orderly capacity := by
  unfold Receiver.onDmaRx
  split
  case isFalse off => exact orderly
  case isTrue on =>
    obtain ⟨effect, tail, bounded⟩ := counted_effect capacity orderly on.1
    have covered := orderly.covered
    have order := counted_order capacity orderly
    have inside : (port.rxFifo.tail + port.moved) % capacity < capacity :=
      Nat.mod_lt _ (Nat.zero_lt_of_lt orderly.head)
    simp only [effect]
    split
    case isTrue full =>
      exact ⟨orderly.head, Nat.le_add_right_of_le covered, tail, bounded,
        fun _ => Nat.le_refl _, by simp,
        fun len reading => ⟨(orderly.stopping len reading).1, rfl⟩, order⟩
    case isFalse space =>
      have cleared : ∀ start size : Nat,
          0 = if port.enabled = true then (Transfer.mk start size size).moved else 0 := by
        intro start size
        simp [Transfer.moved]
      refine ⟨orderly.head, Nat.le_add_right_of_le covered, tail, bounded, ?_, ?_,
        orderly.stopping, ?_⟩
      · intro free
        exact Nat.le_add_right_of_le (orderly.announced free)
      · intro _
        have cap : 0 < comDmaXferSize := by decide
        exact ⟨rfl, Nat.le_refl _, by simp only; omega, by simp only; omega, by simp only; omega⟩
      · exact order.trans (congrArg (fun moved => port.returned ++ slice capacity
          port.rxFifo.buffer port.rxFifo.head
          (port.rxFifo.count + port.moved - port.pending + moved)) (cleared _ _))

/-- The end of a packet keeps the receiving half orderly, if the receiver runs and the
ring is not full. -/
theorem on_rx_over_orderly {port : Receiver} (orderly : port.Orderly capacity)
    (harmless : Harmless capacity port .onRxOver) : (port.onRxOver capacity).Orderly capacity := by
  unfold Receiver.onRxOver
  split
  case isFalse off => exact orderly
  case isTrue on =>
    obtain ⟨enabled, space⟩ := harmless on
    obtain ⟨effect, tail, bounded⟩ := counted_effect capacity orderly enabled
    have covered := orderly.covered
    have order := counted_order capacity orderly
    have inside : (port.rxFifo.tail + port.moved) % capacity < capacity :=
      Nat.mod_lt _ (Nat.zero_lt_of_lt orderly.head)
    have moved : port.rxDma.moved = port.moved := by simp [Receiver.moved, enabled]
    simp only [effect]
    refine ⟨orderly.head, Nat.le_add_right_of_le covered, tail, bounded,
      fun _ => Nat.le_refl _, ?_, ?_, order⟩
    · intro _
      exact ⟨rfl, Nat.le_refl _, Nat.one_pos, inside, by simp only; omega⟩
    · intro len reading
      exact absurd enabled (by simp [(orderly.stopping len reading).2])

/-- The two copies of `scom_recv` read the ring from the read pointer on. -/
theorem front_effect {capacity : Nat} (fifo : CircBuffer) (len : Nat)
    (inside : fifo.head < capacity) (fits : len ≤ capacity) :
    fifo.front capacity len = slice capacity fifo.buffer fifo.head len ∧
      fifo.headBehind capacity len = (fifo.head + len) % capacity := by
  unfold CircBuffer.front CircBuffer.headBehind
  simp only
  split
  case isTrue wraps =>
    have around : (fifo.head + (capacity - fifo.head)) % capacity = 0 := by
      rw [Nat.add_sub_cancel' (Nat.le_of_lt inside), Nat.mod_self]
    have split := slice_add capacity fifo.buffer fifo.head (capacity - fifo.head)
      (len - (capacity - fifo.head))
    have left : slice capacity fifo.buffer fifo.head (capacity - fifo.head) =
        toList fifo.buffer fifo.head (capacity - fifo.head) := slice_straight _ (by omega)
    have right : slice capacity fifo.buffer 0 (len - (capacity - fifo.head)) =
        toList fifo.buffer 0 (len - (capacity - fifo.head)) := slice_straight _ (by omega)
    rw [Nat.add_sub_cancel' (Nat.le_of_lt wraps), around, left, right] at split
    refine ⟨split.symm, ?_⟩
    rw [Nat.mod_eq_sub_mod (by omega), Nat.mod_eq_of_lt (by omega)]
    omega
  case isFalse straight =>
    refine ⟨?_, rewind_mod (by omega)⟩
    rw [slice_straight _ (by omega)]
    rfl

/-- The copies of `scom_recv` keep the receiving half orderly. -/
theorem scom_recv_orderly {port : Receiver} (orderly : port.Orderly capacity) (size : Nat)
    (harmless : Harmless capacity port (.scomRecv size)) :
    (port.scomRecv capacity size).Orderly capacity := by
  unfold Receiver.scomRecv
  split
  case isTrue nothing => exact orderly
  case isFalse ready =>
    obtain ⟨notReading, announced⟩ := not_or.mp ready
    have free : port.reading = none := by simpa using notReading
    have noneCopied : port.pending = 0 := by simp [Receiver.pending, free]
    have short : min port.rxLen size ≤ port.rxFifo.count :=
      Nat.le_trans (Nat.min_le_left _ _) (orderly.announced free)
    have bounded := orderly.bounded
    obtain ⟨front, behind⟩ := front_effect port.rxFifo (min port.rxLen size) orderly.head
      (Nat.le_trans short bounded)
    have tail := orderly.tail
    have order := orderly.order
    simp only [noneCopied, Nat.sub_zero] at tail order
    simp only [front, behind]
    refine ⟨?_, short, ?_, bounded, fun free => by simp at free, orderly.running, ?_, ?_⟩
    · exact Nat.mod_lt _ (Nat.zero_lt_of_lt orderly.head)
    · simp only [Receiver.pending, Option.map_some, Option.getD_some, index_shift,
        Nat.add_sub_cancel' short]
      exact tail
    · intro len reading
      obtain ⟨rfl, full⟩ := Prod.mk.inj (Option.some.inj reading)
      have whole : port.rxLen = capacity := of_decide_eq_true full
      have wanted := harmless whole
      have stopped : ¬port.enabled = true := by
        intro enabled
        obtain ⟨-, -, present, -, space⟩ := orderly.running enabled
        have within := orderly.announced free
        omega
      exact ⟨by omega, by simpa using stopped⟩
    · simp only [Receiver.pending, Option.map_some, Option.getD_some]
      have split := slice_add capacity port.rxFifo.buffer port.rxFifo.head (min port.rxLen size)
        (port.rxFifo.count - min port.rxLen size + port.moved)
      have total : min port.rxLen size + (port.rxFifo.count - min port.rxLen size + port.moved) =
          port.rxFifo.count + port.moved := by omega
      rw [total] at split
      rw [order, split, List.append_assoc]
      rfl

/-- The critical section of `scom_recv` keeps the receiving half orderly. -/
theorem scom_recv_end_orderly {port : Receiver} (orderly : port.Orderly capacity) :
    port.scomRecvEnd.Orderly capacity := by
  unfold Receiver.scomRecvEnd
  cases reading : port.reading with
  | none => exact orderly
  | some call =>
    obtain ⟨len, rxStop⟩ := call
    have pending : port.pending = len := by simp [Receiver.pending, reading]
    have covered := orderly.covered
    have tail := orderly.tail
    have order := orderly.order
    have inside := rx_tail_inside capacity orderly
    have bounded := orderly.bounded
    rw [pending] at covered tail order
    cases rxStop with
    | false =>
      refine ⟨orderly.head, Nat.zero_le _, tail, ?_, fun _ => Nat.zero_le _, ?_,
        fun _ reading => by simp at reading, order⟩
      · exact Nat.le_trans (Nat.sub_le _ _) bounded
      · intro enabled
        obtain ⟨start, bound, present, fits, space⟩ := orderly.running enabled
        exact ⟨start, bound, present, fits,
          show port.rxFifo.count - len + port.rxDma.totalCnt ≤ capacity by omega⟩
    | true =>
      obtain ⟨positive, stopped⟩ := orderly.stopping len reading
      have still : port.moved = 0 := by simp [Receiver.moved, stopped]
      rw [still] at order
      refine ⟨orderly.head, Nat.zero_le _, tail, ?_, fun _ => Nat.zero_le _, ?_,
        fun _ reading => by simp at reading, order⟩
      · exact Nat.le_trans (Nat.sub_le _ _) bounded
      · intro _
        exact ⟨rfl, Nat.le_refl _, Nat.one_pos, inside,
          show port.rxFifo.count - len + 1 ≤ capacity by omega⟩

/-- Every harmless step keeps the receiving half orderly. -/
theorem rx_step_orderly {port : Receiver} (orderly : port.Orderly capacity) (event : RxEvent)
    (harmless : Harmless capacity port event) : (port.step capacity event).Orderly capacity := by
  cases event with
  | arrive byte => exact arrive_orderly capacity orderly byte
  | onDmaRx => exact on_dma_rx_orderly capacity orderly
  | onRxOver => exact on_rx_over_orderly capacity orderly harmless
  | scomRecv size => exact scom_recv_orderly capacity orderly size harmless
  | scomRecvEnd => exact scom_recv_end_orderly capacity orderly

end Receive

/-- A port: its two halves. -/
structure Port where
  tx : Transmitter
  rx : Receiver

/-- A step of either half. -/
inductive Event where
  | tx (event : TxEvent)
  | rx (event : RxEvent)

section

variable (txCapacity rxCapacity : Nat)

/-- One step of a port. -/
def step (port : Port) : Event → Port
  | .tx event => { port with tx := port.tx.step txCapacity event }
  | .rx event => { port with rx := port.rx.step rxCapacity event }

/-- A port after `scom_init` and `scom_enable_recv`. -/
def Port.init (txBuffer rxBuffer : Mem) : Port :=
  ⟨Transmitter.init txBuffer, Receiver.init rxBuffer⟩

/-- The steps of the receiving half are harmless. -/
def Undisturbed (port : Port) : Event → Prop
  | .tx _ => True
  | .rx event => Harmless rxCapacity port.rx event

/-- Both rings are FIFOs: what was sent is the first part of what `scom_send` accepted,
with the rest counted, and what `scom_recv` returned is the first part of what was
received. Pointers and counts agree. -/
def Port.Fifos (port : Port) : Prop :=
  (port.tx.wire <+: port.tx.accepted ∧
      port.tx.txFifo.count + port.tx.wire.length = port.tx.accepted.length + port.tx.moved ∧
      port.tx.txFifo.Measured txCapacity 0) ∧
    port.rx.returned <+: port.rx.received ∧
    port.rx.rxFifo.Measured rxCapacity port.rx.pending

end

/-- A write pointer that stands behind the elements of a ring measures their number. -/
theorem measured_of_tail {capacity pending : Nat} {fifo : CircBuffer}
    (head : fifo.head < capacity) (covered : pending ≤ fifo.count)
    (bounded : fifo.count ≤ capacity)
    (tail : fifo.tail = (fifo.head + (fifo.count - pending)) % capacity) :
    fifo.Measured capacity pending := by
  have inside : fifo.tail < capacity := by
    rw [tail]
    exact Nat.mod_lt _ (Nat.zero_lt_of_lt head)
  refine ⟨head, inside, ?_⟩
  rcases Nat.lt_or_ge (fifo.head + (fifo.count - pending)) capacity with straight | round
  · rw [Nat.mod_eq_of_lt straight] at tail
    rcases Nat.lt_or_ge (fifo.count - pending) capacity with some | full
    · left
      have distance : fifo.tail + capacity - fifo.head = fifo.count - pending + capacity := by omega
      rw [distance, Nat.add_mod_right, Nat.mod_eq_of_lt some]
      omega
    · omega
  · rw [Nat.mod_eq_sub_mod round, Nat.mod_eq_of_lt (by omega)] at tail
    rcases Nat.lt_or_ge (fifo.count - pending) capacity with some | full
    · left
      have distance : fifo.tail + capacity - fifo.head = fifo.count - pending := by omega
      rw [distance, Nat.mod_eq_of_lt some]
      omega
    · right
      omega

/-- In every run whose timer interrupts find the receiver running and the ring not
full, and in which no full ring is read into a buffer of no bytes, both rings are
FIFOs. -/
theorem spi_rings_fifo (txCapacity rxCapacity : Nat) (txPositive : 0 < txCapacity)
    (rxPositive : 0 < rxCapacity) (txBuffer rxBuffer : Mem) (events : List Event)
    (calm : Along (step txCapacity rxCapacity) (Undisturbed rxCapacity)
      (Port.init txBuffer rxBuffer) events) :
    (run (step txCapacity rxCapacity) (Port.init txBuffer rxBuffer) events).Fifos
      txCapacity rxCapacity := by
  have preserved : ∀ (port : Port) (event : Event),
      port.tx.Orderly txCapacity ∧ port.rx.Orderly rxCapacity →
      Undisturbed rxCapacity port event →
      (step txCapacity rxCapacity port event).tx.Orderly txCapacity ∧
        (step txCapacity rxCapacity port event).rx.Orderly rxCapacity := by
    intro port event orderly calm
    cases event with
    | tx event => exact ⟨tx_step_orderly txCapacity orderly.1 event, orderly.2⟩
    | rx event => exact ⟨orderly.1, rx_step_orderly rxCapacity orderly.2 event calm⟩
  obtain ⟨tx, rx⟩ := along_invariant (step txCapacity rxCapacity) preserved
    (Port.init txBuffer rxBuffer)
    ⟨tx_init_orderly txCapacity txPositive txBuffer, rx_init_orderly rxCapacity rxPositive rxBuffer⟩
    events calm
  have covered := tx_moved_le txCapacity tx
  refine ⟨⟨⟨_, tx.order.symm⟩, ?_, measured_of_tail tx.head (Nat.zero_le _) tx.bounded tx.tail⟩,
    ⟨_, rx.order.symm⟩, measured_of_tail rx.head rx.covered rx.bounded rx.tail⟩
  rw [tx.order, List.length_append, slice_length]
  omega

/-- A byte sent, and two bytes received as one packet and read. -/
theorem one_packet_fifo :
    let events : List Event := [.tx (.scomSend [7]), .tx .shift, .tx .onDmaTx,
      .rx (.arrive 1), .rx .onDmaRx, .rx (.arrive 2), .rx .onRxOver, .rx (.scomRecv 8),
      .rx .scomRecvEnd]
    let port := run (step 4 4) (Port.init (fun _ => 0) fun _ => 0) events
    Along (step 4 4) (Undisturbed 4) (Port.init (fun _ => 0) fun _ => 0) events ∧
      port.tx.wire = [7] ∧ port.rx.returned = [1, 2] ∧ port.Fifos 4 4 := by
  intro events port
  have calm : Along (step 4 4) (Undisturbed 4) (Port.init (fun _ => 0) fun _ => 0) events :=
    ⟨trivial, trivial, trivial, trivial, trivial, trivial, fun _ => ⟨rfl, by decide +kernel⟩,
      fun _ => by decide, trivial, trivial⟩
  exact ⟨calm, by decide +kernel, by decide +kernel,
    spi_rings_fifo 4 4 (by decide) (by decide) (fun _ => 0) (fun _ => 0) events calm⟩

/-- When the timer ends a packet that filled the ring, the last transfer counts twice. -/
theorem full_ring_counts_twice :
    ¬∀ (txCapacity rxCapacity : Nat), 0 < txCapacity → 0 < rxCapacity →
      ∀ (txBuffer rxBuffer : Mem) (events : List Event),
        (run (step txCapacity rxCapacity) (Port.init txBuffer rxBuffer) events).Fifos
          txCapacity rxCapacity := by
  intro always
  have measured := (always 2 2 (by decide) (by decide) (fun _ => 0) (fun _ => 0)
    [.rx (.arrive 1), .rx .onDmaRx, .rx (.arrive 2), .rx .onDmaRx, .rx .onRxOver]).2.2
  have counted : (run (step 2 2) (Port.init (fun _ => 0) fun _ => 0)
      [.rx (.arrive 1), .rx .onDmaRx, .rx (.arrive 2), .rx .onDmaRx,
        .rx .onRxOver]).rx.rxFifo.count = 3 := by decide +kernel
  have copied : (run (step 2 2) (Port.init (fun _ => 0) fun _ => 0)
      [.rx (.arrive 1), .rx .onDmaRx, .rx (.arrive 2), .rx .onDmaRx,
        .rx .onRxOver]).rx.pending = 0 := by decide +kernel
  rcases measured.2.2 with way | round
  · rw [counted, copied] at way
    omega
  · have whole := round.1
    rw [counted, copied] at whole
    omega

end Pyrometer.SpiRings
