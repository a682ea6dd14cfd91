import Pyrometer.ByteMemory
import Pyrometer.RingBuffers
import Pyrometer.Runs

/-!
# The receive ring of `serial.c`

A circular DMA transfer writes the bytes that arrive into a ring of 1056 bytes.
When the line falls idle behind a frame, `on_irq_all` computes the number of
unread bytes from the transfer counter and the read index, modulo the size of the
ring, and calls `pc_on_rx_data`, which lets `com_filter_recv` discard a frame that
is too short. `com_recv` then copies the unread bytes.

Three lengths are at work. The callback tests `rx_len`; `com_recv` compares
`rx_len` with the size of the buffer of its caller, but copies `count` bytes
whatever that size is. The filter adds to the read index without going back to the
start of the ring. A frame that fills the ring counts as no byte at all.

Addresses count from the ring on; behind the ring lies other memory, which an index
past its end reads. Reception runs from `com_enable_recv` on, so the first transfer
begins at the first cell. The interrupt of an idle line is taken together with the
frame before it.
-/

namespace Pyrometer.SerialReceive

open ByteMemory RingBuffers Runs

/-- `COM2_RX_BUFF_SIZE`. -/
abbrev comRxBuffSize : Nat := 1056

/-- `PC_MIN_LEN`. -/
def pcMinLen : Nat := 2

/-- `PC_MAX_LEN`. -/
def pcMaxLen : Nat := 1056

/-- The descriptor of the port and its DMA: `dmaBase` is the cell the transfer was
started at, `dmaDone` the bytes of its round so far. `delivered` lists the calls of
`com_recv`, each with its size and what it put into the buffer. -/
structure Port where
  buffer : Mem
  dmaBase : Nat
  dmaDone : Nat
  writeIdx : Nat
  readIdx : Nat
  count : Nat
  rxLen : Nat
  delivered : List (Nat × List Byte)

/-- The port after `com_init` and `com_enable_recv`. -/
def Port.init (buffer : Mem) : Port := ⟨buffer, 0, 0, 0, 0, 0, 0, []⟩

/-- A number kept in a `uint16_t`. -/
def toUint16 (value : Int) : Nat := (value % 2 ^ 16).toNat

/-- The DMA writes the bytes of a frame. -/
def Port.dmaStore (port : Port) : List Byte → Port
  | [] => port
  | byte :: rest => Port.dmaStore { port with
      buffer := Function.update port.buffer (port.dmaBase + port.dmaDone) byte
      dmaDone := (port.dmaDone + 1) % comRxBuffSize } rest

/-- `com_filter_recv` on valid bounds. -/
def Port.comFilterRecv (port : Port) (minLen maxLen : Nat) : Port :=
  if port.rxLen < minLen ∨ maxLen < port.rxLen then
    { port with
      count := toUint16 (port.count - port.rxLen)
      readIdx := toUint16 (port.readIdx + port.rxLen)
      rxLen := 0 }
  else port

/-- `on_irq_all` behind a frame, with `pc_on_rx_data`. `dma_transfer_number_get`
returns what is left of the round. -/
def Port.onIdle (port : Port) : Port :=
  let writeIdx := comRxBuffSize - (comRxBuffSize - port.dmaDone)
  let count := toUint16
    (Int.tmod ((comRxBuffSize : Int) + writeIdx - port.readIdx) (comRxBuffSize : Int))
  { port with writeIdx := writeIdx, count := count, rxLen := count }.comFilterRecv
    pcMinLen pcMaxLen

/-- The copying loop of `com_recv`: the bytes, and the read index behind them. -/
def copyLoop (buffer : Mem) : Nat → Nat → List Byte × Nat
  | readIdx, 0 => ([], readIdx)
  | readIdx, count + 1 =>
      let rest := copyLoop buffer ((readIdx + 1) % comRxBuffSize) count
      (buffer readIdx :: rest.1, rest.2)

/-- `com_recv`. A full ring starts the reception anew at the write index. -/
def Port.comRecv (port : Port) (size : Nat) : Port :=
  if port.rxLen = 0 then { port with delivered := port.delivered ++ [(size, [])] }
  else
    let rxStop := comRxBuffSize ≤ port.rxLen
    let copied := copyLoop port.buffer port.readIdx port.count
    let port := { port with
      readIdx := copied.2
      count := 0
      rxLen := toUint16 (port.rxLen - port.count)
      delivered := port.delivered ++ [(size, copied.1)] }
    if rxStop then { port with dmaBase := port.writeIdx, dmaDone := 0 } else port

/-- A frame with the idle line behind it, or a call of `com_recv`. -/
inductive Event where
  | frame (data : List Byte)
  | comRecv (size : Nat)

/-- One step. -/
def step (port : Port) : Event → Port
  | .frame data => (port.dmaStore data).onIdle
  | .comRecv size => port.comRecv size

/-- What the port is for: to hold the frame just received, if its length is accepted,
until it is read. -/
structure Mailbox where
  frame : List Byte
  delivered : List (Nat × List Byte)

/-- The mailbox before the first frame. -/
def Mailbox.init : Mailbox := ⟨[], []⟩

/-- One step of the mailbox. -/
def Mailbox.step (mailbox : Mailbox) : Event → Mailbox
  | .frame data =>
      if pcMinLen ≤ data.length ∧ data.length ≤ pcMaxLen then { mailbox with frame := data }
      else mailbox
  | .comRecv size => ⟨[], mailbox.delivered ++ [(size, mailbox.frame)]⟩

/-- A frame has 1 to 1056 bytes and comes when the accepted one before it was read. -/
def Admissible (pair : Port × Mailbox) : Event → Prop
  | .frame data => pair.2.frame = [] ∧ 1 ≤ data.length ∧ data.length ≤ comRxBuffSize
  | .comRecv _ => True

/-- The frame does not fill the ring, a frame of one byte is not stored in the last
cell, and the buffer of the caller holds the frame that waits. -/
def Harmless (pair : Port × Mailbox) : Event → Prop
  | .frame data => data.length < comRxBuffSize ∧
      (data.length < pcMinLen → pair.1.dmaDone + data.length < comRxBuffSize)
  | .comRecv size => pair.2.frame.length ≤ size

/-- The port holds the frame of the mailbox. -/
structure Holds (port : Port) (mailbox : Mailbox) : Prop where
  base : port.dmaBase = 0
  done : port.dmaDone = (port.readIdx + mailbox.frame.length) % comRxBuffSize
  readIdx : port.readIdx < comRxBuffSize
  bounded : mailbox.frame.length < comRxBuffSize
  count : port.count = mailbox.frame.length
  rxLen : port.rxLen = mailbox.frame.length
  contents : slice comRxBuffSize port.buffer port.readIdx mailbox.frame.length = mailbox.frame
  delivered : port.delivered = mailbox.delivered
  sizes : ∀ size bytes, (size, bytes) ∈ mailbox.delivered → bytes.length ≤ size

/-- The port starts with an empty mailbox. -/
theorem init_holds (buffer : Mem) : Holds (Port.init buffer) Mailbox.init where
  base := rfl
  done := rfl
  readIdx := by simp [Port.init]
  bounded := by simp [Mailbox.init]
  count := rfl
  rxLen := rfl
  contents := rfl
  delivered := rfl
  sizes := by simp [Mailbox.init]

/-- A small natural number is kept in a `uint16_t`. -/
theorem to_uint16_of_lt {value : Nat} (small : value < 2 ^ 16) : toUint16 value = value := by
  unfold toUint16
  omega

/-- The DMA fills the ring behind the bytes of its round. -/
theorem dma_store_effect (data : List Byte) (port : Port) (base : port.dmaBase = 0)
    (inside : port.dmaDone < comRxBuffSize) :
    port.dmaStore data = { port with
      buffer := fill comRxBuffSize port.buffer port.dmaDone data
      dmaDone := (port.dmaDone + data.length) % comRxBuffSize } := by
  induction data generalizing port with
  | nil => simp [Port.dmaStore, fill, Nat.mod_eq_of_lt inside]
  | cons byte rest inductionHypothesis =>
    have next : (port.dmaDone + 1) % comRxBuffSize < comRxBuffSize := Nat.mod_lt _ (by decide)
    rw [Port.dmaStore]
    refine (inductionHypothesis { port with
      buffer := Function.update port.buffer (port.dmaBase + port.dmaDone) byte
      dmaDone := (port.dmaDone + 1) % comRxBuffSize } base next).trans ?_
    simp only [fill, List.length_cons, Nat.mod_add_mod, base, Nat.zero_add]
    congr 2
    omega

/-- The copying loop reads the ring from the read index on. -/
theorem copy_loop_effect (buffer : Mem) (count readIdx : Nat)
    (inside : readIdx < comRxBuffSize) :
    copyLoop buffer readIdx count =
      (slice comRxBuffSize buffer readIdx count, (readIdx + count) % comRxBuffSize) := by
  induction count generalizing readIdx with
  | zero => simp [copyLoop, Nat.mod_eq_of_lt inside]
  | succ count inductionHypothesis =>
    rw [copyLoop, inductionHypothesis _ (Nat.mod_lt _ (by decide)), slice_cons buffer inside]
    simp only [Nat.mod_add_mod, Prod.mk.injEq, true_and]
    congr 1
    omega

/-- The unread bytes, computed from where the DMA is: those of the frame, unless it
went all the way round. -/
theorem unread_count {readIdx length : Nat} (inside : readIdx < comRxBuffSize)
    (short : length < comRxBuffSize) :
    toUint16 (Int.tmod ((comRxBuffSize : Int) +
      ((comRxBuffSize - (comRxBuffSize - (readIdx + length) % comRxBuffSize) : Nat) : Int) -
        readIdx) (comRxBuffSize : Int)) = length := by
  simp only [comRxBuffSize] at inside short ⊢
  rw [Int.tmod_eq_emod_of_nonneg (by omega)]
  unfold toUint16
  omega

/-- What the port looks like when the filter sees a frame. -/
def Port.filled (port : Port) (data : List Byte) : Port := { port with
  buffer := fill comRxBuffSize port.buffer port.readIdx data
  dmaDone := (port.readIdx + data.length) % comRxBuffSize
  writeIdx := (port.readIdx + data.length) % comRxBuffSize
  count := data.length
  rxLen := data.length }

/-- A frame shorter than the ring reaches the filter with its length. -/
theorem frame_filled {port : Port} {mailbox : Mailbox} (holds : Holds port mailbox)
    (read : mailbox.frame = []) (data : List Byte) (short : data.length < comRxBuffSize) :
    step port (.frame data) = (port.filled data).comFilterRecv pcMinLen pcMaxLen := by
  have inside := holds.readIdx
  have done : port.dmaDone = port.readIdx := by
    rw [holds.done, read, List.length_nil, Nat.add_zero, Nat.mod_eq_of_lt inside]
  have position : comRxBuffSize - (comRxBuffSize - (port.readIdx + data.length) % comRxBuffSize) =
      (port.readIdx + data.length) % comRxBuffSize := by
    have below : (port.readIdx + data.length) % comRxBuffSize < comRxBuffSize :=
      Nat.mod_lt _ (by decide)
    omega
  have count := unread_count inside short
  rw [position] at count
  simp only [step, dma_store_effect data port holds.base (by omega), Port.onIdle, done, position,
    count]
  rfl

/-- A frame that is not too short waits in the mailbox. -/
theorem accepted_holds {port : Port} {mailbox : Mailbox} (holds : Holds port mailbox)
    (data : List Byte) (short : data.length < comRxBuffSize) :
    Holds (port.filled data) { mailbox with frame := data } where
  base := holds.base
  done := rfl
  readIdx := holds.readIdx
  bounded := short
  count := rfl
  rxLen := rfl
  contents := slice_fill data port.buffer port.readIdx holds.readIdx (Nat.le_of_lt short)
  delivered := holds.delivered
  sizes := holds.sizes

/-- A frame that is too short is passed over, if it ends before the ring does. -/
theorem rejected_holds {port : Port} {mailbox : Mailbox} (holds : Holds port mailbox)
    (read : mailbox.frame = []) (data : List Byte)
    (fits : port.readIdx + data.length < comRxBuffSize) :
    Holds { port.filled data with
      count := toUint16 ((data.length : Int) - data.length)
      readIdx := toUint16 ((port.readIdx : Int) + data.length)
      rxLen := 0 } mailbox := by
  have moved : toUint16 ((port.readIdx : Int) + data.length) = port.readIdx + data.length := by
    rw [← Nat.cast_add]
    refine to_uint16_of_lt ?_
    simp only [comRxBuffSize] at fits
    omega
  have nothing : toUint16 ((data.length : Int) - data.length) = 0 := by
    simp [toUint16]
  rw [moved, nothing]
  refine ⟨holds.base, ?_, fits, ?_, ?_, ?_, ?_, holds.delivered, holds.sizes⟩
  · simp [Port.filled, read]
  · simp [read]
  · simp [read]
  · simp [read]
  · simp [read]

/-- A harmless frame is held or passed over. -/
theorem frame_holds {port : Port} {mailbox : Mailbox} (holds : Holds port mailbox)
    (data : List Byte) (admissible : Admissible (port, mailbox) (.frame data))
    (harmless : Harmless (port, mailbox) (.frame data)) :
    Holds (step port (.frame data)) (mailbox.step (.frame data)) := by
  obtain ⟨read, -, -⟩ := admissible
  obtain ⟨short, ends⟩ := harmless
  have inside := holds.readIdx
  have done : port.dmaDone = port.readIdx := by
    rw [holds.done, read, List.length_nil, Nat.add_zero, Nat.mod_eq_of_lt inside]
  have below : data.length ≤ pcMaxLen := Nat.le_of_lt short
  rw [frame_filled holds read data short]
  unfold Port.comFilterRecv Mailbox.step
  by_cases long : pcMinLen ≤ data.length
  · have kept : ¬((port.filled data).rxLen < pcMinLen ∨ pcMaxLen < (port.filled data).rxLen) := by
      simp only [Port.filled]
      omega
    simp only [if_neg kept, long, below, and_self, if_true]
    exact accepted_holds holds data short
  · have dropped : (port.filled data).rxLen < pcMinLen ∨ pcMaxLen < (port.filled data).rxLen :=
      Or.inl (Nat.lt_of_not_le long)
    simp only [if_pos dropped, long, false_and, if_false]
    have fits := ends (Nat.lt_of_not_le long)
    rw [done] at fits
    exact rejected_holds holds read data fits

/-- A read takes the frame that waits out of the mailbox. -/
theorem com_recv_holds {port : Port} {mailbox : Mailbox} (holds : Holds port mailbox)
    (size : Nat) (harmless : Harmless (port, mailbox) (.comRecv size)) :
    Holds (step port (.comRecv size)) (mailbox.step (.comRecv size)) := by
  have inside := holds.readIdx
  have sizes : ∀ other bytes, (other, bytes) ∈ mailbox.delivered ++ [(size, mailbox.frame)] →
      bytes.length ≤ other := by
    intro other bytes member
    rcases List.mem_append.mp member with earlier | new
    · exact holds.sizes other bytes earlier
    · obtain ⟨rfl, rfl⟩ := Prod.mk.inj (List.mem_singleton.mp new)
      exact harmless
  simp only [step, Port.comRecv, Mailbox.step]
  by_cases none : port.rxLen = 0
  · have empty : mailbox.frame = [] := List.length_eq_zero_iff.mp (holds.rxLen.symm.trans none)
    have done := holds.done
    rw [empty] at done sizes ⊢
    simp only [if_pos none]
    exact ⟨holds.base, done, inside, Nat.zero_lt_succ _, by rw [holds.count, empty], none,
      rfl, by rw [holds.delivered], sizes⟩
  · have running : ¬comRxBuffSize ≤ port.rxLen := by
      have bounded := holds.bounded
      rw [holds.rxLen]
      omega
    have copied := copy_loop_effect port.buffer port.count port.readIdx inside
    rw [holds.count, holds.contents] at copied
    have behind : (port.readIdx + mailbox.frame.length) % comRxBuffSize < comRxBuffSize :=
      Nat.mod_lt _ (by decide)
    simp only [if_neg none, if_neg running]
    simp only [holds.count, copied, holds.rxLen, holds.delivered]
    refine ⟨holds.base, ?_, behind, Nat.zero_lt_succ _, rfl, ?_, rfl, rfl, sizes⟩
    · simp only [List.length_nil, Nat.add_zero, Nat.mod_mod]
      exact holds.done
    · simp [toUint16]

/-- In every run of admissible and harmless steps the read index stays inside the
ring, and each call of `com_recv` returns the accepted frame just received, or nothing,
and never more than its size. -/
theorem serial_receive_frames (buffer : Mem) (events : List Event)
    (met : Along (both step Mailbox.step)
      (fun pair event => Admissible pair event ∧ Harmless pair event)
      (Port.init buffer, Mailbox.init) events) :
    let port := run step (Port.init buffer) events
    port.readIdx < comRxBuffSize ∧
      port.delivered = (run Mailbox.step Mailbox.init events).delivered ∧
      ∀ size bytes, (size, bytes) ∈ port.delivered → bytes.length ≤ size := by
  intro port
  have holds : Holds port (run Mailbox.step Mailbox.init events) := by
    have preserved : ∀ (pair : Port × Mailbox) (event : Event), Holds pair.1 pair.2 →
        Admissible pair event ∧ Harmless pair event →
        Holds (both step Mailbox.step pair event).1 (both step Mailbox.step pair event).2 := by
      intro pair event holds met
      cases event with
      | frame data => exact frame_holds holds data met.1 met.2
      | comRecv size => exact com_recv_holds holds size met.2
    have paired := along_invariant (both step Mailbox.step) preserved
      (Port.init buffer, Mailbox.init) (init_holds buffer) events met
    rwa [run_both] at paired
  refine ⟨holds.readIdx, holds.delivered, ?_⟩
  rw [holds.delivered]
  exact holds.sizes

/-- A frame of three bytes, a read, and a frame of one byte that is passed over. -/
theorem three_bytes_received :
    let events : List Event := [.frame [1, 2, 3], .comRecv 1056, .frame [4], .comRecv 1056]
    let port := run step (Port.init fun _ => 0) events
    port.delivered = [(1056, [1, 2, 3]), (1056, [])] ∧ port.readIdx < comRxBuffSize ∧
      port.delivered = (run Mailbox.step Mailbox.init events).delivered ∧
      ∀ size bytes, (size, bytes) ∈ port.delivered → bytes.length ≤ size := by
  intro events port
  refine ⟨by decide, serial_receive_frames (fun _ => 0) events ?_⟩
  refine ⟨⟨⟨rfl, by decide, by decide⟩, by decide, by decide⟩, ⟨trivial, ?_⟩,
    ⟨⟨rfl, by decide, by decide⟩, by decide, fun _ => ?_⟩, ⟨trivial, ?_⟩, trivial⟩
  · exact show ([1, 2, 3] : List Byte).length ≤ 1056 by decide
  · decide +kernel
  · exact show ([] : List Byte).length ≤ 1056 by decide

/-- A frame that fills the ring is lost: the port counts no unread byte. -/
theorem full_frame_lost :
    ¬∀ (buffer : Mem) (events : List Event),
      Along (both step Mailbox.step) Admissible (Port.init buffer, Mailbox.init) events →
      let port := run step (Port.init buffer) events
      port.readIdx < comRxBuffSize ∧
        port.delivered = (run Mailbox.step Mailbox.init events).delivered ∧
        ∀ size bytes, (size, bytes) ∈ port.delivered → bytes.length ≤ size := by
  intro always
  have broken := (always (fun _ => 0) [.frame (List.replicate 1056 0), .comRecv 1056]
    ⟨⟨rfl, by decide +kernel, by decide +kernel⟩, trivial, trivial⟩).2.1
  have lengths := congrArg (List.map fun call => call.2.length) broken
  exact absurd lengths (by decide +kernel)

end Pyrometer.SerialReceive
