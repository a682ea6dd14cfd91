import Pyrometer.UpgradeSteps

/-!
# Where the upgrade handlers write

A data packet is stored at the product of two 16-bit numbers, with a length that
is a field of the packet; the handler relates neither to the staging area nor to
the payload it received. `SegmentFits` is the condition on a packet and on the
state it meets under which the handler stays inside both. Along runs whose
packets meet it, every word programmed outside the info page lies in the staging
area and comes from the payload of the packet being handled, whichever flash
operations are refused.
-/

namespace Pyrometer.UpgradeConfinement

open ByteMemory NorFlash FlashController BaseProtocol FirmwareInfo UpgradeSession UpgradeSteps Runs

/-- Whole words of a segment. -/
def segmentWords (packet : Packet) : Nat := (replySegLen packet.data).toNat / 4

/-- A stored segment lies inside the payload, and its words inside the staging
area. -/
def SegmentFits (unit : Upgrade) : Event → Prop
  | .packet packet => storesSegment packet unit = true →
      sizeofReply + (replySegLen packet.data).toNat ≤ packet.header.dataLen.toNat ∧
        (segmentWords packet = 0 ∨
          unit.fwInfo.segIdx.toNat * unit.fwInfo.segSize.toNat + 4 * segmentWords packet ≤
            fwAreaSize)
  | .wake => True
  | .task => True

/-- Bytes taken from the payload of the packet being handled. -/
def FromPayload (event : Event) (bytes : List Byte) : Prop :=
  match event with
  | .packet packet => ∃ offset, offset + bytes.length ≤ packet.header.dataLen.toNat ∧
      bytes = toList packet.data offset bytes.length
  | .wake => False
  | .task => False

/-- A flash operation is an erase, a program of the info page, or a program of the
staging area from the payload. -/
def Confined (event : Event) : Op → Prop
  | .erase _ _ => True
  | .program address bytes =>
      (fwInfoAddr ≤ address ∧ address + bytes.length ≤ fwInfoAddr + fmcPageSize) ∨
        (fwDataAddr ≤ address ∧ address + bytes.length ≤ fwDataAddr + fwAreaSize ∧
          FromPayload event bytes)

/-- The flash operations performed between two states of a run. -/
def performed (before after : Upgrade) : List Op := after.fmc.log.drop before.fmc.log.length

/-- Writing the record performs only what is allowed for the info page. -/
theorem save_info_confined (event : Event) (unit : Upgrade) :
    Device.Grows (Confined event) unit.fmc (saveInfo unit).fmc :=
  info_page_grows _ unit.fmc True.intro (fun _ _ low high => Or.inl ⟨low, high⟩)

/-- A stored segment that fits performs only what is allowed for its packet. -/
theorem stored_confined (packet : Packet) (unit : Upgrade)
    (inPayload : sizeofReply + (replySegLen packet.data).toNat ≤ packet.header.dataLen.toNat)
    (inArea : segmentWords packet = 0 ∨
      unit.fwInfo.segIdx.toNat * unit.fwInfo.segSize.toNat + 4 * segmentWords packet ≤
        fwAreaSize) :
    Device.Grows (Confined (.packet packet)) unit.fmc (stored packet unit).fmc := by
  have base : fwDataAddr + fwAreaSize = 134742016 := by decide
  apply program_word_loop_grows
  intro word _ high
  have counted : word < segmentWords packet := by
    unfold segmentWords
    omega
  have fits : unit.fwInfo.segIdx.toNat * unit.fwInfo.segSize.toNat + 4 * segmentWords packet ≤
      fwAreaSize := by
    rcases inArea with none | fits
    · omega
    · exact fits
  have start : segmentAddr unit.fwInfo =
      fwDataAddr + unit.fwInfo.segIdx.toNat * unit.fwInfo.segSize.toNat :=
    Nat.mod_eq_of_lt (by omega)
  have plain : wrap32 (segmentAddr unit.fwInfo + 4 * word) = segmentAddr unit.fwInfo + 4 * word :=
    Nat.mod_eq_of_lt (by omega)
  refine Or.inr ?_
  rw [plain, to_list_length]
  refine ⟨by omega, by omega, sizeofReply + 4 * word, ?_, ?_⟩
  · rw [to_list_length]
    unfold segmentWords at counted
    omega
  · rw [to_list_length]
    unfold toList window
    simp only [Nat.add_assoc]

/-- Every event that meets the condition performs only what is allowed for it. -/
theorem step_confined (unit : Upgrade) (event : Event) (fits : SegmentFits unit event) :
    Device.Grows (Confined event) unit.fmc (step unit event).fmc := by
  cases event with
  | packet packet =>
    rcases receive_cases packet unit with ⟨_, notify⟩ | ⟨stores, store⟩ | ⟨_, finish⟩ |
      ⟨_, cancel⟩ | ⟨_, _, _, _, idle⟩
    · rw [step, notify, (notified_keeps packet unit).2.2.2]
      exact save_info_confined (.packet packet)
        { unit with fwInfo := notifiedInfo packet.data packet.port unit.fwInfo }
    · rw [step, store]
      obtain ⟨inPayload, inArea⟩ := fits stores
      exact stored_confined packet unit inPayload inArea
    · rw [step, finish]
      exact save_info_confined (.packet packet) { unit with fwInfo := finishedInfo packet unit }
    · rw [step, cancel]
      exact Device.grows_refl _ _
    · rw [step, idle]
      exact Device.grows_refl _ _
  | wake =>
    obtain ⟨mailbox, sleeping, woken⟩ := wake_up_keeps unit
    rw [step, woken]
    exact Device.grows_refl _ _
  | task =>
    have sector : ∀ number : Fin 12,
        Device.Grows (Confined .task) unit.fmc (gdfEraseSector number unit.fmc).2 := by
      intro number
      have issued : Device.Grows (Confined .task) unit.fmc (fmcSectorErase number unit.fmc).2 :=
        Device.issue_grows trivial unit.fmc
      rw [gdfEraseSector]
      split
      · rename_i next completed
        rw [completed] at issued
        exact issued
      · rename_i next refused
        rw [refused] at issued
        exact issued
    rcases upgrade_task_cases unit with begins | ⟨_, first⟩ | ⟨_, second⟩ | quiet
    · rw [step, begins.fmc]
      exact Device.grows_refl _ _
    · rw [step, first]
      exact sector 6
    · rw [step, second]
      exact sector 7
    · rw [step, quiet.fmc]
      exact Device.grows_refl _ _

/-- Write confinement over runs: in every run whose packets meet `SegmentFits`,
from any state and whichever flash operations are refused, each event programs
the info page, or the staging area from the payload of its own packet. -/
theorem upgrade_writes_confined (start : Upgrade) (events : List Event)
    (met : Along step SegmentFits start events) (earlier later : List Event) (event : Event)
    (split : events = earlier ++ event :: later) :
    ∀ op ∈ performed (run step start earlier) (run step start (earlier ++ [event])),
      Confined event op := by
  subst split
  have here := ((along_append step start earlier (event :: later)).mp met).2.1
  rw [run_snoc]
  exact Device.grows_new (step_confined _ event here)

/-- A notification of five segments of 65535 bytes each. -/
def wideNotify : Event :=
  .packet (wirePacket commandNotify protOpWr [1, 0, 0, 0, 0, 4, 0, 255, 255, 5, 0, 0, 0, 0, 0])

/-- A data packet of that session, with the given segment number and bytes. -/
def wideSegment (number : Byte) (bytes : List Byte) : Event :=
  .packet (wirePacket commandData protOpWr
    ([1, 0, 0, number, 0, BitVec.ofNat 8 bytes.length, 0] ++ bytes))

/-- The word of the first segment of such a session is programmed at the start of
the staging area, from its payload. -/
theorem first_segment_confined :
    .program fwDataAddr [9, 8, 7, 6] ∈ performed (run step erasedUnit [wideNotify])
        (run step erasedUnit ([wideNotify] ++ [wideSegment 0 [9, 8, 7, 6]])) ∧
      Confined (wideSegment 0 [9, 8, 7, 6]) (.program fwDataAddr [9, 8, 7, 6]) := by
  have programmed : .program fwDataAddr [9, 8, 7, 6] ∈ performed
      (run step erasedUnit [wideNotify])
      (run step erasedUnit ([wideNotify] ++ [wideSegment 0 [9, 8, 7, 6]])) := by
    decide +kernel
  refine ⟨programmed, upgrade_writes_confined erasedUnit
    [wideNotify, wideSegment 0 [9, 8, 7, 6]] ?_ [wideNotify] [] (wideSegment 0 [9, 8, 7, 6]) rfl
    _ programmed⟩
  refine ⟨fun stores => ?_, fun _ => ?_, True.intro⟩
  · exact absurd stores (by decide +kernel)
  · exact ⟨by decide +kernel, Or.inr (by decide +kernel)⟩

/-- Four empty segments and one of two words, each within its payload: the last
word is programmed behind the staging area. -/
theorem fifth_segment_escapes :
    let earlier := [wideNotify, wideSegment 0 [], .wake, wideSegment 1 [], .wake,
      wideSegment 2 [], .wake, wideSegment 3 [], .wake]
    let last := wideSegment 4 [1, 2, 3, 4, 5, 6, 7, 8]
    ∃ op ∈ performed (run step erasedUnit earlier) (run step erasedUnit (earlier ++ [last])),
      ¬Confined last op := by
  refine ⟨.program (fwDataAddr + fwAreaSize) [5, 6, 7, 8], by decide +kernel, ?_⟩
  rintro (⟨_, high⟩ | ⟨_, high, _⟩)
  · exact absurd high (by decide)
  · exact absurd high (by decide)

end Pyrometer.UpgradeConfinement
