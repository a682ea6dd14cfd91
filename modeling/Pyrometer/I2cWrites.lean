import Pyrometer.I2cWires

/-!
# Devices that are only written, on the wires of `soft_i2c.c`

A device that nobody reads gathers the octets between a start and a stop as one transfer. While
it pulls the data line for its acknowledges only, each call of `si2c_send` is one transfer of the
address octet and the buffer, and a list of calls is a list of transfers.
-/

namespace Pyrometer.I2cWrites

open ByteMemory TwoWireBus I2cWires

/-- What a device gathers: complete transfers, and the octets of the one that goes on. -/
structure Transfers where
  complete : List (List Byte)
  octets : List Byte

/-- The device takes an item. -/
def Transfers.take (transfers : Transfers) : Item → Transfers
  | .start => ⟨transfers.complete, []⟩
  | .octet byte _ => ⟨transfers.complete, transfers.octets ++ [byte]⟩
  | .stop => ⟨transfers.complete ++ [transfers.octets], []⟩

/-- The complete transfers of some items. -/
def transfersOf (items : List Item) : List (List Byte) :=
  (items.foldl Transfers.take ⟨[], []⟩).complete

section

variable (device : Nat → Bool)

/-- The clock behind a transfer of a buffer. -/
def clockBehind (clock : Nat) (buff : List Byte) : Nat := clock + 1 + 9 * (buff.length + 1)

/-- The device pulls the data line for acknowledges only, while some buffers are sent. -/
def Listens : Nat → List (List Byte) → Prop
  | _, [] => True
  | clock, buff :: rest =>
      Free device clock ∧ Attentive device (clock + 1) (buff.length + 1) ∧
        Free device (clockBehind clock buff) ∧ Listens (clockBehind clock buff) rest

/-- Buffers are sent one after the other. -/
def sendAll (addr : Nat) (sends : List (List Byte)) (pins : Pins) : Pins :=
  sends.foldl (fun pins buff => (si2cSend device addr buff pins).2) pins

end

/-- On a bus without a device nobody pulls the data line. -/
theorem absent_listens (clock : Nat) (sends : List (List Byte)) :
    Listens (fun _ => true) clock sends := by
  have attentive (first count : Nat) : Attentive (fun _ => true) first count := by
    induction count generalizing first with
    | zero => exact True.intro
    | succ count inductionHypothesis =>
      exact ⟨fun _ _ => rfl, inductionHypothesis (first + 9)⟩
  induction sends generalizing clock with
  | nil => exact True.intro
  | cons buff rest inductionHypothesis =>
    exact ⟨rfl, attentive (clock + 1) (buff.length + 1), rfl, inductionHypothesis _⟩

/-- Octets are gathered behind those of the transfer that goes on. -/
theorem take_octets (device : Nat → Bool) (clock : Nat) (bytes : List Byte)
    (transfers : Transfers) :
    (octets device clock bytes).foldl Transfers.take transfers =
      ⟨transfers.complete, transfers.octets ++ bytes⟩ := by
  induction bytes generalizing clock transfers with
  | nil => simp [octets]
  | cons byte rest inductionHypothesis =>
    rw [octets, List.foldl_cons, inductionHypothesis]
    simp [Transfers.take]

/-- A transfer between a start and a stop is gathered as its bytes. -/
theorem transfers_of_transfer (device : Nat → Bool) (clock : Nat) (items : List Item)
    (bytes : List Byte) :
    transfersOf (items ++ .start :: octets device clock bytes ++ [.stop]) =
      transfersOf items ++ [bytes] := by
  unfold transfersOf
  simp only [List.foldl_append, List.foldl_cons, List.foldl_nil, take_octets, Transfers.take,
    List.nil_append]

variable {device : Nat → Bool}

/-- A buffer that is sent is one transfer, and all of it is reported. -/
theorem send_transfer (addr : Nat) {buff : List Byte} {rest : List (List Byte)} {pins : Pins}
    (idle : Idle pins) (listens : Listens device pins.clocks (buff :: rest)) :
    ∃ after, si2cSend device addr buff pins = (buff.length, after) ∧ Idle after ∧
      transfersOf after.reader.items =
        transfersOf pins.reader.items ++ [selectByte addr 0 :: buff] ∧
      Listens device after.clocks rest := by
  obtain ⟨begun, attentive, ended, others⟩ := listens
  refine ⟨_, si2c_send_idle idle addr buff begun attentive ended, ⟨rfl, rfl, rfl⟩, ?_, others⟩
  exact transfers_of_transfer device (pins.clocks + 1) pins.reader.items (selectByte addr 0 :: buff)

/-- Buffers that are sent are as many transfers. -/
theorem send_all_transfers (addr : Nat) (sends : List (List Byte)) {rest : List (List Byte)}
    {pins : Pins} (idle : Idle pins) (listens : Listens device pins.clocks (sends ++ rest)) :
    Idle (sendAll device addr sends pins) ∧
      transfersOf (sendAll device addr sends pins).reader.items =
        transfersOf pins.reader.items ++ sends.map (selectByte addr 0 :: ·) ∧
      Listens device (sendAll device addr sends pins).clocks rest := by
  induction sends generalizing pins with
  | nil => exact ⟨idle, (List.append_nil _).symm, listens⟩
  | cons buff sends inductionHypothesis =>
    obtain ⟨after, sent, idleAfter, transfers, others⟩ := send_transfer addr idle listens
    obtain ⟨idleLast, all, last⟩ := inductionHypothesis idleAfter others
    have first : sendAll device addr (buff :: sends) pins = sendAll device addr sends after := by
      rw [sendAll, List.foldl_cons, sent]
      rfl
    rw [first]
    refine ⟨idleLast, ?_, last⟩
    rw [all, transfers, List.append_assoc]
    rfl

end Pyrometer.I2cWrites
